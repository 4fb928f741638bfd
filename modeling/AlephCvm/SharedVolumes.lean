import AlephCvm.TranslatedRequests
import AlephCvm.VolumeCache

/-!
# Volumes shared by two machines

The cache keeps one file for a hash and category, and a request names the file
itself.  A root filesystem and a parent of a persistent volume are given to
the machine for writing, so two machines whose messages refer to one of them
meet in that file.
-/

namespace AlephCvm.Agent

open ResultContext AtomicPrograms UnixPaths AlephCvm.Grpc

/-- The answers are results of `ensure_cached`. -/
def VolumeCache.Answers (volumes : VolumeCache) (cache : CacheAnswers) :
    Prop :=
  ∀ item category path, cache item category = .ok path →
    (volumes.ensureCached item category).MayReturn (.ok path.toList)

/-- Both references are resolved to paths of one directory entry. -/
def VolumeCache.SameFile {Entry : Type} (volumes : VolumeCache)
    (entryOf : Path → Entry) (reference other : DiskReference) : Prop :=
  entryOf (volumes.localPath reference.item reference.category) =
    entryOf (volumes.localPath other.item other.category)

instance {Entry : Type} [DecidableEq Entry] (volumes : VolumeCache)
    (entryOf : Path → Entry) (reference other : DiskReference) :
    Decidable (volumes.SameFile entryOf reference other) :=
  inferInstanceAs (Decidable (_ = _))

/-! ## Paths of the cache -/

theorem VolumeCategory.cacheSubdir_injective
    {category other : VolumeCategory}
    (hsame : category.cacheSubdir = other.cacheSubdir) :
    category = other := by
  revert hsame
  cases category <;> cases other <;> decide

theorem VolumeCategory.cacheSubdir_relative (category : VolumeCategory) :
    isAbsolute category.cacheSubdir.toList = false := by
  cases category <;> decide

theorem VolumeCategory.steps_cacheSubdir (category : VolumeCategory) :
    steps category.cacheSubdir.toList =
      [.normal category.cacheSubdir.toList] := by
  cases category <;> decide

namespace VolumeCache

variable {volumes : VolumeCache} {cache : CacheAnswers}

theorem ensureCached_mayReturn_iff
    {item : ItemHash} {category : VolumeCategory} {path : Path} :
    (volumes.ensureCached item category).MayReturn (.ok path) ↔
      path = volumes.localPath item category := by
  constructor
  · intro hreturn
    have hwithin : (volumes.ensureCached item category).Within
        (fun _ => True)
        (fun result => ∀ found, result = .ok found →
          found = volumes.localPath item category) := by
      apply ensureCached_within
      · intro message found hfound
        cases hfound
      · exact fun _ _ => trivial
      · trivial
      · trivial
      · trivial
      · intro found hfound
        cases hfound
        rfl
    exact hwithin.of_mayReturn hreturn path rfl
  · rintro rfl
    exact ⟨.ok (), true, rfl⟩

theorem Answers.path
    (hcache : volumes.Answers cache) {reference : DiskReference}
    {disk : ProtoDiskConfig} (hresolves : reference.ResolvesTo cache disk) :
    disk.path.toList =
      volumes.localPath reference.item reference.category := by
  obtain ⟨path, hpath, rfl⟩ := hresolves
  exact ensureCached_mayReturn_iff.mp (hcache _ _ path hpath)

/-- The directories of the categories differ in their last component
only. -/
theorem components_cacheDir
    (hbase : volumes.baseDir ≠ []) (category : VolumeCategory) :
    components (volumes.cacheDir category) =
      components volumes.baseDir ++
        [.normal category.cacheSubdir.toList] := by
  rw [cacheDir, components_join hbase category.cacheSubdir_relative,
    category.steps_cacheSubdir]

/-- Where an entry is told by its components, relative hashes share a file
exactly when their categories are equal and their parts that count are. -/
theorem sameFile_components_iff
    (hbase : volumes.baseDir ≠ []) {reference other : DiskReference}
    (hreference : isAbsolute reference.item.toList = false)
    (hother : isAbsolute other.item.toList = false) :
    volumes.SameFile components reference other ↔
      steps reference.item.toList = steps other.item.toList ∧
        reference.category = other.category := by
  have hcomponents : ∀ disk : DiskReference,
      isAbsolute disk.item.toList = false →
      components (volumes.localPath disk.item disk.category) =
        components volumes.baseDir ++
          .normal disk.category.cacheSubdir.toList ::
            steps disk.item.toList := by
    intro disk hrelative
    rw [localPath, components_join (volumes.cacheDir_ne_nil _) hrelative,
      components_cacheDir hbase, List.append_assoc, List.singleton_append]
  unfold SameFile
  rw [hcomponents reference hreference, hcomponents other hother,
    List.append_cancel_left_eq, List.cons.injEq, Component.normal.injEq,
    String.toList_inj, and_comm]
  refine and_congr_right fun _ => ⟨?_, ?_⟩
  · exact VolumeCategory.cacheSubdir_injective
  · intro hcategory
    rw [hcategory]

end VolumeCache

/-! ## Two requests -/

/-- No file that one machine may write is given to a machine of another
message if and only if no reference for writing is resolved to the file of a
reference of the other message. -/
theorem cached_volumes_exclusive_iff
    {Entry : Type} {entryOf : Path → Entry}
    {volumes : VolumeCache} {cache otherCache : CacheAnswers}
    {config otherConfig : AdapterConfig} {msg other : ExecutableMessage}
    {req otherReq : CreateVmRequest}
    (hcache : volumes.Answers cache)
    (hotherCache : volumes.Answers otherCache)
    (hok : translateMessage cache config msg = .ok req)
    (hotherOk : translateMessage otherCache otherConfig other =
      .ok otherReq) :
    (msg.itemHash ≠ other.itemHash →
        ∀ written ∈ req.disks, written.readonly = false →
          ∀ used ∈ otherReq.disks,
            entryOf written.path.toList ≠ entryOf used.path.toList) ↔
      msg.itemHash = other.itemHash ∨
        ∀ written ∈ msg.references, written.readonly = false →
          ∀ used ∈ other.references,
            ¬ volumes.SameFile entryOf written used := by
  by_cases hitem : msg.itemHash = other.itemHash
  · simp [hitem]
  · simp only [ne_eq, hitem, not_false_eq_true, true_implies, false_or]
    constructor
    · intro hexclusive written hwritten hwritable used hused hsame
      obtain ⟨disk, hdisk, hresolves⟩ :=
        (translated_disks_resolved hok).exists_disk hwritten
      obtain ⟨found, hfound, hfoundResolves⟩ :=
        (translated_disks_resolved hotherOk).exists_disk hused
      have hentry : entryOf disk.path.toList =
          entryOf found.path.toList := by
        rw [hcache.path hresolves, hotherCache.path hfoundResolves]
        exact hsame
      have hreadonly : disk.readonly = false := by
        obtain ⟨path, _, rfl⟩ := hresolves
        exact hwritable
      exact hexclusive disk hdisk hreadonly found hfound hentry
    · intro hapart disk hdisk hwritable found hfound hentry
      obtain ⟨written, hwritten, hresolves⟩ :=
        (translated_disks_resolved hok).exists_reference hdisk
      obtain ⟨used, hused, hfoundResolves⟩ :=
        (translated_disks_resolved hotherOk).exists_reference hfound
      apply hapart written hwritten ?_ used hused
      · unfold VolumeCache.SameFile
        rw [← hcache.path hresolves, ← hotherCache.path hfoundResolves,
          hentry]
      · obtain ⟨path, _, rfl⟩ := hresolves
        exact hwritable

/-! ## Two messages -/

/-- The answers of a cache that has every item. -/
def VolumeCache.everything (volumes : VolumeCache) : CacheAnswers :=
  fun item category => .ok (String.ofList (volumes.localPath item category))

theorem VolumeCache.everything_answers (volumes : VolumeCache) :
    volumes.Answers volumes.everything := by
  intro item category path hpath
  rw [VolumeCache.everything, Except.ok.injEq] at hpath
  rw [VolumeCache.ensureCached_mayReturn_iff, ← hpath, String.toList_ofList]

/-- The request for a message like the sample instance. -/
def storedInstance (hash : ItemHash) : CreateVmRequest :=
  translatedWith (instanceNamed hash) none
    [⟨"/var/cache/aleph-cvm/runtime/rootfs-a", false, "raw"⟩,
      ⟨"/var/cache/aleph-cvm/data/volume-a", true, "raw"⟩,
      ⟨"/var/cache/aleph-cvm/data/parent-a", false, "qcow2"⟩]

def storedProgram : CreateVmRequest :=
  translatedWith sampleProgram (some ⟨"sev-snp", ""⟩)
    [⟨"/var/cache/aleph-cvm/runtime/runtime-b", true, "squashfs"⟩,
      ⟨"/var/cache/aleph-cvm/code/code-b", true, "zip"⟩]

theorem cached_volumes_exclusive_for_program :
    translateMessage sampleVolumes.everything sampleAgent.adapterConfig
        (instanceNamed "vm-a") = .ok (storedInstance "vm-a") ∧
      translateMessage sampleVolumes.everything sampleAgent.adapterConfig
        sampleProgram = .ok storedProgram ∧
      ∀ written ∈ (storedInstance "vm-a").disks, written.readonly = false →
        ∀ used ∈ storedProgram.disks,
          components written.path.toList ≠ components used.path.toList := by
  have hinstance : translateMessage sampleVolumes.everything
      sampleAgent.adapterConfig (instanceNamed "vm-a") =
        .ok (storedInstance "vm-a") := by
    decide
  have hprogram : translateMessage sampleVolumes.everything
      sampleAgent.adapterConfig sampleProgram = .ok storedProgram := by
    decide
  exact ⟨hinstance, hprogram,
    (cached_volumes_exclusive_iff sampleVolumes.everything_answers
      sampleVolumes.everything_answers hinstance hprogram).mpr
        (.inr (by decide)) (by decide)⟩

/-- Two instances with one root filesystem both write the cached file. -/
theorem instances_write_one_rootfs :
    translateMessage sampleVolumes.everything sampleAgent.adapterConfig
        (instanceNamed "vm-a") = .ok (storedInstance "vm-a") ∧
      translateMessage sampleVolumes.everything sampleAgent.adapterConfig
        (instanceNamed "vm-c") = .ok (storedInstance "vm-c") ∧
      ¬ ((instanceNamed "vm-a").itemHash ≠ (instanceNamed "vm-c").itemHash →
        ∀ written ∈ (storedInstance "vm-a").disks,
          written.readonly = false →
            ∀ used ∈ (storedInstance "vm-c").disks,
              components written.path.toList ≠
                components used.path.toList) := by
  refine ⟨by decide, by decide, ?_⟩
  intro hexclusive
  have hdisk : (⟨"/var/cache/aleph-cvm/runtime/rootfs-a", false, "raw"⟩ :
      ProtoDiskConfig) ∈ (storedInstance "vm-a").disks ∧
        (⟨"/var/cache/aleph-cvm/runtime/rootfs-a", false, "raw"⟩ :
      ProtoDiskConfig) ∈ (storedInstance "vm-c").disks := by
    decide
  exact hexclusive (by decide) _ hdisk.1 rfl _ hdisk.2 rfl

end AlephCvm.Agent
