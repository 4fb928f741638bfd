import Mathlib.Data.List.Forall2
import AlephCvm.SchedulerConvergence

/-!
# Translated requests at the compute node

The agent translates a message into a request and the compute node reads the
request.  Each disk of the request comes from one reference of the message,
so that what the node says about the disks is a statement about the message.
The composition shows where the two sides do not mean the same: a message
without trusted execution becomes a confidential machine, the disks of a
program have formats that the node refuses, and no item hash is short enough
for a machine's id.
-/

namespace AlephCvm.Agent

open ResultContext AlephCvm.Tee AlephCvm.Vm AlephCvm.Grpc

/-! ## The references of a message -/

/-- A content that a message refers to, and the disk that it becomes. -/
structure DiskReference where
  item : ItemHash
  category : VolumeCategory
  readonly : Bool
  format : String
  deriving DecidableEq, Repr

def MachineVolume.reference : MachineVolume → Option DiskReference
  | .immutable item => some ⟨item, .data, true, "raw"⟩
  | .persistent parent =>
      parent.map fun item => ⟨item, .data, false, "qcow2"⟩
  | .ephemeral => none

namespace ExecutableMessage

variable (msg : ExecutableMessage)

def rootfsReference : Option DiskReference :=
  msg.rootfs.map fun item => ⟨item, .runtime, false, "raw"⟩

def runtimeReference : Option DiskReference :=
  msg.runtime.map fun item => ⟨item, .runtime, true, "squashfs"⟩

def codeReference : Option DiskReference :=
  msg.code.map fun code =>
    ⟨code.itemRef, .code, true, code.encoding.text⟩

def references : List DiskReference :=
  msg.rootfsReference.toList ++ msg.runtimeReference.toList ++
    msg.codeReference.toList ++
    msg.volumes.filterMap MachineVolume.reference

theorem mem_references {reference : DiskReference} :
    reference ∈ msg.references ↔
      (∃ item, msg.rootfs = some item ∧
        reference = ⟨item, .runtime, false, "raw"⟩) ∨
      (∃ item, msg.runtime = some item ∧
        reference = ⟨item, .runtime, true, "squashfs"⟩) ∨
      (∃ code, msg.code = some code ∧
        reference = ⟨code.itemRef, .code, true, code.encoding.text⟩) ∨
      (∃ item, .immutable item ∈ msg.volumes ∧
        reference = ⟨item, .data, true, "raw"⟩) ∨
      ∃ item, .persistent (some item) ∈ msg.volumes ∧
        reference = ⟨item, .data, false, "qcow2"⟩ := by
  have hvolumes : (∃ volume ∈ msg.volumes,
      volume.reference = some reference) ↔
        (∃ item, .immutable item ∈ msg.volumes ∧
          reference = ⟨item, .data, true, "raw"⟩) ∨
        ∃ item, .persistent (some item) ∈ msg.volumes ∧
          reference = ⟨item, .data, false, "qcow2"⟩ := by
    constructor
    · rintro ⟨volume, hvolume, hreference⟩
      cases volume with
      | immutable item =>
          simp only [MachineVolume.reference, Option.some.injEq]
            at hreference
          exact .inl ⟨item, hvolume, hreference.symm⟩
      | persistent parent =>
          simp only [MachineVolume.reference, Option.map_eq_some_iff]
            at hreference
          obtain ⟨item, rfl, hitem⟩ := hreference
          exact .inr ⟨item, hvolume, hitem.symm⟩
      | ephemeral => simp [MachineVolume.reference] at hreference
    · rintro (⟨item, hvolume, rfl⟩ | ⟨item, hvolume, rfl⟩)
      · exact ⟨_, hvolume, rfl⟩
      · exact ⟨_, hvolume, rfl⟩
  simp only [references, List.mem_append, Option.mem_toList,
    List.mem_filterMap, hvolumes, rootfsReference, runtimeReference,
    codeReference, Option.map_eq_some_iff, or_assoc, eq_comm (a := reference)]

end ExecutableMessage

def DiskReference.ResolvesTo (reference : DiskReference)
    (cache : CacheAnswers) (disk : ProtoDiskConfig) : Prop :=
  ∃ path, cache reference.item reference.category = .ok path ∧
    disk = ⟨path, reference.readonly, reference.format⟩

theorem cachedDisk_eq_ok
    {cache : CacheAnswers} {item : ItemHash} {category : VolumeCategory}
    {what format : String} {readonly : Bool} {disk : ProtoDiskConfig} :
    cachedDisk cache item category what readonly format = .ok disk ↔
      (DiskReference.mk item category readonly format).ResolvesTo cache
        disk := by
  simp only [cachedDisk, bind_eq_ok, context_eq_ok, pure_eq_ok,
    DiskReference.ResolvesTo]
  constructor
  · rintro ⟨path, hpath, rfl⟩
    exact ⟨path, hpath, rfl⟩
  · rintro ⟨path, hpath, rfl⟩
    exact ⟨path, hpath, rfl⟩

/-- The disks are those of the references, one for each. -/
def ResolvedTo (cache : CacheAnswers) :
    List DiskReference → List ProtoDiskConfig → Prop :=
  List.Forall₂ fun reference disk => reference.ResolvesTo cache disk

theorem ResolvedTo.exists_disk
    {cache : CacheAnswers} {references : List DiskReference}
    {disks : List ProtoDiskConfig}
    (hresolved : ResolvedTo cache references disks)
    {reference : DiskReference} (hreference : reference ∈ references) :
    ∃ disk ∈ disks, reference.ResolvesTo cache disk := by
  induction hresolved with
  | nil => cases hreference
  | @cons first disk references disks hfirst hrest ih =>
      rcases List.mem_cons.mp hreference with rfl | hmem
      · exact ⟨disk, List.mem_cons_self, hfirst⟩
      · obtain ⟨found, hfound, hresolves⟩ := ih hmem
        exact ⟨found, List.mem_cons_of_mem _ hfound, hresolves⟩

theorem ResolvedTo.exists_reference
    {cache : CacheAnswers} {references : List DiskReference}
    {disks : List ProtoDiskConfig}
    (hresolved : ResolvedTo cache references disks)
    {disk : ProtoDiskConfig} (hdisk : disk ∈ disks) :
    ∃ reference ∈ references, reference.ResolvesTo cache disk := by
  induction hresolved with
  | nil => cases hdisk
  | @cons reference first references disks hfirst hrest ih =>
      rcases List.mem_cons.mp hdisk with rfl | hmem
      · exact ⟨reference, List.mem_cons_self, hfirst⟩
      · obtain ⟨found, hfound, hresolves⟩ := ih hmem
        exact ⟨found, List.mem_cons_of_mem _ hfound, hresolves⟩

/-- An optional part of a message gives the disk of its reference. -/
theorem optionalDisk_resolved
    {cache : CacheAnswers} {item : Option α}
    {disk : α → Except String ProtoDiskConfig}
    {reference : α → DiskReference}
    (hdisk : ∀ value found, disk value = .ok found ↔
      (reference value).ResolvesTo cache found)
    {disks : List ProtoDiskConfig}
    (hok : optionalDisk item disk = .ok disks) :
    ResolvedTo cache (item.map reference).toList disks := by
  cases item with
  | none =>
      simp only [optionalDisk, Except.ok.injEq] at hok
      subst hok
      exact .nil
  | some value =>
      simp only [optionalDisk, bind_eq_ok, pure_eq_ok] at hok
      obtain ⟨first, hfirst, rfl⟩ := hok
      exact .cons ((hdisk value first).mp hfirst) .nil

theorem volumeDisk_resolved
    {cache : CacheAnswers} {volume : MachineVolume}
    {disks : List ProtoDiskConfig}
    (hok : volumeDisk cache volume = .ok disks) :
    ResolvedTo cache volume.reference.toList disks := by
  cases volume with
  | immutable item =>
      simp only [volumeDisk] at hok
      exact optionalDisk_resolved (fun _ _ => cachedDisk_eq_ok) hok
  | persistent parent =>
      simp only [volumeDisk] at hok
      exact optionalDisk_resolved (fun _ _ => cachedDisk_eq_ok) hok
  | ephemeral =>
      simp only [volumeDisk, Except.ok.injEq] at hok
      subst hok
      exact .nil

theorem volumeDisks_resolved
    {cache : CacheAnswers} {volumes : List MachineVolume}
    {disks : List (List ProtoDiskConfig)}
    (hok : volumes.mapM (volumeDisk cache) = .ok disks) :
    ResolvedTo cache (volumes.filterMap MachineVolume.reference)
      disks.flatten := by
  induction volumes generalizing disks with
  | nil =>
      simp only [List.mapM_nil, pure_eq_ok] at hok
      subst hok
      exact .nil
  | cons volume rest ih =>
      obtain ⟨first, others, hfirst, hothers, rfl⟩ :=
        mapM_cons_eq_ok.mp hok
      have hreferences :
          (volume :: rest).filterMap MachineVolume.reference =
            volume.reference.toList ++
              rest.filterMap MachineVolume.reference := by
        cases hreference : volume.reference with
        | none => simp [hreference]
        | some reference => simp [hreference]
      rw [hreferences, List.flatten_cons]
      exact List.rel_append (volumeDisk_resolved hfirst) (ih hothers)

/-- The disks of a translated message, in the order of its references. -/
theorem translated_disks_resolved
    {cache : CacheAnswers} {config : AdapterConfig}
    {msg : ExecutableMessage} {req : CreateVmRequest}
    (hok : translateMessage cache config msg = .ok req) :
    ResolvedTo cache msg.references req.disks := by
  simp only [translateMessage, bind_eq_ok, pure_eq_ok] at hok
  obtain ⟨rootfs, hrootfs, runtime, hruntime, code, hcode, volumes, hvolumes,
    rfl⟩ := hok
  have hrootfs : ResolvedTo cache msg.rootfsReference.toList rootfs :=
    optionalDisk_resolved (fun _ _ => cachedDisk_eq_ok) hrootfs
  have hruntime : ResolvedTo cache msg.runtimeReference.toList runtime :=
    optionalDisk_resolved (fun _ _ => cachedDisk_eq_ok) hruntime
  have hcode : ResolvedTo cache msg.codeReference.toList code :=
    optionalDisk_resolved (fun _ _ => cachedDisk_eq_ok) hcode
  exact List.rel_append (List.rel_append
    (List.rel_append hrootfs hruntime) hcode) (volumeDisks_resolved hvolumes)

/-! ## Trusted execution -/

/-- Every translated message asks for a confidential machine: without a TEE
configuration the node takes its default, which is SEV-SNP. -/
theorem parseTeeConfig_translated
    {cache : CacheAnswers} {config : AdapterConfig}
    {msg : ExecutableMessage} {req : CreateVmRequest}
    (hok : translateMessage cache config msg = .ok req) :
    (parseTeeConfig req.tee).map TeeConfig.backend = .ok .sevSnp := by
  simp only [translateMessage, bind_eq_ok, pure_eq_ok] at hok
  obtain ⟨rootfs, _, runtime, _, code, _, volumes, _, rfl⟩ := hok
  unfold translateTee
  split_ifs with hconfidential
  · rfl
  · rfl

/-- The TEE type that the node derives is the message's own if and only if
the message is confidential. -/
theorem confidentiality_preserved_iff
    {cache : CacheAnswers} {config : AdapterConfig}
    {msg : ExecutableMessage} {req : CreateVmRequest}
    (hok : translateMessage cache config msg = .ok req) :
    (parseTeeConfig req.tee).map TeeConfig.backend =
        .ok (if msg.isConfidential then .sevSnp else .none) ↔
      msg.isConfidential = true := by
  rw [parseTeeConfig_translated hok]
  cases msg.isConfidential with
  | true => simp
  | false => simp

/-! A message of each kind, with everything in the cache. -/

def sampleCache : CacheAnswers := fun item _ =>
  .ok ("/var/cache/aleph-cvm/" ++ item)

def sampleInstance : ExecutableMessage where
  itemHash := "vm-a"
  resources := ⟨1, 128, [⟨"tcp", 8080⟩]⟩
  volumes := [.immutable "volume-a", .persistent (some "parent-a"),
    .persistent none, .ephemeral]
  trustedExecution := none
  rootfs := some "rootfs-a"
  code := none
  runtime := none

def sampleProgram : ExecutableMessage where
  itemHash := "vm-b"
  resources := ⟨1, 128, []⟩
  volumes := []
  trustedExecution := some ⟨0, false⟩
  rootfs := none
  code := some ⟨.zip, "code-b"⟩
  runtime := some "runtime-b"

def translatedWith (msg : ExecutableMessage) (tee : Option ProtoTeeConfig)
    (disks : List ProtoDiskConfig) : CreateVmRequest where
  vmId := msg.itemHash
  kernel := sampleAgent.adapterConfig.kernelPath
  initrd := sampleAgent.adapterConfig.initrdPath
  disks := disks
  vcpus := msg.resources.vcpus
  memoryMb := msg.resources.memory
  tee := tee
  ipv6Address := ""
  ipv6PrefixLen := 0
  encrypted := msg.isEncrypted
  numaNode := 0

def translatedInstance : CreateVmRequest :=
  translatedWith sampleInstance none
    [⟨"/var/cache/aleph-cvm/rootfs-a", false, "raw"⟩,
      ⟨"/var/cache/aleph-cvm/volume-a", true, "raw"⟩,
      ⟨"/var/cache/aleph-cvm/parent-a", false, "qcow2"⟩]

def translatedProgram : CreateVmRequest :=
  translatedWith sampleProgram (some ⟨"sev-snp", ""⟩)
    [⟨"/var/cache/aleph-cvm/runtime-b", true, "squashfs"⟩,
      ⟨"/var/cache/aleph-cvm/code-b", true, "zip"⟩]

theorem confidentiality_preserved_for_program :
    (parseTeeConfig translatedProgram.tee).map TeeConfig.backend =
      .ok (if sampleProgram.isConfidential then .sevSnp else .none) :=
  (confidentiality_preserved_iff
    (show translateMessage sampleCache sampleAgent.adapterConfig
      sampleProgram = .ok translatedProgram by decide)).mpr rfl

theorem plain_instance_becomes_confidential :
    translateMessage sampleCache sampleAgent.adapterConfig sampleInstance =
        .ok translatedInstance ∧
      sampleInstance.isConfidential = false ∧
      (parseTeeConfig translatedInstance.tee).map TeeConfig.backend ≠
        .ok (if sampleInstance.isConfidential then .sevSnp else .none) := by
  refine ⟨by decide, rfl, ?_⟩
  decide

/-! ## Formats of disks -/

/-- The content is in the cache, at a path that the node can open and that
can stand in an option of QEMU. -/
def DiskReference.CachedAt (reference : DiskReference)
    (pathExists : String → Bool) (cache : CacheAnswers) : Prop :=
  ∃ path, cache reference.item reference.category = .ok path ∧
    path.toList.head? = some '/' ∧ pathExists path = true ∧
    ',' ∉ path.toList

instance (reference : DiskReference) (pathExists : String → Bool)
    (cache : CacheAnswers) :
    Decidable (reference.CachedAt pathExists cache) :=
  match hanswer : cache reference.item reference.category with
  | .ok path => decidable_of_iff
      (path.toList.head? = some '/' ∧ pathExists path = true ∧
        ',' ∉ path.toList) (by simp [DiskReference.CachedAt, hanswer])
  | .error _ => .isFalse (by simp [DiskReference.CachedAt, hanswer])

theorem validateFilePath_eq_ok
    {pathExists : String → Bool} {path fieldName : String}
    (habsolute : path.toList.head? = some '/')
    (hexists : pathExists path = true) :
    validateFilePath pathExists path fieldName = .ok () := by
  have hnonempty : path.isEmpty = false := by
    by_contra hempty
    have hnil : path.toList = [] := by simpa using hempty
    simp [hnil] at habsolute
  simp [validateFilePath, hnonempty, habsolute, hexists]

theorem validateDisk_resolved
    {pathExists : String → Bool} {cache : CacheAnswers}
    {reference : DiskReference} {disk : ProtoDiskConfig}
    (hcached : reference.CachedAt pathExists cache)
    (hresolves : reference.ResolvesTo cache disk) :
    validateDisk pathExists disk = .ok () ↔
      diskFormat disk = "raw" ∨ diskFormat disk = "qcow2" := by
  obtain ⟨path, hpath, habsolute, hexists, hcomma⟩ := hcached
  obtain ⟨found, hfound, rfl⟩ := hresolves
  rw [hpath, Except.ok.injEq] at hfound
  subst hfound
  rw [validateDisk_eq_ok, validateFilePath_eq_ok habsolute hexists]
  simp [hcomma]

theorem diskFormat_of_ne_empty
    {disk : ProtoDiskConfig} (hformat : disk.format ≠ "") :
    diskFormat disk = disk.format := by
  have hnonempty : disk.format.isEmpty = false := by simpa using hformat
  simp [diskFormat, hnonempty]

theorem Encoding.text_unsupported (encoding : Encoding) :
    encoding.text ≠ "" ∧ encoding.text ≠ "raw" ∧
      encoding.text ≠ "qcow2" := by
  cases encoding with
  | plain => decide
  | zip => decide
  | squashfs => decide

theorem ExecutableMessage.format_ne_empty
    {msg : ExecutableMessage} {reference : DiskReference}
    (hreference : reference ∈ msg.references) :
    reference.format ≠ "" := by
  rcases msg.mem_references.mp hreference with
    ⟨item, _, rfl⟩ | ⟨item, _, rfl⟩ | ⟨code, _, rfl⟩ | ⟨item, _, rfl⟩ |
      ⟨item, _, rfl⟩
  · exact (by decide : "raw" ≠ "")
  · exact (by decide : "squashfs" ≠ "")
  · exact code.encoding.text_unsupported.1
  · exact (by decide : "raw" ≠ "")
  · exact (by decide : "qcow2" ≠ "")

/-- The formats of root filesystems and volumes are supported, those of
runtimes and code are not. -/
theorem ExecutableMessage.formats_supported_iff (msg : ExecutableMessage) :
    (∀ reference ∈ msg.references,
        reference.format = "raw" ∨ reference.format = "qcow2") ↔
      msg.runtime = none ∧ msg.code = none := by
  constructor
  · intro hsupported
    constructor
    · by_contra hruntime
      obtain ⟨item, hitem⟩ := Option.ne_none_iff_exists'.mp hruntime
      have hformat := hsupported _
        (msg.mem_references.mpr (.inr (.inl ⟨item, hitem, rfl⟩)))
      exact (by decide :
        ¬ ("squashfs" = "raw" ∨ "squashfs" = "qcow2")) hformat
    · by_contra hcode
      obtain ⟨code, hitem⟩ := Option.ne_none_iff_exists'.mp hcode
      have hformat := hsupported _
        (msg.mem_references.mpr (.inr (.inr (.inl ⟨code, hitem, rfl⟩))))
      have htext := code.encoding.text_unsupported
      rcases hformat with hraw | hqcow2
      · exact htext.2.1 hraw
      · exact htext.2.2 hqcow2
  · intro ⟨hruntime, hcode⟩ reference hreference
    rcases msg.mem_references.mp hreference with
      ⟨item, _, rfl⟩ | ⟨item, hitem, rfl⟩ | ⟨code, hitem, rfl⟩ |
        ⟨item, _, rfl⟩ | ⟨item, _, rfl⟩
    · exact .inl rfl
    · rw [hruntime] at hitem
      cases hitem
    · rw [hcode] at hitem
      cases hitem
    · exact .inl rfl
    · exact .inr rfl

/-- When everything that a message refers to is in the cache, the node's disk
checks pass if and only if the message has neither a runtime nor code. -/
theorem translated_disks_admissible_iff
    {cache : CacheAnswers} {config : AdapterConfig}
    {pathExists : String → Bool} {msg : ExecutableMessage}
    {req : CreateVmRequest}
    (hcached : ∀ reference ∈ msg.references,
      reference.CachedAt pathExists cache)
    (hok : translateMessage cache config msg = .ok req) :
    (∀ disk ∈ req.disks, validateDisk pathExists disk = .ok ()) ↔
      msg.runtime = none ∧ msg.code = none := by
  rw [← msg.formats_supported_iff]
  constructor
  · intro hadmissible reference hreference
    obtain ⟨disk, hmem, hresolves⟩ :=
      (translated_disks_resolved hok).exists_disk hreference
    have hdisk := hadmissible disk hmem
    rw [validateDisk_resolved (hcached reference hreference) hresolves]
      at hdisk
    obtain ⟨path, _, rfl⟩ := hresolves
    rw [diskFormat_of_ne_empty (msg.format_ne_empty hreference)] at hdisk
    exact hdisk
  · intro hsupported disk hdisk
    obtain ⟨reference, hreference, hresolves⟩ :=
      (translated_disks_resolved hok).exists_reference hdisk
    rw [validateDisk_resolved (hcached reference hreference) hresolves]
    obtain ⟨path, _, rfl⟩ := hresolves
    rw [diskFormat_of_ne_empty (msg.format_ne_empty hreference)]
    exact hsupported reference hreference

theorem translated_disks_admissible_for_instance :
    translateMessage sampleCache sampleAgent.adapterConfig sampleInstance =
        .ok translatedInstance ∧
      ∀ disk ∈ translatedInstance.disks,
        validateDisk (fun _ => true) disk = .ok () := by
  have hcached : ∀ reference ∈ sampleInstance.references,
      reference.CachedAt (fun _ => true) sampleCache := by
    decide
  have htranslated : translateMessage sampleCache sampleAgent.adapterConfig
      sampleInstance = .ok translatedInstance := by
    decide
  exact ⟨htranslated,
    (translated_disks_admissible_iff hcached htranslated).mpr ⟨rfl, rfl⟩⟩

theorem program_disks_refused :
    (∀ reference ∈ sampleProgram.references,
        reference.CachedAt (fun _ => true) sampleCache) ∧
      translateMessage sampleCache sampleAgent.adapterConfig sampleProgram =
        .ok translatedProgram ∧
      ¬ ∀ disk ∈ translatedProgram.disks,
        validateDisk (fun _ => true) disk = .ok () := by
  refine ⟨by decide, by decide, ?_⟩
  decide

/-! ## Ids of machines -/

def isBase32 (char : Char) : Bool :=
  decide ('a' ≤ char ∧ char ≤ 'z') || decide ('2' ≤ char ∧ char ≤ '7')

def isBase58 (char : Char) : Bool :=
  char.isAlphanum && !(['0', 'O', 'I', 'l'].contains char)

/-- The item hashes of the network: the hexadecimal digits of a SHA-256
digest, or an IPFS content id of either version. -/
inductive IsItemHash (hash : ItemHash) : Prop where
  | sha256
      (hlength : hash.toList.length = 64)
      (hdigits : ∀ char ∈ hash.toList, (digitValue 16 char).isSome = true)
  | cidV0
      (hlength : hash.toList.length = 46)
      (hstart : ['Q', 'm'] <+: hash.toList)
      (hdigits : ∀ char ∈ hash.toList, isBase58 char = true)
  | cidV1
      (hlength : hash.toList.length = 59)
      (hstart : ['b'] <+: hash.toList)
      (hdigits : ∀ char ∈ hash.toList, isBase32 char = true)

theorem IsItemHash.le_length {hash : ItemHash} (hhash : IsItemHash hash) :
    46 ≤ hash.toList.length := by
  cases hhash with
  | sha256 hlength => omega
  | cidV0 hlength => omega
  | cidV1 hlength => omega

theorem length_le_utf8ByteSize (text : String) :
    text.toList.length ≤ text.utf8ByteSize := by
  rw [← String.ofList_toList (s := text)]
  generalize text.toList = chars
  rw [String.toList_ofList]
  induction chars with
  | nil => simp
  | cons char rest ih =>
      have hsize := char.utf8Size_pos
      rw [← List.singleton_append, String.ofList_append,
        String.utf8ByteSize_append, ← String.singleton_eq_ofList,
        String.utf8ByteSize_singleton, List.length_append,
        List.length_singleton]
      omega

theorem validateVmId_itemHash
    {hash : ItemHash} (hhash : IsItemHash hash) :
    validateVmId hash ≠ .ok () := by
  have hlength := hhash.le_length
  have hsize := length_le_utf8ByteSize hash
  have hlong : maxVmIdLen < hash.utf8ByteSize := by
    unfold maxVmIdLen
    omega
  unfold validateVmId
  split_ifs with hempty
  · intro hok
    cases hok
  · intro hok
    cases hok

/-- What the agent and the node have to agree on about the machine of a
message: the node accepts its id in every request, no other message has the
same id, and once created the machine is listed under the item hash, which is
what the agent compares with the allocation. -/
structure IdentityAgrees (msg : ExecutableMessage) (req : CreateVmRequest) :
    Prop where
  accepted : validateVmId req.vmId = .ok ()
  forwarded : ∀ forward ∈ translatePortForwards msg,
    validateVmId forward.vmId = .ok ()
  distinct : ∀ cache config other otherReq,
    translateMessage cache config other = .ok otherReq →
      other.itemHash ≠ msg.itemHash → otherReq.vmId ≠ req.vmId
  reported : ∀ (cfg : NodeConfig) (node after : Node cfg) pathExists calls
    info listing, KeyedNode node →
      Grpc.createVm node pathExists calls req = (.ok info, after) →
        listedVms after listing = insert msg.itemHash (listedVms node listing)

theorem grpcCreateVm_keyed
    {cfg : NodeConfig} {node : Node cfg} (hkeyed : KeyedNode node)
    (pathExists : String → Bool) (calls : CreateCalls)
    (req : CreateVmRequest) :
    KeyedNode (Grpc.createVm node pathExists calls req).2 := by
  unfold Grpc.createVm
  cases translateRequest pathExists req with
  | error status => exact hkeyed
  | ok arguments =>
      have hstep := KeyedNode.step node (.createVm calls arguments.config
        arguments.requestedIpv6 arguments.numaHint) hkeyed
      rw [Node.step] at hstep
      dsimp only
      generalize node.createVm calls arguments.config
        arguments.requestedIpv6 arguments.numaHint = result at hstep
      obtain ⟨failure | created, final⟩ := result
      · exact hstep
      · exact hstep

theorem listedVms_grpcCreateVm
    {cfg : NodeConfig} {node after : Node cfg} {pathExists : String → Bool}
    {calls : CreateCalls} {req : CreateVmRequest} {info : ProtoVmInfo}
    (hkeyed : KeyedNode node) (listing : AllocationCalls)
    (hok : Grpc.createVm node pathExists calls req = (.ok info, after)) :
    listedVms after listing = insert req.vmId (listedVms node listing) := by
  obtain ⟨_, handle, _, hvms⟩ := grpcCreateVm_ok hok
  have hafter := grpcCreateVm_keyed hkeyed pathExists calls req
  rw [hok] at hafter
  ext id
  rw [Finset.mem_insert, mem_listedVms hafter, mem_listedVms hkeyed, hvms]
  by_cases hid : id = req.vmId
  · subst hid
    simp
  · simp [AList.lookup_insert_ne hid, hid]

/-- The node's check of the id is the only place where the two sides can
disagree. -/
theorem identityAgrees_iff
    {cache : CacheAnswers} {config : AdapterConfig}
    {msg : ExecutableMessage} {req : CreateVmRequest}
    (hok : translateMessage cache config msg = .ok req) :
    IdentityAgrees msg req ↔ validateVmId msg.itemHash = .ok () := by
  have hid := translateMessage_vmId hok
  constructor
  · intro hagrees
    rw [← hid]
    exact hagrees.accepted
  · intro hvalid
    constructor
    case accepted =>
      rw [hid]
      exact hvalid
    case forwarded =>
      intro forward hforward
      simp only [translatePortForwards, List.mem_map] at hforward
      obtain ⟨published, _, rfl⟩ := hforward
      exact hvalid
    case distinct =>
      intro cache config other otherReq hother hne
      rw [hid, translateMessage_vmId hother]
      exact hne
    case reported =>
      intro cfg node after pathExists calls info listing hkeyed hcreated
      rw [← hid]
      exact listedVms_grpcCreateVm hkeyed listing hcreated

/-- No item hash of the network passes the node's check, so the two sides
agree about no machine of the network. -/
theorem item_hash_identity_refused
    {cache : CacheAnswers} {config : AdapterConfig}
    {msg : ExecutableMessage} {req : CreateVmRequest}
    (hhash : IsItemHash msg.itemHash)
    (hok : translateMessage cache config msg = .ok req) :
    ¬ IdentityAgrees msg req := by
  rw [identityAgrees_iff hok]
  exact validateVmId_itemHash hhash

def instanceNamed (hash : ItemHash) : ExecutableMessage :=
  { sampleInstance with itemHash := hash }

def requestNamed (hash : ItemHash) : CreateVmRequest :=
  { translatedInstance with vmId := hash }

/-- A content id of the first version. -/
def contentId : ItemHash := "QmYwAPJzv5CZsnA625s3Xf2nemtYgPpHdWEz79ojWKPbdG"

def digestHash : ItemHash :=
  "0123456789abcdef0123456789abcdef0123456789abcdef0123456789abcdef"

theorem content_id_identity_refused :
    ¬ IdentityAgrees (instanceNamed contentId) (requestNamed contentId) :=
  item_hash_identity_refused
    (show IsItemHash contentId from
      .cidV0 (by decide) (by decide)
        (List.all_eq_true.mp (by decide)))
    (show translateMessage sampleCache sampleAgent.adapterConfig
      (instanceNamed contentId) = .ok (requestNamed contentId) by
        decide)

theorem digest_identity_refused :
    IsItemHash (instanceNamed digestHash).itemHash ∧
      translateMessage sampleCache sampleAgent.adapterConfig
        (instanceNamed digestHash) = .ok (requestNamed digestHash) ∧
      ¬ IdentityAgrees (instanceNamed digestHash)
        (requestNamed digestHash) := by
  refine ⟨?_, by decide, ?_⟩
  · exact .sha256 (by decide)
      (List.all_eq_true.mp (by decide))
  · intro hagrees
    have hrefused :
        validateVmId (requestNamed digestHash).vmId ≠ .ok () := by
      decide
    exact hrefused hagrees.accepted

end AlephCvm.Agent
