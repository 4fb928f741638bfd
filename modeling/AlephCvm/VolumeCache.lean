import AlephCvm.AtomicPrograms
import AlephCvm.MessageAdapter
import AlephCvm.UnixPaths

/-!
# The volume cache

Model of `aleph-scheduler-agent/src/aleph/volumes.rs`.  A call of the cache is
a program of requests and file operations, whose failures end it with the
context of the failed step.  An item hash is an unchecked text that becomes a
part of a path: the operations stay in the directory of the category exactly
when that text names an entry of it.
-/

namespace AlephCvm.Agent

open ResultContext AtomicPrograms UnixPaths AlephCvm.Tee

/-! ## Paths of the cache -/

def VolumeCategory.urlSegment : VolumeCategory → String
  | .code => "code"
  | .runtime => "runtime"
  | .data => "data"

def VolumeCategory.cacheSubdir : VolumeCategory → String
  | .code => "code"
  | .runtime => "runtime"
  | .data => "data"

structure VolumeCache where
  baseDir : Path
  connectorUrl : String

/-- Slashes at the end of the connector's URL are dropped. -/
def VolumeCache.new (baseDir : Path) (connectorUrl : String) :
    VolumeCache where
  baseDir := baseDir
  connectorUrl := String.ofList
    (connectorUrl.toList.reverse.dropWhile (· == '/')).reverse

namespace VolumeCache

variable (cache : VolumeCache) (itemHash : ItemHash)
  (category : VolumeCategory)

def cacheDir : Path := join cache.baseDir category.cacheSubdir.toList

def localPath : Path := join (cache.cacheDir category) itemHash.toList

def tmpExtension : Path := "tmp".toList

def tmpPath : Path :=
  withExtension (cache.localPath itemHash category) tmpExtension

def url : String :=
  s!"{cache.connectorUrl}/download/{category.urlSegment}/{itemHash}"

end VolumeCache

/-! ## Programs -/

/-- A file that was opened. -/
abbrev FileId := ℕ

inductive CacheAction where
  | createDirAll (path : Path)
  | pathExists (path : Path)
  | request (url : String)
  | createFile (path : Path)
  | readBody (url : String)
  | writeAll (file : FileId) (bytes : Bytes)
  | flush (file : FileId)
  | rename (source target : Path)
  | removeFile (path : Path)
  deriving DecidableEq

/-- A request that was answered carries what `error_for_status` says. -/
abbrev CacheAction.Response : CacheAction → Type
  | .pathExists _ => Bool
  | .request _ => Except String (Except String Unit)
  | .createFile _ => Except String FileId
  | .readBody _ => Except String Bytes
  | .createDirAll _ | .writeAll _ _ | .flush _ | .rename _ _ |
    .removeFile _ => Except String Unit

abbrev CacheProgram (α : Type) := Program CacheAction CacheAction.Response α

def perform (action : CacheAction) : CacheProgram action.Response :=
  .action action

/-- The program goes on with the value of a successful result and ends with
the error of a failed one. -/
def andThen {α β : Type} (result : Except String α)
    (next : α → CacheProgram (Except String β)) :
    CacheProgram (Except String β) :=
  match result with
  | .error message => return .error message
  | .ok value => next value

namespace VolumeCache

variable (cache : VolumeCache) (itemHash : ItemHash)
  (category : VolumeCategory)

/-- The body is read and written to the open file, which then gets its
name. -/
def storeBody (file : FileId) : CacheProgram (Except String Path) := do
  let url := cache.url itemHash category
  let localPath := cache.localPath itemHash category
  andThen (context s!"reading body from {url}" (← perform (.readBody url)))
    fun bytes => do
  andThen (context "writing volume" (← perform (.writeAll file bytes)))
    fun _ => do
  andThen (← perform (.flush file)) fun _ => do
  andThen (context "renaming temp file to final path" (← perform
    (.rename (cache.tmpPath itemHash category) localPath))) fun _ =>
      return .ok localPath

def download : CacheProgram (Except String Path) := do
  let url := cache.url itemHash category
  andThen (context s!"requesting {url}" (← perform (.request url)))
    fun status => do
  andThen (context s!"HTTP error for {url}" status) fun _ => do
  andThen (context "creating temp file" (← perform
    (.createFile (cache.tmpPath itemHash category))))
      (cache.storeBody itemHash category)

def ensureCached : CacheProgram (Except String Path) := do
  andThen (context "creating cache directory" (← perform
    (.createDirAll (cache.cacheDir category)))) fun _ => do
  if ← perform (.pathExists (cache.localPath itemHash category)) then
    return .ok (cache.localPath itemHash category)
  else cache.download itemHash category

def evict : CacheProgram (Except String Unit) := do
  let path := cache.localPath itemHash category
  if ← perform (.pathExists path) then perform (.removeFile path)
  else return .ok ()

end VolumeCache

/-! ## Confinement -/

/-- The paths of volumes and of their temporary files that an action
touches. -/
def CacheAction.volumePaths : CacheAction → List Path
  | .pathExists path | .createFile path | .removeFile path => [path]
  | .rename source target => [source, target]
  | .createDirAll _ | .request _ | .readBody _ | .writeAll _ _ |
    .flush _ => []

/-- The action touches entries of the directory only. -/
def CacheAction.StaysIn (dir : Path) (action : CacheAction) : Prop :=
  ∀ path ∈ action.volumePaths, IsDirectChild dir path

/-- What the calls for an item check, create, rename, remove and return lies
in the directory of the category. -/
structure VolumeCache.Confined (cache : VolumeCache) (itemHash : ItemHash)
    (category : VolumeCategory) : Prop where
  ensured : (cache.ensureCached itemHash category).Within
    (CacheAction.StaysIn (cache.cacheDir category))
    (fun result => ∀ path, result = .ok path →
      IsDirectChild (cache.cacheDir category) path)
  evicted : (cache.evict itemHash category).Within
    (CacheAction.StaysIn (cache.cacheDir category)) (fun _ => True)

/-- An absolute path to an entry of the directory, or a relative path with
one part that counts, which is a name. -/
def NamesEntry (dir : Path) (itemHash : ItemHash) : Prop :=
  if isAbsolute itemHash.toList then IsDirectChild dir itemHash.toList
  else ∃ name, steps itemHash.toList = [.normal name]

theorem VolumeCategory.cacheSubdir_name (category : VolumeCategory) :
    category.cacheSubdir.toList ≠ [] ∧
      '/' ∉ category.cacheSubdir.toList := by
  cases category with
  | code => decide
  | runtime => decide
  | data => decide

namespace VolumeCache

variable (cache : VolumeCache) (itemHash : ItemHash)
  (category : VolumeCategory)

theorem cacheDir_ne_nil : cache.cacheDir category ≠ [] := by
  have hname := category.cacheSubdir_name.1
  unfold cacheDir join
  split_ifs with habsolute hbase
  · exact hname
  · simp [hname]
  · simp

theorem isDirectChild_localPath_iff :
    IsDirectChild (cache.cacheDir category)
        (cache.localPath itemHash category) ↔
      NamesEntry (cache.cacheDir category) itemHash := by
  unfold NamesEntry localPath
  split_ifs with habsolute
  · rw [join_of_absolute habsolute]
  · exact isDirectChild_join_iff (cache.cacheDir_ne_nil category)
      (by simpa using habsolute)

variable {cache itemHash category}

theorem isDirectChild_tmpPath
    (hchild : IsDirectChild (cache.cacheDir category)
      (cache.localPath itemHash category)) :
    IsDirectChild (cache.cacheDir category)
      (cache.tmpPath itemHash category) := by
  apply hchild.withExtension
  · exact (by decide : tmpExtension ≠ [])
  · exact (by decide : '/' ∉ tmpExtension)

theorem within_andThen
    {P : CacheAction → Prop} {R : Except String β → Prop}
    {result : Except String α}
    {next : α → CacheProgram (Except String β)}
    (herror : ∀ message, R (.error message))
    (hnext : ∀ value, (next value).Within P R) :
    (andThen result next).Within P R := by
  cases result with
  | error message => exact herror message
  | ok value => exact hnext value

theorem storeBody_within
    {P : CacheAction → Prop} {R : Except String Path → Prop}
    (herror : ∀ message, R (.error message))
    (hquiet : ∀ action : CacheAction, action.volumePaths = [] → P action)
    (hrename : P (.rename (cache.tmpPath itemHash category)
      (cache.localPath itemHash category)))
    (hreturn : R (.ok (cache.localPath itemHash category)))
    (file : FileId) : (cache.storeBody itemHash category file).Within P R := by
  unfold storeBody perform
  rw [Program.within_action_bind]
  refine ⟨hquiet _ rfl, fun body => ?_⟩
  refine within_andThen herror fun bytes => ?_
  rw [Program.within_action_bind]
  refine ⟨hquiet _ rfl, fun written => ?_⟩
  refine within_andThen herror fun _ => ?_
  rw [Program.within_action_bind]
  refine ⟨hquiet _ rfl, fun flushed => ?_⟩
  refine within_andThen herror fun _ => ?_
  rw [Program.within_action_bind]
  exact ⟨hrename, fun renamed => within_andThen herror fun _ => hreturn⟩

/-- The actions of a call on volumes are those on the item's two paths. -/
theorem ensureCached_within
    {P : CacheAction → Prop} {R : Except String Path → Prop}
    (herror : ∀ message, R (.error message))
    (hquiet : ∀ action : CacheAction, action.volumePaths = [] → P action)
    (hexists : P (.pathExists (cache.localPath itemHash category)))
    (hcreate : P (.createFile (cache.tmpPath itemHash category)))
    (hrename : P (.rename (cache.tmpPath itemHash category)
      (cache.localPath itemHash category)))
    (hreturn : R (.ok (cache.localPath itemHash category))) :
    (cache.ensureCached itemHash category).Within P R := by
  unfold ensureCached perform
  rw [Program.within_action_bind]
  refine ⟨hquiet _ rfl, fun made => ?_⟩
  refine within_andThen herror fun _ => ?_
  rw [Program.within_action_bind]
  refine ⟨hexists, fun found => ?_⟩
  cases found with
  | true => exact hreturn
  | false =>
      change (cache.download itemHash category).Within P R
      unfold download perform
      rw [Program.within_action_bind]
      refine ⟨hquiet _ rfl, fun answer => ?_⟩
      refine within_andThen herror fun status => ?_
      refine within_andThen herror fun _ => ?_
      rw [Program.within_action_bind]
      refine ⟨hcreate, fun created => ?_⟩
      exact within_andThen herror
        (storeBody_within herror hquiet hrename hreturn)

end VolumeCache

/-- Everything that the cache does for an item stays in the directory of the
category if and only if the item hash names an entry of it. -/
theorem cache_paths_confined_iff
    (cache : VolumeCache) (itemHash : ItemHash)
    (category : VolumeCategory) :
    cache.Confined itemHash category ↔
      NamesEntry (cache.cacheDir category) itemHash := by
  rw [← cache.isDirectChild_localPath_iff itemHash category]
  constructor
  · intro hconfined
    exact hconfined.evicted.1 _ List.mem_cons_self
  · intro hchild
    have htmp := VolumeCache.isDirectChild_tmpPath hchild
    constructor
    case ensured =>
      apply VolumeCache.ensureCached_within
      · intro message path hpath
        cases hpath
      · intro action hquiet path hpath
        rw [hquiet] at hpath
        cases hpath
      · intro path hpath
        rw [List.mem_singleton.mp hpath]
        exact hchild
      · intro path hpath
        rw [List.mem_singleton.mp hpath]
        exact htmp
      · intro path hpath
        rcases List.mem_pair.mp hpath with rfl | rfl
        · exact htmp
        · exact hchild
      · intro path hpath
        cases hpath
        exact hchild
    case evicted =>
      constructor
      · intro path hpath
        rw [List.mem_singleton.mp hpath]
        exact hchild
      · intro found
        cases found with
        | true =>
            refine ⟨?_, fun _ => trivial⟩
            intro path hpath
            rw [List.mem_singleton.mp hpath]
            exact hchild
        | false => trivial

def sampleVolumes : VolumeCache :=
  .new "/var/cache/aleph-cvm".toList "https://official.aleph.cloud/"

/-- An item hash may be an absolute path of its own. -/
theorem absolute_item_hash_escapes :
    ¬ sampleVolumes.Confined "/etc/passwd" .runtime := by
  intro hconfined
  have hchild : IsDirectChild (sampleVolumes.cacheDir .runtime)
      (sampleVolumes.localPath "/etc/passwd" .runtime) :=
    hconfined.evicted.1 _ List.mem_cons_self
  revert hchild
  decide

end AlephCvm.Agent
