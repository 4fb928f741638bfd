import AlephCvm.NamedFiles
import AlephCvm.StepRuns
import AlephCvm.VolumeCache

/-!
# Concurrent downloads

Calls of `ensure_cached` for any hashes and categories act on one file system,
and nothing keeps one call from acting between two steps of another.  Which
directory entry a path names is a parameter, and how a request, a download or
a file operation turns out is chosen by the environment.  A call writes its
download to a temporary file that a second call for the same hash creates
anew, so the file that gets the final name need not be complete.
-/

namespace AlephCvm.Agent

open ResultContext AtomicPrograms NamedFiles StepRuns UnixPaths AlephCvm.Tee

variable {Entry : Type}

/-! ## The file system -/

structure CacheFiles (Entry : Type) where
  files : FileStore Entry UInt8
  directories : List Entry

/-- How the next action of a call turns out, if the files allow it. -/
structure CacheOutcome (Entry : Type) where
  made : Except String (List Entry)
  answer : Except String (Except String Unit)
  createError : Option String
  body : Except String Bytes
  writeError : Option (ℕ × String)
  flushError : Option String
  renameError : Option String
  removeError : Option String

def unlessFailed : Option String → Except String Unit
  | none => .ok ()
  | some message => .error message

namespace CacheFiles

variable (fs : CacheFiles Entry)

/-- The content of the file at an entry. -/
def content (entry : Entry) : Option Bytes :=
  (fs.files.find entry).map Prod.snd

def createDirAll : Except String (List Entry) →
    Except String Unit × CacheFiles Entry
  | .error message => (.error message, fs)
  | .ok made => (.ok (), { fs with directories := made ++ fs.directories })

variable [DecidableEq Entry]

def pathExists (entry : Entry) : Bool :=
  (fs.files.find entry).isSome || decide (entry ∈ fs.directories)

def createFile (entry : Entry) : Option String →
    Except String FileId × CacheFiles Entry
  | some message => (.error message, fs)
  | none =>
      if entry ∈ fs.directories then
        (.error "Is a directory (os error 21)", fs)
      else (.ok (fs.files.create entry).1,
        { fs with files := (fs.files.create entry).2 })

/-- A failed write may have written some bytes. -/
def writeAll (file : FileId) (bytes : Bytes) : Option (ℕ × String) →
    Except String Unit × CacheFiles Entry
  | none => (.ok (), { fs with files := fs.files.write file bytes })
  | some (written, message) => (.error message,
      { fs with files := fs.files.write file (bytes.take written) })

def rename (source target : Entry) : Option String →
    Except String Unit × CacheFiles Entry
  | some message => (.error message, fs)
  | none =>
      if target ∈ fs.directories then
        (.error "Is a directory (os error 21)", fs)
      else
        match fs.files.rename source target with
        | none => (.error "No such file or directory (os error 2)", fs)
        | some files => (.ok (), { fs with files := files })

def removeFile (entry : Entry) : Option String →
    Except String Unit × CacheFiles Entry
  | some message => (.error message, fs)
  | none =>
      if (fs.files.find entry).isSome then
        (.ok (), { fs with files := fs.files.remove entry })
      else (.error "No such file or directory (os error 2)", fs)

end CacheFiles

def exec [DecidableEq Entry] (entryOf : Path → Entry)
    (outcome : CacheOutcome Entry) :
    (action : CacheAction) → CacheFiles Entry →
      Option (action.Response × CacheFiles Entry)
  | .createDirAll _, fs => some (fs.createDirAll outcome.made)
  | .pathExists path, fs => some (fs.pathExists (entryOf path), fs)
  | .request _, fs => some (outcome.answer, fs)
  | .createFile path, fs =>
      some (fs.createFile (entryOf path) outcome.createError)
  | .readBody _, fs => some (outcome.body, fs)
  | .writeAll file bytes, fs =>
      some (fs.writeAll file bytes outcome.writeError)
  | .flush _, fs => some (unlessFailed outcome.flushError, fs)
  | .rename source target, fs =>
      some (fs.rename (entryOf source) (entryOf target) outcome.renameError)
  | .removeFile path, fs =>
      some (fs.removeFile (entryOf path) outcome.removeError)

/-! ## Calls that run at the same time -/

structure CacheCall where
  item : ItemHash
  category : VolumeCategory
  deriving DecidableEq

namespace CacheCall

variable (volumes : VolumeCache) (call : CacheCall)

def program : CacheProgram (Except String Path) :=
  volumes.ensureCached call.item call.category

def localPath : Path := volumes.localPath call.item call.category

def tmpPath : Path := volumes.tmpPath call.item call.category

end CacheCall

abbrev CacheTask :=
  Task CacheCall CacheAction CacheAction.Response (Except String Path)

abbrev CacheSystem (Entry : Type) :=
  Pool (CacheFiles Entry) CacheCall CacheAction CacheAction.Response
    (Except String Path)

inductive CacheEvent (Entry : Type) where
  | call (call : CacheCall)
  | advance (index : ℕ) (outcome : CacheOutcome Entry)

def cacheStep [DecidableEq Entry] (volumes : VolumeCache)
    (entryOf : Path → Entry) (system : CacheSystem Entry) :
    CacheEvent Entry → CacheSystem Entry
  | .call call => system.call (CacheCall.program volumes) call
  | .advance index outcome => system.advance (exec entryOf) index outcome

/-! ## What a call has done -/

inductive Stage where
  | searching
  | created (file : FileId)
  | read (file : FileId) (bytes : Bytes)
  | written (file : FileId) (bytes : Bytes)
  | held
  | failed
  deriving DecidableEq

/-- The call is between creating its temporary file and renaming it. -/
def Stage.isOpen : Stage → Bool
  | .created _ | .read _ _ | .written _ _ => true
  | .searching | .held | .failed => false

/-- A call with its stage and the body that it has downloaded. -/
structure Download where
  call : CacheCall
  stage : Stage
  body : Option Bytes
  deriving DecidableEq

namespace Download

variable (download : Download)

def follow {α : Type} (result : Except String α) (stage : α → Stage) :
    Download :=
  match result with
  | .ok value => { download with stage := stage value }
  | .error _ => { download with stage := .failed }

def afterBody (body : Except String Bytes) : Download :=
  match download.stage, body with
  | .created file, .ok bytes =>
      { download with stage := .read file bytes, body := some bytes }
  | _, _ => { download with stage := .failed }

def next : (action : CacheAction) → action.Response → Download
  | .createDirAll _, made => download.follow made fun _ => download.stage
  | .pathExists _, found =>
      if found then { download with stage := .held } else download
  | .request _, answer =>
      download.follow (answer >>= id) fun _ => download.stage
  | .createFile _, created => download.follow created .created
  | .readBody _, body => download.afterBody body
  | .writeAll file bytes, written =>
      download.follow written fun _ => .written file bytes
  | .flush _, flushed => download.follow flushed fun _ => download.stage
  | .rename _ _, renamed => download.follow renamed fun _ => .held
  | .removeFile _, _ => download

def Allows (volumes : VolumeCache) : CacheAction → Prop
  | .createDirAll _ | .request _ => download.stage = .searching
  | .pathExists path =>
      download.stage = .searching ∧ path = download.call.localPath volumes
  | .createFile path =>
      download.stage = .searching ∧ path = download.call.tmpPath volumes
  | .readBody _ => ∃ file, download.stage = .created file
  | .writeAll file bytes => download.stage = .read file bytes
  | .flush file => ∃ bytes, download.stage = .written file bytes
  | .rename source target =>
      (∃ file bytes, download.stage = .written file bytes) ∧
        source = download.call.tmpPath volumes ∧
        target = download.call.localPath volumes
  | .removeFile _ => False

def Returns (volumes : VolumeCache) : Except String Path → Prop
  | .ok path =>
      download.stage = .held ∧ path = download.call.localPath volumes
  | .error _ => download.stage = .failed

end Download

def downloads (volumes : VolumeCache) :
    Protocol CacheCall CacheAction CacheAction.Response
      (Except String Path) Download where
  start call := ⟨call, .searching, none⟩
  next := Download.next
  allowed download := download.Allows volumes
  admits _ _ := True
  returns download := download.Returns volumes

theorem storeBody_follows
    (volumes : VolumeCache) (call : CacheCall) (file : FileId) :
    (volumes.storeBody call.item call.category file).Follows
      (downloads volumes) (downloads volumes).returns
      ⟨call, .created file, none⟩ := by
  unfold VolumeCache.storeBody perform
  rw [Program.follows_action_bind]
  refine ⟨⟨file, rfl⟩, fun body _ => ?_⟩
  cases body with
  | error message => rfl
  | ok bytes =>
      simp only [context, andThen, Program.follows_action_bind]
      refine ⟨rfl, fun written _ => ?_⟩
      cases written with
      | error message => rfl
      | ok _ =>
          simp only [Program.follows_action_bind]
          refine ⟨⟨bytes, rfl⟩, fun flushed _ => ?_⟩
          cases flushed with
          | error message => rfl
          | ok _ =>
              simp only [Program.follows_action_bind]
              refine ⟨⟨⟨file, bytes, rfl⟩, rfl, rfl⟩, fun renamed _ => ?_⟩
              cases renamed with
              | error message => rfl
              | ok _ => exact ⟨rfl, rfl⟩

theorem download_follows (volumes : VolumeCache) (call : CacheCall) :
    (volumes.download call.item call.category).Follows (downloads volumes)
      (downloads volumes).returns ⟨call, .searching, none⟩ := by
  unfold VolumeCache.download perform
  rw [Program.follows_action_bind]
  refine ⟨rfl, fun answer _ => ?_⟩
  cases answer with
  | error message => rfl
  | ok status =>
      cases status with
      | error message => rfl
      | ok _ =>
          simp only [context, andThen, Program.follows_action_bind]
          refine ⟨⟨rfl, rfl⟩, fun created _ => ?_⟩
          cases created with
          | error message => rfl
          | ok file => exact storeBody_follows volumes call file

theorem ensureCached_follows (volumes : VolumeCache) (call : CacheCall) :
    (call.program volumes).Follows (downloads volumes)
      (downloads volumes).returns ((downloads volumes).start call) := by
  unfold CacheCall.program VolumeCache.ensureCached perform
  rw [Program.follows_action_bind]
  refine ⟨rfl, fun made _ => ?_⟩
  cases made with
  | error message => rfl
  | ok _ =>
      simp only [context, andThen, Program.follows_action_bind]
      refine ⟨⟨rfl, rfl⟩, fun found _ => ?_⟩
      cases found with
      | true => exact ⟨rfl, rfl⟩
      | false => exact download_follows volumes call

/-! ## Steps -/

/-- A path that is found to exist names a file. -/
def FindsFile (entryOf : Path → Entry) (fs : CacheFiles Entry) :
    CacheOutcome Entry → Download → (action : CacheAction) →
      action.Response → Prop
  | _, _, .pathExists path, found =>
      found = true → entryOf path ∉ fs.directories
  | _, _, _, _ => True

instance FindsFile.decidable [DecidableEq Entry] (entryOf : Path → Entry)
    (fs : CacheFiles Entry) (outcome : CacheOutcome Entry)
    (download : Download) :
    ∀ (action : CacheAction) (response : action.Response),
      Decidable (FindsFile entryOf fs outcome download action response)
  | .pathExists path, found =>
      inferInstanceAs
        (Decidable (found = true → entryOf path ∉ fs.directories))
  | .createDirAll _, _ | .request _, _ | .createFile _, _ | .readBody _, _
  | .writeAll _ _, _ | .flush _, _ | .rename _ _, _ | .removeFile _, _ =>
      inferInstanceAs (Decidable True)

/-- A temporary file is created while the other call does not have it
open. -/
def CreatesAlone (volumes : VolumeCache) (entryOf : Path → Entry) :
    CacheFiles Entry → CacheOutcome Entry → Download →
      (action : CacheAction) → action.Response → Download → Prop
  | _, _, _, .createFile path, _, other =>
      other.stage.isOpen = true →
        entryOf (other.call.tmpPath volumes) ≠ entryOf path
  | _, _, _, _, _, _ => True

instance CreatesAlone.decidable [DecidableEq Entry] (volumes : VolumeCache)
    (entryOf : Path → Entry) (fs : CacheFiles Entry)
    (outcome : CacheOutcome Entry) (download : Download) :
    ∀ (action : CacheAction) (response : action.Response)
      (other : Download), Decidable (CreatesAlone volumes entryOf fs outcome
        download action response other)
  | .createFile path, _, other =>
      inferInstanceAs (Decidable (other.stage.isOpen = true →
        entryOf (other.call.tmpPath volumes) ≠ entryOf path))
  | .createDirAll _, _, _ | .pathExists _, _, _ | .request _, _, _
  | .readBody _, _, _ | .writeAll _ _, _, _ | .flush _, _, _
  | .rename _ _, _, _ | .removeFile _, _, _ =>
      inferInstanceAs (Decidable True)

/-- The temporary file of neither call is the final file of the other. -/
def CacheCall.Separate (volumes : VolumeCache) (entryOf : Path → Entry)
    (call other : CacheCall) : Prop :=
  entryOf (call.tmpPath volumes) ≠ entryOf (other.localPath volumes) ∧
    entryOf (other.tmpPath volumes) ≠ entryOf (call.localPath volumes)

instance [DecidableEq Entry] (volumes : VolumeCache)
    (entryOf : Path → Entry) (call other : CacheCall) :
    Decidable (call.Separate volumes entryOf other) :=
  inferInstanceAs (Decidable (_ ∧ _))

/-- A call comes whose files are apart from those of the calls so far, or a
call acts alone on its temporary file. -/
def DownloadsApart [DecidableEq Entry] (volumes : VolumeCache)
    (entryOf : Path → Entry) (system : CacheSystem Entry) :
    CacheEvent Entry → Prop
  | .call call => call.Separate volumes entryOf call ∧
      ∀ task ∈ system.tasks, call.Separate volumes entryOf task.call
  | .advance index outcome => system.Meets (exec entryOf)
      (downloads volumes) (FindsFile entryOf) (CreatesAlone volumes entryOf)
      index outcome

instance DownloadsApart.decidable [DecidableEq Entry]
    (volumes : VolumeCache) (entryOf : Path → Entry)
    (system : CacheSystem Entry) :
    ∀ event, Decidable (DownloadsApart volumes entryOf system event)
  | .call _ => inferInstanceAs (Decidable (_ ∧ _))
  | .advance index outcome => inferInstanceAs (Decidable
      (system.Meets (exec entryOf) (downloads volumes) (FindsFile entryOf)
        (CreatesAlone volumes entryOf) index outcome))

/-! ## The invariant -/

namespace Download

variable (volumes : VolumeCache) (entryOf : Path → Entry)
  (download : Download)

def tmpEntry : Entry := entryOf (download.call.tmpPath volumes)

def finalEntry : Entry := entryOf (download.call.localPath volumes)

/-- What the files show of the call: its temporary file while it is open, and
some file under the final path once the call holds it. -/
def Supported (fs : CacheFiles Entry) : Prop :=
  match download.stage with
  | .searching => download.body = none
  | .created file =>
      fs.files.find (download.tmpEntry volumes entryOf) = some (file, []) ∧
        download.body = none
  | .read file bytes =>
      fs.files.find (download.tmpEntry volumes entryOf) = some (file, []) ∧
        download.body = some bytes
  | .written file bytes =>
      fs.files.find (download.tmpEntry volumes entryOf) =
          some (file, bytes) ∧
        download.body = some bytes
  | .held =>
      (fs.files.find (download.finalEntry volumes entryOf)).isSome = true
  | .failed => True

end Download

theorem Download.Supported.frame
    {volumes : VolumeCache} {entryOf : Path → Entry} {download : Download}
    {fs reached : CacheFiles Entry}
    (hsupported : download.Supported volumes entryOf fs)
    (hopen : download.stage.isOpen = true →
      reached.files.find (download.tmpEntry volumes entryOf) =
        fs.files.find (download.tmpEntry volumes entryOf))
    (hheld : (fs.files.find
        (download.finalEntry volumes entryOf)).isSome = true →
      (reached.files.find
        (download.finalEntry volumes entryOf)).isSome = true) :
    download.Supported volumes entryOf reached := by
  unfold Download.Supported at hsupported ⊢
  cases hstage : download.stage with
  | failed => trivial
  | searching =>
      rw [hstage] at hsupported
      exact hsupported
  | held =>
      rw [hstage] at hsupported
      exact hheld hsupported
  | created file =>
      rw [hstage] at hsupported hopen
      simp only [hopen rfl]
      exact hsupported
  | read file bytes =>
      rw [hstage] at hsupported hopen
      simp only [hopen rfl]
      exact hsupported
  | written file bytes =>
      rw [hstage] at hsupported hopen
      simp only [hopen rfl]
      exact hsupported

/-- The content was there at the start, or one of the calls for the path has
downloaded it. -/
def Complete (volumes : VolumeCache) (entryOf : Path → Entry)
    (initial : CacheFiles Entry) (ghosts : List Download) (entry : Entry)
    (bytes : Bytes) : Prop :=
  initial.content entry = some bytes ∨
    ∃ download ∈ ghosts, download.finalEntry volumes entryOf = entry ∧
      download.body = some bytes

/-- Open temporary files are apart from each other, temporary files are apart
from final ones, and every file that is not temporary is complete. -/
structure DownloadsKept (volumes : VolumeCache) (entryOf : Path → Entry)
    (initial fs : CacheFiles Entry) (ghosts : List Download) : Prop where
  supported : ∀ download ∈ ghosts, download.Supported volumes entryOf fs
  apart : ghosts.Pairwise fun download other =>
    download.stage.isOpen = true → other.stage.isOpen = true →
      download.tmpEntry volumes entryOf ≠ other.tmpEntry volumes entryOf
  separate : ∀ download ∈ ghosts, ∀ other ∈ ghosts,
    download.tmpEntry volumes entryOf ≠ other.finalEntry volumes entryOf
  complete : ∀ entry bytes,
    (∀ download ∈ ghosts, entry ≠ download.tmpEntry volumes entryOf) →
      fs.content entry = some bytes →
        Complete volumes entryOf initial ghosts entry bytes

namespace DownloadsKept

variable {volumes : VolumeCache} {entryOf : Path → Entry}
  {initial fs reached : CacheFiles Entry}

theorem perm
    {ghosts reordered : List Download}
    (hkept : DownloadsKept volumes entryOf initial fs ghosts)
    (hperm : ghosts.Perm reordered) :
    DownloadsKept volumes entryOf initial fs reordered where
  supported := fun download hdownload =>
    hkept.supported download (hperm.mem_iff.mpr hdownload)
  apart := by
    refine (hperm.pairwise_iff ?_).mp hkept.apart
    intro download other hapart hother hdownload hsame
    exact hapart hdownload hother hsame.symm
  separate := fun download hdownload other hother =>
    hkept.separate download (hperm.mem_iff.mpr hdownload) other
      (hperm.mem_iff.mpr hother)
  complete := by
    intro entry bytes hentry hcontent
    rcases hkept.complete entry bytes
        (fun download hdownload =>
          hentry download (hperm.mem_iff.mp hdownload)) hcontent with
      hinitial | ⟨download, hdownload, hbody⟩
    · exact .inl hinitial
    · exact .inr ⟨download, hperm.mem_iff.mp hdownload, hbody⟩

/-- One call acts and the others find what they rely on unchanged. -/
theorem act
    {download after : Download} {rest : List Download}
    (hkept : DownloadsKept volumes entryOf initial fs (download :: rest))
    (hcall : after.call = download.call)
    (hsupported : after.Supported volumes entryOf reached)
    (hopen : after.stage.isOpen = true →
      download.stage.isOpen = true ∨
        ∀ other ∈ rest, other.stage.isOpen = true →
          other.tmpEntry volumes entryOf ≠
            download.tmpEntry volumes entryOf)
    (hbody : ∀ bytes, download.body = some bytes → after.body = some bytes)
    (hothers : ∀ other ∈ rest, other.Supported volumes entryOf fs →
      other.Supported volumes entryOf reached)
    (hcontent : ∀ entry bytes,
      entry ≠ download.tmpEntry volumes entryOf →
        reached.content entry = some bytes →
          fs.content entry = some bytes ∨
            (entry = download.finalEntry volumes entryOf ∧
              after.body = some bytes)) :
    DownloadsKept volumes entryOf initial reached (after :: rest) := by
  have htmp : after.tmpEntry volumes entryOf =
      download.tmpEntry volumes entryOf := by
    rw [Download.tmpEntry, Download.tmpEntry, hcall]
  have hfinal : after.finalEntry volumes entryOf =
      download.finalEntry volumes entryOf := by
    rw [Download.finalEntry, Download.finalEntry, hcall]
  obtain ⟨hheadApart, hrestApart⟩ := List.pairwise_cons.mp hkept.apart
  constructor
  case supported =>
    intro candidate hcandidate
    rcases List.mem_cons.mp hcandidate with rfl | hmem
    · exact hsupported
    · exact hothers candidate hmem
        (hkept.supported candidate (List.mem_cons_of_mem _ hmem))
  case apart =>
    refine List.pairwise_cons.mpr ⟨?_, hrestApart⟩
    intro other hother hafter hotherOpen
    rw [htmp]
    rcases hopen hafter with hold | hapart
    · exact hheadApart other hother hold hotherOpen
    · exact (hapart other hother hotherOpen).symm
  case separate =>
    have hold : ∀ candidate ∈ after :: rest, ∃ old ∈ download :: rest,
        candidate.call = old.call := by
      intro candidate hcandidate
      rcases List.mem_cons.mp hcandidate with rfl | hmem
      · exact ⟨download, by simp, hcall⟩
      · exact ⟨candidate, List.mem_cons_of_mem _ hmem, rfl⟩
    intro first hfirst second hsecond
    obtain ⟨one, hone, hfirstCall⟩ := hold first hfirst
    obtain ⟨two, htwo, hsecondCall⟩ := hold second hsecond
    rw [Download.tmpEntry, Download.finalEntry, hfirstCall, hsecondCall]
    exact hkept.separate one hone two htwo
  case complete =>
    intro entry bytes hentry hshown
    have hnot : ∀ candidate ∈ download :: rest,
        entry ≠ candidate.tmpEntry volumes entryOf := by
      intro candidate hcandidate
      rcases List.mem_cons.mp hcandidate with rfl | hmem
      · rw [← htmp]
        exact hentry after (by simp)
      · exact hentry candidate (by simp [hmem])
    rcases hcontent entry bytes (hnot download (by simp)) hshown with
      hold | ⟨hself, hdownloaded⟩
    · rcases hkept.complete entry bytes hnot hold with
        hinitial | ⟨holder, hholder, hentry, hdownloaded⟩
      · exact .inl hinitial
      · right
        rcases List.mem_cons.mp hholder with rfl | hmem
        · exact ⟨after, by simp, hfinal.trans hentry,
            hbody bytes hdownloaded⟩
        · exact ⟨holder, by simp [hmem], hentry, hdownloaded⟩
    · exact .inr ⟨after, by simp, hfinal.trans hself.symm, hdownloaded⟩

/-- A call that changed no file. -/
theorem quiet
    {download after : Download} {rest : List Download}
    (hkept : DownloadsKept volumes entryOf initial fs (download :: rest))
    (hfiles : reached.files = fs.files)
    (hcall : after.call = download.call)
    (hsupported : after.Supported volumes entryOf reached)
    (hopen : after.stage.isOpen = true → download.stage.isOpen = true)
    (hbody : ∀ bytes, download.body = some bytes →
      after.body = some bytes) :
    DownloadsKept volumes entryOf initial reached (after :: rest) := by
  apply hkept.act hcall hsupported (fun hafter => .inl (hopen hafter)) hbody
  · intro other _ hother
    unfold Download.Supported at hother ⊢
    rw [hfiles]
    exact hother
  · intro entry bytes _ hshown
    left
    rw [← hshown, CacheFiles.content, CacheFiles.content, hfiles]

/-- A call that failed leaves its temporary file behind. -/
theorem fail
    {download : Download} {rest : List Download}
    (hkept : DownloadsKept volumes entryOf initial fs (download :: rest)) :
    DownloadsKept volumes entryOf initial fs
      ({ download with stage := .failed } :: rest) :=
  hkept.quiet rfl rfl trivial (fun hopen => by cases hopen)
    (fun _ hbody => hbody)

/-- Writing to the temporary file of one call concerns no other call. -/
theorem write
    {download after : Download} {rest : List Download} {file : FileId}
    {old stored : Bytes}
    (hkept : DownloadsKept volumes entryOf initial fs (download :: rest))
    (hopen : download.stage.isOpen = true)
    (hfile : fs.files.find (download.tmpEntry volumes entryOf) =
      some (file, old))
    (hcall : after.call = download.call) (hbody : after.body = download.body)
    (hsupported : after.Supported volumes entryOf
      { fs with files := fs.files.write file stored }) :
    DownloadsKept volumes entryOf initial
      { fs with files := fs.files.write file stored } (after :: rest) := by
  have hnamed := (FileStore.find_eq_some.mp hfile).1
  apply hkept.act hcall hsupported
  · exact fun _ => .inl hopen
  · intro bytes hdownloaded
    rw [hbody]
    exact hdownloaded
  · intro other hother hsupported
    apply hsupported.frame
    · intro hotherOpen
      have hapart := (List.pairwise_cons.mp hkept.apart).1 other hother hopen
        hotherOpen
      exact FileStore.find_write_of_ne hnamed hapart.symm stored
    · intro hheld
      have hseparate := hkept.separate download List.mem_cons_self
        other (List.mem_cons_of_mem _ hother)
      rw [FileStore.find_write_of_ne hnamed hseparate.symm stored]
      exact hheld
  · intro entry bytes hentry hshown
    left
    rw [← hshown, CacheFiles.content, CacheFiles.content,
      FileStore.find_write_of_ne hnamed hentry stored]

theorem writeAll
    {download : Download} {rest : List Download} {file : FileId}
    {bytes : Bytes}
    (hkept : DownloadsKept volumes entryOf initial fs (download :: rest))
    (hstage : download.stage = .read file bytes)
    (error : Option (ℕ × String)) :
    DownloadsKept volumes entryOf initial (fs.writeAll file bytes error).2
      (download.follow (fs.writeAll file bytes error).1
        (fun _ => .written file bytes) :: rest) := by
  have hsupported := hkept.supported download List.mem_cons_self
  have hopen : download.stage.isOpen = true := by
    rw [hstage]
    rfl
  unfold Download.Supported at hsupported
  simp only [hstage] at hsupported
  cases error with
  | some failure =>
      exact hkept.write hopen hsupported.1 rfl rfl trivial
  | none =>
      have hcall : ({ download with stage := .written file bytes } :
          Download).call = download.call := rfl
      apply hkept.write hopen hsupported.1 hcall rfl
      refine ⟨?_, hsupported.2⟩
      have hshown := FileStore.find_write_self hsupported.1 bytes
      rw [List.drop_nil, List.append_nil] at hshown
      exact hshown

/-- A new call has done nothing yet. -/
theorem call
    {ghosts : List Download} {call : CacheCall}
    (hkept : DownloadsKept volumes entryOf initial fs ghosts)
    (hself : call.Separate volumes entryOf call)
    (hothers : ∀ download ∈ ghosts,
      call.Separate volumes entryOf download.call) :
    DownloadsKept volumes entryOf initial fs
      (⟨call, .searching, none⟩ :: ghosts) := by
  constructor
  case supported =>
    intro candidate hcandidate
    rcases List.mem_cons.mp hcandidate with rfl | hmem
    · rfl
    · exact hkept.supported candidate hmem
  case apart =>
    refine List.pairwise_cons.mpr ⟨?_, hkept.apart⟩
    intro other _ hopen
    cases hopen
  case separate =>
    intro first hfirst second hsecond
    rcases List.mem_cons.mp hfirst with rfl | hfirst
    · rcases List.mem_cons.mp hsecond with rfl | hsecond
      · exact hself.1
      · exact (hothers second hsecond).1
    · rcases List.mem_cons.mp hsecond with rfl | hsecond
      · exact (hothers first hfirst).2
      · exact hkept.separate first hfirst second hsecond
  case complete =>
    intro entry bytes hentry hshown
    rcases hkept.complete entry bytes
        (fun download hdownload =>
          hentry download (List.mem_cons_of_mem _ hdownload)) hshown with
      hinitial | ⟨download, hdownload, hbody⟩
    · exact .inl hinitial
    · exact .inr ⟨download, List.mem_cons_of_mem _ hdownload, hbody⟩

section Named

variable [DecidableEq Entry]

/-- A temporary file may be created while no other call has it open. -/
theorem create
    {download : Download} {rest : List Download}
    (hkept : DownloadsKept volumes entryOf initial fs (download :: rest))
    (hstage : download.stage = .searching)
    (hclosed : ∀ other ∈ rest, other.stage.isOpen = true →
      other.tmpEntry volumes entryOf ≠ download.tmpEntry volumes entryOf)
    (error : Option String) :
    DownloadsKept volumes entryOf initial
      (fs.createFile (download.tmpEntry volumes entryOf) error).2
      (download.follow
        (fs.createFile (download.tmpEntry volumes entryOf) error).1
          .created :: rest) := by
  unfold CacheFiles.createFile
  cases error with
  | some message => exact hkept.fail
  | none =>
      dsimp only
      split_ifs with hdirectory
      · exact hkept.fail
      · have hcall : ({ download with stage := .created (fs.files.create
            (download.tmpEntry volumes entryOf)).1 } : Download).call =
              download.call := rfl
        apply hkept.act hcall
        · have hsupported := hkept.supported download List.mem_cons_self
          unfold Download.Supported at hsupported
          simp only [hstage] at hsupported
          exact ⟨FileStore.find_create_self _, hsupported⟩
        · exact fun _ => .inr hclosed
        · exact fun _ hbody => hbody
        · intro other hother hsupported
          apply hsupported.frame
          · intro hopen
            exact FileStore.find_create_of_ne (hclosed other hother hopen)
          · intro hheld
            have hseparate := hkept.separate download List.mem_cons_self
              other (List.mem_cons_of_mem _ hother)
            rw [FileStore.find_create_of_ne hseparate.symm]
            exact hheld
        · intro entry bytes hentry hshown
          left
          rw [← hshown, CacheFiles.content, CacheFiles.content,
            FileStore.find_create_of_ne hentry]

/-- The renamed file is complete. -/
theorem rename
    {download : Download} {rest : List Download} {file : FileId}
    {bytes : Bytes}
    (hkept : DownloadsKept volumes entryOf initial fs (download :: rest))
    (hstage : download.stage = .written file bytes)
    (error : Option String) :
    DownloadsKept volumes entryOf initial
      (fs.rename (download.tmpEntry volumes entryOf)
        (download.finalEntry volumes entryOf) error).2
      (download.follow (fs.rename (download.tmpEntry volumes entryOf)
        (download.finalEntry volumes entryOf) error).1
          (fun _ => .held) :: rest) := by
  have hsupported := hkept.supported download List.mem_cons_self
  have hopen : download.stage.isOpen = true := by
    rw [hstage]
    rfl
  unfold Download.Supported at hsupported
  simp only [hstage] at hsupported
  obtain ⟨hfile, hbody⟩ := hsupported
  unfold CacheFiles.rename
  cases error with
  | some message => exact hkept.fail
  | none =>
      dsimp only
      split_ifs with hdirectory
      · exact hkept.fail
      · cases hrename : fs.files.rename (download.tmpEntry volumes entryOf)
            (download.finalEntry volumes entryOf) with
        | none => exact hkept.fail
        | some files =>
            obtain ⟨hfinal, hothers, _⟩ := FileStore.rename_eq_some hrename
            rw [hfile] at hfinal
            have hcall : ({ download with stage := .held } : Download).call =
                download.call := rfl
            apply hkept.act hcall
            · change (files.find
                (download.finalEntry volumes entryOf)).isSome = true
              rw [hfinal]
              rfl
            · exact fun _ => .inl hopen
            · exact fun _ hdownloaded => hdownloaded
            · intro other hother hsupported
              have hmem := List.mem_cons_of_mem download hother
              apply hsupported.frame
              · intro hotherOpen
                have hapart := (List.pairwise_cons.mp hkept.apart).1 other
                  hother hopen hotherOpen
                exact hothers _ hapart.symm
                  (hkept.separate other hmem download List.mem_cons_self)
              · intro hheld
                have hseparate := hkept.separate download
                  List.mem_cons_self other hmem
                rcases eq_or_ne (other.finalEntry volumes entryOf)
                    (download.finalEntry volumes entryOf) with hsame | hne
                · rw [hsame, hfinal]
                  rfl
                · rw [hothers _ hseparate.symm hne]
                  exact hheld
            · intro entry content hentry hshown
              rcases eq_or_ne entry
                  (download.finalEntry volumes entryOf) with rfl | hne
              · right
                rw [CacheFiles.content, hfinal] at hshown
                refine ⟨rfl, hbody.trans ?_⟩
                exact hshown
              · left
                rw [← hshown, CacheFiles.content, CacheFiles.content,
                  hothers entry hentry hne]

/-- Every action that a call may take keeps the invariant: a file that is
found counts only when it is one, and a temporary file is created while no
other call has it open. -/
theorem action
    {outcome : CacheOutcome Entry} {download : Download}
    {rest : List Download} {action : CacheAction}
    {response : action.Response}
    (hkept : DownloadsKept volumes entryOf initial fs (download :: rest))
    (hallowed : download.Allows volumes action)
    (hexec : exec entryOf outcome action fs = some (response, reached))
    (hfile : FindsFile entryOf fs outcome download action response)
    (hclosed : ∀ other ∈ rest, CreatesAlone volumes entryOf fs outcome
      download action response other) :
    DownloadsKept volumes entryOf initial reached
      (download.next action response :: rest) := by
  have hsupported := hkept.supported download List.mem_cons_self
  cases action with
  | createDirAll path =>
      obtain ⟨rfl, rfl⟩ := Prod.ext_iff.mp (Option.some.inj hexec)
      cases outcome.made with
      | error message => exact hkept.fail
      | ok made => exact hkept.quiet rfl rfl hsupported id fun _ => id
  | pathExists path =>
      obtain ⟨rfl, rfl⟩ := Prod.ext_iff.mp (Option.some.inj hexec)
      obtain ⟨hstage, rfl⟩ := hallowed
      cases hfound : fs.pathExists
          (entryOf (download.call.localPath volumes)) with
      | false => exact hkept
      | true =>
          have hshown : (fs.files.find (entryOf
              (download.call.localPath volumes))).isSome = true := by
            have hnot := hfile hfound
            simpa [CacheFiles.pathExists, hnot] using hfound
          exact hkept.quiet rfl rfl hshown (fun hopen => by cases hopen)
            fun _ => id
  | request url =>
      obtain ⟨rfl, rfl⟩ := Prod.ext_iff.mp (Option.some.inj hexec)
      cases hanswer : outcome.answer >>= id with
      | error message =>
          simp only [Download.next, hanswer]
          exact hkept.fail
      | ok _ =>
          simp only [Download.next, hanswer]
          exact hkept
  | createFile path =>
      obtain ⟨rfl, rfl⟩ := Prod.ext_iff.mp (Option.some.inj hexec)
      obtain ⟨hstage, rfl⟩ := hallowed
      exact hkept.create hstage hclosed outcome.createError
  | readBody url =>
      obtain ⟨rfl, rfl⟩ := Prod.ext_iff.mp (Option.some.inj hexec)
      obtain ⟨file, hstage⟩ := hallowed
      unfold Download.Supported at hsupported
      simp only [hstage] at hsupported
      cases outcome.body with
      | error message =>
          simp only [Download.next, Download.afterBody, hstage]
          exact hkept.fail
      | ok bytes =>
          simp only [Download.next, Download.afterBody, hstage]
          refine hkept.quiet rfl rfl ⟨hsupported.1, rfl⟩ ?_ ?_
          · intro _
            rw [hstage]
            rfl
          · intro old hold
            rw [hsupported.2] at hold
            cases hold
  | writeAll file bytes =>
      obtain ⟨rfl, rfl⟩ := Prod.ext_iff.mp (Option.some.inj hexec)
      exact hkept.writeAll hallowed outcome.writeError
  | flush file =>
      obtain ⟨rfl, rfl⟩ := Prod.ext_iff.mp (Option.some.inj hexec)
      cases outcome.flushError with
      | some message => exact hkept.fail
      | none => exact hkept
  | rename source target =>
      obtain ⟨rfl, rfl⟩ := Prod.ext_iff.mp (Option.some.inj hexec)
      obtain ⟨⟨file, bytes, hstage⟩, rfl, rfl⟩ := hallowed
      exact hkept.rename hstage outcome.renameError
  | removeFile path => cases hallowed

end Named

end DownloadsKept

/-! ## The past of a call -/

/-- The body that an action has read. -/
def bodyOf : (Σ action : CacheAction, action.Response) → Option Bytes
  | ⟨.readBody _, .ok bytes⟩ => some bytes
  | _ => none

/-- A download of the call that succeeded. -/
def HasDownloaded (task : CacheTask) (bytes : Bytes) : Prop :=
  ∃ entry ∈ task.past, bodyOf entry = some bytes

instance (task : CacheTask) (bytes : Bytes) :
    Decidable (HasDownloaded task bytes) :=
  inferInstanceAs (Decidable (∃ entry ∈ task.past, _))

theorem Download.follow_call
    {download : Download} {result : Except String α} {stage : α → Stage} :
    (download.follow result stage).call = download.call := by
  cases result <;> rfl

theorem Download.follow_body
    {download : Download} {result : Except String α} {stage : α → Stage} :
    (download.follow result stage).body = download.body := by
  cases result <;> rfl

theorem Download.afterBody_call
    {download : Download} {body : Except String Bytes} :
    (download.afterBody body).call = download.call := by
  unfold afterBody
  split <;> rfl

theorem Download.afterBody_body
    {download : Download} {body : Except String Bytes} {bytes : Bytes}
    (hbody : (download.afterBody body).body = some bytes) :
    download.body = some bytes ∨ body = .ok bytes := by
  unfold afterBody at hbody
  split at hbody
  · right
    rw [Option.some.inj hbody]
  · exact .inl hbody

theorem Download.next_call
    (download : Download) (action : CacheAction)
    (response : action.Response) :
    (download.next action response).call = download.call := by
  cases action with
  | createDirAll path => exact follow_call
  | pathExists path => cases response <;> rfl
  | request url => exact follow_call
  | createFile path => exact follow_call
  | readBody url => exact afterBody_call
  | writeAll file bytes => exact follow_call
  | flush file => exact follow_call
  | rename source target => exact follow_call
  | removeFile path => rfl

theorem Download.next_body
    {download : Download} {action : CacheAction}
    {response : action.Response} {bytes : Bytes}
    (hbody : (download.next action response).body = some bytes) :
    download.body = some bytes ∨ bodyOf ⟨action, response⟩ = some bytes := by
  cases action with
  | createDirAll path => exact .inl (follow_body.symm.trans hbody)
  | pathExists path => cases response <;> exact .inl hbody
  | request url => exact .inl (follow_body.symm.trans hbody)
  | createFile path => exact .inl (follow_body.symm.trans hbody)
  | readBody url =>
      rcases afterBody_body hbody with hold | hread
      · exact .inl hold
      · exact .inr (by rw [hread]; rfl)
  | writeAll file bytes => exact .inl (follow_body.symm.trans hbody)
  | flush file => exact .inl (follow_body.symm.trans hbody)
  | rename source target => exact .inl (follow_body.symm.trans hbody)
  | removeFile path => exact .inl hbody

theorem ghost_call (volumes : VolumeCache) (task : CacheTask) :
    (task.ghost (downloads volumes)).call = task.call := by
  have hpast : ∀ (past : List (Σ action : CacheAction, action.Response))
      (download : Download),
      (past.foldl (fun download entry =>
        download.next entry.1 entry.2) download).call = download.call := by
    intro past
    induction past with
    | nil => exact fun _ => rfl
    | cons entry past ih =>
        intro download
        rw [List.foldl_cons, ih, Download.next_call]
  exact hpast task.past ⟨task.call, .searching, none⟩

theorem ghost_body
    {volumes : VolumeCache} {task : CacheTask} {bytes : Bytes}
    (hbody : (task.ghost (downloads volumes)).body = some bytes) :
    HasDownloaded task bytes := by
  have hpast : ∀ (past : List (Σ action : CacheAction, action.Response))
      (download : Download),
      (past.foldl (fun download entry =>
        download.next entry.1 entry.2) download).body = some bytes →
      download.body = some bytes ∨
        ∃ entry ∈ past, bodyOf entry = some bytes := by
    intro past
    induction past with
    | nil => exact fun download hdownload => .inl hdownload
    | cons entry past ih =>
        intro download hdownload
        rcases ih _ hdownload with hnext | ⟨found, hmem, hfound⟩
        · rcases Download.next_body hnext with hold | hentry
          · exact .inl hold
          · exact .inr ⟨entry, List.mem_cons_self, hentry⟩
        · exact .inr ⟨found, List.mem_cons_of_mem _ hmem, hfound⟩
  rcases hpast task.past ⟨task.call, .searching, none⟩ hbody with
    hnone | hmem
  · cases hnone
  · exact hmem

/-! ## Runs -/

/-- The content was under the call's final path at the start, or a call for
that path has downloaded it. -/
def IsFullBody (volumes : VolumeCache) (entryOf : Path → Entry)
    (initial : CacheFiles Entry) (system : CacheSystem Entry)
    (call : CacheCall) (bytes : Bytes) : Prop :=
  initial.content (entryOf (call.localPath volumes)) = some bytes ∨
    ∃ other ∈ system.tasks,
      entryOf (other.call.localPath volumes) =
          entryOf (call.localPath volumes) ∧
        HasDownloaded other bytes

/-- What is under the call's final path is a full body, and a path that the
call returns is that path with a file. -/
structure VolumeComplete (volumes : VolumeCache) (entryOf : Path → Entry)
    (initial : CacheFiles Entry) (system : CacheSystem Entry)
    (task : CacheTask) : Prop where
  full : ∀ bytes, system.shared.content
      (entryOf (task.call.localPath volumes)) = some bytes →
    IsFullBody volumes entryOf initial system task.call bytes
  returned : ∀ path, task.result = some (.ok path) →
    path = task.call.localPath volumes ∧
      ∃ bytes, system.shared.content (entryOf path) = some bytes

/-- The calls keep to the protocol, and the files to the invariant. -/
structure CacheSystemKept (volumes : VolumeCache) (entryOf : Path → Entry)
    (initial : CacheFiles Entry) (system : CacheSystem Entry) : Prop where
  follows : system.Follows (downloads volumes)
  kept : DownloadsKept volumes entryOf initial system.shared
    (system.ghosts (downloads volumes))

variable {volumes : VolumeCache} {entryOf : Path → Entry}
  {initial : CacheFiles Entry}

/-- A file that some call downloads to holds what was there at the start or
a body that a call for that file has downloaded. -/
theorem CacheSystemKept.complete
    {system : CacheSystem Entry}
    (hkept : CacheSystemKept volumes entryOf initial system)
    {task : CacheTask} (htask : task ∈ system.tasks) {bytes : Bytes}
    (hcontent : system.shared.content
      (entryOf (task.call.localPath volumes)) = some bytes) :
    IsFullBody volumes entryOf initial system task.call bytes := by
  have hghost : ∀ other ∈ system.tasks,
      other.ghost (downloads volumes) ∈ system.ghosts (downloads volumes) :=
    fun other hother => List.mem_map_of_mem hother
  have hnot : ∀ download ∈ system.ghosts (downloads volumes),
      entryOf (task.call.localPath volumes) ≠
        download.tmpEntry volumes entryOf := by
    intro download hdownload hsame
    have hseparate := hkept.kept.separate download hdownload _
      (hghost task htask)
    rw [Download.finalEntry, ghost_call] at hseparate
    exact hseparate hsame.symm
  rcases hkept.kept.complete _ bytes hnot hcontent with
    hinitial | ⟨download, hdownload, hentry, hbody⟩
  · exact .inl hinitial
  · obtain ⟨other, hother, rfl⟩ := List.mem_map.mp hdownload
    rw [Download.finalEntry, ghost_call] at hentry
    exact .inr ⟨other, hother, hentry, ghost_body hbody⟩

theorem CacheSystemKept.returned
    {system : CacheSystem Entry}
    (hkept : CacheSystemKept volumes entryOf initial system)
    {task : CacheTask} (htask : task ∈ system.tasks) {path : Path}
    (hresult : task.result = some (.ok path)) :
    path = task.call.localPath volumes ∧
      ∃ bytes, system.shared.content (entryOf path) = some bytes := by
  have hreturns := Task.returns_of_result (hkept.follows task htask) hresult
  have hsupported := hkept.kept.supported (task.ghost (downloads volumes))
    (List.mem_map_of_mem htask)
  obtain ⟨hstage, hpath⟩ := hreturns
  rw [ghost_call] at hpath
  unfold Download.Supported at hsupported
  simp only [hstage, Download.finalEntry, ghost_call] at hsupported
  obtain ⟨shown, hshown⟩ := Option.isSome_iff_exists.mp hsupported
  refine ⟨hpath, shown.2, ?_⟩
  rw [hpath, CacheFiles.content, hshown]
  rfl

variable [DecidableEq Entry]

theorem CacheSystemKept.step
    {system : CacheSystem Entry} {event : CacheEvent Entry}
    (hkept : CacheSystemKept volumes entryOf initial system)
    (hapart : DownloadsApart volumes entryOf system event) :
    CacheSystemKept volumes entryOf initial
      (cacheStep volumes entryOf system event) := by
  cases event with
  | call call =>
      constructor
      · exact Pool.call_follows hkept.follows
          (ensureCached_follows volumes call)
      · rw [cacheStep, Pool.call_ghosts]
        refine DownloadsKept.perm ?_ (List.perm_append_singleton _ _).symm
        apply hkept.kept.call hapart.1
        intro download hdownload
        obtain ⟨task, htask, rfl⟩ := List.mem_map.mp hdownload
        rw [ghost_call]
        exact hapart.2 task htask
  | advance index outcome =>
      have hafter := Pool.advance_invariant
        (DownloadsKept volumes entryOf initial)
        (fun hperm hold => hold.perm hperm)
        (by
          intro _ _ _ _ _ _ _ _ _ _
          trivial)
        (by
          intro shared outcome download rest action response reached hold
            hallowed hexec hcond hguard
          exact hold.action hallowed hexec hcond hguard)
        hkept.follows hkept.kept hapart
      exact ⟨hafter.1, hafter.2⟩

/-- Any number of calls for any hashes and categories act in any order.  When
temporary and final files are apart, what is found under a final path is a
file, and a call creates its temporary file only while no other call has it
open, every volume is complete in every state that is reached. -/
theorem cached_volumes_complete
    (volumes : VolumeCache) (entryOf : Path → Entry)
    (initial : CacheFiles Entry) (events : List (CacheEvent Entry))
    (hapart : Along (cacheStep volumes entryOf)
      (DownloadsApart volumes entryOf) ⟨initial, []⟩ events) :
    ∀ task ∈ (run (cacheStep volumes entryOf) ⟨initial, []⟩ events).tasks,
      VolumeComplete volumes entryOf initial
        (run (cacheStep volumes entryOf) ⟨initial, []⟩ events) task := by
  have hstart : CacheSystemKept volumes entryOf initial
      (⟨initial, []⟩ : CacheSystem Entry) := by
    constructor
    · intro task htask
      cases htask
    · constructor
      case supported =>
        intro download hdownload
        cases hdownload
      case apart => exact .nil
      case separate =>
        intro download hdownload
        cases hdownload
      case complete => exact fun _ _ _ hcontent => .inl hcontent
  have hkept : CacheSystemKept volumes entryOf initial
      (run (cacheStep volumes entryOf) ⟨initial, []⟩ events) := by
    refine run_invariant_of_along ?_ hstart hapart
    intro system event hkept hevent
    exact hkept.step hevent
  exact fun task htask =>
    ⟨fun bytes => hkept.complete htask, fun path => hkept.returned htask⟩

/-! Two hashes, and a directory entry for every path. -/

def emptyCache : CacheFiles Path := ⟨.empty, []⟩

def serving (body : Bytes) : CacheOutcome Path where
  made := .ok []
  answer := .ok (.ok ())
  createError := none
  body := .ok body
  writeError := none
  flushError := none
  renameError := none
  removeError := none

def disconnected : CacheOutcome Path :=
  { serving [] with body := .error "connection reset" }

def callA : CacheCall := ⟨"aa", .code⟩

def callB : CacheCall := ⟨"bb", .data⟩

/-- A download for each hash, and a call that finds the first one. -/
def downloadsInTurn : List (CacheEvent Path) :=
  [.call callA, .call callB] ++
    (List.range 8).flatMap (fun _ =>
      [.advance 0 (serving [1, 2]), .advance 1 (serving [3])]) ++
    [.call callA, .advance 2 disconnected, .advance 2 disconnected]

/-- The second call empties the temporary file before the first one renames
it. -/
def downloadsAtOnce : List (CacheEvent Path) :=
  [.call callA, .call callA] ++
    List.replicate 7 (.advance 0 (serving [1, 2])) ++
    List.replicate 4 (.advance 1 disconnected) ++
    [.advance 0 (serving [1, 2]), .advance 1 disconnected]

theorem cached_volumes_complete_in_turn :
    (run (cacheStep sampleVolumes id) ⟨emptyCache, []⟩
        downloadsInTurn).tasks ≠ [] ∧
      ∀ task ∈ (run (cacheStep sampleVolumes id) ⟨emptyCache, []⟩
          downloadsInTurn).tasks,
        VolumeComplete sampleVolumes id emptyCache
          (run (cacheStep sampleVolumes id) ⟨emptyCache, []⟩ downloadsInTurn)
          task := by
  constructor
  · intro hempty
    have hlength := congrArg List.length hempty
    revert hlength
    decide +kernel
  · exact cached_volumes_complete sampleVolumes id emptyCache
      downloadsInTurn (by decide +kernel)

theorem empty_volume_returned :
    (run (cacheStep sampleVolumes id) ⟨emptyCache, []⟩
        downloadsAtOnce).tasks.map Task.result =
        [some (.ok (callA.localPath sampleVolumes)),
          some (.error ("reading body from " ++
            sampleVolumes.url "aa" .code))] ∧
      (run (cacheStep sampleVolumes id) ⟨emptyCache, []⟩
        downloadsAtOnce).shared.content (callA.localPath sampleVolumes) =
        some [] ∧
      ¬ ∀ task ∈ (run (cacheStep sampleVolumes id) ⟨emptyCache, []⟩
          downloadsAtOnce).tasks,
        VolumeComplete sampleVolumes id emptyCache
          (run (cacheStep sampleVolumes id) ⟨emptyCache, []⟩
            downloadsAtOnce) task := by
  have hcontent : (run (cacheStep sampleVolumes id) ⟨emptyCache, []⟩
      downloadsAtOnce).shared.content (callA.localPath sampleVolumes) =
        some [] := by
    decide +kernel
  refine ⟨by decide +kernel, hcontent, ?_⟩
  intro hcomplete
  have hcalls : ∃ task ∈ (run (cacheStep sampleVolumes id) ⟨emptyCache, []⟩
      downloadsAtOnce).tasks, task.call = callA := by
    decide +kernel
  have hnone : ¬ ∃ task ∈ (run (cacheStep sampleVolumes id)
      ⟨emptyCache, []⟩ downloadsAtOnce).tasks, HasDownloaded task [] := by
    decide +kernel
  obtain ⟨task, htask, hcall⟩ := hcalls
  have hfull := (hcomplete task htask).full []
  rw [hcall] at hfull
  rcases hfull hcontent with hinitial | ⟨other, hother, _, hdownloaded⟩
  · cases hinitial
  · exact hnone ⟨other, hother, hdownloaded⟩

end AlephCvm.Agent
