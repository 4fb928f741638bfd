import AlephCvm.AtomicPrograms
import AlephCvm.QemuCommand
import AlephCvm.SplitText
import AlephCvm.StepRuns
import AlephCvm.TextScanning

/-!
# Concurrent calls of `ensure_verity`

Calls of `ensure_verity` for one image share two files, the hash tree and the
cached root hash, and nothing keeps one call from acting between two steps of
another.  A call is a program of file operations; what a failed operation
leaves behind is chosen by the environment.
-/

namespace AlephCvm.Verity

open ResultContext AtomicPrograms SplitText StepRuns AlephCvm.Qemu

variable {Tree : Type}

/-! ## Files and their operations -/

/-- The image's modification time and the two files next to it, the cached
root hash with its modification time. -/
structure VerityStore (Tree : Type) where
  rootfsModified : Option ℕ
  hashtree : Option Tree
  roothash : Option (String × ℕ)
  deriving DecidableEq

inductive VerityAction where
  | hashtreeExists
  | roothashExists
  | rootfsModified
  | roothashModified
  | readRoothash
  | format
  | writeRoothash (rootHash : String)
  deriving DecidableEq

abbrev VerityAction.Response : VerityAction → Type
  | .hashtreeExists | .roothashExists => Bool
  | .rootfsModified | .roothashModified => Option ℕ
  | .readRoothash => Except String String
  | .format => Except String CommandOutput
  | .writeRoothash _ => Except String Unit

/-- A run of `veritysetup format`: it did not start, it failed and left this
tree, or it wrote a tree and printed something. -/
inductive FormatRun (Tree : Type) where
  | notStarted (message : String)
  | failed (left : Option Tree) (stderr : String)
  | formatted (tree : Tree) (stdout : String)

/-- A write of the root hash; a failed one leaves this file. -/
inductive WriteRun where
  | failed (left : Option (String × ℕ)) (message : String)
  | written (now : ℕ)

structure VerityOutcome (Tree : Type) where
  readError : Option String
  format : FormatRun Tree
  write : WriteRun

def VerityStore.readRoothash (store : VerityStore Tree)
    (readError : Option String) : Except String String :=
  match readError, store.roothash with
  | some message, _ => .error message
  | none, none => .error "No such file or directory (os error 2)"
  | none, some (content, _) => .ok content

def VerityStore.format (store : VerityStore Tree) :
    FormatRun Tree → Except String CommandOutput × VerityStore Tree
  | .notStarted message => (.error message, store)
  | .failed left stderr =>
      (.ok ⟨false, "", stderr⟩, { store with hashtree := left })
  | .formatted tree stdout =>
      (.ok ⟨true, stdout, ""⟩, { store with hashtree := some tree })

def VerityStore.writeRoothash (store : VerityStore Tree)
    (rootHash : String) : WriteRun → Except String Unit × VerityStore Tree
  | .failed left message => (.error message, { store with roothash := left })
  | .written now => (.ok (), { store with roothash := some (rootHash, now) })

def exec (outcome : VerityOutcome Tree) :
    (action : VerityAction) → VerityStore Tree →
      Option (action.Response × VerityStore Tree)
  | .hashtreeExists, store => some (store.hashtree.isSome, store)
  | .roothashExists, store => some (store.roothash.isSome, store)
  | .rootfsModified, store => some (store.rootfsModified, store)
  | .roothashModified, store => some (store.roothash.map Prod.snd, store)
  | .readRoothash, store => some (store.readRoothash outcome.readError, store)
  | .format, store => some (store.format outcome.format)
  | .writeRoothash rootHash, store =>
      some (store.writeRoothash rootHash outcome.write)

/-! ## The program -/

abbrev VerityProgram (α : Type) := Program VerityAction VerityAction.Response α

def perform (action : VerityAction) : VerityProgram action.Response :=
  .action action

def formattedHash (output : CommandOutput) : Except String String := do
  ensure output.success s!"veritysetup format failed: {output.stderr}"
  optionContext "failed to parse root hash from veritysetup output"
    (parseRootHash output.stdout)

def computeVerity (rootfsPath : String) :
    VerityProgram (Except String VerityInfo) := do
  match context "failed to execute veritysetup format"
      (← perform .format) >>= formattedHash with
  | .error message => return .error message
  | .ok rootHash =>
      match context s!"failed to write {rootfsPath}.roothash"
          (← perform (.writeRoothash rootHash)) with
      | .error message => return .error message
      | .ok () => return .ok ⟨rootHash, s!"{rootfsPath}.verity"⟩

def readVerity (rootfsPath : String) :
    VerityProgram (Except String VerityInfo) := do
  match context "failed to read cached roothash"
      (← perform .readRoothash) with
  | .error message => return .error message
  | .ok content => return .ok ⟨trimText content, s!"{rootfsPath}.verity"⟩

def notOlder : Option ℕ → Option ℕ → Bool
  | some rootfs, some cache => decide (rootfs ≤ cache)
  | _, _ => false

def ensureVerity (rootfsPath : String) :
    VerityProgram (Except String VerityInfo) := do
  if ← perform .hashtreeExists then
    if ← perform .roothashExists then
      let rootfs ← perform .rootfsModified
      let cache ← perform .roothashModified
      if notOlder rootfs cache then readVerity rootfsPath
      else computeVerity rootfsPath
    else computeVerity rootfsPath
  else computeVerity rootfsPath

/-! ## A call on its own -/

/-- What a call finds when nothing else happens. -/
def VerityStore.files (store : VerityStore Tree)
    (outcome : VerityOutcome Tree) : VerityFiles where
  hashtreeExists := store.hashtree.isSome
  roothashExists := store.roothash.isSome
  rootfsMtime := store.rootfsModified
  cacheMtime := store.roothash.map Prod.snd
  cachedRoothash := store.readRoothash outcome.readError
  veritysetup := (store.format outcome.format).1
  writeRoothash := (store.writeRoothash "" outcome.write).1

theorem ensureVerity_of_stale
    {files : VerityFiles} (hstale : cacheIsFresh files = false)
    (rootfsPath : String) :
    Qemu.ensureVerity files rootfsPath =
      ((context "failed to execute veritysetup format" files.veritysetup >>=
        formattedHash) >>= fun rootHash =>
          context s!"failed to write {rootfsPath}.roothash"
            files.writeRoothash >>= fun _ =>
              pure ⟨rootHash, s!"{rootfsPath}.verity"⟩) := by
  unfold Qemu.ensureVerity formattedHash
  rw [if_neg (by simp [hstale])]
  cases files.veritysetup with
  | error message => rfl
  | ok output =>
      cases hsuccess : output.success <;>
        cases hparse : parseRootHash output.stdout <;>
        simp [context, ensure, optionContext, hsuccess, hparse, bind,
          Except.bind]
      rfl

theorem computeVerity_alone
    (store : VerityStore Tree) (outcome : VerityOutcome Tree)
    (rootfsPath : String)
    (hstale : cacheIsFresh (store.files outcome) = false) :
    ((computeVerity rootfsPath).alone (exec outcome) store).map Prod.fst =
      some (Qemu.ensureVerity (store.files outcome) rootfsPath) := by
  have hwrite : ∀ (rootHash : String) (reached : VerityStore Tree),
      (reached.writeRoothash rootHash outcome.write).1 =
        (store.files outcome).writeRoothash := by
    intro rootHash reached
    unfold VerityStore.files VerityStore.writeRoothash
    cases outcome.write <;> rfl
  rw [ensureVerity_of_stale hstale]
  unfold computeVerity perform
  simp only [Program.alone_bind, Program.alone_action, exec,
    Option.bind_some]
  have hformat : (store.files outcome).veritysetup =
      (store.format outcome.format).1 := rfl
  rw [hformat]
  cases hhash : context "failed to execute veritysetup format"
      (store.format outcome.format).1 >>= formattedHash with
  | error message => rfl
  | ok rootHash =>
      simp only [Program.alone_bind, Program.alone_action, exec,
        Option.bind_some, hwrite]
      cases (store.files outcome).writeRoothash <;> rfl

/-- A call on its own returns what `ensure_verity` computes from the files
that it finds. -/
theorem ensureVerity_alone
    (store : VerityStore Tree) (outcome : VerityOutcome Tree)
    (rootfsPath : String) :
    ((ensureVerity rootfsPath).alone (exec outcome) store).map Prod.fst =
      some (Qemu.ensureVerity (store.files outcome) rootfsPath) := by
  have hcompute := computeVerity_alone store outcome rootfsPath
  have hfresh : cacheIsFresh (store.files outcome) =
      (store.hashtree.isSome && (store.roothash.isSome &&
        notOlder store.rootfsModified (store.roothash.map Prod.snd))) :=
    Bool.and_assoc _ _ _
  unfold ensureVerity perform
  simp only [Program.alone_bind, Program.alone_action, exec,
    Option.bind_some]
  cases htree : store.hashtree.isSome with
  | false =>
      exact hcompute (by rw [hfresh, htree]; rfl)
  | true =>
      rw [if_pos rfl]
      simp only [Program.alone_bind, Program.alone_action, exec,
        Option.bind_some]
      cases hhash : store.roothash.isSome with
      | false =>
          exact hcompute (by rw [hfresh, htree, hhash]; rfl)
      | true =>
          rw [if_pos rfl]
          simp only [Program.alone_bind, Program.alone_action, exec,
            Option.bind_some]
          cases hage : notOlder store.rootfsModified
              (store.roothash.map Prod.snd) with
          | false =>
              exact hcompute (by rw [hfresh, htree, hhash, hage]; rfl)
          | true =>
              rw [if_pos rfl]
              unfold readVerity perform Qemu.ensureVerity
              rw [if_pos (by rw [hfresh, htree, hhash, hage]; rfl)]
              simp only [Program.alone_bind, Program.alone_action, exec,
                Option.bind_some]
              have hcached : (store.files outcome).cachedRoothash =
                  store.readRoothash outcome.readError := rfl
              rw [hcached]
              cases store.readRoothash outcome.readError <;> rfl

/-! ## Calls that run at the same time -/

abbrev VeritySystem (Tree : Type) :=
  Pool (VerityStore Tree) Unit VerityAction VerityAction.Response
    (Except String VerityInfo)

inductive Event (Tree : Type) where
  | call
  | advance (index : ℕ) (outcome : VerityOutcome Tree)

def step (rootfsPath : String) (system : VeritySystem Tree) :
    Event Tree → VeritySystem Tree
  | .call => system.call (fun _ => ensureVerity rootfsPath) ()
  | .advance index outcome => system.advance exec index outcome

/-- What a call has found out. -/
inductive Phase where
  | deciding (treeSeen : Bool)
  | formatted (rootHash : String)
  | holds (rootHash : String)
  | failed
  deriving DecidableEq

/-- The root hash that the call will return or has returned. -/
def Phase.rootHash : Phase → Option String
  | .formatted rootHash | .holds rootHash => some rootHash
  | .deciding _ | .failed => none

def Phase.isFormatted : Phase → Bool
  | .formatted _ => true
  | _ => false

def Phase.afterRead : Except String String → Phase
  | .ok content => .holds (trimText content)
  | .error _ => .failed

def Phase.afterFormat (output : Except String CommandOutput) : Phase :=
  match output >>= formattedHash with
  | .ok rootHash => .formatted rootHash
  | .error _ => .failed

def Phase.afterWrite (rootHash : String) : Except String Unit → Phase
  | .ok () => .holds rootHash
  | .error _ => .failed

def Phase.next (phase : Phase) :
    (action : VerityAction) → action.Response → Phase
  | .hashtreeExists, found => .deciding found
  | .roothashExists, _ | .rootfsModified, _ | .roothashModified, _ => phase
  | .readRoothash, content => .afterRead content
  | .format, output => .afterFormat output
  | .writeRoothash rootHash, written => .afterWrite rootHash written

def Phase.Allows : Phase → VerityAction → Prop
  | .deciding treeSeen, .readRoothash => treeSeen = true
  | .deciding _, .writeRoothash _ => False
  | .deciding _, _ => True
  | .formatted rootHash, .writeRoothash written => written = rootHash
  | _, _ => False

def Phase.Returns (phase : Phase) : Except String VerityInfo → Prop
  | .ok info => phase = .holds info.rootHash
  | .error _ => phase = .failed

def phases : Protocol Unit VerityAction VerityAction.Response
    (Except String VerityInfo) Phase where
  start _ := .deciding false
  next := Phase.next
  allowed := Phase.Allows
  admits _ _ := True
  returns := Phase.Returns

theorem computeVerity_follows (rootfsPath : String) (treeSeen : Bool) :
    (computeVerity rootfsPath).Follows phases Phase.Returns
      (.deciding treeSeen) := by
  unfold computeVerity perform
  rw [Program.follows_action_bind]
  refine ⟨trivial, fun output _ => ?_⟩
  cases output with
  | error message => rfl
  | ok output =>
      have hphase : phases.next (.deciding treeSeen) .format (.ok output) =
          .afterFormat (.ok output) := rfl
      have hcontext : (context "failed to execute veritysetup format"
          (.ok output) >>= formattedHash) = formattedHash output := rfl
      have hafter : Phase.afterFormat (.ok output) =
          match formattedHash output with
          | .ok rootHash => .formatted rootHash
          | .error _ => .failed := rfl
      rw [hphase, hcontext, hafter]
      cases formattedHash output with
      | error message => rfl
      | ok rootHash =>
          simp only [Program.follows_action_bind]
          refine ⟨rfl, fun written _ => ?_⟩
          cases written <;> rfl

theorem readVerity_follows (rootfsPath : String) :
    (readVerity rootfsPath).Follows phases Phase.Returns
      (.deciding true) := by
  unfold readVerity perform
  rw [Program.follows_action_bind]
  refine ⟨rfl, fun content _ => ?_⟩
  cases content <;> rfl

theorem ensureVerity_follows (rootfsPath : String) :
    (ensureVerity rootfsPath).Follows phases phases.returns
      (phases.start ()) := by
  unfold ensureVerity perform
  rw [Program.follows_action_bind]
  refine ⟨trivial, fun treeSeen _ => ?_⟩
  cases treeSeen with
  | false => exact computeVerity_follows rootfsPath false
  | true =>
      rw [if_pos rfl, Program.follows_action_bind]
      refine ⟨trivial, fun hashSeen _ => ?_⟩
      cases hashSeen with
      | false => exact computeVerity_follows rootfsPath true
      | true =>
          rw [if_pos rfl, Program.follows_action_bind]
          refine ⟨trivial, fun rootfs _ => ?_⟩
          rw [Program.follows_action_bind]
          refine ⟨trivial, fun cache _ => ?_⟩
          cases notOlder rootfs cache with
          | false => exact computeVerity_follows rootfsPath true
          | true => exact readVerity_follows rootfsPath

/-! ## Printed root hashes -/

theorem isWhiteSpace_of_mem_lowerCase
    {symbol lower : Char} (hsymbol : SplitText.isWhiteSpace symbol = false)
    (hlower : lower ∈ lowerCase symbol) :
    SplitText.isWhiteSpace lower = false := by
  unfold lowerCase at hlower
  split at hlower
  · rw [List.mem_singleton.mp hlower]
    rfl
  split at hlower
  · rcases List.mem_pair.mp hlower with rfl | rfl <;> rfl
  rw [List.mem_singleton.mp hlower]
  unfold Char.toLower
  split
  · rename_i hupper
    have hge : 65 ≤ symbol.toNat := UInt32.le_iff_toNat_le.1 hupper.1
    have hle : symbol.toNat ≤ 90 := UInt32.le_iff_toNat_le.1 hupper.2
    have hvalue : (symbol.val + ('a'.val - 'A'.val)).toNat =
        symbol.toNat + 32 := by
      have hoffset : ('a'.val - 'A'.val).toNat = 32 := by decide
      have hval : symbol.val.toNat = symbol.toNat := rfl
      rw [UInt32.toNat_add, hoffset, hval]
      omega
    apply SplitText.isWhiteSpace_of_visible
    · show 0x20 < (symbol.val + ('a'.val - 'A'.val)).toNat
      omega
    · show (symbol.val + ('a'.val - 'A'.val)).toNat < 0x80
      omega
  · exact hsymbol

/-- A root hash that was read from the output is not changed by trimming. -/
theorem trimText_parseRootHash
    {stdout rootHash : String}
    (hparse : parseRootHash stdout = some rootHash) :
    trimText rootHash = rootHash := by
  simp only [parseRootHash, Option.bind_eq_bind, Option.bind_eq_some_iff,
    Option.pure_def, Option.some.injEq] at hparse
  obtain ⟨line, -, word, hword, hequal⟩ := hparse
  have hmem := List.mem_of_getLast? hword
  simp only [splitWhitespace, List.mem_map, List.mem_filter] at hmem
  obtain ⟨part, ⟨hpart, -⟩, hpartWord⟩ := hmem
  have hclean : ∀ symbol ∈ word.toList,
      SplitText.isWhiteSpace symbol = false := by
    rw [← hpartWord, String.toList_ofList]
    exact not_separator_of_mem_splitOnP hpart
  apply trimText_of_no_whitespace
  rw [← hequal, trimText_of_no_whitespace hclean, toLowercase,
    String.toList_ofList]
  intro symbol hsymbol
  obtain ⟨original, horiginal, hlower⟩ := List.mem_flatMap.1 hsymbol
  exact isWhiteSpace_of_mem_lowerCase (hclean original horiginal) hlower

/-! ## Trees and hashes that belong together -/

variable (rootHashOf : Tree → String)

/-- The hash belongs to the tree that is stored. -/
def VerityStore.TreeHash (store : VerityStore Tree) (rootHash : String) :
    Prop :=
  ∃ tree, store.hashtree = some tree ∧ rootHashOf tree = rootHash

/-- The two files belong together, if both exist. -/
def VerityStore.Consistent (store : VerityStore Tree) : Prop :=
  ∀ content modified, store.roothash = some (content, modified) →
    ∀ tree, store.hashtree = some tree →
      trimText content = rootHashOf tree

/-- `veritysetup` prints the root hash of the tree that it writes. -/
def FormatRun.Prints : FormatRun Tree → Prop
  | .formatted tree stdout => parseRootHash stdout = some (rootHashOf tree)
  | .notStarted _ | .failed _ _ => True

def Event.Prints : Event Tree → Prop
  | .call => True
  | .advance _ outcome => outcome.format.Prints rootHashOf

instance FormatRun.Prints.decidable :
    ∀ run : FormatRun Tree, Decidable (run.Prints rootHashOf)
  | .formatted tree stdout =>
      inferInstanceAs
        (Decidable (parseRootHash stdout = some (rootHashOf tree)))
  | .notStarted _ | .failed _ _ => inferInstanceAs (Decidable True)

instance Event.Prints.decidable :
    ∀ event : Event Tree, Decidable (event.Prints rootHashOf)
  | .call => inferInstanceAs (Decidable True)
  | .advance _ outcome =>
      inferInstanceAs (Decidable (outcome.format.Prints rootHashOf))

variable {rootHashOf}

/-- A failed run leaves the tree as it was. -/
def FormatRun.Leaves (store : VerityStore Tree) : FormatRun Tree → Prop
  | .failed left _ => left = store.hashtree
  | .notStarted _ | .formatted _ _ => True

def FormatRun.writesTree : FormatRun Tree → Bool
  | .formatted _ _ => true
  | .notStarted _ | .failed _ _ => false

/-- A failed write leaves no file or one with the whole hash. -/
def WriteRun.Leaves (rootHash : String) : WriteRun → Prop
  | .failed left _ => ∀ file ∈ left, trimText file.1 = rootHash
  | .written _ => True

def LeavesWhole (shared : VerityStore Tree) (outcome : VerityOutcome Tree)
    (_ : Phase) : (action : VerityAction) → action.Response → Prop
  | .format, _ => outcome.format.Leaves shared
  | .writeRoothash rootHash, _ => outcome.write.Leaves rootHash
  | .hashtreeExists, _ | .roothashExists, _ | .rootfsModified, _
  | .roothashModified, _ | .readRoothash, _ => True

/-- The cached hash is read while no other call is between its tree and its
hash, and a tree is written while no other call has a hash in hand. -/
def ActsApart (_ : VerityStore Tree) (outcome : VerityOutcome Tree)
    (_ : Phase) (action : VerityAction) (_ : action.Response)
    (other : Phase) : Prop :=
  match action with
  | .readRoothash => outcome.readError = none → other.isFormatted = false
  | .format => outcome.format.writesTree = true → other.rootHash = none
  | _ => True

def StepApart (system : VeritySystem Tree) : Event Tree → Prop
  | .call => True
  | .advance index outcome =>
      system.Meets exec phases LeavesWhole ActsApart index outcome

section Deciding

variable [DecidableEq Tree]

instance FormatRun.Leaves.decidable (store : VerityStore Tree) :
    ∀ run : FormatRun Tree, Decidable (run.Leaves store)
  | .failed left _ => inferInstanceAs (Decidable (left = store.hashtree))
  | .notStarted _ | .formatted _ _ => inferInstanceAs (Decidable True)

instance WriteRun.Leaves.decidable (rootHash : String) :
    ∀ run : WriteRun, Decidable (run.Leaves rootHash)
  | .failed left _ =>
      inferInstanceAs (Decidable (∀ file ∈ left, trimText file.1 = rootHash))
  | .written _ => inferInstanceAs (Decidable True)

instance LeavesWhole.decidable
    (shared : VerityStore Tree) (outcome : VerityOutcome Tree)
    (phase : Phase) : ∀ (action : VerityAction) (response : action.Response),
      Decidable (LeavesWhole shared outcome phase action response)
  | .format, _ => inferInstanceAs (Decidable (outcome.format.Leaves shared))
  | .writeRoothash rootHash, _ =>
      inferInstanceAs (Decidable (outcome.write.Leaves rootHash))
  | .hashtreeExists, _ | .roothashExists, _ | .rootfsModified, _
  | .roothashModified, _ | .readRoothash, _ =>
      inferInstanceAs (Decidable True)

instance ActsApart.decidable
    (shared : VerityStore Tree) (outcome : VerityOutcome Tree)
    (phase : Phase) : ∀ (action : VerityAction) (response : action.Response)
      (other : Phase),
      Decidable (ActsApart shared outcome phase action response other)
  | .readRoothash, _, other =>
      inferInstanceAs
        (Decidable (outcome.readError = none → other.isFormatted = false))
  | .format, _, other =>
      inferInstanceAs (Decidable
        (outcome.format.writesTree = true → other.rootHash = none))
  | .hashtreeExists, _, _ | .roothashExists, _, _ | .rootfsModified, _, _
  | .roothashModified, _, _ | .writeRoothash _, _, _ =>
      inferInstanceAs (Decidable True)

instance StepApart.decidable (system : VeritySystem Tree) :
    ∀ event : Event Tree, Decidable (StepApart system event)
  | .call => inferInstanceAs (Decidable True)
  | .advance index outcome =>
      inferInstanceAs (Decidable
        (system.Meets exec phases LeavesWhole ActsApart index outcome))

end Deciding

def Phase.Supported (rootHashOf : Tree → String) (store : VerityStore Tree) :
    Phase → Prop
  | .deciding treeSeen =>
      treeSeen = true → store.hashtree.isSome = true
  | .formatted rootHash =>
      store.TreeHash rootHashOf rootHash ∧ trimText rootHash = rootHash
  | .holds rootHash => store.TreeHash rootHashOf rootHash
  | .failed => True

/-- Every hash in hand belongs to the tree, and the files belong together
unless a call is between writing the one and the other. -/
structure Kept (rootHashOf : Tree → String) (store : VerityStore Tree)
    (ghosts : List Phase) : Prop where
  supported : ∀ phase ∈ ghosts, phase.Supported rootHashOf store
  paired : store.Consistent rootHashOf ∨
    ∃ phase ∈ ghosts, phase.isFormatted = true

theorem Kept.perm
    {store : VerityStore Tree} {ghosts reordered : List Phase}
    (hkept : Kept rootHashOf store ghosts)
    (hperm : ghosts.Perm reordered) : Kept rootHashOf store reordered where
  supported := fun phase hphase =>
    hkept.supported phase (hperm.mem_iff.2 hphase)
  paired := by
    rcases hkept.paired with hconsistent | ⟨phase, hphase, hformatted⟩
    · exact .inl hconsistent
    · exact .inr ⟨phase, hperm.mem_iff.1 hphase, hformatted⟩

theorem Kept.consistent
    {store : VerityStore Tree} {ghosts : List Phase}
    (hkept : Kept rootHashOf store ghosts)
    (hnone : ∀ phase ∈ ghosts, phase.isFormatted = false) :
    store.Consistent rootHashOf := by
  rcases hkept.paired with hconsistent | ⟨phase, hphase, hformatted⟩
  · exact hconsistent
  · rw [hnone phase hphase] at hformatted
    cases hformatted

/-- A call that looked at the files and changed nothing. -/
theorem Kept.replace
    {store : VerityStore Tree} {phase after : Phase} {rest : List Phase}
    (hkept : Kept rootHashOf store (phase :: rest))
    (hafter : after.Supported rootHashOf store)
    (hphase : phase.isFormatted = true → after.isFormatted = true) :
    Kept rootHashOf store (after :: rest) where
  supported := by
    intro candidate hcandidate
    rcases List.mem_cons.1 hcandidate with hnew | hold
    · rw [hnew]
      exact hafter
    · exact hkept.supported candidate (by simp [hold])
  paired := by
    rcases hkept.paired with hconsistent | ⟨holder, hholder, hformatted⟩
    · exact .inl hconsistent
    · rcases List.mem_cons.1 hholder with hself | hother
      · rw [hself] at hformatted
        exact .inr ⟨after, by simp, hphase hformatted⟩
      · exact .inr ⟨holder, by simp [hother], hformatted⟩

theorem readError_of_readRoothash
    {store : VerityStore Tree} {readError : Option String}
    {content : String} (hread : store.readRoothash readError = .ok content) :
    readError = none := by
  cases readError with
  | none => rfl
  | some message => cases hread

/-- The cached hash that a call reads belongs to the tree. -/
theorem Kept.read
    {store : VerityStore Tree} {rest : List Phase} {content : String}
    {readError : Option String}
    (hkept : Kept rootHashOf store (.deciding true :: rest))
    (hread : store.readRoothash readError = .ok content)
    (hnone : ∀ other ∈ rest, other.isFormatted = false) :
    Kept rootHashOf store (.holds (trimText content) :: rest) := by
  have hconsistent : store.Consistent rootHashOf := by
    apply hkept.consistent
    intro phase hphase
    rcases List.mem_cons.1 hphase with hself | hother
    · rw [hself]
      rfl
    · exact hnone phase hother
  have htree := hkept.supported (.deciding true) (by simp) rfl
  obtain ⟨tree, htree⟩ := Option.isSome_iff_exists.1 htree
  have hfile : ∃ modified, store.roothash = some (content, modified) := by
    unfold VerityStore.readRoothash at hread
    split at hread
    · cases hread
    · cases hread
    · rename_i found modified hfound
      cases hread
      exact ⟨modified, hfound⟩
  obtain ⟨modified, hfile⟩ := hfile
  apply hkept.replace
  · exact ⟨tree, htree, (hconsistent content modified hfile tree htree).symm⟩
  · intro hformatted
    cases hformatted

theorem afterFormat_printed
    {tree : Tree} {stdout : String}
    (hprints : parseRootHash stdout = some (rootHashOf tree)) :
    Phase.afterFormat (.ok ⟨true, stdout, ""⟩) =
      .formatted (rootHashOf tree) := by
  have hhash : formattedHash ⟨true, stdout, ""⟩ =
      .ok (rootHashOf tree) := by
    simp [formattedHash, ensure, optionContext, hprints, bind, Except.bind]
  have hafter : Phase.afterFormat (.ok ⟨true, stdout, ""⟩) =
      match formattedHash ⟨true, stdout, ""⟩ with
      | .ok rootHash => .formatted rootHash
      | .error _ => .failed := rfl
  rw [hafter, hhash]

/-- A tree may be written while no other call has a hash in hand. -/
theorem Kept.format
    {store : VerityStore Tree} {rest : List Phase} {treeSeen : Bool}
    {outcome : VerityOutcome Tree}
    (hkept : Kept rootHashOf store (.deciding treeSeen :: rest))
    (hprints : outcome.format.Prints rootHashOf)
    (hleaves : outcome.format.Leaves store)
    (hnone : ∀ other ∈ rest,
      outcome.format.writesTree = true → other.rootHash = none) :
    Kept rootHashOf (store.format outcome.format).2
      (.afterFormat (store.format outcome.format).1 :: rest) := by
  cases hrun : outcome.format with
  | notStarted message =>
      exact hkept.replace trivial (by intro hformatted; cases hformatted)
  | failed left stderr =>
      have hstore : ({ store with hashtree := left } : VerityStore Tree) =
          store := by
        rw [hrun] at hleaves
        rw [hleaves]
      simp only [VerityStore.format, hstore]
      exact hkept.replace trivial (by intro hformatted; cases hformatted)
  | formatted tree stdout =>
      rw [hrun] at hprints
      have hphase := afterFormat_printed hprints
      simp only [VerityStore.format, hphase]
      constructor
      · intro phase hphase
        rcases List.mem_cons.1 hphase with hself | hother
        · rw [hself]
          exact ⟨⟨tree, rfl, rfl⟩, trimText_parseRootHash hprints⟩
        · have hhash := hnone phase hother (by rw [hrun]; rfl)
          cases phase with
          | deciding seen => exact fun _ => rfl
          | formatted rootHash => cases hhash
          | holds rootHash => cases hhash
          | failed => trivial
      · exact .inr ⟨_, List.mem_cons_self, rfl⟩

/-- Writing the hash makes the two files belong together. -/
theorem Kept.write
    {store : VerityStore Tree} {rest : List Phase} {rootHash : String}
    {run : WriteRun}
    (hkept : Kept rootHashOf store (.formatted rootHash :: rest))
    (hleaves : run.Leaves rootHash) :
    Kept rootHashOf (store.writeRoothash rootHash run).2
      (.afterWrite rootHash (store.writeRoothash rootHash run).1 ::
        rest) := by
  obtain ⟨⟨tree, htree, hhash⟩, htrim⟩ :=
    hkept.supported (.formatted rootHash) (by simp)
  have hothers : ∀ phase ∈ rest, phase.Supported rootHashOf store :=
    fun phase hphase => hkept.supported phase (by simp [hphase])
  have hconsistent : (store.writeRoothash rootHash run).2.Consistent
      rootHashOf := by
    intro content modified hfile other hother
    have hsame : other = tree := by
      cases run with
      | failed left message => exact Option.some.inj (hother.symm.trans htree)
      | written now => exact Option.some.inj (hother.symm.trans htree)
    rw [hsame, hhash]
    cases run with
    | failed left message =>
        exact hleaves (content, modified) hfile
    | written now =>
        have hfile : (rootHash, now) = (content, modified) :=
          Option.some.inj hfile
        rw [← (Prod.mk.inj hfile).1]
        exact htrim
  refine ⟨?_, .inl hconsistent⟩
  intro phase hphase
  rcases List.mem_cons.1 hphase with hself | hother
  · rw [hself]
    cases run with
    | failed left message => trivial
    | written now => exact ⟨tree, htree, hhash⟩
  · have hold := hothers phase hother
    cases run with
    | failed left message => cases phase <;> exact hold
    | written now => cases phase <;> exact hold

theorem Kept.action
    {store reached : VerityStore Tree} {outcome : VerityOutcome Tree}
    {phase : Phase} {rest : List Phase} {action : VerityAction}
    {response : action.Response}
    (hkept : Kept rootHashOf store (phase :: rest))
    (hallowed : phase.Allows action)
    (hexec : exec outcome action store = some (response, reached))
    (hprints : outcome.format.Prints rootHashOf)
    (hwhole : LeavesWhole store outcome phase action response)
    (hapart : ∀ other ∈ rest,
      ActsApart store outcome phase action response other) :
    Kept rootHashOf reached (phase.next action response :: rest) := by
  cases action with
  | hashtreeExists =>
      cases hexec
      cases phase with
      | deciding treeSeen =>
          exact hkept.replace (fun hseen => hseen)
            (by intro hformatted; cases hformatted)
      | formatted rootHash => cases hallowed
      | holds rootHash => cases hallowed
      | failed => cases hallowed
  | roothashExists =>
      cases hexec
      exact hkept
  | rootfsModified =>
      cases hexec
      exact hkept
  | roothashModified =>
      cases hexec
      exact hkept
  | readRoothash =>
      cases phase with
      | deciding treeSeen =>
          cases hallowed
          obtain ⟨hread, hstore⟩ := Prod.mk.inj (Option.some.inj hexec)
          subst hstore
          cases response with
          | error message =>
              exact hkept.replace trivial (by
                intro hformatted
                cases hformatted)
          | ok content =>
              apply hkept.read hread
              intro other hother
              exact hapart other hother (readError_of_readRoothash hread)
      | formatted rootHash => cases hallowed
      | holds rootHash => cases hallowed
      | failed => cases hallowed
  | format =>
      cases phase with
      | deciding treeSeen =>
          have hresult : store.format outcome.format =
              (response, reached) := Option.some.inj hexec
          have hafter := hkept.format hprints hwhole hapart
          rw [hresult] at hafter
          exact hafter
      | formatted rootHash => cases hallowed
      | holds rootHash => cases hallowed
      | failed => cases hallowed
  | writeRoothash written =>
      cases phase with
      | formatted rootHash =>
          cases hallowed
          have hresult : store.writeRoothash written outcome.write =
              (response, reached) := Option.some.inj hexec
          have hafter := hkept.write hwhole
          rw [hresult] at hafter
          exact hafter
      | deciding treeSeen => cases hallowed
      | holds rootHash => cases hallowed
      | failed => cases hallowed

/-- The calls keep to the protocol, and their hashes belong to the tree. -/
structure SystemKept (rootHashOf : Tree → String)
    (system : VeritySystem Tree) : Prop where
  follows : system.Follows phases
  kept : Kept rootHashOf system.shared (system.ghosts phases)

theorem SystemKept.step
    {system : VeritySystem Tree} {event : Event Tree} {rootfsPath : String}
    (hkept : SystemKept rootHashOf system)
    (hprints : event.Prints rootHashOf) (hapart : StepApart system event) :
    SystemKept rootHashOf (step rootfsPath system event) := by
  cases event with
  | call =>
      constructor
      · exact Pool.call_follows hkept.follows (ensureVerity_follows rootfsPath)
      · rw [Verity.step, Pool.call_ghosts]
        refine Kept.perm ?_ (List.perm_append_singleton _ _).symm
        constructor
        · intro phase hphase
          rcases List.mem_cons.1 hphase with hnew | hold
          · rw [hnew]
            intro hseen
            cases hseen
          · exact hkept.kept.supported phase hold
        · rcases hkept.kept.paired with hconsistent | hformatted
          · exact .inl hconsistent
          · obtain ⟨phase, hphase, hformatted⟩ := hformatted
            exact .inr ⟨phase, List.mem_cons_of_mem _ hphase, hformatted⟩
  | advance index outcome =>
      have hmeets : system.Meets exec phases
          (fun shared outcome phase action response =>
            LeavesWhole shared outcome phase action response ∧
              outcome.format.Prints rootHashOf)
          ActsApart index outcome := by
        intro taken htaken
        have hboth := hapart taken htaken
        exact ⟨⟨hboth.1, hprints⟩, hboth.2⟩
      have hafter := Pool.advance_invariant (Kept rootHashOf)
        (fun hperm hold => hold.perm hperm)
        (by
          intro _ _ _ _ _ _ _ _ _ _
          trivial)
        (by
          intro shared outcome phase rest action response reached hold
            hallowed hexec hcond hguard
          exact hold.action hallowed hexec hcond.2 hcond.1 hguard)
        hkept.follows hkept.kept hmeets
      exact ⟨hafter.1, hafter.2⟩

/-- Every information that was returned belongs to the tree that is stored. -/
theorem SystemKept.returned
    {system : VeritySystem Tree} (hkept : SystemKept rootHashOf system)
    {task : Task Unit VerityAction VerityAction.Response
      (Except String VerityInfo)} (htask : task ∈ system.tasks)
    {info : VerityInfo} (hresult : task.result = some (.ok info)) :
    system.shared.TreeHash rootHashOf info.rootHash := by
  have hreturns := Task.returns_of_result (hkept.follows task htask) hresult
  have hsupported := hkept.kept.supported (task.ghost phases)
    (List.mem_map_of_mem htask)
  have hphase : task.ghost phases = .holds info.rootHash := hreturns
  rw [hphase] at hsupported
  exact hsupported

/-- When every call has returned, the two files belong together. -/
theorem SystemKept.consistent
    {system : VeritySystem Tree} (hkept : SystemKept rootHashOf system)
    (hquiet : system.Quiet) : system.shared.Consistent rootHashOf := by
  apply hkept.kept.consistent
  intro phase hphase
  obtain ⟨task, htask, hghost⟩ := List.mem_map.1 hphase
  obtain ⟨result, hresult⟩ := Option.isSome_iff_exists.1 (hquiet task htask)
  have hreturns := Task.returns_of_result (hkept.follows task htask) hresult
  rw [hghost] at hreturns
  cases result with
  | error message =>
      have hfailed : phase = .failed := hreturns
      rw [hfailed]
      rfl
  | ok info =>
      have hholds : phase = .holds info.rootHash := hreturns
      rw [hholds]
      rfl

/-- Any number of calls for one image act in any order, from files that
belong together.  When the cached hash is read only while no other call is
between its tree and its hash, and a tree is written only while no other call
has a hash in hand, every information returned belongs to the tree that is
stored, and so does the cached hash when all calls have returned. -/
theorem verity_artifacts_consistent
    (rootHashOf : Tree → String) (rootfsPath : String)
    (store : VerityStore Tree) (events : List (Event Tree))
    (hinitial : store.Consistent rootHashOf)
    (hprints : ∀ event ∈ events, event.Prints rootHashOf)
    (hapart : Along (step rootfsPath) StepApart ⟨store, []⟩ events) :
    (∀ task ∈ (run (step rootfsPath) ⟨store, []⟩ events).tasks,
      ∀ info, task.result = some (.ok info) →
        (run (step rootfsPath) ⟨store, []⟩ events).shared.TreeHash rootHashOf
          info.rootHash) ∧
    ((run (step rootfsPath) ⟨store, []⟩ events).Quiet →
      (run (step rootfsPath) ⟨store, []⟩ events).shared.Consistent
        rootHashOf) := by
  have hstart : SystemKept rootHashOf (⟨store, []⟩ : VeritySystem Tree) := by
    constructor
    · intro task htask
      cases htask
    · refine ⟨?_, .inl hinitial⟩
      intro phase hphase
      cases hphase
  have hboth := along_and hapart
    (along_of_forall hprints (⟨store, []⟩ : VeritySystem Tree))
  have hkept := run_invariant_of_along
    (fun system event hkept hmeets =>
      SystemKept.step hkept hmeets.2 hmeets.1) hstart hboth
  exact ⟨fun task htask info => hkept.returned htask, hkept.consistent⟩

/-- A tree is named by its root hash here, and everything succeeds. -/
def printing (tree : String) : VerityOutcome String where
  readError := none
  format := .formatted tree s!"Root hash: {tree}"
  write := .written 1

def newImage : VerityStore String := ⟨some 0, none, none⟩

/-- One call after the other. -/
def inTurn : List (Event String) :=
  [.call, .advance 0 (printing "aa"), .advance 0 (printing "aa"),
    .advance 0 (printing "aa"), .call, .advance 1 (printing "bb"),
    .advance 1 (printing "bb"), .advance 1 (printing "bb"),
    .advance 1 (printing "bb"), .advance 1 (printing "bb")]

/-- Both calls write a tree before either writes its hash. -/
def atOnce : List (Event String) :=
  [.call, .call, .advance 0 (printing "aa"), .advance 1 (printing "bb"),
    .advance 0 (printing "aa"), .advance 1 (printing "bb"),
    .advance 1 (printing "bb"), .advance 0 (printing "aa")]

theorem verity_artifacts_consistent_in_turn :
    (run (step "/images/rootfs") ⟨newImage, []⟩ inTurn).Quiet ∧
      (run (step "/images/rootfs") ⟨newImage, []⟩ inTurn).shared.Consistent
        id := by
  have hquiet :
      (run (step "/images/rootfs") ⟨newImage, []⟩ inTurn).Quiet := by
    decide +kernel
  have hinitial : newImage.Consistent id := by
    intro content modified hfile
    cases hfile
  have hprints : ∀ event ∈ inTurn, event.Prints id := by
    decide +kernel
  exact ⟨hquiet, (verity_artifacts_consistent id "/images/rootfs" newImage
    inTurn hinitial hprints (by decide +kernel)).2 hquiet⟩

/-- Of two calls that write their trees before either writes its hash, the
one that wrote the first tree leaves and returns a hash that belongs to no
tree any more. -/
theorem trees_and_hashes_mixed :
    newImage.Consistent id ∧
      (run (step "/images/rootfs") ⟨newImage, []⟩ atOnce).Quiet ∧
      (run (step "/images/rootfs") ⟨newImage, []⟩ atOnce).shared =
        ⟨some 0, some "bb", some ("aa", 1)⟩ ∧
      (run (step "/images/rootfs") ⟨newImage, []⟩ atOnce).tasks.map
          Task.result =
        [some (.ok ⟨"aa", "/images/rootfs.verity"⟩),
          some (.ok ⟨"bb", "/images/rootfs.verity"⟩)] ∧
      ¬ (run (step "/images/rootfs") ⟨newImage, []⟩ atOnce).shared.Consistent
        id := by
  have hshared :
      (run (step "/images/rootfs") ⟨newImage, []⟩ atOnce).shared =
        ⟨some 0, some "bb", some ("aa", 1)⟩ := by
    decide +kernel
  refine ⟨?_, by decide +kernel, hshared, by decide +kernel, ?_⟩
  · intro content modified hfile
    cases hfile
  · rw [hshared]
    intro hconsistent
    have hequal := hconsistent "aa" 1 rfl "bb" rfl
    exact absurd hequal (by decide +kernel)

end AlephCvm.Verity
