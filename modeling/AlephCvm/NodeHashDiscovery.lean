import Mathlib.Data.Option.Basic
import AlephCvm.QemuCommand
import AlephCvm.StepRuns

/-!
# The hash of the node

Model of the part of `aleph-scheduler-agent/src/main.rs` and
`src/aleph/node_hash.rs` that finds out the hash of the node.  A background
task queries the network while no hash is known, the SIGHUP handler takes
over what the cache file says, and the `set-node-hash` command, another
process, writes that file.  Every hash and every content of the file carries
where it comes from; no step looks at this.
-/

namespace AlephCvm.Agent

open StepRuns AlephCvm.Qemu

/-- Who has found the hash out: the operator, or the discovery task. -/
inductive HashOrigin where
  | operator
  | discovered
  deriving DecidableEq, Repr

/-- Where the discovery task is: before the test of the shared state, in the
network query, before the write of the file, before the write of the shared
state, in its pause, or at its end. -/
inductive Discovery (Hash : Type) where
  | checking
  | querying
  | found (hash : Hash)
  | cached (hash : Hash)
  | sleeping
  | stopped
  deriving DecidableEq

/-- Where the SIGHUP handler is: before the next signal, before the
comparison with the shared state, or before its write. -/
inductive Handler (Hash : Type) where
  | waiting
  | read (hash : Hash) (origin : HashOrigin)
  | replacing (hash : Hash) (origin : HashOrigin)
  deriving DecidableEq

/-- `installed` says that the handler has written a hash of the operator to
the shared state. -/
structure NodeHashSystem (Hash : Type) where
  nodeHash : Option (Hash × HashOrigin)
  file : Option (String × HashOrigin)
  discovery : Discovery Hash
  handler : Handler Hash
  installed : Bool
  deriving DecidableEq

/-- A write of the file succeeds, stops in the middle or changes nothing. -/
inductive CacheWrite where
  | written
  | truncated (kept : ℕ)
  | refused
  deriving DecidableEq, Repr

variable {Hash : Type}

/-- `NodeHash::parse` and the `Display` of a node hash. -/
structure HashText (Hash : Type) where
  parse : String → Except String Hash
  display : Hash → String

def readCachedHashRaw (file : Option (String × HashOrigin)) :
    Option (String × HashOrigin) :=
  match file with
  | none => none
  | some (content, origin) =>
      if (trimText content).isEmpty then none
      else some (trimText content, origin)

def readCachedHash (text : HashText Hash)
    (file : Option (String × HashOrigin)) : Option (Hash × HashOrigin) :=
  match readCachedHashRaw file with
  | none => none
  | some (raw, origin) =>
      match text.parse raw with
      | .error _ => none
      | .ok hash => some (hash, origin)

def writeCachedHash (text : HashText Hash) (hash : Hash)
    (origin : HashOrigin) (outcome : CacheWrite)
    (file : Option (String × HashOrigin)) : Option (String × HashOrigin) :=
  match outcome with
  | .written => some (text.display hash, origin)
  | .truncated kept =>
      some (String.ofList ((text.display hash).toList.take kept), origin)
  | .refused => file

inductive NodeHashEvent (Hash : Type) where
  | check
  | answer (result : Except String (Option Hash))
  | cache (outcome : CacheWrite)
  | publish
  | wake
  | signal (readable : Bool)
  | compare
  | replace
  | setNodeHash (hash : String) (outcome : CacheWrite)

/-! ## The three parties -/

section Steps

variable (system : NodeHashSystem Hash)

/-- The task stops once there is a hash. -/
def NodeHashSystem.check : NodeHashSystem Hash :=
  match system.discovery with
  | .checking => { system with
      discovery := if system.nodeHash.isSome then .stopped else .querying }
  | _ => system

def NodeHashSystem.answer (result : Except String (Option Hash)) :
    NodeHashSystem Hash :=
  match system.discovery, result with
  | .querying, .ok (some hash) => { system with discovery := .found hash }
  | .querying, _ => { system with discovery := .sleeping }
  | _, _ => system

/-- A write that fails is only logged. -/
def NodeHashSystem.cache (text : HashText Hash) (outcome : CacheWrite) :
    NodeHashSystem Hash :=
  match system.discovery with
  | .found hash => { system with
      file := writeCachedHash text hash .discovered outcome system.file
      discovery := .cached hash }
  | _ => system

def NodeHashSystem.publish : NodeHashSystem Hash :=
  match system.discovery with
  | .cached hash => { system with
      nodeHash := some (hash, .discovered)
      discovery := .stopped }
  | _ => system

def NodeHashSystem.wake : NodeHashSystem Hash :=
  match system.discovery with
  | .sleeping => { system with discovery := .checking }
  | _ => system

def NodeHashSystem.signal (text : HashText Hash) (readable : Bool) :
    NodeHashSystem Hash :=
  match system.handler with
  | .waiting =>
      match readCachedHash text (if readable then system.file else none) with
      | none => system
      | some (hash, origin) =>
          { system with handler := .read hash origin }
  | _ => system

def NodeHashSystem.compare [DecidableEq Hash] : NodeHashSystem Hash :=
  match system.handler with
  | .read hash origin => { system with
      handler :=
        if system.nodeHash.map Prod.fst = some hash then .waiting
        else .replacing hash origin }
  | _ => system

def NodeHashSystem.replace : NodeHashSystem Hash :=
  match system.handler with
  | .replacing hash origin => { system with
      nodeHash := some (hash, origin)
      handler := .waiting
      installed := system.installed || decide (origin = .operator) }
  | _ => system

/-- The signal at the end of the command is an event of its own. -/
def NodeHashSystem.setNodeHash (text : HashText Hash) (argument : String)
    (outcome : CacheWrite) : NodeHashSystem Hash :=
  match text.parse argument with
  | .error _ => system
  | .ok hash => { system with
      file := writeCachedHash text hash .operator outcome system.file }

def NodeHashSystem.step [DecidableEq Hash] (text : HashText Hash) :
    NodeHashEvent Hash → NodeHashSystem Hash
  | .check => system.check
  | .answer result => system.answer result
  | .cache outcome => system.cache text outcome
  | .publish => system.publish
  | .wake => system.wake
  | .signal readable => system.signal text readable
  | .compare => system.compare
  | .replace => system.replace
  | .setNodeHash argument outcome => system.setNodeHash text argument outcome

end Steps

/-! ## The operator's hash -/

/-- Whatever the step changes once the handler has put a hash of the operator
into the shared state does not become a hash that was discovered. -/
def NodeHashSystem.KeepsOperatorHash (before after : NodeHashSystem Hash) :
    Prop :=
  before.installed = true →
    (∀ hash origin, after.nodeHash = some (hash, origin) →
      before.nodeHash.map Prod.fst ≠ some hash → origin = .operator) ∧
    (∀ content origin, after.file = some (content, origin) →
      before.file.map Prod.fst ≠ some content → origin = .operator)

/-- The query has found a hash that the task has yet to write. -/
def Discovery.hasAnswer : Discovery Hash → Bool
  | .found _ | .cached _ => true
  | _ => false

def Handler.origin : Handler Hash → Option HashOrigin
  | .waiting => none
  | .read _ origin | .replacing _ origin => some origin

def Handler.installs : Handler Hash → Bool
  | .replacing _ .operator => true
  | _ => false

/-- The query finds a hash only before the handler puts one of the operator
into the shared state, and the handler does so only when the task has no
hash in hand and has not left one in the file. -/
def NodeHashSystem.InOrder (system : NodeHashSystem Hash) :
    NodeHashEvent Hash → Prop
  | .answer (.ok (some _)) =>
      system.discovery = .querying → system.installed = false
  | .replace =>
      system.handler.installs = true →
        system.discovery.hasAnswer = false ∧
          system.file.map Prod.snd ≠ some .discovered
  | _ => True

/-- From the moment at which the handler has put a hash of the operator into
the shared state, no hash of the discovery task is on its way. -/
structure NodeHashSystem.Settled (system : NodeHashSystem Hash) : Prop where
  answer : system.discovery.hasAnswer = false
  file : system.file.map Prod.snd ≠ some .discovered
  handler : system.handler.origin ≠ some .discovered

theorem readCachedHash_origin
    {text : HashText Hash} {file : Option (String × HashOrigin)}
    {hash : Hash} {origin : HashOrigin}
    (hread : readCachedHash text file = some (hash, origin)) :
    file.map Prod.snd = some origin := by
  unfold readCachedHash readCachedHashRaw at hread
  cases file with
  | none => simp at hread
  | some entry =>
      obtain ⟨content, source⟩ := entry
      by_cases hempty : (trimText content).isEmpty = true
      · simp [hempty] at hread
      · cases hparse : text.parse (trimText content) with
        | error message => simp [hempty, hparse] at hread
        | ok found =>
            simp [hempty, hparse] at hread
            simp [hread.2]

theorem writeCachedHash_origin
    {text : HashText Hash} {hash : Hash} {source : HashOrigin}
    {outcome : CacheWrite} {file : Option (String × HashOrigin)}
    {content : String} {origin : HashOrigin}
    (hwrite : writeCachedHash text hash source outcome file =
      some (content, origin)) :
    origin = source ∨ file = some (content, origin) := by
  cases outcome with
  | written =>
      left
      simp only [writeCachedHash, Option.some.injEq, Prod.mk.injEq] at hwrite
      exact hwrite.2.symm
  | truncated kept =>
      left
      simp only [writeCachedHash, Option.some.injEq, Prod.mk.injEq] at hwrite
      exact hwrite.2.symm
  | refused => exact .inr hwrite

theorem NodeHashSystem.keepsOperatorHash_of_same
    {before after : NodeHashSystem Hash}
    (hhash : after.nodeHash = before.nodeHash)
    (hfile : after.file = before.file) :
    before.KeepsOperatorHash after := by
  intro _
  constructor
  · intro hash origin hafter hchanged
    rw [← hhash, hafter] at hchanged
    simp at hchanged
  · intro content origin hafter hchanged
    rw [← hfile, hafter] at hchanged
    simp at hchanged

/-- What a run keeps: after the installation the system is settled. -/
def NodeHashSystem.SettledOnceInstalled (system : NodeHashSystem Hash) :
    Prop :=
  system.installed = true → system.Settled

variable {system : NodeHashSystem Hash} {text : HashText Hash}

theorem NodeHashSystem.SettledOnceInstalled.check
    (hsettled : system.SettledOnceInstalled) :
    system.check.SettledOnceInstalled ∧
      system.KeepsOperatorHash system.check := by
  unfold NodeHashSystem.check
  split
  · constructor
    · intro hinstalled
      have h := hsettled hinstalled
      refine ⟨?_, h.file, h.handler⟩
      simp only
      split_ifs <;> rfl
    · exact keepsOperatorHash_of_same rfl rfl
  · exact ⟨hsettled, keepsOperatorHash_of_same rfl rfl⟩

theorem NodeHashSystem.SettledOnceInstalled.answer
    (hsettled : system.SettledOnceInstalled)
    {result : Except String (Option Hash)}
    (horder : system.InOrder (.answer result)) :
    (system.answer result).SettledOnceInstalled ∧
      system.KeepsOperatorHash (system.answer result) := by
  unfold NodeHashSystem.answer
  split
  · rename_i hash hquerying
    constructor
    · intro hinstalled
      rw [horder hquerying] at hinstalled
      cases hinstalled
    · exact keepsOperatorHash_of_same rfl rfl
  · constructor
    · intro hinstalled
      have h := hsettled hinstalled
      exact ⟨rfl, h.file, h.handler⟩
    · exact keepsOperatorHash_of_same rfl rfl
  · exact ⟨hsettled, keepsOperatorHash_of_same rfl rfl⟩

/-- A task that is about to write has a hash in hand. -/
theorem NodeHashSystem.SettledOnceInstalled.not_installed
    (hsettled : system.SettledOnceInstalled)
    (hanswer : system.discovery.hasAnswer = true) :
    system.installed = false := by
  by_contra hinstalled
  have h := (hsettled (by simpa using hinstalled)).answer
  simp [hanswer] at h

theorem NodeHashSystem.SettledOnceInstalled.cache
    (hsettled : system.SettledOnceInstalled) (outcome : CacheWrite) :
    (system.cache text outcome).SettledOnceInstalled ∧
      system.KeepsOperatorHash (system.cache text outcome) := by
  unfold NodeHashSystem.cache
  split
  · rename_i hash hfound
    have hnot := hsettled.not_installed (by rw [hfound]; rfl)
    constructor <;> intro hinstalled <;> simp [hnot] at hinstalled
  · exact ⟨hsettled, keepsOperatorHash_of_same rfl rfl⟩

theorem NodeHashSystem.SettledOnceInstalled.publish
    (hsettled : system.SettledOnceInstalled) :
    system.publish.SettledOnceInstalled ∧
      system.KeepsOperatorHash system.publish := by
  unfold NodeHashSystem.publish
  split
  · rename_i hash hcached
    have hnot := hsettled.not_installed (by rw [hcached]; rfl)
    constructor <;> intro hinstalled <;> simp [hnot] at hinstalled
  · exact ⟨hsettled, keepsOperatorHash_of_same rfl rfl⟩

theorem NodeHashSystem.SettledOnceInstalled.wake
    (hsettled : system.SettledOnceInstalled) :
    system.wake.SettledOnceInstalled ∧
      system.KeepsOperatorHash system.wake := by
  unfold NodeHashSystem.wake
  split
  · constructor
    · intro hinstalled
      have h := hsettled hinstalled
      exact ⟨rfl, h.file, h.handler⟩
    · exact keepsOperatorHash_of_same rfl rfl
  · exact ⟨hsettled, keepsOperatorHash_of_same rfl rfl⟩

theorem NodeHashSystem.SettledOnceInstalled.signal
    (hsettled : system.SettledOnceInstalled) (readable : Bool) :
    (system.signal text readable).SettledOnceInstalled ∧
      system.KeepsOperatorHash (system.signal text readable) := by
  unfold NodeHashSystem.signal
  split
  · cases hread : readCachedHash text
        (if readable then system.file else none) with
    | none => exact ⟨hsettled, keepsOperatorHash_of_same rfl rfl⟩
    | some entry =>
        obtain ⟨hash, origin⟩ := entry
        have horigin := readCachedHash_origin hread
        constructor
        · intro hinstalled
          have h := hsettled hinstalled
          refine ⟨h.answer, h.file, ?_⟩
          intro hdiscovered
          cases readable with
          | false => simp at horigin
          | true =>
              apply h.file
              rw [← hdiscovered]
              exact horigin
        · exact keepsOperatorHash_of_same rfl rfl
  · exact ⟨hsettled, keepsOperatorHash_of_same rfl rfl⟩

theorem NodeHashSystem.SettledOnceInstalled.compare [DecidableEq Hash]
    (hsettled : system.SettledOnceInstalled) :
    system.compare.SettledOnceInstalled ∧
      system.KeepsOperatorHash system.compare := by
  unfold NodeHashSystem.compare
  split
  · rename_i hash origin hread
    constructor
    · intro hinstalled
      have h := hsettled hinstalled
      refine ⟨h.answer, h.file, ?_⟩
      have hhandler := h.handler
      rw [hread] at hhandler
      simp only
      split_ifs
      · simp [Handler.origin]
      · exact hhandler
    · exact keepsOperatorHash_of_same rfl rfl
  · exact ⟨hsettled, keepsOperatorHash_of_same rfl rfl⟩

theorem NodeHashSystem.SettledOnceInstalled.replace [DecidableEq Hash]
    (hsettled : system.SettledOnceInstalled)
    (horder : system.InOrder .replace) :
    system.replace.SettledOnceInstalled ∧
      system.KeepsOperatorHash system.replace := by
  unfold NodeHashSystem.replace
  split
  · rename_i hash origin hreplacing
    constructor
    · intro hinstalled
      cases origin with
      | operator =>
          have hfree := horder (by rw [hreplacing]; rfl)
          exact ⟨hfree.1, hfree.2, by simp [Handler.origin]⟩
      | discovered =>
          have h := hsettled (by simpa using hinstalled)
          exact ⟨h.answer, h.file, by simp [Handler.origin]⟩
    · intro hinstalled
      constructor
      · intro found source hafter _
        have hhandler := (hsettled hinstalled).handler
        rw [hreplacing] at hhandler
        cases hafter
        cases origin with
        | operator => rfl
        | discovered => exact absurd rfl hhandler
      · intro content source hafter hchanged
        simp only at hafter
        simp [hafter] at hchanged
  · exact ⟨hsettled, keepsOperatorHash_of_same rfl rfl⟩

theorem NodeHashSystem.SettledOnceInstalled.setNodeHash
    (hsettled : system.SettledOnceInstalled) (argument : String)
    (outcome : CacheWrite) :
    (system.setNodeHash text argument outcome).SettledOnceInstalled ∧
      system.KeepsOperatorHash
        (system.setNodeHash text argument outcome) := by
  unfold NodeHashSystem.setNodeHash
  cases text.parse argument with
  | error message => exact ⟨hsettled, keepsOperatorHash_of_same rfl rfl⟩
  | ok hash =>
      constructor
      · intro hinstalled
        have h := hsettled hinstalled
        refine ⟨h.answer, ?_, h.handler⟩
        intro hdiscovered
        obtain ⟨entry, hentry, horigin⟩ :=
          Option.map_eq_some_iff.mp hdiscovered
        rcases writeCachedHash_origin hentry with hnew | hold
        · rw [hnew] at horigin
          cases horigin
        · apply h.file
          rw [hold, Option.map_some, horigin]
      · intro _
        constructor
        · intro found source hafter hchanged
          simp only at hafter
          simp [hafter] at hchanged
        · intro content source hafter hchanged
          rcases writeCachedHash_origin hafter with hnew | hold
          · exact hnew
          · simp [hold] at hchanged

theorem NodeHashSystem.SettledOnceInstalled.step [DecidableEq Hash]
    (hsettled : system.SettledOnceInstalled) {event : NodeHashEvent Hash}
    (horder : system.InOrder event) :
    (system.step text event).SettledOnceInstalled ∧
      system.KeepsOperatorHash (system.step text event) := by
  cases event with
  | check => exact hsettled.check
  | answer result => exact hsettled.answer horder
  | cache outcome => exact hsettled.cache outcome
  | publish => exact hsettled.publish
  | wake => exact hsettled.wake
  | signal readable => exact hsettled.signal readable
  | compare => exact hsettled.compare
  | replace => exact hsettled.replace horder
  | setNodeHash argument outcome => exact hsettled.setNodeHash argument outcome

/-- In every run whose steps are in order, no step after the installation of
an operator's hash changes the shared state or the file to a hash that was
discovered. -/
theorem operator_hash_stays [DecidableEq Hash]
    (text : HashText Hash) (initial : NodeHashSystem Hash)
    (events : List (NodeHashEvent Hash))
    (hinit : initial.installed = false)
    (horder : Along (NodeHashSystem.step · text) NodeHashSystem.InOrder
      initial events) :
    Along (NodeHashSystem.step · text)
      (fun system event =>
        system.KeepsOperatorHash (system.step text event))
      initial events := by
  have hstart : initial.SettledOnceInstalled := by
    intro hinstalled
    simp [hinit] at hinstalled
  apply along_of_invariant _ hstart horder
  intro system event hsettled hevent
  exact hsettled.step hevent

/-! ## Two runs -/

/-- Only the texts of lower-case letters are hashes. -/
def letterHashes : HashText String where
  parse := fun text =>
    if text.toList.all fun char => decide ('a' ≤ char ∧ char ≤ 'z') then
      .ok text
    else .error "invalid node hash"
  display := id

def freshAgent : NodeHashSystem String :=
  ⟨none, none, .checking, .waiting, false⟩

/-- The command, the signal and the steps of the handler. -/
def operatorSets (hash : String) : List (NodeHashEvent String) :=
  [.setNodeHash hash .written, .signal true, .compare, .replace]

/-- The operator replaces a hash that the task has left. -/
theorem operator_hash_stays_after_discovery :
    (run (NodeHashSystem.step · letterHashes) freshAgent
        ([.check, .answer (.ok (some "aa")), .cache .written, .publish] ++
          operatorSets "bb")).installed = true ∧
      Along (NodeHashSystem.step · letterHashes)
        (fun system event =>
          system.KeepsOperatorHash (system.step letterHashes event))
        freshAgent
        ([.check, .answer (.ok (some "aa")), .cache .written, .publish] ++
          operatorSets "bb") := by
  constructor
  · decide
  · apply operator_hash_stays letterHashes freshAgent _ rfl
    simp only [operatorSets, List.cons_append, List.nil_append, Along]
    refine ⟨trivial, fun _ => rfl, trivial, trivial, trivial, trivial,
      trivial, ?_, trivial⟩
    intro _
    decide

/-- The query is on its way when the operator sets a hash; its answer
replaces this hash in the file and in the shared state. -/
theorem operator_hash_overwritten :
    (run (NodeHashSystem.step · letterHashes) freshAgent
        (.check :: operatorSets "bb")).nodeHash = some ("bb", .operator) ∧
      (run (NodeHashSystem.step · letterHashes) freshAgent
        (.check :: operatorSets "bb" ++ [.answer (.ok (some "aa")),
          .cache .written, .publish])).nodeHash =
            some ("aa", .discovered) ∧
      (run (NodeHashSystem.step · letterHashes) freshAgent
        (.check :: operatorSets "bb" ++ [.answer (.ok (some "aa")),
          .cache .written, .publish])).file = some ("aa", .discovered) ∧
      ¬ Along (NodeHashSystem.step · letterHashes)
        (fun system event =>
          system.KeepsOperatorHash (system.step letterHashes event))
        freshAgent
        (.check :: operatorSets "bb" ++ [.answer (.ok (some "aa")),
          .cache .written, .publish]) := by
  refine ⟨by decide, by decide, by decide, ?_⟩
  intro halong
  have hcache := (along_append.mp halong).2.2.1
  have horigin := (hcache (by decide)).2 "aa" .discovered (by decide)
    (by decide)
  cases horigin

end AlephCvm.Agent
