import AlephCvm.GuestInit
import AlephCvm.NamedFiles
import AlephCvm.SecretHandover
import AlephCvm.StepRuns

/-!
# From an injected passphrase to the root file system

Model of the encrypted boot in `nix/init.sh` next to the handler in
`aleph-attest-agent/src/secrets.rs`.  The script waits until there is a file
with the passphrase, feeds it to `cryptsetup`, overwrites it with zeros and
removes it; the agent opens this file and writes to it in as many pieces as
it takes.  Neither waits for the other, and a step of one may come between
any two steps of the other.
-/

namespace AlephCvm.GuestInit

open NamedFiles StepRuns AlephCvm.Secrets AlephCvm.Tee

/-- The file in the agent's directory that the script waits for. -/
def passphraseFile : String := "luks_passphrase"

/-! ## The two parties -/

/-- A secret that is being written. -/
structure OpenSecret where
  file : ℕ
  offset : ℕ
  left : Bytes
  deriving DecidableEq

/-- The request that holds the agent's lock. -/
structure SecretRequest where
  current : Option OpenSecret
  rest : List (String × String)

/-- How far the script is. -/
inductive UnlockStage where
  | polling
  | found
  | reading (file : ℕ) (input : Bytes)
  | read (input : Bytes)
  | unlocked (opened : Bool)
  | measured (opened : Bool) (size : ℕ)
  | wiping (opened : Bool) (file size done : ℕ)
  | wiped (opened : Bool)
  | removed (opened : Bool)
  | started
  | off
  deriving DecidableEq

/-- The guest's disk, and what it takes to unlock it.  What `cryptsetup` is
given decides; of several lines it takes the first as the passphrase. -/
structure LuksGuest where
  blkdev : String
  opens : Bytes → Bool
  mounts : Bool
  rootfsHasInit : Bool

structure Handover where
  store : FileStore String UInt8
  injected : Bool
  request : Option SecretRequest
  answered : Bool
  stage : UnlockStage
  commands : List Command

def Handover.fresh : Handover where
  store := .empty
  injected := false
  request := none
  answered := false
  stage := .polling
  commands := [.startAgent]

/-! ## Steps of the agent -/

inductive AgentStep where
  | post (arrival : Arrival)
  | openSecret (ok : Bool)
  | writeSecret (count : ℕ)
  | closeSecret
  | failWrite
  | finish

/-- A request that does not hold the lock has to wait. -/
def Handover.agentStep (state : Handover) : AgentStep → Handover
  | .post arrival =>
      if state.request.isNone && !state.injected &&
          (bodyError arrival.secrets).isNone && arrival.dirCreated then
        { state with request := some ⟨none, arrival.secrets⟩ }
      else state
  | .openSecret ok =>
      match state.request with
      | some ⟨none, (key, value) :: rest⟩ =>
          if ok then
            let (file, store) := state.store.create key
            { state with
              store := store
              request := some ⟨some ⟨file, 0, secretBytes value⟩, rest⟩ }
          else { state with injected := true, request := none }
      | _ => state
  | .writeSecret count =>
      match state.request with
      | some ⟨some ⟨file, offset, left⟩, rest⟩ =>
          let piece := left.take (count + 1)
          { state with
            store := state.store.writeAt file offset piece
            request := some ⟨some ⟨file, offset + piece.length,
              left.drop (count + 1)⟩, rest⟩ }
      | _ => state
  | .closeSecret =>
      match state.request with
      | some ⟨some ⟨_, _, []⟩, rest⟩ =>
          { state with request := some ⟨none, rest⟩ }
      | _ => state
  | .failWrite =>
      match state.request with
      | some ⟨some _, _⟩ => { state with injected := true, request := none }
      | _ => state
  | .finish =>
      match state.request with
      | some ⟨none, []⟩ =>
          { state with injected := true, request := none, answered := true }
      | _ => state

/-! ## Steps of the script -/

inductive InitStep where
  | poll
  | timeout
  | openPassphrase
  | readPassphrase (count : ℕ)
  | luksOpen
  | measure
  | openWipe
  | wipe
  | remove
  | proceed

def LuksGuest.opening (guest : LuksGuest) : Command :=
  .luksOpen guest.blkdev "cryptroot"

def mountingCryptroot : Command :=
  .mount (mapperDevice "cryptroot") "/mnt/root" false

def LuksGuest.entering (guest : LuksGuest) : List Command :=
  prepareChroot ++ if guest.rootfsHasInit then [.startRootfs] else []

/-- The loop looks for the file, and once more when its time is over.
Without the file the shell cannot start a command that reads it, and `dd`
has nothing to overwrite.  The passphrase counts as read at the end of the
file, also when `cryptsetup` has stopped at the end of a line. -/
def Handover.initStep (guest : LuksGuest) (state : Handover) :
    InitStep → Handover
  | .poll =>
      match state.stage with
      | .polling =>
          if (state.store.names passphraseFile).isSome then
            { state with stage := .found }
          else state
      | _ => state
  | .timeout =>
      match state.stage with
      | .polling =>
          if (state.store.names passphraseFile).isSome then
            { state with stage := .found }
          else
            { state with
              stage := .off
              commands := state.commands ++ [.powerOff] }
      | _ => state
  | .openPassphrase =>
      match state.stage with
      | .found =>
          match state.store.names passphraseFile with
          | some file => { state with stage := .reading file [] }
          | none => { state with stage := .unlocked false }
      | _ => state
  | .readPassphrase count =>
      match state.stage with
      | .reading file input =>
          match (state.store.contents file).drop input.length with
          | [] => { state with stage := .read input }
          | more => { state with
              stage := .reading file (input ++ more.take (count + 1)) }
      | _ => state
  | .luksOpen =>
      match state.stage with
      | .read input =>
          { state with
            stage := .unlocked (guest.opens input)
            commands := state.commands ++ [guest.opening] }
      | _ => state
  | .measure =>
      match state.stage with
      | .unlocked opened =>
          match state.store.find passphraseFile with
          | some (_, bytes) =>
              { state with stage := .measured opened bytes.length }
          | none => { state with stage := .wiped opened }
      | _ => state
  | .openWipe =>
      match state.stage with
      | .measured opened size =>
          match state.store.names passphraseFile with
          | some file => { state with stage := .wiping opened file size 0 }
          | none => { state with stage := .wiped opened }
      | _ => state
  | .wipe =>
      match state.stage with
      | .wiping opened file size done =>
          if done < size then
            { state with
              store := state.store.writeAt file done [0]
              stage := .wiping opened file size (done + 1) }
          else { state with stage := .wiped opened }
      | _ => state
  | .remove =>
      match state.stage with
      | .wiped opened =>
          { state with
            store := state.store.remove passphraseFile
            stage := .removed opened }
      | _ => state
  | .proceed =>
      match state.stage with
      | .removed true =>
          if guest.mounts then
            { state with
              stage := .started
              commands := state.commands ++
                mountingCryptroot :: guest.entering }
          else
            { state with
              stage := .off
              commands := state.commands ++ [mountingCryptroot, .powerOff] }
      | .removed false =>
          { state with
            stage := .off
            commands := state.commands ++ [.powerOff] }
      | _ => state

/-! ## Both together -/

inductive HandoverEvent where
  | agent (step : AgentStep)
  | init (step : InitStep)

/-- Nothing happens after the machine has been switched off. -/
def Handover.step (guest : LuksGuest) (state : Handover) :
    HandoverEvent → Handover
  | .agent step => if state.stage = .off then state else state.agentStep step
  | .init step => state.initStep guest step

/-! ## What the file holds -/

/-- The request is writing the file. -/
def Handover.Writes (state : Handover) (file : ℕ) (secret : OpenSecret) :
    Prop :=
  ∃ rest, state.request = some ⟨some secret, rest⟩ ∧ secret.file = file

/-- The file holds the front of the value.  While it is being written the
rest is still to come, and a request that has not failed leaves it when there
is nothing to come. -/
structure Handover.Fills (state : Handover) (file : ℕ) (written : Bytes)
    (value : String) : Prop where
  front : written <+: secretBytes value
  coming : ∀ secret, state.Writes file secret →
    secretBytes value = written ++ secret.left ∧
      secret.offset = written.length
  whole : (∀ secret, ¬ state.Writes file secret) →
    state.request.isSome ∨ state.answered = true →
      written = secretBytes value

/-- The guest of the boot script's own model, for which the wait for the
passphrase and the command that opens the volume end like this. -/
def LuksGuest.guest (guest : LuksGuest) (injected opened : Bool) : Guest where
  cmdline := ""
  blockDevices := [guest.blkdev]
  passphraseInjected := injected
  rootfsHasInit := guest.rootfsHasInit
  succeeds := fun command =>
    if command = guest.opening then opened else guest.mounts

/-- The commands that have been run at a stage. -/
def LuksGuest.Ran (guest : LuksGuest) (commands : List Command) :
    UnlockStage → Prop
  | .polling => commands = [.startAgent]
  | .found => commands = [.startAgent]
  | .reading _ _ => commands = [.startAgent]
  | .read _ => commands = [.startAgent]
  | .started => guest.mounts = true ∧
      commands = (guest.guest true true).luksBoot guest.blkdev
  | .off => ∃ injected opened,
      commands = (guest.guest injected opened).luksBoot guest.blkdev
  | _ => commands = [.startAgent, guest.opening]

/-- Before there is a passphrase. -/
structure Handover.Unopened (guest : LuksGuest)
    (posted : String → String → Prop) (state : Handover) : Prop where
  unnamed : state.store.names passphraseFile = none
  stage : state.stage = .polling ∨ state.stage = .off
  fresh : state.injected = false → state.answered = false
  awaited : state.request.isSome → state.answered = false
  request : ∀ request, state.request = some request →
    (request.rest.map Prod.fst).Nodup ∧
      ∀ secret ∈ request.rest, posted secret.1 secret.2
  ran : guest.Ran state.commands state.stage

def Handover.Holds (state : Handover) (value : String) (file : ℕ)
    (written : Bytes) : Prop :=
  state.store.find passphraseFile = some (file, written) ∧
    state.Fills file written value

/-- A volume is open because of some front of the value. -/
def LuksGuest.Unlocks (guest : LuksGuest) (value : String) (opened : Bool) :
    Prop :=
  opened = true →
    ∃ input, input <+: secretBytes value ∧ guest.opens input = true

/-- What is known of the file, of what has been read from it and of the
volume when the script is at a stage. -/
def Handover.Placed (state : Handover) (guest : LuksGuest)
    (value : String) : UnlockStage → Prop
  | .polling => ∃ file written, state.Holds value file written
  | .found => ∃ file written, state.Holds value file written
  | .reading file input =>
      ∃ written, state.Holds value file written ∧ input <+: written
  | .read input => input <+: secretBytes value ∧
      ∃ file written, state.Holds value file written
  | .unlocked opened => guest.Unlocks value opened ∧
      ∃ file written, state.Holds value file written
  | .measured opened _ => guest.Unlocks value opened ∧
      ∃ file written, state.Holds value file written
  | .wiping opened _ _ _ => guest.Unlocks value opened
  | .wiped opened => guest.Unlocks value opened
  | .removed opened => guest.Unlocks value opened ∧
      state.store.names passphraseFile = none
  | .started => guest.Unlocks value true ∧
      state.store.names passphraseFile = none
  | .off => state.store.names passphraseFile = none

/-- Once the agent has opened the file for this value. -/
structure Handover.Given (guest : LuksGuest) (value : String)
    (state : Handover) : Prop where
  closed : state.request = none → state.injected = true
  spent : ∀ request, state.request = some request →
    passphraseFile ∉ request.rest.map Prod.fst
  awaited : state.request.isSome → state.answered = false
  placed : state.Placed guest value state.stage
  ran : guest.Ran state.commands state.stage

/-! ## The agent's steps -/

variable {guest : LuksGuest} {posted : String → String → Prop}
  {value : String} {state after : Handover}

/-- What a change that adds to the file at most leaves of what is known. -/
theorem Handover.Placed.extend
    {stage : UnlockStage} (hplaced : state.Placed guest value stage)
    (hnames : after.store.names passphraseFile =
      state.store.names passphraseFile)
    (hfile : ∀ file written, state.Holds value file written →
      ∃ piece, after.Holds value file (written ++ piece)) :
    after.Placed guest value stage := by
  have hheld : (∃ file written, state.Holds value file written) →
      ∃ file written, after.Holds value file written := by
    rintro ⟨file, written, hholds⟩
    obtain ⟨piece, hmore⟩ := hfile file written hholds
    exact ⟨file, written ++ piece, hmore⟩
  cases stage with
  | polling => exact hheld hplaced
  | found => exact hheld hplaced
  | reading file input =>
      obtain ⟨written, hholds, hinput⟩ := hplaced
      obtain ⟨piece, hmore⟩ := hfile file written hholds
      exact ⟨written ++ piece, hmore,
        hinput.trans (List.prefix_append written piece)⟩
  | read input => exact ⟨hplaced.1, hheld hplaced.2⟩
  | unlocked opened => exact ⟨hplaced.1, hheld hplaced.2⟩
  | measured opened size => exact ⟨hplaced.1, hheld hplaced.2⟩
  | wiping opened file size done => exact hplaced
  | wiped opened => exact hplaced
  | removed opened => exact ⟨hplaced.1, hnames.trans hplaced.2⟩
  | started => exact ⟨hplaced.1, hnames.trans hplaced.2⟩
  | off => exact hnames.trans hplaced

theorem Handover.Given.extend
    (hgiven : state.Given guest value) (hstage : after.stage = state.stage)
    (hcommands : after.commands = state.commands)
    (hclosed : after.request = none → after.injected = true)
    (hspent : ∀ request, after.request = some request →
      passphraseFile ∉ request.rest.map Prod.fst)
    (hawaited : after.request.isSome → after.answered = false)
    (hnames : after.store.names passphraseFile =
      state.store.names passphraseFile)
    (hfile : ∀ file written, state.Holds value file written →
      ∃ piece, after.Holds value file (written ++ piece)) :
    after.Given guest value where
  closed := hclosed
  spent := hspent
  awaited := hawaited
  placed := by
    rw [hstage]
    exact hgiven.placed.extend hnames hfile
  ran := by
    rw [hstage, hcommands]
    exact hgiven.ran

/-- The request has no file open at the end; when it had this one open, it
has written all of it or has failed. -/
theorem Handover.Given.putDown
    (hgiven : state.Given guest value) {request : Option SecretRequest}
    {injected answered : Bool}
    (hclosed : request = none → injected = true)
    (hspent : ∀ left, request = some left →
      passphraseFile ∉ left.rest.map Prod.fst)
    (hawaited : request.isSome → answered = false)
    (hidle : ∀ left, request = some left → left.current = none)
    (hwhole : request.isSome ∨ answered = true →
      state.request.isSome ∧
        ∀ file secret, state.Writes file secret → secret.left = []) :
    Handover.Given guest value { state with
      injected := injected
      request := request
      answered := answered } := by
  have hnot : ∀ file secret, ¬ Handover.Writes { state with
      injected := injected
      request := request
      answered := answered } file secret := by
    rintro file secret ⟨rest, hsome, -⟩
    cases hidle _ hsome
  apply hgiven.extend
  · rfl
  · rfl
  · exact hclosed
  · exact hspent
  · exact hawaited
  · rfl
  · intro file written ⟨hfind, hfills⟩
    refine ⟨[], by rw [List.append_nil]; exact hfind, ?_⟩
    rw [List.append_nil]
    refine ⟨hfills.front,
      fun secret hwrites => (hnot file secret hwrites).elim, ?_⟩
    intro _ hdone
    obtain ⟨hopen, hleft⟩ := hwhole hdone
    by_cases hwrites : ∃ secret, state.Writes file secret
    · obtain ⟨secret, hsecret⟩ := hwrites
      have hcoming := (hfills.coming secret hsecret).1
      rw [hleft file secret hsecret, List.append_nil] at hcoming
      exact hcoming.symm
    · exact hfills.whole (not_exists.mp hwrites) (Or.inl hopen)

theorem Handover.Given.fail
    (hgiven : state.Given guest value)
    (hrequest : state.request.isSome) :
    Handover.Given guest value { state with
      injected := true
      request := none } := by
  apply hgiven.putDown
  · intro hnone
    rfl
  · intro left hnone
    cases hnone
  · intro hnone
    cases hnone
  · intro left hnone
    cases hnone
  · intro hanswered
    simp [hgiven.awaited hrequest] at hanswered

theorem Handover.Given.openSecret
    (hgiven : state.Given guest value) {key text : String}
    {rest : List (String × String)}
    (hrequest : state.request = some ⟨none, (key, text) :: rest⟩) :
    Handover.Given guest value { state with
      store := (state.store.create key).2
      request := some ⟨some ⟨(state.store.create key).1, 0,
        secretBytes text⟩, rest⟩ } := by
  have hspent := hgiven.spent _ hrequest
  rw [List.map_cons, List.mem_cons, not_or] at hspent
  have hidle : ∀ file secret, ¬ state.Writes file secret := by
    rintro file secret ⟨left, hsome, -⟩
    rw [hrequest] at hsome
    cases hsome
  have hopen : state.request.isSome := by
    rw [hrequest]
    rfl
  have hother : (state.store.create key).2.find passphraseFile =
      state.store.find passphraseFile :=
    FileStore.find_create_of_ne hspent.1
  have hfound : (state.store.create key).2.find key =
      some ((state.store.create key).1, []) :=
    FileStore.find_create_self key
  have hcreated := (FileStore.find_eq_some.mp hfound).1
  apply hgiven.extend
  · rfl
  · rfl
  · intro hnone
    cases hnone
  · intro request hsome
    cases hsome
    exact hspent.2
  · intro _
    exact hgiven.awaited hopen
  · exact FileStore.names_of_find hother
  · intro file written ⟨hfind, hfills⟩
    refine ⟨[], by rw [List.append_nil, hother, hfind], ?_⟩
    rw [List.append_nil]
    refine ⟨hfills.front, ?_, ?_⟩
    · rintro secret ⟨rest, hsome, hfile⟩
      cases hsome
      dsimp only at hfile
      rw [← hother] at hfind
      have hnamed := (FileStore.find_eq_some.mp hfind).1
      rw [← hfile] at hnamed
      exact (hspent.1 ((state.store.create key).2.single _ _ _ hnamed
        hcreated)).elim
    · intro _ _
      exact hfills.whole (hidle file) (Or.inl hopen)

theorem Handover.Given.writeSecret
    (hgiven : state.Given guest value) {secret : OpenSecret}
    {rest : List (String × String)}
    (hrequest : state.request = some ⟨some secret, rest⟩) (count : ℕ) :
    Handover.Given guest value { state with
      store := state.store.writeAt secret.file secret.offset
        (secret.left.take (count + 1))
      request := some ⟨some ⟨secret.file,
        secret.offset + (secret.left.take (count + 1)).length,
        secret.left.drop (count + 1)⟩, rest⟩ } := by
  have hspent := hgiven.spent _ hrequest
  have hopen : state.request.isSome := by
    rw [hrequest]
    rfl
  apply hgiven.extend
  · rfl
  · rfl
  · intro hnone
    cases hnone
  · intro request hsome
    cases hsome
    exact hspent
  · intro _
    exact hgiven.awaited hopen
  · rfl
  · intro file written ⟨hfind, hfills⟩
    by_cases hsame : secret.file = file
    · obtain ⟨hleft, hoffset⟩ :=
        hfills.coming secret ⟨rest, hrequest, hsame⟩
      have hparts : secret.left.take (count + 1) ++
          secret.left.drop (count + 1) = secret.left :=
        List.take_append_drop (count + 1) secret.left
      refine ⟨secret.left.take (count + 1), ?_, ?_, ?_, ?_⟩
      · rw [← hsame] at hfind ⊢
        rw [FileStore.find_writeAt_self hfind, hoffset, List.take_length,
          List.drop_eq_nil_of_le (by omega), List.append_nil]
      · refine ⟨secret.left.drop (count + 1), ?_⟩
        rw [List.append_assoc, hparts, hleft]
      · rintro other ⟨_, hsome, -⟩
        cases hsome
        constructor
        · rw [List.append_assoc, hparts, hleft]
        · rw [List.length_append, hoffset]
      · intro hidle _
        exact (hidle _ ⟨rest, rfl, hsame⟩).elim
    · have hnamed : state.store.names passphraseFile ≠ some secret.file := by
        rw [(FileStore.find_eq_some.mp hfind).1]
        intro hfile
        exact hsame (Option.some.inj hfile).symm
      refine ⟨[], ?_, ?_⟩
      · rw [List.append_nil, FileStore.find_writeAt_of_ne hnamed, hfind]
      · rw [List.append_nil]
        refine ⟨hfills.front, ?_, ?_⟩
        · rintro other ⟨_, hsome, hfile⟩
          cases hsome
          exact (hsame hfile).elim
        · intro _ _
          apply hfills.whole _ (Or.inl hopen)
          rintro other ⟨_, hsome, hfile⟩
          rw [hrequest] at hsome
          cases hsome
          exact hsame hfile

theorem Handover.Given.agentStep
    (hgiven : state.Given guest value) (step : AgentStep) :
    (state.agentStep step).Given guest value := by
  cases step with
  | post arrival =>
      have hrefused : state.agentStep (.post arrival) = state := by
        cases hrequest : state.request with
        | some request => simp [Handover.agentStep, hrequest]
        | none =>
            have hinjected := hgiven.closed hrequest
            simp [Handover.agentStep, hinjected]
      rw [hrefused]
      exact hgiven
  | openSecret ok =>
      simp only [Handover.agentStep]
      split
      · rename_i key text rest hrequest
        cases ok with
        | true => exact hgiven.openSecret hrequest
        | false => exact hgiven.fail (by simp [hrequest])
      · exact hgiven
  | writeSecret count =>
      simp only [Handover.agentStep]
      split
      · rename_i file offset left rest hrequest
        exact hgiven.writeSecret hrequest count
      · exact hgiven
  | closeSecret =>
      simp only [Handover.agentStep]
      split
      · rename_i file offset rest hrequest
        have hspent := hgiven.spent _ hrequest
        apply hgiven.putDown
        · intro hnone
          cases hnone
        · intro left hsome
          cases hsome
          exact hspent
        · intro _
          exact hgiven.awaited (by simp [hrequest])
        · intro left hsome
          cases hsome
          rfl
        · intro _
          refine ⟨by simp [hrequest], ?_⟩
          rintro other secret ⟨_, hsome, -⟩
          rw [hrequest] at hsome
          cases hsome
          rfl
      · exact hgiven
  | failWrite =>
      simp only [Handover.agentStep]
      split
      · rename_i hrequest
        exact hgiven.fail (by simp [hrequest])
      · exact hgiven
  | finish =>
      simp only [Handover.agentStep]
      split
      · rename_i hrequest
        apply hgiven.putDown
        · intro hnone
          rfl
        · intro left hnone
          cases hnone
        · intro hnone
          cases hnone
        · intro left hnone
          cases hnone
        · intro _
          refine ⟨by simp [hrequest], ?_⟩
          rintro other secret ⟨_, hsome, -⟩
          rw [hrequest] at hsome
          cases hsome
      · exact hgiven

/-! ## The script's steps -/

/-- The script goes on and leaves the files to the agent. -/
theorem Handover.Given.advance
    (hgiven : state.Given guest value) {stage : UnlockStage}
    {commands : List Command} (hplaced : state.Placed guest value stage)
    (hran : guest.Ran commands stage) :
    Handover.Given guest value
      { state with stage := stage, commands := commands } where
  closed := hgiven.closed
  spent := hgiven.spent
  awaited := hgiven.awaited
  placed := by
    apply hplaced.extend
    · rfl
    · intro file written ⟨hfind, hfills⟩
      refine ⟨[], ?_⟩
      rw [List.append_nil]
      exact ⟨hfind, hfills.front, hfills.coming, hfills.whole⟩
  ran := hran

theorem LuksGuest.luksBoot_guest (injected opened : Bool) :
    (guest.guest injected opened).luksBoot guest.blkdev =
      .startAgent ::
        if !injected then [.powerOff]
        else if !opened then [guest.opening, .powerOff]
        else if !guest.mounts then
          [guest.opening, mountingCryptroot, .powerOff]
        else [guest.opening, mountingCryptroot] ++ guest.entering := by
  have hopening : Command.luksOpen guest.blkdev "cryptroot" =
      guest.opening := rfl
  have hmounting : Command.mount (mapperDevice "cryptroot") "/mnt/root"
      false = mountingCryptroot := rfl
  have hopened : (guest.guest injected opened).succeeds guest.opening =
      opened := by
    simp [LuksGuest.guest]
  have hmounted : (guest.guest injected opened).succeeds
      mountingCryptroot = guest.mounts := by
    have hother : mountingCryptroot ≠ guest.opening := by
      simp [mountingCryptroot, LuksGuest.opening]
    simp [LuksGuest.guest, hother]
  simp only [Guest.luksBoot, hopening, hmounting, hopened, hmounted]
  rfl

theorem Handover.Given.initStep
    (hgiven : state.Given guest value) (step : InitStep) :
    (state.initStep guest step).Given guest value := by
  have hplaced := hgiven.placed
  have hran := hgiven.ran
  cases step with
  | poll =>
      simp only [Handover.initStep]
      split
      · rename_i hstage
        rw [hstage] at hplaced hran
        split_ifs
        · exact hgiven.advance hplaced hran
        · exact hgiven
      · exact hgiven
  | timeout =>
      simp only [Handover.initStep]
      split
      · rename_i hstage
        rw [hstage] at hplaced hran
        have hheld := hplaced
        obtain ⟨file, written, hfind, -⟩ := hheld
        have hnamed := (FileStore.find_eq_some.mp hfind).1
        rw [if_pos (by rw [hnamed]; rfl)]
        exact hgiven.advance hplaced hran
      · exact hgiven
  | openPassphrase =>
      simp only [Handover.initStep]
      split
      · rename_i hstage
        rw [hstage] at hplaced hran
        obtain ⟨file, written, hholds⟩ := hplaced
        have hnamed := (FileStore.find_eq_some.mp hholds.1).1
        simp only [hnamed]
        exact hgiven.advance ⟨written, hholds, List.nil_prefix⟩ hran
      · exact hgiven
  | readPassphrase count =>
      simp only [Handover.initStep]
      split
      · rename_i file input hstage
        rw [hstage] at hplaced hran
        obtain ⟨written, hholds, behind, hwritten⟩ := hplaced
        have hmore : (state.store.contents file).drop input.length =
            behind := by
          rw [(FileStore.find_eq_some.mp hholds.1).2, ← hwritten,
            List.drop_left]
        have hinput : input <+: secretBytes value :=
          (hwritten ▸ List.prefix_append input behind).trans
            hholds.2.front
        simp only [hmore]
        cases behind with
        | nil => exact hgiven.advance ⟨hinput, file, written, hholds⟩ hran
        | cons byte more =>
            have hread : input ++ (byte :: more).take (count + 1) <+:
                written := by
              rw [← hwritten]
              exact (List.prefix_append_right_inj input).mpr
                (List.take_prefix _ _)
            exact hgiven.advance ⟨written, hholds, hread⟩ hran
      · exact hgiven
  | luksOpen =>
      simp only [Handover.initStep]
      split
      · rename_i input hstage
        rw [hstage] at hplaced hran
        have hstarted : state.commands = [.startAgent] := hran
        have hopens : guest.Unlocks value (guest.opens input) :=
          fun hopened => ⟨input, hplaced.1, hopened⟩
        apply hgiven.advance
        · exact ⟨hopens, hplaced.2⟩
        · rw [hstarted]
          rfl
      · exact hgiven
  | measure =>
      simp only [Handover.initStep]
      split
      · rename_i opened hstage
        rw [hstage] at hplaced hran
        obtain ⟨hopened, file, written, hholds⟩ := hplaced
        simp only [hholds.1]
        exact hgiven.advance ⟨hopened, file, written, hholds⟩ hran
      · exact hgiven
  | openWipe =>
      simp only [Handover.initStep]
      split
      · rename_i opened size hstage
        rw [hstage] at hplaced hran
        obtain ⟨hopened, file, written, hholds⟩ := hplaced
        have hnamed := (FileStore.find_eq_some.mp hholds.1).1
        simp only [hnamed]
        exact hgiven.advance hopened hran
      · exact hgiven
  | wipe =>
      simp only [Handover.initStep]
      split
      · rename_i opened file size done hstage
        rw [hstage] at hplaced hran
        split_ifs
        · exact ⟨hgiven.closed, hgiven.spent, hgiven.awaited, hplaced,
            hran⟩
        · exact hgiven.advance hplaced hran
      · exact hgiven
  | remove =>
      simp only [Handover.initStep]
      split
      · rename_i opened hstage
        rw [hstage] at hplaced hran
        have hremoved :
            (state.store.remove passphraseFile).names passphraseFile =
              none := by
          simp [FileStore.remove]
        exact ⟨hgiven.closed, hgiven.spent, hgiven.awaited,
          ⟨hplaced, hremoved⟩, hran⟩
      · exact hgiven
  | proceed =>
      simp only [Handover.initStep]
      split
      · rename_i hstage
        rw [hstage] at hplaced hran
        have hopened : state.commands = [.startAgent, guest.opening] := hran
        split_ifs with hmounts
        · apply hgiven.advance
          · exact hplaced
          · refine ⟨hmounts, ?_⟩
            simp [LuksGuest.luksBoot_guest, hopened, hmounts]
        · apply hgiven.advance
          · exact hplaced.2
          · refine ⟨true, true, ?_⟩
            simp [LuksGuest.luksBoot_guest, hopened, hmounts]
      · rename_i hstage
        rw [hstage] at hplaced hran
        have hlocked : state.commands = [.startAgent, guest.opening] := hran
        apply hgiven.advance
        · exact hplaced.2
        · refine ⟨true, false, ?_⟩
          simp [LuksGuest.luksBoot_guest, hlocked]
      · exact hgiven

/-! ## From the first step on -/

theorem Handover.unopened_fresh (guest : LuksGuest)
    (posted : String → String → Prop) :
    Handover.fresh.Unopened guest posted where
  unnamed := rfl
  stage := Or.inl rfl
  fresh := fun _ => rfl
  awaited := by
    intro hsome
    cases hsome
  request := by
    intro request hsome
    cases hsome
  ran := rfl

theorem Handover.Unopened.opened
    (hunopened : state.Unopened guest posted)
    (hpolling : state.stage = .polling) {key text : String}
    {rest : List (String × String)}
    (hrequest : state.request = some ⟨none, (key, text) :: rest⟩) :
    Handover.Unopened guest posted { state with
        store := (state.store.create key).2
        request := some ⟨some ⟨(state.store.create key).1, 0,
          secretBytes text⟩, rest⟩ } ∨
      posted passphraseFile text ∧ Handover.Given guest text { state with
        store := (state.store.create key).2
        request := some ⟨some ⟨(state.store.create key).1, 0,
          secretBytes text⟩, rest⟩ } := by
  obtain ⟨hnodup, hposted⟩ := hunopened.request _ hrequest
  rw [List.map_cons, List.nodup_cons] at hnodup
  rw [List.forall_mem_cons] at hposted
  have hawaited : state.answered = false :=
    hunopened.awaited (by simp [hrequest])
  by_cases hkey : passphraseFile = key
  · right
    rw [← hkey] at hnodup hposted ⊢
    refine ⟨hposted.1, ?_⟩
    constructor
    · intro hnone
      cases hnone
    · intro request hsome
      cases hsome
      exact hnodup.1
    · intro _
      exact hawaited
    · dsimp only
      rw [hpolling]
      refine ⟨_, [], FileStore.find_create_self passphraseFile,
        List.nil_prefix, ?_, ?_⟩
      · rintro secret ⟨_, hsome, -⟩
        cases hsome
        exact ⟨rfl, rfl⟩
      · intro hidle _
        exact (hidle _ ⟨rest, rfl, rfl⟩).elim
    · exact hunopened.ran
  · left
    have hother : (state.store.create key).2.names passphraseFile =
        state.store.names passphraseFile :=
      FileStore.names_of_find (FileStore.find_create_of_ne hkey)
    exact
      { unnamed := hother.trans hunopened.unnamed
        stage := hunopened.stage
        fresh := hunopened.fresh
        awaited := fun _ => hawaited
        request := by
          intro request hsome
          cases hsome
          exact ⟨hnodup.2, hposted.2⟩
        ran := hunopened.ran }

/-- The request moves on and opens no file. -/
theorem Handover.Unopened.continue
    (hunopened : state.Unopened guest posted)
    {store : FileStore String UInt8} {request : Option SecretRequest}
    {injected answered : Bool}
    (hunnamed : store.names passphraseFile = none)
    (hfresh : injected = false → answered = false)
    (hawaited : request.isSome → answered = false)
    (hrequest : ∀ left, request = some left →
      (left.rest.map Prod.fst).Nodup ∧
        ∀ secret ∈ left.rest, posted secret.1 secret.2) :
    Handover.Unopened guest posted { state with
      store := store
      injected := injected
      request := request
      answered := answered } where
  unnamed := hunnamed
  stage := hunopened.stage
  fresh := hfresh
  awaited := hawaited
  request := hrequest
  ran := hunopened.ran

/-- The file has been opened for one of the posted values, or there is no
file yet. -/
def Handover.Known (guest : LuksGuest) (posted : String → String → Prop)
    (state : Handover) : Prop :=
  state.Unopened guest posted ∨
    ∃ value, posted passphraseFile value ∧ state.Given guest value

theorem nodup_arrival_keys (arrival : Arrival) :
    (arrival.secrets.map Prod.fst).Nodup := by
  have hkeys : arrival.secrets.map Prod.fst =
      (arrival.order.arrange arrival.body.secrets.entries).map
        Sigma.fst := by
    rw [Arrival.secrets, List.map_map]
    rfl
  rw [hkeys]
  exact nodup_arranged_keys arrival.order arrival.body.secrets

theorem Handover.Unopened.agentStep
    (hunopened : state.Unopened guest posted)
    (hpolling : state.stage = .polling) (step : AgentStep)
    (hposted : ∀ arrival, step = .post arrival →
      bodyError arrival.secrets = none →
        ∀ secret ∈ arrival.secrets, posted secret.1 secret.2) :
    (state.agentStep step).Known guest posted := by
  cases step with
  | post arrival =>
      left
      simp only [Handover.agentStep]
      split_ifs with haccepted
      · simp only [Bool.and_eq_true, Bool.not_eq_true',
          Option.isNone_iff_eq_none] at haccepted
        obtain ⟨⟨⟨_, hinjected⟩, hbody⟩, _⟩ := haccepted
        apply hunopened.continue hunopened.unnamed hunopened.fresh
        · intro _
          exact hunopened.fresh hinjected
        · intro left hsome
          cases hsome
          exact ⟨nodup_arrival_keys arrival, hposted arrival rfl hbody⟩
      · exact hunopened
  | openSecret ok =>
      simp only [Handover.agentStep]
      split
      · rename_i key text rest hrequest
        cases ok with
        | true =>
            rcases hunopened.opened hpolling hrequest with hstill | hopened
            · exact Or.inl hstill
            · exact Or.inr ⟨text, hopened⟩
        | false =>
            left
            apply hunopened.continue hunopened.unnamed
            · intro hinjected
              cases hinjected
            · intro hsome
              cases hsome
            · intro left hsome
              cases hsome
      · exact Or.inl hunopened
  | writeSecret count =>
      left
      simp only [Handover.agentStep]
      split
      · rename_i file offset left rest hrequest
        have hold := hunopened.request _ hrequest
        apply hunopened.continue
        · exact hunopened.unnamed
        · exact hunopened.fresh
        · intro _
          exact hunopened.awaited (by simp [hrequest])
        · intro next hsome
          cases hsome
          exact hold
      · exact hunopened
  | closeSecret =>
      left
      simp only [Handover.agentStep]
      split
      · rename_i file offset rest hrequest
        have hold := hunopened.request _ hrequest
        apply hunopened.continue hunopened.unnamed hunopened.fresh
        · intro _
          exact hunopened.awaited (by simp [hrequest])
        · intro next hsome
          cases hsome
          exact hold
      · exact hunopened
  | failWrite =>
      left
      simp only [Handover.agentStep]
      split
      · apply hunopened.continue hunopened.unnamed
        · intro hinjected
          cases hinjected
        · intro hsome
          cases hsome
        · intro left hsome
          cases hsome
      · exact hunopened
  | finish =>
      left
      simp only [Handover.agentStep]
      split
      · apply hunopened.continue hunopened.unnamed
        · intro hinjected
          cases hinjected
        · intro hsome
          cases hsome
        · intro left hsome
          cases hsome
      · exact hunopened

/-- Without the file the script goes nowhere until its time is over. -/
theorem Handover.Unopened.initStep
    (hunopened : state.Unopened guest posted) (step : InitStep) :
    (state.initStep guest step).Unopened guest posted := by
  have hunnamed := hunopened.unnamed
  have hran := hunopened.ran
  rcases hunopened.stage with hstage | hstage
  · rw [hstage] at hran
    cases step with
    | poll => simpa [Handover.initStep, hstage, hunnamed] using hunopened
    | timeout =>
        have hstarted : state.commands = [.startAgent] := hran
        simp only [Handover.initStep, hstage, hunnamed]
        refine { hunopened with stage := Or.inr rfl, ran := ?_ }
        refine ⟨false, false, ?_⟩
        simp [LuksGuest.luksBoot_guest, hstarted]
    | openPassphrase | readPassphrase | luksOpen | measure | openWipe
    | wipe | remove | proceed =>
        simpa [Handover.initStep, hstage] using hunopened
  · have hoff : state.initStep guest step = state := by
      cases step <;> simp [Handover.initStep, hstage]
    rw [hoff]
    exact hunopened

theorem Handover.Known.step
    (hknown : state.Known guest posted) (event : HandoverEvent)
    (hposted : ∀ arrival, event = .agent (.post arrival) →
      bodyError arrival.secrets = none →
        ∀ secret ∈ arrival.secrets, posted secret.1 secret.2) :
    (state.step guest event).Known guest posted := by
  cases event with
  | agent step =>
      simp only [Handover.step]
      split_ifs with hoff
      · exact hknown
      · rcases hknown with hunopened | ⟨value, hvalue, hgiven⟩
        · have hpolling := hunopened.stage.resolve_right hoff
          apply hunopened.agentStep hpolling step
          intro arrival hpost
          exact hposted arrival (by rw [hpost])
        · exact Or.inr ⟨value, hvalue, hgiven.agentStep step⟩
  | init step =>
      rcases hknown with hunopened | ⟨value, hvalue, hgiven⟩
      · exact Or.inl (hunopened.initStep step)
      · exact Or.inr ⟨value, hvalue, hgiven.initStep step⟩

/-- The secrets of the requests that pass the checks. -/
def Posted (events : List HandoverEvent) (key value : String) : Prop :=
  ∃ arrival, .agent (.post arrival) ∈ events ∧
    bodyError arrival.secrets = none ∧ (key, value) ∈ arrival.secrets

def Handover.reached (guest : LuksGuest) (events : List HandoverEvent) :
    Handover :=
  run (Handover.step guest) .fresh events

theorem Handover.known_after (guest : LuksGuest)
    (events : List HandoverEvent) :
    (Handover.reached guest events).Known guest (Posted events) := by
  have hreaches : Reaches (Handover.step guest) (· ∈ events) .fresh
      (Handover.reached guest events) :=
    ⟨events, fun event hevent => hevent, rfl⟩
  apply hreaches.invariant
  · intro state event hevent hknown
    apply hknown.step
    intro arrival hpost hbody secret hsecret
    exact ⟨arrival, hpost ▸ hevent, hbody, hsecret⟩
  · exact Or.inl (Handover.unopened_fresh guest _)

/-! ## When the file is gone -/

def UnlockStage.over : UnlockStage → Bool
  | .removed _ => true
  | .started => true
  | .off => true
  | _ => false

theorem Handover.agentStep_stage (state : Handover) (step : AgentStep) :
    (state.agentStep step).stage = state.stage := by
  cases step <;> simp only [Handover.agentStep] <;> split <;>
    first | rfl | (split_ifs <;> rfl)

theorem Handover.step_over
    (hover : state.stage.over = true) (event : HandoverEvent) :
    (state.step guest event).stage.over = true := by
  cases event with
  | agent step =>
      simp only [Handover.step]
      split_ifs
      · exact hover
      · rw [Handover.agentStep_stage]
        exact hover
  | init step =>
      cases hstage : state.stage with
      | removed opened =>
          cases step with
          | proceed =>
              cases opened with
              | true =>
                  simp only [Handover.step, Handover.initStep, hstage]
                  split_ifs <;> rfl
              | false =>
                  simp [Handover.step, Handover.initStep, hstage,
                    UnlockStage.over]
          | _ =>
              simp [Handover.step, Handover.initStep, hstage,
                UnlockStage.over]
      | started =>
          cases step <;> simp [Handover.step, Handover.initStep, hstage,
            UnlockStage.over]
      | off =>
          cases step <;> simp [Handover.step, Handover.initStep, hstage,
            UnlockStage.over]
      | _ =>
          rw [hstage] at hover
          cases hover

theorem Handover.Known.unnamed
    (hknown : state.Known guest posted) (hover : state.stage.over = true) :
    state.store.names passphraseFile = none := by
  rcases hknown with hunopened | ⟨value, -, hgiven⟩
  · exact hunopened.unnamed
  · have hplaced := hgiven.placed
    cases hstage : state.stage with
    | removed opened =>
        rw [hstage] at hplaced
        exact hplaced.2
    | started =>
        rw [hstage] at hplaced
        exact hplaced.2
    | off =>
        rw [hstage] at hplaced
        exact hplaced
    | _ =>
        rw [hstage] at hover
        cases hover

theorem Handover.over_later
    {events : List HandoverEvent}
    (hover : (Handover.reached guest events).stage.over = true)
    (later : List HandoverEvent) :
    (Handover.reached guest (events ++ later)).stage.over = true := by
  have hstep : ∀ (state : Handover) (event : HandoverEvent),
      state.stage.over = true →
        (state.step guest event).stage.over = true :=
    fun state event hstill => Handover.step_over hstill event
  have hlater := run_invariant hstep later hover
  rw [Handover.reached, run_append]
  exact hlater

/-- The machine only starts from a volume that a front of an injected
passphrase has opened, what is done to the disks is what the script does with
a guest of this kind, and from the removal on the passphrase has no file. -/
theorem passphrase_handover
    (guest : LuksGuest)
    (events : List HandoverEvent) :
    ((Handover.reached guest events).stage = .started →
        (∃ value input, Posted events passphraseFile value ∧
          input <+: secretBytes value ∧ guest.opens input = true) ∧
        (Handover.reached guest events).commands =
          (guest.guest true true).luksBoot guest.blkdev) ∧
      ((Handover.reached guest events).stage = .off →
        ∃ injected opened, (Handover.reached guest events).commands =
          (guest.guest injected opened).luksBoot guest.blkdev) ∧
      ((Handover.reached guest events).stage.over = true →
        ∀ later, (Handover.reached guest (events ++ later)).store.names
          passphraseFile = none) := by
  have hknown := Handover.known_after guest events
  refine ⟨?_, ?_, ?_⟩
  · intro hstarted
    rcases hknown with hunopened | ⟨value, hposted, hgiven⟩
    · have hstage := hunopened.stage
      simp [hstarted] at hstage
    · have hplaced := hgiven.placed
      have hran := hgiven.ran
      rw [hstarted] at hplaced hran
      obtain ⟨input, hinput, hopens⟩ := hplaced.1 rfl
      exact ⟨⟨value, input, hposted, hinput, hopens⟩, hran.2⟩
  · intro hoff
    have hran : guest.Ran (Handover.reached guest events).commands
        (Handover.reached guest events).stage := by
      rcases hknown with hunopened | ⟨value, -, hgiven⟩
      · exact hunopened.ran
      · exact hgiven.ran
    rw [hoff] at hran
    exact hran
  · intro hover later
    exact (Handover.known_after guest _).unnamed
      (Handover.over_later hover later)

end AlephCvm.GuestInit
