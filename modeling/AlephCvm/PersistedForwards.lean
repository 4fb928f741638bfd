import AlephCvm.VmPrograms
import AlephCvm.VmRegistry
import AlephCvm.StateMirror

/-!
# State files under concurrent updates

Adding or removing a forward changes the table first and rewrites the state
file of the machine later: the file is read, the forwards are listed, and the
result is saved through a temporary file.  A deletion takes the machine out
of the table first and removes its file near the end.

In between, the file is behind the memory, and the call that will bring it up
to date accounts for that.  Two things can go wrong.  The forwards change
after a call has listed them and before it has saved its list, or the file is
deleted after a call has read it and before it has saved it again.
-/

namespace AlephCvm.Vm.Concurrent

open ResultContext StepRuns AtomicPrograms AlephCvm.Tee AlephCvm.Numa
open AlephCvm.Net AlephCvm.Nft AlephCvm.Qemu

/-! ## The protocol -/

/-- How far a call is with the state file of a machine. -/
inductive SavePhase where
  | idle
  | changed (id : String)
  | failing (id : String)
  | found (id : String)
  | listed (id : String) (forwards : List PortForward)
  | written (id : String)
  | removing (id : String)
  deriving DecidableEq, Repr

/-- A call whose rules could not be changed does not save. -/
def SavePhase.failed : SavePhase → SavePhase
  | .changed id => .failing id
  | phase => phase

/-- A chain that the rules of a forward go to is missing. -/
def forwardRefused (manager : NftablesManager) (listing : Listing)
    (vmId : String) : Bool :=
  (getTableForChain listing .ip manager.supervisorPreroutingChain).isNone ||
    (getTableForChain listing .ip (manager.vmFilterChain vmId)).isNone

def SavePhase.next (manager : NftablesManager) (phase : SavePhase)
    (action : Action) (response : Response action) : SavePhase :=
  match action, response with
  | .reserveForward vmId _ _ _, .ok _ => .changed vmId
  | .takeForward _ _, taken =>
      match phase, taken with
      | .failing _, _ => .idle
      | _, some forward => .changed forward.vmId
      | _, none => phase
  | .listRuleset (.addForward vmId _ _), .ok listing =>
      if forwardRefused manager listing vmId then phase.failed else phase
  | .listRuleset _, .error _ => phase.failed
  | .runNft _ _, .error _ => phase.failed
  | .readState vmId, some _ => .found vmId
  | .readState _, none => .idle
  | .listForwards vmId, forwards => .listed vmId forwards
  | .writeTemp vmId _, _ => .written vmId
  | .renameTemp _, _ => .idle
  | .removeVm id, some _ => .removing id
  | .deleteState _, _ => .idle
  | _, _ => phase

/-- The file of a machine is read after its forwards have changed and written
with the forwards that were listed; it is deleted with the machine only. -/
def saves (cfg : NodeConfig) :
    Protocol Call Action Response Reply SavePhase where
  start := fun _ => .idle
  next := SavePhase.next cfg.nftables
  allowed := fun phase action =>
    match action with
    | .reserveForward _ _ _ _ => phase = .idle
    | .takeForward _ _ => phase = .idle ∨ ∃ id, phase = .failing id
    | .takeForwards vmId => phase = .removing vmId
    | .readState vmId => phase = .changed vmId
    | .listForwards vmId => phase = .found vmId
    | .writeTemp vmId persisted =>
        phase = .listed vmId persisted.portForwards
    | .renameTemp vmId => phase = .written vmId
    | .removeVm _ => phase = .idle
    | .deleteState vmId => phase = .removing vmId
    | .insertVm _ _ => False
    | _ => True
  admits := fun action response =>
    match action, response with
    | .writeTemp _ _, written => written = true
    | _, _ => True
  returns := fun phase _ => phase = .idle ∨ ∃ id, phase = .failing id

theorem saves_neutral
    (cfg : NodeConfig) (phase : SavePhase) (hphase : phase.failed = phase) :
    (saves cfg).Neutral
      (fun action => [Resource.machines, .forwards, .files].contains
        action.resource = false) phase := by
  intro action hother
  cases action with
  | removeVm id => cases hother
  | unlockVms => cases hother
  | insertVm id handle => cases hother
  | reserveForward vmId hostPort vmPort protocol => cases hother
  | takeForward hostPort protocol => cases hother
  | takeForwards vmId => cases hother
  | listForwards vmId => cases hother
  | readState vmId => cases hother
  | writeTemp vmId persisted => cases hother
  | renameTemp vmId => cases hother
  | deleteState vmId => cases hother
  | listRuleset purpose =>
      refine ⟨trivial, fun response _ => ?_⟩
      cases response with
      | error message => cases purpose <;> exact hphase
      | ok listing =>
          cases purpose with
          | addForward vmId hostPort protocol =>
              simp only [saves, SavePhase.next]
              split
              · exact hphase
              · rfl
          | _ => rfl
  | runNft purpose commands =>
      refine ⟨trivial, fun response _ => ?_⟩
      cases response with
      | error message => exact hphase
      | ok done => rfl
  | _ => exact ⟨trivial, fun _ _ => rfl⟩

variable (cfg : NodeConfig)

theorem updatePersistedPortForwards_saves (vmId : String) :
    (updatePersistedPortForwards vmId).Follows (saves cfg)
      (fun reached _ => reached = .idle) (.changed vmId) := by
  unfold updatePersistedPortForwards
  refine Program.follows_action_bind.mpr ⟨rfl, fun read _ => ?_⟩
  cases read with
  | none => rfl
  | some persisted =>
      refine Program.follows_action_bind.mpr ⟨rfl, fun forwards _ => ?_⟩
      unfold saveVm
      refine Program.follows_bind.mpr ?_
      refine Program.follows_action_bind.mpr ⟨rfl, fun written hdone => ?_⟩
      have hwritten : written = true := hdone
      subst hwritten
      exact ⟨rfl, fun _ _ => rfl⟩

theorem forwardCommands_refused
    (manager : NftablesManager) (listing : Listing) (vmId guestIp : String)
    (hostPort vmPort : UInt16) (protocol : Net.Protocol) :
    (forwardCommands manager listing vmId guestIp hostPort vmPort
      protocol).isOk = !forwardRefused manager listing vmId := by
  unfold forwardCommands forwardRefused
  cases getTableForChain listing .ip manager.supervisorPreroutingChain with
  | none => rfl
  | some preroutingTable =>
      cases getTableForChain listing .ip (manager.vmFilterChain vmId) with
      | none => rfl
      | some filterTable => rfl

theorem addForwardRule_saves
    (vmId : String) (guestIp : Ipv4Addr) (hostPort vmPort : UInt16)
    (protocol : Net.Protocol) :
    (addForwardRule cfg vmId guestIp hostPort vmPort protocol).Follows
      (saves cfg)
      (fun reached result => reached =
        if result.isOk then .changed vmId else .failing vmId)
      (.changed vmId) := by
  unfold addForwardRule nftOperation
  refine Program.follows_action_bind.mpr ⟨trivial, fun listed _ => ?_⟩
  cases listed with
  | error message => rfl
  | ok listing =>
      have hrefused := forwardCommands_refused cfg.nftables listing vmId
        (ipv4Text guestIp) hostPort vmPort protocol
      simp only [saves, SavePhase.next]
      cases hcommands : forwardCommands cfg.nftables listing vmId
          (ipv4Text guestIp) hostPort vmPort protocol with
      | error message =>
          rw [hcommands] at hrefused
          have hmissing : forwardRefused cfg.nftables listing vmId =
              true := by
            simpa [Except.isOk, Except.toBool] using hrefused
          rw [if_pos hmissing]
          rfl
      | ok batch =>
          rw [hcommands] at hrefused
          have hpresent : forwardRefused cfg.nftables listing vmId =
              false := by
            simpa [Except.isOk, Except.toBool] using hrefused
          rw [if_neg (Bool.eq_false_iff.mp hpresent)]
          refine ⟨trivial, fun response _ => ?_⟩
          cases response with
          | error message => rfl
          | ok done => rfl

theorem removeForwardRule_saves
    (vmId : String) (index : ℕ) (hostPort : UInt16)
    (protocol : Net.Protocol) :
    (removeForwardRule cfg index hostPort protocol).Follows (saves cfg)
      (fun reached result => reached =
        if result.isOk then .changed vmId else .failing vmId)
      (.changed vmId) := by
  unfold removeForwardRule nftOperation
  refine Program.follows_action_bind.mpr ⟨trivial, fun listed _ => ?_⟩
  cases listed with
  | error message => rfl
  | ok listing =>
      refine ⟨trivial, fun response _ => ?_⟩
      cases response with
      | error message => rfl
      | ok done => rfl

theorem addPortForward_saves
    (vmId : String) (hostPort vmPort : UInt16) (protocol : Net.Protocol) :
    (addPortForward cfg vmId hostPort vmPort protocol).Follows (saves cfg)
      (fun reached _ => reached = .idle) .idle := by
  unfold addPortForward
  refine Program.follows_action_bind.mpr ⟨trivial, fun address _ => ?_⟩
  cases address with
  | none => rfl
  | some guestIp =>
      refine Program.follows_action_bind.mpr ⟨rfl, fun reserved _ => ?_⟩
      cases reserved with
      | error message => rfl
      | ok forward =>
          refine Program.follows_bind.mpr
            ((addForwardRule_saves cfg vmId guestIp _ vmPort
              protocol).mono ?_)
          intro reached result hreached
          subst hreached
          cases result with
          | error message =>
              refine Program.follows_action_bind.mpr
                ⟨.inr ⟨vmId, rfl⟩, fun _ _ => rfl⟩
          | ok done =>
              refine Program.follows_bind.mpr
                ((updatePersistedPortForwards_saves cfg vmId).mono ?_)
              exact fun _ _ hreached => hreached

theorem removePortForward_saves
    (hostPort : UInt16) (protocol : Net.Protocol) :
    (removePortForward cfg hostPort protocol).Follows (saves cfg)
      (fun reached _ => reached = .idle ∨ ∃ id, reached = .failing id)
      .idle := by
  unfold removePortForward
  refine Program.follows_action_bind.mpr ⟨.inl rfl, fun taken _ => ?_⟩
  cases taken with
  | none => exact .inl rfl
  | some forward =>
      refine Program.follows_bind.mpr
        ((removeForwardRule_saves cfg forward.vmId 0 hostPort
          protocol).mono ?_)
      intro reached result hreached
      subst hreached
      cases result with
      | error message => exact .inr ⟨forward.vmId, rfl⟩
      | ok done =>
          refine Program.follows_bind.mpr
            ((updatePersistedPortForwards_saves cfg forward.vmId).mono ?_)
          exact fun _ _ hreached => .inl hreached

theorem deleteVm_saves (id : String) :
    (deleteVm cfg id).Follows (saves cfg)
      (fun reached _ => reached = .idle) .idle := by
  unfold deleteVm
  refine Program.follows_action_bind.mpr ⟨rfl, fun found _ => ?_⟩
  cases found with
  | none => rfl
  | some handle =>
      have hneutral := saves_neutral cfg (.removing id) rfl
      refine Program.follows_bind.mpr ?_
      unfold deleteHandle
      refine Uses.skip (stopProcess_uses _) hneutral rfl fun _ _ => ?_
      refine Uses.skip (releaseNuma_uses _) hneutral rfl fun _ _ => ?_
      refine Program.follows_action_bind.mpr ⟨rfl, fun removed _ => ?_⟩
      refine Uses.skip (removeForwardRules_uses cfg 0 removed) hneutral rfl
        fun _ _ => ?_
      refine Uses.skip (dropIpv6_uses cfg id handle) hneutral rfl
        fun _ _ => ?_
      refine Uses.skip (teardownVm_uses cfg id) hneutral rfl fun _ _ => ?_
      refine Program.follows_action_bind.mpr ⟨trivial, fun _ _ => ?_⟩
      refine Uses.skip (removeReservations_uses cfg _ _) hneutral rfl
        fun _ _ => ?_
      refine Program.follows_action_bind.mpr ⟨trivial, fun _ _ => ?_⟩
      refine Program.follows_action_bind.mpr ⟨rfl, fun _ _ => ?_⟩
      exact ⟨trivial, fun _ _ => rfl⟩

/-- The calls that change forwards or delete a machine. -/
def Call.updates : Call → Bool
  | .createVm _ _ _ => false
  | .deleteVm _ => true
  | .addPortForward _ _ _ _ => true
  | .removePortForward _ _ => true

theorem program_saves {call : Call} (hupdates : call.updates = true) :
    (program cfg call).Follows (saves cfg) (saves cfg).returns .idle := by
  cases call with
  | createVm config requestedIpv6 numaHint => cases hupdates
  | deleteVm id =>
      refine Program.follows_bind.mpr ((deleteVm_saves cfg id).mono ?_)
      exact fun _ _ hreached => .inl hreached
  | addPortForward vmId hostPort vmPort protocol =>
      refine Program.follows_bind.mpr
        ((addPortForward_saves cfg vmId hostPort vmPort protocol).mono ?_)
      exact fun _ _ hreached => .inl hreached
  | removePortForward hostPort protocol =>
      refine Program.follows_bind.mpr
        ((removePortForward_saves cfg hostPort protocol).mono ?_)
      exact fun _ _ hreached => hreached

/-! ## Files and memory -/

/-- The tables that the state files mirror, and the files. -/
structure SaveView where
  vms : AList fun _ : String => VmHandle
  forwards : PortForwardState
  files : AList fun _ : String => PersistedVm
  temps : AList fun _ : String => PersistedVm

variable {cfg}

def Shared.saveView (shared : Shared cfg) : SaveView where
  vms := shared.node.vms
  forwards := shared.node.portForwards
  files := shared.node.stateDir
  temps := shared.tempFiles

namespace SaveView

def ForwardOf (view : SaveView) (id : String) (forward : PortForward) :
    Prop :=
  (∃ key, view.forwards.lookup key = some forward) ∧ forward.vmId = id

/-- The list is, as a set, the forwards of the machine. -/
def Current (view : SaveView) (id : String)
    (forwards : List PortForward) : Prop :=
  ∀ forward, forward ∈ forwards ↔ view.ForwardOf id forward

def FileCurrent (view : SaveView) (id : String) : Prop :=
  ∃ persisted, view.files.lookup (stateFile id) = some persisted ∧
    view.Current id persisted.portForwards

/-- The file of the machine is behind, or has no machine. -/
def Behind (view : SaveView) (id : String) : Prop :=
  (id ∈ view.vms ∧ ¬ view.FileCurrent id) ∨
    (id ∉ view.vms ∧ stateFile id ∈ view.files)

structure Named (view : SaveView) : Prop where
  names : ∀ name ∈ view.files, ∃ id, name = stateFile id
  saved : ∀ id ∈ view.vms, stateFile id ∈ view.files

/-- What a save that is under way relies on. -/
def Supports (view : SaveView) : SavePhase → Prop
  | .idle => True
  | .changed _ => True
  | .failing id => id ∉ view.vms
  | .found id => stateFile id ∈ view.files
  | .listed id forwards => stateFile id ∈ view.files ∧
      (id ∈ view.vms → view.Current id forwards)
  | .written id => stateFile id ∈ view.files ∧
      (id ∈ view.vms →
        (∀ persisted, view.temps.lookup (tempFile id) = some persisted →
          view.Current id persisted.portForwards) ∧
        (view.temps.lookup (tempFile id) = none → view.FileCurrent id))
  | .removing id => id ∉ view.vms

/-- The call will bring the file of the machine up to date. -/
def Pending (view : SaveView) (id : String) : SavePhase → Prop
  | .idle => False
  | .changed other => other = id ∧ id ∈ view.vms
  | .failing _ => False
  | .found other => other = id ∧ id ∈ view.vms
  | .listed other _ => other = id ∧ id ∈ view.vms
  | .written other => other = id ∧ id ∈ view.vms
  | .removing other => other = id

end SaveView

/-- Every file that is behind is accounted for by a call. -/
def fileOwners (cfg : NodeConfig) :
    Assertions (Shared cfg) SavePhase String where
  globally := fun shared => shared.saveView.Named
  locally := fun shared phase => shared.saveView.Supports phase
  apart := fun _ _ => True
  needs := fun shared id => shared.saveView.Behind id
  holds := fun shared phase id => shared.saveView.Pending id phase
  apart_symm := fun _ => trivial

/-- The call is between its list and the end of its save. -/
def SavePhase.saving (id : String) : SavePhase → Bool
  | .listed other _ => other == id
  | .written other => other == id
  | _ => false

/-- The call is between reading the file and the end of its save. -/
def SavePhase.rewriting (id : String) : SavePhase → Bool
  | .found other => other == id
  | .listed other _ => other == id
  | .written other => other == id
  | _ => false

/-- The forwards of a machine do not change while another call is saving
them, and its file is not deleted while another call is rewriting it. -/
def savesApart (shared : Shared cfg) (action : Action)
    (response : Response action) (other : SavePhase) : Bool :=
  match action, response with
  | .reserveForward vmId _ _ _, .ok _ =>
      !(decide (vmId ∈ shared.node.vms) && other.saving vmId)
  | .takeForward _ _, some forward =>
      !(decide (forward.vmId ∈ shared.node.vms) &&
        other.saving forward.vmId)
  | .deleteState vmId, _ => !other.rewriting vmId
  | _, _ => true

/-- A call that failed takes back no forward of a machine that exists. -/
def takesBack (shared : Shared cfg) (phase : SavePhase) (action : Action)
    (response : Response action) : Bool :=
  match phase, action, response with
  | .failing _, .takeForward _ _, some forward =>
      decide (forward.vmId ∉ shared.node.vms)
  | _, _, _ => true

def fileStepSucceeds (outcome : Outcome) : Action → Bool
  | .readState _ => outcome.done
  | .writeTemp _ _ => outcome.done
  | .renameTemp _ => outcome.done
  | .deleteState _ => outcome.done
  | _ => true

/-- The rules of a machine that exists can be changed. -/
def rulesSucceed (shared : Shared cfg) (phase : SavePhase)
    (action : Action) (response : Response action) : Bool :=
  match phase.next cfg.nftables action response with
  | .failing id => decide (id ∉ shared.node.vms)
  | _ => true

/-! ## Views after an action -/

section Views

variable {view after : SaveView} {id other : String}

/-- The forwards of the machine are the same. -/
def SaveView.SameForwards (view after : SaveView) (id : String) : Prop :=
  ∀ forward, after.ForwardOf id forward ↔ view.ForwardOf id forward

theorem SaveView.SameForwards.current
    (hsame : view.SameForwards after id) (forwards : List PortForward) :
    after.Current id forwards ↔ view.Current id forwards :=
  forall_congr' fun forward => iff_congr Iff.rfl (hsame forward)

theorem SaveView.SameForwards.fileCurrent
    (hsame : view.SameForwards after id)
    (hfile : after.files.lookup (stateFile id) =
      view.files.lookup (stateFile id)) :
    after.FileCurrent id ↔ view.FileCurrent id := by
  unfold SaveView.FileCurrent
  rw [hfile]
  exact exists_congr fun persisted =>
    and_congr_right' (hsame.current persisted.portForwards)

/-- The machine, its forwards, its file and its temporary file are the
same. -/
structure SaveView.SameAt (view after : SaveView) (id : String) :
    Prop where
  vms : id ∈ after.vms ↔ id ∈ view.vms
  forwards : view.SameForwards after id
  file : after.files.lookup (stateFile id) =
    view.files.lookup (stateFile id)
  temp : after.temps.lookup (tempFile id) =
    view.temps.lookup (tempFile id)

theorem SaveView.SameAt.mem_files (hsame : view.SameAt after id) :
    stateFile id ∈ after.files ↔ stateFile id ∈ view.files := by
  rw [← AList.lookup_isSome, ← AList.lookup_isSome, hsame.file]

theorem SaveView.SameAt.behind (hsame : view.SameAt after id) :
    after.Behind id ↔ view.Behind id := by
  unfold SaveView.Behind
  rw [hsame.vms, hsame.forwards.fileCurrent hsame.file, hsame.mem_files]

/-- The machine whose file a call is concerned with. -/
def SavePhase.machine : SavePhase → Option String
  | .idle => none
  | .changed id => some id
  | .failing id => some id
  | .found id => some id
  | .listed id _ => some id
  | .written id => some id
  | .removing id => some id

theorem SaveView.SameAt.supports
    {phase : SavePhase} (hsame : view.SameAt after id)
    (hphase : phase.machine = some id) :
    after.Supports phase ↔ view.Supports phase := by
  cases phase with
  | idle => exact Iff.rfl
  | changed other => exact Iff.rfl
  | failing other =>
      cases hphase
      exact not_congr hsame.vms
  | found other =>
      cases hphase
      exact hsame.mem_files
  | listed other forwards =>
      cases hphase
      simp only [SaveView.Supports, hsame.mem_files, hsame.vms,
        hsame.forwards.current]
  | written other =>
      cases hphase
      simp only [SaveView.Supports, hsame.mem_files, hsame.vms,
        hsame.temp, hsame.forwards.current,
        hsame.forwards.fileCurrent hsame.file]
  | removing other =>
      cases hphase
      exact not_congr hsame.vms

theorem SaveView.pending_of_vms
    {phase : SavePhase} (hvms : id ∈ view.vms → id ∈ after.vms)
    (hpending : view.Pending id phase) : after.Pending id phase := by
  cases phase with
  | idle => exact hpending.elim
  | changed other => exact ⟨hpending.1, hvms hpending.2⟩
  | failing other => exact hpending.elim
  | found other => exact ⟨hpending.1, hvms hpending.2⟩
  | listed other forwards => exact ⟨hpending.1, hvms hpending.2⟩
  | written other => exact ⟨hpending.1, hvms hpending.2⟩
  | removing other => exact hpending

end Views

/-! ## Effects of the actions -/

section Keeps

variable {shared reached : Shared cfg} {phase after : SavePhase}
  {guard : SavePhase → Prop}

/-- An action that changes nothing but the phase of its call. -/
theorem keeps_of_sameView
    (hview : reached.saveView = shared.saveView)
    (hnamed : shared.saveView.Named)
    (hsupports : shared.saveView.Supports after)
    (hpending : ∀ id, shared.saveView.Behind id →
      shared.saveView.Pending id phase →
        shared.saveView.Pending id after) :
    (fileOwners cfg).Keeps guard shared phase reached after := by
  constructor
  · simp only [fileOwners, hview]
    exact hnamed
  · simp only [fileOwners, hview]
    exact hsupports
  · intro rival _ hrival _
    simp only [fileOwners, hview]
    exact ⟨hrival, trivial⟩
  · intro id hbehind
    simp only [fileOwners, hview] at hbehind ⊢
    by_cases hheld : shared.saveView.Pending id phase
    · exact .inl (hpending id hbehind hheld)
    · exact .inr ⟨hbehind, hheld⟩
  · intro rival _ _ _ id _ hheld
    simp only [fileOwners, hview]
    exact .inl hheld

/-- An action that concerns one machine. -/
theorem keeps_at (id : String)
    (hnamed : reached.saveView.Named)
    (hothers : ∀ other, other ≠ id →
      shared.saveView.SameAt reached.saveView other)
    (hphase : ∀ other, other ≠ id →
      shared.saveView.Pending other phase →
        reached.saveView.Pending other after)
    (hsupports : reached.saveView.Supports after)
    (hrivals : ∀ rival, guard rival → rival.machine = some id →
      shared.saveView.Supports rival → reached.saveView.Supports rival)
    (hdemand : reached.saveView.Behind id →
      reached.saveView.Pending id after ∨
        (shared.saveView.Behind id ∧ ¬ shared.saveView.Pending id phase))
    (hheld : ∀ rival, shared.saveView.Pending id rival →
      reached.saveView.Pending id rival ∨
        reached.saveView.Pending id after) :
    (fileOwners cfg).Keeps guard shared phase reached after := by
  refine ⟨hnamed, hsupports, ?_, ?_, ?_⟩
  · intro rival hguard hrival _
    refine ⟨?_, trivial⟩
    cases hmachine : rival.machine with
    | none =>
        cases rival with
        | idle => trivial
        | _ => cases hmachine
    | some other =>
        by_cases hother : other = id
        · rw [hother] at hmachine
          exact hrivals rival hguard hmachine hrival
        · exact ((hothers other hother).supports hmachine).mpr hrival
  · intro other hbehind
    by_cases hother : other = id
    · rw [hother] at hbehind ⊢
      exact hdemand hbehind
    · by_cases hpending : shared.saveView.Pending other phase
      · exact .inl (hphase other hother hpending)
      · exact .inr ⟨(hothers other hother).behind.mp hbehind, hpending⟩
  · intro rival _ _ _ other _ hpending
    by_cases hother : other = id
    · rw [hother] at hpending ⊢
      exact hheld rival hpending
    · exact .inl (SaveView.pending_of_vms
        (hothers other hother).vms.mpr hpending)

end Keeps

section Changes

variable {view : SaveView} {id : String}

theorem sameForwards_insert
    {forward : PortForward}
    (hfree : view.forwards.lookup forward.key = none)
    (hother : id ≠ forward.vmId) :
    view.SameForwards { view with
      forwards := view.forwards.insert forward.key forward } id := by
  intro found
  apply and_congr_left
  intro hfound
  constructor
  · rintro ⟨key, hlookup⟩
    by_cases hkey : key = forward.key
    · rw [hkey, AList.lookup_insert, Option.some.injEq] at hlookup
      rw [hlookup] at hother
      exact absurd hfound.symm hother
    · rw [AList.lookup_insert_ne hkey] at hlookup
      exact ⟨key, hlookup⟩
  · rintro ⟨key, hlookup⟩
    have hkey : key ≠ forward.key := by
      intro heq
      rw [heq, hfree] at hlookup
      cases hlookup
    exact ⟨key, by rw [AList.lookup_insert_ne hkey]; exact hlookup⟩

theorem sameForwards_erase
    {key : UInt16 × Net.Protocol}
    (hother : ∀ forward, view.forwards.lookup key = some forward →
      forward.vmId ≠ id) :
    view.SameForwards
      { view with forwards := view.forwards.erase key } id := by
  intro found
  apply and_congr_left
  intro hfound
  constructor
  · rintro ⟨stored, hlookup⟩
    by_cases hkey : stored = key
    · rw [hkey, AList.lookup_erase] at hlookup
      cases hlookup
    · rw [AList.lookup_erase_ne hkey] at hlookup
      exact ⟨stored, hlookup⟩
  · rintro ⟨stored, hlookup⟩
    have hkey : stored ≠ key := by
      intro heq
      rw [heq] at hlookup
      exact hother found hlookup hfound
    exact ⟨stored, by rw [AList.lookup_erase_ne hkey]; exact hlookup⟩

theorem sameForwards_removeAll
    {owner : String} (order : IterationOrder) (hother : id ≠ owner) :
    view.SameForwards { view with
      forwards := (PortForwardState.removeAllForVm view.forwards order
        owner).2 } id := by
  intro found
  apply and_congr_left
  intro hfound
  apply exists_congr
  intro key
  rw [PortForwardState.removeAllForVm_lookup]
  constructor
  · exact fun hboth => hboth.1
  · intro hlookup
    refine ⟨hlookup, ?_⟩
    rw [hfound]
    exact hother

end Changes

section Forwards

variable {shared reached : Shared cfg} {phase after : SavePhase}

/-- An action on the forwards of one machine. -/
theorem keeps_forwards
    (id : String) {guard : SavePhase → Prop} {forwards : PortForwardState}
    (hview : reached.saveView =
      { shared.saveView with forwards := forwards })
    (hnamed : shared.saveView.Named)
    (hothers : ∀ other, other ≠ id → shared.saveView.SameForwards
      { shared.saveView with forwards := forwards } other)
    (hguard : ∀ rival, guard rival → id ∈ shared.node.vms →
      rival.saving id = false)
    (hsupports : reached.saveView.Supports after)
    (hphase : ∀ other, shared.saveView.Pending other phase →
      shared.saveView.Pending other after)
    (hafter : id ∈ shared.node.vms → shared.saveView.Pending id after) :
    (fileOwners cfg).Keeps guard shared phase reached after := by
  have hpending : ∀ other rival, shared.saveView.Pending other rival →
      reached.saveView.Pending other rival := by
    intro other rival
    apply SaveView.pending_of_vms
    rw [hview]
    exact fun hmem => hmem
  refine keeps_at id ?_ ?_ ?_ hsupports ?_ ?_ ?_
  · rw [hview]
    exact ⟨hnamed.names, hnamed.saved⟩
  · intro other hother
    rw [hview]
    exact ⟨Iff.rfl, hothers other hother, rfl, rfl⟩
  · exact fun other _ hheld => hpending _ _ (hphase other hheld)
  · intro rival hrival hmachine hbefore
    rw [hview]
    cases rival with
    | listed other listing =>
        cases hmachine
        refine ⟨hbefore.1, fun hmem => ?_⟩
        have hfree := hguard _ hrival hmem
        rw [SavePhase.saving, beq_self_eq_true] at hfree
        cases hfree
    | written other =>
        cases hmachine
        refine ⟨hbefore.1, fun hmem => ?_⟩
        have hfree := hguard _ hrival hmem
        rw [SavePhase.saving, beq_self_eq_true] at hfree
        cases hfree
    | _ => exact hbefore
  · intro hbehind
    rw [hview] at hbehind
    rcases hbehind with ⟨hmem, _⟩ | ⟨hgone, hfile⟩
    · exact .inl (hpending _ _ (hafter hmem))
    · by_cases hheld : shared.saveView.Pending id phase
      · exact .inl (hpending _ _ (hphase id hheld))
      · exact .inr ⟨.inr ⟨hgone, hfile⟩, hheld⟩
  · exact fun rival hheld => .inl (hpending _ _ hheld)

end Forwards

section Effects

variable {outcome : Outcome} {shared reached : Shared cfg}

theorem exec_reserveForward
    {vmId : String} {hostPort vmPort : UInt16} {protocol : Net.Protocol}
    {response : Except String PortForward}
    (hexec : exec outcome (.reserveForward vmId hostPort vmPort protocol)
      shared = some (response, reached)) :
    (∀ message, response = .error message → reached = shared) ∧
    ∀ forward, response = .ok forward → forward.vmId = vmId ∧
      shared.saveView.forwards.lookup forward.key = none ∧
      reached.saveView = { shared.saveView with
        forwards := shared.saveView.forwards.insert forward.key
          forward } := by
  cases exec_reserveForward_effect hexec with
  | refused message => exact ⟨fun _ _ => rfl, nofun⟩
  | reserved chosen hport =>
      refine ⟨nofun, ?_⟩
      intro forward hforward
      cases hforward
      exact ⟨rfl, chooseHostPort_free hport, rfl⟩

theorem exec_removeVm
    {id : String} {response : Option VmHandle}
    (hexec : exec outcome (.removeVm id) shared =
      some (response, reached)) :
    response = shared.node.vms.lookup id ∧
      reached.saveView = { shared.saveView with
        vms := if response.isSome then shared.node.vms.erase id
          else shared.node.vms } := by
  cases exec_removeVm_effect hexec with
  | missing hmissing => exact ⟨hmissing.symm, rfl⟩
  | removed handle hlookup => exact ⟨hlookup.symm, rfl⟩

theorem exec_renameTemp
    {vmId : String} {response : Bool} (hdone : outcome.done = true)
    (hexec : exec outcome (.renameTemp vmId) shared =
      some (response, reached)) :
    (shared.tempFiles.lookup (tempFile vmId) = none ∧ reached = shared) ∨
    ∃ persisted,
      shared.tempFiles.lookup (tempFile vmId) = some persisted ∧
      reached.saveView = { shared.saveView with
        files := shared.node.stateDir.insert (stateFile vmId) persisted
        temps := shared.tempFiles.erase (tempFile vmId) } := by
  have hresult : shared.renameTemp outcome.done vmId =
      (response, reached) := Option.some.inj hexec
  unfold Shared.renameTemp at hresult
  rw [hdone] at hresult
  cases htemp : shared.tempFiles.lookup (tempFile vmId) with
  | none =>
      rw [htemp] at hresult
      cases hresult
      exact .inl ⟨rfl, rfl⟩
  | some persisted =>
      rw [htemp] at hresult
      cases hresult
      exact .inr ⟨persisted, rfl, rfl⟩

end Effects

/-! ## One action keeps the account -/

section Actions

variable {outcome : Outcome} {shared reached : Shared cfg}
  {phase : SavePhase}

theorem keeps_removeVm
    {guard : SavePhase → Prop} {id : String} {handle : VmHandle}
    (hnamed : shared.saveView.Named)
    (hexec : exec outcome (.removeVm id) shared =
      some (some handle, reached)) :
    (fileOwners cfg).Keeps guard shared .idle reached (.removing id) := by
  have hview := (exec_removeVm hexec).2
  simp only [Option.isSome_some, if_true] at hview
  have hgone : id ∉ reached.saveView.vms := by
    rw [hview]
    simp [AList.mem_erase]
  refine keeps_at id ?_ ?_ ?_ hgone ?_ ?_ ?_
  · rw [hview]
    refine ⟨hnamed.names, ?_⟩
    intro other hother
    exact hnamed.saved other (AList.mem_erase.mp hother).2
  · intro other hother
    rw [hview]
    refine ⟨?_, fun _ => Iff.rfl, rfl, rfl⟩
    rw [AList.mem_erase]
    exact and_iff_right hother
  · exact fun _ _ hpending => hpending.elim
  · intro rival _ hmachine hbefore
    cases rival with
    | idle => trivial
    | changed other => trivial
    | failing other =>
        cases hmachine
        exact hgone
    | found other =>
        rw [hview]
        exact hbefore
    | listed other forwards =>
        cases hmachine
        refine ⟨?_, fun hmem => absurd hmem hgone⟩
        rw [hview]
        exact hbefore.1
    | written other =>
        cases hmachine
        refine ⟨?_, fun hmem => absurd hmem hgone⟩
        rw [hview]
        exact hbefore.1
    | removing other =>
        cases hmachine
        exact hgone
  · exact fun _ => .inl rfl
  · exact fun _ _ => .inr rfl

theorem keeps_deleteState
    {guard : SavePhase → Prop} {id : String}
    (hview : reached.saveView = { shared.saveView with
      files := shared.saveView.files.erase (stateFile id) })
    (hnamed : shared.saveView.Named) (hgone : id ∉ shared.node.vms)
    (hguard : ∀ rival, guard rival → rival.rewriting id = false) :
    (fileOwners cfg).Keeps guard shared (.removing id) reached .idle := by
  refine keeps_at id ?_ ?_ ?_ ?_ ?_ ?_ ?_
  · rw [hview]
    constructor
    · intro name hname
      exact hnamed.names name (AList.mem_erase.mp hname).2
    · intro other hother
      have hne : stateFile other ≠ stateFile id := by
        intro hsame
        rw [stateFile_injective hsame] at hother
        exact hgone hother
      exact AList.mem_erase.mpr ⟨hne, hnamed.saved other hother⟩
  · intro other hother
    have hne : stateFile other ≠ stateFile id := fun hsame =>
      hother (stateFile_injective hsame)
    rw [hview]
    exact ⟨Iff.rfl, fun _ => Iff.rfl, AList.lookup_erase_ne hne, rfl⟩
  · exact fun other hother hpending => absurd hpending.symm hother
  · trivial
  · intro rival hrival hmachine hbefore
    have hfree := hguard rival hrival
    rw [hview]
    cases rival with
    | found other =>
        cases hmachine
        rw [SavePhase.rewriting, beq_self_eq_true] at hfree
        cases hfree
    | listed other forwards =>
        cases hmachine
        rw [SavePhase.rewriting, beq_self_eq_true] at hfree
        cases hfree
    | written other =>
        cases hmachine
        rw [SavePhase.rewriting, beq_self_eq_true] at hfree
        cases hfree
    | _ => exact hbefore
  · intro hbehind
    rw [hview] at hbehind
    rcases hbehind with ⟨hmem, _⟩ | ⟨_, hfile⟩
    · exact absurd hmem hgone
    · exact absurd rfl (AList.mem_erase.mp hfile).1
  · intro rival hpending
    left
    apply SaveView.pending_of_vms _ hpending
    rw [hview]
    exact fun hmem => hmem

theorem keeps_writeTemp
    {guard : SavePhase → Prop} {id : String} {persisted : PersistedVm}
    (hview : reached.saveView = { shared.saveView with
      temps := shared.saveView.temps.insert (tempFile id) persisted })
    (hnamed : shared.saveView.Named)
    (hlisted : shared.saveView.Supports
      (.listed id persisted.portForwards)) :
    (fileOwners cfg).Keeps guard shared
      (.listed id persisted.portForwards) reached (.written id) := by
  have hwritten : reached.saveView.Supports (.written id) := by
    rw [hview]
    refine ⟨hlisted.1, fun hmem => ⟨?_, ?_⟩⟩
    · intro found hfound
      rw [AList.lookup_insert, Option.some.injEq] at hfound
      rw [← hfound]
      exact hlisted.2 hmem
    · intro hnone
      rw [AList.lookup_insert] at hnone
      cases hnone
  refine keeps_at id ?_ ?_ ?_ hwritten ?_ ?_ ?_
  · rw [hview]
    exact ⟨hnamed.names, hnamed.saved⟩
  · intro other hother
    have hne : tempFile other ≠ tempFile id := fun hsame =>
      hother (tempFile_injective hsame)
    rw [hview]
    exact ⟨Iff.rfl, fun _ => Iff.rfl, rfl, AList.lookup_insert_ne hne⟩
  · exact fun other hother hpending => absurd hpending.1.symm hother
  · intro rival _ hmachine hbefore
    cases rival with
    | written other =>
        cases hmachine
        exact hwritten
    | _ =>
        rw [hview]
        exact hbefore
  · intro hbehind
    rw [hview] at hbehind ⊢
    rcases hbehind with ⟨hmem, _⟩ | ⟨hgone, hfile⟩
    · exact .inl ⟨rfl, hmem⟩
    · exact .inr ⟨.inr ⟨hgone, hfile⟩, fun hpending =>
        hgone hpending.2⟩
  · intro rival hpending
    left
    apply SaveView.pending_of_vms _ hpending
    rw [hview]
    exact fun hmem => hmem

theorem keeps_renameTemp
    {guard : SavePhase → Prop} {id : String} {persisted : PersistedVm}
    (hview : reached.saveView = { shared.saveView with
      files := shared.saveView.files.insert (stateFile id) persisted
      temps := shared.saveView.temps.erase (tempFile id) })
    (hnamed : shared.saveView.Named)
    (hwritten : shared.saveView.Supports (.written id))
    (htemp : shared.saveView.temps.lookup (tempFile id) =
      some persisted) :
    (fileOwners cfg).Keeps guard shared (.written id) reached .idle := by
  have hcurrent : id ∈ shared.saveView.vms →
      reached.saveView.FileCurrent id := by
    intro hmem
    rw [hview]
    exact ⟨persisted, AList.lookup_insert _,
      (hwritten.2 hmem).1 persisted htemp⟩
  refine keeps_at id ?_ ?_ ?_ ?_ ?_ ?_ ?_
  · rw [hview]
    constructor
    · intro name hname
      rcases (AList.mem_insert _).mp hname with hnew | hold
      · exact ⟨id, hnew⟩
      · exact hnamed.names name hold
    · intro other hother
      exact (AList.mem_insert _).mpr (.inr (hnamed.saved other hother))
  · intro other hother
    have hfile : stateFile other ≠ stateFile id := fun hsame =>
      hother (stateFile_injective hsame)
    have hname : tempFile other ≠ tempFile id := fun hsame =>
      hother (tempFile_injective hsame)
    rw [hview]
    exact ⟨Iff.rfl, fun _ => Iff.rfl, AList.lookup_insert_ne hfile,
      AList.lookup_erase_ne hname⟩
  · exact fun other hother hpending => absurd hpending.1.symm hother
  · trivial
  · intro rival _ hmachine hbefore
    have hfile : stateFile id ∈ reached.saveView.files := by
      rw [hview]
      exact (AList.mem_insert _).mpr (.inl rfl)
    cases rival with
    | found other =>
        cases hmachine
        exact hfile
    | listed other forwards =>
        cases hmachine
        refine ⟨hfile, ?_⟩
        rw [hview]
        exact hbefore.2
    | written other =>
        cases hmachine
        refine ⟨hfile, fun hmem => ⟨?_, ?_⟩⟩
        · intro found hfound
          rw [hview, AList.lookup_erase] at hfound
          cases hfound
        · intro _
          rw [hview] at hmem
          exact hcurrent hmem
    | _ =>
        rw [hview]
        exact hbefore
  · intro hbehind
    rcases hbehind with ⟨hmem, hnot⟩ | ⟨hgone, _⟩
    · rw [hview] at hmem
      exact absurd (hcurrent hmem) hnot
    · rw [hview] at hgone
      exact .inr ⟨.inr ⟨hgone, hwritten.1⟩, fun hpending =>
        hgone hpending.2⟩
  · intro rival hpending
    left
    apply SaveView.pending_of_vms _ hpending
    rw [hview]
    exact fun hmem => hmem

theorem keeps_reserveForward
    {vmId : String} {hostPort vmPort : UInt16} {protocol : Net.Protocol}
    {forward : PortForward} (hnamed : shared.saveView.Named)
    (hexec : exec outcome (.reserveForward vmId hostPort vmPort protocol)
      shared = some (.ok forward, reached)) :
    (fileOwners cfg).Keeps
      (fun other => savesApart shared
        (.reserveForward vmId hostPort vmPort protocol) (.ok forward)
        other = true)
      shared .idle reached (.changed vmId) := by
  obtain ⟨howner, hfree, hview⟩ := (exec_reserveForward hexec).2 forward rfl
  apply keeps_forwards vmId hview hnamed
  · intro other hother
    apply sameForwards_insert hfree
    rw [howner]
    exact hother
  · intro rival hrival hmem
    simpa [savesApart, hmem] using hrival
  · trivial
  · exact fun _ hpending => hpending.elim
  · exact fun hmem => ⟨rfl, hmem⟩

theorem keeps_takeForward
    {hostPort : UInt16} {protocol : Net.Protocol}
    {response : Option PortForward} (hnamed : shared.saveView.Named)
    (hallowed : phase = .idle ∨ ∃ id, phase = .failing id)
    (hback : takesBack shared phase (.takeForward hostPort protocol)
      response = true)
    (hexec : exec outcome (.takeForward hostPort protocol) shared =
      some (response, reached)) :
    (fileOwners cfg).Keeps
      (fun other => savesApart shared (.takeForward hostPort protocol)
        response other = true)
      shared phase reached
      (phase.next cfg.nftables (.takeForward hostPort protocol)
        response) := by
  have hlookup : shared.saveView.forwards.lookup (hostPort, protocol) =
      response := congrArg Prod.fst (Option.some.inj hexec)
  have hview : reached.saveView = { shared.saveView with
      forwards := shared.saveView.forwards.erase (hostPort, protocol) } := by
    cases hexec
    rfl
  have hnothing : ∀ id, ¬ shared.saveView.Pending id phase := by
    intro id hpending
    rcases hallowed with hidle | ⟨failed, hfailing⟩
    · rw [hidle] at hpending
      exact hpending
    · rw [hfailing] at hpending
      exact hpending
  cases response with
  | none =>
      have habsent : shared.saveView.forwards.erase (hostPort, protocol) =
          shared.saveView.forwards := by
        apply AList.ext
        apply List.kerase_of_notMem_keys
        exact AList.lookup_eq_none.mp hlookup
      rw [habsent] at hview
      apply keeps_of_sameView hview hnamed
      · rcases hallowed with hidle | ⟨failed, hfailing⟩
        · rw [hidle]
          trivial
        · rw [hfailing]
          trivial
      · exact fun id _ hpending => absurd hpending (hnothing id)
  | some forward =>
      apply keeps_forwards forward.vmId hview hnamed
      · intro other hother
        apply sameForwards_erase
        intro found hfound
        rw [hlookup, Option.some.injEq] at hfound
        rw [← hfound]
        exact Ne.symm hother
      · intro rival hrival hmem
        simpa [savesApart, hmem] using hrival
      · rcases hallowed with hidle | ⟨failed, hfailing⟩
        · rw [hidle]
          trivial
        · rw [hfailing]
          trivial
      · exact fun id hpending => absurd hpending (hnothing id)
      · intro hmem
        rcases hallowed with hidle | ⟨failed, hfailing⟩
        · rw [hidle]
          exact ⟨rfl, hmem⟩
        · rw [hfailing] at hback
          exact absurd hmem (of_decide_eq_true hback)

/-- A call of `nft` leaves the phase or gives the save up. -/
theorem next_firewall
    (manager : NftablesManager) {action : Action}
    (response : Response action)
    (hresource : action.resource = .firewall) :
    phase.next manager action response = phase ∨
      phase.next manager action response = phase.failed := by
  cases action with
  | listRuleset purpose =>
      cases response with
      | error message => cases purpose <;> exact .inr rfl
      | ok listing =>
          cases purpose with
          | addForward vmId hostPort protocol =>
              simp only [SavePhase.next]
              split
              · exact .inr rfl
              · exact .inl rfl
          | _ => exact .inl rfl
  | runNft purpose commands =>
      cases response with
      | error message => exact .inr rfl
      | ok done => exact .inl rfl
  | _ => cases hresource

theorem keeps_firewall
    {guard : SavePhase → Prop} {action : Action}
    {response : Response action} (hnamed : shared.saveView.Named)
    (hsupports : shared.saveView.Supports phase)
    (hrules : rulesSucceed shared phase action response = true)
    (hresource : action.resource = .firewall)
    (hview : reached.saveView = shared.saveView) :
    (fileOwners cfg).Keeps guard shared phase reached
      (phase.next cfg.nftables action response) := by
  rcases next_firewall cfg.nftables response hresource with
    hsame | hfailed
  · rw [hsame]
    exact keeps_of_sameView hview hnamed hsupports
      fun _ _ hpending => hpending
  · cases phase with
    | changed id =>
        have hnext : SavePhase.next cfg.nftables (.changed id) action
            response = .failing id := hfailed
        rw [rulesSucceed, hnext] at hrules
        have hgone : id ∉ shared.node.vms := of_decide_eq_true hrules
        rw [hnext]
        apply keeps_of_sameView hview hnamed
        · exact hgone
        · intro other _ hpending
          rw [← hpending.1] at hpending
          exact absurd hpending.2 hgone
    | _ =>
        rw [hfailed]
        exact keeps_of_sameView hview hnamed hsupports
          fun _ _ hpending => hpending

theorem saveView_of_resource
    {action : Action} {response : Response action}
    (hexec : exec outcome action shared = some (response, reached))
    (hother : [Resource.machines, .forwards, .files].contains
      action.resource = false) : reached.saveView = shared.saveView := by
  have hsame := exec_sameExcept hexec
  have hne : ∀ relevant ∈ [Resource.machines, .forwards, .files],
      action.resource ≠ relevant := by
    intro relevant hmem heq
    rw [heq, List.contains_iff_mem.mpr hmem] at hother
    cases hother
  simp only [Shared.saveView, hsame.vms (hne _ (by simp)),
    hsame.portForwards (hne _ (by simp)), hsame.stateDir (hne _ (by simp)),
    hsame.tempFiles (hne _ (by simp))]

/-- Every action keeps the account of the files that are behind, if its file
operation succeeds and it stays away from the saves of other calls. -/
theorem exec_keeps_fileOwners
    {action : Action} {response : Response action}
    (hnamed : shared.saveView.Named)
    (hsupports : shared.saveView.Supports phase)
    (hallowed : (saves cfg).allowed phase action)
    (hexec : exec outcome action shared = some (response, reached))
    (hfile : fileStepSucceeds outcome action = true)
    (hrules : rulesSucceed shared phase action response = true)
    (hback : takesBack shared phase action response = true) :
    (fileOwners cfg).Keeps
      (fun other => savesApart shared action response other = true)
      shared phase reached
      ((saves cfg).next phase action response) := by
  have hview := saveView_of_resource hexec
  cases action with
  | reserveForward vmId hostPort vmPort protocol =>
      cases response with
      | error message =>
          rw [(exec_reserveForward hexec).1 message rfl]
          exact keeps_of_sameView rfl hnamed hsupports fun _ _ h => h
      | ok forward =>
          have hidle : phase = .idle := hallowed
          subst hidle
          exact keeps_reserveForward hnamed hexec
  | takeForward hostPort protocol =>
      exact keeps_takeForward hnamed hallowed hback hexec
  | takeForwards vmId =>
      have hremoving : phase = .removing vmId := hallowed
      subst hremoving
      have htaken : reached.saveView = { shared.saveView with
          forwards := (PortForwardState.removeAllForVm
            shared.saveView.forwards outcome.order vmId).2 } := by
        cases hexec
        rfl
      apply keeps_forwards vmId htaken hnamed
      · intro other hother
        exact sameForwards_removeAll outcome.order hother
      · exact fun _ _ hmem => absurd hmem hsupports
      · rw [htaken]
        exact hsupports
      · exact fun _ hpending => hpending
      · exact fun hmem => absurd hmem hsupports
  | listForwards vmId =>
      have hfound : phase = .found vmId := hallowed
      subst hfound
      cases hexec
      apply keeps_of_sameView rfl hnamed
      · refine ⟨hsupports, fun _ forward => ?_⟩
        exact PortForwardState.mem_listForVm _
      · exact fun _ _ hpending => hpending
  | readState vmId =>
      have hchanged : phase = .changed vmId := hallowed
      subst hchanged
      have hdone : outcome.done = true := hfile
      have hread : shared.node.stateDir.lookup (stateFile vmId) =
          response := by
        have hresponse : (if outcome.done then
            shared.node.stateDir.lookup (stateFile vmId) else none) =
            response := congrArg Prod.fst (Option.some.inj hexec)
        rw [if_pos hdone] at hresponse
        exact hresponse
      have hunchanged : shared = reached :=
        congrArg Prod.snd (Option.some.inj hexec)
      subst hunchanged
      cases response with
      | none =>
          apply keeps_of_sameView rfl hnamed
          · trivial
          · intro id _ hpending
            rw [← hpending.1] at hpending
            have hmem := hnamed.saved vmId hpending.2
            exact absurd hmem (AList.lookup_eq_none.mp hread)
      | some persisted =>
          apply keeps_of_sameView rfl hnamed
          · have hmem : stateFile vmId ∈ shared.node.stateDir := by
              rw [← AList.lookup_isSome, hread]
              rfl
            exact hmem
          · exact fun _ _ hpending => hpending
  | writeTemp vmId persisted =>
      have hlisted : phase = .listed vmId persisted.portForwards := hallowed
      subst hlisted
      have hdone : outcome.done = true := hfile
      apply keeps_writeTemp _ hnamed hsupports
      have hresult : shared.writeTemp outcome.done vmId persisted =
          (response, reached) := Option.some.inj hexec
      rw [hdone] at hresult
      cases hresult
      rfl
  | renameTemp vmId =>
      have hwritten : phase = .written vmId := hallowed
      subst hwritten
      rcases exec_renameTemp hfile hexec with
        ⟨hgone, hunchanged⟩ | ⟨persisted, htemp, hrenamed⟩
      · subst hunchanged
        apply keeps_of_sameView rfl hnamed
        · trivial
        · intro id hbehind hpending
          obtain ⟨heq, hmem⟩ := hpending
          subst heq
          have hcurrent := (hsupports.2 hmem).2 hgone
          rcases hbehind with ⟨_, hnot⟩ | ⟨hnone, _⟩
          · exact absurd hcurrent hnot
          · exact absurd hmem hnone
      · exact keeps_renameTemp hrenamed hnamed hsupports htemp
  | removeVm id =>
      have hidle : phase = .idle := hallowed
      subst hidle
      cases response with
      | none =>
          have hunchanged := (exec_removeVm hexec).2
          exact keeps_of_sameView hunchanged hnamed trivial
            fun _ _ hpending => hpending
      | some handle => exact keeps_removeVm hnamed hexec
  | deleteState vmId =>
      have hremoving : phase = .removing vmId := hallowed
      subst hremoving
      have hdone : outcome.done = true := hfile
      apply keeps_deleteState _ hnamed hsupports
      · intro rival hrival
        simpa [savesApart] using hrival
      · cases hexec
        simp only [hdone, if_true]
        rfl
  | insertVm id handle => exact hallowed.elim
  | unlockVms =>
      cases hexec
      exact keeps_of_sameView rfl hnamed hsupports fun _ _ h => h
  | listRuleset purpose =>
      exact keeps_firewall hnamed hsupports hrules rfl (hview rfl)
  | runNft purpose commands =>
      exact keeps_firewall hnamed hsupports hrules rfl (hview rfl)
  | _ => exact keeps_of_sameView (hview rfl) hnamed hsupports fun _ _ h => h

end Actions

/-! ## Runs -/

/-- The files are those of the machines, and list their forwards. -/
structure FilesMatch (node : Node cfg) : Prop where
  files : ∀ name, name ∈ node.stateDir ↔
    ∃ id ∈ node.vms, name = stateFile id
  forwards : ∀ id persisted, id ∈ node.vms →
    node.stateDir.lookup (stateFile id) = some persisted →
      ∀ forward, forward ∈ persisted.portForwards ↔
        (∃ key, node.portForwards.lookup key = some forward) ∧
          forward.vmId = id

theorem filesMatch_iff (shared : Shared cfg) :
    FilesMatch shared.node ↔ shared.saveView.Named ∧
      ∀ id, ¬ shared.saveView.Behind id := by
  constructor
  · intro hmatch
    have hsaved : ∀ id ∈ shared.node.vms,
        stateFile id ∈ shared.node.stateDir := fun id hmem =>
      (hmatch.files _).mpr ⟨id, hmem, rfl⟩
    refine ⟨⟨?_, hsaved⟩, ?_⟩
    · intro name hname
      obtain ⟨id, _, heq⟩ := (hmatch.files name).mp hname
      exact ⟨id, heq⟩
    · rintro id (⟨hmem, hnot⟩ | ⟨hgone, hfile⟩)
      · obtain ⟨persisted, hlookup⟩ := Option.isSome_iff_exists.mp
          (AList.lookup_isSome.mpr (hsaved id hmem))
        exact hnot ⟨persisted, hlookup,
          hmatch.forwards id persisted hmem hlookup⟩
      · obtain ⟨owner, howner, heq⟩ := (hmatch.files _).mp hfile
        rw [stateFile_injective heq] at hgone
        exact hgone howner
  · rintro ⟨hnamed, hnone⟩
    constructor
    · intro name
      constructor
      · intro hname
        obtain ⟨id, heq⟩ := hnamed.names name hname
        refine ⟨id, ?_, heq⟩
        by_contra hgone
        rw [heq] at hname
        exact hnone id (.inr ⟨hgone, hname⟩)
      · rintro ⟨id, hmem, heq⟩
        rw [heq]
        exact hnamed.saved id hmem
    · intro id persisted hmem hlookup
      have hcurrent : shared.saveView.FileCurrent id := by
        by_contra hnot
        exact hnone id (.inl ⟨hmem, hnot⟩)
      obtain ⟨found, hfound, hforwards⟩ := hcurrent
      have hsame : found = persisted :=
        Option.some.inj (hfound.symm.trans hlookup)
      rw [← hsame]
      exact hforwards

def Event.updates : Event → Bool
  | .call made => made.updates
  | .advance _ _ => true
  | .unit _ _ => true
  | .crash _ => false

/-- File operations succeed, and so do the changes of the rules of machines
that exist. -/
def StepsSucceed : System cfg → Event → Prop :=
  EventMeets (saves cfg)
    (fun shared outcome phase action response =>
      (fileStepSucceeds outcome action &&
        rulesSucceed shared phase action response) = true)
    (fun _ _ _ _ _ _ => True) (fun _ _ => True)

/-- No call changes forwards or deletes a file under another call that is
saving them, and a call that failed takes back its own forward only. -/
def SavesApart : System cfg → Event → Prop :=
  EventMeets (saves cfg)
    (fun shared _ phase action response =>
      takesBack shared phase action response = true)
    (fun shared _ _ action response other =>
      savesApart shared action response other = true)
    (fun _ _ => True)

instance StepsSucceed.decidable (system : System cfg) (event : Event) :
    Decidable (StepsSucceed system event) :=
  EventMeets.decidable _ _ _ _ system event

instance SavesApart.decidable (system : System cfg) (event : Event) :
    Decidable (SavesApart system event) :=
  EventMeets.decidable _ _ _ _ system event

theorem step_keeps_fileOwners
    {system : System cfg} {event : Event}
    (hkept : system.Kept (saves cfg) (fileOwners cfg))
    (hupdates : event.updates = true)
    (hsucceed : StepsSucceed system event)
    (hapart : SavesApart system event) :
    (step system event).Kept (saves cfg) (fileOwners cfg) := by
  cases event with
  | call made =>
      exact hkept.call (program_saves cfg hupdates) trivial
        fun _ => trivial
  | advance index outcome =>
      have hmeets := Pool.Meets.and (EventMeets.meets hsucceed)
        (EventMeets.meets hapart)
      apply Pool.Kept.advance _ _ hkept hmeets
      · intro shared outcome phase action response reached _ hexec hcond
        obtain ⟨hsteps, _⟩ := hcond
        cases action with
        | writeTemp vmId persisted =>
            rw [Bool.and_eq_true] at hsteps
            have hdone : outcome.done = true := hsteps.1
            have hresult : shared.writeTemp outcome.done vmId persisted =
                (response, reached) := Option.some.inj hexec
            rw [hdone] at hresult
            cases hresult
            rfl
        | _ => trivial
      · intro shared outcome phase action response reached hnamed
          hsupports hallowed hexec hcond
        obtain ⟨hsteps, hback⟩ := hcond
        rw [Bool.and_eq_true] at hsteps
        exact exec_keeps_fileOwners hnamed hsupports hallowed hexec
          hsteps.1 hsteps.2 hback
  | unit changed state =>
      refine ⟨hkept.follows, ?_⟩
      rw [step, Shared.evolveUnit_eq]
      exact hkept.hold.environment hkept.hold.globally (fun _ h => h)
        (fun _ h => h) (fun _ _ h => h)
  | crash calls => cases hupdates

/-- When every call has returned, no file is behind. -/
theorem filesMatch_of_quiet
    {system : System cfg}
    (hkept : system.Kept (saves cfg) (fileOwners cfg))
    (hquiet : system.Quiet) : FilesMatch system.shared.node := by
  rw [filesMatch_iff]
  refine ⟨hkept.hold.globally, ?_⟩
  intro id hbehind
  obtain ⟨phase, hphase, hpending⟩ := hkept.hold.covered id hbehind
  obtain ⟨task, htask, hghost⟩ := List.mem_map.mp hphase
  obtain ⟨reply, hreply⟩ := Option.isSome_iff_exists.mp (hquiet task htask)
  have hreturns := Task.returns_of_result (hkept.follows task htask) hreply
  rw [hghost] at hreturns
  rcases hreturns with hidle | ⟨failed, hfailing⟩
  · rw [hidle] at hpending
    exact hpending
  · rw [hfailing] at hpending
    exact hpending

/-- Calls that add and remove forwards and delete machines run at the same
time, from a state whose files match.  When all have returned the files match
again, if no save of one call meets a change by another. -/
theorem files_match_after_updates
    (cfg : NodeConfig) (shared : Shared cfg) (events : List Event)
    (hmatch : FilesMatch shared.node)
    (hupdates : ∀ event ∈ events, event.updates = true)
    (hsucceed : Along step StepsSucceed (⟨shared, []⟩ : System cfg) events)
    (hapart : Along step SavesApart (⟨shared, []⟩ : System cfg) events)
    (hquiet : (run step (⟨shared, []⟩ : System cfg) events).Quiet) :
    FilesMatch
      (run step (⟨shared, []⟩ : System cfg) events).shared.node := by
  apply filesMatch_of_quiet _ hquiet
  have hstart : Pool.Kept (saves cfg) (fileOwners cfg)
      (⟨shared, []⟩ : System cfg) := by
    obtain ⟨hnamed, hnone⟩ := (filesMatch_iff shared).mp hmatch
    exact Pool.Kept.empty hnamed hnone
  apply run_invariant_of_along _ hstart
    (along_and (along_of_forall hupdates _) (along_and hsucceed hapart))
  intro system event hkept hevent
  exact step_keeps_fileOwners hkept hevent.1 hevent.2.1 hevent.2.2

/-- One machine has been created. -/
def oneMachine : Shared smallHost :=
  (run step (idle smallNode noUnits)
    (.call (.createVm (smallConfig "vm-a" .none) none none) ::
      advances 0 14)).shared

theorem oneMachine_filesMatch : FilesMatch oneMachine.node := by
  have hvms : oneMachine.node.vms.keys = ["vm-a"] := by
    decide +kernel
  have hfiles : oneMachine.node.stateDir.keys = [stateFile "vm-a"] := by
    decide +kernel
  have hsaved : ∀ entry ∈ oneMachine.node.stateDir.entries,
      entry.2.portForwards = [] := by
    decide +kernel
  have hforwards : oneMachine.node.portForwards = ∅ := by
    apply AList.ext
    decide +kernel
  constructor
  · intro name
    rw [AList.mem_keys, hfiles, List.mem_singleton]
    constructor
    · intro hname
      refine ⟨"vm-a", ?_, hname⟩
      rw [AList.mem_keys, hvms]
      exact List.mem_cons_self
    · rintro ⟨id, hmem, hname⟩
      rw [AList.mem_keys, hvms, List.mem_singleton] at hmem
      rw [hname, hmem]
  · intro id persisted _ hlookup forward
    have hempty := hsaved _ (AList.mem_lookup_iff.mp hlookup)
    rw [hempty, hforwards]
    simp

/-- Two forwards are added at the same time; each call lists the forwards
when no other one is saving. -/
def twoForwardsRun : List Event :=
  .call (.addPortForward "vm-a" 8080 80 .tcp) ::
  .call (.addPortForward "vm-a" 8443 443 .tcp) ::
    (advances 0 5 ++ advances 1 5 ++ advances 0 3 ++ advances 1 3)

theorem files_match_after_two_forwards :
    FilesMatch (run step (⟨oneMachine, []⟩ : System smallHost)
      twoForwardsRun).shared.node := by
  apply files_match_after_updates
  · exact oneMachine_filesMatch
  · decide +kernel
  · decide +kernel
  · decide +kernel
  · decide +kernel

/-- A forward is added up to the point where the file has been read, the
machine is deleted, and the file is written again. -/
def resurrectingRun : List Event :=
  .call (.addPortForward "vm-a" 8080 80 .tcp) :: advances 0 5 ++
  .call (.deleteVm "vm-a") :: advances 1 14 ++ advances 0 3

theorem deleted_file_written_again :
    ¬ ∀ events : List Event, (∀ event ∈ events, event.updates = true) →
      Along step StepsSucceed (⟨oneMachine, []⟩ : System smallHost)
        events →
      (run step (⟨oneMachine, []⟩ : System smallHost) events).Quiet →
        FilesMatch (run step (⟨oneMachine, []⟩ : System smallHost)
          events).shared.node := by
  intro hmatch
  have hfinal := hmatch resurrectingRun (by decide +kernel)
    (by decide +kernel) (by decide +kernel)
  obtain ⟨id, hmem, _⟩ := (hfinal.files (stateFile "vm-a")).mp
    (by decide +kernel)
  have hnone : (run step (⟨oneMachine, []⟩ : System smallHost)
      resurrectingRun).shared.node.vms.keys = [] := by
    decide +kernel
  rw [AList.mem_keys, hnone] at hmem
  cases hmem

end AlephCvm.Vm.Concurrent
