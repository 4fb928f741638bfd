import AlephCvm.VmPrograms
import AlephCvm.VmRecovery

/-!
# The unit of a deleted machine

`delete_vm` stops the unit of a machine only if the handle has a process, and
ignores a failed stop.  The handle gets its process when the machine is
created or when the recovery finds the unit active; a unit that waits for its
restart at that moment is found inactive and is started by systemd later.

The manager and systemd are two state machines that meet in three actions:
the start of a unit, the stop of a unit, and the first section of a deletion,
where the process of the handle decides whether there will be a stop.  While
a deletion holds the lock no other call can register a machine, so the unit
of the machine is dead from the stop to the end of the deletion unless a
creation of the same machine has started it again and is still waiting.
-/

namespace AlephCvm.Vm.Concurrent

open ResultContext StepRuns TableFolds AtomicPrograms AlephCvm.Tee
open AlephCvm.Numa AlephCvm.Net AlephCvm.Nft AlephCvm.Qemu

/-! ## The protocol -/

inductive StopPhase where
  | idle
  | launching (id : String)
  | stopping (id : String)
  | dead (id : String)
  | deleted (id : String)
  deriving DecidableEq, Repr

structure Stopping where
  call : Call
  phase : StopPhase

def StopPhase.next (phase : StopPhase) (action : Action)
    (response : Response action) : StopPhase :=
  match action, response with
  | .startUnit vmId _, .ok () => .launching vmId
  | .insertVm _ _, _ => .idle
  | .removeVm id, some handle =>
      if handle.process.isSome then .stopping id else .dead id
  | .stopUnit vmId, _ => .dead vmId
  | .unlockVms, _ =>
      match phase with
      | .dead id => .deleted id
      | other => other
  | _, _ => phase

/-- The process of a handle runs in the unit of its machine. -/
def VmHandle.OwnProcess (id : String) (handle : VmHandle) : Prop :=
  ∀ process, handle.process = some process → process.vmId = id

def Call.Creates (call : Call) (id : String) : Prop :=
  match call with
  | .createVm config _ _ => config.vmId = id
  | _ => False

instance Call.Creates.decidable (call : Call) (id : String) :
    Decidable (call.Creates id) :=
  match call with
  | .createVm config _ _ => inferInstanceAs (Decidable (config.vmId = id))
  | .deleteVm _ => .isFalse nofun
  | .addPortForward _ _ _ _ => .isFalse nofun
  | .removePortForward _ _ => .isFalse nofun

/-- A unit is started by a creation of its machine only, and stopped by a
deletion that has found a process. -/
def stops : Protocol Call Action Response Reply Stopping where
  start := fun call => ⟨call, .idle⟩
  next := fun stopping action response =>
    { stopping with phase := stopping.phase.next action response }
  allowed := fun stopping action =>
    match action with
    | .startUnit vmId _ =>
        stopping.phase = .idle ∧ stopping.call.Creates vmId
    | .insertVm id handle =>
        stopping.phase = .launching id ∧ VmHandle.OwnProcess id handle
    | .removeVm id =>
        stopping.phase = .idle ∧ stopping.call = .deleteVm id
    | .stopUnit vmId => stopping.phase = .stopping vmId
    | .unlockVms => ∃ id, stopping.phase = .dead id
    | _ => ∀ id, stopping.phase ≠ .deleted id
  admits := fun action response =>
    match action, response with
    | .removeVm id, some handle => VmHandle.OwnProcess id handle
    | _, _ => True
  returns := fun stopping reply =>
    (∀ id, stopping.phase ≠ .launching id) ∧
      ∀ id, stopping.call = .deleteVm id → reply = .deleted (.ok ()) →
        stopping.phase = .deleted id

theorem stops_neutral {stopping : Stopping}
    (hlive : ∀ id, stopping.phase ≠ .deleted id) :
    stops.Neutral
      (fun action => [Resource.units, .machines].contains
        action.resource = false) stopping := by
  intro action hother
  cases action with
  | startUnit vmId command => cases hother
  | stopUnit vmId => cases hother
  | removeVm id => cases hother
  | insertVm id handle => cases hother
  | unlockVms => cases hother
  | _ => exact ⟨hlive, fun _ _ => rfl⟩

theorem launchVm_stops
    (cfg : NodeConfig) {call : Call} {launch : Launch}
    (hcreates : call.Creates launch.config.vmId) (vmIp : Ipv4Addr)
    (macAddr : String) (vmIpv6 : Option Ipv6Net) :
    (launchVm cfg launch vmIp macAddr vmIpv6).Follows stops
      (fun reached _ => reached = ⟨call, .idle⟩) ⟨call, .idle⟩ := by
  unfold launchVm
  refine Program.follows_action_bind.mpr
    ⟨⟨rfl, hcreates⟩, fun started _ => ?_⟩
  cases started with
  | error message =>
      exact Uses.skip (undoLaunch_uses cfg launch _ vmIpv6)
        (stops_neutral nofun) rfl fun _ _ => rfl
  | ok done =>
      refine Program.follows_action_bind.mpr ⟨nofun, fun now _ => ?_⟩
      refine Uses.skip (saveVm_uses _ _) (stops_neutral nofun) rfl
        fun _ _ => ?_
      refine Program.follows_action_bind.mpr ⟨nofun, fun current _ => ?_⟩
      refine Program.follows_action_bind.mpr ⟨⟨rfl, ?_⟩, fun _ _ => rfl⟩
      intro process hprocess
      rw [createdHandle, Option.some.injEq] at hprocess
      rw [← hprocess]

theorem createVm_stops
    (cfg : NodeConfig) (config : VmConfig)
    (requestedIpv6 : Option Ipv6Net) (numaHint : Option UInt32) :
    (createVm cfg config requestedIpv6 numaHint).Follows stops
      (fun reached _ => reached =
        ⟨.createVm config requestedIpv6 numaHint, .idle⟩)
      ⟨.createVm config requestedIpv6 numaHint, .idle⟩ := by
  apply createVm_follows cfg [.units, .machines]
    fun _ => ⟨.createVm config requestedIpv6 numaHint, .idle⟩
  · exact ⟨nofun, fun _ _ => rfl⟩
  · nofun
  · rfl
  · exact fun _ => rfl
  · exact fun _ => stops_neutral nofun
  · rfl
  · exact fun _ => rfl
  · exact fun _ _ => rfl
  · intro offset launch macAddr vmIpv6 hvmId
    have hcreates : (Call.createVm config requestedIpv6
        numaHint).Creates launch.config.vmId := hvmId.symm
    exact launchVm_stops cfg hcreates _ macAddr vmIpv6

theorem deleteVm_stops (cfg : NodeConfig) (id : String) :
    (deleteVm cfg id).Follows stops
      (fun reached result => reached.call = .deleteVm id ∧
        (∀ other, reached.phase ≠ .launching other) ∧
        (result = .ok () → reached.phase = .deleted id))
      ⟨.deleteVm id, .idle⟩ := by
  unfold deleteVm
  refine Program.follows_action_bind.mpr ⟨⟨rfl, rfl⟩, fun found hown => ?_⟩
  cases found with
  | none => exact ⟨rfl, nofun, nofun⟩
  | some handle =>
      refine Program.follows_bind.mpr ?_
      unfold deleteHandle
      have hstop : (stopProcess handle.process).Follows stops
          (fun reached _ => reached = ⟨.deleteVm id, .dead id⟩)
          ⟨.deleteVm id, if handle.process.isSome then .stopping id
            else .dead id⟩ := by
        cases hprocess : handle.process with
        | none => rfl
        | some process =>
            have hid : process.vmId = id := hown process hprocess
            subst hid
            exact ⟨rfl, fun _ _ => rfl⟩
      refine Program.follows_bind.mpr (hstop.mono ?_)
      intro reached _ hreached
      subst hreached
      refine Uses.skip (releaseNuma_uses _) (stops_neutral nofun) rfl
        fun _ _ => ?_
      refine Program.follows_action_bind.mpr ⟨nofun, fun removed _ => ?_⟩
      refine Uses.skip (removeForwardRules_uses cfg 0 removed)
        (stops_neutral nofun) rfl fun _ _ => ?_
      refine Uses.skip (dropIpv6_uses cfg id handle) (stops_neutral nofun)
        rfl fun _ _ => ?_
      refine Uses.skip (teardownVm_uses cfg id) (stops_neutral nofun) rfl
        fun _ _ => ?_
      refine Program.follows_action_bind.mpr ⟨nofun, fun _ _ => ?_⟩
      refine Uses.skip (removeReservations_uses cfg _ _)
        (stops_neutral nofun) rfl fun _ _ => ?_
      refine Program.follows_action_bind.mpr ⟨nofun, fun _ _ => ?_⟩
      refine Program.follows_action_bind.mpr ⟨nofun, fun _ _ => ?_⟩
      exact ⟨⟨id, rfl⟩, fun _ _ => ⟨rfl, nofun, fun _ => rfl⟩⟩

theorem program_stops (cfg : NodeConfig) (call : Call) :
    (program cfg call).Follows stops stops.returns (stops.start call) := by
  cases call with
  | createVm config requestedIpv6 numaHint =>
      refine Program.follows_bind.mpr
        ((createVm_stops cfg config requestedIpv6 numaHint).mono ?_)
      intro reached result hreached
      subst hreached
      exact ⟨nofun, nofun⟩
  | deleteVm id =>
      refine Program.follows_bind.mpr ((deleteVm_stops cfg id).mono ?_)
      intro reached result hreached
      obtain ⟨hcall, hlaunching, hdeleted⟩ := hreached
      refine ⟨hlaunching, ?_⟩
      intro other hother hreply
      rw [hcall, Call.deleteVm.injEq] at hother
      rw [← hother]
      exact hdeleted (Reply.deleted.inj hreply)
  | addPortForward vmId hostPort vmPort protocol =>
      exact Uses.skip
        (addPortForward_uses cfg vmId hostPort vmPort protocol)
        (stops_neutral nofun) rfl fun _ _ => ⟨nofun, nofun⟩
  | removePortForward hostPort protocol =>
      exact Uses.skip (removePortForward_uses cfg hostPort protocol)
        (stops_neutral nofun) rfl fun _ _ => ⟨nofun, nofun⟩

/-! ## Processes and units -/

variable {cfg : NodeConfig}

/-- Handles hold the process of their own unit, and units are launched by
creations of their machine. -/
def processOwners (cfg : NodeConfig) :
    Assertions (Shared cfg) Stopping Unit where
  globally := fun shared => ∀ id handle,
    shared.node.vms.lookup id = some handle → VmHandle.OwnProcess id handle
  locally := fun _ stopping => ∀ id, stopping.phase = .launching id →
    stopping.call.Creates id
  apart := fun _ _ => True
  needs := fun _ _ => False
  holds := fun _ _ _ => False
  apart_symm := fun _ => trivial

/-- A step for which the machines and the phase of the call are enough. -/
theorem keeps_processOwners
    {guard : Stopping → Prop} {shared reached : Shared cfg}
    {stopping after : Stopping}
    (hglobally : (processOwners cfg).globally reached)
    (hlocally : (processOwners cfg).locally reached after) :
    (processOwners cfg).Keeps guard shared stopping reached after where
  globally := hglobally
  locally := hlocally
  others := fun _ _ hother _ => ⟨hother, trivial⟩
  demand := fun _ hneeds => hneeds.elim
  held := fun _ _ _ _ _ hneeds => hneeds.elim

theorem exec_keeps_processOwners
    {guard : Stopping → Prop} {outcome : Outcome} {action : Action}
    {shared reached : Shared cfg} {stopping : Stopping}
    {response : Response action}
    (hown : (processOwners cfg).globally shared)
    (hlocally : (processOwners cfg).locally shared stopping)
    (hallowed : stops.allowed stopping action)
    (hexec : exec outcome action shared = some (response, reached)) :
    (processOwners cfg).Keeps guard shared stopping reached
      (stops.next stopping action response) := by
  have hsame := exec_sameExcept hexec
  cases action with
  | startUnit vmId command =>
      apply keeps_processOwners
      · intro id handle
        rw [hsame.vms nofun]
        exact hown id handle
      · intro id hlaunching
        cases response with
        | error message => exact hlocally id hlaunching
        | ok done =>
            cases hlaunching
            exact hallowed.2
  | stopUnit vmId =>
      apply keeps_processOwners
      · intro id handle
        rw [hsame.vms nofun]
        exact hown id handle
      · intro id hlaunching
        cases hlaunching
  | removeVm id =>
      cases exec_removeVm_effect hexec with
      | missing hmissing => exact keeps_processOwners hown hlocally
      | removed handle hlookup =>
          apply keeps_processOwners
          · intro other found hfound
            exact hown other found (lookup_erase_iff.mp hfound).2
          · intro other hlaunching
            simp only [stops, StopPhase.next] at hlaunching
            split at hlaunching
            · cases hlaunching
            · cases hlaunching
  | insertVm id handle =>
      cases (unlessLocked_eq_some.mp hexec).2
      apply keeps_processOwners
      · intro other found hfound
        rcases lookup_insert_iff.mp hfound with ⟨hid, hnew⟩ | ⟨_, hold⟩
        · rw [hid, hnew]
          exact hallowed.2
        · exact hown other found hold
      · intro other hlaunching
        cases hlaunching
  | unlockVms =>
      cases hexec
      obtain ⟨id, hphase⟩ := hallowed
      refine keeps_processOwners hown ?_
      intro other hlaunching
      simp only [stops, StopPhase.next, hphase] at hlaunching
      cases hlaunching
  | _ =>
      refine keeps_processOwners ?_ hlocally
      intro id handle
      rw [hsame.vms nofun]
      exact hown id handle

theorem admits_of_processes
    {outcome : Outcome} {action : Action} {shared reached : Shared cfg}
    {response : Response action}
    (hown : (processOwners cfg).globally shared)
    (hexec : exec outcome action shared = some (response, reached)) :
    stops.admits action response := by
  cases action with
  | removeVm id =>
      cases exec_removeVm_effect hexec with
      | missing hmissing => trivial
      | removed handle hlookup => exact hown id handle hlookup
  | _ => trivial

theorem restart_processes
    (node : Node cfg) (calls : RestartCalls) :
    ∀ id handle, (node.restart calls).vms.lookup id = some handle →
      VmHandle.OwnProcess id handle := by
  rw [Node.restart_eq, recoverVms_vms]
  apply forall_lookup_insertAll
  · intro id handle hlookup
    rw [Node.fresh, AList.lookup_empty] at hlookup
    cases hlookup
  · intro persisted _ process hprocess
    simp only [recoveredHandle] at hprocess
    split at hprocess
    · cases hprocess
      rfl
    · cases hprocess

theorem step_keeps_processOwners
    {system : System cfg} (event : Event)
    (hkept : system.Kept stops (processOwners cfg)) :
    (step system event).Kept stops (processOwners cfg) := by
  cases event with
  | call call =>
      apply hkept.call (program_stops cfg call)
      · intro id hlaunching
        cases hlaunching
      · exact fun _ => trivial
  | advance index outcome =>
      have hmeets : system.Meets exec stops (fun _ _ _ _ _ => True)
          (fun _ _ _ _ _ _ => True) index outcome :=
        fun _ _ => ⟨trivial, fun _ _ => trivial⟩
      apply Pool.Kept.advance _ _ hkept hmeets
      · intro shared outcome stopping action response reached hown hexec _
        exact admits_of_processes hown hexec
      · intro shared outcome stopping action response reached hown hlocally
          hallowed hexec _
        exact exec_keeps_processOwners hown hlocally hallowed hexec
  | unit id state =>
      refine ⟨hkept.follows, ?_⟩
      rw [step, Shared.evolveUnit_eq]
      exact hkept.hold.environment hkept.hold.globally (fun _ h => h)
        (fun _ h => h) (fun _ _ h => h)
  | crash calls =>
      have hown : (processOwners cfg).globally
          (system.shared.restart calls) :=
        restart_processes system.shared.node
          (system.shared.restartCalls calls)
      exact Pool.Kept.empty hown fun _ hneeds => hneeds

/-! ## The invariant -/

/-- The call is a deletion that holds the lock. -/
def Stopping.Holding (stopping : Stopping) : Prop :=
  (∃ id, stopping.phase = .stopping id) ∨ ∃ id, stopping.phase = .dead id

structure StopInvariant (shared : Shared cfg) (calls : List Stopping) :
    Prop where
  locked : ∀ stopping ∈ calls, stopping.Holding → shared.vmsLocked = true
  single : calls.Pairwise fun stopping other =>
    ¬ (stopping.Holding ∧ other.Holding)
  dead : ∀ stopping ∈ calls, ∀ id, stopping.phase = .dead id →
    shared.units id = .inactive ∨
      ∃ other ∈ calls, other.phase = .launching id

theorem StopInvariant.perm
    {shared : Shared cfg} {calls reordered : List Stopping}
    (hperm : calls.Perm reordered) (hinv : StopInvariant shared calls) :
    StopInvariant shared reordered where
  locked := fun stopping hmem =>
    hinv.locked stopping (hperm.mem_iff.mpr hmem)
  single := hperm.pairwise hinv.single fun hnot hboth =>
    hnot ⟨hboth.2, hboth.1⟩
  dead := by
    intro stopping hmem id hdead
    rcases hinv.dead stopping (hperm.mem_iff.mpr hmem) id hdead with
      hunit | ⟨other, hother, hlaunching⟩
    · exact .inl hunit
    · exact .inr ⟨other, hperm.mem_iff.mp hother, hlaunching⟩

theorem stopInvariant_nil (shared : Shared cfg) :
    StopInvariant shared [] where
  locked := fun _ hmem => absurd hmem List.not_mem_nil
  single := List.Pairwise.nil
  dead := fun _ hmem => absurd hmem List.not_mem_nil

/-- An action that keeps the phase of its call and leaves the lock and the
units alone. -/
theorem StopInvariant.same
    {shared reached : Shared cfg} {stopping : Stopping}
    {rest : List Stopping} (hinv : StopInvariant shared (stopping :: rest))
    (hlocked : reached.vmsLocked = shared.vmsLocked)
    (hunits : reached.units = shared.units) :
    StopInvariant reached (stopping :: rest) where
  locked := hlocked ▸ hinv.locked
  single := hinv.single
  dead := hunits ▸ hinv.dead

/-- A call that has just begun. -/
theorem StopInvariant.cons_idle
    {shared : Shared cfg} {calls : List Stopping} {stopping : Stopping}
    (hinv : StopInvariant shared calls) (hidle : stopping.phase = .idle) :
    StopInvariant shared (stopping :: calls) := by
  have hnot : ¬ stopping.Holding := by
    intro hholding
    rcases hholding with ⟨id, hphase⟩ | ⟨id, hphase⟩
    · rw [hidle] at hphase
      cases hphase
    · rw [hidle] at hphase
      cases hphase
  constructor
  · intro other hmem hholding
    rcases List.mem_cons.mp hmem with heq | hrest
    · exact absurd (heq ▸ hholding) hnot
    · exact hinv.locked other hrest hholding
  · exact List.pairwise_cons.mpr
      ⟨fun _ _ hboth => hnot hboth.1, hinv.single⟩
  · intro other hmem id hdead
    rcases List.mem_cons.mp hmem with heq | hrest
    · rw [heq, hidle] at hdead
      cases hdead
    · rcases hinv.dead other hrest id hdead with
        hunit | ⟨found, hfound, hlaunching⟩
      · exact .inl hunit
      · exact .inr ⟨found, List.mem_cons_of_mem _ hfound, hlaunching⟩

theorem StopInvariant.idle_of_unlocked
    {shared : Shared cfg} {stopping : Stopping} {rest : List Stopping}
    (hinv : StopInvariant shared (stopping :: rest))
    (hunlocked : shared.vmsLocked = false) :
    ∀ other ∈ rest, ¬ other.Holding := by
  intro other hother hholding
  have hlocked := hinv.locked other (List.mem_cons_of_mem _ hother) hholding
  rw [hunlocked] at hlocked
  cases hlocked

theorem StopInvariant.idle_of_holding
    {shared : Shared cfg} {stopping : Stopping} {rest : List Stopping}
    (hinv : StopInvariant shared (stopping :: rest))
    (hholding : stopping.Holding) : ∀ other ∈ rest, ¬ other.Holding := by
  intro other hother hboth
  exact (List.pairwise_cons.mp hinv.single).1 other hother
    ⟨hholding, hboth⟩

/-- When no other call holds the lock, only the acting call matters. -/
theorem stopInvariant_of_idle
    {reached : Shared cfg} {after : Stopping} {rest : List Stopping}
    (hidle : ∀ other ∈ rest, ¬ other.Holding)
    (hlocked : after.Holding → reached.vmsLocked = true)
    (hdead : ∀ id, after.phase = .dead id →
      reached.units id = .inactive) :
    StopInvariant reached (after :: rest) where
  locked := by
    intro stopping hmem hholding
    rcases List.mem_cons.mp hmem with heq | hrest
    · exact hlocked (heq ▸ hholding)
    · exact absurd hholding (hidle stopping hrest)
  single := by
    rw [List.pairwise_cons]
    constructor
    · intro other hother hboth
      exact hidle other hother hboth.2
    · apply List.pairwise_of_forall_mem_list
      intro first hfirst second _ hboth
      exact hidle first hfirst hboth.1
  dead := by
    intro stopping hmem id hphase
    rcases List.mem_cons.mp hmem with heq | hrest
    · exact .inl (hdead id (heq ▸ hphase))
    · exact absurd (.inr ⟨id, hphase⟩) (hidle stopping hrest)

/-- A started unit is dead for no other call, or the acting call is about to
register it. -/
theorem StopInvariant.startUnit
    {shared : Shared cfg} {stopping : Stopping} {rest : List Stopping}
    {vmId : String} (hinv : StopInvariant shared (stopping :: rest))
    (hidle : stopping.phase = .idle) :
    StopInvariant
      { shared with units := setUnit shared.units vmId .active }
      ({ stopping with phase := .launching vmId } :: rest) where
  locked := by
    intro other hmem hholding
    rcases List.mem_cons.mp hmem with heq | hrest
    · rcases hholding with ⟨id, hphase⟩ | ⟨id, hphase⟩
      · rw [heq] at hphase
        cases hphase
      · rw [heq] at hphase
        cases hphase
    · exact hinv.locked other (List.mem_cons_of_mem _ hrest) hholding
  single := by
    rw [List.pairwise_cons]
    refine ⟨?_, (List.pairwise_cons.mp hinv.single).2⟩
    intro other _ hboth
    rcases hboth.1 with ⟨id, hphase⟩ | ⟨id, hphase⟩
    · cases hphase
    · cases hphase
  dead := by
    intro other hmem id hphase
    rcases List.mem_cons.mp hmem with heq | hrest
    · rw [heq] at hphase
      cases hphase
    · by_cases hid : id = vmId
      · exact .inr ⟨_, List.mem_cons_self, congrArg _ hid.symm⟩
      · rcases hinv.dead other (List.mem_cons_of_mem _ hrest) id hphase
          with hunit | ⟨found, hfound, hlaunching⟩
        · left
          simp only [setUnit, if_neg hid]
          exact hunit
        · right
          rcases List.mem_cons.mp hfound with heq | hother
          · rw [heq, hidle] at hlaunching
            cases hlaunching
          · exact ⟨found, List.mem_cons_of_mem _ hother, hlaunching⟩

/-! ## One action -/

/-- The unit of a machine that is removed without a process is dead, and a
stop succeeds or finds the unit dead. -/
def stopsUnit (shared : Shared cfg) (outcome : Outcome) (action : Action)
    (response : Response action) : Bool :=
  match action, response with
  | .removeVm id, some handle =>
      handle.process.isSome || shared.units id == .inactive
  | .stopUnit vmId, _ =>
      outcome.command.isOk || shared.units vmId == .inactive
  | _, _ => true

theorem stopUnit_inactive
    {shared : Shared cfg} {outcome : Outcome} {vmId : String}
    (hstops : outcome.command.isOk = true ∨
      shared.units vmId = .inactive) :
    (shared.stopUnit outcome.command vmId).units vmId = .inactive := by
  unfold Shared.stopUnit
  cases hcommand : outcome.command with
  | error message =>
      rw [hcommand] at hstops
      rcases hstops with hok | hdead
      · cases hok
      · exact hdead
  | ok done => simp [setUnit]

theorem exec_stopInvariant
    {outcome : Outcome} {action : Action} {shared reached : Shared cfg}
    {stopping : Stopping} {rest : List Stopping}
    {response : Response action}
    (hinv : StopInvariant shared (stopping :: rest))
    (hallowed : stops.allowed stopping action)
    (hexec : exec outcome action shared = some (response, reached))
    (hstops : stopsUnit shared outcome action response = true) :
    StopInvariant reached
      (stops.next stopping action response :: rest) := by
  have hsame := exec_sameExcept hexec
  cases action with
  | startUnit vmId command =>
      cases exec_startUnit_effect hexec with
      | failed message => exact hinv
      | started hinactive => exact hinv.startUnit hallowed.1
  | stopUnit vmId =>
      have hresult : shared.stopUnit outcome.command vmId = reached :=
        congrArg Prod.snd (Option.some.inj hexec)
      subst hresult
      have hphase : stopping.phase = .stopping vmId := hallowed
      have hholding : stopping.Holding := .inl ⟨vmId, hphase⟩
      apply stopInvariant_of_idle (hinv.idle_of_holding hholding)
      · intro _
        rw [hsame.vmsLocked nofun]
        exact hinv.locked stopping List.mem_cons_self hholding
      · intro id hdead
        cases hdead
        exact stopUnit_inactive (by simpa [stopsUnit] using hstops)
  | removeVm id =>
      have hunlocked := (unlessLocked_eq_some.mp hexec).1
      cases exec_removeVm_effect hexec with
      | missing hmissing => exact hinv
      | removed handle hlookup =>
          apply stopInvariant_of_idle (hinv.idle_of_unlocked hunlocked)
          · exact fun _ => rfl
          · intro other hdead
            simp only [stops, StopPhase.next] at hdead
            split at hdead
            · cases hdead
            · rename_i hprocess
              cases hdead
              simpa [stopsUnit, hprocess] using hstops
  | insertVm id handle =>
      obtain ⟨hunlocked, hresult⟩ := unlessLocked_eq_some.mp hexec
      cases hresult
      apply stopInvariant_of_idle (hinv.idle_of_unlocked hunlocked)
      · intro hholding
        rcases hholding with ⟨id, hphase⟩ | ⟨id, hphase⟩
        · cases hphase
        · cases hphase
      · intro other hdead
        cases hdead
  | unlockVms =>
      cases hexec
      obtain ⟨id, hphase⟩ := hallowed
      have hholding : stopping.Holding := .inr ⟨id, hphase⟩
      apply stopInvariant_of_idle (hinv.idle_of_holding hholding)
      · intro hafter
        simp only [stops, StopPhase.next, hphase] at hafter
        rcases hafter with ⟨id, hphase⟩ | ⟨id, hphase⟩
        · cases hphase
        · cases hphase
      · intro other hdead
        simp only [stops, StopPhase.next, hphase] at hdead
        cases hdead
  | _ =>
      exact hinv.same (hsame.vmsLocked nofun) (hsame.units nofun)

/-! ## Runs up to the end of a deletion -/

/-- Deletions find a process to stop, or a dead unit, and their stops
succeed. -/
def UnitsStopped : System cfg → Event → Prop :=
  EventMeets stops
    (fun shared outcome _ action response =>
      stopsUnit shared outcome action response = true)
    (fun _ _ _ _ _ _ => True) (fun _ _ => True)

instance UnitsStopped.decidable (system : System cfg) (event : Event) :
    Decidable (UnitsStopped system event) :=
  EventMeets.decidable _ _ _ _ system event

structure StopsKept (system : System cfg) : Prop where
  kept : system.Kept stops (processOwners cfg)
  invariant : StopInvariant system.shared (system.ghosts stops)

theorem step_stopsKept
    {system : System cfg} {event : Event} (hkept : StopsKept system)
    (hstopped : UnitsStopped system event) :
    StopsKept (step system event) := by
  refine ⟨step_keeps_processOwners event hkept.kept, ?_⟩
  cases event with
  | call call =>
      rw [step, Pool.call_ghosts]
      exact (hkept.invariant.cons_idle rfl).perm
        (List.perm_append_singleton _ _).symm
  | advance index outcome =>
      have hinv := Pool.advance_invariant
        (fun shared calls => (processOwners cfg).Hold shared calls ∧
          StopInvariant shared calls)
        (fun hperm hboth => ⟨hboth.1.perm hperm, hboth.2.perm hperm⟩)
        (fun hboth hexec _ => admits_of_processes hboth.1.globally hexec)
        (by
          intro shared outcome stopping rest action response reached hboth
            hallowed hexec hcond hguard
          refine ⟨hboth.1.step hguard ?_,
            exec_stopInvariant hboth.2 hallowed hexec hcond⟩
          exact exec_keeps_processOwners hboth.1.globally
            (hboth.1.locally stopping List.mem_cons_self) hallowed hexec)
        hkept.kept.follows ⟨hkept.kept.hold, hkept.invariant⟩
        (EventMeets.meets hstopped)
      exact hinv.2.2
  | unit id state =>
      rw [step, Shared.evolveUnit_eq]
      refine ⟨hkept.invariant.locked, hkept.invariant.single, ?_⟩
      intro stopping hmem other hdead
      rcases hkept.invariant.dead stopping hmem other hdead with
        hunit | hlaunching
      · exact .inl (Shared.evolveUnit_inactive hunit id state)
      · exact .inr hlaunching
  | crash calls => exact stopInvariant_nil _

theorem ghost_call (task : VmTask) : (task.ghost stops).call = task.call := by
  unfold Task.ghost
  have hfold : ∀ (entries : List (Σ action, Response action))
      (stopping : Stopping),
      (entries.foldl (fun stopping entry =>
        stops.next stopping entry.1 entry.2) stopping).call =
        stopping.call := by
    intro entries
    induction entries with
    | nil => exact fun _ => rfl
    | cons entry rest ih => exact fun stopping => ih _
  exact hfold task.past (stops.start task.call)

/-- The call has the number, deletes the machine and has returned `Ok`. -/
def deletionReturned (system : System cfg) (index : ℕ) (id : String) :
    Bool :=
  match system.tasks[index]? with
  | none => false
  | some task =>
      match task.result with
      | some (.deleted (.ok ())) => decide (task.call = .deleteVm id)
      | _ => false

theorem deletionReturned_eq_true
    {system : System cfg} {index : ℕ} {id : String}
    (hreturned : deletionReturned system index id = true) :
    ∃ task, system.tasks[index]? = some task ∧
      task.result = some (.deleted (.ok ())) ∧
        task.call = .deleteVm id := by
  unfold deletionReturned at hreturned
  split at hreturned
  · cases hreturned
  · rename_i task htask
    split at hreturned
    · rename_i hresult
      exact ⟨task, htask, hresult, of_decide_eq_true hreturned⟩
    · cases hreturned

/-- Only the last action of a deletion leads to its last phase. -/
theorem dead_of_next_deleted
    {stopping : Stopping} {action : Action} {response : Response action}
    {id : String} (hallowed : stops.allowed stopping action)
    (hnext : (stops.next stopping action response).phase = .deleted id) :
    action = .unlockVms ∧ stopping.phase = .dead id := by
  cases action with
  | startUnit vmId command =>
      cases response with
      | error message =>
          have hphase : stopping.phase = .deleted id := hnext
          rw [hallowed.1] at hphase
          cases hphase
      | ok done => cases hnext
  | insertVm vmId handle => cases hnext
  | removeVm vmId =>
      cases response with
      | none =>
          have hphase : stopping.phase = .deleted id := hnext
          rw [hallowed.1] at hphase
          cases hphase
      | some handle =>
          simp only [stops, StopPhase.next] at hnext
          split at hnext
          · cases hnext
          · cases hnext
  | stopUnit vmId => cases hnext
  | unlockVms =>
      obtain ⟨found, hphase⟩ := hallowed
      simp only [stops, StopPhase.next, hphase] at hnext
      cases hnext
      exact ⟨rfl, hphase⟩
  | _ => exact absurd hnext (hallowed id)

/-- The unit is dead when the deletion returns, unless a creation of the
machine is in flight. -/
theorem dead_when_deletion_returns
    {system : System cfg} {index : ℕ} {outcome : Outcome} {id : String}
    (hkept : StopsKept system)
    (hstopped : UnitsStopped system (.advance index outcome))
    (hbefore : deletionReturned system index id = false)
    (hafter : deletionReturned (step system (.advance index outcome)) index
      id = true)
    (hinflight : ∀ task ∈ (step system (.advance index outcome)).tasks,
      task.call.Creates id → task.result.isSome = true) :
    (step system (.advance index outcome)).shared.units id =
      .inactive := by
  have hfollows := (step_stopsKept hkept hstopped).kept.follows
  obtain ⟨final, hfinal, hresult, hcall⟩ := deletionReturned_eq_true hafter
  rcases Pool.advance_cases (EventMeets.meets hstopped) with hsame |
    ⟨task, action, next, response, shared, htask, hrest, hexec, _, _,
      hadvance⟩
  · rw [step, hsame] at hafter
    rw [hafter] at hbefore
    cases hbefore
  · have hphase : (final.ghost stops).phase = .deleted id :=
      (Task.returns_of_result
        (hfollows final (List.mem_of_getElem? hfinal)) hresult).2 id
        ((ghost_call final).trans hcall) rfl
    have hstep : step system (.advance index outcome) = ⟨shared,
        system.tasks.set index ⟨task.call,
          task.past ++ [⟨action, response⟩], next response⟩⟩ := hadvance
    rw [hstep] at hfinal hinflight ⊢
    obtain ⟨hindex, _⟩ := List.getElem?_eq_some_iff.mp htask
    rw [List.getElem?_set_self hindex, Option.some.injEq] at hfinal
    rw [← hfinal, Task.ghost_snoc] at hphase
    have hallowed : stops.allowed (task.ghost stops) action := by
      have hprogram := hkept.kept.follows task (List.mem_of_getElem? htask)
      rw [hrest] at hprogram
      exact hprogram.1
    obtain ⟨hunlock, hdead⟩ := dead_of_next_deleted hallowed hphase
    subst hunlock
    have hunits := (exec_sameExcept hexec).units nofun
    have hmem : task.ghost stops ∈ system.ghosts stops :=
      List.mem_map_of_mem (List.mem_of_getElem? htask)
    rcases hkept.invariant.dead _ hmem id hdead with
      hunit | ⟨other, hother, hlaunching⟩
    · rw [hunits]
      exact hunit
    · obtain ⟨creator, hcreator, hghost⟩ := List.mem_map.mp hother
      subst hghost
      obtain ⟨position, hposition⟩ := List.mem_iff_getElem?.mp hcreator
      have hne : index ≠ position := by
        intro heq
        rw [← heq, htask, Option.some.injEq] at hposition
        rw [← hposition, hdead] at hlaunching
        cases hlaunching
      have hkeeps : creator ∈ system.tasks.set index ⟨task.call,
          task.past ++ [⟨.unlockVms, response⟩], next response⟩ := by
        apply List.mem_of_getElem? (i := position)
        rw [List.getElem?_set_ne hne]
        exact hposition
      have hcreates : creator.call.Creates id := by
        rw [← ghost_call]
        exact hkept.kept.hold.locally _ hother id hlaunching
      obtain ⟨reply, hreply⟩ :=
        Option.isSome_iff_exists.mp (hinflight creator hkeeps hcreates)
      have hreturns := Task.returns_of_result
        (hkept.kept.follows creator hcreator) hreply
      exact absurd hlaunching (hreturns.1 id)

/-! ## Runs after a deletion -/

/-- The unit is dead and nothing is left that starts it. -/
structure Gone (id : String) (system : System cfg) : Prop where
  kept : system.Kept stops (processOwners cfg)
  dead : system.shared.units id = .inactive
  creators : ∀ task ∈ system.tasks, task.call.Creates id →
    task.result.isSome = true

def Event.Creates (event : Event) (id : String) : Prop :=
  match event with
  | .call made => made.Creates id
  | _ => False

instance Event.Creates.decidable (event : Event) (id : String) :
    Decidable (event.Creates id) :=
  match event with
  | .call made => inferInstanceAs (Decidable (made.Creates id))
  | .advance _ _ => .isFalse nofun
  | .unit _ _ => .isFalse nofun
  | .crash _ => .isFalse nofun

theorem exec_units_inactive
    {outcome : Outcome} {action : Action} {shared reached : Shared cfg}
    {response : Response action} {id : String}
    (hexec : exec outcome action shared = some (response, reached))
    (hdead : shared.units id = .inactive)
    (hother : ∀ command, action ≠ .startUnit id command) :
    reached.units id = .inactive := by
  have hsame := exec_sameExcept hexec
  cases action with
  | startUnit vmId command =>
      have hne : id ≠ vmId := by
        intro heq
        exact hother command (by rw [heq])
      cases exec_startUnit_effect hexec with
      | failed message => exact hdead
      | started hinactive =>
          simp only [setUnit, if_neg hne]
          exact hdead
  | stopUnit vmId =>
      have hresult : shared.stopUnit outcome.command vmId = reached :=
        congrArg Prod.snd (Option.some.inj hexec)
      subst hresult
      unfold Shared.stopUnit
      split
      · exact hdead
      · simp only [setUnit]
        split
        · rfl
        · exact hdead
  | _ =>
      have hunits : reached.units = shared.units := by
        apply hsame.units
        intro hresource
        cases hresource
      rw [hunits]
      exact hdead

theorem advance_gone
    {system : System cfg} {id : String} (hgone : Gone id system)
    (index : ℕ) (outcome : Outcome) :
    (step system (.advance index outcome)).shared.units id = .inactive ∧
      ∀ task ∈ (step system (.advance index outcome)).tasks,
        task.call.Creates id → task.result.isSome = true := by
  have hmeets : system.Meets exec stops (fun _ _ _ _ _ => True)
      (fun _ _ _ _ _ _ => True) index outcome :=
    fun _ _ => ⟨trivial, fun _ _ => trivial⟩
  rcases Pool.advance_cases hmeets with hsame |
    ⟨task, action, next, response, shared, htask, hrest, hexec, _, _,
      hadvance⟩
  · rw [step, hsame]
    exact ⟨hgone.dead, hgone.creators⟩
  · have hmem := List.mem_of_getElem? htask
    have hfinished : task.result = none := by
      rw [Task.result, hrest]
    have hnot : ¬ task.call.Creates id := by
      intro hcreates
      have hsome := hgone.creators task hmem hcreates
      rw [hfinished] at hsome
      cases hsome
    have hallowed : stops.allowed (task.ghost stops) action := by
      have hprogram := hgone.kept.follows task hmem
      rw [hrest] at hprogram
      exact hprogram.1
    rw [step, hadvance]
    constructor
    · apply exec_units_inactive hexec hgone.dead
      intro command hstart
      rw [hstart] at hallowed
      apply hnot
      rw [← ghost_call]
      exact hallowed.2
    · intro candidate hcandidate hcreates
      rcases List.mem_or_eq_of_mem_set hcandidate with hold | hnew
      · exact hgone.creators candidate hold hcreates
      · rw [hnew] at hcreates
        exact absurd hcreates hnot

theorem step_gone
    {system : System cfg} {event : Event} {id : String}
    (hgone : Gone id system) (hother : ¬ event.Creates id) :
    Gone id (step system event) := by
  have hkept := step_keeps_processOwners event hgone.kept
  cases event with
  | call made =>
      refine ⟨hkept, hgone.dead, ?_⟩
      intro task htask hcreates
      rcases List.mem_append.mp htask with hold | hnew
      · exact hgone.creators task hold hcreates
      · rw [List.mem_singleton.mp hnew] at hcreates
        exact absurd hcreates hother
  | advance index outcome =>
      have hafter := advance_gone hgone index outcome
      exact ⟨hkept, hafter.1, hafter.2⟩
  | unit changed state =>
      exact ⟨hkept, Shared.evolveUnit_inactive hgone.dead changed state,
        hgone.creators⟩
  | crash calls =>
      refine ⟨hkept, hgone.dead, ?_⟩
      intro task htask
      cases htask

/-- In the run a deletion of the machine returns `Ok` with the step in the
middle.  Every creation of the machine that was called before has returned
by then, and none is called later. -/
structure DeletedFor (id : String) (start : System cfg)
    (before : List Event) (index : ℕ) (outcome : Outcome)
    (after : List Event) : Prop where
  pending : deletionReturned (run step start before) index id = false
  returned : deletionReturned
    (step (run step start before) (.advance index outcome)) index id = true
  creators : ∀ task ∈
    (step (run step start before) (.advance index outcome)).tasks,
    task.call.Creates id → task.result.isSome = true
  later : ∀ event ∈ after, ¬ event.Creates id

theorem run_gone
    {system : System cfg} {events : List Event} {id : String}
    (hgone : Gone id system)
    (hother : ∀ event ∈ events, ¬ event.Creates id) :
    Gone id (run step system events) := by
  induction events generalizing system with
  | nil => exact hgone
  | cons event rest ih =>
      apply ih
      · exact step_gone hgone (hother event List.mem_cons_self)
      · exact fun next hnext => hother next (List.mem_cons_of_mem _ hnext)

theorem fresh_stopsKept
    (taps : Finset String) (ruleset : Ruleset)
    (hostsdir : AList fun _ : String => String)
    (stateDir : AList fun _ : String => PersistedVm)
    (units : String → UnitState) :
    StopsKept (idle (Node.fresh cfg taps ruleset hostsdir stateDir)
      units) := by
  refine ⟨Pool.Kept.empty ?_ fun _ hneeds => hneeds,
    stopInvariant_nil _⟩
  intro id handle hlookup
  rw [Node.fresh, AList.lookup_empty] at hlookup
  cases hlookup

/-- The unit of a deleted machine is dead in every later state.  The manager
starts with any state directory and any units, and may die and recover at
any time. -/
theorem deleted_vm_stays_dead
    (cfg : NodeConfig) (taps : Finset String) (ruleset : Ruleset)
    (hostsdir : AList fun _ : String => String)
    (stateDir : AList fun _ : String => PersistedVm)
    (units : String → UnitState) (id : String) (before after : List Event)
    (index : ℕ) (outcome : Outcome)
    (hstopped : Along step UnitsStopped
      (idle (Node.fresh cfg taps ruleset hostsdir stateDir) units)
      (before ++ [.advance index outcome]))
    (hdeleted : DeletedFor id
      (idle (Node.fresh cfg taps ruleset hostsdir stateDir) units)
      before index outcome after) :
    (run step (idle (Node.fresh cfg taps ruleset hostsdir stateDir) units)
      (before ++ .advance index outcome :: after)).shared.units id =
        .inactive := by
  obtain ⟨hbefore, hlast, _⟩ := along_append.mp hstopped
  have hkept : StopsKept (run step
      (idle (Node.fresh cfg taps ruleset hostsdir stateDir) units)
      before) :=
    run_invariant_of_along (fun _ _ => step_stopsKept)
      (fresh_stopsKept taps ruleset hostsdir stateDir units) hbefore
  have hdead := dead_when_deletion_returns hkept hlast hdeleted.pending
    hdeleted.returned hdeleted.creators
  have hgone : Gone id (step (run step
      (idle (Node.fresh cfg taps ruleset hostsdir stateDir) units) before)
      (.advance index outcome)) :=
    ⟨(step_stopsKept hkept hlast).kept, hdead, hdeleted.creators⟩
  have hafter := (run_gone hgone hdeleted.later).dead
  rw [run, List.foldl_append, List.foldl_cons]
  exact hafter

/-- A machine is created, restarts once, and is deleted except for the last
step. -/
def deletionRun : List Event :=
  .call (.createVm (smallConfig "vm-a" .none) none none) ::
    advances 0 14 ++
  .unit "vm-a" .restarting ::
  .call (.deleteVm "vm-a") :: advances 1 11

theorem deleted_vm_dead_after_restart :
    (run step (idle smallNode noUnits) (deletionRun ++
      .advance 1 succeeds :: [.unit "vm-a" .active])).shared.units "vm-a" =
        .inactive := by
  apply deleted_vm_stays_dead
  · decide +kernel
  · constructor
    · decide +kernel
    · decide +kernel
    · decide +kernel
    · decide +kernel

/-- The process dies while the unit waits for its restart, and the recovered
machine is deleted. -/
def recoveredDeletionRun : List Event :=
  .call (.createVm (smallConfig "vm-a" .none) none none) ::
    advances 0 14 ++
  .unit "vm-a" .restarting :: .crash restartSucceeds ::
  .call (.deleteVm "vm-a") :: advances 0 10

/-- The deletion returns, and systemd starts the unit again. -/
theorem deleted_vm_started_again :
    ¬ ∀ before index outcome after,
      DeletedFor "vm-a" (idle smallNode noUnits) before index outcome
        after →
        (run step (idle smallNode noUnits)
          (before ++ .advance index outcome :: after)).shared.units
            "vm-a" ≠ .active := by
  intro hdead
  have hdeleted : DeletedFor "vm-a" (idle smallNode noUnits)
      recoveredDeletionRun 0 succeeds [.unit "vm-a" .active] := by
    constructor
    · decide +kernel
    · decide +kernel
    · decide +kernel
    · decide +kernel
  exact hdead _ _ _ _ hdeleted (by decide +kernel)

end AlephCvm.Vm.Concurrent
