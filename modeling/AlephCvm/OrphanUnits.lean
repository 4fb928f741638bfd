import AlephCvm.StateMirror
import AlephCvm.VmPrograms

/-!
# Units without a machine

A restarted manager knows the machines that have a state file.  `create_vm`
starts the unit before it writes the file, where the design has the file
written first; `delete_vm` deletes the file whether or not the unit was
stopped.

The invariant is that a unit that may run has a state file, unless a creation
is between the start of the unit and the renaming of the file.  It is kept by
every action but the deletion of the file of a unit that is not dead, and it
gives every running unit its machine after a crash that hits no creation in
this window.
-/

namespace AlephCvm.Vm.Concurrent

open ResultContext StepRuns TableFolds AtomicPrograms AlephCvm.Tee
open AlephCvm.Numa AlephCvm.Net AlephCvm.Nft AlephCvm.Qemu

/-! ## The protocol -/

/-- The machine whose unit the call has started and whose state file it has
not put in place. -/
abbrev Launching := Option String

/-- The temporary file of a machine describes this machine, and so does a
state file that is read. -/
def launches : Protocol Call Action Response Reply Launching where
  start := fun _ => none
  next := fun launching action response =>
    match action, response with
    | .startUnit vmId _, .ok () => some vmId
    | .renameTemp _, true => none
    | _, _ => launching
  allowed := fun launching action =>
    match action with
    | .startUnit _ _ => launching = none
    | .renameTemp vmId => ∀ id, launching = some id → id = vmId
    | .writeTemp vmId persisted => persisted.config.vmId = vmId
    | _ => True
  admits := fun action response =>
    match action, response with
    | .readState vmId, some persisted => persisted.config.vmId = vmId
    | .writeTemp _ _, written => written = true
    | .renameTemp _, renamed => renamed = true
    | _, _ => True
  returns := fun _ _ => True

theorem launches_neutral (launching : Launching) :
    launches.Neutral
      (fun action => [Resource.units, .files].contains
        action.resource = false) launching := by
  intro action hother
  cases action with
  | startUnit vmId command => cases hother
  | stopUnit vmId => cases hother
  | readState vmId => cases hother
  | writeTemp vmId persisted => cases hother
  | renameTemp vmId => cases hother
  | deleteState vmId => cases hother
  | _ => exact ⟨trivial, fun _ _ => rfl⟩

theorem saveVm_launches
    {vmId : String} {persisted : PersistedVm} {launching : Launching}
    (hnamed : persisted.config.vmId = vmId)
    (hsame : ∀ id, launching = some id → id = vmId) :
    (saveVm vmId persisted).Follows launches
      (fun reached _ => reached = none) launching := by
  unfold saveVm
  refine Program.follows_action_bind.mpr ⟨hnamed, fun written hwritten => ?_⟩
  have htrue : written = true := hwritten
  subst htrue
  refine ⟨hsame, fun renamed hrenamed => ?_⟩
  have htrue : renamed = true := hrenamed
  subst htrue
  rfl

theorem updatePersistedPortForwards_launches (vmId : String) :
    (updatePersistedPortForwards vmId).Follows launches
      (fun reached _ => reached = none) none := by
  unfold updatePersistedPortForwards
  refine Program.follows_action_bind.mpr ⟨trivial, fun found hfound => ?_⟩
  cases found with
  | none => rfl
  | some persisted =>
      refine Program.follows_action_bind.mpr
        ⟨trivial, fun forwards _ => ?_⟩
      have hnamed : persisted.config.vmId = vmId := hfound
      exact Program.follows_bind.mpr (saveVm_launches hnamed nofun)

theorem launchVm_launches
    (cfg : NodeConfig) (launch : Launch) (vmIp : Ipv4Addr)
    (macAddr : String) (vmIpv6 : Option Ipv6Net) :
    (launchVm cfg launch vmIp macAddr vmIpv6).Follows launches
      (fun _ _ => True) none := by
  unfold launchVm
  refine Program.follows_action_bind.mpr ⟨rfl, fun started _ => ?_⟩
  cases started with
  | error message =>
      exact Uses.skip (undoLaunch_uses cfg launch _ vmIpv6)
        (launches_neutral _) rfl fun _ _ => trivial
  | ok done =>
      refine Program.follows_action_bind.mpr ⟨trivial, fun now _ => ?_⟩
      refine Program.follows_bind.mpr
        ((saveVm_launches rfl ?_).mono fun _ _ _ => ?_)
      · intro id hid
        exact (Option.some.inj hid).symm
      · refine Program.follows_action_bind.mpr
          ⟨trivial, fun current _ => ?_⟩
        exact Program.follows_action_bind.mpr
          ⟨trivial, fun _ _ => trivial⟩

theorem createVm_launches
    (cfg : NodeConfig) (config : VmConfig)
    (requestedIpv6 : Option Ipv6Net) (numaHint : Option UInt32) :
    (createVm cfg config requestedIpv6 numaHint).Follows launches
      (fun _ _ => True) none := by
  apply createVm_follows cfg [.units, .files] fun _ => none
  · exact ⟨trivial, fun _ _ => rfl⟩
  · trivial
  · rfl
  · exact fun _ => rfl
  · exact fun _ => launches_neutral none
  · rfl
  · exact fun _ => trivial
  · exact fun _ _ => trivial
  · intro offset launch macAddr vmIpv6 _
    exact launchVm_launches cfg launch _ macAddr vmIpv6

theorem stopProcess_launches
    (process : Option QemuProcess) (launching : Launching) :
    (stopProcess process).Follows launches
      (fun reached _ => reached = launching) launching := by
  cases process with
  | none => rfl
  | some process => exact ⟨trivial, fun _ _ => rfl⟩

theorem deleteVm_launches (cfg : NodeConfig) (id : String) :
    (deleteVm cfg id).Follows launches (fun _ _ => True) none := by
  unfold deleteVm
  refine Program.follows_action_bind.mpr ⟨trivial, fun found _ => ?_⟩
  cases found with
  | none => trivial
  | some handle =>
      refine Program.follows_bind.mpr ?_
      unfold deleteHandle
      refine Program.follows_bind.mpr
        ((stopProcess_launches handle.process none).mono ?_)
      intro launching _ hnone
      subst hnone
      refine Uses.skip (releaseNuma_uses _) (launches_neutral _) rfl
        fun _ _ => ?_
      refine Program.follows_action_bind.mpr
        ⟨trivial, fun removed _ => ?_⟩
      refine Uses.skip (removeForwardRules_uses cfg 0 removed)
        (launches_neutral _) rfl fun _ _ => ?_
      refine Uses.skip (dropIpv6_uses cfg id handle) (launches_neutral _)
        rfl fun _ _ => ?_
      refine Uses.skip (teardownVm_uses cfg id) (launches_neutral _) rfl
        fun _ _ => ?_
      refine Program.follows_action_bind.mpr ⟨trivial, fun _ _ => ?_⟩
      refine Uses.skip (removeReservations_uses cfg _ _)
        (launches_neutral _) rfl fun _ _ => ?_
      refine Program.follows_action_bind.mpr ⟨trivial, fun _ _ => ?_⟩
      refine Program.follows_action_bind.mpr ⟨trivial, fun _ _ => ?_⟩
      exact ⟨trivial, fun _ _ => trivial⟩

theorem addPortForward_launches
    (cfg : NodeConfig) (vmId : String) (hostPort vmPort : UInt16)
    (protocol : Protocol) :
    (addPortForward cfg vmId hostPort vmPort protocol).Follows launches
      (fun _ _ => True) none := by
  unfold addPortForward
  refine Program.follows_action_bind.mpr ⟨trivial, fun found _ => ?_⟩
  cases found with
  | none => trivial
  | some guestIp =>
      refine Program.follows_action_bind.mpr ⟨trivial, fun reserved _ => ?_⟩
      cases reserved with
      | error message => trivial
      | ok forward =>
          refine Uses.skip (nftOperation_uses _ _) (launches_neutral _) rfl
            fun installed _ => ?_
          cases installed with
          | error message =>
              exact Program.follows_action_bind.mpr
                ⟨trivial, fun _ _ => trivial⟩
          | ok done =>
              exact Program.follows_bind.mpr
                ((updatePersistedPortForwards_launches vmId).mono
                  fun _ _ _ => trivial)

theorem removePortForward_launches
    (cfg : NodeConfig) (hostPort : UInt16) (protocol : Protocol) :
    (removePortForward cfg hostPort protocol).Follows launches
      (fun _ _ => True) none := by
  unfold removePortForward
  refine Program.follows_action_bind.mpr ⟨trivial, fun taken _ => ?_⟩
  cases taken with
  | none => trivial
  | some forward =>
      refine Uses.skip (nftOperation_uses _ _) (launches_neutral _) rfl
        fun removed _ => ?_
      cases removed with
      | error message => trivial
      | ok done =>
          exact Program.follows_bind.mpr
            ((updatePersistedPortForwards_launches _).mono
              fun _ _ _ => trivial)

theorem program_launches (cfg : NodeConfig) (call : Call) :
    (program cfg call).Follows launches launches.returns
      (launches.start call) := by
  cases call with
  | createVm config requestedIpv6 numaHint =>
      exact Program.follows_bind.mpr
        (createVm_launches cfg config requestedIpv6 numaHint)
  | deleteVm id => exact Program.follows_bind.mpr (deleteVm_launches cfg id)
  | addPortForward vmId hostPort vmPort protocol =>
      exact Program.follows_bind.mpr
        (addPortForward_launches cfg vmId hostPort vmPort protocol)
  | removePortForward hostPort protocol =>
      exact Program.follows_bind.mpr
        (removePortForward_launches cfg hostPort protocol)

/-! ## One action -/

variable {cfg : NodeConfig}

/-- State files and temporary files describe the machine that they are named
after. -/
structure Shared.NamedFiles (shared : Shared cfg) : Prop where
  files : FilesNamed shared.node.stateDir
  temps : ∀ vmId persisted,
    shared.tempFiles.lookup (tempFile vmId) = some persisted →
      persisted.config.vmId = vmId

/-- A unit that is not dead has a state file or a call that is about to write
it. -/
def unitOwners (cfg : NodeConfig) :
    Assertions (Shared cfg) Launching String where
  globally := Shared.NamedFiles
  locally := fun _ _ => True
  apart := fun _ _ => True
  needs := fun shared id => shared.units id ≠ .inactive ∧
    shared.node.stateDir.lookup (stateFile id) = none
  holds := fun _ launching id => launching = some id
  apart_symm := fun _ => trivial

theorem unitOwners_same
    {guard : Launching → Prop} {shared reached : Shared cfg}
    {launching : Launching} (hnamed : shared.NamedFiles)
    (hunits : ∀ id, reached.units id ≠ .inactive →
      shared.units id ≠ .inactive)
    (hfiles : reached.node.stateDir = shared.node.stateDir)
    (htemps : reached.tempFiles = shared.tempFiles) :
    (unitOwners cfg).Keeps guard shared launching reached launching := by
  refine Assertions.Keeps.frame ⟨?_, ?_⟩ (fun _ h => h) ?_ (fun _ _ h => h)
    trivial
  · rw [hfiles]
    exact hnamed.files
  · rw [htemps]
    exact hnamed.temps
  · intro id hneeds
    exact ⟨hunits id hneeds.1, hfiles ▸ hneeds.2⟩

theorem startUnit_keeps
    {guard : Launching → Prop} {shared : Shared cfg} {vmId : String}
    (hnamed : shared.NamedFiles) :
    (unitOwners cfg).Keeps guard shared none
      { shared with units := setUnit shared.units vmId .active }
      (some vmId) := by
  refine ⟨⟨hnamed.files, hnamed.temps⟩, trivial,
    fun _ _ _ _ => ⟨trivial, trivial⟩, ?_, fun _ _ _ _ _ _ h => .inl h⟩
  intro id hneeds
  by_cases hid : id = vmId
  · left
    exact congrArg some hid.symm
  · right
    refine ⟨⟨?_, hneeds.2⟩, nofun⟩
    have hstate := hneeds.1
    simp only [setUnit, if_neg hid] at hstate
    exact hstate

theorem renameTemp_keeps
    {guard : Launching → Prop} {shared : Shared cfg} {vmId : String}
    {persisted : PersistedVm} {launching : Launching}
    (hnamed : shared.NamedFiles)
    (htemp : shared.tempFiles.lookup (tempFile vmId) = some persisted)
    (hsame : ∀ id, launching = some id → id = vmId) :
    (unitOwners cfg).Keeps guard shared launching
      { shared with
        tempFiles := shared.tempFiles.erase (tempFile vmId)
        node := { shared.node with
          stateDir :=
            shared.node.stateDir.insert (stateFile vmId) persisted } }
      none := by
  have hid := hnamed.temps vmId persisted htemp
  refine ⟨⟨?_, ?_⟩, trivial, fun _ _ _ _ => ⟨trivial, trivial⟩, ?_,
    fun _ _ _ _ _ _ h => .inl h⟩
  · rw [← hid]
    exact hnamed.files.insert persisted
  · intro other found hlookup
    exact hnamed.temps other found (lookup_erase_iff.mp hlookup).2
  · intro id hneeds
    right
    have hother : id ≠ vmId := by
      intro heq
      have hlookup := hneeds.2
      rw [heq, AList.lookup_insert] at hlookup
      cases hlookup
    have hlookup := hneeds.2
    have hfile : stateFile id ≠ stateFile vmId := fun heq =>
      hother (stateFile_injective heq)
    rw [AList.lookup_insert_ne hfile] at hlookup
    refine ⟨⟨hneeds.1, hlookup⟩, ?_⟩
    intro hholds
    exact hother (hsame id hholds)

theorem deleteState_keeps
    {guard : Launching → Prop} {shared : Shared cfg} {vmId : String}
    {launching : Launching} (done : Bool) (hnamed : shared.NamedFiles)
    (hdead : shared.units vmId = .inactive) :
    (unitOwners cfg).Keeps guard shared launching
      { shared with
        node := { shared.node with
          stateDir := if done then
              shared.node.stateDir.erase (stateFile vmId)
            else shared.node.stateDir } } launching := by
  cases done with
  | false => exact unitOwners_same hnamed (fun _ h => h) rfl rfl
  | true =>
      refine Assertions.Keeps.frame
        ⟨hnamed.files.erase _, hnamed.temps⟩ (fun _ h => h) ?_
        (fun _ _ h => h) trivial
      intro id hneeds
      have hother : id ≠ vmId := by
        intro heq
        exact hneeds.1 (heq ▸ hdead)
      have hfile : stateFile id ≠ stateFile vmId := fun heq =>
        hother (stateFile_injective heq)
      have hlookup := hneeds.2
      simp only [if_true] at hlookup
      rw [AList.lookup_erase_ne hfile] at hlookup
      exact ⟨hneeds.1, hlookup⟩

/-! ## Conditions on a run -/

/-- The write and the renaming of a state file succeed. -/
def saved (action : Action) (response : Response action) : Bool :=
  match action, response with
  | .writeTemp _ _, written => written
  | .renameTemp _, renamed => renamed
  | _, _ => true

/-- A state file is deleted only when the unit is dead: neither active nor
waiting for its restart. -/
def deletesDead (shared : Shared cfg) (action : Action) : Bool :=
  match action with
  | .deleteState vmId => shared.units vmId == .inactive
  | _ => true

theorem exec_keeps_unitOwners
    {guard : Launching → Prop} {outcome : Outcome} {action : Action}
    {shared reached : Shared cfg} {launching : Launching}
    {response : Response action} (hnamed : shared.NamedFiles)
    (hallowed : launches.allowed launching action)
    (hexec : exec outcome action shared = some (response, reached))
    (hdead : deletesDead shared action = true) :
    (unitOwners cfg).Keeps guard shared launching reached
      (launches.next launching action response) := by
  have hsame := exec_sameExcept hexec
  cases action with
  | startUnit vmId command =>
      have hnone : launching = none := hallowed
      subst hnone
      cases exec_startUnit_effect hexec with
      | failed message =>
          exact unitOwners_same hnamed (fun _ h => h) rfl rfl
      | started hinactive => exact startUnit_keeps hnamed
  | stopUnit vmId =>
      have hresult : shared.stopUnit outcome.command vmId = reached :=
        congrArg Prod.snd (Option.some.inj hexec)
      subst hresult
      apply unitOwners_same hnamed _ (hsame.stateDir nofun)
        (hsame.tempFiles nofun)
      intro id hstate
      unfold Shared.stopUnit setUnit at hstate
      split at hstate
      · exact hstate
      · by_cases hid : id = vmId
        · simp [hid] at hstate
        · simpa [hid] using hstate
  | readState vmId =>
      cases hexec
      exact unitOwners_same hnamed (fun _ h => h) rfl rfl
  | writeTemp vmId persisted =>
      have hresult : shared.writeTemp outcome.done vmId persisted =
          (response, reached) := Option.some.inj hexec
      unfold Shared.writeTemp at hresult
      split at hresult
      · cases hresult
        refine Assertions.Keeps.frame ⟨hnamed.files, ?_⟩ (fun _ h => h)
          (fun _ h => h) (fun _ _ h => h) trivial
        intro other found hlookup
        rcases lookup_insert_iff.mp hlookup with ⟨hfile, hnew⟩ | ⟨_, hold⟩
        · rw [hnew, tempFile_injective hfile]
          exact hallowed
        · exact hnamed.temps other found hold
      · cases hresult
        exact unitOwners_same hnamed (fun _ h => h) rfl rfl
  | renameTemp vmId =>
      have hresult : shared.renameTemp outcome.done vmId =
          (response, reached) := Option.some.inj hexec
      unfold Shared.renameTemp at hresult
      split at hresult
      · rename_i persisted hdone htemp
        cases hresult
        exact renameTemp_keeps hnamed htemp hallowed
      · cases hresult
        exact unitOwners_same hnamed (fun _ h => h) rfl rfl
  | deleteState vmId =>
      cases hexec
      exact deleteState_keeps outcome.done hnamed (by simpa [deletesDead]
        using hdead)
  | _ =>
      exact unitOwners_same hnamed
        (fun _ h => by rwa [hsame.units nofun] at h)
        (hsame.stateDir nofun) (hsame.tempFiles nofun)

/-- The new process can read the directory and the files in it. -/
def filesReadable (calls : RestartCalls)
    (stateDir : AList fun _ : String => PersistedVm) : Bool :=
  match calls.readDir with
  | .error _ => false
  | .ok () => stateDir.keys.all calls.readable

/-- Saves succeed, and what was saved can be read after a crash. -/
def SavesSucceed : System cfg → Event → Prop :=
  EventMeets launches
    (fun _ _ _ action response => saved action response = true)
    (fun _ _ _ _ _ _ => True)
    (fun system calls =>
      filesReadable calls system.shared.node.stateDir = true)

/-- State files of dead units only are deleted, and the process does not die
while a creation is between the start of its unit and its state file. -/
def CrashSafe : System cfg → Event → Prop :=
  EventMeets launches
    (fun shared _ _ action _ => deletesDead shared action = true)
    (fun _ _ _ _ _ _ => True)
    (fun system _ =>
      ∀ launching ∈ system.ghosts launches, launching = none)

instance SavesSucceed.decidable (system : System cfg) (event : Event) :
    Decidable (SavesSucceed system event) :=
  EventMeets.decidable _ _ _ _ system event

instance CrashSafe.decidable (system : System cfg) (event : Event) :
    Decidable (CrashSafe system event) :=
  EventMeets.decidable _ _ _ _ system event

/-! ## Runs -/

/-- Every active unit of a machine belongs to a machine of the table; the
service refuses an empty identifier. -/
def NoOrphans (shared : Shared cfg) : Prop :=
  ∀ id, id ≠ "" → shared.units id = .active →
    ∃ handle, shared.node.vms.lookup id = some handle

theorem mem_loadedVms_of_readable
    {calls : RestartCalls} {stateDir : AList fun _ : String => PersistedVm}
    {id : String} {persisted : PersistedVm} (hne : id ≠ "")
    (hreadable : filesReadable calls stateDir = true)
    (hlookup : stateDir.lookup (stateFile id) = some persisted) :
    persisted ∈ loadedVms calls stateDir := by
  unfold filesReadable at hreadable
  rw [mem_loadedVms_iff]
  cases hread : calls.readDir with
  | error message =>
      rw [hread] at hreadable
      cases hreadable
  | ok done =>
      rw [hread] at hreadable
      have hkey : stateFile id ∈ stateDir.keys :=
        AList.mem_keys.mpr (AList.lookup_isSome.mp (by rw [hlookup]; rfl))
      exact ⟨rfl, stateFile id, hlookup, hasJsonExtension_stateFile hne,
        List.all_eq_true.mp hreadable _ hkey⟩

theorem restart_noOrphans
    {shared : Shared cfg} {calls : RestartCalls}
    (hnamed : FilesNamed shared.node.stateDir)
    (hreadable : filesReadable calls shared.node.stateDir = true)
    (hfiles : ∀ id, shared.units id ≠ .inactive →
      shared.node.stateDir.lookup (stateFile id) ≠ none) :
    NoOrphans (shared.restart calls) := by
  intro id hne hactive
  have hlive : shared.units id ≠ .inactive := by
    have hsame : (shared.restart calls).units id = shared.units id := rfl
    rw [← hsame, hactive]
    nofun
  obtain ⟨persisted, hlookup⟩ :=
    Option.ne_none_iff_exists'.mp (hfiles id hlive)
  have hid : persisted.config.vmId = id :=
    (stateFile_injective (hnamed _ _ hlookup)).symm
  have hloaded := mem_loadedVms_of_readable hne hreadable hlookup
  refine ⟨_, (Node.restart_vms_lookup_iff hnamed
    (shared.restartCalls calls)).mpr ⟨persisted, ?_, hid, rfl⟩⟩
  exact hloaded

theorem restart_kept
    {shared : Shared cfg} {calls : RestartCalls}
    (hnamed : shared.NamedFiles)
    (hfiles : ∀ id, shared.units id ≠ .inactive →
      shared.node.stateDir.lookup (stateFile id) ≠ none) :
    Pool.Kept launches (unitOwners cfg)
      (⟨shared.restart calls, []⟩ : System cfg) := by
  have hdir : (shared.restart calls).node.stateDir =
      shared.node.stateDir := Node.restart_stateDir _ _
  apply Pool.Kept.empty
  · constructor
    · rw [hdir]
      exact hnamed.files
    · exact hnamed.temps
  · intro id hneeds
    have hnone := hneeds.2
    rw [hdir] at hnone
    exact hfiles id hneeds.1 hnone

theorem step_keeps_unitOwners
    {system : System cfg} {event : Event}
    (hkept : system.Kept launches (unitOwners cfg))
    (hsaves : SavesSucceed system event)
    (hsafe : CrashSafe system event) :
    (step system event).Kept launches (unitOwners cfg) ∧
      (event.isCrash = true → NoOrphans (step system event).shared) := by
  cases event with
  | call call =>
      refine ⟨hkept.call (program_launches cfg call) trivial
        fun _ => trivial, nofun⟩
  | advance index outcome =>
      have hmeets := Pool.Meets.and (EventMeets.meets hsaves)
        (EventMeets.meets hsafe)
      refine ⟨Pool.Kept.advance ?_ ?_ hkept hmeets, nofun⟩
      · intro shared outcome launching action response reached hnamed hexec
          hcond
        cases action with
        | readState vmId =>
            have hfound : (if outcome.done then
                shared.node.stateDir.lookup (stateFile vmId) else none) =
                response := congrArg Prod.fst (Option.some.inj hexec)
            cases response with
            | none => trivial
            | some persisted =>
                split at hfound
                · exact (stateFile_injective
                    (hnamed.files _ _ hfound)).symm
                · cases hfound
        | writeTemp vmId persisted => exact hcond.1
        | renameTemp vmId => exact hcond.1
        | _ => trivial
      · intro shared outcome launching action response reached hnamed _
          hallowed hexec hcond
        exact exec_keeps_unitOwners hnamed hallowed hexec hcond.2
  | unit id state =>
      refine ⟨⟨hkept.follows, ?_⟩, nofun⟩
      rw [step, Shared.evolveUnit_eq]
      refine hkept.hold.environment ?_ (fun _ h => h) ?_ (fun _ _ h => h)
      · exact ⟨hkept.hold.globally.files, hkept.hold.globally.temps⟩
      · intro other hneeds
        refine ⟨?_, hneeds.2⟩
        intro hdead
        exact hneeds.1 (Shared.evolveUnit_inactive hdead id state)
  | crash calls =>
      have hnamed := hkept.hold.globally
      have hfiles : ∀ id, system.shared.units id ≠ .inactive →
          system.shared.node.stateDir.lookup (stateFile id) ≠ none := by
        intro id hlive hnone
        obtain ⟨launching, hlaunching, hholds⟩ :=
          hkept.hold.covered id ⟨hlive, hnone⟩
        have hidle := hsafe launching hlaunching
        rw [hidle] at hholds
        cases hholds
      exact ⟨restart_kept hnamed hfiles,
        fun _ => restart_noOrphans hnamed.files hsaves hfiles⟩

theorem idle_kept_unitOwners
    {node : Node cfg} {units : String → UnitState}
    (hnamed : FilesNamed node.stateDir)
    (hfiles : ∀ id, units id ≠ .inactive →
      node.stateDir.lookup (stateFile id) ≠ none) :
    (idle node units).Kept launches (unitOwners cfg) := by
  apply Pool.Kept.empty
  · refine ⟨hnamed, ?_⟩
    intro vmId persisted hlookup
    rw [AList.lookup_empty] at hlookup
    cases hlookup
  · intro id hneeds
    exact hfiles id hneeds.1 hneeds.2

/-- Whenever the process dies, in any run of concurrent calls that meets the
condition, every active unit belongs to a machine after the recovery.  The
run starts with a manager between calls, on a host where the units that are
not dead have state files. -/
theorem no_orphans_after_crash
    (cfg : NodeConfig) (node : Node cfg) (units : String → UnitState)
    (events : List Event) (hnamed : FilesNamed node.stateDir)
    (hfiles : ∀ id, units id ≠ .inactive →
      node.stateDir.lookup (stateFile id) ≠ none)
    (hsaves : Along step SavesSucceed (idle node units) events)
    (hsafe : Along step CrashSafe (idle node units) events) :
    Along step
      (fun system event => event.isCrash = true →
        NoOrphans (step system event).shared)
      (idle node units) events := by
  apply along_of_invariant _ (idle_kept_unitOwners hnamed hfiles)
    (along_and hsaves hsafe)
  intro system event hkept hmeets
  exact step_keeps_unitOwners hkept hmeets.1 hmeets.2

/-- The process dies while one machine runs and another one is about to be
started. -/
def crashBeforeStartRun : List Event :=
  .call (.createVm (smallConfig "vm-a" .none) none none) ::
    advances 0 14 ++
  .call (.createVm (smallConfig "vm-b" .none) none none) ::
    advances 1 8 ++ [.crash restartSucceeds]

theorem no_orphans_crash_before_start :
    Along step
      (fun system event => event.isCrash = true →
        NoOrphans (step system event).shared)
      (idle smallNode noUnits) crashBeforeStartRun := by
  apply no_orphans_after_crash
  · intro name persisted hlookup
    rw [smallNode, Node.fresh, AList.lookup_empty] at hlookup
    cases hlookup
  · intro id hlive
    exact absurd rfl hlive
  · decide +kernel
  · decide +kernel

/-- A creation up to the start of the unit. -/
def startedRun : List Event :=
  .call (.createVm (smallConfig "vm-a" .none) none none) :: advances 0 9

/-- The process dies before the state file is written. -/
theorem orphan_after_crash_between_start_and_save :
    ¬ ∀ events : List Event,
      Along step SavesSucceed (idle smallNode noUnits) events →
        Along step
          (fun system event => event.isCrash = true →
            NoOrphans (step system event).shared)
          (idle smallNode noUnits) events := by
  intro hnone
  have halong := hnone (startedRun ++ [.crash restartSucceeds])
    (by decide +kernel)
  have hcrash := (along_append.mp halong).2.1 rfl
  obtain ⟨handle, hlookup⟩ := hcrash "vm-a" (by decide) (by decide +kernel)
  have hmissing : (step (run step (idle smallNode noUnits) startedRun)
      (.crash restartSucceeds)).shared.node.vms.lookup "vm-a" = none := by
    decide +kernel
  rw [hlookup] at hmissing
  cases hmissing

end AlephCvm.Vm.Concurrent
