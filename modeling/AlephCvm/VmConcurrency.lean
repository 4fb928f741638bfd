import AlephCvm.AtomicPrograms
import AlephCvm.VmLifecycle

/-!
# Concurrent calls of the VM manager

`VmManager` serves its calls at the same time.  A call holds a lock only for
the sections that the source puts under one, and `delete_vm` holds the lock
of the machine table from its first section to its end.  Commands, file
operations and the sections under a lock are the atomic actions; between any
two of them another call may act, a unit may change its state, or the process
may die and be started again.

The calls are written as programs over these actions, in the order of
`manager.rs`.  The actions are executed by the functions that the model of
single calls uses.
-/

namespace AlephCvm.Vm.Concurrent

open ResultContext AtomicPrograms AlephCvm.Tee AlephCvm.Numa AlephCvm.Net
open AlephCvm.Nft AlephCvm.Qemu

/-! ## The shared state -/

/-- The unit of a machine.  A unit that failed waits before it is started
again; `systemctl is-active` fails for it. -/
inductive UnitState where
  | inactive
  | active
  | restarting
  deriving DecidableEq, Repr

/-- What a unit does by itself: a machine ends or fails, and a failed one is
started again or given up. -/
def UnitState.evolves : UnitState → UnitState → Bool
  | .active, .restarting => true
  | .active, .inactive => true
  | .restarting, .active => true
  | .restarting, .inactive => true
  | _, _ => false

/-- The manager and its host, the lock of the machine table, the temporary
state files and the units. -/
structure Shared (cfg : NodeConfig) where
  node : Node cfg
  vmsLocked : Bool
  tempFiles : AList fun _ : String => PersistedVm
  units : String → UnitState

def tempFile (vmId : String) : String := s!"{vmId}.json.tmp"

theorem tempFile_injective {first second : String}
    (hsame : tempFile first = tempFile second) : first = second := by
  have hlists := congrArg String.toList hsame
  simp only [tempFile, toString, String.toList_append] at hlists
  exact String.toList_inj.mp (List.append_cancel_right hlists)

/-! ## Actions -/

/-- The use that a call makes of `nft`. -/
inductive NftUse where
  | setup (vmId : String)
  | natTeardown (vmId : String)
  | filterTeardown (vmId : String)
  | addForward (vmId : String) (hostPort : UInt16) (protocol : Protocol)
  | removeForward (index : ℕ) (hostPort : UInt16) (protocol : Protocol)
  deriving DecidableEq, Repr

inductive Action where
  | containsVm (id : String)
  | findIp (id : String)
  | removeVm (id : String)
  | unlockVms
  | insertVm (id : String) (handle : VmHandle)
  | takeOffset
  | returnOffset (offset : UInt8)
  | allocateIpv6 (vmId : String) (requested : Option Ipv6Net)
  | releaseIpv6 (vmId : String)
  | tryReleaseIpv6 (vmId : String)
  | writeHosts (name content : String)
  | removeHosts (name : String)
  | createTap (tap : String)
  | addTapAddress (tap : String) (net : Ipv6Net)
  | deleteTap (tap : String)
  | listRuleset (purpose : NftUse)
  | runNft (purpose : NftUse) (commands : List NftCommand)
  | addNdpRange (tap : String) (net : Ipv6Net)
  | deleteNdpRange (tap : String)
  | prepareBoot (config : VmConfig)
  | allocateNuma (vcpus memoryMb : UInt32) (hint : Option UInt32)
      (usesHugepages : Bool)
  | releaseNuma (node vcpus memoryMb : UInt32) (size : HugePageSize)
  | startUnit (vmId : String) (command : List String)
  | stopUnit (vmId : String)
  | readClock
  | reserveForward (vmId : String) (hostPort vmPort : UInt16)
      (protocol : Protocol)
  | takeForward (hostPort : UInt16) (protocol : Protocol)
  | takeForwards (vmId : String)
  | listForwards (vmId : String)
  | readState (vmId : String)
  | writeTemp (vmId : String) (persisted : PersistedVm)
  | renameTemp (vmId : String)
  | deleteState (vmId : String)

@[reducible] def Response : Action → Type
  | .containsVm _ => Bool
  | .findIp _ => Option Ipv4Addr
  | .removeVm _ => Option VmHandle
  | .takeOffset => Option UInt8
  | .allocateIpv6 _ _ => Except Failure (Option Ipv6Net)
  | .writeHosts _ _ => Except String Unit
  | .createTap _ => Except String Unit
  | .addTapAddress _ _ => Except String Unit
  | .listRuleset _ => Except String Listing
  | .runNft _ _ => Except String Unit
  | .prepareBoot _ => Except String (Option String × List DiskConfig)
  | .allocateNuma _ _ _ _ => Except String NumaPlacement
  | .startUnit _ _ => Except String Unit
  | .readClock => ℕ
  | .reserveForward _ _ _ _ => Except String PortForward
  | .takeForward _ _ => Option PortForward
  | .takeForwards _ => List PortForward
  | .listForwards _ => List PortForward
  | .readState _ => Option PersistedVm
  | .writeTemp _ _ => Bool
  | .renameTemp _ => Bool
  | _ => Unit

/-- How the command, the file operation or the attempt to lock of one action
ended, with the choices that the program does not control. -/
structure Outcome where
  done : Bool
  command : Except String Unit
  draws : ℕ → ℕ
  write : WriteOutcome
  tap : TapCalls
  nft : NftCalls
  verity : VerityCalls
  order : IterationOrder
  now : ℕ

/-! ## Execution of one action -/

variable {cfg : NodeConfig}

/-- Access to the machine table waits while a deletion holds its lock. -/
def Shared.unlessLocked {α : Type} (shared : Shared cfg)
    (result : α × Shared cfg) : Option (α × Shared cfg) :=
  if shared.vmsLocked then none else some result

def Shared.removeVm (shared : Shared cfg) (id : String) :
    Option VmHandle × Shared cfg :=
  match shared.node.vms.lookup id with
  | none => (none, shared)
  | some handle =>
      (some handle, { shared with
        node := { shared.node with vms := shared.node.vms.erase id }
        vmsLocked := true })

def Shared.takeOffset (shared : Shared cfg) :
    Option UInt8 × Shared cfg :=
  match freeOffset shared.node.usedIpOffsets with
  | none => (none, shared)
  | some offset =>
      (some offset, { shared with node := shared.node.takeOffset offset })

def Shared.allocateIpv6 (shared : Shared cfg) (draws : ℕ → ℕ)
    (vmId : String) (requested : Option Ipv6Net) :
    Except Failure (Option Ipv6Net) × Shared cfg :=
  match shared.node.allocateIpv6 draws vmId requested with
  | .error failure => (.error failure, shared)
  | .ok (net, node) => (.ok net, { shared with node := node })

def Shared.writeHosts (shared : Shared cfg) (outcome : WriteOutcome)
    (name content : String) : Except String Unit × Shared cfg :=
  match writeFile outcome shared.node.hostsdir name content with
  | (result, files) =>
      (result, { shared with node := { shared.node with hostsdir := files } })

def Shared.createTap (shared : Shared cfg) (calls : TapCalls)
    (tap : String) : Except String Unit × Shared cfg :=
  match Vm.createTap calls shared.node.taps tap cfg.bridge with
  | (result, taps) =>
      (result, { shared with node := { shared.node with taps := taps } })

def Shared.runNft (shared : Shared cfg) (outcome : BatchOutcome)
    (commands : List NftCommand) : Except String Unit × Shared cfg :=
  match executeNftCommands outcome shared.node.ruleset commands with
  | .error message => (.error message, shared)
  | .ok ruleset =>
      (.ok (), { shared with node := { shared.node with ruleset := ruleset } })

def Shared.allocateNuma (shared : Shared cfg) (vcpus memoryMb : UInt32)
    (hint : Option UInt32) (usesHugepages : Bool) :
    Except String NumaPlacement × Shared cfg :=
  match shared.node.numa.allocate vcpus memoryMb hint usesHugepages with
  | .error message => (.error message, shared)
  | .ok (placement, numa) =>
      (.ok placement,
        { shared with node := { shared.node with numa := numa } })

def setUnit (units : String → UnitState) (vmId : String)
    (state : UnitState) : String → UnitState :=
  fun id => if id = vmId then state else units id

/-- `systemd-run` refuses a name whose unit is still loaded. -/
def Shared.startUnit (shared : Shared cfg) (outcome : Except String Unit)
    (vmId : String) : Except String Unit × Shared cfg :=
  if shared.units vmId = .inactive then
    match outcome with
    | .error message => (.error message, shared)
    | .ok () =>
        (.ok (), { shared with units := setUnit shared.units vmId .active })
  else
    (.error (s!"systemd-run failed for aleph-cvm-vm-{vmId}.service: " ++
      "unit was already loaded"), shared)

/-- A failed stop is logged and otherwise ignored. -/
def Shared.stopUnit (shared : Shared cfg) (outcome : Except String Unit)
    (vmId : String) : Shared cfg :=
  match outcome with
  | .error _ => shared
  | .ok () =>
      { shared with units := setUnit shared.units vmId .inactive }

def Shared.reserveForward (shared : Shared cfg) (vmId : String)
    (hostPort vmPort : UInt16) (protocol : Protocol) :
    Except String PortForward × Shared cfg :=
  match chooseHostPort shared.node.portForwards hostPort protocol with
  | .error message => (.error message, shared)
  | .ok actualHostPort =>
      let forward : PortForward := ⟨vmId, actualHostPort, vmPort, protocol⟩
      (.ok forward, { shared with
        node := { shared.node with
          portForwards :=
            PortForwardState.add shared.node.portForwards forward } })

def Shared.takeForward (shared : Shared cfg) (hostPort : UInt16)
    (protocol : Protocol) : Option PortForward × Shared cfg :=
  match PortForwardState.remove shared.node.portForwards hostPort
      protocol with
  | (forward, forwards) =>
      (forward, { shared with
        node := { shared.node with portForwards := forwards } })

def Shared.takeForwards (shared : Shared cfg) (order : IterationOrder)
    (vmId : String) : List PortForward × Shared cfg :=
  match PortForwardState.removeAllForVm shared.node.portForwards order
      vmId with
  | (removed, forwards) =>
      (removed, { shared with
        node := { shared.node with portForwards := forwards } })

def Shared.writeTemp (shared : Shared cfg) (done : Bool) (vmId : String)
    (persisted : PersistedVm) : Bool × Shared cfg :=
  if done then
    (true, { shared with
      tempFiles := shared.tempFiles.insert (tempFile vmId) persisted })
  else (false, shared)

/-- A call that writes the same file may have renamed it away. -/
def Shared.renameTemp (shared : Shared cfg) (done : Bool)
    (vmId : String) : Bool × Shared cfg :=
  match done, shared.tempFiles.lookup (tempFile vmId) with
  | true, some persisted =>
      (true, { shared with
        tempFiles := shared.tempFiles.erase (tempFile vmId)
        node := { shared.node with
          stateDir :=
            shared.node.stateDir.insert (stateFile vmId) persisted } })
  | _, _ => (false, shared)

/-- The response of an action and the state after it, or nothing when the
action has to wait. -/
def exec (outcome : Outcome) (action : Action) (shared : Shared cfg) :
    Option (Response action × Shared cfg) :=
  let node := shared.node
  match action with
  | .containsVm id =>
      shared.unlessLocked (decide (id ∈ node.vms), shared)
  | .findIp id =>
      shared.unlessLocked ((node.vms.lookup id).map VmHandle.ip, shared)
  | .removeVm id => shared.unlessLocked (shared.removeVm id)
  | .unlockVms => some ((), { shared with vmsLocked := false })
  | .insertVm id handle =>
      shared.unlessLocked ((), { shared with
        node := { node with vms := node.vms.insert id handle } })
  | .takeOffset => some shared.takeOffset
  | .returnOffset offset =>
      some ((), { shared with
        node := { node with
          usedIpOffsets := node.usedIpOffsets.erase offset } })
  | .allocateIpv6 vmId requested =>
      some (shared.allocateIpv6 outcome.draws vmId requested)
  | .releaseIpv6 vmId =>
      some ((), { shared with node := node.releaseIpv6 vmId })
  | .tryReleaseIpv6 vmId =>
      some ((), if outcome.done then
          { shared with node := node.releaseIpv6 vmId }
        else shared)
  | .writeHosts name content =>
      some (shared.writeHosts outcome.write name content)
  | .removeHosts name =>
      some ((), { shared with
        node := { node with
          hostsdir := removeFile outcome.done node.hostsdir name } })
  | .createTap tap => some (shared.createTap outcome.tap tap)
  | .addTapAddress _ _ => some (outcome.command, shared)
  | .deleteTap tap =>
      some ((), { shared with
        node := { node with
          taps := Vm.deleteTap outcome.done node.taps tap } })
  | .listRuleset _ =>
      some (executeListRuleset outcome.nft.list node.ruleset, shared)
  | .runNft _ commands => some (shared.runNft outcome.nft.batch commands)
  | .addNdpRange tap net =>
      some ((), { shared with
        node := { node with ndpRanges := node.ndpRanges.insert tap net } })
  | .deleteNdpRange tap =>
      some ((), { shared with
        node := { node with ndpRanges := node.ndpRanges.erase tap } })
  | .prepareBoot config =>
      some (Qemu.prepareBoot outcome.verity config, shared)
  | .allocateNuma vcpus memoryMb hint usesHugepages =>
      some (shared.allocateNuma vcpus memoryMb hint usesHugepages)
  | .releaseNuma id vcpus memoryMb size =>
      some ((), { shared with
        node := { node with
          numa := node.numa.release id vcpus memoryMb size } })
  | .startUnit vmId _ => some (shared.startUnit outcome.command vmId)
  | .stopUnit vmId => some ((), shared.stopUnit outcome.command vmId)
  | .readClock => some (outcome.now, shared)
  | .reserveForward vmId hostPort vmPort protocol =>
      some (shared.reserveForward vmId hostPort vmPort protocol)
  | .takeForward hostPort protocol =>
      some (shared.takeForward hostPort protocol)
  | .takeForwards vmId => some (shared.takeForwards outcome.order vmId)
  | .listForwards vmId =>
      some (PortForwardState.listForVm node.portForwards outcome.order vmId,
        shared)
  | .readState vmId =>
      some (if outcome.done then node.stateDir.lookup (stateFile vmId)
        else none, shared)
  | .writeTemp vmId persisted =>
      some (shared.writeTemp outcome.done vmId persisted)
  | .renameTemp vmId => some (shared.renameTemp outcome.done vmId)
  | .deleteState vmId =>
      some ((), { shared with
        node := { node with
          stateDir := if outcome.done then
              node.stateDir.erase (stateFile vmId)
            else node.stateDir } })

/-! ## What an action leaves alone -/

/-- The part of the system that an action reads or changes. -/
inductive Resource where
  | machines
  | lookups
  | offsets
  | ranges
  | reservations
  | taps
  | firewall
  | neighbours
  | images
  | numa
  | units
  | clock
  | forwards
  | files
  deriving DecidableEq, Repr

def Action.resource : Action → Resource
  | .containsVm _ => .lookups
  | .findIp _ => .lookups
  | .removeVm _ => .machines
  | .unlockVms => .machines
  | .insertVm _ _ => .machines
  | .takeOffset => .offsets
  | .returnOffset _ => .offsets
  | .allocateIpv6 _ _ => .ranges
  | .releaseIpv6 _ => .ranges
  | .tryReleaseIpv6 _ => .ranges
  | .writeHosts _ _ => .reservations
  | .removeHosts _ => .reservations
  | .createTap _ => .taps
  | .addTapAddress _ _ => .taps
  | .deleteTap _ => .taps
  | .listRuleset _ => .firewall
  | .runNft _ _ => .firewall
  | .addNdpRange _ _ => .neighbours
  | .deleteNdpRange _ => .neighbours
  | .prepareBoot _ => .images
  | .allocateNuma _ _ _ _ => .numa
  | .releaseNuma _ _ _ _ => .numa
  | .startUnit _ _ => .units
  | .stopUnit _ => .units
  | .readClock => .clock
  | .reserveForward _ _ _ _ => .forwards
  | .takeForward _ _ => .forwards
  | .takeForwards _ => .forwards
  | .listForwards _ => .forwards
  | .readState _ => .files
  | .writeTemp _ _ => .files
  | .renameTemp _ => .files
  | .deleteState _ => .files

/-- The states agree outside the resource. -/
structure SameExcept (resource : Resource) (before after : Shared cfg) :
    Prop where
  vms : resource ≠ .machines → after.node.vms = before.node.vms
  vmsLocked : resource ≠ .machines → after.vmsLocked = before.vmsLocked
  usedIpOffsets : resource ≠ .offsets →
    after.node.usedIpOffsets = before.node.usedIpOffsets
  ipv6Allocations : resource ≠ .ranges →
    after.node.ipv6Allocations = before.node.ipv6Allocations
  hostsdir : resource ≠ .reservations →
    after.node.hostsdir = before.node.hostsdir
  taps : resource ≠ .taps → after.node.taps = before.node.taps
  ruleset : resource ≠ .firewall →
    after.node.ruleset = before.node.ruleset
  units : resource ≠ .units → after.units = before.units
  portForwards : resource ≠ .forwards →
    after.node.portForwards = before.node.portForwards
  stateDir : resource ≠ .files →
    after.node.stateDir = before.node.stateDir
  tempFiles : resource ≠ .files → after.tempFiles = before.tempFiles

theorem SameExcept.refl (resource : Resource) (shared : Shared cfg) :
    SameExcept resource shared shared := by
  constructor <;> exact fun _ => rfl

theorem unlessLocked_eq_some {α : Type}
    {shared reached : Shared cfg} {result : α × Shared cfg}
    {response : α} :
    shared.unlessLocked result = some (response, reached) ↔
      shared.vmsLocked = false ∧ result = (response, reached) := by
  unfold Shared.unlessLocked
  cases shared.vmsLocked <;> simp

theorem Shared.removeVm_sameExcept (shared : Shared cfg) (id : String) :
    SameExcept .machines shared (shared.removeVm id).2 := by
  unfold Shared.removeVm
  split
  · exact .refl _ _
  · constructor <;> simp

theorem Shared.takeOffset_sameExcept (shared : Shared cfg) :
    SameExcept .offsets shared shared.takeOffset.2 := by
  unfold Shared.takeOffset
  split
  · exact .refl _ _
  · constructor <;> simp [Node.takeOffset]

theorem Shared.releaseIpv6_sameExcept (shared : Shared cfg)
    (vmId : String) :
    SameExcept .ranges shared
      { shared with node := shared.node.releaseIpv6 vmId } := by
  unfold Node.releaseIpv6
  split
  · exact .refl _ _
  · constructor <;> simp

theorem Shared.allocateIpv6_sameExcept (shared : Shared cfg)
    (draws : ℕ → ℕ) (vmId : String) (requested : Option Ipv6Net) :
    SameExcept .ranges shared
      (shared.allocateIpv6 draws vmId requested).2 := by
  unfold Shared.allocateIpv6 Node.allocateIpv6
  cases shared.node.ipv6Allocator with
  | none => exact .refl _ _
  | some alloc =>
      simp only
      cases alloc.allocate vmId requested draws with
      | error failure => exact .refl _ _
      | ok result => constructor <;> simp

theorem Shared.runNft_sameExcept (shared : Shared cfg)
    (outcome : BatchOutcome) (commands : List NftCommand) :
    SameExcept .firewall shared (shared.runNft outcome commands).2 := by
  unfold Shared.runNft
  split
  · exact .refl _ _
  · constructor <;> simp

theorem Shared.allocateNuma_sameExcept (shared : Shared cfg)
    (vcpus memoryMb : UInt32) (hint : Option UInt32)
    (usesHugepages : Bool) :
    SameExcept .numa shared
      (shared.allocateNuma vcpus memoryMb hint usesHugepages).2 := by
  unfold Shared.allocateNuma
  split
  · exact .refl _ _
  · constructor <;> simp

theorem Shared.startUnit_sameExcept (shared : Shared cfg)
    (outcome : Except String Unit) (vmId : String) :
    SameExcept .units shared (shared.startUnit outcome vmId).2 := by
  unfold Shared.startUnit
  split
  · split
    · exact .refl _ _
    · constructor <;> simp
  · exact .refl _ _

theorem Shared.stopUnit_sameExcept (shared : Shared cfg)
    (outcome : Except String Unit) (vmId : String) :
    SameExcept .units shared (shared.stopUnit outcome vmId) := by
  unfold Shared.stopUnit
  split
  · exact .refl _ _
  · constructor <;> simp

theorem Shared.reserveForward_sameExcept (shared : Shared cfg)
    (vmId : String) (hostPort vmPort : UInt16) (protocol : Protocol) :
    SameExcept .forwards shared
      (shared.reserveForward vmId hostPort vmPort protocol).2 := by
  unfold Shared.reserveForward
  split
  · exact .refl _ _
  · constructor <;> simp

theorem Shared.writeTemp_sameExcept (shared : Shared cfg) (done : Bool)
    (vmId : String) (persisted : PersistedVm) :
    SameExcept .files shared (shared.writeTemp done vmId persisted).2 := by
  unfold Shared.writeTemp
  split
  · constructor <;> simp
  · exact .refl _ _

theorem Shared.renameTemp_sameExcept (shared : Shared cfg) (done : Bool)
    (vmId : String) :
    SameExcept .files shared (shared.renameTemp done vmId).2 := by
  unfold Shared.renameTemp
  split
  · constructor <;> simp
  · exact .refl _ _

/-- An action changes nothing but its resource. -/
theorem exec_sameExcept
    {outcome : Outcome} {action : Action} {shared reached : Shared cfg}
    {response : Response action}
    (hexec : exec outcome action shared = some (response, reached)) :
    SameExcept action.resource shared reached := by
  cases action with
  | containsVm id =>
      cases (unlessLocked_eq_some.mp hexec).2
      exact .refl _ _
  | findIp id =>
      cases (unlessLocked_eq_some.mp hexec).2
      exact .refl _ _
  | removeVm id =>
      have hresult := (unlessLocked_eq_some.mp hexec).2
      have heffect := shared.removeVm_sameExcept id
      rw [hresult] at heffect
      exact heffect
  | insertVm id handle =>
      cases (unlessLocked_eq_some.mp hexec).2
      constructor <;> simp [Action.resource]
  | takeOffset =>
      have heffect := shared.takeOffset_sameExcept
      rw [Option.some.inj hexec] at heffect
      exact heffect
  | allocateIpv6 vmId requested =>
      have heffect :=
        shared.allocateIpv6_sameExcept outcome.draws vmId requested
      rw [Option.some.inj hexec] at heffect
      exact heffect
  | releaseIpv6 vmId =>
      cases hexec
      exact shared.releaseIpv6_sameExcept vmId
  | tryReleaseIpv6 vmId =>
      cases hexec
      cases outcome.done with
      | false => exact .refl _ _
      | true => exact shared.releaseIpv6_sameExcept vmId
  | runNft purpose commands =>
      have heffect := shared.runNft_sameExcept outcome.nft.batch commands
      rw [Option.some.inj hexec] at heffect
      exact heffect
  | allocateNuma vcpus memoryMb hint usesHugepages =>
      have heffect :=
        shared.allocateNuma_sameExcept vcpus memoryMb hint usesHugepages
      rw [Option.some.inj hexec] at heffect
      exact heffect
  | startUnit vmId command =>
      have heffect := shared.startUnit_sameExcept outcome.command vmId
      rw [Option.some.inj hexec] at heffect
      exact heffect
  | stopUnit vmId =>
      cases hexec
      exact shared.stopUnit_sameExcept outcome.command vmId
  | reserveForward vmId hostPort vmPort protocol =>
      have heffect :=
        shared.reserveForward_sameExcept vmId hostPort vmPort protocol
      rw [Option.some.inj hexec] at heffect
      exact heffect
  | writeTemp vmId persisted =>
      have heffect :=
        shared.writeTemp_sameExcept outcome.done vmId persisted
      rw [Option.some.inj hexec] at heffect
      exact heffect
  | renameTemp vmId =>
      have heffect := shared.renameTemp_sameExcept outcome.done vmId
      rw [Option.some.inj hexec] at heffect
      exact heffect
  | addTapAddress tap net =>
      cases hexec
      exact .refl _ _
  | listRuleset purpose =>
      cases hexec
      exact .refl _ _
  | prepareBoot config =>
      cases hexec
      exact .refl _ _
  | readClock =>
      cases hexec
      exact .refl _ _
  | listForwards vmId =>
      cases hexec
      exact .refl _ _
  | readState vmId =>
      cases hexec
      exact .refl _ _
  | _ =>
      cases hexec
      constructor <;> simp [Action.resource]

/-! ## What single actions do -/

/-- A machine that is taken out leaves the table locked. -/
inductive RemoveVmEffect (shared : Shared cfg) (id : String) :
    Option VmHandle → Shared cfg → Prop
  | missing (hmissing : shared.node.vms.lookup id = none) :
      RemoveVmEffect shared id none shared
  | removed (handle : VmHandle)
      (hlookup : shared.node.vms.lookup id = some handle) :
      RemoveVmEffect shared id (some handle) { shared with
        node := { shared.node with vms := shared.node.vms.erase id }
        vmsLocked := true }

theorem exec_removeVm_effect
    {outcome : Outcome} {id : String} {shared reached : Shared cfg}
    {response : Option VmHandle}
    (hexec : exec outcome (.removeVm id) shared =
      some (response, reached)) :
    RemoveVmEffect shared id response reached := by
  have hresult := (unlessLocked_eq_some.mp hexec).2
  unfold Shared.removeVm at hresult
  cases hlookup : shared.node.vms.lookup id with
  | none =>
      rw [hlookup] at hresult
      cases hresult
      exact .missing hlookup
  | some handle =>
      rw [hlookup] at hresult
      cases hresult
      exact .removed handle hlookup

/-- A batch is run as a whole or not at all. -/
inductive RunNftEffect (shared : Shared cfg) (outcome : BatchOutcome)
    (commands : List NftCommand) : Except String Unit → Shared cfg → Prop
  | failed (message : String)
      (hfailed : executeNftCommands outcome shared.node.ruleset commands =
        .error message) :
      RunNftEffect shared outcome commands (.error message) shared
  | applied (ruleset : Ruleset)
      (hexecuted : executeNftCommands outcome shared.node.ruleset
        commands = .ok ruleset) :
      RunNftEffect shared outcome commands (.ok ())
        { shared with node := { shared.node with ruleset := ruleset } }

theorem exec_runNft_effect
    {outcome : Outcome} {purpose : NftUse} {commands : List NftCommand}
    {shared reached : Shared cfg} {response : Except String Unit}
    (hexec : exec outcome (.runNft purpose commands) shared =
      some (response, reached)) :
    RunNftEffect shared outcome.nft.batch commands response reached := by
  have hresult : shared.runNft outcome.nft.batch commands =
      (response, reached) := Option.some.inj hexec
  unfold Shared.runNft at hresult
  cases hcommands : executeNftCommands outcome.nft.batch
      shared.node.ruleset commands with
  | error message =>
      rw [hcommands] at hresult
      cases hresult
      exact .failed message hcommands
  | ok ruleset =>
      rw [hcommands] at hresult
      cases hresult
      exact .applied ruleset hcommands

/-- Only an inactive unit is started. -/
inductive StartUnitEffect (shared : Shared cfg) (vmId : String) :
    Except String Unit → Shared cfg → Prop
  | failed (message : String) :
      StartUnitEffect shared vmId (.error message) shared
  | started (hinactive : shared.units vmId = .inactive) :
      StartUnitEffect shared vmId (.ok ())
        { shared with units := setUnit shared.units vmId .active }

theorem exec_startUnit_effect
    {outcome : Outcome} {vmId : String} {command : List String}
    {shared reached : Shared cfg} {response : Except String Unit}
    (hexec : exec outcome (.startUnit vmId command) shared =
      some (response, reached)) :
    StartUnitEffect shared vmId response reached := by
  have hresult : shared.startUnit outcome.command vmId =
      (response, reached) := Option.some.inj hexec
  unfold Shared.startUnit at hresult
  split at hresult
  · rename_i hinactive
    split at hresult
    · cases hresult
      exact .failed _
    · cases hresult
      exact .started hinactive
  · cases hresult
    exact .failed _

/-- A forward is put under a host port that was free. -/
inductive ReserveForwardEffect (shared : Shared cfg) (vmId : String)
    (hostPort vmPort : UInt16) (protocol : Protocol) :
    Except String PortForward → Shared cfg → Prop
  | refused (message : String) :
      ReserveForwardEffect shared vmId hostPort vmPort protocol
        (.error message) shared
  | reserved (chosen : UInt16)
      (hport : chooseHostPort shared.node.portForwards hostPort protocol =
        .ok chosen) :
      ReserveForwardEffect shared vmId hostPort vmPort protocol
        (.ok ⟨vmId, chosen, vmPort, protocol⟩) { shared with
          node := { shared.node with
            portForwards := PortForwardState.add shared.node.portForwards
              ⟨vmId, chosen, vmPort, protocol⟩ } }

theorem exec_reserveForward_effect
    {outcome : Outcome} {vmId : String} {hostPort vmPort : UInt16}
    {protocol : Protocol} {shared reached : Shared cfg}
    {response : Except String PortForward}
    (hexec : exec outcome (.reserveForward vmId hostPort vmPort protocol)
      shared = some (response, reached)) :
    ReserveForwardEffect shared vmId hostPort vmPort protocol response
      reached := by
  have hresult : shared.reserveForward vmId hostPort vmPort protocol =
      (response, reached) := Option.some.inj hexec
  unfold Shared.reserveForward at hresult
  cases hport : chooseHostPort shared.node.portForwards hostPort
      protocol with
  | error message =>
      rw [hport] at hresult
      cases hresult
      exact .refused message
  | ok chosen =>
      rw [hport] at hresult
      cases hresult
      exact .reserved chosen hport

end AlephCvm.Vm.Concurrent
