import AlephCvm.CreateVmPhases
import AlephCvm.VmLifecycle

/-!
# What the operations do to the registry

The registry is what the manager itself keeps: the machines, the offsets, the
forwards, the ranges and the state files.  This file says once for each
operation what it does to these tables.

For the registry a creation has three outcomes.  It is refused
before it takes an offset and changes nothing; it completes and registers the
machine; or it fails in between.  In the last case no table but one changes:
the offset it took stays in `used_ip_offsets`.  `Node.Completes` collects what
has to go right, step by step and in terms of the node before the call.
-/

namespace AlephCvm.Vm

open ResultContext TableFolds AlephCvm.Tee AlephCvm.Numa AlephCvm.Net
open AlephCvm.Nft AlephCvm.Qemu

variable {cfg : NodeConfig}

/-- Every step after the choice of the offset succeeds. -/
structure Node.Completes (node : Node cfg) (calls : CreateCalls)
    (config : VmConfig) (requestedIpv6 : Option Ipv6Net)
    (numaHint : Option UInt32) : Prop where
  range : (node.chosenIpv6 calls.draws requestedIpv6).isOk = true
  dhcp : cfg.dhcpHostsdir.isSome → calls.dhcpWrite = .written
  dhcpv6 : cfg.dhcpHostsdir.isSome → cfg.ipv6Pool.isSome →
    calls.dhcpv6Write = .written
  tapFree : tapName config.vmId ∉ node.taps
  tapAdded : calls.tap.add = .ok ()
  tapUp : calls.tap.up = .ok ()
  tapAttached : calls.tap.master = .ok ()
  address : cfg.ipv6Pool.isSome → calls.addIpv6 = .ok ()
  firewall : (cfg.nftables.setupVm calls.nftSetup node.ruleset config.vmId
    (tapName config.vmId)).isOk = true
  launch : launchable node.numa calls config numaHint = true
  drives : drivesAccepted calls config = true
  spawned : calls.spawn = .ok ()

/-- What a completed creation registers. -/
structure Created (node : Node cfg) (calls : CreateCalls)
    (config : VmConfig) (requestedIpv6 : Option Ipv6Net) (offset : UInt8)
    (vmIpv6 : Option Ipv6Net) (launch : Launch) (after : Node cfg) :
    Prop where
  started : Started node calls config.vmId requestedIpv6 offset vmIpv6
  vmId : launch.config.vmId = config.vmId
  vms : after.vms = node.vms.insert config.vmId
    (createdHandle cfg launch (allocateVmIp cfg.gatewayIp offset) vmIpv6
      calls.now)
  usedIpOffsets : after.usedIpOffsets = insert offset node.usedIpOffsets
  portForwards : after.portForwards = node.portForwards
  ipv6Allocations : after.ipv6Allocations =
    withRange node.ipv6Allocations config.vmId vmIpv6
  stateDir : after.stateDir = (node.saveVm calls.save config.vmId
    (persistedOf
      (createdHandle cfg launch (allocateVmIp cfg.gatewayIp offset) vmIpv6
        calls.now)
      (macForVmIp (allocateVmIp cfg.gatewayIp offset)) [])).stateDir

theorem Created.vms_fresh
    {node after : Node cfg} {calls : CreateCalls} {config : VmConfig}
    {requestedIpv6 vmIpv6 : Option Ipv6Net} {offset : UInt8}
    {launch : Launch}
    (hcreated : Created node calls config requestedIpv6 offset vmIpv6
      launch after) : node.vms.lookup config.vmId = none :=
  AList.lookup_eq_none.mpr hcreated.started.fresh

/-- The machines after a creation are the new one and the old ones. -/
theorem Created.vms_lookup_iff
    {node after : Node cfg} {calls : CreateCalls} {config : VmConfig}
    {requestedIpv6 vmIpv6 : Option Ipv6Net} {offset : UInt8}
    {launch : Launch}
    (hcreated : Created node calls config requestedIpv6 offset vmIpv6
      launch after) {id : String} {handle : VmHandle} :
    after.vms.lookup id = some handle ↔
      (id = config.vmId ∧ handle = createdHandle cfg launch
        (allocateVmIp cfg.gatewayIp offset) vmIpv6 calls.now) ∨
      node.vms.lookup id = some handle := by
  rw [hcreated.vms, lookup_insert_iff]
  refine or_congr_right ⟨fun h => h.2, fun hlookup => ⟨?_, hlookup⟩⟩
  rintro rfl
  rw [hcreated.vms_fresh] at hlookup
  cases hlookup

/-- The three outcomes of a creation for the registry. -/
inductive CreateEffect (node : Node cfg) (calls : CreateCalls)
    (config : VmConfig) (requestedIpv6 : Option Ipv6Net)
    (numaHint : Option UInt32) : Except Failure VmInfo × Node cfg → Prop
  | refused (failure : Failure) (hrefused : config.vmId ∈ node.vms ∨
        freeOffset node.usedIpOffsets = none) :
      CreateEffect node calls config requestedIpv6 numaHint
        (.error failure, node)
  | failed (failure : Failure) (offset : UInt8) (after : Node cfg)
      (hfresh : config.vmId ∉ node.vms)
      (hfree : freeOffset node.usedIpOffsets = some offset)
      (hfailed : ¬ node.Completes calls config requestedIpv6 numaHint)
      (hsame : SameRegistry (node.takeOffset offset) after) :
      CreateEffect node calls config requestedIpv6 numaHint
        (.error failure, after)
  | created (info : VmInfo) (offset : UInt8) (vmIpv6 : Option Ipv6Net)
      (launch : Launch) (after : Node cfg)
      (hcompletes : node.Completes calls config requestedIpv6 numaHint)
      (hcreated : Created node calls config requestedIpv6 offset vmIpv6
        launch after) :
      CreateEffect node calls config requestedIpv6 numaHint
        (.ok info, after)

/-- A creation that fails with an offset was neither refused nor complete. -/
theorem Node.not_refused_or_completes
    {node : Node cfg} {calls : CreateCalls} {config : VmConfig}
    {requestedIpv6 : Option Ipv6Net} {numaHint : Option UInt32}
    {offset : UInt8} (hfresh : config.vmId ∉ node.vms)
    (hfree : freeOffset node.usedIpOffsets = some offset)
    (hfailed : ¬ node.Completes calls config requestedIpv6 numaHint) :
    ¬ (config.vmId ∈ node.vms ∨ freeOffset node.usedIpOffsets = none ∨
      node.Completes calls config requestedIpv6 numaHint) := by
  rintro (hknown | hfull | hcompletes)
  · exact hfresh hknown
  · rw [hfree] at hfull
    cases hfull
  · exact hfailed hcompletes

/-! ## Failures -/

theorem Started.sameRegistry
    (node : Node cfg) (vmId : String) (offset : UInt8)
    (vmIpv6 : Option Ipv6Net) :
    SameRegistry (node.takeOffset offset)
      (node.started vmId offset vmIpv6) :=
  ⟨rfl, rfl, rfl, rfl⟩

section Phases

variable {node reserved connected prepared after : Node cfg}
  {calls : CreateCalls} {config : VmConfig}
  {requestedIpv6 vmIpv6 : Option Ipv6Net} {numaHint : Option UInt32}
  {offset : UInt8} {vmIp : Ipv4Addr} {failure : Failure}

theorem ReservationResult.sameRegistry
    {result : Except Failure Unit}
    (hreserved : ReservationResult node calls config.vmId vmIp vmIpv6
      (result, after)) : SameRegistry node after := by
  cases hreserved with
  | done files hwritten hfiles => exact ⟨rfl, rfl, rfl, rfl⟩
  | dhcpRefused message hhostsdir hrefused => exact ⟨rfl, rfl, rfl, rfl⟩
  | dhcpv6Refused net message hhostsdir hwritten hipv6 hrefused =>
      refine SameRegistry.trans ?_ (Node.releaseIpv6_sameRegistry _ _)
      exact ⟨rfl, rfl, rfl, rfl⟩

theorem NetworkResult.sameRegistry
    {result : Except Failure Unit}
    (hconnected : NetworkResult node calls config.vmId vmIpv6
      (result, after)) : SameRegistry node after := by
  cases hconnected with
  | done ruleset hnew hadd hup hmaster hipv6 hsetup =>
      exact ⟨rfl, rfl, rfl, rfl⟩
  | notAdded message hrefused =>
      exact node.cleanupReservations_sameRegistry _ _ _
  | notAttached message hnew hadd hrefused =>
      refine SameRegistry.trans ?_
        (Node.cleanupReservations_sameRegistry _ _ _ _)
      exact ⟨rfl, rfl, rfl, rfl⟩
  | undone message hnew hadd hup hmaster hrefused =>
      refine SameRegistry.trans ?_
        (Node.cleanupReservations_sameRegistry _ _ _ _)
      exact ⟨rfl, rfl, rfl, rfl⟩

theorem LaunchResult.sameRegistry
    {result : Except Failure Launch} {tap : String}
    (hprepared : LaunchResult (node.addNdpRange tap vmIpv6) calls config
      numaHint (result, after)) : SameRegistry node after := by
  rw [Node.addNdpRange_eq] at hprepared
  cases hprepared with
  | ready launch next hlaunchable hdrives hlaunch =>
      exact ⟨rfl, rfl, rfl, rfl⟩
  | refused message hrefused => exact ⟨rfl, rfl, rfl, rfl⟩
  | panicked message next hlaunchable hdrives => exact ⟨rfl, rfl, rfl, rfl⟩

theorem Node.undoLaunch_sameRegistry
    (node : Node cfg) (calls : CleanupCalls) (launch : Launch)
    (vmId : String) (vmIpv6 : Option Ipv6Net) :
    SameRegistry node (node.undoLaunch calls launch vmId vmIpv6) := by
  refine SameRegistry.trans ?_
    (Node.cleanupReservations_sameRegistry _ _ _ _)
  exact ⟨rfl, rfl, rfl, rfl⟩

/-- A creation whose reservations failed does not complete. -/
theorem ReservationResult.not_completes
    (hstarted : Started node calls config.vmId requestedIpv6 offset vmIpv6)
    (hreserved : ReservationResult
      (node.started config.vmId offset vmIpv6) calls config.vmId vmIp
      vmIpv6 (.error failure, after)) :
    ¬ node.Completes calls config requestedIpv6 numaHint := by
  have hpool := Node.chosenIpv6_isSome hstarted.chosen
  intro hcompletes
  cases hreserved with
  | dhcpRefused message hhostsdir hrefused =>
      exact hrefused (hcompletes.dhcp hhostsdir)
  | dhcpv6Refused net message hhostsdir hwritten hipv6 hrefused =>
      refine hrefused (hcompletes.dhcpv6 hhostsdir ?_)
      rw [← hpool, hipv6]
      rfl

theorem NetworkResult.not_completes
    (hpool : vmIpv6.isSome = cfg.ipv6Pool.isSome)
    (hsame : SameHost node reserved)
    (hconnected : NetworkResult reserved calls config.vmId vmIpv6
      (.error failure, after)) :
    ¬ node.Completes calls config requestedIpv6 numaHint := by
  intro hcompletes
  cases hconnected with
  | notAdded message hrefused =>
      rw [hsame.taps, hcompletes.tapAdded] at hrefused
      rcases hrefused with htap | hadd
      · exact hcompletes.tapFree htap
      · cases hadd
  | notAttached message hnew hadd hrefused =>
      rw [hcompletes.tapUp, hcompletes.tapAttached] at hrefused
      rcases hrefused with hup | hmaster
      · cases hup
      · cases hmaster
  | undone message hnew hadd hup hmaster hrefused =>
      rw [hsame.ruleset, hcompletes.firewall] at hrefused
      rcases hrefused with ⟨hsome, haddress⟩ | hfirewall
      · rw [hcompletes.address (hpool ▸ hsome)] at haddress
        cases haddress
      · cases hfirewall

theorem ReservationResult.sameHost
    (hreserved : ReservationResult
      (node.started config.vmId offset vmIpv6) calls config.vmId vmIp
      vmIpv6 (.ok (), reserved)) : SameHost node reserved := by
  cases hreserved with
  | done files hwritten hfiles => exact ⟨rfl, rfl, rfl, rfl⟩

theorem LaunchResult.not_completes
    (hsame : SameHost node reserved)
    (hconnected : NetworkResult reserved calls config.vmId vmIpv6
      (.ok (), connected))
    (hprepared : LaunchResult
      (connected.addNdpRange (tapName config.vmId) vmIpv6) calls config
      numaHint (.error failure, after)) :
    ¬ node.Completes calls config requestedIpv6 numaHint := by
  intro hcompletes
  have hlaunch := hcompletes.launch
  cases hconnected with
  | done ruleset hnew hadd hup hmaster hipv6 hsetup =>
      rw [Node.addNdpRange_eq] at hprepared
      cases hprepared with
      | refused message hrefused =>
          simp only [hsame.numa] at hrefused
          rw [hrefused] at hlaunch
          cases hlaunch
      | panicked message next hlaunchable hdrives =>
          rw [hcompletes.drives] at hdrives
          cases hdrives

theorem completes_of_phases
    (hstarted : Started node calls config.vmId requestedIpv6 offset vmIpv6)
    (hreserved : ReservationResult
      (node.started config.vmId offset vmIpv6) calls config.vmId vmIp
      vmIpv6 (.ok (), reserved))
    (hconnected : NetworkResult reserved calls config.vmId vmIpv6
      (.ok (), connected))
    {launch : Launch}
    (hprepared : LaunchResult
      (connected.addNdpRange (tapName config.vmId) vmIpv6) calls config
      numaHint (.ok launch, prepared))
    (hspawn : calls.spawn = .ok ()) :
    node.Completes calls config requestedIpv6 numaHint := by
  have hpool := Node.chosenIpv6_isSome hstarted.chosen
  have hsame := hreserved.sameHost
  cases hreserved with
  | done files hwritten hfiles =>
  cases hconnected with
  | done ruleset hnew hadd hup hmaster hipv6 hsetup =>
      rw [Node.addNdpRange_eq] at hprepared
      cases hprepared with
      | ready _ next hlaunchable hdrives hlaunch =>
          exact {
            range := by rw [hstarted.chosen]; rfl
            dhcp := fun hdir => (hwritten hdir).1
            dhcpv6 := fun hdir hsome => (hwritten hdir).2 (hpool ▸ hsome)
            tapFree := hnew
            tapAdded := hadd
            tapUp := hup
            tapAttached := hmaster
            address := fun hsome => hipv6 (hpool ▸ hsome)
            firewall := congrArg Except.isOk hsetup
            launch := hlaunchable
            drives := hdrives
            spawned := hspawn }

theorem LaunchResult.vmId_and_ranges
    (hreserved : ReservationResult
      (node.started config.vmId offset vmIpv6) calls config.vmId vmIp
      vmIpv6 (.ok (), reserved))
    (hconnected : NetworkResult reserved calls config.vmId vmIpv6
      (.ok (), connected))
    {launch : Launch}
    (hprepared : LaunchResult
      (connected.addNdpRange (tapName config.vmId) vmIpv6) calls config
      numaHint (.ok launch, prepared)) :
    launch.config.vmId = config.vmId ∧
      prepared.ipv6Allocations =
        withRange node.ipv6Allocations config.vmId vmIpv6 := by
  cases hreserved with
  | done files hwritten hfiles =>
  cases hconnected with
  | done ruleset hnew hadd hup hmaster hipv6 hsetup =>
      rw [Node.addNdpRange_eq] at hprepared
      cases hprepared with
      | ready _ next hlaunchable hdrives hlaunch => exact ⟨hlaunch.vmId, rfl⟩

end Phases

/-! ## The whole call -/

theorem Node.createVm_effect
    (node : Node cfg) (calls : CreateCalls) (config : VmConfig)
    (requestedIpv6 : Option Ipv6Net) (numaHint : Option UInt32) :
    CreateEffect node calls config requestedIpv6 numaHint
      (node.createVm calls config requestedIpv6 numaHint) := by
  have houtcome := node.createVm_outcome calls config requestedIpv6 numaHint
  generalize node.createVm calls config requestedIpv6 numaHint = result
    at houtcome
  cases houtcome with
  | duplicate message hknown => exact .refused _ (.inl hknown)
  | poolExhausted message hfresh hfull => exact .refused _ (.inr hfull)
  | ipv6Refused offset failure hfresh hfree hrefused =>
      refine .failed failure offset _ hfresh hfree ?_ (.refl _)
      intro hcompletes
      have hrange := hcompletes.range
      rw [hrefused] at hrange
      cases hrange
  | notReserved offset vmIpv6 failure after hstarted hreserved =>
      have hsame := (Started.sameRegistry node config.vmId offset
        vmIpv6).trans hreserved.sameRegistry
      exact .failed failure offset after hstarted.fresh hstarted.free
        (hreserved.not_completes hstarted) hsame
  | notConnected offset vmIpv6 reserved failure after hstarted hreserved
      hconnected =>
      have hpool := Node.chosenIpv6_isSome hstarted.chosen
      have hreservedSame := (Started.sameRegistry node config.vmId offset
        vmIpv6).trans hreserved.sameRegistry
      have hsame := hreservedSame.trans hconnected.sameRegistry
      exact .failed failure offset after hstarted.fresh hstarted.free
        (hconnected.not_completes hpool hreserved.sameHost) hsame
  | notPrepared offset vmIpv6 reserved connected failure after hstarted
      hreserved hconnected hprepared =>
      have hreservedSame := (Started.sameRegistry node config.vmId offset
        vmIpv6).trans hreserved.sameRegistry
      have hconnectedSame := hreservedSame.trans hconnected.sameRegistry
      have hsame := hconnectedSame.trans hprepared.sameRegistry
      exact .failed failure offset after hstarted.fresh hstarted.free
        (hprepared.not_completes hreserved.sameHost hconnected) hsame
  | launched offset vmIpv6 reserved connected launch prepared hstarted
      hreserved hconnected hprepared =>
      have hreservedSame := (Started.sameRegistry node config.vmId offset
        vmIpv6).trans hreserved.sameRegistry
      have hconnectedSame := hreservedSame.trans hconnected.sameRegistry
      have hsame := hconnectedSame.trans hprepared.sameRegistry
      unfold Node.launchVm
      cases hspawn : calls.spawn with
      | error message =>
          refine .failed _ offset _ hstarted.fresh hstarted.free ?_
            (hsame.trans (prepared.undoLaunch_sameRegistry _ _ _ _))
          intro hcompletes
          rw [hcompletes.spawned] at hspawn
          cases hspawn
      | ok value =>
          have hcompletes := completes_of_phases hstarted hreserved
            hconnected hprepared hspawn
          obtain ⟨hid, hranges⟩ := LaunchResult.vmId_and_ranges hreserved
            hconnected hprepared
          simp only [hid]
          have hsaved : ∀ persisted, (prepared.saveVm calls.save config.vmId
              persisted).stateDir =
                (node.saveVm calls.save config.vmId persisted).stateDir := by
            intro persisted
            unfold Node.saveVm
            split_ifs
            · exact congrArg (AList.insert _ _) hsame.stateDir
            · exact hsame.stateDir
          have hkept : ∀ persisted, prepared.saveVm calls.save config.vmId
              persisted = { prepared with
                stateDir := (prepared.saveVm calls.save config.vmId
                  persisted).stateDir } := by
            intro persisted
            unfold Node.saveVm
            split_ifs <;> rfl
          rw [hkept]
          exact .created _ offset vmIpv6 launch _ hcompletes {
            started := hstarted
            vmId := hid
            vms := congrArg (AList.insert _ _) hsame.vms
            usedIpOffsets := hsame.usedIpOffsets
            portForwards := hsame.portForwards
            ipv6Allocations := hranges
            stateDir := hsaved _ }

/-! ## Deletion -/

/-- What a deletion does to the registry. -/
structure Deleted (node : Node cfg) (calls : DeleteCalls) (id : String)
    (handle : VmHandle) (after : Node cfg) : Prop where
  vms : after.vms = node.vms.erase id
  usedIpOffsets : after.usedIpOffsets =
    node.usedIpOffsets.erase (ipOffset cfg.gatewayIp handle.ip)
  portForwards : after.portForwards =
    (PortForwardState.removeAllForVm node.portForwards calls.order id).2
  stateDir : after.stateDir = if calls.removeState then
      node.stateDir.erase (stateFile id)
    else node.stateDir
  ipv6Allocations : after.ipv6Allocations =
    if handle.ipv6.isSome && cfg.ipv6Pool.isSome then
      node.ipv6Allocations.erase id
    else node.ipv6Allocations

theorem Deleted.vms_lookup_iff
    {node after : Node cfg} {calls : DeleteCalls} {id : String}
    {handle : VmHandle} (hdeleted : Deleted node calls id handle after)
    {other : String} {otherHandle : VmHandle} :
    after.vms.lookup other = some otherHandle ↔
      other ≠ id ∧ node.vms.lookup other = some otherHandle := by
  rw [hdeleted.vms]
  exact lookup_erase_iff

theorem Node.deleteHandle_deleted
    (node : Node cfg) (calls : DeleteCalls) (id : String)
    (handle : VmHandle) :
    Deleted node calls id handle (node.deleteHandle calls id handle) := by
  unfold Node.deleteHandle
  have hranges := Node.releaseIpv6_ranges (node.dropHandle calls id handle) id
  have hreleased :=
    (node.dropHandle calls id handle).releaseIpv6_sameRegistry id
  cases hipv6 : handle.ipv6.isSome with
  | false =>
      simp only [Bool.false_eq_true, if_false]
      have hremoved := (node.dropHandle calls id
        handle).removeReservations_sameRegistry calls.cleanup
        handle.config.vmId false
      exact {
        vms := hremoved.vms
        usedIpOffsets := hremoved.usedIpOffsets
        portForwards := hremoved.portForwards
        stateDir := hremoved.stateDir
        ipv6Allocations := by
          rw [Node.removeReservations_ipv6Allocations, hipv6]
          rfl }
  | true =>
      simp only [if_true]
      have hremoved := hreleased.trans (((node.dropHandle calls id
        handle).releaseIpv6 id).removeReservations_sameRegistry
        calls.cleanup handle.config.vmId true)
      exact {
        vms := hremoved.vms
        usedIpOffsets := hremoved.usedIpOffsets
        portForwards := hremoved.portForwards
        stateDir := hremoved.stateDir
        ipv6Allocations := by
          rw [Node.removeReservations_ipv6Allocations, hipv6, hranges,
            Bool.true_and]
          rfl }

/-! ## Port forwards -/

/-- The operation leaves machines, offsets and ranges alone. -/
structure SameMachines (before after : Node cfg) : Prop where
  vms : after.vms = before.vms
  usedIpOffsets : after.usedIpOffsets = before.usedIpOffsets
  ipv6Allocations : after.ipv6Allocations = before.ipv6Allocations

/-- The state file of a machine, when there is one, gets its current list of
forwards. -/
inductive ForwardsSaved (node : Node cfg) (calls : ForwardCalls)
    (vmId : String) : Node cfg → Prop
  | unsaved (hunsaved : calls.save = false ∨
        node.stateDir.lookup (stateFile vmId) = none) :
      ForwardsSaved node calls vmId node
  | saved (persisted : PersistedVm)
      (hfile : node.stateDir.lookup (stateFile vmId) = some persisted) :
      ForwardsSaved node calls vmId { node with
        stateDir := node.stateDir.insert (stateFile vmId) { persisted with
          portForwards := PortForwardState.listForVm node.portForwards
            calls.order vmId } }

theorem Node.updatePersistedPortForwards_saved
    (node : Node cfg) (calls : ForwardCalls) (vmId : String) :
    ForwardsSaved node calls vmId
      (node.updatePersistedPortForwards calls vmId) := by
  unfold Node.updatePersistedPortForwards Node.saveVm
  cases hfile : node.stateDir.lookup (stateFile vmId) with
  | none => exact .unsaved (.inr hfile)
  | some persisted =>
      cases hsave : calls.save with
      | false => exact .unsaved (.inl hsave)
      | true => exact .saved persisted hfile

theorem ForwardsSaved.sameMachines
    {node after : Node cfg} {calls : ForwardCalls} {vmId : String}
    (hsaved : ForwardsSaved node calls vmId after) :
    SameMachines node after := by
  cases hsaved with
  | unsaved hunsaved => exact ⟨rfl, rfl, rfl⟩
  | saved persisted hfile => exact ⟨rfl, rfl, rfl⟩

theorem ForwardsSaved.portForwards
    {node after : Node cfg} {calls : ForwardCalls} {vmId : String}
    (hsaved : ForwardsSaved node calls vmId after) :
    after.portForwards = node.portForwards := by
  cases hsaved with
  | unsaved hunsaved => rfl
  | saved persisted hfile => rfl

theorem ForwardsSaved.ruleset
    {node after : Node cfg} {calls : ForwardCalls} {vmId : String}
    (hsaved : ForwardsSaved node calls vmId after) :
    after.ruleset = node.ruleset := by
  cases hsaved with
  | unsaved hunsaved => rfl
  | saved persisted hfile => rfl

inductive AddForwardEffect (node : Node cfg) (calls : ForwardCalls)
    (vmId : String) : Node cfg → Prop
  | refused : AddForwardEffect node calls vmId node
  | rolledBack (forward : PortForward)
      (hfree : node.portForwards.lookup forward.key = none) :
      AddForwardEffect node calls vmId { node with
        portForwards := ((PortForwardState.add node.portForwards
          forward).erase forward.key) }
  | added (forward : PortForward) (handle : VmHandle) (ruleset : Ruleset)
      (after : Node cfg)
      (hvm : node.vms.lookup vmId = some handle)
      (howner : forward.vmId = vmId)
      (hfree : node.portForwards.lookup forward.key = none)
      (hsaved : ForwardsSaved { node with
        portForwards := PortForwardState.add node.portForwards forward,
        ruleset := ruleset } calls vmId after) :
      AddForwardEffect node calls vmId after

theorem AddForwardEffect.sameMachines
    {node after : Node cfg} {calls : ForwardCalls} {vmId : String}
    (heffect : AddForwardEffect node calls vmId after) :
    SameMachines node after := by
  cases heffect with
  | refused => exact ⟨rfl, rfl, rfl⟩
  | rolledBack forward hfree => exact ⟨rfl, rfl, rfl⟩
  | added forward handle ruleset after hvm howner hfree hsaved =>
      obtain ⟨hvms, hused, hranges⟩ := hsaved.sameMachines
      exact ⟨hvms, hused, hranges⟩

theorem chooseHostPort_free
    {forwards : PortForwardState} {hostPort chosen : UInt16}
    {protocol : Protocol}
    (hok : chooseHostPort forwards hostPort protocol = .ok chosen) :
    forwards.lookup (chosen, protocol) = none := by
  have hfree : PortForwardState.isAvailable forwards chosen protocol =
      true := by
    unfold chooseHostPort at hok
    split_ifs at hok with hzero havailable
    · rw [optionContext_eq_ok] at hok
      exact PortForwardState.autoAllocate_available forwards hok
    · cases hok
      exact havailable
  rw [AList.lookup_eq_none]
  simpa [PortForwardState.isAvailable] using hfree

/-- The ways in which an addition ends. -/
inductive AddForwardResult (node : Node cfg) (calls : ForwardCalls)
    (vmId : String) (hostPort vmPort : UInt16) (protocol : Protocol) :
    Except String PortForward × Node cfg → Prop
  | refused (message : String) :
      AddForwardResult node calls vmId hostPort vmPort protocol
        (.error message, node)
  | rolledBack (message : String) (chosen : UInt16)
      (hchosen : chooseHostPort node.portForwards hostPort protocol =
        .ok chosen) :
      AddForwardResult node calls vmId hostPort vmPort protocol
        (.error message, { node with
          portForwards := (PortForwardState.add node.portForwards
            ⟨vmId, chosen, vmPort, protocol⟩).erase (chosen, protocol) })
  | added (handle : VmHandle) (chosen : UInt16) (ruleset : Ruleset)
      (after : Node cfg) (hvm : node.vms.lookup vmId = some handle)
      (hchosen : chooseHostPort node.portForwards hostPort protocol =
        .ok chosen)
      (hadd : cfg.nftables.addPortForward calls.nft node.ruleset vmId
        (ipv4Text handle.ip) chosen vmPort protocol = .ok ruleset)
      (hsaved : ForwardsSaved { node with
        portForwards := PortForwardState.add node.portForwards
          ⟨vmId, chosen, vmPort, protocol⟩,
        ruleset := ruleset } calls vmId after) :
      AddForwardResult node calls vmId hostPort vmPort protocol
        (.ok ⟨vmId, chosen, vmPort, protocol⟩, after)

theorem Node.addPortForward_result
    (node : Node cfg) (calls : ForwardCalls) (vmId : String)
    (hostPort vmPort : UInt16) (protocol : Protocol) :
    AddForwardResult node calls vmId hostPort vmPort protocol
      (node.addPortForward calls vmId hostPort vmPort protocol) := by
  unfold Node.addPortForward
  cases hvm : node.vms.lookup vmId with
  | none => exact .refused _
  | some handle =>
      cases hchosen : chooseHostPort node.portForwards hostPort protocol with
      | error message => exact .refused message
      | ok chosen =>
          simp only
          cases hadd : cfg.nftables.addPortForward calls.nft node.ruleset
              vmId (ipv4Text handle.ip) chosen vmPort protocol with
          | error message => exact .rolledBack _ chosen hchosen
          | ok ruleset =>
              exact .added handle chosen ruleset _ hvm hchosen hadd
                (Node.updatePersistedPortForwards_saved _ calls vmId)

theorem Node.addPortForward_effect
    (node : Node cfg) (calls : ForwardCalls) (vmId : String)
    (hostPort vmPort : UInt16) (protocol : Protocol) :
    AddForwardEffect node calls vmId
      (node.addPortForward calls vmId hostPort vmPort protocol).2 := by
  have hresult := node.addPortForward_result calls vmId hostPort vmPort
    protocol
  generalize node.addPortForward calls vmId hostPort vmPort protocol =
    result at hresult
  cases hresult with
  | refused message => exact .refused
  | rolledBack message chosen hchosen =>
      exact .rolledBack ⟨vmId, chosen, vmPort, protocol⟩
        (chooseHostPort_free hchosen)
  | added handle chosen ruleset after hvm hchosen hadd hsaved =>
      exact .added ⟨vmId, chosen, vmPort, protocol⟩ handle ruleset after hvm
        rfl (chooseHostPort_free hchosen) hsaved

inductive RemoveForwardEffect (node : Node cfg) (calls : ForwardCalls) :
    Node cfg → Prop
  | refused : RemoveForwardEffect node calls node
  | unsaved (key : UInt16 × Protocol)
      (hfailed : ∀ next, cfg.nftables.removePortForward calls.nft
        node.ruleset key.1 key.2 ≠ .ok next) :
      RemoveForwardEffect node calls { node with
        portForwards := node.portForwards.erase key }
  | removed (key : UInt16 × Protocol) (forward : PortForward)
      (ruleset : Ruleset) (after : Node cfg)
      (hfound : node.portForwards.lookup key = some forward)
      (hsaved : ForwardsSaved { node with
        portForwards := node.portForwards.erase key,
        ruleset := ruleset } calls forward.vmId after) :
      RemoveForwardEffect node calls after

theorem RemoveForwardEffect.sameMachines
    {node after : Node cfg} {calls : ForwardCalls}
    (heffect : RemoveForwardEffect node calls after) :
    SameMachines node after := by
  cases heffect with
  | refused => exact ⟨rfl, rfl, rfl⟩
  | unsaved key hfailed => exact ⟨rfl, rfl, rfl⟩
  | removed key forward ruleset after hfound hsaved =>
      obtain ⟨hvms, hused, hranges⟩ := hsaved.sameMachines
      exact ⟨hvms, hused, hranges⟩

/-- The ways in which a removal ends. -/
inductive RemoveForwardResult (node : Node cfg) (calls : ForwardCalls)
    (key : UInt16 × Protocol) : Except String Unit × Node cfg → Prop
  | notFound (message : String)
      (hnone : node.portForwards.lookup key = none) :
      RemoveForwardResult node calls key (.error message, node)
  | unremoved (message : String) (forward : PortForward)
      (hfound : node.portForwards.lookup key = some forward)
      (hfailed : cfg.nftables.removePortForward calls.nft node.ruleset key.1
        key.2 = .error message) :
      RemoveForwardResult node calls key
        (.error message, { node with
          portForwards := node.portForwards.erase key })
  | removed (forward : PortForward) (ruleset : Ruleset) (after : Node cfg)
      (hfound : node.portForwards.lookup key = some forward)
      (hremove : cfg.nftables.removePortForward calls.nft node.ruleset key.1
        key.2 = .ok ruleset)
      (hsaved : ForwardsSaved { node with
        portForwards := node.portForwards.erase key,
        ruleset := ruleset } calls forward.vmId after) :
      RemoveForwardResult node calls key (.ok (), after)

theorem Node.removePortForward_result
    (node : Node cfg) (calls : ForwardCalls) (hostPort : UInt16)
    (protocol : Protocol) :
    RemoveForwardResult node calls (hostPort, protocol)
      (node.removePortForward calls hostPort protocol) := by
  unfold Node.removePortForward PortForwardState.remove
  cases hfound : node.portForwards.lookup (hostPort, protocol) with
  | none => exact .notFound _ hfound
  | some forward =>
      simp only
      cases hremove : cfg.nftables.removePortForward calls.nft node.ruleset
          hostPort protocol with
      | error message => exact .unremoved message forward hfound hremove
      | ok ruleset =>
          exact .removed forward ruleset _ hfound hremove
            (Node.updatePersistedPortForwards_saved _ calls forward.vmId)

theorem Node.removePortForward_effect
    (node : Node cfg) (calls : ForwardCalls) (hostPort : UInt16)
    (protocol : Protocol) :
    RemoveForwardEffect node calls
      (node.removePortForward calls hostPort protocol).2 := by
  have hresult := node.removePortForward_result calls hostPort protocol
  generalize node.removePortForward calls hostPort protocol = result
    at hresult
  cases hresult with
  | notFound message hnone => exact .refused
  | unremoved message forward hfound hfailed =>
      apply RemoveForwardEffect.unsaved (hostPort, protocol)
      intro next hok
      rw [hfailed] at hok
      cases hok
  | removed forward ruleset after hfound hremove hsaved =>
      exact .removed (hostPort, protocol) forward ruleset after hfound hsaved

/-! ## All operations -/

/-- What one operation of the manager does to the registry. -/
inductive StepEffect (node : Node cfg) : ManagerOp → Node cfg → Prop
  | createVm {calls : CreateCalls} {config : VmConfig}
      {requestedIpv6 : Option Ipv6Net} {numaHint : Option UInt32}
      {result : Except Failure VmInfo} {after : Node cfg}
      (heffect : CreateEffect node calls config requestedIpv6 numaHint
        (result, after)) :
      StepEffect node (.createVm calls config requestedIpv6 numaHint) after
  | notFound {calls : DeleteCalls} {id : String}
      (hnone : node.vms.lookup id = none) :
      StepEffect node (.deleteVm calls id) node
  | deleted {calls : DeleteCalls} {id : String} {handle : VmHandle}
      {after : Node cfg} (hvm : node.vms.lookup id = some handle)
      (hdeleted : Deleted node calls id handle after) :
      StepEffect node (.deleteVm calls id) after
  | addPortForward {calls : ForwardCalls} {vmId : String}
      {hostPort vmPort : UInt16} {protocol : Protocol} {after : Node cfg}
      (heffect : AddForwardEffect node calls vmId after) :
      StepEffect node (.addPortForward calls vmId hostPort vmPort protocol)
        after
  | removePortForward {calls : ForwardCalls} {hostPort : UInt16}
      {protocol : Protocol} {after : Node cfg}
      (heffect : RemoveForwardEffect node calls after) :
      StepEffect node (.removePortForward calls hostPort protocol) after
  | restart (calls : RestartCalls) :
      StepEffect node (.restart calls) (node.restart calls)

theorem Node.step_effect
    (node : Node cfg) (op : ManagerOp) :
    StepEffect node op (node.step op) := by
  cases op with
  | createVm calls config requestedIpv6 numaHint =>
      exact .createVm
        (node.createVm_effect calls config requestedIpv6 numaHint)
  | deleteVm calls id =>
      simp only [Node.step, Node.deleteVm]
      cases hvm : node.vms.lookup id with
      | none => exact .notFound hvm
      | some handle =>
          exact .deleted hvm (node.deleteHandle_deleted calls id handle)
  | addPortForward calls vmId hostPort vmPort protocol =>
      exact .addPortForward
        (node.addPortForward_effect calls vmId hostPort vmPort protocol)
  | removePortForward calls hostPort protocol =>
      exact .removePortForward
        (node.removePortForward_effect calls hostPort protocol)
  | restart calls => exact .restart calls

end AlephCvm.Vm
