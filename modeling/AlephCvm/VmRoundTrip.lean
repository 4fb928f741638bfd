import AlephCvm.CreateVmCleanup
import AlephCvm.GrpcService
import AlephCvm.StateMirror

/-!
# A creation and its deletion

The manager keeps a machine in eight stores, each under a name derived from
the machine's id: the id itself, `id.v6`, `id.json`, `tap-id`, and the offset
of its address.  Between two accepted ids none of these names collide, since
an accepted id has no dot.

The file says when `delete_vm` takes out of each store exactly what
`create_vm` put in, with other operations in between or with none.
-/

namespace AlephCvm.Vm

open ResultContext StepRuns TableFolds AlephCvm.Tee AlephCvm.Numa
open AlephCvm.Net AlephCvm.Nft AlephCvm.Qemu

variable {cfg : NodeConfig}

/-! ## Names -/

theorem toList_dhcpv6File (vmId : String) :
    (dhcpv6File vmId).toList = vmId.toList ++ ".v6".toList := by
  simp only [dhcpv6File, toString, String.toList_append]

theorem dhcpv6File_injective {first second : String}
    (hsame : dhcpv6File first = dhcpv6File second) : first = second := by
  have hlist := congrArg String.toList hsame
  rw [toList_dhcpv6File, toList_dhcpv6File] at hlist
  exact String.toList_inj.mp (List.append_cancel_right hlist)

theorem tapName_injective {first second : String}
    (hsame : tapName first = tapName second) : first = second := by
  have hlist := congrArg String.toList hsame
  simp only [tapName, toString, String.toList_append] at hlist
  exact String.toList_inj.mp (List.append_cancel_left hlist)

theorem dot_notMem_of_validateVmId {vmId : String}
    (hvalid : Grpc.validateVmId vmId = .ok ()) : '.' ∉ vmId.toList := by
  intro hdot
  have hchar := (Grpc.validateVmId_chars hvalid).2 '.' hdot
  exact absurd hchar (by decide)

/-- No reservation file of one accepted id is one of another. -/
theorem reservedName_other
    {id other : String} (hid : Grpc.validateVmId id = .ok ())
    (hother : Grpc.validateVmId other = .ok ()) (hne : other ≠ id)
    (cfg : NodeConfig) (hasIpv6 : Bool) :
    reservedName cfg id hasIpv6 other = false ∧
      reservedName cfg id hasIpv6 (dhcpv6File other) = false := by
  have hdotted : ∀ vmId, '.' ∈ (dhcpv6File vmId).toList := by
    intro vmId
    rw [toList_dhcpv6File]
    exact List.mem_append_right _ (by decide)
  have hplain : other ≠ dhcpv6File id := by
    intro heq
    exact dot_notMem_of_validateVmId hother (heq ▸ hdotted id)
  have hcross : dhcpv6File other ≠ id := by
    intro heq
    exact dot_notMem_of_validateVmId hid (heq ▸ hdotted other)
  have hboth : dhcpv6File other ≠ dhcpv6File id := fun heq =>
    hne (dhcpv6File_injective heq)
  constructor
  · simp [reservedName, hne, hplain]
  · simp [reservedName, hcross, hboth]

/-! ## Entries -/

/-- No entry of the machine is left in any store. -/
structure Node.Cleared (node : Node cfg) (id : String) (vmIp : Ipv4Addr) :
    Prop where
  vms : node.vms.lookup id = none
  usedIpOffsets : ipOffset cfg.gatewayIp vmIp ∉ node.usedIpOffsets
  ipv6Allocations : node.ipv6Allocations.lookup id = none
  portForwards : ∀ key forward,
    node.portForwards.lookup key = some forward → forward.vmId ≠ id
  ndpRanges : node.ndpRanges.lookup (tapName id) = none
  dhcp : node.hostsdir.lookup id = none
  dhcpv6 : node.hostsdir.lookup (dhcpv6File id) = none
  taps : tapName id ∉ node.taps
  stateDir : node.stateDir.lookup (stateFile id) = none

/-- The entries of all other machines are as they were. -/
structure OthersKept (before after : Node cfg) (id : String) : Prop where
  vms : ∀ other, other ≠ id →
    after.vms.lookup other = before.vms.lookup other
  usedIpOffsets : ∀ other handle, other ≠ id →
    before.vms.lookup other = some handle →
      (ipOffset cfg.gatewayIp handle.ip ∈ after.usedIpOffsets ↔
        ipOffset cfg.gatewayIp handle.ip ∈ before.usedIpOffsets)
  ipv6Allocations : ∀ other, other ≠ id →
    after.ipv6Allocations.lookup other =
      before.ipv6Allocations.lookup other
  portForwards : ∀ key forward, forward.vmId ≠ id →
    (after.portForwards.lookup key = some forward ↔
      before.portForwards.lookup key = some forward)
  ndpRanges : ∀ other, other ≠ id →
    after.ndpRanges.lookup (tapName other) =
      before.ndpRanges.lookup (tapName other)
  dhcp : ∀ other, other ≠ id → Grpc.validateVmId other = .ok () →
    after.hostsdir.lookup other = before.hostsdir.lookup other ∧
      after.hostsdir.lookup (dhcpv6File other) =
        before.hostsdir.lookup (dhcpv6File other)
  taps : ∀ other, other ≠ id →
    (tapName other ∈ after.taps ↔ tapName other ∈ before.taps)
  stateDir : ∀ other, other ≠ id →
    after.stateDir.lookup (stateFile other) =
      before.stateDir.lookup (stateFile other)

/-- The two nodes have the same entries in all eight stores. -/
structure SameEntries (before after : Node cfg) : Prop where
  vms : ∀ id, after.vms.lookup id = before.vms.lookup id
  usedIpOffsets : after.usedIpOffsets = before.usedIpOffsets
  ipv6Allocations : ∀ id,
    after.ipv6Allocations.lookup id = before.ipv6Allocations.lookup id
  portForwards : ∀ key,
    after.portForwards.lookup key = before.portForwards.lookup key
  ndpRanges : ∀ tap,
    after.ndpRanges.lookup tap = before.ndpRanges.lookup tap
  hostsdir : ∀ name,
    after.hostsdir.lookup name = before.hostsdir.lookup name
  taps : after.taps = before.taps
  stateDir : ∀ name,
    after.stateDir.lookup name = before.stateDir.lookup name

/-! ## The deletion -/

def DeleteCalls.Succeed (calls : DeleteCalls) : Prop :=
  calls.cleanup.Succeed ∧ calls.removeState = true

/-- What a deletion does to interfaces, NDP ranges and reservation files. -/
structure DeletedHost (node : Node cfg) (handle : VmHandle)
    (after : Node cfg) : Prop where
  taps : after.taps = node.taps.erase handle.tapName
  ndpRanges : after.ndpRanges = if cfg.hasNdpProxy then
      node.ndpRanges.erase handle.tapName
    else node.ndpRanges
  hostsdir : ∀ name, after.hostsdir.lookup name =
    if reservedName cfg handle.config.vmId handle.ipv6.isSome name then none
    else node.hostsdir.lookup name

theorem Node.deleteHandle_host
    (node : Node cfg) {calls : DeleteCalls} (hcalls : calls.Succeed)
    (id : String) (handle : VmHandle) :
    DeletedHost node handle (node.deleteHandle calls id handle) := by
  have hdropped : ∀ released : Node cfg,
      SameHost (node.dropHandle calls id handle) released →
      released.hostsdir = node.hostsdir →
      DeletedHost node handle (released.removeReservations calls.cleanup
        handle.config.vmId handle.ipv6.isSome) := by
    intro released hsame hfiles
    have hremoved := released.removeReservations_sameHost calls.cleanup
      handle.config.vmId handle.ipv6.isSome
    constructor
    · rw [hremoved.taps, hsame.taps]
      simp only [Node.dropHandle, deleteTap, hcalls.1.1, if_true]
    · rw [hremoved.ndpRanges, hsame.ndpRanges]
      rfl
    · intro name
      rw [released.removeReservations_lookup hcalls.1, hfiles]
  unfold Node.deleteHandle
  simp only
  split_ifs with hipv6
  · exact hdropped _ (Node.releaseIpv6_sameHost _ _)
      (Node.releaseIpv6_hostsdir _ _)
  · exact hdropped _ (.refl _) rfl

/-! ## The creation -/

/-- What a completed creation does to interfaces, NDP ranges and reservation
files. -/
structure CreatedHost (node : Node cfg) (vmId : String) (after : Node cfg) :
    Prop where
  fresh : tapName vmId ∉ node.taps
  taps : after.taps = insert (tapName vmId) node.taps
  ndpRanges : ∀ tap, tap ≠ tapName vmId ∨ cfg.hasNdpProxy = false →
    after.ndpRanges.lookup tap = node.ndpRanges.lookup tap
  hostsdir : ∀ name, reservedName cfg vmId cfg.ipv6Pool.isSome name =
      false → after.hostsdir.lookup name = node.hostsdir.lookup name

theorem Node.ndpRangesWith_lookup
    (node : Node cfg) {vmId tap : String} (vmIpv6 : Option Ipv6Net)
    (htap : tap ≠ tapName vmId ∨ cfg.hasNdpProxy = false) :
    (node.ndpRangesWith (tapName vmId) vmIpv6).lookup tap =
      node.ndpRanges.lookup tap := by
  unfold Node.ndpRangesWith
  cases vmIpv6 with
  | none => rfl
  | some net =>
      cases hproxy : cfg.hasNdpProxy with
      | false => rfl
      | true =>
          have hne : tap ≠ tapName vmId := by simpa [hproxy] using htap
          exact AList.lookup_insert_ne hne

theorem Node.saveVm_host
    (node : Node cfg) (done : Bool) (vmId : String)
    (persisted : PersistedVm) :
    SameHost node (node.saveVm done vmId persisted) ∧
      (node.saveVm done vmId persisted).hostsdir = node.hostsdir := by
  unfold Node.saveVm
  split_ifs
  · exact ⟨⟨rfl, rfl, rfl, rfl⟩, rfl⟩
  · exact ⟨.refl node, rfl⟩

theorem Node.createVm_host
    {node after : Node cfg} {calls : CreateCalls} {config : VmConfig}
    {requestedIpv6 : Option Ipv6Net} {numaHint : Option UInt32}
    {info : VmInfo}
    (hok : node.createVm calls config requestedIpv6 numaHint =
      (.ok info, after)) : CreatedHost node config.vmId after := by
  have houtcome := node.createVm_outcome calls config requestedIpv6 numaHint
  rw [hok] at houtcome
  generalize hresult : ((.ok info, after) :
    Except Failure VmInfo × Node cfg) = result at houtcome
  cases houtcome with
  | launched offset vmIpv6 reserved connected launch prepared hstarted
      hreserved hconnected hprepared =>
      have hpool := Node.chosenIpv6_isSome hstarted.chosen
      obtain ⟨hready, _, _, hfiles, _⟩ := ReadyHost.of_phases
        hreserved.sameHost hconnected hprepared
      cases hspawn : calls.spawn with
      | error message =>
          rw [Node.launchVm, hspawn] at hresult
          cases hresult
      | ok done =>
          rw [Node.launchVm, hspawn] at hresult
          simp only [Prod.mk.injEq] at hresult
          obtain ⟨_, rfl⟩ := hresult
          have hsaved := fun persisted => prepared.saveVm_host calls.save
            launch.config.vmId persisted
          refine ⟨hready.fresh, ?_, ?_, ?_⟩
          · exact (hsaved _).1.taps.trans hready.taps
          · intro tap htap
            refine (congrArg (AList.lookup tap)
              ((hsaved _).1.ndpRanges.trans hready.ndpRanges)).trans ?_
            exact node.ndpRangesWith_lookup vmIpv6 htap
          · intro name hname
            refine (congrArg (AList.lookup name)
              ((hsaved _).2.trans hfiles)).trans ?_
            cases hreserved with
            | done files hwritten hkept =>
                exact hkept name (hpool ▸ hname)
  | duplicate message hknown => cases hresult
  | poolExhausted message hfresh hfull => cases hresult
  | ipv6Refused offset failure hfresh hfree hrefused => cases hresult
  | notReserved offset vmIpv6 failure after hstarted hreserved =>
      cases hresult
  | notConnected offset vmIpv6 reserved failure after hstarted hreserved
      hconnected => cases hresult
  | notPrepared offset vmIpv6 reserved connected failure after hstarted
      hreserved hconnected hprepared => cases hresult

/-! ## Operations in between -/

/-- The operation is on another machine, or on forwards. -/
def ManagerOp.Elsewhere (id : String) : ManagerOp → Prop
  | .createVm _ config _ _ => config.vmId ≠ id
  | .deleteVm _ other => other ≠ id
  | .addPortForward _ _ _ _ _ => True
  | .removePortForward _ _ _ => True
  | .restart _ => False

theorem Node.step_vms_of_elsewhere
    (node : Node cfg) {id : String} {op : ManagerOp}
    (helsewhere : op.Elsewhere id) :
    (node.step op).vms.lookup id = node.vms.lookup id := by
  have heffect := node.step_effect op
  generalize node.step op = after at heffect
  cases heffect with
  | createVm heffect =>
      cases heffect with
      | refused failure hrefused => rfl
      | failed failure offset after hfresh hfree hfailed hsame =>
          rw [hsame.vms]
          rfl
      | created info offset vmIpv6 launch after hcompletes hcreated =>
          rw [hcreated.vms, AList.lookup_insert_ne
            fun heq => helsewhere heq.symm]
  | notFound hnone => rfl
  | deleted hvm hdeleted =>
      rw [hdeleted.vms, AList.lookup_erase_ne
        fun heq => helsewhere heq.symm]
  | addPortForward heffect => rw [heffect.sameMachines.vms]
  | removePortForward heffect => rw [heffect.sameMachines.vms]
  | restart calls => exact helsewhere.elim

theorem Node.run_vms_of_elsewhere
    (node : Node cfg) {id : String} {ops : List ManagerOp}
    (helsewhere : ∀ op ∈ ops, op.Elsewhere id) :
    (run Node.step node ops).vms.lookup id = node.vms.lookup id := by
  induction ops generalizing node with
  | nil => rfl
  | cons op rest ih =>
      rw [← node.step_vms_of_elsewhere
        (helsewhere op List.mem_cons_self)]
      exact ih (node.step op) fun other hother =>
        helsewhere other (List.mem_cons_of_mem op hother)

/-! ## What the deletion leaves -/

/-- The handle has the names of a machine that was created under the id. -/
structure HandleOf (cfg : NodeConfig) (id : String) (handle : VmHandle) :
    Prop where
  vmId : handle.config.vmId = id
  tap : handle.tapName = tapName id
  ipv6 : handle.ipv6.isSome = cfg.ipv6Pool.isSome

/-- There is nothing under the names of the machine in the stores that this
configuration does not use. -/
structure Node.UnusedEmpty (node : Node cfg) (id : String) : Prop where
  ranges : cfg.ipv6Pool.isSome = false →
    node.ipv6Allocations.lookup id = none
  ndpRanges : cfg.hasNdpProxy = false →
    node.ndpRanges.lookup (tapName id) = none
  dhcp : cfg.dhcpHostsdir.isSome = false → node.hostsdir.lookup id = none
  dhcpv6 : (cfg.dhcpHostsdir.isSome && cfg.ipv6Pool.isSome) = false →
    node.hostsdir.lookup (dhcpv6File id) = none

/-- The offset that the deletion returns is not that of another machine. -/
def Node.OffsetUnshared (node : Node cfg) (id : String)
    (handle : VmHandle) : Prop :=
  ∀ other otherHandle, other ≠ id →
    node.vms.lookup other = some otherHandle →
    ipOffset cfg.gatewayIp otherHandle.ip =
      ipOffset cfg.gatewayIp handle.ip →
    ipOffset cfg.gatewayIp handle.ip ∉ node.usedIpOffsets

/-- Nothing is registered under the names of the machine yet. -/
structure Node.Unregistered (node : Node cfg) (id : String) : Prop where
  ranges : cfg.ipv6Pool.isSome = true →
    node.ipv6Allocations.lookup id = none
  portForwards : ∀ key forward,
    node.portForwards.lookup key = some forward → forward.vmId ≠ id
  ndpRanges : cfg.hasNdpProxy = true →
    node.ndpRanges.lookup (tapName id) = none
  hostsdir : ∀ name, reservedName cfg id cfg.ipv6Pool.isSome name = true →
    node.hostsdir.lookup name = none
  stateDir : node.stateDir.lookup (stateFile id) = none

section Deletion

variable {node : Node cfg} {calls : DeleteCalls} {id : String}
  {handle : VmHandle}

theorem HandleOf.ranges
    (hof : HandleOf cfg id handle) (node : Node cfg) (calls : DeleteCalls)
    (other : String) :
    (node.deleteHandle calls id handle).ipv6Allocations.lookup other =
      if cfg.ipv6Pool.isSome = true ∧ other = id then none
      else node.ipv6Allocations.lookup other := by
  rw [(node.deleteHandle_deleted calls id handle).ipv6Allocations, hof.ipv6,
    Bool.and_self]
  by_cases hpool : cfg.ipv6Pool.isSome = true
  · rw [if_pos hpool]
    by_cases hother : other = id
    · rw [if_pos ⟨hpool, hother⟩, hother]
      exact AList.lookup_erase _ _
    · rw [if_neg fun h => hother h.2, AList.lookup_erase_ne hother]
  · rw [if_neg hpool, if_neg fun h => hpool h.1]

theorem HandleOf.ndpRanges
    (hof : HandleOf cfg id handle) (hcalls : calls.Succeed)
    (node : Node cfg) (tap : String) :
    (node.deleteHandle calls id handle).ndpRanges.lookup tap =
      if cfg.hasNdpProxy = true ∧ tap = tapName id then none
      else node.ndpRanges.lookup tap := by
  rw [(node.deleteHandle_host hcalls id handle).ndpRanges, hof.tap]
  by_cases hproxy : cfg.hasNdpProxy = true
  · rw [if_pos hproxy]
    by_cases htap : tap = tapName id
    · rw [if_pos ⟨hproxy, htap⟩, htap]
      exact AList.lookup_erase _ _
    · rw [if_neg fun h => htap h.2, AList.lookup_erase_ne htap]
  · rw [if_neg hproxy, if_neg fun h => hproxy h.1]

theorem HandleOf.hostsdir
    (hof : HandleOf cfg id handle) (hcalls : calls.Succeed)
    (node : Node cfg) (name : String) :
    (node.deleteHandle calls id handle).hostsdir.lookup name =
      if reservedName cfg id cfg.ipv6Pool.isSome name then none
      else node.hostsdir.lookup name := by
  rw [(node.deleteHandle_host hcalls id handle).hostsdir, hof.vmId,
    hof.ipv6]

theorem HandleOf.stateDir
    (hcalls : calls.Succeed) (node : Node cfg) (id : String)
    (handle : VmHandle) (name : String) :
    (node.deleteHandle calls id handle).stateDir.lookup name =
      if name = stateFile id then none else node.stateDir.lookup name := by
  rw [(node.deleteHandle_deleted calls id handle).stateDir, if_pos hcalls.2]
  by_cases hname : name = stateFile id
  · rw [if_pos hname, hname]
    exact AList.lookup_erase _ _
  · rw [if_neg hname, AList.lookup_erase_ne hname]

theorem deleteHandle_cleared_iff
    (hof : HandleOf cfg id handle) (hcalls : calls.Succeed) :
    (node.deleteHandle calls id handle).Cleared id handle.ip ↔
      node.UnusedEmpty id := by
  have hdeleted := node.deleteHandle_deleted calls id handle
  have hhost := node.deleteHandle_host hcalls id handle
  have hplain : reservedName cfg id cfg.ipv6Pool.isSome id =
      cfg.dhcpHostsdir.isSome := by
    simp [reservedName]
  have hv6 : reservedName cfg id cfg.ipv6Pool.isSome (dhcpv6File id) =
      (cfg.dhcpHostsdir.isSome && cfg.ipv6Pool.isSome) := by
    have hne : (dhcpv6File id == id) = false := by
      rw [beq_eq_false_iff_ne]
      exact dhcpv6File_ne id
    simp [reservedName, hne]
  constructor
  · intro hcleared
    constructor
    · intro hpool
      have hnone := hcleared.ipv6Allocations
      rw [hof.ranges, if_neg (by simp [hpool])] at hnone
      exact hnone
    · intro hproxy
      have hnone := hcleared.ndpRanges
      rw [hof.ndpRanges hcalls, if_neg (by simp [hproxy])] at hnone
      exact hnone
    · intro hdir
      have hnone := hcleared.dhcp
      rw [hof.hostsdir hcalls, hplain, hdir] at hnone
      exact hnone
    · intro hunused
      have hnone := hcleared.dhcpv6
      rw [hof.hostsdir hcalls, hv6, hunused] at hnone
      exact hnone
  · intro hempty
    constructor
    · rw [hdeleted.vms]
      exact AList.lookup_erase _ _
    · rw [hdeleted.usedIpOffsets]
      exact Finset.notMem_erase _ _
    · rw [hof.ranges]
      by_cases hpool : cfg.ipv6Pool.isSome = true
      · rw [if_pos ⟨hpool, rfl⟩]
      · rw [if_neg fun h => hpool h.1]
        exact hempty.ranges (Bool.eq_false_of_not_eq_true hpool)
    · intro key forward hlookup
      rw [hdeleted.portForwards] at hlookup
      exact ((PortForwardState.removeAllForVm_lookup _ _ _ _ _).mp
        hlookup).2
    · rw [hof.ndpRanges hcalls]
      by_cases hproxy : cfg.hasNdpProxy = true
      · rw [if_pos ⟨hproxy, rfl⟩]
      · rw [if_neg fun h => hproxy h.1]
        exact hempty.ndpRanges (Bool.eq_false_of_not_eq_true hproxy)
    · rw [hof.hostsdir hcalls, hplain]
      cases hdir : cfg.dhcpHostsdir.isSome with
      | true => rfl
      | false => exact hempty.dhcp hdir
    · rw [hof.hostsdir hcalls, hv6]
      cases hused : cfg.dhcpHostsdir.isSome && cfg.ipv6Pool.isSome with
      | true => rfl
      | false => exact hempty.dhcpv6 hused
    · rw [hhost.taps, hof.tap]
      exact Finset.notMem_erase _ _
    · rw [HandleOf.stateDir hcalls, if_pos rfl]

theorem deleteHandle_othersKept_iff
    (hof : HandleOf cfg id handle) (hcalls : calls.Succeed)
    (hid : Grpc.validateVmId id = .ok ()) :
    OthersKept node (node.deleteHandle calls id handle) id ↔
      node.OffsetUnshared id handle := by
  have hdeleted := node.deleteHandle_deleted calls id handle
  have hhost := node.deleteHandle_host hcalls id handle
  constructor
  · intro hkept other otherHandle hne hlookup hoffset hused
    have hsame := hkept.usedIpOffsets other otherHandle hne hlookup
    rw [hdeleted.usedIpOffsets, hoffset] at hsame
    exact Finset.notMem_erase _ _ (hsame.mpr hused)
  · intro hunshared
    constructor
    · intro other hne
      rw [hdeleted.vms, AList.lookup_erase_ne hne]
    · intro other otherHandle hne hlookup
      rw [hdeleted.usedIpOffsets, Finset.mem_erase]
      constructor
      · intro h
        exact h.2
      · intro hused
        refine ⟨?_, hused⟩
        intro hoffset
        exact hunshared other otherHandle hne hlookup hoffset
          (hoffset ▸ hused)
    · intro other hne
      rw [hof.ranges, if_neg fun h => hne h.2]
    · intro key forward hne
      rw [hdeleted.portForwards, PortForwardState.removeAllForVm_lookup]
      simp [hne]
    · intro other hne
      rw [hof.ndpRanges hcalls, if_neg fun h =>
        hne (tapName_injective h.2)]
    · intro other hne hother
      obtain ⟨hplain, hv6⟩ := reservedName_other hid hother hne cfg
        cfg.ipv6Pool.isSome
      rw [hof.hostsdir hcalls, hof.hostsdir hcalls, hplain, hv6]
      exact ⟨rfl, rfl⟩
    · intro other hne
      have htap : tapName other ≠ tapName id := fun heq =>
        hne (tapName_injective heq)
      rw [hhost.taps, hof.tap, Finset.mem_erase]
      exact ⟨fun h => h.2, fun h => ⟨htap, h⟩⟩
    · intro other hne
      rw [HandleOf.stateDir hcalls, if_neg fun h =>
        hne (stateFile_injective h)]

end Deletion

/-! ## Creation and deletion together -/

section RoundTrip

variable {node created : Node cfg} {calls : CreateCalls} {config : VmConfig}
  {requestedIpv6 vmIpv6 : Option Ipv6Net} {offset : UInt8} {launch : Launch}

theorem Created.handleOf
    (hcreated : Created node calls config requestedIpv6 offset vmIpv6
      launch created) :
    HandleOf cfg config.vmId (createdHandle cfg launch
      (allocateVmIp cfg.gatewayIp offset) vmIpv6 calls.now) where
  vmId := hcreated.vmId
  tap := congrArg tapName hcreated.vmId
  ipv6 := Node.chosenIpv6_isSome hcreated.started.chosen

theorem Created.ranges_lookup
    (hcreated : Created node calls config requestedIpv6 offset vmIpv6
      launch created) {id : String}
    (hid : id ≠ config.vmId ∨ cfg.ipv6Pool.isSome = false) :
    created.ipv6Allocations.lookup id = node.ipv6Allocations.lookup id := by
  rw [hcreated.ipv6Allocations]
  apply withRange_lookup_of_ne
  rw [Node.chosenIpv6_isSome hcreated.started.chosen]
  exact hid

theorem Created.stateDir_lookup
    (hcreated : Created node calls config requestedIpv6 offset vmIpv6
      launch created) {name : String} (hname : name ≠ stateFile config.vmId) :
    created.stateDir.lookup name = node.stateDir.lookup name := by
  rw [hcreated.stateDir, Node.saveVm]
  split_ifs
  · exact AList.lookup_insert_ne hname
  · rfl

theorem sameEntries_iff_unregistered
    {deletion : DeleteCalls} (hdeletion : deletion.Succeed)
    (hcreated : Created node calls config requestedIpv6 offset vmIpv6
      launch created)
    (hhost : CreatedHost node config.vmId created) {handle : VmHandle}
    (hhandle : handle = createdHandle cfg launch
      (allocateVmIp cfg.gatewayIp offset) vmIpv6 calls.now) :
    SameEntries node
        (created.deleteHandle deletion config.vmId handle) ↔
      node.Unregistered config.vmId := by
  have hof : HandleOf cfg config.vmId handle := hhandle ▸ hcreated.handleOf
  have hdeleted := created.deleteHandle_deleted deletion config.vmId handle
  have hforwards : ∀ key forward,
      (created.deleteHandle deletion config.vmId
        handle).portForwards.lookup key = some forward ↔
      node.portForwards.lookup key = some forward ∧
        forward.vmId ≠ config.vmId := by
    intro key forward
    rw [hdeleted.portForwards, hcreated.portForwards]
    exact PortForwardState.removeAllForVm_lookup _ _ _ _ _
  constructor
  · intro hsame
    constructor
    · intro hpool
      rw [← hsame.ipv6Allocations, hof.ranges, if_pos ⟨hpool, rfl⟩]
    · intro key forward hlookup
      rw [← hsame.portForwards] at hlookup
      exact ((hforwards key forward).mp hlookup).2
    · intro hproxy
      rw [← hsame.ndpRanges, hof.ndpRanges hdeletion, if_pos ⟨hproxy, rfl⟩]
    · intro name hname
      rw [← hsame.hostsdir, hof.hostsdir hdeletion, if_pos hname]
    · rw [← hsame.stateDir, HandleOf.stateDir hdeletion, if_pos rfl]
  · intro hunregistered
    constructor
    · intro id
      rw [hdeleted.vms, hcreated.vms]
      by_cases hid : id = config.vmId
      · subst hid
        rw [hcreated.vms_fresh]
        exact AList.lookup_erase _ _
      · rw [AList.lookup_erase_ne hid, AList.lookup_insert_ne hid]
    · rw [hdeleted.usedIpOffsets, hcreated.usedIpOffsets, hhandle,
        ipOffset_createdHandle]
      exact Finset.erase_insert (freeOffset_notMem hcreated.started.free)
    · intro id
      rw [hof.ranges]
      by_cases hid : cfg.ipv6Pool.isSome = true ∧ id = config.vmId
      · rw [if_pos hid, hid.2, hunregistered.ranges hid.1]
      · rw [if_neg hid]
        apply hcreated.ranges_lookup
        by_cases hsame : id = config.vmId
        · exact .inr (Bool.eq_false_of_not_eq_true
            fun hpool => hid ⟨hpool, hsame⟩)
        · exact .inl hsame
    · intro key
      cases hlookup : node.portForwards.lookup key with
      | none =>
          rw [Option.eq_none_iff_forall_ne_some]
          intro forward hfound
          have hold := ((hforwards key forward).mp hfound).1
          rw [hlookup] at hold
          cases hold
      | some forward =>
          exact (hforwards key forward).mpr ⟨hlookup,
            hunregistered.portForwards key forward hlookup⟩
    · intro tap
      rw [hof.ndpRanges hdeletion]
      by_cases htap : cfg.hasNdpProxy = true ∧ tap = tapName config.vmId
      · rw [if_pos htap, htap.2, hunregistered.ndpRanges htap.1]
      · rw [if_neg htap]
        apply hhost.ndpRanges
        by_cases hsame : tap = tapName config.vmId
        · exact .inr (Bool.eq_false_of_not_eq_true
            fun hproxy => htap ⟨hproxy, hsame⟩)
        · exact .inl hsame
    · intro name
      rw [hof.hostsdir hdeletion]
      cases hname : reservedName cfg config.vmId cfg.ipv6Pool.isSome
          name with
      | true => exact (hunregistered.hostsdir name hname).symm
      | false => exact hhost.hostsdir name hname
    · rw [(created.deleteHandle_host hdeletion config.vmId handle).taps,
        hof.tap, hhost.taps]
      exact Finset.erase_insert hhost.fresh
    · intro name
      rw [HandleOf.stateDir hdeletion]
      by_cases hname : name = stateFile config.vmId
      · rw [if_pos hname, hname, hunregistered.stateDir]
      · rw [if_neg hname]
        exact hcreated.stateDir_lookup hname

end RoundTrip

/-- For every node, every creation of an accepted id that succeeds, every
sequence of operations on other machines and on forwards, and a deletion whose
commands succeed: no entry of the machine is left, the entries of the others
are kept, and with nothing in between all entries are as before the creation,
if and only if the stores that are not configured have nothing under the
machine's names, the returned offset is not that of another machine, and, with
nothing in between, nothing was registered under the machine's names before
the creation. -/
theorem delete_undoes_create_iff
    {cfg : NodeConfig} {node created : Node cfg} {calls : CreateCalls}
    {config : VmConfig} {requestedIpv6 : Option Ipv6Net}
    {numaHint : Option UInt32} {info : VmInfo}
    (hid : Grpc.validateVmId config.vmId = .ok ())
    (hok : node.createVm calls config requestedIpv6 numaHint =
      (.ok info, created))
    {between : List ManagerOp}
    (helsewhere : ∀ op ∈ between, op.Elsewhere config.vmId)
    {deletion : DeleteCalls} (hdeletion : deletion.Succeed) :
    ∃ handle deleted,
      (run Node.step created between).vms.lookup config.vmId =
        some handle ∧
      (run Node.step created between).deleteVm deletion config.vmId =
        (.ok (), deleted) ∧
      ((deleted.Cleared config.vmId handle.ip ∧
          OthersKept (run Node.step created between) deleted
            config.vmId ∧
          (between = [] → SameEntries node deleted)) ↔
        ((run Node.step created between).UnusedEmpty config.vmId ∧
          (run Node.step created between).OffsetUnshared config.vmId
            handle ∧
          (between = [] → node.Unregistered config.vmId))) := by
  have hhost := Node.createVm_host hok
  have heffect := node.createVm_effect calls config requestedIpv6 numaHint
  rw [hok] at heffect
  cases heffect with
  | created _ offset vmIpv6 launch _ hcompletes hcreated =>
      have hof := hcreated.handleOf
      generalize hhandle : createdHandle cfg launch
        (allocateVmIp cfg.gatewayIp offset) vmIpv6 calls.now = handle at hof
      have hlookup : (run Node.step created between).vms.lookup
          config.vmId = some handle := by
        rw [created.run_vms_of_elsewhere helsewhere, hcreated.vms, hhandle]
        exact AList.lookup_insert _
      refine ⟨handle, _, hlookup, ?_, and_congr
        (deleteHandle_cleared_iff hof hdeletion) (and_congr
          (deleteHandle_othersKept_iff hof hdeletion hid) ?_)⟩
      · rw [Node.deleteVm, hlookup]
      · refine forall_congr' fun hnothing => ?_
        subst hnothing
        exact sameEntries_iff_unregistered hdeletion hcreated hhost
          hhandle.symm

theorem deleteSucceeds_succeed : deleteSucceeds.Succeed :=
  ⟨⟨rfl, rfl, rfl, ⟨fun _ => rfl, rfl⟩, ⟨fun _ => rfl, rfl⟩⟩, rfl⟩

def smallCreated : Node smallHost :=
  (smallNode.createVm createSucceeds (smallConfig "vm-a" .none) none none).2

theorem smallCreated_ok :
    ∃ info, smallNode.createVm createSucceeds (smallConfig "vm-a" .none)
      none none = (.ok info, smallCreated) := by
  have hisOk : (smallNode.createVm createSucceeds
      (smallConfig "vm-a" .none) none none).1.isOk = true := by
    decide +kernel
  unfold smallCreated
  cases hresult : smallNode.createVm createSucceeds
      (smallConfig "vm-a" .none) none none with
  | mk outcome after =>
      rw [hresult] at hisOk
      cases outcome with
      | error failure => cases hisOk
      | ok info => exact ⟨info, rfl⟩

/-- Another machine is created, and one of its ports is forwarded. -/
def smallMeanwhile : List ManagerOp :=
  [.createVm createSucceeds (smallConfig "vm-b" .none) none none,
    .addPortForward ⟨nftSucceeds, .stored, true⟩ "vm-b" 8080 80 .tcp]

theorem delete_undoes_create_small :
    (∃ (handle : VmHandle) (deleted : Node smallHost),
      smallCreated.deleteVm deleteSucceeds "vm-a" = (.ok (), deleted) ∧
      deleted.Cleared "vm-a" handle.ip ∧ SameEntries smallNode deleted) ∧
    ∃ (handle : VmHandle) (deleted : Node smallHost),
      (run Node.step smallCreated smallMeanwhile).deleteVm deleteSucceeds
        "vm-a" = (.ok (), deleted) ∧
      deleted.Cleared "vm-a" handle.ip ∧
      OthersKept (run Node.step smallCreated smallMeanwhile) deleted
        "vm-a" ∧
      (deleted.vms.lookup "vm-b").isSome = true ∧
      (deleted.portForwards.lookup (8080, .tcp)).isSome = true := by
  obtain ⟨info, hok⟩ := smallCreated_ok
  constructor
  · have hnothing : ∀ op ∈ ([] : List ManagerOp), op.Elsewhere
        (smallConfig "vm-a" .none).vmId := by
      simp
    obtain ⟨handle, deleted, _, hdelete, hiff⟩ :=
      delete_undoes_create_iff (by decide) hok hnothing
        deleteSucceeds_succeed
    have hentries : ∀ entry ∈ smallCreated.vms.entries,
        entry.1 = "vm-a" := by
      decide +kernel
    have hundone := hiff.mpr (by
      refine ⟨?_, ?_, fun _ => ?_⟩
      · exact ⟨fun _ => by decide +kernel, fun _ => by decide +kernel,
          fun _ => by decide +kernel, fun _ => by decide +kernel⟩
      · intro other otherHandle hne hlookup
        exact absurd (hentries _ (AList.mem_lookup_iff.mp hlookup)) hne
      · exact {
          ranges := fun _ => rfl
          portForwards := fun _ _ hlookup => by
            simp [smallNode, Node.fresh] at hlookup
          ndpRanges := fun _ => rfl
          hostsdir := fun _ _ => rfl
          stateDir := rfl })
    exact ⟨handle, deleted, hdelete, hundone.1, hundone.2.2 rfl⟩
  · have helsewhere : ∀ op ∈ smallMeanwhile, op.Elsewhere
        (smallConfig "vm-a" .none).vmId := by
      simp [smallMeanwhile, ManagerOp.Elsewhere, smallConfig]
    obtain ⟨handle, deleted, hlookup, hdelete, hiff⟩ :=
      delete_undoes_create_iff (by decide) hok helsewhere
        deleteSucceeds_succeed
    have hoffsets : ∀ first ∈
        (run Node.step smallCreated smallMeanwhile).vms.entries, ∀ second ∈
          (run Node.step smallCreated smallMeanwhile).vms.entries,
        ipOffset smallHost.gatewayIp first.2.ip =
            ipOffset smallHost.gatewayIp second.2.ip →
          first.1 = second.1 := by
      decide +kernel
    have hundone := hiff.mpr (by
      refine ⟨?_, ?_, ?_⟩
      · exact ⟨fun _ => by decide +kernel, fun _ => by decide +kernel,
          fun _ => by decide +kernel, fun _ => by decide +kernel⟩
      · intro other otherHandle hne hother hoffset
        exact absurd (hoffsets _ (AList.mem_lookup_iff.mp hother) _
          (AList.mem_lookup_iff.mp hlookup) hoffset) hne
      · intro hnothing
        cases hnothing)
    have hothers := hundone.2.1
    have hmachine : ((run Node.step smallCreated
        smallMeanwhile).vms.lookup "vm-b").isSome = true := by
      decide +kernel
    have hforward : ∃ forward, (run Node.step smallCreated
        smallMeanwhile).portForwards.lookup (8080, .tcp) = some forward ∧
          forward.vmId ≠ "vm-a" := by
      refine ⟨⟨"vm-b", 8080, 80, .tcp⟩, ?_⟩
      decide +kernel
    refine ⟨handle, deleted, hdelete, hundone.1, hothers, ?_, ?_⟩
    · rw [hothers.vms "vm-b" (by decide)]
      exact hmachine
    · obtain ⟨forward, hfound, hne⟩ := hforward
      rw [(hothers.portForwards _ forward hne).mpr hfound]
      rfl

/-! ## A leftover that a deletion removes -/

/-- A host with DHCP reservations and an IPv6 pool, `fd00::/64`. -/
def dualStackHost : NodeConfig :=
  { smallHost with
    dhcpHostsdir := some "/run/aleph-cvm/hosts"
    ipv6Pool := some ⟨0xFD000000000000000000000000000000, ⟨64, by decide⟩⟩ }

/-- The creation of `vm-a` failed at its DHCP reservation and left its IPv6
range behind. -/
def leftoverRange : Node dualStackHost :=
  run Node.step (.fresh dualStackHost ∅ supervisorRuleset ∅ ∅)
    [.createVm { createSucceeds with
      dhcpWrite := .refused "No space left on device" }
      (smallConfig "vm-a" .none) none none]

/-- The second creation succeeds with another range, and the deletion takes
both away. -/
theorem deletion_removes_leftover_range :
    (leftoverRange.createVm { createSucceeds with draws := fun _ => 1 }
      (smallConfig "vm-a" .none) none none).1.isOk = true ∧
    ¬ SameEntries leftoverRange ((leftoverRange.createVm
      { createSucceeds with draws := fun _ => 1 }
      (smallConfig "vm-a" .none) none none).2.deleteVm deleteSucceeds
        "vm-a").2 := by
  constructor
  · decide +kernel
  · intro hsame
    have hrange := hsame.ipv6Allocations "vm-a"
    revert hrange
    decide +kernel

end AlephCvm.Vm
