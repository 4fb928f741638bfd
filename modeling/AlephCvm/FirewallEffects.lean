import AlephCvm.ForwardRules
import AlephCvm.VmRegistry

/-!
# What the operations do to the firewall

The firewall is the ruleset of the kernel together with what the manager
remembers of it: its machines and the table of their forwards.  This file says
once for each operation what it does to these three when its calls of nft go
through.  Other steps of the operation may fail.
-/

namespace AlephCvm.Vm

open ResultContext AlephCvm.Tee AlephCvm.Net AlephCvm.Nft AlephCvm.Qemu

variable {cfg : NodeConfig}

/-- All calls of nft that the operation makes go through.  A restart is not
one of the operations that are looked at. -/
def ManagerOp.NftSucceeds : ManagerOp → Prop
  | .createVm calls _ _ _ =>
      calls.nftSetup.Succeed ∧ calls.cleanup.natTeardown.Succeed ∧
        calls.cleanup.filterTeardown.Succeed
  | .deleteVm calls _ =>
      (∀ index, (calls.removeForward index).Succeed) ∧
        calls.cleanup.natTeardown.Succeed ∧
        calls.cleanup.filterTeardown.Succeed
  | .addPortForward calls _ _ _ _ => calls.nft.Succeed
  | .removePortForward calls _ _ => calls.nft.Succeed
  | .restart _ => False

structure SameFirewall (before after : Node cfg) : Prop where
  vms : after.vms = before.vms
  forwards : ∀ port,
    after.portForwards.lookup port = before.portForwards.lookup port
  ruleset : after.ruleset = before.ruleset

/-! ## Creation -/

/-- The chains of the machine were set up.  When the creation failed later
they are there still or have been removed again. -/
structure ChainsCreated (node : Node cfg) (vmId : String)
    (after : Node cfg) : Prop where
  fresh : vmId ∉ node.vms
  vms : after.vms = node.vms ∨
    ∃ handle, after.vms = node.vms.insert vmId handle
  forwards : after.portForwards = node.portForwards
  ruleset : ∃ calls middle,
    cfg.nftables.setupVm calls node.ruleset vmId (tapName vmId) =
        .ok middle ∧
      (after.ruleset = middle ∨
        OwnedRemoved (cfg.nftables.vmChain vmId) middle after.ruleset)

section Creation

variable {node reserved connected prepared after : Node cfg}
  {calls : CreateCalls} {config : VmConfig} {vmIp : Ipv4Addr}
  {vmIpv6 : Option Ipv6Net} {numaHint : Option UInt32}

theorem ReservationResult.ruleset {result : Except Failure Unit}
    (hreserved : ReservationResult node calls config.vmId vmIp vmIpv6
      (result, after)) : after.ruleset = node.ruleset := by
  cases hreserved with
  | done files hwritten hfiles => rfl
  | dhcpRefused message hhostsdir hrefused => rfl
  | dhcpv6Refused net message hhostsdir hwritten hipv6 hrefused =>
      exact (Node.releaseIpv6_sameHost _ _).ruleset

theorem NetworkResult.ruleset_of_error {failure : Failure}
    (hconnected : NetworkResult node calls config.vmId vmIpv6
      (.error failure, after)) : after.ruleset = node.ruleset := by
  cases hconnected with
  | notAdded message hrefused =>
      exact (node.cleanupReservations_sameHost _ _ _).ruleset
  | notAttached message hnew hadd hrefused =>
      exact (Node.cleanupReservations_sameHost _ _ _ _).ruleset
  | undone message hnew hadd hup hmaster hrefused =>
      exact (Node.cleanupReservations_sameHost _ _ _ _).ruleset

theorem NetworkResult.setupVm_of_ok
    (hconnected : NetworkResult node calls config.vmId vmIpv6
      (.ok (), after)) :
    cfg.nftables.setupVm calls.nftSetup node.ruleset config.vmId
      (tapName config.vmId) = .ok after.ruleset := by
  cases hconnected with
  | done ruleset hnew hadd hup hmaster hipv6 hsetup => exact hsetup

theorem LaunchResult.ruleset {result : Except Failure Launch} {tap : String}
    (hprepared : LaunchResult (node.addNdpRange tap vmIpv6) calls config
      numaHint (result, after)) : after.ruleset = node.ruleset := by
  rw [Node.addNdpRange_eq] at hprepared
  cases hprepared with
  | ready launch next hlaunchable hdrives hlaunch => rfl
  | refused message hrefused => rfl
  | panicked message next hlaunchable hdrives => rfl

theorem LaunchResult.vmId {launch : Launch} {tap : String}
    (hprepared : LaunchResult (node.addNdpRange tap vmIpv6) calls config
      numaHint (.ok launch, after)) :
    launch.config.vmId = config.vmId := by
  cases hprepared with
  | ready _ next hlaunchable hdrives hlaunch => exact hlaunch.vmId

theorem Node.saveVm_ruleset (node : Node cfg) (done : Bool)
    (vmId : String) (persisted : PersistedVm) :
    (node.saveVm done vmId persisted).ruleset = node.ruleset := by
  unfold Node.saveVm
  split_ifs <;> rfl

theorem Node.launchVm_ruleset (node : Node cfg) (calls : CreateCalls)
    (hnat : calls.cleanup.natTeardown.Succeed)
    (hfilter : calls.cleanup.filterTeardown.Succeed) (launch : Launch)
    (vmIp : Ipv4Addr) (macAddr : String) (vmIpv6 : Option Ipv6Net) :
    (node.launchVm calls launch vmIp macAddr vmIpv6).2.ruleset =
        node.ruleset ∨
      OwnedRemoved (cfg.nftables.vmChain launch.config.vmId) node.ruleset
        (node.launchVm calls launch vmIp macAddr vmIpv6).2.ruleset := by
  unfold Node.launchVm
  cases calls.spawn with
  | error message =>
      have hclean := (node.undoHost calls.cleanup launch launch.config.vmId
        vmIpv6).cleanupReservations_sameHost calls.cleanup
        launch.config.vmId vmIpv6.isSome
      right
      simp only [Node.undoLaunch, hclean.ruleset]
      exact (cfg.nftables.teardownVm_removed hnat hfilter node.ruleset
        launch.config.vmId).2
  | ok value => exact .inl (node.saveVm_ruleset _ _ _)

/-- A creation leaves the ruleset alone, which only a failing one does, or it
sets the chains up. -/
inductive CreateRules (node : Node cfg) (vmId : String) :
    Except Failure VmInfo × Node cfg → Prop
  | kept (failure : Failure) (after : Node cfg)
      (hkept : after.ruleset = node.ruleset) :
      CreateRules node vmId (.error failure, after)
  | setUp (nft : NftCalls) (middle : Ruleset)
      (result : Except Failure VmInfo × Node cfg)
      (hsetup : cfg.nftables.setupVm nft node.ruleset vmId
        (tapName vmId) = .ok middle)
      (hend : result.2.ruleset = middle ∨
        OwnedRemoved (cfg.nftables.vmChain vmId) middle result.2.ruleset) :
      CreateRules node vmId result

theorem Node.createVm_rules (node : Node cfg) (calls : CreateCalls)
    (hnat : calls.cleanup.natTeardown.Succeed)
    (hfilter : calls.cleanup.filterTeardown.Succeed) (config : VmConfig)
    (requestedIpv6 : Option Ipv6Net) (numaHint : Option UInt32) :
    CreateRules node config.vmId
      (node.createVm calls config requestedIpv6 numaHint) := by
  have houtcome := node.createVm_outcome calls config requestedIpv6 numaHint
  generalize node.createVm calls config requestedIpv6 numaHint = result
    at houtcome
  have hsetup : ∀ {offset : UInt8} {vmIpv6 : Option Ipv6Net}
      {reserved connected : Node cfg},
      ReservationResult (node.started config.vmId offset vmIpv6) calls
        config.vmId (allocateVmIp cfg.gatewayIp offset) vmIpv6
        (.ok (), reserved) →
      NetworkResult reserved calls config.vmId vmIpv6 (.ok (), connected) →
      cfg.nftables.setupVm calls.nftSetup node.ruleset config.vmId
        (tapName config.vmId) = .ok connected.ruleset := by
    intro offset vmIpv6 reserved connected hreserved hconnected
    have hsame : reserved.ruleset = node.ruleset := hreserved.ruleset
    rw [← hsame]
    exact hconnected.setupVm_of_ok
  cases houtcome with
  | duplicate message hknown => exact .kept _ _ rfl
  | poolExhausted message hfresh hfull => exact .kept _ _ rfl
  | ipv6Refused offset failure hfresh hfree hrefused => exact .kept _ _ rfl
  | notReserved offset vmIpv6 failure after hstarted hreserved =>
      exact .kept _ _ hreserved.ruleset
  | notConnected offset vmIpv6 reserved failure after hstarted hreserved
      hconnected =>
      exact .kept _ _ (hconnected.ruleset_of_error.trans hreserved.ruleset)
  | notPrepared offset vmIpv6 reserved connected failure after hstarted
      hreserved hconnected hprepared =>
      exact .setUp _ _ _ (hsetup hreserved hconnected)
        (.inl hprepared.ruleset)
  | launched offset vmIpv6 reserved connected launch prepared hstarted
      hreserved hconnected hprepared =>
      refine .setUp _ _ _ (hsetup hreserved hconnected) ?_
      rw [← hprepared.ruleset, ← hprepared.vmId]
      exact prepared.launchVm_ruleset calls hnat hfilter launch _ _ _

end Creation

/-! ## Deletion -/

/-- The rule is one that the removal of the forward looks for. -/
def forwardRemoves (manager : NftablesManager) (rule : Rule)
    (forward : PortForward) : Bool :=
  isDnatRuleMatching rule manager.supervisorPreroutingChain
    forward.hostPort forward.protocol

/-- The machine is gone with its forwards; their rules were removed, then
the chains of the machine. -/
structure MachineDropped (node : Node cfg) (id : String)
    (after : Node cfg) : Prop where
  vms : after.vms = node.vms.erase id
  forwards : ∀ port forward,
    after.portForwards.lookup port = some forward ↔
      node.portForwards.lookup port = some forward ∧ forward.vmId ≠ id
  ruleset : ∃ (removed : List PortForward) (middle : Ruleset),
    (∀ forward, forward ∈ removed ↔ forward.vmId = id ∧
      ∃ port, node.portForwards.lookup port = some forward) ∧
    RulesKept (fun rule => !removed.any (forwardRemoves cfg.nftables rule))
      node.ruleset middle ∧
    OwnedRemoved (cfg.nftables.vmChain id) middle after.ruleset

theorem MachineDropped.lookup {node after : Node cfg} {id : String}
    (hdropped : MachineDropped node id after) (port : UInt16 × Protocol) :
    after.portForwards.lookup port =
      if (node.portForwards.lookup port).any
          (fun forward => forward.vmId == id) = true then none
      else node.portForwards.lookup port := by
  have hforwards := hdropped.forwards port
  cases hfound : node.portForwards.lookup port with
  | none =>
      rw [Option.any_none, if_neg Bool.false_ne_true,
        Option.eq_none_iff_forall_ne_some]
      intro forward hafter
      have hbefore := ((hforwards forward).mp hafter).1
      rw [hfound] at hbefore
      cases hbefore
  | some forward =>
      by_cases howner : forward.vmId = id
      · rw [Option.any_some, if_pos (beq_iff_eq.mpr howner),
          Option.eq_none_iff_forall_ne_some]
        intro other hafter
        obtain ⟨hbefore, hother⟩ := (hforwards other).mp hafter
        rw [hfound, Option.some.injEq] at hbefore
        exact hother (hbefore ▸ howner)
      · rw [Option.any_some, if_neg (by simpa using howner)]
        exact (hforwards forward).mpr ⟨hfound, howner⟩

theorem mem_removeAllForVm_iff (state : PortForwardState)
    (order : IterationOrder) (vmId : String) (forward : PortForward) :
    forward ∈ (PortForwardState.removeAllForVm state order vmId).1 ↔
      forward.vmId = vmId ∧ ∃ port, state.lookup port = some forward := by
  constructor
  · intro hmem
    obtain ⟨port, hport, hlookup⟩ := List.mem_filterMap.mp hmem
    obtain ⟨found, hfound, howner⟩ :=
      (PortForwardState.mem_keys_entriesOfVm state).mp hport
    rw [hlookup, Option.some.injEq] at hfound
    rw [← hfound] at howner
    exact ⟨howner, port, hlookup⟩
  · rintro ⟨rfl, port, hlookup⟩
    exact PortForwardState.mem_removeAllForVm state order hlookup

theorem removeForwardEntries_kept (manager : NftablesManager)
    {calls : ℕ → NftCalls} (hcalls : ∀ index, (calls index).Succeed)
    (entries : List (PortForward × ℕ)) (ruleset : Ruleset) :
    RulesKept
      (fun rule => !entries.any fun entry =>
        forwardRemoves manager rule entry.1) ruleset
      (entries.foldl (fun ruleset entry =>
        match manager.removePortForward (calls entry.2) ruleset
            entry.1.hostPort entry.1.protocol with
        | .ok next => next
        | .error _ => ruleset) ruleset) := by
  induction entries generalizing ruleset with
  | nil => exact .refl ruleset
  | cons entry rest ih =>
      obtain ⟨next, hok, hfirst⟩ := removePortForward_kept manager
        (hcalls entry.2) ruleset entry.1.hostPort entry.1.protocol
      rw [List.foldl_cons, hok]
      apply (hfirst.trans (ih next)).congr
      intro rule
      rw [List.any_cons, Bool.not_or, Bool.and_comm]
      rfl

theorem removeForwardRules_kept (manager : NftablesManager)
    {calls : ℕ → NftCalls} (hcalls : ∀ index, (calls index).Succeed)
    (forwards : List PortForward) (ruleset : Ruleset) :
    RulesKept
      (fun rule => !forwards.any (forwardRemoves manager rule)) ruleset
      (removeForwardRules manager calls ruleset forwards) := by
  apply (removeForwardEntries_kept manager hcalls forwards.zipIdx
    ruleset).congr
  intro rule
  have hany : (forwards.zipIdx.any fun entry =>
      forwardRemoves manager rule entry.1) =
        forwards.any (forwardRemoves manager rule) := by
    have hfirst := List.zipIdx_map_fst 0 forwards
    calc
      _ = (forwards.zipIdx.map Prod.fst).any
          (forwardRemoves manager rule) := List.any_map.symm
      _ = forwards.any (forwardRemoves manager rule) := by rw [hfirst]
  rw [hany]

theorem Node.deleteHandle_ruleset (node : Node cfg) (calls : DeleteCalls)
    (id : String) (handle : VmHandle) :
    (node.deleteHandle calls id handle).ruleset =
      (node.dropHandle calls id handle).ruleset := by
  unfold Node.deleteHandle
  have hrelease :=
    (node.dropHandle calls id handle).releaseIpv6_sameHost id
  rw [(Node.removeReservations_sameHost _ _ _ _).ruleset]
  split
  · exact hrelease.ruleset
  · rfl

theorem Node.deleteHandle_dropped (node : Node cfg) {calls : DeleteCalls}
    (hforwards : ∀ index, (calls.removeForward index).Succeed)
    (hnat : calls.cleanup.natTeardown.Succeed)
    (hfilter : calls.cleanup.filterTeardown.Succeed) (id : String)
    (handle : VmHandle) :
    MachineDropped node id (node.deleteHandle calls id handle) := by
  have hdeleted := node.deleteHandle_deleted calls id handle
  constructor
  · exact hdeleted.vms
  · intro port forward
    rw [hdeleted.portForwards]
    exact PortForwardState.removeAllForVm_lookup node.portForwards
      calls.order id port forward
  · refine ⟨_, _, mem_removeAllForVm_iff node.portForwards calls.order id,
      removeForwardRules_kept cfg.nftables hforwards _ node.ruleset, ?_⟩
    rw [node.deleteHandle_ruleset calls id handle]
    exact (cfg.nftables.teardownVm_removed hnat hfilter _ id).2

/-! ## Forwards -/

/-- The machine has a forward more, with its two rules. -/
structure ForwardCreated (node : Node cfg) (forward : PortForward)
    (after : Node cfg) : Prop where
  vms : after.vms = node.vms
  free : node.portForwards.lookup forward.key = none
  forwards : ∀ port, after.portForwards.lookup port =
    if port = forward.key then some forward
    else node.portForwards.lookup port
  ruleset : ∃ handle preroutingTable filterTable,
    node.vms.lookup forward.vmId = some handle ∧
    ForwardAdded cfg.nftables forward.vmId (ipv4Text handle.ip) forward
      preroutingTable filterTable node.ruleset after.ruleset

theorem PortForwardState.lookup_add (state : PortForwardState)
    (forward : PortForward) (port : UInt16 × Protocol) :
    (PortForwardState.add state forward).lookup port =
      if port = forward.key then some forward else state.lookup port := by
  unfold PortForwardState.add
  by_cases hport : port = forward.key
  · rw [if_pos hport, hport]
    exact AList.lookup_insert state
  · rw [if_neg hport]
    exact AList.lookup_insert_ne hport

theorem Node.addPortForward_created (node : Node cfg)
    (calls : ForwardCalls) (vmId : String) (hostPort vmPort : UInt16)
    (protocol : Protocol) :
    SameFirewall node
        (node.addPortForward calls vmId hostPort vmPort protocol).2 ∨
      ∃ forward, ForwardCreated node forward
        (node.addPortForward calls vmId hostPort vmPort protocol).2 := by
  have hresult := node.addPortForward_result calls vmId hostPort vmPort
    protocol
  generalize node.addPortForward calls vmId hostPort vmPort protocol =
    result at hresult
  cases hresult with
  | refused message => exact .inl ⟨rfl, fun _ => rfl, rfl⟩
  | rolledBack message chosen hchosen =>
      refine .inl ⟨rfl, ?_, rfl⟩
      intro port
      by_cases hkey : port = (chosen, protocol)
      · rw [hkey, chooseHostPort_free hchosen]
        exact AList.lookup_erase _ _
      · rw [AList.lookup_erase_ne hkey, PortForwardState.lookup_add]
        exact if_neg hkey
  | added handle chosen ruleset after hvm hchosen hadd hsaved =>
      obtain ⟨preroutingTable, filterTable, hadded⟩ :=
        addPortForward_added hadd
      refine .inr ⟨⟨vmId, chosen, vmPort, protocol⟩, hsaved.sameMachines.vms,
        chooseHostPort_free hchosen, ?_, handle, preroutingTable,
        filterTable, hvm, ?_⟩
      · intro port
        rw [hsaved.portForwards]
        exact PortForwardState.lookup_add _ _ port
      · rw [hsaved.ruleset]
        exact hadded

structure ForwardDeleted (node : Node cfg) (port : UInt16 × Protocol)
    (after : Node cfg) : Prop where
  vms : after.vms = node.vms
  forwards : ∀ other, after.portForwards.lookup other =
    if other = port then none else node.portForwards.lookup other
  ruleset : RulesKept (fun rule => !isDnatRuleMatching rule
    cfg.nftables.supervisorPreroutingChain port.1 port.2) node.ruleset
    after.ruleset

theorem Node.removePortForward_deleted (node : Node cfg)
    {calls : ForwardCalls} (hcalls : calls.nft.Succeed)
    {port : UInt16 × Protocol} {forward : PortForward}
    (hfound : node.portForwards.lookup port = some forward) :
    ForwardDeleted node port
      (node.removePortForward calls port.1 port.2).2 := by
  obtain ⟨next, hok, hkept⟩ := removePortForward_kept cfg.nftables hcalls
    node.ruleset port.1 port.2
  have hresult := node.removePortForward_result calls port.1 port.2
  generalize node.removePortForward calls port.1 port.2 = result at hresult
  cases hresult with
  | notFound message hnone =>
      rw [hfound] at hnone
      cases hnone
  | unremoved message other hother hfailed =>
      rw [hok] at hfailed
      cases hfailed
  | removed other ruleset after hother hremove hsaved =>
      rw [hok, Except.ok.injEq] at hremove
      subst hremove
      constructor
      · exact hsaved.sameMachines.vms
      · intro other
        rw [hsaved.portForwards]
        by_cases hother : other = port
        · rw [if_pos hother, hother]
          exact AList.lookup_erase _ _
        · rw [if_neg hother]
          exact AList.lookup_erase_ne hother
      · rw [hsaved.ruleset]
        exact hkept

theorem Node.removePortForward_of_none (node : Node cfg)
    (calls : ForwardCalls) {port : UInt16 × Protocol}
    (hnone : node.portForwards.lookup port = none) :
    (node.removePortForward calls port.1 port.2).2 = node := by
  unfold Node.removePortForward PortForwardState.remove
  rw [hnone]

/-! ## All operations -/

inductive FirewallEffect (node : Node cfg) : ManagerOp → Node cfg → Prop
  | notCreated {calls : CreateCalls} {config : VmConfig}
      {requestedIpv6 : Option Ipv6Net} {numaHint : Option UInt32}
      {after : Node cfg} (hsame : SameFirewall node after) :
      FirewallEffect node (.createVm calls config requestedIpv6 numaHint)
        after
  | created {calls : CreateCalls} {config : VmConfig}
      {requestedIpv6 : Option Ipv6Net} {numaHint : Option UInt32}
      {after : Node cfg} (hcreated : ChainsCreated node config.vmId after) :
      FirewallEffect node (.createVm calls config requestedIpv6 numaHint)
        after
  | notFound {calls : DeleteCalls} {id : String} :
      FirewallEffect node (.deleteVm calls id) node
  | dropped {calls : DeleteCalls} {id : String} {after : Node cfg}
      (hdropped : MachineDropped node id after) :
      FirewallEffect node (.deleteVm calls id) after
  | notForwarded {calls : ForwardCalls} {vmId : String}
      {hostPort vmPort : UInt16} {protocol : Protocol} {after : Node cfg}
      (hsame : SameFirewall node after) :
      FirewallEffect node
        (.addPortForward calls vmId hostPort vmPort protocol) after
  | forwarded {calls : ForwardCalls} {vmId : String}
      {hostPort vmPort : UInt16} {protocol : Protocol} {after : Node cfg}
      (forward : PortForward)
      (hcreated : ForwardCreated node forward after) :
      FirewallEffect node
        (.addPortForward calls vmId hostPort vmPort protocol) after
  | unknownForward {calls : ForwardCalls} {hostPort : UInt16}
      {protocol : Protocol}
      (hnone : node.portForwards.lookup (hostPort, protocol) = none) :
      FirewallEffect node (.removePortForward calls hostPort protocol) node
  | unforwarded {calls : ForwardCalls} {hostPort : UInt16}
      {protocol : Protocol} {after : Node cfg} (forward : PortForward)
      (hfound : node.portForwards.lookup (hostPort, protocol) =
        some forward)
      (hdeleted : ForwardDeleted node (hostPort, protocol) after) :
      FirewallEffect node (.removePortForward calls hostPort protocol) after

theorem Node.createVm_firewallEffect (node : Node cfg)
    {calls : CreateCalls} (hnat : calls.cleanup.natTeardown.Succeed)
    (hfilter : calls.cleanup.filterTeardown.Succeed) (config : VmConfig)
    (requestedIpv6 : Option Ipv6Net) (numaHint : Option UInt32) :
    FirewallEffect node (.createVm calls config requestedIpv6 numaHint)
      (node.createVm calls config requestedIpv6 numaHint).2 := by
  have hrules := node.createVm_rules calls hnat hfilter config requestedIpv6
    numaHint
  have heffect := node.createVm_effect calls config requestedIpv6 numaHint
  generalize node.createVm calls config requestedIpv6 numaHint = result
    at hrules heffect
  cases heffect with
  | refused failure hrefused => exact .notCreated ⟨rfl, fun _ => rfl, rfl⟩
  | failed failure offset after hfresh hfree hfailed hsame =>
      cases hrules with
      | kept _ _ hkept =>
          refine .notCreated ⟨hsame.vms, ?_, hkept⟩
          intro port
          rw [hsame.portForwards]
          rfl
      | setUp nft middle _ hsetup hend =>
          exact .created ⟨hfresh, .inl hsame.vms, hsame.portForwards, nft,
            middle, hsetup, hend⟩
  | created info offset vmIpv6 launch after hcompletes hcreated =>
      cases hrules with
      | setUp nft middle _ hsetup hend =>
          exact .created ⟨hcreated.started.fresh, .inr ⟨_, hcreated.vms⟩,
            hcreated.portForwards, nft, middle, hsetup, hend⟩

theorem Node.step_firewallEffect (node : Node cfg) {op : ManagerOp}
    (hop : op.NftSucceeds) : FirewallEffect node op (node.step op) := by
  cases op with
  | createVm calls config requestedIpv6 numaHint =>
      exact node.createVm_firewallEffect hop.2.1 hop.2.2 config
        requestedIpv6 numaHint
  | deleteVm calls id =>
      simp only [Node.step, Node.deleteVm]
      cases hvm : node.vms.lookup id with
      | none => exact .notFound
      | some handle =>
          exact .dropped (node.deleteHandle_dropped hop.1 hop.2.1 hop.2.2
            id handle)
  | addPortForward calls vmId hostPort vmPort protocol =>
      rcases node.addPortForward_created calls vmId hostPort vmPort
        protocol with hsame | ⟨forward, hcreated⟩
      · exact .notForwarded hsame
      · exact .forwarded forward hcreated
  | removePortForward calls hostPort protocol =>
      cases hfound : node.portForwards.lookup (hostPort, protocol) with
      | none =>
          have hsame := node.removePortForward_of_none calls hfound
          rw [Node.step, hsame]
          exact .unknownForward hfound
      | some forward =>
          exact .unforwarded forward hfound
            (node.removePortForward_deleted hop hfound)
  | restart calls => exact absurd hop id

end AlephCvm.Vm
