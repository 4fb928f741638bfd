import AlephCvm.ForwardAgreement

/-!
# Accept rules of removed forwards

A forward opens its port in the filter chain of its machine.  The removal of
a forward deletes its DNAT rule only, so the port stays open until the chain
is dropped with the machine.  The open ports are those of the forwards exactly
as long as every forward that is removed leaves another one of the machine to
the same port behind.
-/

namespace AlephCvm.Nft

open AlephCvm.Net

/-- The rule accepts what goes to the port. -/
def opensPort (rule : Rule) (port : UInt16) (protocol : Protocol) : Bool :=
  rule.expr.any (matchesDport port protocol) && rule.expr.any isAccept

/-- A filter chain of the machine has a rule that accepts what goes to the
port. -/
def NftablesManager.Opens (manager : NftablesManager) (ruleset : Ruleset)
    (vmId : String) (port : UInt16) (protocol : Protocol) : Prop :=
  ∃ rule ∈ ruleset.rules, rule.chain = manager.vmFilterChain vmId ∧
    opensPort rule port protocol = true

/-- All accept rules for ports in the chains of machines were written for a
forward. -/
def NftablesManager.OnlyForwardsOpen (manager : NftablesManager)
    (ruleset : Ruleset) : Prop :=
  ∀ rule ∈ ruleset.rules, ∀ vmId port protocol,
    rule.chain = manager.vmFilterChain vmId →
      opensPort rule port protocol = true →
        ∃ found other, rule.expr = portAcceptExpr found other

theorem opensPort_portAcceptExpr {rule : Rule} {found port : UInt16}
    {first second : Protocol}
    (hexpr : rule.expr = portAcceptExpr found first) :
    opensPort rule port second = true ↔ port = found ∧ second = first := by
  have hdport := matchesDport_payload "==" found port first second
  have haccept : matchesDport port second .accept = false := rfl
  simp only [opensPort, hexpr, portAcceptExpr, List.any_cons, List.any_nil,
    hdport, haccept, isAccept, Bool.or_false, Bool.or_true, Bool.and_true,
    decide_eq_true_eq, Prod.mk.injEq]

theorem not_opensPort_of_setupRule {manager : NftablesManager}
    {listing : Listing} {vmId tap : String} {rule : Rule}
    (hsetup : manager.SetupRule listing vmId tap rule.content)
    (port : UInt16) (protocol : Protocol) :
    opensPort rule port protocol = false := by
  have hnone : rule.content.2.any (matchesDport port protocol) = false := by
    generalize rule.content = content at hsetup
    cases hsetup with
    | natJump table htable => rfl
    | masquerade table htable => rfl
    | filterJump family table htable => rfl
    | forwardAccept family table htable => rfl
  unfold opensPort
  rw [Bool.and_eq_false_iff]
  exact .inl hnone

section Changes

variable {manager : NftablesManager} {before after : Ruleset}
  {vmId id : String} {port : UInt16} {protocol : Protocol}

theorem opens_setupVm {calls : NftCalls} {tap : String}
    (hok : manager.setupVm calls before vmId tap = .ok after) :
    manager.Opens after id port protocol ↔
      manager.Opens before id port protocol := by
  obtain ⟨listing, _, _, added, hrules, hkinds⟩ :=
    NftablesManager.setupVm_rules hok
  unfold NftablesManager.Opens
  rw [hrules]
  constructor
  · rintro ⟨rule, hmem, hchain, hopens⟩
    rcases List.mem_append.mp hmem with hold | hnew
    · exact ⟨rule, hold, hchain, hopens⟩
    · rw [not_opensPort_of_setupRule (hkinds rule hnew)] at hopens
      cases hopens
  · rintro ⟨rule, hmem, hrule⟩
    exact ⟨rule, List.mem_append_left _ hmem, hrule⟩

theorem onlyForwardsOpen_setupVm {calls : NftCalls} {tap : String}
    (honly : manager.OnlyForwardsOpen before)
    (hok : manager.setupVm calls before vmId tap = .ok after) :
    manager.OnlyForwardsOpen after := by
  obtain ⟨listing, _, _, added, hrules, hkinds⟩ :=
    NftablesManager.setupVm_rules hok
  intro rule hmem id port protocol hchain hopens
  rw [hrules] at hmem
  rcases List.mem_append.mp hmem with hold | hnew
  · exact honly rule hold id port protocol hchain hopens
  · rw [not_opensPort_of_setupRule (hkinds rule hnew)] at hopens
    cases hopens

/-- The removal of forwards looks for rules of another chain. -/
theorem opens_rulesKept {keep : Rule → Bool}
    (hkeep : ∀ rule, rule.chain ≠ manager.supervisorPreroutingChain →
      keep rule = true) (hkept : RulesKept keep before after) :
    manager.Opens after id port protocol ↔
      manager.Opens before id port protocol := by
  unfold NftablesManager.Opens
  rw [hkept.rules]
  constructor
  · rintro ⟨rule, hmem, hrule⟩
    exact ⟨rule, List.mem_of_mem_filter hmem, hrule⟩
  · rintro ⟨rule, hmem, hchain, hopens⟩
    refine ⟨rule, List.mem_filter.mpr ⟨hmem, ?_⟩, hchain, hopens⟩
    apply hkeep
    rw [hchain]
    exact (manager.vmFilterChain_ne_supervisor id).2.2

theorem onlyForwardsOpen_of_subset
    (honly : manager.OnlyForwardsOpen before)
    (hsubset : after.rules ⊆ before.rules) :
    manager.OnlyForwardsOpen after :=
  fun rule hmem => honly rule (hsubset hmem)

/-- Without the chains of a machine only its own ports are closed. -/
theorem opens_ownedRemoved (honly : manager.OnlyForwardsOpen before)
    (hremoved : OwnedRemoved (manager.vmChain vmId) before after) :
    manager.Opens after id port protocol ↔
      id ≠ vmId ∧ manager.Opens before id port protocol := by
  unfold NftablesManager.Opens
  rw [hremoved.rules]
  constructor
  · rintro ⟨rule, hmem, hchain, hopens⟩
    obtain ⟨hmem, hkept⟩ := List.mem_filter.mp hmem
    refine ⟨?_, rule, hmem, hchain, hopens⟩
    rintro rfl
    have howned := manager.vmChain_vmFilterChain id
    simp [ruleOwned, hchain, howned] at hkept
  · rintro ⟨hne, rule, hmem, hchain, hopens⟩
    refine ⟨rule, List.mem_filter.mpr ⟨hmem, ?_⟩, hchain, hopens⟩
    obtain ⟨found, other, hexpr⟩ :=
      honly rule hmem id port protocol hchain hopens
    have hforeign := manager.vmChain_vmFilterChain_of_ne hne
    simp [ruleOwned, hchain, hforeign, hexpr, portAcceptExpr, jumpTargets,
      jumpTarget]

theorem opens_forwardAdded {guestIp : String} {forward : PortForward}
    {preroutingTable filterTable : String}
    (hadded : ForwardAdded manager forward.vmId guestIp forward
      preroutingTable filterTable before after) :
    manager.Opens after id port protocol ↔
      manager.Opens before id port protocol ∨
        forward.vmId = id ∧ forward.vmPort = port ∧
          forward.protocol = protocol := by
  unfold NftablesManager.Opens
  rw [hadded.rules]
  constructor
  · rintro ⟨rule, hmem, hchain, hopens⟩
    rcases List.mem_append.mp hmem with hold | hnew
    · exact .inl ⟨rule, hold, hchain, hopens⟩
    · rcases List.mem_pair.mp hnew with rfl | rfl
      · exact absurd hchain.symm
          (manager.vmFilterChain_ne_supervisor id).2.2
      · obtain ⟨hport, hprotocol⟩ :=
          (opensPort_portAcceptExpr rfl).mp hopens
        exact .inr ⟨manager.vmFilterChain_injective hchain, hport.symm,
          hprotocol.symm⟩
  · rintro (⟨rule, hmem, hrule⟩ | ⟨rfl, rfl, rfl⟩)
    · exact ⟨rule, List.mem_append_left _ hmem, hrule⟩
    · refine ⟨_, List.mem_append_right _ (List.mem_pair.mpr (.inr rfl)),
        rfl, ?_⟩
      exact (opensPort_portAcceptExpr rfl).mpr ⟨rfl, rfl⟩

theorem onlyForwardsOpen_forwardAdded {guestIp : String}
    {forward : PortForward} {preroutingTable filterTable : String}
    (honly : manager.OnlyForwardsOpen before)
    (hadded : ForwardAdded manager forward.vmId guestIp forward
      preroutingTable filterTable before after) :
    manager.OnlyForwardsOpen after := by
  intro rule hmem id port protocol hchain hopens
  rw [hadded.rules] at hmem
  rcases List.mem_append.mp hmem with hold | hnew
  · exact honly rule hold id port protocol hchain hopens
  · rcases List.mem_pair.mp hnew with rfl | rfl
    · exact absurd hchain.symm (manager.vmFilterChain_ne_supervisor id).2.2
    · exact ⟨_, _, rfl⟩

end Changes

end AlephCvm.Nft

namespace AlephCvm.Vm

open StepRuns AlephCvm.Tee AlephCvm.Net AlephCvm.Nft

variable {cfg : NodeConfig}

/-! ## Ports of machines -/

/-- The table holds a forward of the machine to the port. -/
def Node.Forwards (node : Node cfg) (vmId : String) (port : UInt16)
    (protocol : Protocol) : Prop :=
  ∃ key forward, node.portForwards.lookup key = some forward ∧
    forward.vmId = vmId ∧ forward.vmPort = port ∧
      forward.protocol = protocol

/-- The filter chains of the machines accept what the forwards lead to, and
nothing else. -/
def Node.AcceptsFollow (node : Node cfg) : Prop :=
  ∀ id ∈ node.vms, ∀ port protocol,
    cfg.nftables.Opens node.ruleset id port protocol ↔
      node.Forwards id port protocol

/-- A forward that the operation removes leaves another one of the machine
to the same port behind. -/
def Node.LeavesSibling (node : Node cfg) : ManagerOp → Prop
  | .removePortForward _ hostPort protocol =>
      ∀ forward,
        node.portForwards.lookup (hostPort, protocol) = some forward →
          ∃ key sibling, key ≠ (hostPort, protocol) ∧
            node.portForwards.lookup key = some sibling ∧
            sibling.vmId = forward.vmId ∧
            sibling.vmPort = forward.vmPort ∧
            sibling.protocol = forward.protocol
  | _ => True

/-- What the operations keep, also for machines that are gone. -/
structure AcceptsAgree (node : Node cfg) : Prop where
  opens_iff : ∀ id port protocol,
    cfg.nftables.Opens node.ruleset id port protocol ↔
      node.Forwards id port protocol
  known : ∀ key forward,
    node.portForwards.lookup key = some forward → forward.vmId ∈ node.vms
  only : cfg.nftables.OnlyForwardsOpen node.ruleset

namespace AcceptsAgree

variable {node after : Node cfg}

theorem forwards_congr
    (hsame : ∀ key,
      after.portForwards.lookup key = node.portForwards.lookup key)
    (id : String) (port : UInt16) (protocol : Protocol) :
    after.Forwards id port protocol ↔ node.Forwards id port protocol := by
  unfold Node.Forwards
  simp only [hsame]

theorem congr (hagree : AcceptsAgree node)
    (hsame : SameFirewall node after) : AcceptsAgree after where
  opens_iff := by
    intro id port protocol
    rw [hsame.ruleset, hagree.opens_iff, forwards_congr hsame.forwards]
  known := by
    intro key forward hlookup
    rw [hsame.forwards] at hlookup
    rw [hsame.vms]
    exact hagree.known key forward hlookup
  only := by
    rw [hsame.ruleset]
    exact hagree.only

theorem created {vmId : String} (hagree : AcceptsAgree node)
    (hcreated : ChainsCreated node vmId after) : AcceptsAgree after := by
  have hforwards : ∀ key, after.portForwards.lookup key =
      node.portForwards.lookup key := by
    intro key
    rw [hcreated.forwards]
  obtain ⟨calls, middle, hsetup, hend⟩ := hcreated.ruleset
  have honly := onlyForwardsOpen_setupVm hagree.only hsetup
  constructor
  · intro id port protocol
    rw [forwards_congr hforwards, ← hagree.opens_iff,
      ← opens_setupVm hsetup]
    rcases hend with hkept | hremoved
    · rw [hkept]
    · rw [opens_ownedRemoved honly hremoved]
      refine ⟨fun h => h.2, fun hopens => ⟨?_, hopens⟩⟩
      -- The new machine has no forwards, so none of its ports was open.
      rintro rfl
      rw [opens_setupVm hsetup, hagree.opens_iff] at hopens
      obtain ⟨key, forward, hlookup, howner, _⟩ := hopens
      exact hcreated.fresh (howner ▸ hagree.known key forward hlookup)
  · intro key forward hlookup
    rw [hforwards] at hlookup
    have hknown := hagree.known key forward hlookup
    rcases hcreated.vms with hsame | ⟨handle, hinserted⟩
    · rw [hsame]
      exact hknown
    · rw [hinserted, AList.mem_insert]
      exact .inr hknown
  · rcases hend with hkept | hremoved
    · rw [hkept]
      exact honly
    · apply onlyForwardsOpen_of_subset honly
      rw [hremoved.rules]
      exact List.filter_subset_self _

theorem dropped {id : String} (hagree : AcceptsAgree node)
    (hdropped : MachineDropped node id after) : AcceptsAgree after := by
  obtain ⟨removed, middle, _, hkept, howned⟩ := hdropped.ruleset
  have hsubset : middle.rules ⊆ node.ruleset.rules := by
    rw [hkept.rules]
    exact List.filter_subset_self _
  have honly := onlyForwardsOpen_of_subset hagree.only hsubset
  constructor
  · intro other port protocol
    have hkeep : ∀ rule : Rule,
        rule.chain ≠ cfg.nftables.supervisorPreroutingChain →
          (!removed.any (forwardRemoves cfg.nftables rule)) = true := by
      intro rule hchain
      simp [forwardRemoves, isDnatRuleMatching, hchain]
    rw [opens_ownedRemoved honly howned, opens_rulesKept hkeep hkept,
      hagree.opens_iff]
    constructor
    · rintro ⟨hne, key, forward, hlookup, rfl, hport, hprotocol⟩
      exact ⟨key, forward, (hdropped.forwards key forward).mpr
        ⟨hlookup, hne⟩, rfl, hport, hprotocol⟩
    · rintro ⟨key, forward, hlookup, rfl, hport, hprotocol⟩
      obtain ⟨hbefore, hne⟩ := (hdropped.forwards key forward).mp hlookup
      exact ⟨hne, key, forward, hbefore, rfl, hport, hprotocol⟩
  · intro key forward hlookup
    obtain ⟨hbefore, hne⟩ := (hdropped.forwards key forward).mp hlookup
    rw [hdropped.vms, AList.mem_erase]
    exact ⟨hne, hagree.known key forward hbefore⟩
  · apply onlyForwardsOpen_of_subset honly
    rw [howned.rules]
    exact List.filter_subset_self _

theorem forwarded {forward : PortForward} (hagree : AcceptsAgree node)
    (hcreated : ForwardCreated node forward after) :
    AcceptsAgree after := by
  obtain ⟨handle, preroutingTable, filterTable, hvm, hadded⟩ :=
    hcreated.ruleset
  constructor
  · intro id port protocol
    rw [opens_forwardAdded hadded, hagree.opens_iff]
    unfold Node.Forwards
    constructor
    · rintro (⟨key, found, hlookup, hfound⟩ | hnew)
      · refine ⟨key, found, ?_, hfound⟩
        have hne : key ≠ forward.key := by
          rintro rfl
          rw [hcreated.free] at hlookup
          cases hlookup
        rw [hcreated.forwards, if_neg hne]
        exact hlookup
      · refine ⟨forward.key, forward, ?_, hnew⟩
        rw [hcreated.forwards, if_pos rfl]
    · rintro ⟨key, found, hlookup, hfound⟩
      rw [hcreated.forwards] at hlookup
      by_cases hkey : key = forward.key
      · rw [if_pos hkey, Option.some.injEq] at hlookup
        rw [hlookup]
        exact .inr hfound
      · rw [if_neg hkey] at hlookup
        exact .inl ⟨key, found, hlookup, hfound⟩
  · intro key found hlookup
    rw [hcreated.forwards] at hlookup
    rw [hcreated.vms]
    by_cases hkey : key = forward.key
    · rw [if_pos hkey, Option.some.injEq] at hlookup
      rw [← hlookup, ← AList.lookup_isSome, hvm]
      rfl
    · rw [if_neg hkey] at hlookup
      exact hagree.known key found hlookup
  · exact onlyForwardsOpen_forwardAdded hagree.only hadded

/-- A removal closes no port. -/
theorem opens_unforwarded {key : UInt16 × Protocol}
    (hdeleted : ForwardDeleted node key after) (id : String)
    (port : UInt16) (protocol : Protocol) :
    cfg.nftables.Opens after.ruleset id port protocol ↔
      cfg.nftables.Opens node.ruleset id port protocol := by
  apply opens_rulesKept _ hdeleted.ruleset
  intro rule hchain
  simp [isDnatRuleMatching, hchain]

theorem forwards_unforwarded {key : UInt16 × Protocol}
    (hdeleted : ForwardDeleted node key after) (id : String)
    (port : UInt16) (protocol : Protocol) :
    after.Forwards id port protocol ↔
      ∃ other forward, other ≠ key ∧
        node.portForwards.lookup other = some forward ∧
        forward.vmId = id ∧ forward.vmPort = port ∧
        forward.protocol = protocol := by
  unfold Node.Forwards
  simp only [hdeleted.forwards]
  constructor
  · rintro ⟨other, forward, hlookup, hforward⟩
    by_cases hother : other = key
    · rw [if_pos hother] at hlookup
      cases hlookup
    · rw [if_neg hother] at hlookup
      exact ⟨other, forward, hother, hlookup, hforward⟩
  · rintro ⟨other, forward, hother, hlookup, hforward⟩
    refine ⟨other, forward, ?_, hforward⟩
    rw [if_neg hother]
    exact hlookup

theorem unforwarded {key : UInt16 × Protocol} {forward : PortForward}
    (hagree : AcceptsAgree node)
    (hdeleted : ForwardDeleted node key after)
    (hfound : node.portForwards.lookup key = some forward)
    (hsibling : ∃ other sibling, other ≠ key ∧
      node.portForwards.lookup other = some sibling ∧
      sibling.vmId = forward.vmId ∧ sibling.vmPort = forward.vmPort ∧
      sibling.protocol = forward.protocol) : AcceptsAgree after := by
  constructor
  · intro id port protocol
    rw [opens_unforwarded hdeleted, hagree.opens_iff,
      forwards_unforwarded hdeleted]
    constructor
    · rintro ⟨other, found, hlookup, rfl, rfl, rfl⟩
      by_cases hother : other = key
      · rw [hother, hfound, Option.some.injEq] at hlookup
        rw [← hlookup]
        exact hsibling
      · exact ⟨other, found, hother, hlookup, rfl, rfl, rfl⟩
    · rintro ⟨other, found, _, hlookup, hforward⟩
      exact ⟨other, found, hlookup, hforward⟩
  · intro other found hlookup
    rw [hdeleted.forwards] at hlookup
    rw [hdeleted.vms]
    by_cases hother : other = key
    · rw [if_pos hother] at hlookup
      cases hlookup
    · rw [if_neg hother] at hlookup
      exact hagree.known other found hlookup
  · apply onlyForwardsOpen_of_subset hagree.only
    rw [hdeleted.ruleset.rules]
    exact List.filter_subset_self _

theorem step {op : ManagerOp} (hagree : AcceptsAgree node)
    (hop : op.NftSucceeds) (hsibling : node.LeavesSibling op) :
    AcceptsAgree (node.step op) := by
  have heffect := node.step_firewallEffect hop
  generalize node.step op = after at heffect
  cases heffect with
  | notCreated hsame => exact hagree.congr hsame
  | created hcreated => exact hagree.created hcreated
  | notFound => exact hagree
  | dropped hdropped => exact hagree.dropped hdropped
  | notForwarded hsame => exact hagree.congr hsame
  | forwarded forward hcreated => exact hagree.forwarded hcreated
  | unknownForward hnone => exact hagree
  | unforwarded forward hfound hdeleted =>
      exact hagree.unforwarded hdeleted hfound (hsibling forward hfound)

theorem follow (hagree : AcceptsAgree node) : node.AcceptsFollow :=
  fun id _ => hagree.opens_iff id

/-- Without a sibling the port stays open and no forward leads to it. -/
theorem follow_step_iff {op : ManagerOp} (hagree : AcceptsAgree node)
    (hop : op.NftSucceeds) :
    (node.step op).AcceptsFollow ↔ node.LeavesSibling op := by
  constructor
  · intro hfollow
    cases op with
    | removePortForward calls hostPort protocol =>
        intro forward hfound
        have hdeleted : ForwardDeleted node (hostPort, protocol)
            (node.step (.removePortForward calls hostPort protocol)) :=
          node.removePortForward_deleted hop hfound
        have hknown := hagree.known _ forward hfound
        rw [← hdeleted.vms] at hknown
        have hopen : cfg.nftables.Opens node.ruleset forward.vmId
            forward.vmPort forward.protocol :=
          (hagree.opens_iff _ _ _).mpr
            ⟨_, forward, hfound, rfl, rfl, rfl⟩
        rw [← opens_unforwarded hdeleted, hfollow _ hknown,
          forwards_unforwarded hdeleted] at hopen
        exact hopen
    | createVm calls config requestedIpv6 numaHint => trivial
    | deleteVm calls id => trivial
    | addPortForward calls vmId hostPort vmPort protocol => trivial
    | restart calls => trivial
  · intro hsibling
    exact (hagree.step hop hsibling).follow

end AcceptsAgree

/-! ## Runs -/

/-- In every state of a run the open ports are those of the forwards, exactly
when every removal along the run leaves a sibling. -/
theorem accepts_follow_along_iff (node : Node cfg) (ops : List ManagerOp)
    (hops : ∀ op ∈ ops, op.NftSucceeds) (hnone : node.portForwards = ∅)
    (hclosed : ∀ rule ∈ node.ruleset.rules, ∀ vmId port protocol,
      rule.chain = cfg.nftables.vmFilterChain vmId →
        opensPort rule port protocol = false) :
    Along Node.step (fun before op => (before.step op).AcceptsFollow) node
        ops ↔
      Along Node.step Node.LeavesSibling node ops := by
  have hinit : AcceptsAgree node := by
    constructor
    · intro id port protocol
      constructor
      · rintro ⟨rule, hmem, hchain, hopens⟩
        rw [hclosed rule hmem id port protocol hchain] at hopens
        cases hopens
      · rintro ⟨key, forward, hlookup, _⟩
        rw [hnone] at hlookup
        cases hlookup
    · intro key forward hlookup
      rw [hnone] at hlookup
      cases hlookup
    · intro rule hmem id port protocol hchain hopens
      rw [hclosed rule hmem id port protocol hchain] at hopens
      cases hopens
  apply along_iff_of_invariant_of_mem _ _ hinit
  · intro before op hmem hagree
    exact hagree.follow_step_iff (hops op hmem)
  · intro before op hmem hagree hsibling
    exact hagree.step (hops op hmem) hsibling

theorem accepts_follow_along_reuse_iff :
    Along Node.step (fun before op => (before.step op).AcceptsFollow)
        smallNode reusingOps ↔
      Along Node.step Node.LeavesSibling smallNode reusingOps := by
  apply accepts_follow_along_iff smallNode reusingOps reusingOps_succeed rfl
  intro rule hmem
  cases hmem

def leftoverOps : List ManagerOp :=
  [.createVm createSucceeds (smallConfig "vm-a" .none) none none,
    .addPortForward addSucceeds "vm-a" 8080 80 .tcp,
    .removePortForward addSucceeds 8080 .tcp]

/-- After an addition and its removal the port is still open. -/
theorem accept_outlives_forward :
    (∀ op ∈ leftoverOps, op.NftSucceeds) ∧ smallNode.portForwards = ∅ ∧
      smallNode.ruleset.rules = [] ∧
      (run Node.step smallNode leftoverOps).portForwards.keys = [] ∧
      ¬(run Node.step smallNode leftoverOps).AcceptsFollow := by
  have hempty : (run Node.step smallNode leftoverOps).portForwards.keys =
      [] := by decide +kernel
  refine ⟨?_, rfl, rfl, hempty, ?_⟩
  · have hnft := nftSucceeds_succeed
    simp [leftoverOps, ManagerOp.NftSucceeds, createSucceeds,
      cleanupSucceeds, addSucceeds, hnft]
  · intro hfollow
    have hopens : (run Node.step smallNode leftoverOps).ruleset.rules.any
        (fun rule =>
          rule.chain == smallHost.nftables.vmFilterChain "vm-a" &&
            opensPort rule 80 .tcp) = true := by decide +kernel
    obtain ⟨rule, hmem, hrule⟩ := List.any_eq_true.mp hopens
    rw [Bool.and_eq_true, beq_iff_eq] at hrule
    have hknown : "vm-a" ∈ (run Node.step smallNode leftoverOps).vms := by
      decide +kernel
    obtain ⟨key, forward, hlookup, _⟩ :=
      (hfollow "vm-a" hknown 80 .tcp).mp ⟨rule, hmem, hrule⟩
    have hkey : key ∈ (run Node.step smallNode leftoverOps).portForwards := by
      rw [← AList.lookup_isSome, hlookup]
      rfl
    rw [AList.mem_keys, hempty] at hkey
    cases hkey

end AlephCvm.Vm
