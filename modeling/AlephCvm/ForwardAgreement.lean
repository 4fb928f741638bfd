import AlephCvm.FirewallEffects
import AlephCvm.TableReflection

/-!
# The forwards in the kernel

The table of the forwards is kept a second time as DNAT rules in the
prerouting chain of the supervisor.  The table is keyed by host port and
protocol; the rules are found by their expressions and deleted by handle.
While the calls of nft go through, the chain reflects the table: every entry
has exactly one rule, which leads to the current address of its machine.
-/

namespace AlephCvm.Nft

open AlephCvm.Net

/-- The chain into which the rules of the forwards go. -/
def NftablesManager.preroutingKey (manager : NftablesManager)
    (ruleset : Ruleset) : Option ChainKey :=
  (getTableForChain ruleset.listing .ip
    manager.supervisorPreroutingChain).map fun table =>
      (.ip, table, manager.supervisorPreroutingChain)

/-- A DNAT rule of the chain that matches the port. -/
def NftablesManager.redirectsIn (manager : NftablesManager)
    (key : ChainKey) (rule : Rule) (port : UInt16 × Protocol) : Bool :=
  rule.chainKey == key &&
    isDnatRuleMatching rule manager.supervisorPreroutingChain port.1 port.2

theorem protocol_text_injective {first second : Protocol}
    (htext : first.text = second.text) : first = second := by
  revert htext
  cases first <;> cases second <;> decide

theorem matchesDport_payload (op : String) (found port : UInt16)
    (first second : Protocol) :
    matchesDport port second (.matching op (.payload first.text "dport")
      (.number found.toNat)) = decide ((port, second) = (found, first)) := by
  rw [Bool.eq_iff_iff]
  simp only [matchesDport, Bool.and_eq_true, beq_iff_eq, true_and,
    decide_eq_true_eq, Prod.mk.injEq]
  constructor
  · rintro ⟨htext, hport⟩
    exact ⟨(UInt16.toNat_inj.mp hport).symm,
      (protocol_text_injective htext).symm⟩
  · rintro ⟨rfl, rfl⟩
    exact ⟨rfl, rfl⟩

section Chain

variable {manager : NftablesManager} {rule : Rule} {guestIp : String}
  {forward : PortForward}

/-- The rule of a forward is found under the key of the forward only. -/
theorem isDnatRuleMatching_forwardExpr
    (hchain : rule.chain = manager.supervisorPreroutingChain)
    (hexpr : rule.expr = forwardExpr guestIp forward)
    (port : UInt16 × Protocol) :
    isDnatRuleMatching rule manager.supervisorPreroutingChain port.1
      port.2 = decide (port = forward.key) := by
  obtain ⟨hostPort, protocol⟩ := port
  have hdport := matchesDport_payload "==" forward.hostPort hostPort
    forward.protocol protocol
  have hother : matchesDport hostPort protocol
      (.dnat guestIp forward.vmPort.toNat) = false := rfl
  simp only [isDnatRuleMatching, hchain, hexpr, forwardExpr, hdport, hother,
    isDnat, beq_self_eq_true, List.any_cons, List.any_nil, Bool.or_false,
    Bool.or_true, Bool.true_and, Bool.and_true]
  rfl

theorem preroutingKey_chain {ruleset : Ruleset} {key : ChainKey}
    (hkey : manager.preroutingKey ruleset = some key) :
    key.2.2 = manager.supervisorPreroutingChain := by
  obtain ⟨table, _, rfl⟩ := Option.map_eq_some_iff.mp hkey
  rfl

theorem preroutingKey_grows {before after : Ruleset} {key : ChainKey}
    (hgrows : before.Grows after)
    (hkey : manager.preroutingKey before = some key) :
    manager.preroutingKey after = some key := by
  obtain ⟨table, htable, rfl⟩ := Option.map_eq_some_iff.mp hkey
  unfold NftablesManager.preroutingKey
  rw [getTableForChain_grows hgrows htable]
  rfl

theorem preroutingKey_congr {before after : Ruleset}
    (hchains : after.chains = before.chains) :
    manager.preroutingKey after = manager.preroutingKey before := by
  unfold NftablesManager.preroutingKey
  rw [getTableForChain_listing, getTableForChain_listing, hchains]

/-- Dropping chains of other names does not change where a chain is
found. -/
theorem OwnedRemoved.getTableForChain {owned : String → Bool}
    {before after : Ruleset} (hremoved : OwnedRemoved owned before after)
    (family : Family) {name : String} (hname : owned name = false) :
    getTableForChain after.listing family name =
      Nft.getTableForChain before.listing family name := by
  rw [getTableForChain_listing, getTableForChain_listing, hremoved.chains,
    List.find?_filter]
  congr 2
  funext chain
  rw [Bool.eq_iff_iff]
  by_cases hchain : chain.name = name
  · simp [chainOwned, hchain, hname]
  · simp [hchain]

theorem preroutingKey_ownedRemoved {before after : Ruleset}
    {vmId : String}
    (hremoved : OwnedRemoved (manager.vmChain vmId) before after) :
    manager.preroutingKey after = manager.preroutingKey before := by
  unfold NftablesManager.preroutingKey
  rw [hremoved.getTableForChain .ip
    (manager.vmChain_supervisorPreroutingChain vmId)]

/-- The rule of a forward is not one of the rules of a machine's chains. -/
theorem ruleOwned_forwardExpr
    (hchain : rule.chain = manager.supervisorPreroutingChain)
    (hexpr : rule.expr = forwardExpr guestIp forward) (vmId : String) :
    ruleOwned (manager.vmChain vmId) rule = false := by
  unfold ruleOwned
  rw [hchain, manager.vmChain_supervisorPreroutingChain vmId, hexpr]
  rfl

end Chain

end AlephCvm.Nft

namespace AlephCvm.Vm

open TableReflection StepRuns AlephCvm.Tee AlephCvm.Net AlephCvm.Nft

variable {cfg : NodeConfig}

/-- The rule leads to the machine of the forward, at its current address. -/
def Node.TargetsForward (node : Node cfg) (port : UInt16 × Protocol)
    (forward : PortForward) (rule : Rule) : Prop :=
  forward.key = port ∧ ∃ handle,
    node.vms.lookup forward.vmId = some handle ∧
      rule.expr = forwardExpr (ipv4Text handle.ip) forward

/-- The chain holds exactly one DNAT rule for every forward, and none for a
port without one. -/
structure ForwardsReflected (key : ChainKey) (node : Node cfg) : Prop where
  chain : cfg.nftables.preroutingKey node.ruleset = some key
  reflects : Reflects (cfg.nftables.redirectsIn key) node.TargetsForward
    (fun port => node.portForwards.lookup port) node.ruleset.rules

namespace ForwardsReflected

variable {key : ChainKey} {node after : Node cfg}

theorem congr (hreflected : ForwardsReflected key node)
    (hsame : SameFirewall node after) : ForwardsReflected key after where
  chain := by
    rw [hsame.ruleset]
    exact hreflected.chain
  reflects := by
    rw [hsame.ruleset]
    apply (hreflected.reflects.congr hsame.forwards).mono
    rintro port forward rule _ ⟨hport, handle, hvm, hexpr⟩
    exact ⟨hport, handle, by rw [hsame.vms]; exact hvm, hexpr⟩

theorem rule_chain {rule : Rule} {port : UInt16 × Protocol}
    (hreflected : ForwardsReflected key node)
    (hredirects : cfg.nftables.redirectsIn key rule port = true) :
    rule.chain = cfg.nftables.supervisorPreroutingChain := by
  unfold NftablesManager.redirectsIn at hredirects
  rw [Bool.and_eq_true, beq_iff_eq] at hredirects
  rw [← preroutingKey_chain hreflected.chain, ← hredirects.1]
  rfl

/-- A setup adds no DNAT rule. -/
theorem setUp {calls : NftCalls} {next : Ruleset} {vmId tap : String}
    (hreflected : ForwardsReflected key node)
    (hok : cfg.nftables.setupVm calls node.ruleset vmId tap = .ok next) :
    ForwardsReflected key { node with ruleset := next } := by
  obtain ⟨listing, _, hgrows, added, hrules, hkinds⟩ :=
    NftablesManager.setupVm_rules hok
  constructor
  · exact preroutingKey_grows hgrows hreflected.chain
  · simp only [hrules]
    apply hreflected.reflects.append_other
    intro rule hmem port
    have hnot : rule.expr.any isDnat = false :=
      NftablesManager.not_dnat_of_setupRule (hkinds rule hmem)
    simp [NftablesManager.redirectsIn, isDnatRuleMatching, hnot]

/-- Nor does a teardown remove one. -/
theorem tearDown {next : Ruleset} {vmId : String}
    (hreflected : ForwardsReflected key node)
    (hremoved : OwnedRemoved (cfg.nftables.vmChain vmId) node.ruleset
      next) : ForwardsReflected key { node with ruleset := next } := by
  constructor
  · rw [preroutingKey_ownedRemoved hremoved]
    exact hreflected.chain
  · simp only [hremoved.rules]
    refine @Reflects.remove _ _ _ _ _ _ _ _ hreflected.reflects
      (fun _ => False) _ _ ?_ ?_
    · rintro port forward _ rule hredirects ⟨_, handle, _, hexpr⟩
      rw [ruleOwned_forwardExpr (hreflected.rule_chain hredirects) hexpr]
      rfl
    · intro port
      exact (if_neg id).symm

theorem created {vmId : String} (hreflected : ForwardsReflected key node)
    (hcreated : ChainsCreated node vmId after) :
    ForwardsReflected key after := by
  obtain ⟨calls, middle, hsetup, hend⟩ := hcreated.ruleset
  have hset := hreflected.setUp hsetup
  have hrules : ForwardsReflected key
      { node with ruleset := after.ruleset } := by
    rcases hend with hkept | hremoved
    · rw [hkept]
      exact hset
    · exact hset.tearDown hremoved
  constructor
  · exact hrules.chain
  · apply (hrules.reflects.congr fun port => by rw [hcreated.forwards]).mono
    rintro port forward rule _ ⟨hport, handle, hvm, hexpr⟩
    refine ⟨hport, handle, ?_, hexpr⟩
    rcases hcreated.vms with hsame | ⟨new, hinserted⟩
    · rw [hsame]
      exact hvm
    · have hne : forward.vmId ≠ vmId := by
        intro heq
        apply hcreated.fresh
        rw [← heq, ← AList.lookup_isSome, hvm]
        rfl
      rw [hinserted, AList.lookup_insert_ne hne]
      exact hvm

theorem key_eq {port : UInt16 × Protocol} {forward : PortForward}
    (hreflected : ForwardsReflected key node)
    (hfound : node.portForwards.lookup port = some forward) :
    forward.key = port := by
  obtain ⟨_, _, htarget⟩ := hreflected.reflects.entry port forward hfound
  exact htarget.1

/-- The rules that go with the forwards of a machine are those of its own
entries. -/
theorem removed_iff {id : String} {removed : List PortForward}
    (hreflected : ForwardsReflected key node)
    (hremoved : ∀ forward, forward ∈ removed ↔ forward.vmId = id ∧
      ∃ port, node.portForwards.lookup port = some forward)
    {port : UInt16 × Protocol} {forward : PortForward} {rule : Rule}
    (hfound : node.portForwards.lookup port = some forward)
    (hredirects : cfg.nftables.redirectsIn key rule port = true)
    (htarget : node.TargetsForward port forward rule) :
    removed.any (forwardRemoves cfg.nftables rule) = true ↔
      forward.vmId = id := by
  obtain ⟨hport, handle, _, hexpr⟩ := htarget
  have hmatch := isDnatRuleMatching_forwardExpr
    (hreflected.rule_chain hredirects) hexpr
  rw [List.any_eq_true]
  constructor
  · rintro ⟨found, hmem, hremoves⟩
    obtain ⟨howner, other, hother⟩ := (hremoved found).mp hmem
    have hkey : found.key = forward.key := by
      have hmatched := hmatch found.key
      unfold forwardRemoves at hremoves
      unfold PortForward.key at hmatched
      rw [hremoves] at hmatched
      exact of_decide_eq_true hmatched.symm
    have hsame : other = port := by
      rw [← hreflected.key_eq hother, hkey, hport]
    rw [hsame, hfound, Option.some.injEq] at hother
    rw [hother]
    exact howner
  · intro howner
    refine ⟨forward, (hremoved forward).mpr ⟨howner, port, hfound⟩, ?_⟩
    have hmatched := hmatch forward.key
    unfold forwardRemoves
    unfold PortForward.key at hmatched
    rw [hmatched, decide_eq_true_eq]

theorem dropped {id : String} (hreflected : ForwardsReflected key node)
    (hdropped : MachineDropped node id after) :
    ForwardsReflected key after := by
  obtain ⟨removed, middle, hremoved, hkept, howned⟩ := hdropped.ruleset
  have hmiddle : Reflects (cfg.nftables.redirectsIn key)
      after.TargetsForward (fun port => after.portForwards.lookup port)
      middle.rules := by
    rw [hkept.rules]
    have hfiltered : Reflects (cfg.nftables.redirectsIn key)
        node.TargetsForward (fun port => after.portForwards.lookup port)
        (node.ruleset.rules.filter fun rule =>
          !removed.any (forwardRemoves cfg.nftables rule)) := by
      apply @Reflects.remove _ _ _ _ _ _ _ _ hreflected.reflects
        (fun port => (node.portForwards.lookup port).any
          (fun forward => forward.vmId == id) = true)
      · intro port forward hfound rule hredirects htarget
        have hiff := hreflected.removed_iff hremoved hfound hredirects
          htarget
        congr 1
        rw [Bool.eq_iff_iff, hiff]
        simp [hfound]
      · exact hdropped.lookup
    apply hfiltered.mono
    rintro port forward rule hafter ⟨hport, handle, hvm, hexpr⟩
    refine ⟨hport, handle, ?_, hexpr⟩
    have hother := ((hdropped.forwards port forward).mp hafter).2
    rw [hdropped.vms, AList.lookup_erase_ne hother]
    exact hvm
  have hnext : ForwardsReflected key { after with ruleset := middle } :=
    ⟨(preroutingKey_congr hkept.chains).trans hreflected.chain, hmiddle⟩
  exact hnext.tearDown howned

theorem forwarded {forward : PortForward}
    (hreflected : ForwardsReflected key node)
    (hcreated : ForwardCreated node forward after) :
    ForwardsReflected key after := by
  obtain ⟨handle, preroutingTable, filterTable, hvm, hadded⟩ :=
    hcreated.ruleset
  have hkey : key =
      (.ip, preroutingTable, cfg.nftables.supervisorPreroutingChain) := by
    have hchain := hreflected.chain
    unfold NftablesManager.preroutingKey at hchain
    rw [hadded.prerouting] at hchain
    cases hchain
    rfl
  constructor
  · rw [preroutingKey_congr hadded.chains]
    exact hreflected.chain
  · rw [hadded.rules, List.append_cons]
    apply Reflects.append_other
    · have hbefore : Reflects (cfg.nftables.redirectsIn key)
          after.TargetsForward (fun port => node.portForwards.lookup port)
          node.ruleset.rules := by
        apply hreflected.reflects.mono
        rintro port found rule _ ⟨hport, other, hother, hexpr⟩
        exact ⟨hport, other, by rw [hcreated.vms]; exact hother, hexpr⟩
      apply hbefore.insert hcreated.free ?_ ?_ hcreated.forwards
      · intro port
        unfold NftablesManager.redirectsIn
        rw [isDnatRuleMatching_forwardExpr rfl rfl port, hkey]
        simp [Rule.chainKey]
      · exact ⟨rfl, handle, by rw [hcreated.vms]; exact hvm, rfl⟩
    · intro rule hmem port
      rw [List.mem_singleton.mp hmem]
      simp [NftablesManager.redirectsIn, isDnatRuleMatching, portAcceptExpr,
        isDnat]

theorem unforwarded {port : UInt16 × Protocol}
    (hreflected : ForwardsReflected key node)
    (hdeleted : ForwardDeleted node port after) :
    ForwardsReflected key after := by
  constructor
  · rw [preroutingKey_congr hdeleted.ruleset.chains]
    exact hreflected.chain
  · rw [hdeleted.ruleset.rules]
    have hfiltered := @Reflects.remove _ _ _ _ _ _
      (fun port => after.portForwards.lookup port) _ hreflected.reflects
      (fun other => other = port) _
      (fun rule => !isDnatRuleMatching rule
        cfg.nftables.supervisorPreroutingChain port.1 port.2) ?_
      hdeleted.forwards
    · apply hfiltered.mono
      rintro other forward rule _ ⟨hport, handle, hvm, hexpr⟩
      exact ⟨hport, handle, by rw [hdeleted.vms]; exact hvm, hexpr⟩
    · rintro other forward _ rule hredirects ⟨hport, handle, _, hexpr⟩
      rw [isDnatRuleMatching_forwardExpr (hreflected.rule_chain hredirects)
        hexpr port, hport, decide_eq_decide.mpr eq_comm]

theorem step {op : ManagerOp} (hreflected : ForwardsReflected key node)
    (hop : op.NftSucceeds) : ForwardsReflected key (node.step op) := by
  have heffect := node.step_firewallEffect hop
  generalize node.step op = after at heffect
  cases heffect with
  | notCreated hsame => exact hreflected.congr hsame
  | created hcreated => exact hreflected.created hcreated
  | notFound => exact hreflected
  | dropped hdropped => exact hreflected.dropped hdropped
  | notForwarded hsame => exact hreflected.congr hsame
  | forwarded forward hcreated => exact hreflected.forwarded hcreated
  | unknownForward hnone => exact hreflected
  | unforwarded forward hfound hdeleted =>
      exact hreflected.unforwarded hdeleted

end ForwardsReflected

/-! ## Runs -/

theorem forwards_reflected_after_calls (node : Node cfg) {key : ChainKey}
    (ops : List ManagerOp) (hops : ∀ op ∈ ops, op.NftSucceeds)
    (hnone : node.portForwards = ∅)
    (hchain : cfg.nftables.preroutingKey node.ruleset = some key)
    (hempty : ∀ rule ∈ node.ruleset.rules, rule.chainKey = key →
      rule.expr.any isDnat = false) :
    ForwardsReflected key (run Node.step node ops) := by
  have hinit : ForwardsReflected key node := by
    refine ⟨hchain, Reflects.empty ?_ ?_⟩
    · intro port
      rw [hnone]
      rfl
    · intro rule hmem port
      unfold NftablesManager.redirectsIn isDnatRuleMatching
      by_cases hkey : rule.chainKey = key
      · simp [hempty rule hmem hkey]
      · simp [hkey]
  apply run_invariant_of_along _ hinit
    (along_of_forall (Q := ManagerOp.NftSucceeds) hops node)
  intro state op hreflected hop
  exact hreflected.step hop

theorem nftSucceeds_succeed : nftSucceeds.Succeed := ⟨fun _ => rfl, rfl⟩

def addSucceeds : ForwardCalls := ⟨nftSucceeds, .stored, true⟩

/-- The second machine gets the address and the host port of the first. -/
def reusingOps : List ManagerOp :=
  [.createVm createSucceeds (smallConfig "vm-a" .none) none none,
    .addPortForward addSucceeds "vm-a" 8080 80 .tcp,
    .deleteVm deleteSucceeds "vm-a",
    .createVm createSucceeds (smallConfig "vm-b" .none) none none,
    .addPortForward addSucceeds "vm-b" 8080 443 .tcp,
    .addPortForward addSucceeds "vm-b" 0 22 .tcp,
    .removePortForward addSucceeds 10000 .tcp]

theorem reusingOps_succeed : ∀ op ∈ reusingOps, op.NftSucceeds := by
  have hnft := nftSucceeds_succeed
  simp [reusingOps, ManagerOp.NftSucceeds, createSucceeds, deleteSucceeds,
    cleanupSucceeds, addSucceeds, hnft]

theorem forwards_reflected_after_reuse :
    ForwardsReflected (.ip, "aleph", "aleph-supervisor-prerouting")
      (run Node.step smallNode reusingOps) := by
  apply forwards_reflected_after_calls smallNode reusingOps
    reusingOps_succeed rfl
  · decide
  · intro rule hmem
    cases hmem

end AlephCvm.Vm
