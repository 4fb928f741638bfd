import AlephCvm.NftablesTeardown

/-!
# What a successful cleanup has removed

A listing that exits with an error or cannot be parsed counts as an empty one,
and a cleanup that finds nothing to delete succeeds.  So the result of a
cleanup is that of the kernel only where the listing was read: it is clean
exactly when every family with something to remove was shown to it.
-/

namespace AlephCvm.Nft

open ResultContext AlephCvm.Net

namespace NftablesManager

variable (manager : NftablesManager)

/-- Neither a chain of the machine nor a jump to one. -/
structure CleanOf (vmId : String) (ruleset : Ruleset) : Prop where
  chains : ∀ chain ∈ ruleset.chains, manager.vmChain vmId chain.name = false
  jumps : ∀ rule ∈ ruleset.rules, ∀ target ∈ jumpTargets rule.expr,
    manager.vmChain vmId target = false

/-- A rule that sends what comes for the port to another address. -/
structure ForwardsPort (hostPort : UInt16) (protocol : Protocol)
    (rule : Rule) : Prop where
  chain : rule.chain = manager.supervisorPreroutingChain
  port : .matching "==" (.payload protocol.text "dport")
    (.number hostPort.toNat) ∈ rule.expr
  dnat : ∃ addr port, .dnat addr port ∈ rule.expr

/-- Every family with a chain of the name was read. -/
def ChainsListed (calls : NftCalls) (name : String) (ruleset : Ruleset) :
    Prop :=
  ∀ chain ∈ ruleset.chains, chain.name = name →
    calls.list chain.family = .listed

/-- Every family with a rule for the port was read. -/
def ForwardListed (calls : NftCalls) (hostPort : UInt16)
    (protocol : Protocol) (ruleset : Ruleset) : Prop :=
  ∀ rule ∈ ruleset.rules, manager.ForwardsPort hostPort protocol rule →
    calls.list rule.family = .listed

theorem vmChain_eq_false_iff {vmId name : String} :
    manager.vmChain vmId name = false ↔
      name ≠ manager.vmNatChain vmId ∧ name ≠ manager.vmFilterChain vmId := by
  simp [vmChain]

/-- Jumps lead to chains that exist. -/
theorem cleanOf_iff {vmId : String} {ruleset : Ruleset} :
    manager.CleanOf vmId ruleset ↔
      ∀ chain ∈ ruleset.chains,
        manager.vmChain vmId chain.name = false := by
  constructor
  · intro hclean
    exact hclean.chains
  · intro hchains
    refine ⟨hchains, ?_⟩
    intro rule hrule target htarget
    have hexists := ruleset.jump_chain rule hrule
      (rule.family, rule.table, target)
      (List.mem_map.mpr ⟨target, htarget, rfl⟩)
    obtain ⟨chain, hchain, hkey⟩ := List.mem_map.mp hexists
    have hname : chain.name = target := Chain.name_of_key hkey
    rw [← hname]
    exact hchains chain hchain

theorem isDnatRuleMatching_of_forwardsPort
    {hostPort : UInt16} {protocol : Protocol} {rule : Rule}
    (hforwards : manager.ForwardsPort hostPort protocol rule) :
    isDnatRuleMatching rule manager.supervisorPreroutingChain hostPort
      protocol = true := by
  obtain ⟨addr, port, hdnat⟩ := hforwards.dnat
  simp only [isDnatRuleMatching, Bool.and_eq_true, beq_iff_eq,
    List.any_eq_true]
  refine ⟨⟨hforwards.chain, _, hforwards.port, ?_⟩, _, hdnat, rfl⟩
  simp [matchesDport]

end NftablesManager

/-! ## One chain -/

theorem NamedRemoved.mem_chains
    {list : Family → ListOutcome} {name : String} {before after : Ruleset}
    (hremoved : NamedRemoved list name before after) {chain : Chain} :
    chain ∈ after.chains ↔ chain ∈ before.chains ∧
      (chain.name = name → list chain.family ≠ .listed) := by
  rw [hremoved.chains, List.mem_filter]
  simp only [Bool.not_eq_true', Bool.and_eq_false_iff, beq_eq_false_iff_ne,
    ne_eq]
  tauto

theorem NamedRemoved.gone_iff
    {calls : NftCalls} {name : String} {before after : Ruleset}
    (hremoved : NamedRemoved calls.list name before after) :
    (∀ chain ∈ after.chains, chain.name ≠ name) ↔
      NftablesManager.ChainsListed calls name before := by
  constructor
  · intro hgone chain hchain hname
    by_contra hunread
    exact hgone chain (hremoved.mem_chains.mpr ⟨hchain, fun _ => hunread⟩)
      hname
  · intro hlisted chain hchain hname
    obtain ⟨hbefore, hkept⟩ := hremoved.mem_chains.mp hchain
    exact hkept hname (hlisted chain hbefore hname)

theorem NamedRemoved.mem_chains_of_ne
    {list : Family → ListOutcome} {name : String} {before after : Ruleset}
    (hremoved : NamedRemoved list name before after) {chain : Chain}
    (hname : chain.name ≠ name) :
    chain ∈ after.chains ↔ chain ∈ before.chains := by
  rw [hremoved.mem_chains]
  exact ⟨fun h => h.1, fun h => ⟨h, fun heq => absurd heq hname⟩⟩

namespace NftablesManager

variable (manager : NftablesManager)

/-- What the two removals of a teardown that succeeds have done. -/
theorem teardownVm_eq_ok
    {natCalls filterCalls : NftCalls} {ruleset after : Ruleset}
    {vmId : String}
    (hok : manager.teardownVm natCalls filterCalls ruleset vmId =
      (.ok (), after)) :
    ∃ middle,
      NamedRemoved natCalls.list (manager.vmNatChain vmId) ruleset middle ∧
      NamedRemoved filterCalls.list (manager.vmFilterChain vmId) middle
        after := by
  unfold teardownVm at hok
  cases hnat : removeChainEverywhere natCalls ruleset
      (manager.vmNatChain vmId) with
  | error message => simp [hnat] at hok
  | ok middle =>
      simp only [hnat] at hok
      cases hfilter : removeChainEverywhere filterCalls middle
          (manager.vmFilterChain vmId) with
      | error message => simp [hfilter] at hok
      | ok final =>
          simp only [hfilter, Prod.mk.injEq, true_and] at hok
          subst hok
          exact ⟨middle, removeChainEverywhere_namedRemoved hnat,
            removeChainEverywhere_namedRemoved hfilter⟩

theorem teardownVm_clean_iff
    {natCalls filterCalls : NftCalls} {ruleset after : Ruleset}
    {vmId : String}
    (hok : manager.teardownVm natCalls filterCalls ruleset vmId =
      (.ok (), after)) :
    manager.CleanOf vmId after ↔
      ChainsListed natCalls (manager.vmNatChain vmId) ruleset ∧
        ChainsListed filterCalls (manager.vmFilterChain vmId) ruleset := by
  obtain ⟨middle, hnat, hfilter⟩ := manager.teardownVm_eq_ok hok
  have hne := manager.vmNatChain_ne_vmFilterChain vmId vmId
  have hnatGone : (∀ chain ∈ after.chains,
      chain.name ≠ manager.vmNatChain vmId) ↔
        ChainsListed natCalls (manager.vmNatChain vmId) ruleset := by
    rw [← hnat.gone_iff]
    refine forall_congr' fun chain => ?_
    by_cases hname : chain.name = manager.vmNatChain vmId
    · rw [hfilter.mem_chains_of_ne (hname ▸ hne)]
    · simp [hname]
  have hfilterGone : (∀ chain ∈ after.chains,
      chain.name ≠ manager.vmFilterChain vmId) ↔
        ChainsListed filterCalls (manager.vmFilterChain vmId) ruleset := by
    rw [hfilter.gone_iff]
    refine forall_congr' fun chain => ?_
    by_cases hname : chain.name = manager.vmFilterChain vmId
    · rw [hnat.mem_chains_of_ne (hname ▸ hne.symm)]
    · simp [hname]
  rw [cleanOf_iff, ← hnatGone, ← hfilterGone]
  simp only [vmChain_eq_false_iff]
  exact ⟨fun h => ⟨fun chain hchain => (h chain hchain).1,
      fun chain hchain => (h chain hchain).2⟩,
    fun h chain hchain => ⟨h.1 chain hchain, h.2 chain hchain⟩⟩

/-! ## A port forward -/

theorem removePortForward_clean_iff
    {calls : NftCalls} {ruleset after : Ruleset} {hostPort : UInt16}
    {protocol : Protocol}
    (hok : manager.removePortForward calls ruleset hostPort protocol =
      .ok after) :
    (∀ rule ∈ after.rules, ¬ manager.ForwardsPort hostPort protocol rule) ↔
      manager.ForwardListed calls hostPort protocol ruleset := by
  have hrules := (removePortForward_rulesKept manager hok).rules
  constructor
  · intro hgone rule hrule hforwards
    by_contra hunread
    refine hgone rule ?_ hforwards
    rw [hrules, List.mem_filter]
    exact ⟨hrule, by simp [hunread]⟩
  · intro hlisted rule hrule hforwards
    rw [hrules, List.mem_filter] at hrule
    have hkept := hrule.2
    rw [hlisted rule hrule.1 hforwards,
      manager.isDnatRuleMatching_of_forwardsPort hforwards] at hkept
    cases hkept

/-- The removal fails when nft cannot be called: for a listing, or for a
batch that has something to delete. -/
theorem removePortForward_isOk_iff
    {calls : NftCalls} {ruleset : Ruleset} {hostPort : UInt16}
    {protocol : Protocol} :
    (∃ next, manager.removePortForward calls ruleset hostPort protocol =
        .ok next) ↔
      (∀ family message, calls.list family ≠ .notExecuted message) ∧
        (calls.batch.executed = .ok () ∨
          ∀ rule ∈ ruleset.rules, calls.list rule.family = .listed →
            isDnatRuleMatching rule manager.supervisorPreroutingChain
              hostPort protocol = false) := by
  rw [← executeListRuleset_isOk_iff calls.list ruleset]
  constructor
  · rintro ⟨next, hok⟩
    simp only [removePortForward, bind_eq_ok] at hok
    obtain ⟨listing, hlisting, hrun⟩ := hok
    have hlists := executeListRuleset_lists hlisting
    refine ⟨⟨listing, hlisting⟩, ?_⟩
    unfold executeNftCommands at hrun
    split_ifs at hrun with hempty
    · right
      intro rule hrule hlisted
      rw [removePortForwardCommands, List.isEmpty_iff, List.map_eq_nil_iff,
        List.filter_eq_nil_iff] at hempty
      simpa using hempty rule ((hlists.mem_rules rule).mpr ⟨hrule, hlisted⟩)
    · left
      cases hexecuted : calls.batch.executed with
      | error message => simp [hexecuted] at hrun
      | ok value => rfl
  · rintro ⟨⟨listing, hlisting⟩, hbatch⟩
    have hlists := executeListRuleset_lists hlisting
    obtain ⟨next, hnext, _⟩ := removePortForwardCommands_applied manager
      hlists hostPort protocol
    simp only [removePortForward, hlisting, bind, Except.bind]
    rcases hbatch with hexecuted | hnone
    · exact ⟨next, executeNftCommands_of_applyBatch hexecuted hnext⟩
    · refine ⟨ruleset, ?_⟩
      have hempty : manager.removePortForwardCommands listing hostPort
          protocol = [] := by
        rw [removePortForwardCommands, List.map_eq_nil_iff,
          List.filter_eq_nil_iff]
        intro rule hrule
        obtain ⟨hruleset, hlisted⟩ := (hlists.mem_rules rule).mp hrule
        simp [hnone rule hruleset hlisted]
      simp [executeNftCommands, hempty]

/-- A successful cleanup is clean exactly when what it had to remove was
shown to it. -/
theorem cleanup_ok_clean_iff (ruleset : Ruleset) :
    (∀ natCalls filterCalls vmId after,
      manager.teardownVm natCalls filterCalls ruleset vmId =
        (.ok (), after) →
      (manager.CleanOf vmId after ↔
        ChainsListed natCalls (manager.vmNatChain vmId) ruleset ∧
          ChainsListed filterCalls (manager.vmFilterChain vmId)
            ruleset)) ∧
    ∀ calls hostPort protocol after,
      manager.removePortForward calls ruleset hostPort protocol =
        .ok after →
      ((∀ rule ∈ after.rules,
          ¬ manager.ForwardsPort hostPort protocol rule) ↔
        manager.ForwardListed calls hostPort protocol ruleset) :=
  ⟨fun _ _ _ _ hok => manager.teardownVm_clean_iff hok,
    fun _ _ _ _ hok => manager.removePortForward_clean_iff hok⟩

end NftablesManager

/-! ## Listings that cannot be read -/

def alephManager : NftablesManager := ⟨"aleph", "eth0", false⟩

/-- `nft list ruleset` exits with an error; batches would go through. -/
def unreadable : NftCalls := ⟨fun _ => .unusable, ⟨.ok (), ""⟩⟩

/-- The chain of a machine and the rule of a forward of its port 80. -/
def machineRuleset : Ruleset where
  tables := [(.ip, "nat")]
  chains := [⟨.ip, "nat", "aleph-supervisor-prerouting", none⟩,
    ⟨.ip, "nat", "aleph-vm-nat-vm-a", none⟩]
  rules := [⟨.ip, "nat", "aleph-supervisor-prerouting", 1,
    [.matching "==" (.payload "tcp" "dport") (.number 8080),
      .dnat "10.0.100.2" 80]⟩]
  nextHandle := 2
  chain_table := by decide
  chains_nodup := by decide
  rule_chain := by decide
  jump_chain := by decide
  handles_nodup := by decide
  handle_lt := by decide

theorem unreadable_listing_leaves_entries :
    (∃ after, alephManager.teardownVm unreadable unreadable machineRuleset
        "vm-a" = (.ok (), after) ∧ ¬ alephManager.CleanOf "vm-a" after) ∧
    ∃ after, alephManager.removePortForward unreadable machineRuleset 8080
        .tcp = .ok after ∧
      ∃ rule ∈ after.rules, alephManager.ForwardsPort 8080 .tcp rule := by
  refine ⟨⟨machineRuleset, rfl, ?_⟩, machineRuleset, rfl, _,
    List.mem_cons_self, ?_⟩
  · intro hclean
    have hchain := hclean.chains ⟨.ip, "nat", "aleph-vm-nat-vm-a", none⟩
      (by decide)
    revert hchain
    decide
  · exact ⟨by decide, by decide, "10.0.100.2", 80, by decide⟩

end AlephCvm.Nft
