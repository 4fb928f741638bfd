import AlephCvm.HostRules

/-!
# What the host decides about packets

The chains of a host decide about a packet as they did before there was a
supervisor, as long as its chains do not decide about the packet; and without
that condition once `teardown` has removed these chains.  The policies of the
host's chains are part of this.  A start whose listing shows nothing of a
family sets them to accept, and they stay so.
-/

namespace AlephCvm.Nft

open ResultContext PacketFilter

namespace NftablesManager

variable (manager : NftablesManager)

/-- The supervisor's chains in the order of the removals; the first that
fails is the last that is tried. -/
def teardown (natCalls filterCalls preroutingCalls : NftCalls) :
    NftM Unit := do
  NftM.commit fun ruleset =>
    removeChainEverywhere natCalls ruleset manager.supervisorNatChain
  NftM.commit fun ruleset =>
    removeChainEverywhere filterCalls ruleset manager.supervisorFilterChain
  NftM.commit fun ruleset =>
    removeChainEverywhere preroutingCalls ruleset
      manager.supervisorPreroutingChain

theorem teardown_removed
    {natCalls filterCalls preroutingCalls : NftCalls}
    (hnat : natCalls.Succeed) (hfilter : filterCalls.Succeed)
    (hprerouting : preroutingCalls.Succeed) (ruleset : Ruleset) :
    ∃ after, manager.teardown natCalls filterCalls preroutingCalls ruleset =
        (.ok (), after) ∧
      OwnedRemoved manager.supervisorChains.contains ruleset after := by
  obtain ⟨first, hfirst, hnatGone⟩ := removeChainEverywhere_removed hnat
    ruleset manager.supervisorNatChain
  obtain ⟨second, hsecond, hfilterGone⟩ := removeChainEverywhere_removed
    hfilter first manager.supervisorFilterChain
  obtain ⟨third, hthird, hpreroutingGone⟩ := removeChainEverywhere_removed
    hprerouting second manager.supervisorPreroutingChain
  refine ⟨third, ?_, ?_⟩
  · rw [teardown, NftM.bind_of_ok (NftM.commit_eq_ok.mpr hfirst),
      NftM.bind_of_ok (NftM.commit_eq_ok.mpr hsecond)]
    exact NftM.commit_eq_ok.mpr hthird
  · have hall := (hnatGone.comp hfilterGone).comp hpreroutingGone
    have hnames : ∀ name, manager.supervisorChains.contains name =
        (name == manager.supervisorNatChain ||
            name == manager.supervisorFilterChain ||
          name == manager.supervisorPreroutingChain) := by
      intro name
      rw [Bool.eq_iff_iff]
      simp [supervisorChains, or_assoc]
    rw [funext hnames]
    exact hall

/-- The host has no chain with a name of the manager's. -/
def Untouched (ruleset : Ruleset) : Prop :=
  ∀ chain ∈ ruleset.chains, manager.owns chain.name = false

end NftablesManager

theorem ruleOwned_mono
    {owned wider : String → Bool}
    (hwider : ∀ name, owned name = true → wider name = true) {rule : Rule}
    (howned : ruleOwned owned rule = true) :
    ruleOwned wider rule = true := by
  simp only [ruleOwned, Bool.or_eq_true, List.any_eq_true] at howned ⊢
  rcases howned with hchain | ⟨name, hmem, hname⟩
  · exact .inl (hwider _ hchain)
  · exact .inr ⟨name, hmem, hwider name hname⟩

/-! ## Decisions of a chain -/

/-- What becomes of a packet in a chain: a rule decides, the policy of a base
chain does, or the packet returns to where it came from. -/
inductive Decision where
  | rule (rule : Rule) (verdict : Verdict)
  | policy (policy : String)
  | returned
  deriving DecidableEq, Repr

def Ruleset.policyOf (ruleset : Ruleset) (key : ChainKey) : Option String :=
  (ruleset.chains.find? fun chain => chain.key == key).bind fun chain =>
    chain.base.map BaseHook.policy

def Ruleset.decision (ruleset : Ruleset) (foreign : ForeignRules)
    (packet : Packet) (key : ChainKey) : Decision :=
  match ruleset.evaluate foreign packet key with
  | some (rule, verdict) => .rule rule verdict
  | none => (ruleset.policyOf key).elim .returned .policy

theorem Ruleset.policyOf_of_mem
    {ruleset : Ruleset} {chain : Chain} (hmem : chain ∈ ruleset.chains) :
    ruleset.policyOf chain.key = chain.base.map BaseHook.policy := by
  cases hfound : ruleset.chains.find? fun other =>
      other.key == chain.key with
  | none =>
      have hother := List.find?_eq_none.mp hfound chain hmem
      simp at hother
  | some found =>
      have hkey : found.key = chain.key := by
        simpa using List.find?_some hfound
      have hsame : found = chain :=
        List.inj_on_of_nodup_map ruleset.chains_nodup
          (List.mem_of_find?_eq_some hfound) hmem hkey
      rw [Ruleset.policyOf, hfound, hsame]
      rfl

theorem Ruleset.decision_of_policy
    {ruleset : Ruleset} {chain : Chain} {base : BaseHook}
    (hmem : chain ∈ ruleset.chains) (hbase : chain.base = some base)
    {foreign : ForeignRules} {packet : Packet}
    (hnone : ruleset.evaluate foreign packet chain.key = none) :
    ruleset.decision foreign packet chain.key = .policy base.policy := by
  rw [decision, hnone, Ruleset.policyOf_of_mem hmem, hbase]
  rfl

/-- Where there is no chain no rule decides. -/
theorem Ruleset.evaluate_of_no_chain
    {ruleset : Ruleset} {key : ChainKey} (hnone : ¬ruleset.HasChain key)
    (foreign : ForeignRules) (packet : Packet) :
    ruleset.evaluate foreign packet key = none := by
  have hrules : ruleset.rulesOf key = [] := by
    rw [Ruleset.rulesOf, List.filter_eq_nil_iff]
    intro rule hrule hkey
    rw [beq_iff_eq] at hkey
    rw [← hkey] at hnone
    exact hnone (ruleset.rule_chain rule hrule)
  rw [Ruleset.evaluate, jumpStackSize, PacketFilter.evaluate, hrules]
  rfl

/-- The chains that were there decide about the packet as before.  Only the
policy of one that has been created over again may have come to accept; what
has been added for the manager accepts too. -/
structure DecidesAs (manager : NftablesManager) (blind : Family → Prop)
    (before after : Ruleset) (foreign : ForeignRules) (packet : Packet) :
    Prop where
  kept : ∀ chain ∈ before.chains,
    after.decision foreign packet chain.key =
        before.decision foreign packet chain.key ∨
      blind chain.family ∧
        (∃ policy, before.decision foreign packet chain.key =
          .policy policy) ∧
        after.decision foreign packet chain.key = .policy "accept"
  added : ∀ chain ∈ after.chains, manager.owns chain.name = false →
    ¬before.HasChain chain.key →
      after.decision foreign packet chain.key = .policy "accept"

/-! ## Decisions of the host's chains -/

variable {manager : NftablesManager} {blind : Family → Prop}
  {before after : Ruleset}

theorem Packet.jump_of_action
    {foreign : ForeignRules} {packet : Packet} {key target : ChainKey}
    {expr : List RuleExpr}
    (hjump : packet.action foreign key expr = .jump target) :
    ∃ name ∈ jumpTargets expr, target = (key.1, key.2.1, name) := by
  induction expr with
  | nil => cases hjump
  | cons first rest ih =>
      cases first with
      | matching op left right =>
          simp only [Packet.action] at hjump
          split_ifs at hjump
          obtain ⟨name, hname, htarget⟩ := ih hjump
          exact ⟨name, by simpa [jumpTargets, jumpTarget] using hname,
            htarget⟩
      | jump name =>
          cases hjump
          exact ⟨name, by simp [jumpTargets, jumpTarget], rfl⟩
      | accept => cases hjump
      | masquerade => cases hjump
      | dnat addr port => cases hjump
      | other text =>
          simp only [Packet.action] at hjump
          split_ifs at hjump
          obtain ⟨name, hname, htarget⟩ := ih hjump
          exact ⟨name, by simpa [jumpTargets, jumpTarget] using hname,
            htarget⟩

/-- The rules of the host jump among its own chains. -/
theorem NftablesManager.Untouched.jump
    (huntouched : manager.Untouched before) {foreign : ForeignRules}
    {packet : Packet} {key target : ChainKey} {rule : Rule}
    (hrule : rule ∈ before.rulesOf key)
    (hjump : packet.ruleAction foreign rule = .jump target) :
    manager.owns target.2.2 = false := by
  obtain ⟨name, hname, rfl⟩ := Packet.jump_of_action hjump
  have hmem := (Ruleset.mem_rulesOf.mp hrule).1
  have hchain := before.jump_chain rule hmem _
    (List.mem_map_of_mem hname)
  obtain ⟨chain, hchain, hkey⟩ := List.mem_map.mp hchain
  have hsame : chain.name = name := Chain.name_of_key hkey
  rw [← hsame]
  exact huntouched chain hchain

theorem HostKept.rulesOf
    (hkept : HostKept manager blind before after)
    (huntouched : manager.Untouched before) (key : ChainKey) :
    before.rulesOf key = (after.rulesOf key).filter fun rule =>
      !ruleOwned manager.owns rule := by
  have hrules : (after.rules.filter fun rule =>
      !ruleOwned manager.owns rule) = before.rules := by
    rw [hkept.rules, List.filter_eq_self]
    intro rule hrule
    rw [ruleOwned_of_no_chain huntouched hrule]
    rfl
  rw [Ruleset.rulesOf, Ruleset.rulesOf, ← hrules, List.filter_filter,
    List.filter_filter]
  apply List.filter_congr
  intro rule _
  exact Bool.and_comm _ _

/-- In a chain of the host the manager only has jumps to the supervisor. -/
theorem HostKept.jump
    (hkept : HostKept manager blind before after)
    (huntouched : manager.Untouched before) {key : ChainKey}
    (hkey : manager.owns key.2.2 = false) {rule : Rule}
    (hrule : rule ∈ after.rulesOf key)
    (howned : ruleOwned manager.owns rule = true) :
    ∃ name ∈ manager.supervisorChains, rule.expr = [.jump name] := by
  obtain ⟨hmem, hchain⟩ := Ruleset.mem_rulesOf.mp hrule
  rcases hkept.added rule hmem with hold | hown | hjump
  · rw [ruleOwned_of_no_chain huntouched hold] at howned
    cases howned
  · have hname : rule.chain = key.2.2 := Rule.chain_of_chainKey hchain
    rw [hname, hkey] at hown
    cases hown
  · exact hjump

theorem HostKept.evaluate_of_silent
    (hkept : HostKept manager blind before after)
    (huntouched : manager.Untouched before) {foreign : ForeignRules}
    {packet : Packet}
    (hsilent : ∀ name ∈ manager.supervisorChains, ∀ family table,
      after.evaluate foreign packet (family, table, name) = none)
    {key : ChainKey} (hkey : manager.owns key.2.2 = false) :
    after.evaluate foreign packet key =
      before.evaluate foreign packet key := by
  apply PacketFilter.evaluate_of_silent
    (fun key : ChainKey => manager.owns key.2.2 = false)
    (ruleOwned manager.owns)
  · intro key _
    exact hkept.rulesOf huntouched key
  · intro key _ rule hrule target hjump
    exact huntouched.jump hrule hjump
  · intro key hkey rule hrule howned
    obtain ⟨name, hname, hexpr⟩ := hkept.jump huntouched hkey hrule howned
    refine ⟨(rule.family, rule.table, name), ?_, ?_⟩
    · exact ruleAction_jump rfl hexpr
    · exact hsilent name hname rule.family rule.table
  · exact hkey

theorem HostKept.decidesAs
    (hkept : HostKept manager blind before after)
    (huntouched : manager.Untouched before) {foreign : ForeignRules}
    {packet : Packet}
    (hevaluate : ∀ key : ChainKey, manager.owns key.2.2 = false →
      after.evaluate foreign packet key =
        before.evaluate foreign packet key) :
    DecidesAs manager blind before after foreign packet where
  kept := by
    intro chain hchain
    have hforeign := huntouched chain hchain
    have hsame := hevaluate chain.key hforeign
    rcases hkept.policies chain hchain hforeign with
      hafter | ⟨hblind, hopened⟩
    · left
      rw [Ruleset.decision, Ruleset.decision, hsame,
        Ruleset.policyOf_of_mem hafter, Ruleset.policyOf_of_mem hchain]
    · cases hresult : before.evaluate foreign packet chain.key with
      | some found =>
          left
          rw [hresult] at hsame
          simp only [Ruleset.decision, hsame, hresult]
      | none =>
          rw [hresult] at hsame
          have hpolicy := Ruleset.policyOf_of_mem hopened
          rw [Chain.opened_key] at hpolicy
          cases hbase : chain.base with
          | none =>
              left
              simp only [Ruleset.decision, hsame, hresult, hpolicy,
                Ruleset.policyOf_of_mem hchain, hbase, Chain.opened,
                Option.map_none]
          | some base =>
              right
              refine ⟨hblind, ⟨base.policy, ?_⟩, ?_⟩
              · exact Ruleset.decision_of_policy hchain hbase hresult
              · simp only [Ruleset.decision, hsame, hpolicy, Chain.opened,
                  hbase, Option.map_some, Option.elim_some]
  added := by
    intro chain hchain hforeign hnew
    have hnone : after.evaluate foreign packet chain.key = none := by
      rw [hevaluate chain.key hforeign]
      exact Ruleset.evaluate_of_no_chain hnew foreign packet
    rcases hkept.fresh chain hchain hforeign with hknown | hdefault
    · exact absurd hknown hnew
    · obtain ⟨hook, table, chainType, prio, -, hdefault⟩ := hdefault
      have hbase : chain.base = some ⟨chainType, hook, prio, "accept"⟩ := by
        rw [hdefault]
        rfl
      exact Ruleset.decision_of_policy hchain hbase hnone

/-- Without the supervisor's chains a chain of the host has the rules that
it had. -/
theorem HostKept.rulesOf_of_removed
    (hkept : HostKept manager blind before middle)
    (huntouched : manager.Untouched before)
    (hremoved : OwnedRemoved manager.supervisorChains.contains middle after)
    {key : ChainKey} (hkey : manager.owns key.2.2 = false) :
    after.rulesOf key = before.rulesOf key := by
  rw [hkept.rulesOf huntouched key, Ruleset.rulesOf, Ruleset.rulesOf,
    hremoved.rules, List.filter_filter, List.filter_filter]
  apply List.filter_congr
  intro rule hrule
  by_cases hchain : rule.chainKey = key
  · have hmem : rule ∈ middle.rulesOf key :=
      Ruleset.mem_rulesOf.mpr ⟨hrule, hchain⟩
    have hsame : ruleOwned manager.supervisorChains.contains rule =
        ruleOwned manager.owns rule := by
      rw [Bool.eq_iff_iff]
      constructor
      · intro howned
        exact ruleOwned_mono (fun name hname => manager.owns_supervisorChain
          (List.contains_iff_mem.mp hname)) howned
      · intro howned
        obtain ⟨name, hname, hexpr⟩ :=
          hkept.jump huntouched hkey hmem howned
        simp [ruleOwned, hexpr, jumpTargets, jumpTarget, hname]
    rw [hsame, Bool.and_comm]
  · have hother : (rule.chainKey == key) = false :=
      beq_eq_false_iff_ne.mpr hchain
    rw [hother, Bool.false_and, Bool.and_false]

theorem HostKept.evaluate_of_removed
    (hkept : HostKept manager blind before middle)
    (huntouched : manager.Untouched before)
    (hremoved : OwnedRemoved manager.supervisorChains.contains middle after)
    (foreign : ForeignRules) (packet : Packet) {key : ChainKey}
    (hkey : manager.owns key.2.2 = false) :
    after.evaluate foreign packet key =
      before.evaluate foreign packet key := by
  apply PacketFilter.evaluate_of_silent
    (fun key : ChainKey => manager.owns key.2.2 = false) fun _ => false
  · intro key hkey
    rw [hkept.rulesOf_of_removed huntouched hremoved hkey]
    simp
  · intro key _ rule hrule target hjump
    exact huntouched.jump hrule hjump
  · intro key _ rule _ hextra
    cases hextra
  · exact hkey

theorem NftablesManager.hostKept_of_removed
    (hremoved : OwnedRemoved manager.supervisorChains.contains middle
      after) :
    HostKept manager blind middle after := by
  have hwider : ∀ name, manager.supervisorChains.contains name = true →
      manager.owns name = true := fun name hname =>
    manager.owns_supervisorChain (List.contains_iff_mem.mp hname)
  apply HostKept.of_filter hremoved.rules hremoved.chains
  · intro rule hdropped
    exact ruleOwned_mono hwider (by simpa using hdropped)
  · intro chain hdropped
    exact hwider chain.name (by simpa [chainOwned] using hdropped)

end AlephCvm.Nft

namespace AlephCvm.Vm

open AlephCvm.Nft StepRuns

/-- Over all runs of the server, whatever fails in them, the host keeps its
rules in their order, its chains keep their place, and its chains decide as
before about each packet that the chains of the supervisor leave alone.  Only
a start that sees nothing of a family makes the policies of its chains
accept. -/
theorem host_firewall_kept
    (cfg : NodeConfig)
    (node : Node cfg)
    (events : List ServerEvent)
    (huntouched : cfg.nftables.Untouched node.ruleset) :
    ((run Node.serverStep node events).ruleset.rules.filter
        fun rule => !ruleOwned cfg.nftables.owns rule) =
        node.ruleset.rules ∧
      (∃ bases : List Chain, (∀ chain ∈ bases, chain.Default) ∧
        ((run Node.serverStep node events).ruleset.chains.filter
            fun chain => !chainOwned cfg.nftables.owns chain).map
            Chain.place =
          (node.ruleset.chains ++ bases).map Chain.place) ∧
      ∀ (foreign : ForeignRules) (packet : Packet),
        (∀ name ∈ cfg.nftables.supervisorChains, ∀ family table,
          (run Node.serverStep node events).ruleset.evaluate foreign packet
            (family, table, name) = none) →
        DecidesAs cfg.nftables (StartedBlind cfg events) node.ruleset
          (run Node.serverStep node events).ruleset foreign packet := by
  have hkept := serverRun_hostKept node events
  refine ⟨?_, ?_, ?_⟩
  · rw [hkept.rules, List.filter_eq_self]
    intro rule hrule
    rw [ruleOwned_of_no_chain huntouched hrule]
    rfl
  · obtain ⟨bases, hbases, hplaces⟩ := hkept.chains
    have hall : (node.ruleset.chains.filter fun chain =>
        !chainOwned cfg.nftables.owns chain) = node.ruleset.chains := by
      rw [List.filter_eq_self]
      intro chain hchain
      simp [chainOwned, huntouched chain hchain]
    rw [hall] at hplaces
    exact ⟨bases, hbases, hplaces⟩
  · intro foreign packet hsilent
    exact hkept.decidesAs huntouched fun key hkey =>
      hkept.evaluate_of_silent huntouched hsilent hkey

/-- After a teardown whose calls go through, every chain of the host decides
about every packet as it did before the server was started for the first
time, except for the policies that a start has made accept. -/
theorem teardown_restores_decisions
    (cfg : NodeConfig)
    (node : Node cfg)
    (events : List ServerEvent)
    (natCalls filterCalls preroutingCalls : NftCalls)
    (huntouched : cfg.nftables.Untouched node.ruleset)
    (hnat : natCalls.Succeed)
    (hfilter : filterCalls.Succeed)
    (hprerouting : preroutingCalls.Succeed) :
    ∃ after, cfg.nftables.teardown natCalls filterCalls preroutingCalls
        (run Node.serverStep node events).ruleset = (.ok (), after) ∧
      (∀ chain ∈ after.chains,
        chain.name ∉ cfg.nftables.supervisorChains) ∧
      ∀ (foreign : ForeignRules) (packet : Packet),
        DecidesAs cfg.nftables (StartedBlind cfg events) node.ruleset after
          foreign packet := by
  have hkept := serverRun_hostKept node events
  obtain ⟨after, hok, hremoved⟩ := cfg.nftables.teardown_removed hnat
    hfilter hprerouting (run Node.serverStep node events).ruleset
  refine ⟨after, hok, ?_, ?_⟩
  · intro chain hchain
    rw [hremoved.chains] at hchain
    simpa [chainOwned] using (List.mem_filter.mp hchain).2
  · intro foreign packet
    have hend := hkept.trans
      (NftablesManager.hostKept_of_removed hremoved)
    exact hend.decidesAs huntouched fun key hkey =>
      hkept.evaluate_of_removed huntouched hremoved foreign packet hkey

/-! ## A host that filters -/

/-- The host forwards nothing but what it has let through before. -/
def filteringRuleset : Ruleset where
  tables := [(.ip, "filter")]
  chains := [⟨.ip, "filter", "FORWARD",
    some ⟨"filter", "forward", 0, "drop"⟩⟩]
  rules := [⟨.ip, "filter", "FORWARD", 1, conntrackExpr⟩]
  nextHandle := 2
  chain_table := by decide
  chains_nodup := by decide
  rule_chain := by decide
  jump_chain := by decide
  handles_nodup := by decide
  handle_lt := by decide

def filteringNode : Node smallHost :=
  .fresh smallHost ∅ filteringRuleset ∅ ∅

def smallEvents : List ServerEvent :=
  [.start smallStart,
    .createVm createSucceeds (smallConfig "vm-a" .none) none none,
    .addPortForward forwardCallsSucceed "vm-a" 8080 80 .tcp]

theorem filteringNode_untouched :
    smallHost.nftables.Untouched filteringNode.ruleset := by
  unfold NftablesManager.Untouched
  decide +kernel

theorem smallEvents_not_blind (family : Family) :
    ¬StartedBlind smallHost smallEvents family := by
  rintro ⟨calls, hstart, hblind⟩
  simp only [smallEvents, List.mem_cons, ServerEvent.start.injEq,
    reduceCtorEq, List.not_mem_nil, or_false] at hstart
  subst hstart
  cases family with
  | ip =>
      have hlist : smallStart.nft.list .ip = .unusable := hblind
      exact absurd hlist (by decide)
  | ip6 => exact absurd hblind.2 (by decide)

/-- The key of the host's only chain. -/
def filteringKey : ChainKey := (.ip, "filter", "FORWARD")

theorem small_host_firewall_kept :
    ((run Node.serverStep filteringNode smallEvents).ruleset.rules.filter
        fun rule => !ruleOwned smallHost.nftables.owns rule) =
        filteringRuleset.rules ∧
      ∀ (foreign : ForeignRules) (packet : Packet),
        (∀ name ∈ smallHost.nftables.supervisorChains, ∀ family table,
          (run Node.serverStep filteringNode smallEvents).ruleset.evaluate
            foreign packet (family, table, name) = none) →
        (run Node.serverStep filteringNode smallEvents).ruleset.decision
            foreign packet filteringKey =
          filteringRuleset.decision foreign packet filteringKey := by
  obtain ⟨hrules, -, hdecides⟩ := host_firewall_kept smallHost
    filteringNode smallEvents filteringNode_untouched
  refine ⟨hrules, fun foreign packet hsilent => ?_⟩
  rcases (hdecides foreign packet hsilent).kept _ List.mem_cons_self with
    hsame | ⟨hblind, -⟩
  · exact hsame
  · exact absurd hblind (smallEvents_not_blind _)

theorem teardown_restores_small_host :
    ∃ after, smallHost.nftables.teardown allListedNft allListedNft
        allListedNft
        (run Node.serverStep filteringNode smallEvents).ruleset =
          (.ok (), after) ∧
      (∀ chain ∈ after.chains,
        chain.name ∉ smallHost.nftables.supervisorChains) ∧
      ∀ (foreign : ForeignRules) (packet : Packet),
        after.decision foreign packet filteringKey =
          filteringRuleset.decision foreign packet filteringKey := by
  have hcalls : allListedNft.Succeed := ⟨fun _ => rfl, rfl⟩
  obtain ⟨after, hok, hgone, hdecides⟩ := teardown_restores_decisions
    smallHost filteringNode smallEvents allListedNft allListedNft
    allListedNft filteringNode_untouched hcalls hcalls hcalls
  refine ⟨after, hok, hgone, fun foreign packet => ?_⟩
  rcases (hdecides foreign packet).kept _ List.mem_cons_self with
    hsame | ⟨hblind, -⟩
  · exact hsame
  · exact absurd hblind (smallEvents_not_blind _)

/-- A start that sees no chain makes the policy of the host's accept. -/
example : Ruleset.policyOf (run Node.serverStep filteringNode
    [.start { smallStart with
      nft := { smallStart.nft with list := fun _ => .unusable } }]).ruleset
        filteringKey = some "accept" := by
  decide +kernel

end AlephCvm.Vm
