import AlephCvm.NftablesTeardown

/-!
# What a successful setup leaves in the kernel

The setup of a machine leaves out every chain and every rule that the listing
already shows.  Its batch only adds, so as long as the listing is still true
of the ruleset, the chains of the machine, the jumps to them and their rules
are all there afterwards.
-/

namespace AlephCvm.Nft

open ResultContext

/-! ## Batches that add -/

/-- Chains and rules were only appended. -/
structure Ruleset.Grows (before after : Ruleset) : Prop where
  chains : before.chains <+: after.chains
  rules : before.rules <+: after.rules

theorem Ruleset.Grows.refl (ruleset : Ruleset) : ruleset.Grows ruleset :=
  ⟨List.prefix_rfl, List.prefix_rfl⟩

theorem Ruleset.Grows.trans {first second third : Ruleset}
    (hfirst : first.Grows second) (hsecond : second.Grows third) :
    first.Grows third where
  chains := hfirst.chains.trans hsecond.chains
  rules := hfirst.rules.trans hsecond.rules

/-- Tables, regular chains and rules are added without a change to what is
there. -/
def NftCommand.adds : NftCommand → Bool
  | .addTable _ _ => true
  | .addChain chain => chain.base.isNone
  | .addRule _ _ => true
  | .deleteRule _ _ => false
  | .deleteChain _ => false

def Ruleset.HasChain (ruleset : Ruleset) (key : ChainKey) : Prop :=
  key ∈ ruleset.chains.map Chain.key

def Ruleset.HasRule (ruleset : Ruleset) (key : ChainKey)
    (present : Rule → Bool) : Prop :=
  ∃ rule ∈ ruleset.rules, rule.chainKey = key ∧ present rule = true

theorem Ruleset.HasChain.grows
    {before after : Ruleset} {key : ChainKey} (hgrows : before.Grows after)
    (hchain : before.HasChain key) : after.HasChain key := by
  obtain ⟨chain, hmem, hkey⟩ := List.mem_map.mp hchain
  exact List.mem_map.mpr ⟨chain, hgrows.chains.subset hmem, hkey⟩

theorem Ruleset.HasRule.grows
    {before after : Ruleset} {key : ChainKey} {present : Rule → Bool}
    (hgrows : before.Grows after) (hrule : before.HasRule key present) :
    after.HasRule key present := by
  obtain ⟨rule, hmem, hkey, hpresent⟩ := hrule
  exact ⟨rule, hgrows.rules.subset hmem, hkey, hpresent⟩

theorem Ruleset.apply_grows
    {ruleset next : Ruleset} {command : NftCommand}
    (hadds : command.adds = true)
    (hok : ruleset.apply command = some next) : ruleset.Grows next := by
  cases Ruleset.applied_of_apply hok with
  | tableKnown family name => exact .refl ruleset
  | tableAdded family name => exact ⟨List.prefix_rfl, List.prefix_rfl⟩
  | chainKnown chain hknown hregular => exact .refl ruleset
  | chainUpdated chain hbase hhooked =>
      exact absurd (Option.isNone_iff_eq_none.mp hadds) hbase
  | chainAdded chain htable hfresh =>
      exact ⟨List.prefix_append _ _, List.prefix_rfl⟩
  | ruleAdded key expr hchain hjumps =>
      exact ⟨List.prefix_rfl, List.prefix_append _ _⟩
  | ruleDeleted key handle => cases hadds
  | chainDropped key hfree => cases hadds

theorem Ruleset.applyBatch_grows
    {ruleset next : Ruleset} {commands : List NftCommand}
    (hadds : ∀ command ∈ commands, command.adds = true)
    (hok : ruleset.applyBatch commands = some next) :
    ruleset.Grows next :=
  Ruleset.applyBatch_relates .refl
    (fun _ _ _ hfirst hsecond => hfirst.trans hsecond)
    (fun command hmem _ _ happly =>
      Ruleset.apply_grows (hadds command hmem) happly) hok

/-! ## The rules of a batch -/

/-- A rule up to its handle. -/
abbrev RuleContent := ChainKey × List RuleExpr

def Rule.content (rule : Rule) : RuleContent := (rule.chainKey, rule.expr)

def NftCommand.addedRule : NftCommand → Option RuleContent
  | .addRule key expr => some (key, expr)
  | _ => none

/-- The rules that the batch adds, in order. -/
def addedRules (commands : List NftCommand) : List RuleContent :=
  commands.filterMap NftCommand.addedRule

theorem mem_addedRules {commands : List NftCommand} {key : ChainKey}
    {expr : List RuleExpr} :
    (key, expr) ∈ addedRules commands ↔ .addRule key expr ∈ commands := by
  unfold addedRules
  rw [List.mem_filterMap]
  constructor
  · rintro ⟨command, hmem, hadded⟩
    cases command with
    | addRule found other =>
        cases hadded
        exact hmem
    | addTable family name => cases hadded
    | addChain chain => cases hadded
    | deleteRule found handle => cases hadded
    | deleteChain found => cases hadded
  · intro hmem
    exact ⟨_, hmem, rfl⟩

theorem Ruleset.apply_addedRule
    {ruleset next : Ruleset} {command : NftCommand}
    (hadds : command.adds = true)
    (hok : ruleset.apply command = some next) :
    ∃ added, next.rules = ruleset.rules ++ added ∧
      added.map Rule.content = command.addedRule.toList := by
  cases Ruleset.applied_of_apply hok with
  | tableKnown family name => exact ⟨[], (List.append_nil _).symm, rfl⟩
  | tableAdded family name => exact ⟨[], (List.append_nil _).symm, rfl⟩
  | chainKnown chain hknown hregular =>
      exact ⟨[], (List.append_nil _).symm, rfl⟩
  | chainUpdated chain hbase hhooked =>
      exact ⟨[], (List.append_nil _).symm, rfl⟩
  | chainAdded chain htable hfresh =>
      exact ⟨[], (List.append_nil _).symm, rfl⟩
  | ruleAdded key expr hchain hjumps =>
      exact ⟨[ruleset.newRule key expr], rfl, rfl⟩
  | ruleDeleted key handle => cases hadds
  | chainDropped key hfree => cases hadds

theorem Ruleset.applyBatch_addedRules
    {ruleset next : Ruleset} {commands : List NftCommand}
    (hadds : ∀ command ∈ commands, command.adds = true)
    (hok : ruleset.applyBatch commands = some next) :
    ∃ added, next.rules = ruleset.rules ++ added ∧
      added.map Rule.content = addedRules commands := by
  induction commands generalizing ruleset with
  | nil =>
      rw [Ruleset.applyBatch_nil, Option.some.injEq] at hok
      rw [hok]
      exact ⟨[], (List.append_nil _).symm, rfl⟩
  | cons command rest ih =>
      rw [Ruleset.applyBatch_cons, Option.bind_eq_some_iff] at hok
      obtain ⟨middle, hcommand, hrest⟩ := hok
      obtain ⟨first, hfirst, hfirstContent⟩ := Ruleset.apply_addedRule
        (hadds command List.mem_cons_self) hcommand
      obtain ⟨others, hothers, hothersContent⟩ := ih (fun later hlater =>
        hadds later (List.mem_cons_of_mem _ hlater)) hrest
      refine ⟨first ++ others, ?_, ?_⟩
      · rw [hothers, hfirst, List.append_assoc]
      · rw [List.map_append, hfirstContent, hothersContent]
        unfold addedRules
        cases hadded : command.addedRule <;> simp [hadded]

/-- A rule without jumps can be added to every chain that exists. -/
theorem Ruleset.apply_addRule_of_hasChain
    {ruleset : Ruleset} {key : ChainKey} (hchain : ruleset.HasChain key)
    (expr : List RuleExpr) (hjumps : jumpTargets expr = []) :
    ∃ next, ruleset.apply (.addRule key expr) = some next ∧
      next.tables = ruleset.tables ∧ next.chains = ruleset.chains ∧
      next.rules = ruleset.rules ++ [ruleset.newRule key expr] ∧
      next.nextHandle = ruleset.nextHandle + 1 := by
  have hknown : key ∈ ruleset.chains.map Chain.key := hchain
  have htargets : ∀ target ∈ jumpTargets expr,
      (key.1, key.2.1, target) ∈ ruleset.chains.map Chain.key := by
    rw [hjumps]
    intro target hmem
    cases hmem
  refine ⟨ruleset.addRule key expr hknown htargets, ?_, rfl, rfl, rfl, rfl⟩
  rw [Ruleset.apply, dif_pos hknown, dif_pos htargets]

/-- A command of the batch was applied to some ruleset on the way. -/
theorem Ruleset.applyBatch_of_mem
    {ruleset next : Ruleset} {commands : List NftCommand}
    {command : NftCommand} (hmem : command ∈ commands)
    (hadds : ∀ command ∈ commands, command.adds = true)
    (hok : ruleset.applyBatch commands = some next) :
    ∃ before after : Ruleset, before.apply command = some after ∧
      after.Grows next := by
  obtain ⟨front, back, hsplit⟩ := List.append_of_mem hmem
  rw [hsplit, Ruleset.applyBatch_append, Option.bind_eq_some_iff] at hok
  obtain ⟨before, _, hback⟩ := hok
  rw [Ruleset.applyBatch_cons, Option.bind_eq_some_iff] at hback
  obtain ⟨after, hcommand, hrest⟩ := hback
  refine ⟨before, after, hcommand, Ruleset.applyBatch_grows ?_ hrest⟩
  intro later hlater
  apply hadds
  rw [hsplit]
  exact List.mem_append_right _ (List.mem_cons_of_mem _ hlater)

/-! ## Listings that are still true -/

structure Listing.TrueOf (listing : Listing) (ruleset : Ruleset) : Prop where
  chains : ∀ chain ∈ listing.chains, chain ∈ ruleset.chains
  rules : ∀ rule ∈ listing.rules, rule ∈ ruleset.rules

theorem listFamily_trueOf
    {ruleset : Ruleset} {family : Family} {outcome : ListOutcome}
    {listing : Listing}
    (hlisted : listFamily ruleset family outcome = .ok listing) :
    listing.TrueOf ruleset := by
  cases outcome with
  | listed =>
      cases hlisted
      exact ⟨fun _ h => List.mem_of_mem_filter h,
        fun _ h => List.mem_of_mem_filter h⟩
  | unusable =>
      cases hlisted
      exact ⟨fun _ h => absurd h List.not_mem_nil,
        fun _ h => absurd h List.not_mem_nil⟩
  | notExecuted message => cases hlisted

theorem executeListRuleset_trueOf
    {list : Family → ListOutcome} {ruleset : Ruleset} {listing : Listing}
    (hlisted : executeListRuleset list ruleset = .ok listing) :
    listing.TrueOf ruleset := by
  unfold executeListRuleset at hlisted
  cases hip : listFamily ruleset .ip (list .ip) with
  | error message =>
      rw [hip] at hlisted
      cases hlisted
  | ok ip =>
      cases hip6 : listFamily ruleset .ip6 (list .ip6) with
      | error message =>
          rw [hip, hip6] at hlisted
          cases hlisted
      | ok ip6 =>
          rw [hip, hip6] at hlisted
          cases hlisted
          have hfirst := listFamily_trueOf hip
          have hsecond := listFamily_trueOf hip6
          constructor
          · intro chain hchain
            rcases List.mem_append.mp hchain with hmem | hmem
            · exact hfirst.chains chain hmem
            · exact hsecond.chains chain hmem
          · intro rule hrule
            rcases List.mem_append.mp hrule with hmem | hmem
            · exact hfirst.rules rule hmem
            · exact hsecond.rules rule hmem

section Batch

variable {listing : Listing} {ruleset next : Ruleset}
  {commands : List NftCommand}

theorem hasChain_of_addChain {key : ChainKey}
    (hmem : .addChain ⟨key.1, key.2.1, key.2.2, none⟩ ∈ commands)
    (hadds : ∀ command ∈ commands, command.adds = true)
    (hok : ruleset.applyBatch commands = some next) :
    next.HasChain key := by
  obtain ⟨before, after, happly, hgrows⟩ :=
    Ruleset.applyBatch_of_mem hmem hadds hok
  apply Ruleset.HasChain.grows hgrows
  simp only [Ruleset.apply, if_true] at happly
  split_ifs at happly with hknown htable
  · cases happly
    exact hknown
  · cases happly
    simp [Ruleset.HasChain, Ruleset.addChain, Chain.key]

theorem hasChain_of_addChainIfNotPresent
    (htrue : listing.TrueOf ruleset) {key : ChainKey}
    (hsubset : addChainIfNotPresent listing key ⊆ commands)
    (hadds : ∀ command ∈ commands, command.adds = true)
    (hok : ruleset.applyBatch commands = some next) :
    next.HasChain key := by
  unfold addChainIfNotPresent at hsubset
  by_cases hexists : chainExists listing key = true
  · have hgrows := Ruleset.applyBatch_grows hadds hok
    obtain ⟨chain, hchain, hkey⟩ := List.any_eq_true.mp hexists
    apply Ruleset.HasChain.grows hgrows
    exact List.mem_map.mpr
      ⟨chain, htrue.chains chain hchain, eq_of_beq hkey⟩
  · rw [if_neg hexists] at hsubset
    exact hasChain_of_addChain (hsubset List.mem_cons_self) hadds hok

theorem hasRule_of_addRuleIfNotPresent
    (hrules : ∀ rule ∈ listing.rules, rule ∈ ruleset.rules)
    {key : ChainKey}
    {present : Rule → Bool} {expr : List RuleExpr}
    (hpresent : ∀ rule : Rule, rule.expr = expr → present rule = true)
    (hsubset : addRuleIfNotPresent listing key present expr ⊆ commands)
    (hadds : ∀ command ∈ commands, command.adds = true)
    (hok : ruleset.applyBatch commands = some next) :
    next.HasRule key present := by
  unfold addRuleIfNotPresent at hsubset
  split at hsubset
  · rename_i hlisted
    have hgrows := Ruleset.applyBatch_grows hadds hok
    obtain ⟨rule, hrule, hboth⟩ := List.any_eq_true.mp hlisted
    rw [Bool.and_eq_true, beq_iff_eq] at hboth
    apply Ruleset.HasRule.grows hgrows
    exact ⟨rule, hrules rule hrule, hboth.1, hboth.2⟩
  · have hmem := hsubset List.mem_cons_self
    obtain ⟨before, after, happly, hgrows⟩ :=
      Ruleset.applyBatch_of_mem hmem hadds hok
    apply Ruleset.HasRule.grows hgrows
    simp only [Ruleset.apply] at happly
    split_ifs at happly with hchain hjumps
    cases happly
    refine ⟨before.newRule key expr, ?_, rfl, hpresent _ rfl⟩
    exact List.mem_append_right _ List.mem_cons_self

end Batch

/-! ## The chains of a machine -/

/-- The filter chain, the jump to it and its accept rule, in one family. -/
structure FilterSetUp (manager : NftablesManager) (ruleset : Ruleset)
    (family : Family) (table vmId tap : String) : Prop where
  chain : ruleset.HasChain (family, table, manager.vmFilterChain vmId)
  jump : ruleset.HasRule (family, table, manager.supervisorFilterChain)
    fun rule => ruleJumpsTo rule (manager.vmFilterChain vmId)
  accept : ruleset.HasRule (family, table, manager.vmFilterChain vmId)
    fun rule => hasIifnameOifnameAccept rule tap manager.externalInterface

structure NatSetUp (manager : NftablesManager) (ruleset : Ruleset)
    (table vmId : String) : Prop where
  chain : ruleset.HasChain (.ip, table, manager.vmNatChain vmId)
  jump : ruleset.HasRule (.ip, table, manager.supervisorNatChain)
    fun rule => ruleJumpsTo rule (manager.vmNatChain vmId)
  masquerade : ruleset.HasRule (.ip, table, manager.vmNatChain vmId)
    hasMasquerade

/-- The chains of the machine are in the tables that the listing shows for
the chains of the supervisor. -/
structure ChainsSetUp (manager : NftablesManager) (listing : Listing)
    (ruleset : Ruleset) (vmId tap : String) : Prop where
  nat : ∃ table,
    getTableForChain listing .ip manager.supervisorNatChain = some table ∧
      NatSetUp manager ruleset table vmId
  filter : ∃ table,
    getTableForChain listing .ip manager.supervisorFilterChain =
      some table ∧ FilterSetUp manager ruleset .ip table vmId tap
  filter6 : manager.ipv6Enabled = true → ∀ table,
    getTableForChain listing .ip6 manager.supervisorFilterChain =
      some table → FilterSetUp manager ruleset .ip6 table vmId tap

theorem adds_addChainIfNotPresent (listing : Listing) (key : ChainKey) :
    ∀ command ∈ addChainIfNotPresent listing key,
      command.adds = true := by
  intro command hmem
  unfold addChainIfNotPresent at hmem
  split at hmem
  · cases hmem
  · rw [List.mem_singleton.mp hmem]
    rfl

theorem adds_addRuleIfNotPresent
    (listing : Listing) (key : ChainKey) (present : Rule → Bool)
    (expr : List RuleExpr) :
    ∀ command ∈ addRuleIfNotPresent listing key present expr,
      command.adds = true := by
  intro command hmem
  unfold addRuleIfNotPresent at hmem
  split at hmem
  · cases hmem
  · rw [List.mem_singleton.mp hmem]
    rfl

namespace NftablesManager

variable (manager : NftablesManager) (listing : Listing)
  (vmId tap : String)

theorem adds_filterCommands (family : Family) (table : String) :
    ∀ command ∈ manager.filterCommands listing family table vmId tap,
      command.adds = true := by
  intro command hmem
  simp only [filterCommands, List.mem_append] at hmem
  rcases hmem with (hchain | hjump) | haccept
  · exact adds_addChainIfNotPresent _ _ command hchain
  · exact adds_addRuleIfNotPresent _ _ _ _ command hjump
  · exact adds_addRuleIfNotPresent _ _ _ _ command haccept

theorem adds_natCommands (table : String) :
    ∀ command ∈ manager.natCommands listing table vmId tap,
      command.adds = true := by
  intro command hmem
  simp only [natCommands, List.mem_append] at hmem
  rcases hmem with (hchain | hjump) | hmasquerade
  · exact adds_addChainIfNotPresent _ _ command hchain
  · exact adds_addRuleIfNotPresent _ _ _ _ command hjump
  · exact adds_addRuleIfNotPresent _ _ _ _ command hmasquerade

theorem adds_ip6Commands :
    ∀ command ∈ manager.ip6Commands listing vmId tap,
      command.adds = true := by
  intro command hmem
  unfold ip6Commands at hmem
  split at hmem
  · split at hmem
    · exact adds_filterCommands manager listing vmId tap _ _ command hmem
    · cases hmem
  · cases hmem

variable {manager listing vmId tap} {ruleset next : Ruleset}
  {commands : List NftCommand}

theorem filterCommands_setUp
    {family : Family} {table : String} (htrue : listing.TrueOf ruleset)
    (hsubset : manager.filterCommands listing family table vmId tap ⊆
      commands)
    (hadds : ∀ command ∈ commands, command.adds = true)
    (hok : ruleset.applyBatch commands = some next) :
    FilterSetUp manager next family table vmId tap := by
  simp only [filterCommands, List.append_subset] at hsubset
  obtain ⟨⟨hchain, hjump⟩, haccept⟩ := hsubset
  constructor
  · exact hasChain_of_addChainIfNotPresent htrue hchain hadds hok
  · apply hasRule_of_addRuleIfNotPresent htrue.rules _ hjump hadds hok
    intro rule hexpr
    simp [ruleJumpsTo, hexpr, exprJumpsTo]
  · apply hasRule_of_addRuleIfNotPresent htrue.rules _ haccept hadds hok
    intro rule hexpr
    simp [hasIifnameOifnameAccept, hexpr, matchesMeta, isAccept]

theorem natCommands_setUp
    {table : String} (htrue : listing.TrueOf ruleset)
    (hsubset : manager.natCommands listing table vmId tap ⊆ commands)
    (hadds : ∀ command ∈ commands, command.adds = true)
    (hok : ruleset.applyBatch commands = some next) :
    NatSetUp manager next table vmId := by
  simp only [natCommands, List.append_subset] at hsubset
  obtain ⟨⟨hchain, hjump⟩, hmasquerade⟩ := hsubset
  constructor
  · exact hasChain_of_addChainIfNotPresent htrue hchain hadds hok
  · apply hasRule_of_addRuleIfNotPresent htrue.rules _ hjump hadds hok
    intro rule hexpr
    simp [ruleJumpsTo, hexpr, exprJumpsTo]
  · apply hasRule_of_addRuleIfNotPresent htrue.rules _ hmasquerade hadds hok
    intro rule hexpr
    simp [hasMasquerade, hexpr, isMasquerade]

theorem adds_setupCommands
    (hcommands : manager.setupCommands listing vmId tap = .ok commands) :
    ∀ command ∈ commands, command.adds = true := by
  unfold setupCommands at hcommands
  obtain ⟨natTable, _, hrest⟩ := bind_eq_ok.mp hcommands
  obtain ⟨filterTable, _, hlist⟩ := bind_eq_ok.mp hrest
  cases hlist
  intro command hmem
  simp only [List.mem_append] at hmem
  rcases hmem with (hmem | hmem) | hmem
  · exact adds_natCommands manager listing _ _ _ command hmem
  · exact adds_filterCommands manager listing _ _ _ _ command hmem
  · exact adds_ip6Commands manager listing _ _ command hmem

/-- The four kinds of rules that the setup of a machine adds, each in the
table that the listing shows for the chain of the supervisor. -/
inductive SetupRule (manager : NftablesManager) (listing : Listing)
    (vmId tap : String) : RuleContent → Prop
  | natJump (table : String)
      (htable : getTableForChain listing .ip manager.supervisorNatChain =
        some table) :
      SetupRule manager listing vmId tap
        ((.ip, table, manager.supervisorNatChain),
          [.jump (manager.vmNatChain vmId)])
  | masquerade (table : String)
      (htable : getTableForChain listing .ip manager.supervisorNatChain =
        some table) :
      SetupRule manager listing vmId tap
        ((.ip, table, manager.vmNatChain vmId),
          [.matching "==" (.metaKey "iifname") (.text tap),
            .matching "==" (.metaKey "oifname")
              (.text manager.externalInterface), .masquerade])
  | filterJump (family : Family) (table : String)
      (htable : getTableForChain listing family
        manager.supervisorFilterChain = some table) :
      SetupRule manager listing vmId tap
        ((family, table, manager.supervisorFilterChain),
          [.jump (manager.vmFilterChain vmId)])
  | forwardAccept (family : Family) (table : String)
      (htable : getTableForChain listing family
        manager.supervisorFilterChain = some table) :
      SetupRule manager listing vmId tap
        ((family, table, manager.vmFilterChain vmId),
          [.matching "==" (.metaKey "iifname") (.text tap),
            .matching "==" (.metaKey "oifname")
              (.text manager.externalInterface), .accept])

theorem not_mem_addChainIfNotPresent {key found : ChainKey}
    {expr : List RuleExpr} :
    .addRule found expr ∉ addChainIfNotPresent listing key := by
  intro hmem
  unfold addChainIfNotPresent at hmem
  split at hmem
  · cases hmem
  · cases List.mem_singleton.mp hmem

theorem eq_of_mem_addRuleIfNotPresent {key found : ChainKey}
    {present : Rule → Bool} {expr added : List RuleExpr}
    (hmem : .addRule found added ∈
      addRuleIfNotPresent listing key present expr) :
    found = key ∧ added = expr := by
  unfold addRuleIfNotPresent at hmem
  split at hmem
  · cases hmem
  · cases List.mem_singleton.mp hmem
    exact ⟨rfl, rfl⟩

theorem setupRule_of_filterCommands {family : Family} {table : String}
    {key : ChainKey} {expr : List RuleExpr}
    (htable : getTableForChain listing family
      manager.supervisorFilterChain = some table)
    (hmem : .addRule key expr ∈
      manager.filterCommands listing family table vmId tap) :
    SetupRule manager listing vmId tap (key, expr) := by
  simp only [filterCommands, List.mem_append] at hmem
  rcases hmem with (hchain | hjump) | haccept
  · exact absurd hchain not_mem_addChainIfNotPresent
  · obtain ⟨rfl, rfl⟩ := eq_of_mem_addRuleIfNotPresent hjump
    exact .filterJump family table htable
  · obtain ⟨rfl, rfl⟩ := eq_of_mem_addRuleIfNotPresent haccept
    exact .forwardAccept family table htable

theorem setupRule_of_setupCommands {key : ChainKey}
    {expr : List RuleExpr}
    (hcommands : manager.setupCommands listing vmId tap = .ok commands)
    (hmem : .addRule key expr ∈ commands) :
    SetupRule manager listing vmId tap (key, expr) := by
  unfold setupCommands at hcommands
  obtain ⟨natTable, hnat, hrest⟩ := bind_eq_ok.mp hcommands
  obtain ⟨filterTable, hfilter, hlist⟩ := bind_eq_ok.mp hrest
  rw [optionContext_eq_ok] at hnat hfilter
  cases hlist
  simp only [List.mem_append] at hmem
  rcases hmem with (hmem | hmem) | hmem
  · simp only [natCommands, List.mem_append] at hmem
    rcases hmem with (hchain | hjump) | hmasquerade
    · exact absurd hchain not_mem_addChainIfNotPresent
    · obtain ⟨rfl, rfl⟩ := eq_of_mem_addRuleIfNotPresent hjump
      exact .natJump natTable hnat
    · obtain ⟨rfl, rfl⟩ := eq_of_mem_addRuleIfNotPresent hmasquerade
      exact .masquerade natTable hnat
  · exact setupRule_of_filterCommands hfilter hmem
  · unfold ip6Commands at hmem
    split at hmem
    · split at hmem
      · rename_i table htable
        exact setupRule_of_filterCommands htable hmem
      · cases hmem
    · cases hmem

/-- The chains that a setup adds rules to. -/
theorem SetupRule.chain {content : RuleContent}
    (hsetup : SetupRule manager listing vmId tap content) :
    content.1.2.2 = manager.supervisorNatChain ∨
      content.1.2.2 = manager.supervisorFilterChain ∨
      content.1.2.2 = manager.vmNatChain vmId ∨
      content.1.2.2 = manager.vmFilterChain vmId := by
  cases hsetup with
  | natJump table htable => exact .inl rfl
  | masquerade table htable => exact .inr (.inr (.inl rfl))
  | filterJump family table htable => exact .inr (.inl rfl)
  | forwardAccept family table htable => exact .inr (.inr (.inr rfl))

/-- The rules after a setup: the old ones, then new ones of these kinds. -/
theorem setupVm_rules {calls : NftCalls}
    (hok : manager.setupVm calls ruleset vmId tap = .ok next) :
    ∃ listing, executeListRuleset calls.list ruleset = .ok listing ∧
      ruleset.Grows next ∧
      ∃ added, next.rules = ruleset.rules ++ added ∧
        ∀ rule ∈ added, SetupRule manager listing vmId tap rule.content := by
  unfold setupVm at hok
  obtain ⟨listing, hlisting, hrest⟩ := bind_eq_ok.mp hok
  obtain ⟨commands, hcommands, hrun⟩ := bind_eq_ok.mp hrest
  have hadds := adds_setupCommands hcommands
  have hbatch := executeNftCommands_eq_ok hrun
  obtain ⟨added, hrules, hcontent⟩ :=
    Ruleset.applyBatch_addedRules hadds hbatch
  refine ⟨listing, hlisting, Ruleset.applyBatch_grows hadds hbatch, added,
    hrules, ?_⟩
  intro rule hmem
  have hadded : rule.content ∈ addedRules commands := by
    rw [← hcontent]
    exact List.mem_map_of_mem hmem
  exact setupRule_of_setupCommands hcommands (mem_addedRules.mp hadded)

/-- The batch of a setup, run while the listing is still true. -/
theorem setupCommands_setUp
    (htrue : listing.TrueOf ruleset)
    (hcommands : manager.setupCommands listing vmId tap = .ok commands)
    (hok : ruleset.applyBatch commands = some next) :
    ChainsSetUp manager listing next vmId tap := by
  have hadds := adds_setupCommands hcommands
  unfold setupCommands at hcommands
  obtain ⟨natTable, hnat, hrest⟩ := bind_eq_ok.mp hcommands
  obtain ⟨filterTable, hfilter, hlist⟩ := bind_eq_ok.mp hrest
  rw [optionContext_eq_ok] at hnat hfilter
  have hsubset : manager.natCommands listing natTable vmId tap ++
      manager.filterCommands listing .ip filterTable vmId tap ++
      manager.ip6Commands listing vmId tap ⊆ commands := by
    cases hlist
    exact fun _ h => h
  simp only [List.append_subset] at hsubset
  obtain ⟨⟨hnatPart, hfilterPart⟩, hip6Part⟩ := hsubset
  refine ⟨⟨natTable, hnat, ?_⟩, ⟨filterTable, hfilter, ?_⟩, ?_⟩
  · exact natCommands_setUp htrue hnatPart hadds hok
  · exact filterCommands_setUp htrue hfilterPart hadds hok
  · intro henabled table htable
    apply filterCommands_setUp htrue _ hadds hok
    simpa only [ip6Commands, if_pos henabled, htable] using hip6Part

end NftablesManager

end AlephCvm.Nft
