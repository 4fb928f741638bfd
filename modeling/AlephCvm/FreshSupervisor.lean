import AlephCvm.BaseChains
import AlephCvm.FirewallPackets

/-!
# The supervisor chains on a host of its own

On a host that has no chains of the supervisor's names yet, `initialize`
leaves both chains of the packet path there, with nothing in them but the
connection tracking rule, and no chains of machines.  This holds whatever the
host's own chains look like and however the listings went.
-/

namespace AlephCvm.Nft

open ResultContext

namespace NftablesManager

variable (manager : NftablesManager)

/-- The chains that packets for machines go through. -/
def OwnName (name : String) : Prop :=
  name = manager.supervisorFilterChain ∨
    name = manager.supervisorPreroutingChain ∨
    ∃ vmId, name = manager.vmFilterChain vmId

def Unused (host : Ruleset) : Prop :=
  ∀ chain ∈ host.chains, ¬manager.OwnName chain.name

/-- What `initialize` leaves on an unused host. -/
structure Clean (ruleset : Ruleset) : Prop where
  chains : ∀ chain ∈ ruleset.chains, ∀ vmId,
    chain.name ≠ manager.vmFilterChain vmId
  rules : ∀ rule ∈ ruleset.rules, manager.OwnName rule.chain →
    rule.chain = manager.supervisorFilterChain ∧ rule.expr = conntrackExpr
  filter : ∃ table, getTableForChain ruleset.listing .ip
    manager.supervisorFilterChain = some table
  prerouting : ∃ table, getTableForChain ruleset.listing .ip
    manager.supervisorPreroutingChain = some table

end NftablesManager

/-! ## The names of base chains -/

def baseNames : List String := ["POSTROUTING", "FORWARD", "PREROUTING"]

theorem not_ownName_of_baseNames (manager : NftablesManager)
    {name : String} (hname : name ∈ baseNames) :
    ¬manager.OwnName name := by
  intro hown
  have hhyphen : '-' ∈ name.toList := by
    rcases hown with rfl | rfl | ⟨vmId, rfl⟩
    · simp [NftablesManager.supervisorFilterChain, toString]
    · simp [NftablesManager.supervisorPreroutingChain, toString]
    · simp [NftablesManager.vmFilterChain, toString]
  have hnone : ∀ base ∈ baseNames, '-' ∉ base.toList := by decide
  exact hnone name hname hhyphen

theorem toUppercase_mem_baseNames {hook table chainType : String}
    {prio : Int} (hdefault : defaultBase hook = some (table, chainType, prio)) :
    toUppercase hook ∈ baseNames := by
  unfold defaultBase at hdefault
  split at hdefault
  · decide
  · decide
  · decide
  · cases hdefault

/-- Base chains were created, with the conventional names. -/
structure BasesAdded (before after : Ruleset) : Prop where
  rules : after.rules = before.rules
  names : ∀ chain ∈ after.chains, chain.name ∈ baseNames ∨
    ∃ old ∈ before.chains, old.name = chain.name

section Bases

variable {before middle after : Ruleset} {manager : NftablesManager}

theorem BasesAdded.refl : BasesAdded before before :=
  ⟨rfl, fun chain hmem => .inr ⟨chain, hmem, rfl⟩⟩

theorem BasesAdded.trans (hfirst : BasesAdded before middle)
    (hsecond : BasesAdded middle after) : BasesAdded before after where
  rules := hsecond.rules.trans hfirst.rules
  names := by
    intro chain hmem
    rcases hsecond.names chain hmem with hbase | ⟨old, hold, hname⟩
    · exact .inl hbase
    · rw [← hname]
      exact hfirst.names old hold

theorem BasesAdded.unused (hadded : BasesAdded before after)
    (hunused : manager.Unused before) : manager.Unused after := by
  intro chain hmem
  rcases hadded.names chain hmem with hbase | ⟨old, hold, hname⟩
  · exact not_ownName_of_baseNames manager hbase
  · rw [← hname]
    exact hunused old hold

theorem BaseCreated.basesAdded {chain : Chain}
    (hname : chain.name ∈ baseNames)
    (hcreated : BaseCreated chain before after) :
    BasesAdded before after where
  rules := hcreated.rules
  names := by
    intro found hmem
    rcases hcreated.chains with ⟨_, hchains⟩ | ⟨_, hchains⟩
    · rw [hchains] at hmem
      rcases List.mem_append.mp hmem with hold | hnew
      · exact .inr ⟨found, hold, rfl⟩
      · rw [List.mem_singleton.mp hnew]
        exact .inl hname
    · rw [hchains] at hmem
      obtain ⟨existing, hold, rfl⟩ := List.mem_map.mp hmem
      have hkey := chain.rebase_key existing
      simp only [Chain.key, Prod.mk.injEq] at hkey
      exact .inr ⟨existing, hold, hkey.2.2.symm⟩

theorem findOrCreateTableForHook_basesAdded {listing : Listing}
    {outcome : BatchOutcome} {hook table : String} {family : Family}
    (hok : findOrCreateTableForHook outcome listing hook family before =
      (.ok table, after)) :
    BasesAdded before after := by
  rcases findOrCreateTableForHook_eq_ok hok with
    ⟨_, rfl⟩ | ⟨_, chainType, prio, hdefault, hcreated⟩
  · exact .refl
  · exact hcreated.basesAdded (toUppercase_mem_baseNames hdefault)

end Bases

/-! ## The commands of the batch -/

section Commands

variable {manager : NftablesManager} {listing : Listing} {ruleset : Ruleset}
  {family : Family} {table : String}

/-- The jump goes into a chain of the host. -/
theorem not_ownName_findBaseChainName (htrue : listing.TrueOf ruleset)
    (hunused : manager.Unused ruleset) {hook : String}
    (hhook : toUppercase hook ∈ baseNames) :
    ¬manager.OwnName (findBaseChainName listing family table hook) := by
  unfold findBaseChainName
  cases hfound : listing.chains.find? fun chain =>
      chain.family == family && chain.table == table &&
        chain.hook == some hook with
  | some chain =>
      apply hunused
      exact htrue.chains chain (List.mem_of_find?_eq_some hfound)
  | none => exact not_ownName_of_baseNames manager hhook

theorem key_of_addChainIfNotPresent {key : ChainKey} {chain : Chain}
    (hmem : .addChain chain ∈ addChainIfNotPresent listing key) :
    chain.key = key := by
  unfold addChainIfNotPresent at hmem
  split at hmem
  · cases hmem
  · cases List.mem_singleton.mp hmem
    rfl

theorem not_addChain_of_addRuleIfNotPresent {key : ChainKey}
    {present : Rule → Bool} {expr : List RuleExpr} {chain : Chain} :
    .addChain chain ∉ addRuleIfNotPresent listing key present expr := by
  intro hmem
  unfold addRuleIfNotPresent at hmem
  split at hmem
  · cases hmem
  · cases List.mem_singleton.mp hmem

/-- A chain of the supervisor that no listing shows yet is added. -/
theorem addChain_mem_of_unused (htrue : listing.TrueOf ruleset)
    (hunused : manager.Unused ruleset) (family : Family) (table : String)
    {name : String} (hown : manager.OwnName name) :
    .addChain ⟨family, table, name, none⟩ ∈
      addChainIfNotPresent listing (family, table, name) := by
  unfold addChainIfNotPresent
  rw [if_neg]
  · exact List.mem_singleton_self _
  · intro hexists
    obtain ⟨chain, hmem, hkey⟩ := List.any_eq_true.mp hexists
    have hname : chain.name = name := Chain.name_of_key (eq_of_beq hkey)
    exact hunused chain (htrue.chains chain hmem) (hname ▸ hown)

/-- What the batch of `initialize` may contain. -/
def FreshCommand (manager : NftablesManager) : NftCommand → Prop
  | .addChain chain => ∀ vmId, chain.name ≠ manager.vmFilterChain vmId
  | .addRule key expr => manager.OwnName key.2.2 →
      key.2.2 = manager.supervisorFilterChain ∧ expr = conntrackExpr
  | _ => True

theorem fresh_of_supervisorCommands (htrue : listing.TrueOf ruleset)
    (hunused : manager.Unused ruleset) {hook chain : String}
    (hhook : toUppercase hook ∈ baseNames)
    (hchain : ∀ vmId, chain ≠ manager.vmFilterChain vmId) :
    ∀ command ∈ supervisorCommands listing family table hook chain,
      FreshCommand manager command := by
  intro command hmem
  cases command with
  | addChain found =>
      intro vmId
      rcases List.mem_append.mp hmem with hnew | hjump
      · have hname : found.name = chain :=
          Chain.name_of_key (key_of_addChainIfNotPresent hnew)
        rw [hname]
        exact hchain vmId
      · exact absurd hjump not_addChain_of_addRuleIfNotPresent
  | addRule key expr =>
      intro hown
      obtain ⟨rfl, _⟩ := addRule_of_supervisorCommands hmem
      exact absurd hown
        (not_ownName_findBaseChainName htrue hunused hhook)
  | addTable family name => trivial
  | deleteRule key handle => trivial
  | deleteChain key => trivial

theorem fresh_of_supervisorFilterCommands
    (htrue : listing.TrueOf ruleset) (hunused : manager.Unused ruleset) :
    ∀ command ∈ manager.supervisorFilterCommands listing family table,
      FreshCommand manager command := by
  intro command hmem
  rcases List.mem_append.mp hmem with hsupervisor | hconntrack
  · apply fresh_of_supervisorCommands htrue hunused (by decide) _ command
      hsupervisor
    intro vmId
    exact (manager.vmFilterChain_ne_supervisor vmId).2.1.symm
  · cases command with
    | addChain chain =>
        exact absurd hconntrack not_addChain_of_addRuleIfNotPresent
    | addRule key expr =>
        obtain ⟨rfl, rfl⟩ :=
          NftablesManager.eq_of_mem_addRuleIfNotPresent hconntrack
        exact fun _ => ⟨rfl, rfl⟩
    | addTable family name => trivial
    | deleteRule key handle => trivial
    | deleteChain key => trivial

end Commands

/-! ## Chains after a batch -/

section Batch

variable {ruleset next : Ruleset} {key : ChainKey}

/-- A chain was there before, or the command has added it. -/
theorem Ruleset.hasChain_of_apply {command : NftCommand}
    (hok : ruleset.apply command = some next) (hchain : next.HasChain key) :
    ruleset.HasChain key ∨ ∃ chain, chain.key = key ∧
      command = .addChain chain := by
  unfold Ruleset.HasChain at hchain ⊢
  cases Ruleset.applied_of_apply hok with
  | tableKnown family name => exact .inl hchain
  | tableAdded family name => exact .inl hchain
  | chainKnown chain hknown hregular => exact .inl hchain
  | chainUpdated chain hbase hhooked =>
      left
      rw [← chain.map_key_rebase]
      exact hchain
  | chainAdded chain htable hfresh =>
      simp only [Ruleset.addChain, List.map_append, List.mem_append,
        List.map_singleton, List.mem_singleton] at hchain
      rcases hchain with hold | hnew
      · exact .inl hold
      · exact .inr ⟨chain, hnew.symm, rfl⟩
  | ruleAdded found expr hknown hjumps => exact .inl hchain
  | ruleDeleted found handle => exact .inl hchain
  | chainDropped found hfree =>
      obtain ⟨chain, hmem, hkey⟩ := List.mem_map.mp hchain
      exact .inl (List.mem_map.mpr
        ⟨chain, List.mem_of_mem_filter hmem, hkey⟩)

theorem Ruleset.hasChain_of_applyBatch {commands : List NftCommand}
    (hok : ruleset.applyBatch commands = some next)
    (hchain : next.HasChain key) :
    ruleset.HasChain key ∨
      ∃ chain, chain.key = key ∧ .addChain chain ∈ commands := by
  induction commands generalizing ruleset with
  | nil =>
      cases hok
      exact .inl hchain
  | cons command rest ih =>
      rw [Ruleset.applyBatch_cons, Option.bind_eq_some_iff] at hok
      obtain ⟨middle, hcommand, hrest⟩ := hok
      rcases ih hrest with hmiddle | ⟨chain, hkey, hmem⟩
      · rcases Ruleset.hasChain_of_apply hcommand hmiddle with
          hold | ⟨chain, hkey, rfl⟩
        · exact .inl hold
        · exact .inr ⟨chain, hkey, List.mem_cons_self⟩
      · exact .inr ⟨chain, hkey, List.mem_cons_of_mem _ hmem⟩

/-- A batch of such commands leaves an unused host clean. -/
theorem clean_of_applyBatch {manager : NftablesManager}
    {commands : List NftCommand} (filterTable preroutingTable : String)
    (hunused : manager.Unused ruleset)
    (hfresh : ∀ command ∈ commands, FreshCommand manager command)
    (hadds : ∀ command ∈ commands, command.adds = true)
    (hfilter : .addChain ⟨.ip, filterTable, manager.supervisorFilterChain,
      none⟩ ∈ commands)
    (hprerouting : .addChain ⟨.ip, preroutingTable,
      manager.supervisorPreroutingChain, none⟩ ∈ commands)
    (hok : ruleset.applyBatch commands = some next) :
    manager.Clean next where
  chains := by
    intro chain hmem vmId hname
    have hchain : next.HasChain chain.key := List.mem_map_of_mem hmem
    rcases Ruleset.hasChain_of_applyBatch hok hchain with
      hold | ⟨found, hkey, hfound⟩
    · obtain ⟨old, hmemOld, hkey⟩ := List.mem_map.mp hold
      have hsame : old.name = chain.name := Chain.name_of_key hkey
      exact hunused old hmemOld (.inr (.inr ⟨vmId, hsame.trans hname⟩))
    · have hsame : found.name = chain.name := Chain.name_of_key hkey
      exact hfresh _ hfound vmId (hsame.trans hname)
  rules := by
    intro rule hmem hown
    rcases Ruleset.mem_rules_of_applyBatch hok hmem with hold | hadded
    · obtain ⟨chain, hchain, hkey⟩ :=
        List.mem_map.mp (ruleset.rule_chain rule hold)
      have hname : chain.name = rule.chain := Chain.name_of_key hkey
      exact absurd (hname ▸ hown) (hunused chain hchain)
    · exact hfresh _ hadded hown
  filter := by
    have hchain : next.HasChain
        (.ip, filterTable, manager.supervisorFilterChain) :=
      hasChain_of_addChain hfilter hadds hok
    exact exists_table_of_hasChain hchain
  prerouting := by
    have hchain : next.HasChain
        (.ip, preroutingTable, manager.supervisorPreroutingChain) :=
      hasChain_of_addChain hprerouting hadds hok
    exact exists_table_of_hasChain hchain

end Batch

/-! ## The whole operation -/

namespace NftablesManager

variable {manager : NftablesManager} {calls : InitializeCalls}
  {ruleset after : Ruleset}

theorem initializeChains6_fresh {commands : List NftCommand}
    (hunused : manager.Unused ruleset)
    (hok : manager.initializeChains6 calls ruleset =
      (.ok commands, after)) :
    manager.Unused after ∧ ∀ command ∈ commands,
      command.adds = true ∧ FreshCommand manager command := by
  unfold initializeChains6 at hok
  by_cases henabled : manager.ipv6Enabled = true
  · rw [if_pos henabled] at hok
    obtain ⟨listing, _, hok⟩ := NftM.list_bind_eq_ok.mp hok
    obtain ⟨table, created, htable, hok⟩ := NftM.bind_eq_ok.mp hok
    obtain ⟨listing6, hrelisted, hok⟩ := NftM.list_bind_eq_ok.mp hok
    cases hok
    have hafter := (findOrCreateTableForHook_basesAdded htable).unused
      hunused
    refine ⟨hafter, fun command hmem => ⟨?_, ?_⟩⟩
    · exact adds_supervisorFilterCommands _ _ _ _ command hmem
    · exact fresh_of_supervisorFilterCommands
        (executeListRuleset_trueOf hrelisted) hafter command hmem
  · rw [if_neg henabled] at hok
    cases hok
    refine ⟨hunused, ?_⟩
    intro command hmem
    cases hmem

theorem initializeChains_clean (hunused : manager.Unused ruleset)
    (hok : manager.initializeChains calls ruleset = (.ok (), after)) :
    manager.Clean after := by
  unfold initializeChains at hok
  obtain ⟨listing, _, hok⟩ := NftM.list_bind_eq_ok.mp hok
  obtain ⟨natTable, first, hnat, hok⟩ := NftM.bind_eq_ok.mp hok
  obtain ⟨filterTable, second, hfilter, hok⟩ := NftM.bind_eq_ok.mp hok
  obtain ⟨preroutingTable, third, hprerouting, hok⟩ :=
    NftM.bind_eq_ok.mp hok
  obtain ⟨relisting, hrelisted, hok⟩ := NftM.list_bind_eq_ok.mp hok
  obtain ⟨commands6, fourth, hcommands6, hbatch⟩ := NftM.bind_eq_ok.mp hok
  have hbases := ((findOrCreateTableForHook_basesAdded hnat).trans
    (findOrCreateTableForHook_basesAdded hfilter)).trans
      (findOrCreateTableForHook_basesAdded hprerouting)
  have hthird := hbases.unused hunused
  have htrue := executeListRuleset_trueOf hrelisted
  obtain ⟨hfourth, hcommands⟩ := initializeChains6_fresh hthird hcommands6
  apply clean_of_applyBatch filterTable preroutingTable hfourth _ _ _ _
    (NftM.applyBatch_of_runCommands hbatch)
  · intro command hmem
    simp only [List.mem_append] at hmem
    rcases hmem with ((hmem | hmem) | hmem) | hmem
    · apply fresh_of_supervisorCommands htrue hthird (by decide) _ command
        hmem
      intro vmId
      exact (manager.vmFilterChain_ne_supervisor vmId).1.symm
    · exact fresh_of_supervisorFilterCommands htrue hthird command hmem
    · apply fresh_of_supervisorCommands htrue hthird (by decide) _ command
        hmem
      intro vmId
      exact (manager.vmFilterChain_ne_supervisor vmId).2.2.symm
    · exact (hcommands command hmem).2
  · intro command hmem
    simp only [List.mem_append] at hmem
    rcases hmem with ((hmem | hmem) | hmem) | hmem
    · exact adds_supervisorCommands _ _ _ _ _ command hmem
    · exact adds_supervisorFilterCommands _ _ _ _ command hmem
    · exact adds_supervisorCommands _ _ _ _ _ command hmem
    · exact (hcommands command hmem).1
  · have hown : manager.OwnName manager.supervisorFilterChain := .inl rfl
    have hmem := addChain_mem_of_unused htrue hthird .ip filterTable hown
    simp only [supervisorFilterCommands, supervisorCommands,
      List.mem_append]
    exact .inl (.inl (.inr (.inl (.inl hmem))))
  · have hown : manager.OwnName manager.supervisorPreroutingChain :=
      .inr (.inl rfl)
    have hmem :=
      addChain_mem_of_unused htrue hthird .ip preroutingTable hown
    simp only [supervisorCommands, List.mem_append]
    exact .inl (.inr (.inl hmem))

end NftablesManager

end AlephCvm.Nft
