import AlephCvm.NftablesInitialize

/-!
# The DNAT rules of the supervisor

A forward is a DNAT rule in the prerouting chain of the supervisor.  Batches
are looked at with respect to these rules only: which of them a batch can add,
and that a rule which a batch deletes is gone.
-/

namespace AlephCvm.Nft

open ResultContext AlephCvm.Net

/-- The expressions of the rule that sends a host port to a guest. -/
def forwardExpr (guestIp : String) (forward : PortForward) :
    List RuleExpr :=
  [.matching "==" (.payload forward.protocol.text "dport")
      (.number forward.hostPort.toNat),
    .dnat guestIp forward.vmPort.toNat]

/-- A DNAT rule of the prerouting chain. -/
def NftablesManager.isForwardRule (manager : NftablesManager)
    (rule : Rule) : Bool :=
  rule.chain == manager.supervisorPreroutingChain && rule.expr.any isDnat

def Rule.redirects (rule : Rule) (key : UInt16 × Protocol) : Bool :=
  rule.expr.any (matchesDport key.1 key.2)

theorem redirects_of_forwardExpr
    {rule : Rule} {guestIp : String} {forward : PortForward}
    (hexpr : rule.expr = forwardExpr guestIp forward) :
    rule.redirects forward.key = true := by
  simp [Rule.redirects, hexpr, forwardExpr, matchesDport, PortForward.key]

/-! ## Rules after a batch -/

section Batch

variable {ruleset next : Ruleset} {rule : Rule}

/-- A rule was there before, or the command has added it. -/
theorem Ruleset.mem_rules_of_apply
    {command : NftCommand} (hok : ruleset.apply command = some next)
    (hmem : rule ∈ next.rules) :
    rule ∈ ruleset.rules ∨ command = .addRule rule.chainKey rule.expr := by
  cases Ruleset.applied_of_apply hok with
  | tableKnown family name => exact .inl hmem
  | tableAdded family name => exact .inl hmem
  | chainKnown chain hknown hregular => exact .inl hmem
  | chainUpdated chain hbase hhooked => exact .inl hmem
  | chainAdded chain htable hfresh => exact .inl hmem
  | ruleAdded key expr hchain hjumps =>
      rcases List.mem_append.mp hmem with hold | hnew
      · exact .inl hold
      · rw [List.mem_singleton.mp hnew]
        exact .inr rfl
  | ruleDeleted key handle => exact .inl (List.mem_of_mem_filter hmem)
  | chainDropped key hfree => exact .inl (List.mem_of_mem_filter hmem)

theorem Ruleset.mem_rules_of_applyBatch
    {commands : List NftCommand}
    (hok : ruleset.applyBatch commands = some next)
    (hmem : rule ∈ next.rules) :
    rule ∈ ruleset.rules ∨ .addRule rule.chainKey rule.expr ∈ commands := by
  induction commands generalizing ruleset with
  | nil =>
      cases hok
      exact .inl hmem
  | cons command rest ih =>
      rw [Ruleset.applyBatch_cons, Option.bind_eq_some_iff] at hok
      obtain ⟨middle, hcommand, hrest⟩ := hok
      rcases ih hrest with hmiddle | hadded
      · rcases Ruleset.mem_rules_of_apply hcommand hmiddle with hold | hnew
        · exact .inl hold
        · rw [hnew]
          exact .inr List.mem_cons_self
      · exact .inr (List.mem_cons_of_mem _ hadded)

/-- A batch that adds no rules leaves nothing of what it deletes. -/
theorem Ruleset.deleted_of_applyBatch
    {commands : List NftCommand}
    (hdeletes : ∀ key expr, .addRule key expr ∉ commands)
    (hok : ruleset.applyBatch commands = some next)
    (hmem : .deleteRule rule.chainKey rule.handle ∈ commands) :
    rule ∉ next.rules := by
  intro hrule
  obtain ⟨front, back, hsplit⟩ := List.append_of_mem hmem
  rw [hsplit, Ruleset.applyBatch_append, Option.bind_eq_some_iff] at hok
  obtain ⟨before, _, hback⟩ := hok
  rw [Ruleset.applyBatch_cons, Option.bind_eq_some_iff] at hback
  obtain ⟨after, hdelete, hrest⟩ := hback
  rcases Ruleset.mem_rules_of_applyBatch hrest hrule with hafter | hadded
  · simp only [Ruleset.apply] at hdelete
    split_ifs at hdelete with hexists
    cases hdelete
    have hkept := (List.mem_filter.mp hafter).2
    simp at hkept
  · apply hdeletes rule.chainKey rule.expr
    rw [hsplit]
    exact List.mem_append_right _ (List.mem_cons_of_mem _ hadded)

end Batch

/-! ## DNAT rules that a batch adds -/

/-- The DNAT rules that the batch adds have expressions of this kind. -/
def AddsDnat (kind : List RuleExpr → Prop) (commands : List NftCommand) :
    Prop :=
  ∀ key expr, .addRule key expr ∈ commands → expr.any isDnat = true →
    kind expr

def AddsNoDnat (commands : List NftCommand) : Prop :=
  AddsDnat (fun _ => False) commands

theorem addsNoDnat_of_deletes
    {commands : List NftCommand}
    (hdeletes : ∀ key expr, .addRule key expr ∉ commands) :
    AddsNoDnat commands :=
  fun key expr hmem _ => hdeletes key expr hmem

namespace NftablesManager

variable (manager : NftablesManager) (listing : Listing)

theorem not_dnat_of_setupRule {manager : NftablesManager}
    {listing : Listing} {vmId tap : String} {content : RuleContent}
    (hsetup : SetupRule manager listing vmId tap content) :
    content.2.any isDnat = false := by
  cases hsetup with
  | natJump table htable => rfl
  | masquerade table htable => rfl
  | filterJump family table htable => rfl
  | forwardAccept family table htable => rfl

theorem addsNoDnat_setupCommands
    {vmId tap : String} {commands : List NftCommand}
    (hcommands : manager.setupCommands listing vmId tap = .ok commands) :
    AddsNoDnat commands := by
  intro key expr hmem hdnat
  have hnot := not_dnat_of_setupRule
    (setupRule_of_setupCommands hcommands hmem)
  rw [hnot] at hdnat
  cases hdnat

theorem addsNoDnat_removeChainCommands (chainName : String) :
    AddsNoDnat (removeChainCommands listing chainName) := by
  apply addsNoDnat_of_deletes
  intro key expr hmem
  rcases List.mem_append.mp hmem with hrules | hchains
  · obtain ⟨rule, _, heq⟩ := List.mem_map.mp hrules
    cases heq
  · obtain ⟨chain, _, heq⟩ := List.mem_map.mp hchains
    cases heq

theorem removePortForwardCommands_deletes
    (hostPort : UInt16) (protocol : Protocol) (key : ChainKey)
    (expr : List RuleExpr) :
    .addRule key expr ∉
      manager.removePortForwardCommands listing hostPort protocol := by
  intro hmem
  obtain ⟨rule, _, heq⟩ := List.mem_map.mp hmem
  cases heq

/-- Every listed rule of the forward is deleted. -/
theorem mem_removePortForwardCommands
    {manager : NftablesManager} {listing : Listing} {rule : Rule}
    {hostPort : UInt16} {protocol : Protocol}
    (hlisted : rule ∈ listing.rules)
    (hforward : manager.isForwardRule rule = true)
    (hredirects : rule.redirects (hostPort, protocol) = true) :
    .deleteRule rule.chainKey rule.handle ∈
      manager.removePortForwardCommands listing hostPort protocol := by
  unfold isForwardRule at hforward
  rw [Bool.and_eq_true] at hforward
  apply List.mem_map_of_mem
  apply List.mem_filter.mpr
  refine ⟨hlisted, ?_⟩
  unfold isDnatRuleMatching
  rw [Bool.and_eq_true, Bool.and_eq_true]
  exact ⟨⟨hforward.1, hredirects⟩, hforward.2⟩

end NftablesManager

/-! ## Adding and removing a forward -/

/-- The expressions of the rule that lets a forwarded port through. -/
def portAcceptExpr (port : UInt16) (protocol : Protocol) : List RuleExpr :=
  [.matching "==" (.payload protocol.text "dport") (.number port.toNat),
    .accept]

/-- The ruleset with the two rules of a forward in the chains that were
found for them. -/
structure ForwardAdded (manager : NftablesManager) (vmId guestIp : String)
    (forward : PortForward) (preroutingTable filterTable : String)
    (before after : Ruleset) : Prop where
  prerouting : getTableForChain before.listing .ip
    manager.supervisorPreroutingChain = some preroutingTable
  filter : getTableForChain before.listing .ip
    (manager.vmFilterChain vmId) = some filterTable
  tables : after.tables = before.tables
  chains : after.chains = before.chains
  rules : after.rules = before.rules ++
    [⟨.ip, preroutingTable, manager.supervisorPreroutingChain,
        before.nextHandle, forwardExpr guestIp forward⟩,
      ⟨.ip, filterTable, manager.vmFilterChain vmId, before.nextHandle + 1,
        portAcceptExpr forward.vmPort forward.protocol⟩]

section Forward

variable {manager : NftablesManager} {before : Ruleset} {calls : NftCalls}
  {vmId : String}

theorem forwardExpr_eq (vmId guestIp : String) (hostPort vmPort : UInt16)
    (protocol : Protocol) :
    forwardExpr guestIp ⟨vmId, hostPort, vmPort, protocol⟩ =
      [.matching "==" (.payload protocol.text "dport")
          (.number hostPort.toNat),
        .dnat guestIp vmPort.toNat] := rfl

/-- With both chains there the two rules can always be added. -/
theorem forwardAdded_of_tables {preroutingTable filterTable : String}
    (hprerouting : getTableForChain before.listing .ip
      manager.supervisorPreroutingChain = some preroutingTable)
    (hfilter : getTableForChain before.listing .ip
      (manager.vmFilterChain vmId) = some filterTable)
    (guestIp : String) (hostPort vmPort : UInt16) (protocol : Protocol) :
    ∃ after, ForwardAdded manager vmId guestIp
        ⟨vmId, hostPort, vmPort, protocol⟩ preroutingTable filterTable
        before after ∧
      before.applyBatch
        [dnatRule (.ip, preroutingTable, manager.supervisorPreroutingChain)
            hostPort guestIp vmPort protocol,
          portAcceptRule (.ip, filterTable, manager.vmFilterChain vmId)
            vmPort protocol] = some after := by
  obtain ⟨middle, hdnat, htables1, hchains1, hrules1, hhandle1⟩ :=
    Ruleset.apply_addRule_of_hasChain
      (hasChain_of_getTableForChain hprerouting)
      (forwardExpr guestIp ⟨vmId, hostPort, vmPort, protocol⟩) rfl
  have hfilterChain : middle.HasChain
      (.ip, filterTable, manager.vmFilterChain vmId) := by
    rw [Ruleset.HasChain, hchains1]
    exact hasChain_of_getTableForChain hfilter
  obtain ⟨after, haccept, htables2, hchains2, hrules2, hhandle2⟩ :=
    Ruleset.apply_addRule_of_hasChain hfilterChain
      (portAcceptExpr vmPort protocol) rfl
  refine ⟨after, ?_, ?_⟩
  · constructor
    · exact hprerouting
    · exact hfilter
    · exact htables2.trans htables1
    · exact hchains2.trans hchains1
    · rw [hrules2, hrules1, List.append_assoc]
      simp [Ruleset.newRule, hhandle1]
  · rw [Ruleset.applyBatch_cons]
    unfold dnatRule
    rw [← forwardExpr_eq vmId, hdnat, Option.bind_some,
      Ruleset.applyBatch_cons]
    unfold portAcceptRule
    rw [← portAcceptExpr, haccept, Option.bind_some,
      Ruleset.applyBatch_nil]

/-- With both chains there the batch can only fail by not being run. -/
theorem addPortForward_listed {preroutingTable filterTable : String}
    (hlist : ∀ family, calls.list family = .listed)
    (hprerouting : getTableForChain before.listing .ip
      manager.supervisorPreroutingChain = some preroutingTable)
    (hfilter : getTableForChain before.listing .ip
      (manager.vmFilterChain vmId) = some filterTable)
    (guestIp : String) (hostPort vmPort : UInt16) (protocol : Protocol) :
    ∃ after, ForwardAdded manager vmId guestIp
        ⟨vmId, hostPort, vmPort, protocol⟩ preroutingTable filterTable
        before after ∧
      manager.addPortForward calls before vmId guestIp hostPort vmPort
          protocol =
        match calls.batch.executed with
        | .error message => .error message
        | .ok () => .ok after := by
  obtain ⟨after, hadded, hbatch⟩ := forwardAdded_of_tables hprerouting
    hfilter guestIp hostPort vmPort protocol
  refine ⟨after, hadded, ?_⟩
  unfold NftablesManager.addPortForward
  rw [executeListRuleset_of_listed hlist]
  simp only [bind, Except.bind, optionContext, hprerouting, hfilter,
    executeNftCommands, hbatch]
  cases calls.batch.executed <;> rfl

/-- An addition that succeeds has added its two rules, whatever the
listings looked like. -/
theorem addPortForward_added {after : Ruleset} {guestIp : String}
    {hostPort vmPort : UInt16} {protocol : Protocol}
    (hok : manager.addPortForward calls before vmId guestIp hostPort vmPort
      protocol = .ok after) :
    ∃ preroutingTable filterTable, ForwardAdded manager vmId guestIp
      ⟨vmId, hostPort, vmPort, protocol⟩ preroutingTable filterTable before
      after := by
  unfold NftablesManager.addPortForward at hok
  obtain ⟨listing, hlisting, hok⟩ := bind_eq_ok.mp hok
  obtain ⟨preroutingTable, hprerouting, hok⟩ := bind_eq_ok.mp hok
  obtain ⟨filterTable, hfilter, hrun⟩ := bind_eq_ok.mp hok
  rw [optionContext_eq_ok] at hprerouting hfilter
  obtain ⟨expected, hadded, hbatch⟩ := forwardAdded_of_tables
    (getTableForChain_of_list hlisting hprerouting)
    (getTableForChain_of_list hlisting hfilter) guestIp hostPort vmPort
    protocol
  have happlied := executeNftCommands_eq_ok hrun
  rw [hbatch, Option.some.injEq] at happlied
  rw [← happlied]
  exact ⟨preroutingTable, filterTable, hadded⟩

end Forward

end AlephCvm.Nft
