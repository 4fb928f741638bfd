import AlephCvm.ForwardRules
import AlephCvm.SetupIdempotence
import AlephCvm.StepRuns

/-!
# From setup to teardown

The calls that the manager of the firewall gets for one machine: its setup,
the addition of forwards, their removal and the teardown.  All that such a
lifetime touches are the chains of the machine, the jumps to them and the DNAT
rules of the ports it forwards.  At its end these are gone, so the ruleset is
as it was unless it had DNAT rules for these ports before.
-/

namespace AlephCvm.Nft

open ResultContext StepRuns AlephCvm.Net

/-! ## Calls for machines -/

inductive NftOp where
  | setupVm (calls : NftCalls) (vmId tapDevice : String)
  | addPortForward (calls : NftCalls) (vmId guestIp : String)
      (hostPort vmPort : UInt16) (protocol : Protocol)
  | removePortForward (calls : NftCalls) (hostPort : UInt16)
      (protocol : Protocol)
  | teardownVm (natCalls filterCalls : NftCalls) (vmId : String)

/-- The ruleset after a call that may have failed. -/
def orKept (result : Except String Ruleset) (ruleset : Ruleset) : Ruleset :=
  match result with
  | .ok next => next
  | .error _ => ruleset

def NftablesManager.step (manager : NftablesManager) (ruleset : Ruleset) :
    NftOp → Ruleset
  | .setupVm calls vmId tapDevice =>
      orKept (manager.setupVm calls ruleset vmId tapDevice) ruleset
  | .addPortForward calls vmId guestIp hostPort vmPort protocol =>
      orKept (manager.addPortForward calls ruleset vmId guestIp hostPort
        vmPort protocol) ruleset
  | .removePortForward calls hostPort protocol =>
      orKept (manager.removePortForward calls ruleset hostPort protocol)
        ruleset
  | .teardownVm natCalls filterCalls vmId =>
      (manager.teardownVm natCalls filterCalls ruleset vmId).2

/-- A call changes nothing or it succeeds. -/
theorem orKept_cases (property : Ruleset → Prop) {ruleset : Ruleset}
    {result : Except String Ruleset} (hkept : property ruleset)
    (hok : ∀ next, result = .ok next → property next) :
    property (orKept result ruleset) := by
  cases hresult : result with
  | error message => exact hkept
  | ok next => exact hok next hresult

/-! ## Lifetimes -/

structure ForwardAddition where
  calls : NftCalls
  guestIp : String
  hostPort : UInt16
  vmPort : UInt16
  protocol : Protocol

structure ForwardRemoval where
  calls : NftCalls
  hostPort : UInt16
  protocol : Protocol

structure Lifetime where
  vmId : String
  tapDevice : String
  setup : NftCalls
  additions : List ForwardAddition
  removals : List ForwardRemoval
  natTeardown : NftCalls
  filterTeardown : NftCalls

namespace Lifetime

variable (life : Lifetime)

def growing : List NftOp :=
  .setupVm life.setup life.vmId life.tapDevice ::
    life.additions.map fun addition =>
      .addPortForward addition.calls life.vmId addition.guestIp
        addition.hostPort addition.vmPort addition.protocol

def removing : List NftOp :=
  life.removals.map fun removal =>
    .removePortForward removal.calls removal.hostPort removal.protocol

def ops : List NftOp :=
  life.growing ++ life.removing ++
    [.teardownVm life.natTeardown life.filterTeardown life.vmId]

/-- The forwards that are removed are those that are added, and the removals
and the teardown go through. -/
structure Complete : Prop where
  removed : ∀ addition ∈ life.additions, ∃ removal ∈ life.removals,
    removal.hostPort = addition.hostPort ∧
      removal.protocol = addition.protocol
  added : ∀ removal ∈ life.removals, ∃ addition ∈ life.additions,
    addition.hostPort = removal.hostPort ∧
      addition.protocol = removal.protocol
  removals : ∀ removal ∈ life.removals, removal.calls.Succeed
  natTeardown : life.natTeardown.Succeed
  filterTeardown : life.filterTeardown.Succeed

/-- A DNAT rule for one of the forwarded ports. -/
def redirects (manager : NftablesManager) (rule : Rule) : Bool :=
  life.additions.any fun addition =>
    isDnatRuleMatching rule manager.supervisorPreroutingChain
      addition.hostPort addition.protocol

/-- Rules of the machine's chains, jumps to them, and DNAT rules for its
ports. -/
def owns (manager : NftablesManager) (rule : Rule) : Bool :=
  ruleOwned (manager.vmChain life.vmId) rule || life.redirects manager rule

/-- The chains that a lifetime adds rules to. -/
def addsTo (manager : NftablesManager) (chain : String) : Prop :=
  manager.vmChain life.vmId chain = true ∨
    chain = manager.supervisorNatChain ∨
    chain = manager.supervisorFilterChain ∨
    chain = manager.supervisorPreroutingChain

/-- All that does not belong to the lifetime is unchanged, and no rules are
added outside the chains of the machine and of the supervisor. -/
structure Keeps (manager : NftablesManager) (before after : Ruleset) :
    Prop where
  tables : after.tables = before.tables
  chains :
    (after.chains.filter fun chain =>
        !chainOwned (manager.vmChain life.vmId) chain) =
      before.chains.filter fun chain =>
        !chainOwned (manager.vmChain life.vmId) chain
  rules :
    (after.rules.filter fun rule => !life.owns manager rule) =
      before.rules.filter fun rule => !life.owns manager rule
  added : ∀ rule ∈ after.rules,
    rule ∈ before.rules ∨ life.addsTo manager rule.chain

variable {life} {manager : NftablesManager} {before middle after : Ruleset}

theorem Keeps.refl : life.Keeps manager before before :=
  ⟨rfl, rfl, rfl, fun _ hmem => .inl hmem⟩

theorem Keeps.trans (hfirst : life.Keeps manager before middle)
    (hsecond : life.Keeps manager middle after) :
    life.Keeps manager before after where
  tables := hsecond.tables.trans hfirst.tables
  chains := hsecond.chains.trans hfirst.chains
  rules := hsecond.rules.trans hfirst.rules
  added := by
    intro rule hmem
    rcases hsecond.added rule hmem with hmiddle | hadded
    · exact hfirst.added rule hmiddle
    · exact .inr hadded

/-! ## The single calls -/

/-- What is not owned is not a rule of the machine's chains. -/
theorem filter_owns (rules : List Rule) :
    (rules.filter fun rule => !life.owns manager rule) =
      (rules.filter fun rule =>
        !ruleOwned (manager.vmChain life.vmId) rule).filter fun rule =>
          !life.redirects manager rule := by
  rw [List.filter_filter]
  apply List.filter_congr
  intro rule _
  rw [owns, Bool.not_or, Bool.and_comm]

theorem keeps_of_setupVm {calls : NftCalls} {tap : String}
    (hok : manager.setupVm calls before life.vmId tap = .ok after) :
    life.Keeps manager before after := by
  have hsame := manager.setupVm_sameForeign hok
  obtain ⟨listing, _, _, new, hrules, hkinds⟩ :=
    NftablesManager.setupVm_rules hok
  constructor
  · exact hsame.tables
  · exact hsame.chains
  · rw [filter_owns, filter_owns, hsame.rules]
  · intro rule hmem
    rw [hrules] at hmem
    rcases List.mem_append.mp hmem with hold | hnew
    · exact .inl hold
    · right
      have hname : rule.chain = rule.content.1.2.2 := rfl
      rw [hname]
      rcases (hkinds rule hnew).chain with hchain | hchain | hchain | hchain
      · exact .inr (.inl hchain)
      · exact .inr (.inr (.inl hchain))
      · rw [hchain]
        exact .inl (manager.vmChain_vmNatChain life.vmId)
      · rw [hchain]
        exact .inl (manager.vmChain_vmFilterChain life.vmId)

theorem keeps_of_ownedRemoved
    (hremoved : OwnedRemoved (manager.vmChain life.vmId) before after) :
    life.Keeps manager before after where
  tables := hremoved.tables
  chains := by rw [hremoved.chains, List.filter_filter]; simp
  rules := by
    rw [filter_owns, filter_owns, hremoved.rules, List.filter_filter]
    simp
  added := by
    intro rule hmem
    rw [hremoved.rules] at hmem
    exact .inl (List.mem_of_mem_filter hmem)

theorem keeps_of_rulesKept {keep : Rule → Bool}
    (hkeep : ∀ rule, life.owns manager rule = false → keep rule = true)
    (hkept : RulesKept keep before after) :
    life.Keeps manager before after where
  tables := hkept.tables
  chains := by rw [hkept.chains]
  rules := by
    rw [hkept.rules, List.filter_filter]
    apply List.filter_congr
    intro rule _
    cases howns : life.owns manager rule with
    | false => rw [hkeep rule howns]; rfl
    | true => rfl
  added := by
    intro rule hmem
    rw [hkept.rules] at hmem
    exact .inl (List.mem_of_mem_filter hmem)

theorem owns_of_filterChain {rule : Rule}
    (hchain : rule.chain = manager.vmFilterChain life.vmId) :
    life.owns manager rule = true := by
  have howned := manager.vmChain_vmFilterChain life.vmId
  simp [owns, ruleOwned, hchain, howned]

theorem owns_of_forwardExpr {rule : Rule} {guestIp : String}
    {addition : ForwardAddition} (hmem : addition ∈ life.additions)
    (hchain : rule.chain = manager.supervisorPreroutingChain)
    (hexpr : rule.expr = forwardExpr guestIp ⟨life.vmId,
      addition.hostPort, addition.vmPort, addition.protocol⟩) :
    life.owns manager rule = true := by
  have hredirects : life.redirects manager rule = true := by
    refine List.any_eq_true.mpr ⟨addition, hmem, ?_⟩
    simp [isDnatRuleMatching, hchain, hexpr, forwardExpr, matchesDport,
      isDnat]
  rw [owns, hredirects, Bool.or_true]

theorem keeps_of_forwardAdded {guestIp preroutingTable filterTable : String}
    {addition : ForwardAddition} (hmem : addition ∈ life.additions)
    (hadded : ForwardAdded manager life.vmId guestIp
      ⟨life.vmId, addition.hostPort, addition.vmPort, addition.protocol⟩
      preroutingTable filterTable before after) :
    life.Keeps manager before after where
  tables := hadded.tables
  chains := by rw [hadded.chains]
  rules := by
    rw [hadded.rules, List.filter_append]
    convert List.append_nil _
    rw [List.filter_eq_nil_iff]
    intro rule hnew
    rcases List.mem_pair.mp hnew with rfl | rfl
    · rw [owns_of_forwardExpr hmem rfl rfl]
      exact Bool.false_ne_true
    · rw [owns_of_filterChain rfl]
      exact Bool.false_ne_true
  added := by
    intro rule hmem
    rw [hadded.rules] at hmem
    rcases List.mem_append.mp hmem with hold | hnew
    · exact .inl hold
    · rcases List.mem_pair.mp hnew with rfl | rfl
      · exact .inr (.inr (.inr (.inr rfl)))
      · exact .inr (.inl (manager.vmChain_vmFilterChain life.vmId))

/-! ## The whole lifetime -/

theorem keeps_step {op : NftOp} (hcomplete : life.Complete)
    (hmem : op ∈ life.ops) (hkeeps : life.Keeps manager before middle) :
    life.Keeps manager before (manager.step middle op) := by
  apply hkeeps.trans
  simp only [ops, growing, removing, List.mem_append, List.mem_cons,
    List.mem_map, List.not_mem_nil, or_false] at hmem
  rcases hmem with ((rfl | ⟨addition, haddition, rfl⟩) |
    ⟨removal, hremoval, rfl⟩) | rfl
  · apply orKept_cases (life.Keeps manager middle) .refl
    intro next hok
    exact keeps_of_setupVm hok
  · apply orKept_cases (life.Keeps manager middle) .refl
    intro next hok
    obtain ⟨_, _, hadded⟩ := addPortForward_added hok
    exact keeps_of_forwardAdded haddition hadded
  · obtain ⟨addition, haddition, hport, hprotocol⟩ :=
      hcomplete.added removal hremoval
    obtain ⟨next, hok, hkept⟩ := removePortForward_kept manager
      (hcomplete.removals removal hremoval) middle removal.hostPort
      removal.protocol
    rw [NftablesManager.step, hok]
    apply keeps_of_rulesKept _ hkept
    intro rule howns
    rw [owns, Bool.or_eq_false_iff] at howns
    have hnot := List.any_eq_false.mp howns.2 addition haddition
    rw [hport, hprotocol] at hnot
    simpa using hnot
  · exact keeps_of_ownedRemoved (manager.teardownVm_removed
      hcomplete.natTeardown hcomplete.filterTeardown middle life.vmId).2

/-- No rule for one of the removed ports is left. -/
theorem removed_of_removing (manager : NftablesManager)
    (removals : List ForwardRemoval)
    (hcalls : ∀ removal ∈ removals, removal.calls.Succeed)
    (ruleset : Ruleset) :
    ∀ rule ∈ (run manager.step ruleset (removals.map fun removal =>
        .removePortForward removal.calls removal.hostPort
          removal.protocol)).rules,
      rule ∈ ruleset.rules ∧ ∀ removal ∈ removals,
        isDnatRuleMatching rule manager.supervisorPreroutingChain
          removal.hostPort removal.protocol = false := by
  induction removals generalizing ruleset with
  | nil =>
      intro rule hmem
      exact ⟨hmem, by simp⟩
  | cons removal rest ih =>
      intro rule hmem
      obtain ⟨next, hok, hkept⟩ := removePortForward_kept manager
        (hcalls removal List.mem_cons_self) ruleset removal.hostPort
        removal.protocol
      have hstep : manager.step ruleset (.removePortForward removal.calls
          removal.hostPort removal.protocol) = next := by
        rw [NftablesManager.step, hok]
        rfl
      rw [List.map_cons, run, List.foldl_cons, hstep] at hmem
      obtain ⟨hnext, hrest⟩ := ih (fun other hother =>
        hcalls other (List.mem_cons_of_mem _ hother)) next rule hmem
      rw [hkept.rules] at hnext
      obtain ⟨hbefore, hnot⟩ := List.mem_filter.mp hnext
      refine ⟨hbefore, ?_⟩
      intro other hother
      rcases List.mem_cons.mp hother with rfl | hother
      · simpa using hnot
      · exact hrest other hother

/-- Nothing that belongs to the lifetime is left at its end. -/
theorem gone_after_ops (manager : NftablesManager)
    (hcomplete : life.Complete) (before : Ruleset) :
    (∀ chain ∈ (run manager.step before life.ops).chains,
      chainOwned (manager.vmChain life.vmId) chain = false) ∧
    ∀ rule ∈ (run manager.step before life.ops).rules,
      life.owns manager rule = false := by
  unfold ops
  rw [run_append, run_append]
  generalize run manager.step before life.growing = grown
  have hremoved := removed_of_removing manager life.removals
    hcomplete.removals grown
  rw [← removing] at hremoved
  generalize run manager.step grown life.removing = shrunk at hremoved
  obtain ⟨_, howned⟩ := manager.teardownVm_removed hcomplete.natTeardown
    hcomplete.filterTeardown shrunk life.vmId
  constructor
  · intro chain hmem
    change chain ∈ (manager.teardownVm life.natTeardown
      life.filterTeardown shrunk life.vmId).2.chains at hmem
    rw [howned.chains] at hmem
    simpa using (List.mem_filter.mp hmem).2
  · intro rule hmem
    change rule ∈ (manager.teardownVm life.natTeardown
      life.filterTeardown shrunk life.vmId).2.rules at hmem
    rw [howned.rules] at hmem
    obtain ⟨hshrunk, hnot⟩ := List.mem_filter.mp hmem
    have hredirects : life.redirects manager rule = false := by
      apply List.any_eq_false.mpr
      intro addition haddition
      obtain ⟨removal, hremoval, hport, hprotocol⟩ :=
        hcomplete.removed addition haddition
      rw [← hport, ← hprotocol,
        (hremoved rule hshrunk).2 removal hremoval]
      exact Bool.false_ne_true
    rw [owns, hredirects, Bool.or_false]
    simpa using hnot

end Lifetime

/-- The rulesets have the same entries; only handles may differ. -/
structure SameUpToHandles (before after : Ruleset) : Prop where
  tables : after.tables = before.tables
  chains : after.chains = before.chains
  rules : after.rules.map Rule.content = before.rules.map Rule.content

/-- A lifetime of a machine without chains gives the ruleset back exactly
when it had no DNAT rule for the ports that are forwarded, and at no step does
it change what does not belong to it. -/
theorem lifetime_gives_back_iff (manager : NftablesManager)
    (life : Lifetime) (hcomplete : life.Complete) (before : Ruleset)
    (hfresh : ∀ chain ∈ before.chains,
      manager.vmChain life.vmId chain.name = false) :
    (SameUpToHandles before (run manager.step before life.ops) ↔
      ∀ rule ∈ before.rules, life.redirects manager rule = false) ∧
    ∀ done, done <+: life.ops →
      life.Keeps manager before (run manager.step before done) := by
  have hkeeps : ∀ done, done <+: life.ops →
      life.Keeps manager before (run manager.step before done) := by
    intro done hdone
    apply run_invariant_of_along _ .refl
      (along_of_forall (Q := fun op => op ∈ life.ops) hdone.subset before)
    intro middle op hkept hmem
    exact Lifetime.keeps_step hcomplete hmem hkept
  refine ⟨?_, hkeeps⟩
  have hall := hkeeps life.ops List.prefix_rfl
  obtain ⟨hchainsGone, hrulesGone⟩ :=
    Lifetime.gone_after_ops manager hcomplete before
  generalize run manager.step before life.ops = after
    at hall hchainsGone hrulesGone
  have hchains : after.chains = before.chains := by
    have hsame := hall.chains
    rw [List.filter_eq_self.mpr, List.filter_eq_self.mpr] at hsame
    · exact hsame
    · intro chain hmem
      simp [chainOwned, hfresh chain hmem]
    · intro chain hmem
      simp [hchainsGone chain hmem]
  have hrules : after.rules =
      before.rules.filter fun rule => !life.redirects manager rule := by
    have hsame := hall.rules
    have hunowned : (before.rules.filter fun rule =>
        !ruleOwned (manager.vmChain life.vmId) rule) = before.rules := by
      rw [List.filter_eq_self]
      intro rule hmem
      rw [ruleOwned_of_no_chain hfresh hmem]
      rfl
    rw [List.filter_eq_self.mpr, Lifetime.filter_owns, hunowned] at hsame
    · exact hsame
    · intro rule hmem
      simp [hrulesGone rule hmem]
  constructor
  · intro hsame rule hmem
    have hlength := congrArg List.length hsame.rules
    rw [List.length_map, List.length_map, hrules,
      List.length_filter_eq_length_iff] at hlength
    simpa using hlength rule hmem
  · intro hnone
    refine ⟨hall.tables, hchains, ?_⟩
    rw [hrules, List.filter_eq_self.mpr]
    intro rule hmem
    simp [hnone rule hmem]

/-! ## A port that another machine forwards -/

/-- The ruleset of an earlier server whose machine forwards a port. -/
def earlierRuleset : Ruleset :=
  run sampleManager.step
    (sampleManager.initializeChains (initializeWith batchApplied)
      Ruleset.empty).2
    [.setupVm ⟨allListed, batchApplied⟩ "vm-b" "tap-b",
      .addPortForward ⟨allListed, batchApplied⟩ "vm-b" "10.0.100.3" 8080 80
        .tcp]

/-- What `initialize` and the setup of that machine leave of it. -/
def takenRuleset : Ruleset :=
  (sampleManager.setUpAll (initializeWith batchApplied)
    [⟨"vm-b", "tap-b", ⟨allListed, batchApplied⟩⟩] earlierRuleset).2

def sampleLifetime (hostPort : UInt16) : Lifetime where
  vmId := "vm-a"
  tapDevice := "tap-a"
  setup := ⟨allListed, batchApplied⟩
  additions :=
    [⟨⟨allListed, batchApplied⟩, "10.0.100.2", hostPort, 80, .tcp⟩]
  removals := [⟨⟨allListed, batchApplied⟩, hostPort, .tcp⟩]
  natTeardown := ⟨allListed, batchApplied⟩
  filterTeardown := ⟨allListed, batchApplied⟩

theorem sampleLifetime_complete (hostPort : UInt16) :
    (sampleLifetime hostPort).Complete := by
  have hcalls : NftCalls.Succeed ⟨allListed, batchApplied⟩ :=
    ⟨fun _ => rfl, rfl⟩
  constructor
  · simp [sampleLifetime]
  · simp [sampleLifetime]
  · simpa [sampleLifetime] using hcalls
  · exact hcalls
  · exact hcalls

theorem takenRuleset_fresh : ∀ chain ∈ takenRuleset.chains,
    sampleManager.vmChain "vm-a" chain.name = false := by
  have hall : takenRuleset.chains.all (fun chain =>
      !sampleManager.vmChain "vm-a" chain.name) = true := by
    decide +kernel
  intro chain hmem
  simpa using List.all_eq_true.mp hall chain hmem

theorem lifetime_gives_back_beside_machine :
    (SameUpToHandles takenRuleset (run sampleManager.step takenRuleset
        (sampleLifetime 9090).ops) ↔
      ∀ rule ∈ takenRuleset.rules,
        (sampleLifetime 9090).redirects sampleManager rule = false) ∧
    ∀ done, done <+: (sampleLifetime 9090).ops →
      (sampleLifetime 9090).Keeps sampleManager takenRuleset
        (run sampleManager.step takenRuleset done) :=
  lifetime_gives_back_iff sampleManager (sampleLifetime 9090)
    (sampleLifetime_complete 9090) takenRuleset takenRuleset_fresh

/-- The removal of the forward takes the rule of the other machine along. -/
theorem lifetime_takes_redirection :
    (sampleManager.setUpAll (initializeWith batchApplied)
        [⟨"vm-b", "tap-b", ⟨allListed, batchApplied⟩⟩]
        earlierRuleset).1.isOk = true ∧
      (∀ chain ∈ takenRuleset.chains,
        sampleManager.vmChain "vm-a" chain.name = false) ∧
      (sampleLifetime 8080).Complete ∧
      ¬SameUpToHandles takenRuleset (run sampleManager.step takenRuleset
        (sampleLifetime 8080).ops) := by
  refine ⟨by decide +kernel, takenRuleset_fresh,
    sampleLifetime_complete 8080, ?_⟩
  intro hsame
  have hlengths : (run sampleManager.step takenRuleset
      (sampleLifetime 8080).ops).rules.length ≠
        takenRuleset.rules.length := by
    decide +kernel
  have heq := congrArg List.length hsame.rules
  rw [List.length_map, List.length_map] at heq
  exact hlengths heq

end AlephCvm.Nft
