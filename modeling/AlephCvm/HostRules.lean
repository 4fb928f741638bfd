import AlephCvm.FreshSupervisor
import AlephCvm.FirewallChanges

/-!
# The rules of the host

A host may have chains and rules of its own.  Those of the supervisor are told
from them by the names of its chains.  Over all that the server does, and
however its calls of nft end, the rules of the host stay, its chains keep
their type, hook and priority, and what is added outside the chains of the
supervisor are base chains and jumps from these to it.  A chain also keeps its
policy, unless `initialize` is started with a listing of its family that shows
nothing: then the chain is created over again, and lets packets through.
-/

namespace AlephCvm.Nft

open ResultContext

namespace NftablesManager

variable (manager : NftablesManager)

def supervisorChains : List String :=
  [manager.supervisorNatChain, manager.supervisorFilterChain,
    manager.supervisorPreroutingChain]

/-- The chain is one of the supervisor or of a machine. -/
def owns (name : String) : Bool :=
  manager.supervisorChains.contains name ||
    (manager.vmNatChain "").toList.isPrefixOf name.toList ||
    (manager.vmFilterChain "").toList.isPrefixOf name.toList

theorem owns_supervisorChain
    {name : String} (hname : name ∈ manager.supervisorChains) :
    manager.owns name = true := by
  simp [owns, hname]

theorem owns_vmNatChain (vmId : String) :
    manager.owns (manager.vmNatChain vmId) = true := by
  simp [owns, vmNatChain, toString]

theorem owns_vmFilterChain (vmId : String) :
    manager.owns (manager.vmFilterChain vmId) = true := by
  simp [owns, vmFilterChain, toString]

theorem owns_of_vmChain
    {vmId name : String} (hname : manager.vmChain vmId name = true) :
    manager.owns name = true := by
  simp only [vmChain, Bool.or_eq_true, beq_iff_eq] at hname
  rcases hname with rfl | rfl
  · exact manager.owns_vmNatChain vmId
  · exact manager.owns_vmFilterChain vmId

end NftablesManager

/-! ## What is left to the host -/

/-- What of a chain the kernel never changes; the policy may be set anew. -/
def Chain.place (chain : Chain) :
    ChainKey × Option (String × String × Int) :=
  (chain.key, chain.base.map fun base =>
    (base.chainType, base.hook, base.prio))

/-- A base chain that `initialize` creates for a hook without one. -/
def Chain.Default (chain : Chain) : Prop :=
  ∃ hook table chainType prio,
    defaultBase hook = some (table, chainType, prio) ∧
      chain = defaultChain chain.family table chainType prio hook

/-- The rule sits in a chain of the supervisor or does nothing but jump to
one. -/
def SupervisorRule (manager : NftablesManager) (rule : Rule) : Prop :=
  manager.owns rule.chain = true ∨
    ∃ name ∈ manager.supervisorChains, rule.expr = [.jump name]

/-- The chain with the policy of the base chains that are created. -/
def Chain.opened (chain : Chain) : Chain :=
  { chain with
    base := chain.base.map fun base => { base with policy := "accept" } }

@[simp] theorem Chain.opened_key (chain : Chain) :
    chain.opened.key = chain.key := rfl

@[simp] theorem Chain.opened_name (chain : Chain) :
    chain.opened.name = chain.name := rfl

@[simp] theorem Chain.opened_family (chain : Chain) :
    chain.opened.family = chain.family := rfl

@[simp] theorem Chain.opened_opened (chain : Chain) :
    chain.opened.opened = chain.opened := by
  simp [Chain.opened, Function.comp_def]

theorem Chain.Default.opened_eq {chain : Chain} (hdefault : chain.Default) :
    chain.opened = chain := by
  obtain ⟨hook, table, chainType, prio, -, hchain⟩ := hdefault
  rw [hchain]
  rfl

/-- The families are those whose chains may have been created over again. -/
structure HostKept (manager : NftablesManager) (blind : Family → Prop)
    (before after : Ruleset) : Prop where
  rules : (after.rules.filter fun rule => !ruleOwned manager.owns rule) =
    before.rules.filter fun rule => !ruleOwned manager.owns rule
  added : ∀ rule ∈ after.rules, rule ∈ before.rules ∨
    SupervisorRule manager rule
  chains : ∃ bases : List Chain, (∀ chain ∈ bases, chain.Default) ∧
    (after.chains.filter fun chain =>
        !chainOwned manager.owns chain).map Chain.place =
      ((before.chains.filter fun chain =>
        !chainOwned manager.owns chain) ++ bases).map Chain.place
  policies : ∀ chain ∈ before.chains, manager.owns chain.name = false →
    chain ∈ after.chains ∨ blind chain.family ∧ chain.opened ∈ after.chains
  fresh : ∀ chain ∈ after.chains, manager.owns chain.name = false →
    before.HasChain chain.key ∨ chain.Default

variable {manager : NftablesManager} {blind : Family → Prop}
  {before middle after : Ruleset}

theorem HostKept.refl (ruleset : Ruleset) :
    HostKept manager blind ruleset ruleset where
  rules := rfl
  added := fun _ hmem => .inl hmem
  chains := ⟨[], by simp, by simp⟩
  policies := fun _ hmem _ => .inl hmem
  fresh := fun _ hmem _ => .inl (List.mem_map_of_mem hmem)

theorem HostKept.trans
    (hfirst : HostKept manager blind before middle)
    (hsecond : HostKept manager blind middle after) :
    HostKept manager blind before after where
  rules := hsecond.rules.trans hfirst.rules
  added := by
    intro rule hmem
    rcases hsecond.added rule hmem with hmiddle | hadded
    · exact hfirst.added rule hmiddle
    · exact .inr hadded
  chains := by
    obtain ⟨earlier, hearlier, hmiddle⟩ := hfirst.chains
    obtain ⟨later, hlater, hafter⟩ := hsecond.chains
    refine ⟨earlier ++ later, ?_, ?_⟩
    · intro chain hmem
      rcases List.mem_append.mp hmem with hbase | hbase
      · exact hearlier chain hbase
      · exact hlater chain hbase
    · rw [hafter, List.map_append, hmiddle, ← List.map_append,
        List.append_assoc]
  policies := by
    intro chain hmem hforeign
    rcases hfirst.policies chain hmem hforeign with hmiddle | ⟨hblind, hmiddle⟩
    · exact hsecond.policies chain hmiddle hforeign
    · rcases hsecond.policies chain.opened hmiddle hforeign with
        hafter | ⟨-, hafter⟩
      · exact .inr ⟨hblind, hafter⟩
      · rw [Chain.opened_opened] at hafter
        exact .inr ⟨hblind, hafter⟩
  fresh := by
    intro chain hmem hforeign
    rcases hsecond.fresh chain hmem hforeign with hknown | hdefault
    · obtain ⟨old, hold, hkey⟩ := List.mem_map.mp hknown
      have hname : old.name = chain.name := Chain.name_of_key hkey
      have holdForeign : manager.owns old.name = false := by
        rw [hname]
        exact hforeign
      rcases hfirst.fresh old hold holdForeign with hbefore | hdefault
      · rw [hkey] at hbefore
        exact .inl hbefore
      · -- The chain was added before and has stayed as it was.
        have hkept : old ∈ after.chains := by
          rcases hsecond.policies old hold holdForeign with
            hsame | ⟨-, hopened⟩
          · exact hsame
          · rw [hdefault.opened_eq] at hopened
            exact hopened
        have hsame : chain = old :=
          List.inj_on_of_nodup_map after.chains_nodup hmem hkept hkey.symm
        rw [hsame]
        exact .inr hdefault
    · exact .inr hdefault

/-- A change that leaves the chains alone. -/
theorem HostKept.of_rules
    (hrules : (after.rules.filter fun rule =>
        !ruleOwned manager.owns rule) =
      before.rules.filter fun rule => !ruleOwned manager.owns rule)
    (hadded : ∀ rule ∈ after.rules, rule ∈ before.rules ∨
      SupervisorRule manager rule)
    (hchains : after.chains = before.chains) :
    HostKept manager blind before after where
  rules := hrules
  added := hadded
  chains := ⟨[], by simp, by rw [hchains, List.append_nil]⟩
  policies := by
    intro chain hmem _
    rw [hchains]
    exact .inl hmem
  fresh := by
    intro chain hmem _
    rw [hchains] at hmem
    exact .inl (List.mem_map_of_mem hmem)

/-- A change that only takes entries of the supervisor away. -/
theorem HostKept.of_filter
    {keepRule : Rule → Bool} {keepChain : Chain → Bool}
    (hrules : after.rules = before.rules.filter keepRule)
    (hchains : after.chains = before.chains.filter keepChain)
    (hrule : ∀ rule, keepRule rule = false →
      ruleOwned manager.owns rule = true)
    (hchain : ∀ chain, keepChain chain = false →
      manager.owns chain.name = true) :
    HostKept manager blind before after where
  rules := by
    rw [hrules, List.filter_filter]
    apply List.filter_congr
    intro rule _
    cases hkeep : keepRule rule with
    | true => simp
    | false => simp [hrule rule hkeep]
  added := by
    intro rule hmem
    rw [hrules] at hmem
    exact .inl (List.mem_of_mem_filter hmem)
  chains := by
    refine ⟨[], by simp, ?_⟩
    rw [hchains, List.filter_filter, List.append_nil]
    apply congrArg
    apply List.filter_congr
    intro chain _
    cases hkeep : keepChain chain with
    | true => simp
    | false => simp [chainOwned, hchain chain hkeep]
  policies := by
    intro chain hmem hforeign
    have hkept : keepChain chain = true := by
      by_contra hdropped
      rw [hchain chain (by simpa using hdropped)] at hforeign
      cases hforeign
    rw [hchains]
    exact .inl (List.mem_filter.mpr ⟨hmem, hkept⟩)
  fresh := by
    intro chain hmem _
    rw [hchains] at hmem
    exact .inl (List.mem_map_of_mem (List.mem_of_mem_filter hmem))

/-- A chain is added behind the others. -/
theorem HostKept.of_chain
    {chain : Chain} (hrules : after.rules = before.rules)
    (hchains : after.chains = before.chains ++ [chain])
    (hdefault : manager.owns chain.name = false → chain.Default) :
    HostKept manager blind before after where
  rules := by rw [hrules]
  added := by
    intro rule hmem
    rw [hrules] at hmem
    exact .inl hmem
  chains := by
    rw [hchains]
    by_cases howned : manager.owns chain.name = true
    · refine ⟨[], by simp, ?_⟩
      simp [chainOwned, howned]
    · refine ⟨[chain], ?_, ?_⟩
      · intro found hfound
        rw [List.mem_singleton.mp hfound]
        exact hdefault (by simpa using howned)
      · simp [chainOwned, howned]
  policies := by
    intro other hmem _
    rw [hchains]
    exact .inl (List.mem_append_left _ hmem)
  fresh := by
    intro other hmem hforeign
    rw [hchains] at hmem
    rcases List.mem_append.mp hmem with hold | hnew
    · exact .inl (List.mem_map_of_mem hold)
    · rw [List.mem_singleton.mp hnew] at hforeign ⊢
      exact .inr (hdefault hforeign)

/-! ## Commands that add -/

/-- What the manager may add. -/
def HostSafe (manager : NftablesManager) : NftCommand → Prop
  | .addTable _ _ => True
  | .addChain chain => manager.owns chain.name = true
  | .addRule key expr => manager.owns key.2.2 = true ∨
      ∃ name ∈ manager.supervisorChains, expr = [.jump name]
  | _ => False

theorem Chain.place_rebase
    {target existing : Chain} (hhooked : existing.hookedLike target = true) :
    (target.rebase existing).place = existing.place := by
  unfold Chain.rebase
  split
  · unfold Chain.hookedLike at hhooked
    split at hhooked
    · rename_i found asked hfound hasked
      simp only [BaseHook.sameHook, Bool.and_eq_true, beq_iff_eq] at hhooked
      simp [Chain.place, Chain.key, hfound, hasked, hhooked]
    · cases hhooked
  · rfl

theorem Ruleset.place_rebase
    {ruleset : Ruleset} {target : Chain}
    (hhooked : ∃ existing ∈ ruleset.chains, existing.key = target.key ∧
      existing.hookedLike target = true)
    (keep : Chain → Bool)
    (hkeep : ∀ chain, keep (target.rebase chain) = keep chain) :
    ((ruleset.chains.map target.rebase).filter keep).map Chain.place =
      (ruleset.chains.filter keep).map Chain.place := by
  obtain ⟨existing, hmem, hkey, hlike⟩ := hhooked
  have hplace : ∀ chain ∈ ruleset.chains,
      (target.rebase chain).place = chain.place := by
    intro chain hchain
    by_cases hsame : chain.key = target.key
    · have hfound : chain = existing :=
        List.inj_on_of_nodup_map ruleset.chains_nodup hchain hmem
          (hsame.trans hkey.symm)
      rw [hfound]
      exact Chain.place_rebase hlike
    · simp [Chain.rebase, hsame]
  simp only [List.filter_map, List.map_map]
  have hfilter : (keep ∘ target.rebase) = keep := funext hkeep
  rw [hfilter]
  apply List.map_congr_left
  intro chain hchain
  exact hplace chain (List.mem_of_mem_filter hchain)

theorem Chain.rebase_of_ne
    {target chain : Chain} (hkey : chain.key ≠ target.key) :
    target.rebase chain = chain := by
  rw [Chain.rebase, if_neg hkey]

/-- A base chain that is created over again lets packets through. -/
theorem Chain.rebase_default
    {target existing : Chain} (hdefault : target.Default)
    (hkey : existing.key = target.key)
    (hlike : existing.hookedLike target = true) :
    target.rebase existing = existing.opened := by
  obtain ⟨hook, table, chainType, prio, -, htarget⟩ := hdefault
  have hbase : target.base = some ⟨chainType, hook, prio, "accept"⟩ := by
    rw [htarget]
    rfl
  rw [Chain.rebase, if_pos hkey, Chain.opened, hbase]
  unfold Chain.hookedLike at hlike
  rw [hbase] at hlike
  cases hfound : existing.base with
  | none =>
      rw [hfound] at hlike
      cases hlike
  | some found =>
      simp only [hfound, BaseHook.sameHook, Bool.and_eq_true,
        beq_iff_eq] at hlike
      simp [hlike]

/-- A base chain is created over again. -/
theorem HostKept.of_rebase
    {target : Chain} (hrules : after.rules = before.rules)
    (hchains : after.chains = before.chains.map target.rebase)
    (hhooked : ∃ existing ∈ before.chains, existing.key = target.key ∧
      existing.hookedLike target = true)
    (hdefault : manager.owns target.name = false →
      target.Default ∧ blind target.family) :
    HostKept manager blind before after where
  rules := by rw [hrules]
  added := by
    intro rule hmem
    rw [hrules] at hmem
    exact .inl hmem
  chains := by
    refine ⟨[], by simp, ?_⟩
    rw [hchains, List.append_nil]
    apply Ruleset.place_rebase hhooked
    intro existing
    have hname : (target.rebase existing).name = existing.name :=
      Chain.name_of_key (target.rebase_key existing)
    rw [chainOwned, chainOwned, hname]
  policies := by
    intro chain hmem hforeign
    have hrebased : target.rebase chain ∈ after.chains := by
      rw [hchains]
      exact List.mem_map_of_mem hmem
    by_cases hsame : chain.key = target.key
    · obtain ⟨existing, hexisting, hkey, hlike⟩ := hhooked
      have hfound : chain = existing :=
        List.inj_on_of_nodup_map before.chains_nodup hmem hexisting
          (hsame.trans hkey.symm)
      rw [Chain.name_of_key hsame] at hforeign
      obtain ⟨hcreated, hblind⟩ := hdefault hforeign
      have hfamily : chain.family = target.family :=
        congrArg Prod.fst hsame
      rw [← hfound] at hlike
      rw [Chain.rebase_default hcreated hsame hlike] at hrebased
      rw [hfamily]
      exact .inr ⟨hblind, hrebased⟩
    · rw [Chain.rebase_of_ne hsame] at hrebased
      exact .inl hrebased
  fresh := by
    intro chain hmem _
    rw [hchains] at hmem
    obtain ⟨existing, hexisting, rfl⟩ := List.mem_map.mp hmem
    rw [target.rebase_key existing]
    exact .inl (List.mem_map_of_mem hexisting)

theorem Ruleset.apply_hostKept
    {ruleset next : Ruleset} {command : NftCommand}
    (hsafe : HostSafe manager command)
    (hok : ruleset.apply command = some next) :
    HostKept manager blind ruleset next := by
  cases Ruleset.applied_of_apply hok with
  | tableKnown family name => exact .refl ruleset
  | tableAdded family name =>
      exact .of_rules rfl (fun _ hmem => .inl hmem) rfl
  | chainKnown chain hknown hregular => exact .refl ruleset
  | chainUpdated chain hbase hhooked =>
      have howned : manager.owns chain.name = true := hsafe
      exact .of_rebase rfl rfl hhooked (by simp [howned])
  | chainAdded chain htable hfresh =>
      have howned : manager.owns chain.name = true := hsafe
      exact .of_chain rfl rfl (by simp [howned])
  | ruleAdded key expr hchain hjumps =>
      have hsupervisor : SupervisorRule manager
          (ruleset.newRule key expr) := hsafe
      have howned : ruleOwned manager.owns (ruleset.newRule key expr) =
          true := by
        rcases hsafe with hname | ⟨name, hname, hexpr⟩
        · simp [ruleOwned, Ruleset.newRule, hname]
        · simp [ruleOwned, Ruleset.newRule, hexpr, jumpTargets, jumpTarget,
            manager.owns_supervisorChain hname]
      refine .of_rules ?_ ?_ rfl
      · simp [Ruleset.addRule, howned]
      · intro rule hmem
        rcases List.mem_append.mp hmem with hold | hnew
        · exact .inl hold
        · rw [List.mem_singleton.mp hnew]
          exact .inr hsupervisor
  | ruleDeleted key handle => exact absurd hsafe id
  | chainDropped key hfree => exact absurd hsafe id

theorem Ruleset.applyBatch_hostKept
    {ruleset next : Ruleset} {commands : List NftCommand}
    (hsafe : ∀ command ∈ commands, HostSafe manager command)
    (hok : ruleset.applyBatch commands = some next) :
    HostKept manager blind ruleset next :=
  Ruleset.applyBatch_relates .refl
    (fun _ _ _ hfirst hsecond => hfirst.trans hsecond)
    (fun command hmem _ _ happly =>
      Ruleset.apply_hostKept (hsafe command hmem) happly) hok

theorem hostSafe_addChainIfNotPresent
    {listing : Listing} {key : ChainKey}
    (howned : manager.owns key.2.2 = true) :
    ∀ command ∈ addChainIfNotPresent listing key,
      HostSafe manager command := by
  intro command hcommand
  unfold addChainIfNotPresent at hcommand
  split_ifs at hcommand with hexists
  · simp at hcommand
  · rw [List.mem_singleton.mp hcommand]
    exact howned

theorem hostSafe_addRuleIfNotPresent
    {listing : Listing} {key : ChainKey} {present : Rule → Bool}
    {expr : List RuleExpr}
    (hrule : manager.owns key.2.2 = true ∨
      ∃ name ∈ manager.supervisorChains, expr = [.jump name]) :
    ∀ command ∈ addRuleIfNotPresent listing key present expr,
      HostSafe manager command := by
  intro command hcommand
  unfold addRuleIfNotPresent at hcommand
  split_ifs at hcommand with hexists
  · simp at hcommand
  · rw [List.mem_singleton.mp hcommand]
    exact hrule

/-! ## The calls of the manager -/

theorem setupVm_hostKept
    {calls : NftCalls} {vmId tap : String}
    (hok : manager.setupVm calls before vmId tap = .ok after) :
    HostKept manager blind before after := by
  simp only [NftablesManager.setupVm, NftablesManager.setupCommands,
    bind_eq_ok, optionContext_eq_ok, pure_eq_ok] at hok
  obtain ⟨listing, _, commands, ⟨natTable, _, filterTable, _, rfl⟩, hrun⟩ :=
    hok
  have hnat := manager.owns_vmNatChain vmId
  have hfilter := manager.owns_vmFilterChain vmId
  have hsupervisor : ∀ name ∈ manager.supervisorChains,
      manager.owns name = true := fun name =>
    manager.owns_supervisorChain
  have hfilters : ∀ family table, ∀ command ∈ manager.filterCommands
      listing family table vmId tap, HostSafe manager command := by
    intro family table command hcommand
    rw [NftablesManager.filterCommands, List.mem_append, List.mem_append]
      at hcommand
    rcases hcommand with (hchain | hjump) | hrule
    · exact hostSafe_addChainIfNotPresent hfilter command hchain
    · apply hostSafe_addRuleIfNotPresent (.inl _) command hjump
      exact hsupervisor _ (by simp [NftablesManager.supervisorChains])
    · exact hostSafe_addRuleIfNotPresent (.inl hfilter) command hrule
  apply Ruleset.applyBatch_hostKept _ (executeNftCommands_eq_ok hrun)
  intro command hcommand
  rw [List.mem_append, List.mem_append] at hcommand
  rcases hcommand with (hcommand | hcommand) | hcommand
  · rw [NftablesManager.natCommands, List.mem_append, List.mem_append]
      at hcommand
    rcases hcommand with (hchain | hjump) | hrule
    · exact hostSafe_addChainIfNotPresent hnat command hchain
    · apply hostSafe_addRuleIfNotPresent (.inl _) command hjump
      exact hsupervisor _ (by simp [NftablesManager.supervisorChains])
    · exact hostSafe_addRuleIfNotPresent (.inl hnat) command hrule
  · exact hfilters .ip filterTable command hcommand
  · unfold NftablesManager.ip6Commands at hcommand
    split_ifs at hcommand
    · split at hcommand
      · exact hfilters .ip6 _ command hcommand
      · simp at hcommand
    · simp at hcommand

theorem removeChainEverywhere_hostKept
    {calls : NftCalls} {name : String} (howned : manager.owns name = true)
    (hok : NftablesManager.removeChainEverywhere calls before name =
      .ok after) :
    HostKept manager blind before after := by
  have hremoved := removeChainEverywhere_namedRemoved hok
  apply HostKept.of_filter hremoved.rules hremoved.chains
  · intro rule hdropped
    simp only [Bool.not_eq_false', Bool.and_eq_true, ruleOwned,
      Bool.or_eq_true, beq_iff_eq, List.any_eq_true] at hdropped
    rcases hdropped.2 with hchain | ⟨target, htarget, hname⟩
    · simp [ruleOwned, hchain, howned]
    · simp only [ruleOwned, Bool.or_eq_true, List.any_eq_true]
      exact .inr ⟨target, htarget, hname ▸ howned⟩
  · intro chain hdropped
    simp only [Bool.not_eq_false', Bool.and_eq_true, beq_iff_eq]
      at hdropped
    rw [hdropped.2]
    exact howned

theorem addPortForward_hostKept
    {calls : NftCalls} {vmId guestIp : String} {hostPort vmPort : UInt16}
    {protocol : Net.Protocol}
    (hok : manager.addPortForward calls before vmId guestIp hostPort vmPort
      protocol = .ok after) :
    HostKept manager blind before after := by
  simp only [NftablesManager.addPortForward, bind_eq_ok,
    optionContext_eq_ok] at hok
  obtain ⟨listing, _, preroutingTable, _, filterTable, _, hrun⟩ := hok
  apply Ruleset.applyBatch_hostKept _ (executeNftCommands_eq_ok hrun)
  have hprerouting : manager.owns manager.supervisorPreroutingChain =
      true :=
    manager.owns_supervisorChain
      (by simp [NftablesManager.supervisorChains])
  intro command hcommand
  simp only [List.mem_cons, List.not_mem_nil, or_false] at hcommand
  rcases hcommand with rfl | rfl
  · exact .inl hprerouting
  · exact .inl (manager.owns_vmFilterChain vmId)

theorem removePortForward_hostKept
    {calls : NftCalls} {hostPort : UInt16} {protocol : Net.Protocol}
    (hok : manager.removePortForward calls before hostPort protocol =
      .ok after) :
    HostKept manager blind before after := by
  have hkept := removePortForward_rulesKept manager hok
  have hchains : after.chains = before.chains.filter fun _ => true := by
    rw [hkept.chains, List.filter_true]
  apply HostKept.of_filter hkept.rules hchains
  · intro rule hdropped
    simp only [Bool.not_eq_false', Bool.and_eq_true, isDnatRuleMatching,
      beq_iff_eq] at hdropped
    have hprerouting : manager.owns rule.chain = true := by
      rw [hdropped.2.1.1]
      exact manager.owns_supervisorChain
        (by simp [NftablesManager.supervisorChains])
    simp [ruleOwned, hprerouting]
  · intro chain hdropped
    cases hdropped

/-! ## Operations of several batches -/

namespace NftM

variable {α β : Type}

/-- How an operation may change a ruleset like this, also when it fails, and
what holds of its value and of the ruleset when it succeeds. -/
structure Does (P : Ruleset → Prop) (R : Ruleset → Ruleset → Prop)
    (Q : α → Ruleset → Prop) (operation : NftM α) : Prop where
  change : ∀ ruleset, P ruleset → R ruleset (operation ruleset).2
  value : ∀ ruleset value after, P ruleset →
    operation ruleset = (.ok value, after) → Q value after

variable {P : Ruleset → Prop} {R : Ruleset → Ruleset → Prop}
  {Q : α → Ruleset → Prop} {S : β → Ruleset → Prop}

theorem Does.pure
    (hrefl : ∀ ruleset, R ruleset ruleset) {value : α}
    (hvalue : ∀ ruleset, P ruleset → Q value ruleset) :
    Does P R Q (pure value : NftM α) where
  change := fun ruleset _ => hrefl ruleset
  value := by
    intro ruleset found after hbefore hfound
    cases hfound
    exact hvalue ruleset hbefore

theorem Does.bind
    (htrans : ∀ first second third, R first second → R second third →
      R first third)
    {first : NftM α} {next : α → NftM β} (hfirst : Does P R Q first)
    (hnext : ∀ value, Does (Q value) R S (next value)) :
    Does P R S (first >>= next) where
  change := by
    intro ruleset hbefore
    have hchange := hfirst.change ruleset hbefore
    have hvalue := fun value after => hfirst.value ruleset value after hbefore
    rw [bind_apply]
    cases hresult : first ruleset with
    | mk outcome middle =>
        rw [hresult] at hchange
        cases outcome with
        | error message => exact hchange
        | ok value =>
            have hrest := (hnext value).change middle
              (hvalue value middle hresult)
            exact htrans ruleset middle _ hchange hrest
  value := by
    intro ruleset found after hbefore hfound
    obtain ⟨value, middle, hresult, hrest⟩ := NftM.bind_eq_ok.mp hfound
    exact (hnext value).value middle found after
      (hfirst.value ruleset value middle hbefore hresult) hrest

theorem Does.mono {weaker : α → Ruleset → Prop} {operation : NftM α}
    (hdoes : Does P R Q operation)
    (hweaker : ∀ value ruleset, Q value ruleset → weaker value ruleset) :
    Does P R weaker operation where
  change := hdoes.change
  value := fun ruleset value after hbefore hok =>
    hweaker value after (hdoes.value ruleset value after hbefore hok)

theorem Does.commit
    (hrefl : ∀ ruleset, R ruleset ruleset)
    {call : Ruleset → Except String Ruleset}
    (hcall : ∀ before after, P before → call before = .ok after →
      R before after) :
    Does P R (fun _ _ => True) (commit call) where
  change := by
    intro ruleset hbefore
    unfold NftM.commit
    cases hresult : call ruleset with
    | error message => exact hrefl ruleset
    | ok next => exact hcall ruleset next hbefore hresult
  value := fun _ _ _ _ _ => trivial

theorem commit_of_error
    {call : Ruleset → Except String Ruleset} {ruleset after : Ruleset}
    {message : String}
    (hfailed : commit call ruleset = (.error message, after)) :
    after = ruleset := by
  unfold commit at hfailed
  split at hfailed <;> cases hfailed
  rfl

theorem Does.listRuleset
    (hrefl : ∀ ruleset, R ruleset ruleset) {list : Family → ListOutcome}
    {Q : Listing → Ruleset → Prop}
    (hlisted : ∀ ruleset listing, P ruleset →
      executeListRuleset list ruleset = .ok listing → Q listing ruleset) :
    Does P R Q (listRuleset list) where
  change := fun ruleset _ => hrefl ruleset
  value := by
    intro ruleset listing after hbefore hok
    obtain ⟨hlisting, rfl⟩ := Prod.mk.inj hok
    exact hlisted ruleset listing hbefore hlisting

end NftM

theorem bind_hostKept
    {α β : Type} {P : Ruleset → Prop} {Q : α → Ruleset → Prop}
    {S : β → Ruleset → Prop} {first : NftM α} {next : α → NftM β}
    (hfirst : NftM.Does P (HostKept manager blind) Q first)
    (hnext : ∀ value,
      NftM.Does (Q value) (HostKept manager blind) S (next value)) :
    NftM.Does P (HostKept manager blind) S (first >>= next) := by
  apply NftM.Does.bind _ hfirst hnext
  intro before middle after hearlier hlater
  exact hearlier.trans hlater

theorem runCommands_hostKept
    {P : Ruleset → Prop} {outcome : BatchOutcome}
    {commands : List NftCommand}
    (hsafe : ∀ ruleset, P ruleset →
      ∀ command ∈ commands, HostSafe manager command) :
    NftM.Does P (HostKept manager blind) (fun _ _ => True)
      (NftM.runCommands outcome commands) := by
  apply NftM.Does.commit .refl
  intro before after hbefore hok
  exact Ruleset.applyBatch_hostKept (hsafe before hbefore)
    (executeNftCommands_eq_ok hok)

/-! ## Base chains -/

/-- Where the listing shows no chain for one of these hooks, there is none, or
the family is one of which it may show nothing. -/
def Unhooked (blind : Family → Prop) (family : Family) (listing : Listing)
    (hooks : List String) (ruleset : Ruleset) : Prop :=
  ∀ hook ∈ hooks, findTableForHook listing hook family = none →
    blind family ∨ ruleset.hookView family hook = []

theorem executed_of_list
    {list : Family → ListOutcome} {ruleset : Ruleset} {listing : Listing}
    (hlisted : executeListRuleset list ruleset = .ok listing)
    (family : Family) (message : String) :
    list family ≠ .notExecuted message := by
  intro hfailed
  unfold executeListRuleset at hlisted
  obtain ⟨ip, hip, hrest⟩ := bind_eq_ok.mp hlisted
  obtain ⟨ip6, hip6, -⟩ := bind_eq_ok.mp hrest
  cases family with
  | ip =>
      rw [hfailed] at hip
      cases hip
  | ip6 =>
      rw [hfailed] at hip6
      cases hip6

theorem unhooked_of_list
    {list : Family → ListOutcome} {family : Family}
    (hblind : list family = .unusable → blind family)
    {ruleset : Ruleset} {listing : Listing}
    (hlisted : executeListRuleset list ruleset = .ok listing)
    (hooks : List String) :
    Unhooked blind family listing hooks ruleset := by
  intro hook _ hnone
  cases houtcome : list family with
  | unusable => exact .inl (hblind houtcome)
  | notExecuted message =>
      exact absurd houtcome (executed_of_list hlisted family message)
  | listed =>
      rw [findTableForHook_of_list hlisted, if_pos houtcome,
        Option.map_eq_none_iff, List.head?_eq_none_iff] at hnone
      exact .inr hnone

/-- A chain that is created does not change one that is there, unless the
listing has left it out. -/
theorem BaseCreated.hostKept
    {chain : Chain} (hcreated : BaseCreated chain before after)
    (hdefault : chain.Default) {hook : String}
    (hhook : chain.hook = some hook)
    (hseen : blind chain.family ∨
      before.hookView chain.family hook = []) :
    HostKept manager blind before after := by
  rcases hcreated.chains with ⟨-, hchains⟩ | ⟨hhooked, hchains⟩
  · exact .of_chain hcreated.rules hchains fun _ => hdefault
  · apply HostKept.of_rebase hcreated.rules hchains hhooked
    intro _
    refine ⟨hdefault, hseen.resolve_right ?_⟩
    intro hnone
    obtain ⟨base, hbase, -⟩ := Option.map_eq_some_iff.mp hhook
    obtain ⟨existing, hexisting, hkey, hlike⟩ := hhooked
    have hsame := (rebase_same hbase ⟨existing, hexisting, hkey, hlike⟩
      hexisting).2 chain.family hook
    have hfamily : existing.family = chain.family :=
      congrArg Prod.fst hkey
    have hhooks : (chain.rebase existing).hooksInto chain.family hook =
        true := by
      rw [Chain.rebase, if_pos hkey]
      simpa [Chain.hooksInto, Chain.hook, hfamily] using hhook
    rw [Ruleset.hookView, List.map_eq_nil_iff, List.filter_eq_nil_iff]
      at hnone
    exact hnone existing hexisting (hsame.symm.trans hhooks)

theorem findOrCreateTableForHook_of_error
    {outcome : BatchOutcome} {listing : Listing} {hook : String}
    {family : Family} {ruleset : Ruleset} {message : String}
    (hfailed : findOrCreateTableForHook outcome listing hook family ruleset =
      (.error message, after)) : after = ruleset := by
  unfold findOrCreateTableForHook at hfailed
  cases hfound : findTableForHook listing hook family with
  | some table =>
      rw [hfound] at hfailed
      cases hfailed
  | none =>
      rw [hfound] at hfailed
      cases hdefault : defaultBase hook with
      | none =>
          rw [hdefault] at hfailed
          cases hfailed
          rfl
      | some default =>
          rw [hdefault] at hfailed
          simp only [NftM.bind_apply] at hfailed
          split at hfailed
          · rename_i hcommands
            cases hfailed
            exact NftM.commit_of_error hcommands
          · cases hfailed

/-- An error leaves the ruleset, and else a chain has been created if none was
found. -/
theorem findOrCreateTableForHook_cases
    (outcome : BatchOutcome) (listing : Listing) (hook : String)
    (family : Family) (ruleset : Ruleset) :
    (findOrCreateTableForHook outcome listing hook family ruleset).2 =
        ruleset ∨
      findTableForHook listing hook family = none ∧
        ∃ table chainType prio,
          defaultBase hook = some (table, chainType, prio) ∧
          BaseCreated (defaultChain family table chainType prio hook)
            ruleset
            (findOrCreateTableForHook outcome listing hook family
              ruleset).2 := by
  cases hresult : findOrCreateTableForHook outcome listing hook family
      ruleset with
  | mk result after =>
      cases result with
      | ok table =>
          rcases findOrCreateTableForHook_eq_ok hresult with
            ⟨-, hsame⟩ | ⟨hnone, chainType, prio, hdefault, hcreated⟩
          · exact .inl hsame
          · exact .inr ⟨hnone, table, chainType, prio, hdefault, hcreated⟩
      | error message =>
          exact .inl (findOrCreateTableForHook_of_error hresult)

theorem findOrCreateTableForHook_hostKept
    (outcome : BatchOutcome) (listing : Listing) {hook : String}
    {hooks : List String} (hnew : hook ∉ hooks) (family : Family) :
    NftM.Does (Unhooked blind family listing (hook :: hooks))
      (HostKept manager blind)
      (fun _ => Unhooked blind family listing hooks)
      (findOrCreateTableForHook outcome listing hook family) where
  change := by
    intro ruleset hunhooked
    rcases findOrCreateTableForHook_cases outcome listing hook family
        ruleset with hsame | ⟨hnone, table, chainType, prio, hdefault,
          hcreated⟩
    · rw [hsame]
      exact .refl ruleset
    · exact hcreated.hostKept ⟨hook, table, chainType, prio, hdefault, rfl⟩
        rfl (hunhooked hook List.mem_cons_self hnone)
  value := by
    intro ruleset table after hunhooked hok other hother hnone
    have hbefore := hunhooked other (List.mem_cons_of_mem hook hother) hnone
    rcases findOrCreateTableForHook_eq_ok hok with
      ⟨-, rfl⟩ | ⟨-, chainType, prio, -, hcreated⟩
    · exact hbefore
    · rcases hbefore with hblind | hunused
      · exact .inl hblind
      · right
        have hne : hook ≠ other := fun heq => hnew (heq ▸ hother)
        rw [hcreated.view_of_other rfl]
        · exact hunused
        · simp [Chain.hooksInto, Chain.hook, defaultChain, hne]

/-! ## Initialising -/

theorem hostSafe_supervisorCommands
    {listing : Listing} {family : Family} {table hook name : String}
    (hname : name ∈ manager.supervisorChains) :
    ∀ command ∈ supervisorCommands listing family table hook name,
      HostSafe manager command := by
  intro command hcommand
  rcases List.mem_append.mp hcommand with hchain | hjump
  · exact hostSafe_addChainIfNotPresent
      (manager.owns_supervisorChain hname) command hchain
  · exact hostSafe_addRuleIfNotPresent (.inr ⟨name, hname, rfl⟩) command
      hjump

theorem hostSafe_supervisorFilterCommands
    (listing : Listing) (family : Family) (table : String) :
    ∀ command ∈ manager.supervisorFilterCommands listing family table,
      HostSafe manager command := by
  have hname : manager.supervisorFilterChain ∈ manager.supervisorChains := by
    simp [NftablesManager.supervisorChains]
  intro command hcommand
  rcases List.mem_append.mp hcommand with hsupervisor | hconntrack
  · exact hostSafe_supervisorCommands hname command hsupervisor
  · exact hostSafe_addRuleIfNotPresent
      (.inl (manager.owns_supervisorChain hname)) command hconntrack

/-- The listing in which the base chains of the family are looked for shows
nothing of it. -/
def InitializeCalls.BlindTo (manager : NftablesManager)
    (calls : InitializeCalls) : Family → Prop
  | .ip => calls.list .ip = .unusable
  | .ip6 => manager.ipv6Enabled = true ∧ calls.list6 .ip6 = .unusable

theorem initializeChains6_hostKept
    {calls : InitializeCalls}
    (hblind : ∀ family, calls.BlindTo manager family → blind family)
    {P : Ruleset → Prop} :
    NftM.Does P (HostKept manager blind)
      (fun commands _ => ∀ command ∈ commands, HostSafe manager command)
      (manager.initializeChains6 calls) := by
  unfold NftablesManager.initializeChains6
  split_ifs with henabled
  · have hseen : calls.list6 .ip6 = .unusable → blind .ip6 :=
      fun hunusable => hblind .ip6 ⟨henabled, hunusable⟩
    apply bind_hostKept (NftM.Does.listRuleset .refl
      fun _ _ _ hlisted => unhooked_of_list hseen hlisted ["forward"])
    intro listing
    apply bind_hostKept
      (findOrCreateTableForHook_hostKept _ _ List.not_mem_nil _)
    intro table
    apply bind_hostKept (NftM.Does.listRuleset .refl
      fun _ _ _ _ => trivial)
    intro relisted
    exact .pure .refl fun _ _ =>
      hostSafe_supervisorFilterCommands relisted .ip6 table
  · apply NftM.Does.pure .refl
    simp

/-- Also an initialisation that fails somewhere leaves the host's rules. -/
theorem initializeChains_hostKept
    {calls : InitializeCalls}
    (hblind : ∀ family, calls.BlindTo manager family → blind family)
    (ruleset : Ruleset) :
    HostKept manager blind ruleset
      (manager.initializeChains calls ruleset).2 := by
  have hdoes : NftM.Does (fun _ => True) (HostKept manager blind)
      (fun _ _ => True) (manager.initializeChains calls) := by
    unfold NftablesManager.initializeChains
    apply bind_hostKept (NftM.Does.listRuleset .refl
      fun _ _ _ hlisted => unhooked_of_list (hblind .ip) hlisted
        ["postrouting", "forward", "prerouting"])
    intro listing
    apply bind_hostKept
      (findOrCreateTableForHook_hostKept _ _ (by decide) _)
    intro natTable
    apply bind_hostKept
      (findOrCreateTableForHook_hostKept _ _ (by decide) _)
    intro filterTable
    apply bind_hostKept
      (findOrCreateTableForHook_hostKept _ _ (by decide) _)
    intro preroutingTable
    apply bind_hostKept (NftM.Does.listRuleset (Q := fun _ _ => True) .refl
      fun _ _ _ _ => trivial)
    intro relisted
    apply bind_hostKept (initializeChains6_hostKept hblind)
    intro commands6
    apply runCommands_hostKept
    intro _ hcommands6 command hcommand
    simp only [List.mem_append] at hcommand
    rcases hcommand with ((hnat | hfilter) | hprerouting) | hsix
    · exact hostSafe_supervisorCommands
        (by simp [NftablesManager.supervisorChains]) command hnat
    · exact hostSafe_supervisorFilterCommands _ _ _ command hfilter
    · exact hostSafe_supervisorCommands
        (by simp [NftablesManager.supervisorChains]) command hprerouting
    · exact hcommands6 command hsix
  exact hdoes.change ruleset trivial

end AlephCvm.Nft

namespace AlephCvm.Vm

open AlephCvm.Nft StepRuns

variable {cfg : NodeConfig}

theorem NftChange.hostKept
    {manager : NftablesManager} {blind : Family → Prop}
    {before after : Ruleset} (hchange : NftChange manager before after) :
    HostKept manager blind before after := by
  cases hchange with
  | setUp calls vmId tap after hok => exact setupVm_hostKept hok
  | removeChain calls vmId name after hname hok =>
      exact removeChainEverywhere_hostKept (manager.owns_of_vmChain hname)
        hok
  | addForward calls vmId guestIp hostPort vmPort protocol after hok =>
      exact addPortForward_hostKept hok
  | removeForward calls hostPort protocol after hok =>
      exact removePortForward_hostKept hok

/-- Some start of the server saw nothing of the family. -/
def StartedBlind (cfg : NodeConfig) (events : List ServerEvent)
    (family : Family) : Prop :=
  ∃ calls, ServerEvent.start calls ∈ events ∧
    calls.nft.BlindTo cfg.nftables family

theorem serverRun_hostKept
    (node : Node cfg) (events : List ServerEvent) :
    HostKept cfg.nftables (StartedBlind cfg events) node.ruleset
      (run Node.serverStep node events).ruleset :=
  Node.serverRun_relates
    (R := HostKept cfg.nftables (StartedBlind cfg events)) .refl
    (fun _ _ _ hfirst hsecond => hfirst.trans hsecond)
    (fun calls hstart ruleset => initializeChains_hostKept
      (fun _ hblind => ⟨calls, hstart, hblind⟩) ruleset)
    (fun _ _ hchange => hchange.hostKept) node

end AlephCvm.Vm
