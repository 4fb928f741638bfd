import AlephCvm.FreshSupervisor
import AlephCvm.StepRuns

/-!
# Installing machines and forwards

Runs of `setup_vm` and `add_port_forward` in any order and with any outcomes
of their nft calls, together with what was installed.  After `initialize` on
an unused host the contents of the two chains that packets for machines go
through follow from the installed machines and forwards alone.
-/

namespace AlephCvm.Nft

open ResultContext StepRuns AlephCvm.Net

structure InstalledForward extends PortForward where
  guestIp : Ipv4Addr
  deriving DecidableEq, Repr

/-- The ruleset, the machines that were set up with their tap devices, and
the forwards that were added, oldest first. -/
structure Installed where
  ruleset : Ruleset
  machines : List (String × String)
  forwards : List InstalledForward

inductive InstallOp where
  | setupVm (calls : NftCalls) (vmId tapDevice : String)
  | addPortForward (calls : NftCalls) (forward : InstalledForward)

def Installed.start (ruleset : Ruleset) : Installed := ⟨ruleset, [], []⟩

def InstalledForward.dnatExpr (forward : InstalledForward) : List RuleExpr :=
  forwardExpr (ipv4Text forward.guestIp) forward.toPortForward

def InstalledForward.acceptExpr (forward : InstalledForward) :
    List RuleExpr :=
  portAcceptExpr forward.vmPort forward.protocol

namespace NftablesManager

variable (manager : NftablesManager)

def install (installed : Installed) : InstallOp → Installed
  | .setupVm calls vmId tapDevice =>
      match manager.setupVm calls installed.ruleset vmId tapDevice with
      | .ok next => { installed with
          ruleset := next
          machines := installed.machines ++ [(vmId, tapDevice)] }
      | .error _ => installed
  | .addPortForward calls forward =>
      match manager.addPortForward calls installed.ruleset forward.vmId
          (ipv4Text forward.guestIp) forward.hostPort forward.vmPort
          forward.protocol with
      | .ok next => { installed with
          ruleset := next
          forwards := installed.forwards ++ [forward] }
      | .error _ => installed

/-- An invariant only has to be kept by the operations that succeed. -/
theorem install_invariant {manager : NftablesManager}
    {Inv : Installed → Prop}
    (hsetup : ∀ installed calls vmId tap next, Inv installed →
      manager.setupVm calls installed.ruleset vmId tap = .ok next →
      Inv { installed with
        ruleset := next
        machines := installed.machines ++ [(vmId, tap)] })
    (hforward : ∀ installed forward preroutingTable filterTable next,
      Inv installed →
      ForwardAdded manager forward.vmId (ipv4Text forward.guestIp)
        forward.toPortForward preroutingTable filterTable installed.ruleset
        next →
      Inv { installed with
        ruleset := next
        forwards := installed.forwards ++ [forward] })
    {installed : Installed} (ops : List InstallOp) (hinit : Inv installed) :
    Inv (run manager.install installed ops) := by
  apply run_invariant _ ops hinit
  intro installed op hinv
  cases op with
  | setupVm calls vmId tapDevice =>
      unfold install
      cases hok : manager.setupVm calls installed.ruleset vmId tapDevice with
      | error message => simpa only [hok] using hinv
      | ok next =>
          simpa only [hok] using hsetup _ _ _ _ _ hinv hok
  | addPortForward calls forward =>
      unfold install
      cases hok : manager.addPortForward calls installed.ruleset
          forward.vmId (ipv4Text forward.guestIp) forward.hostPort
          forward.vmPort forward.protocol with
      | error message => simpa only [hok] using hinv
      | ok next =>
          obtain ⟨preroutingTable, filterTable, hadded⟩ :=
            addPortForward_added hok
          simpa only [hok] using hforward _ _ _ _ _ hinv hadded

/-! ## The prerouting chain -/

/-- The chain holds the rules of the forwards, in their order. -/
structure PreroutingLayout (table : String) (installed : Installed) :
    Prop where
  found : getTableForChain installed.ruleset.listing .ip
    manager.supervisorPreroutingChain = some table
  rules : (installed.ruleset.rulesOf
      (.ip, table, manager.supervisorPreroutingChain)).map Rule.expr =
    installed.forwards.map InstalledForward.dnatExpr

variable {manager} {table : String} {installed : Installed}
  {next : Ruleset}

theorem PreroutingLayout.setupVm {calls : NftCalls} {vmId tap : String}
    (hlayout : manager.PreroutingLayout table installed)
    (hok : manager.setupVm calls installed.ruleset vmId tap = .ok next) :
    manager.PreroutingLayout table { installed with
      ruleset := next
      machines := installed.machines ++ [(vmId, tap)] } := by
  obtain ⟨listing, _, hgrows, added, hrules, hkinds⟩ := setupVm_rules hok
  constructor
  · exact getTableForChain_grows hgrows hlayout.found
  · have hnone : (added.filter fun rule => rule.chainKey ==
        (.ip, table, manager.supervisorPreroutingChain)) = [] := by
      rw [List.filter_eq_nil_iff]
      intro rule hmem hkey
      have hname : rule.content.1.2.2 = manager.supervisorPreroutingChain :=
        Rule.chain_of_chainKey (eq_of_beq hkey)
      rcases (hkinds rule hmem).chain with hchain | hchain | hchain | hchain
      · exact manager.supervisorNatChain_ne_prerouting
          (hchain.symm.trans hname)
      · exact manager.supervisorFilterChain_ne_prerouting
          (hchain.symm.trans hname)
      · exact (manager.vmNatChain_ne_supervisor vmId).2.2
          (hchain.symm.trans hname)
      · exact (manager.vmFilterChain_ne_supervisor vmId).2.2
          (hchain.symm.trans hname)
    rw [← hlayout.rules, Ruleset.rulesOf, hrules, List.filter_append,
      hnone, List.append_nil]
    rfl

theorem PreroutingLayout.addPortForward {forward : InstalledForward}
    {preroutingTable filterTable : String}
    (hlayout : manager.PreroutingLayout table installed)
    (hadded : ForwardAdded manager forward.vmId (ipv4Text forward.guestIp)
      forward.toPortForward preroutingTable filterTable installed.ruleset
      next) :
    manager.PreroutingLayout table { installed with
      ruleset := next
      forwards := installed.forwards ++ [forward] } := by
  have hsame : preroutingTable = table := by
    have hfound := hadded.prerouting
    rw [hlayout.found, Option.some.injEq] at hfound
    exact hfound.symm
  subst hsame
  constructor
  · have hlisted := hlayout.found
    rw [getTableForChain_listing] at hlisted ⊢
    rw [hadded.chains]
    exact hlisted
  · have hother := (manager.vmFilterChain_ne_supervisor forward.vmId).2.2
    rw [List.map_append, ← hlayout.rules, Ruleset.rulesOf, hadded.rules,
      List.filter_append, List.map_append]
    simp [Rule.chainKey, hother, InstalledForward.dnatExpr,
      Ruleset.rulesOf]

theorem Clean.preroutingLayout {ruleset : Ruleset}
    (hclean : manager.Clean ruleset) :
    ∃ table, manager.PreroutingLayout table (.start ruleset) := by
  obtain ⟨table, htable⟩ := hclean.prerouting
  refine ⟨table, htable, ?_⟩
  rw [Ruleset.rulesOf, List.filter_eq_nil_iff.mpr]
  · rfl
  · intro rule hmem hkey
    have hname : rule.chain = manager.supervisorPreroutingChain :=
      Rule.chain_of_chainKey (eq_of_beq hkey)
    have hrule := (hclean.rules rule hmem (.inr (.inl hname))).1
    exact manager.supervisorFilterChain_ne_prerouting
      (hrule.symm.trans hname)

theorem preroutingLayout_run (ops : List InstallOp)
    (hlayout : manager.PreroutingLayout table installed) :
    manager.PreroutingLayout table (run manager.install installed ops) :=
  install_invariant (fun _ _ _ _ _ hinv hok => hinv.setupVm hok)
    (fun _ _ _ _ _ hinv hadded => hinv.addPortForward hadded) ops hlayout

/-! ## The filter chains -/

/-- What the supervisor's filter chain and the chains of the machines hold,
all in one table. -/
structure FilterLayout (manager : NftablesManager) (table : String)
    (installed : Installed) : Prop where
  found : getTableForChain installed.ruleset.listing .ip
    manager.supervisorFilterChain = some table
  chains : ∀ other vmId,
    installed.ruleset.HasChain (.ip, other, manager.vmFilterChain vmId) →
      other = table ∧ ∃ tap, (vmId, tap) ∈ installed.machines
  supervisor : ∀ rule ∈ installed.ruleset.rules,
    rule.chainKey = (.ip, table, manager.supervisorFilterChain) →
      rule.expr = conntrackExpr ∨
        ∃ vmId, rule.expr = [.jump (manager.vmFilterChain vmId)]
  machine : ∀ rule ∈ installed.ruleset.rules, ∀ vmId,
    rule.chainKey = (.ip, table, manager.vmFilterChain vmId) →
      (∃ tap, rule.expr =
        forwardAcceptExpr tap manager.externalInterface) ∨
      ∃ forward ∈ installed.forwards, forward.vmId = vmId ∧
        rule.expr = forward.acceptExpr
  jumps : ∀ machine ∈ installed.machines,
    installed.ruleset.HasRule (.ip, table, manager.supervisorFilterChain)
      fun rule => ruleJumpsTo rule (manager.vmFilterChain machine.1)
  accepts : ∀ forward ∈ installed.forwards,
    (∃ tap, (forward.vmId, tap) ∈ installed.machines) ∧
      ∃ rule ∈ installed.ruleset.rules,
        rule.chainKey = (.ip, table, manager.vmFilterChain forward.vmId) ∧
          rule.expr = forward.acceptExpr

/-- The filter chain of a machine goes into the table of the supervisor's. -/
theorem table_of_addChain_filterCommands {listing : Listing}
    {family : Family} {vmId tap : String} {chain : Chain}
    (hmem : .addChain chain ∈
      manager.filterCommands listing family table vmId tap) :
    chain.key = (family, table, manager.vmFilterChain vmId) := by
  simp only [filterCommands, List.mem_append] at hmem
  rcases hmem with (hchain | hjump) | haccept
  · exact key_of_addChainIfNotPresent hchain
  · exact absurd hjump not_addChain_of_addRuleIfNotPresent
  · exact absurd haccept not_addChain_of_addRuleIfNotPresent

theorem table_of_addChain_setupCommands {listing : Listing}
    {vmId tap other id : String} {commands : List NftCommand} {chain : Chain}
    (hcommands : manager.setupCommands listing vmId tap = .ok commands)
    (hmem : .addChain chain ∈ commands)
    (hkey : chain.key = (.ip, other, manager.vmFilterChain id)) :
    getTableForChain listing .ip manager.supervisorFilterChain =
      some other ∧ id = vmId := by
  unfold setupCommands at hcommands
  obtain ⟨natTable, _, hrest⟩ := bind_eq_ok.mp hcommands
  obtain ⟨filterTable, hfilter, hlist⟩ := bind_eq_ok.mp hrest
  rw [optionContext_eq_ok] at hfilter
  cases hlist
  simp only [List.mem_append] at hmem
  rcases hmem with (hmem | hmem) | hmem
  · simp only [natCommands, List.mem_append] at hmem
    rcases hmem with (hchain | hjump) | hmasquerade
    · have hnat := key_of_addChainIfNotPresent hchain
      rw [hkey, Prod.mk.injEq, Prod.mk.injEq] at hnat
      exact absurd hnat.2.2.symm (manager.vmNatChain_ne_vmFilterChain _ _)
    · exact absurd hjump not_addChain_of_addRuleIfNotPresent
    · exact absurd hmasquerade not_addChain_of_addRuleIfNotPresent
  · have hfound := table_of_addChain_filterCommands hmem
    rw [hkey, Prod.mk.injEq, Prod.mk.injEq] at hfound
    rw [hfound.2.1]
    exact ⟨hfilter, manager.vmFilterChain_injective hfound.2.2⟩
  · unfold ip6Commands at hmem
    split at hmem
    · split at hmem
      · have hfound := table_of_addChain_filterCommands hmem
        rw [hkey, Prod.mk.injEq] at hfound
        cases hfound.1
      · cases hmem
    · cases hmem

theorem SetupRule.of_supervisorFilterChain {listing : Listing}
    {vmId tap : String} {key : ChainKey} {expr : List RuleExpr}
    (hsetup : manager.SetupRule listing vmId tap (key, expr))
    (hname : key.2.2 = manager.supervisorFilterChain) :
    expr = [.jump (manager.vmFilterChain vmId)] := by
  cases hsetup with
  | natJump table htable =>
      exact absurd hname manager.supervisorNatChain_ne_filter
  | masquerade table htable =>
      exact absurd hname (manager.vmNatChain_ne_supervisor vmId).2.1
  | filterJump family table htable => rfl
  | forwardAccept family table htable =>
      exact absurd hname (manager.vmFilterChain_ne_supervisor vmId).2.1

theorem SetupRule.of_vmFilterChain {listing : Listing}
    {vmId tap id : String} {key : ChainKey} {expr : List RuleExpr}
    (hsetup : manager.SetupRule listing vmId tap (key, expr))
    (hname : key.2.2 = manager.vmFilterChain id) :
    expr = forwardAcceptExpr tap manager.externalInterface := by
  cases hsetup with
  | natJump table htable =>
      exact absurd hname.symm (manager.vmFilterChain_ne_supervisor id).1
  | masquerade table htable =>
      exact absurd hname (manager.vmNatChain_ne_vmFilterChain vmId id)
  | filterJump family table htable =>
      exact absurd hname.symm (manager.vmFilterChain_ne_supervisor id).2.1
  | forwardAccept family table htable => rfl

/-- Everything about the chains of a machine after its setup. -/
structure FilterAdded (manager : NftablesManager) (vmId tap : String)
    (table : String) (before after : Ruleset) : Prop where
  grows : before.Grows after
  chains : ∀ other id,
    after.HasChain (.ip, other, manager.vmFilterChain id) →
      before.HasChain (.ip, other, manager.vmFilterChain id) ∨
        other = table ∧ id = vmId
  supervisor : ∀ rule ∈ after.rules,
    rule.chainKey = (.ip, table, manager.supervisorFilterChain) →
      rule ∈ before.rules ∨
        rule.expr = [.jump (manager.vmFilterChain vmId)]
  machine : ∀ rule ∈ after.rules, ∀ id,
    rule.chainKey = (.ip, table, manager.vmFilterChain id) →
      rule ∈ before.rules ∨
        rule.expr = forwardAcceptExpr tap manager.externalInterface
  jump : after.HasRule (.ip, table, manager.supervisorFilterChain)
    fun rule => ruleJumpsTo rule (manager.vmFilterChain vmId)

theorem setupVm_filterAdded {calls : NftCalls} {vmId tap : String}
    {before after : Ruleset}
    (htable : getTableForChain before.listing .ip
      manager.supervisorFilterChain = some table)
    (hok : manager.setupVm calls before vmId tap = .ok after) :
    manager.FilterAdded vmId tap table before after := by
  unfold NftablesManager.setupVm at hok
  obtain ⟨listing, hlisting, hrest⟩ := bind_eq_ok.mp hok
  obtain ⟨commands, hcommands, hrun⟩ := bind_eq_ok.mp hrest
  have hbatch := executeNftCommands_eq_ok hrun
  have hset := setupCommands_setUp (executeListRuleset_trueOf hlisting)
    hcommands hbatch
  have hsame : ∀ other, getTableForChain listing .ip
      manager.supervisorFilterChain = some other → other = table := by
    intro other hother
    have hwhole := getTableForChain_of_list hlisting hother
    rw [htable, Option.some.injEq] at hwhole
    exact hwhole.symm
  have hadds := adds_setupCommands hcommands
  constructor
  · exact Ruleset.applyBatch_grows hadds hbatch
  · intro other id hchain
    rcases Ruleset.hasChain_of_applyBatch hbatch hchain with
      hold | ⟨chain, hkey, hmem⟩
    · exact .inl hold
    · obtain ⟨hfound, hid⟩ :=
        table_of_addChain_setupCommands hcommands hmem hkey
      exact .inr ⟨hsame other hfound, hid⟩
  · intro rule hmem hkey
    rcases Ruleset.mem_rules_of_applyBatch hbatch hmem with hold | hadded
    · exact .inl hold
    · have hkind := setupRule_of_setupCommands hcommands hadded
      exact .inr (hkind.of_supervisorFilterChain (by rw [hkey]))
  · intro rule hmem id hkey
    rcases Ruleset.mem_rules_of_applyBatch hbatch hmem with hold | hadded
    · exact .inl hold
    · have hkind := setupRule_of_setupCommands hcommands hadded
      have hname : rule.chainKey.2.2 = manager.vmFilterChain id := by
        rw [hkey]
      exact .inr (hkind.of_vmFilterChain hname)
  · obtain ⟨other, hother, hfilter⟩ := hset.filter
    rw [hsame other hother] at hfilter
    exact hfilter.jump

theorem FilterLayout.setupVm {calls : NftCalls} {vmId tap : String}
    (hlayout : manager.FilterLayout table installed)
    (hok : manager.setupVm calls installed.ruleset vmId tap = .ok next) :
    manager.FilterLayout table { installed with
      ruleset := next
      machines := installed.machines ++ [(vmId, tap)] } := by
  have hadded := setupVm_filterAdded hlayout.found hok
  constructor
  · exact getTableForChain_grows hadded.grows hlayout.found
  · intro other id hchain
    rcases hadded.chains other id hchain with hold | ⟨rfl, rfl⟩
    · obtain ⟨hother, found, hmem⟩ := hlayout.chains other id hold
      exact ⟨hother, found, List.mem_append_left _ hmem⟩
    · exact ⟨rfl, tap, List.mem_append_right _ List.mem_cons_self⟩
  · intro rule hmem hkey
    rcases hadded.supervisor rule hmem hkey with hold | hjump
    · exact hlayout.supervisor rule hold hkey
    · exact .inr ⟨vmId, hjump⟩
  · intro rule hmem id hkey
    rcases hadded.machine rule hmem id hkey with hold | haccept
    · exact hlayout.machine rule hold id hkey
    · exact .inl ⟨tap, haccept⟩
  · intro machine hmem
    rcases List.mem_append.mp hmem with hold | hnew
    · exact (hlayout.jumps machine hold).grows hadded.grows
    · rw [List.mem_singleton.mp hnew]
      exact hadded.jump
  · intro forward hmem
    obtain ⟨⟨found, hmachine⟩, rule, hrule, hkey, hexpr⟩ :=
      hlayout.accepts forward hmem
    exact ⟨⟨found, List.mem_append_left _ hmachine⟩, rule,
      hadded.grows.rules.subset hrule, hkey, hexpr⟩

theorem FilterLayout.addPortForward {forward : InstalledForward}
    {preroutingTable filterTable : String}
    (hlayout : manager.FilterLayout table installed)
    (hadded : ForwardAdded manager forward.vmId (ipv4Text forward.guestIp)
      forward.toPortForward preroutingTable filterTable installed.ruleset
      next) :
    manager.FilterLayout table { installed with
      ruleset := next
      forwards := installed.forwards ++ [forward] } := by
  obtain ⟨rfl, hmachine⟩ := hlayout.chains filterTable forward.vmId
    (hasChain_of_getTableForChain hadded.filter)
  have hne := manager.vmFilterChain_ne_supervisor forward.vmId
  have hgrows : installed.ruleset.Grows next := by
    constructor
    · rw [hadded.chains]
    · rw [hadded.rules]
      exact List.prefix_append _ _
  constructor
  · exact getTableForChain_grows hgrows hlayout.found
  · intro other id hchain
    rw [Ruleset.HasChain, hadded.chains] at hchain
    exact hlayout.chains other id hchain
  · intro rule hmem hkey
    rw [hadded.rules] at hmem
    rcases List.mem_append.mp hmem with hold | hnew
    · exact hlayout.supervisor rule hold hkey
    · have hname : rule.chain = manager.supervisorFilterChain :=
        Rule.chain_of_chainKey hkey
      rcases List.mem_pair.mp hnew with rfl | rfl
      · exact absurd hname.symm manager.supervisorFilterChain_ne_prerouting
      · exact absurd hname hne.2.1
  · intro rule hmem id hkey
    rw [hadded.rules] at hmem
    have hname : rule.chain = manager.vmFilterChain id :=
      Rule.chain_of_chainKey hkey
    rcases List.mem_append.mp hmem with hold | hnew
    · rcases hlayout.machine rule hold id hkey with
        haccept | ⟨found, hfound, howner, hexpr⟩
      · exact .inl haccept
      · exact .inr ⟨found, List.mem_append_left _ hfound, howner, hexpr⟩
    · rcases List.mem_pair.mp hnew with rfl | rfl
      · exact absurd hname.symm
          (manager.vmFilterChain_ne_supervisor id).2.2
      · exact .inr ⟨forward, List.mem_append_right _ List.mem_cons_self,
          manager.vmFilterChain_injective hname, rfl⟩
  · intro machine hmem
    exact (hlayout.jumps machine hmem).grows hgrows
  · intro found hmem
    rcases List.mem_append.mp hmem with hold | hnew
    · obtain ⟨howner, rule, hrule, hexpr⟩ := hlayout.accepts found hold
      exact ⟨howner, rule, hgrows.rules.subset hrule, hexpr⟩
    · rw [List.mem_singleton.mp hnew]
      have hrule : (⟨.ip, filterTable, manager.vmFilterChain forward.vmId,
          installed.ruleset.nextHandle + 1, forward.acceptExpr⟩ : Rule) ∈
            next.rules := by
        rw [hadded.rules]
        exact List.mem_append_right _ (List.mem_pair.mpr (.inr rfl))
      exact ⟨hmachine, _, hrule, rfl, rfl⟩

theorem Clean.filterLayout {ruleset : Ruleset}
    (hclean : manager.Clean ruleset) :
    ∃ table, manager.FilterLayout table (.start ruleset) := by
  obtain ⟨table, htable⟩ := hclean.filter
  refine ⟨table, htable, ?_, ?_, ?_, ?_, ?_⟩
  · intro other vmId hchain
    obtain ⟨chain, hmem, hkey⟩ := List.mem_map.mp hchain
    exact absurd (Chain.name_of_key hkey) (hclean.chains chain hmem vmId)
  · intro rule hmem hkey
    have hname : rule.chain = manager.supervisorFilterChain :=
      Rule.chain_of_chainKey hkey
    exact .inl (hclean.rules rule hmem (.inl hname)).2
  · intro rule hmem vmId hkey
    have hname : rule.chain = manager.vmFilterChain vmId :=
      Rule.chain_of_chainKey hkey
    have hfilter := (hclean.rules rule hmem (.inr (.inr ⟨vmId, hname⟩))).1
    exact absurd (hname.symm.trans hfilter)
      (manager.vmFilterChain_ne_supervisor vmId).2.1
  · intro machine hmem
    cases hmem
  · intro forward hmem
    cases hmem

theorem filterLayout_run (ops : List InstallOp)
    (hlayout : manager.FilterLayout table installed) :
    manager.FilterLayout table (run manager.install installed ops) :=
  install_invariant (fun _ _ _ _ _ hinv hok => hinv.setupVm hok)
    (fun _ _ _ _ _ hinv hadded => hinv.addPortForward hadded) ops hlayout

end NftablesManager

/-! ## Two machines and one forward -/

def noForeignRules : ForeignRules where
  holds _ _ _ _ := false
  stops _ _ := false

def installCalls : NftCalls := ⟨allListed, batchApplied⟩

def sampleInitialized : Ruleset :=
  (sampleManager.initializeChains (initializeWith batchApplied)
    Ruleset.empty).2

theorem initialize_sample :
    sampleManager.initializeChains (initializeWith batchApplied)
      Ruleset.empty = (.ok (), sampleInitialized) :=
  NftM.eq_ok_of_isOk (by decide +kernel)

theorem unused_empty : sampleManager.Unused Ruleset.empty :=
  fun _ hmem => absurd hmem List.not_mem_nil

def oneForwardOps : List InstallOp :=
  [.setupVm installCalls "vm-a" "tap-a", .setupVm installCalls "vm-b" "tap-b",
    .addPortForward installCalls
      ⟨⟨"vm-a", 8080, 80, .tcp⟩, 0x0A006402⟩]

def oneForward : Installed :=
  run sampleManager.install (.start sampleInitialized) oneForwardOps

end AlephCvm.Nft
