import AlephCvm.NftablesInitialize

/-!
# Setting everything up twice

A run of `initialize` and of `setup_vm` for any machines leaves a ruleset in
which every search of the same run succeeds, so that a second run has nothing
to add.  The base chains are found by position; what keeps them found is that
all batches only append.
-/

namespace AlephCvm.Nft

open ResultContext

/-! ## Creation after a whole listing -/

/-- A base chain is only created when the family has none for the hook, and
then nothing else is found for the hook afterwards. -/
theorem findOrCreateTableForHook_listed
    {listed ruleset after : Ruleset} {outcome : BatchOutcome}
    {hook : String} {family : Family} {table : String}
    (hgrows : listed.Grows ruleset)
    (hsame : listed.baseOf family hook = none →
      ruleset.baseOf family hook = none)
    (hok : findOrCreateTableForHook outcome listed.listing hook family
      ruleset = (.ok table, after)) :
    ruleset.Grows after ∧
    (∃ base, after.baseOf family hook = some base ∧ base.table = table) ∧
    ∀ other, other ≠ hook →
      after.baseOf family other = ruleset.baseOf family other := by
  rcases findOrCreateTableForHook_eq_ok hok with
    ⟨hfound, rfl⟩ | ⟨hnone, chainType, prio, _, hcreated⟩
  · rw [Ruleset.findTableForHook_listing, Option.map_eq_some_iff] at hfound
    obtain ⟨base, hbase, htable⟩ := hfound
    refine ⟨.refl after, ⟨base, ?_, htable⟩, fun _ _ => rfl⟩
    exact Ruleset.baseOf_grows hgrows hbase
  · rw [Ruleset.findTableForHook_listing, Option.map_eq_none_iff] at hnone
    have hfree := hsame hnone
    rcases hcreated.chains with ⟨_, hchains⟩ | ⟨⟨existing, hmem, hhooked⟩, _⟩
    · refine ⟨⟨?_, ?_⟩, ⟨defaultChain family table chainType prio hook,
        ?_, rfl⟩, ?_⟩
      · rw [hchains]
        exact List.prefix_append _ _
      · rw [hcreated.rules]
      · unfold Ruleset.baseOf at hfree ⊢
        rw [hchains, List.find?_append, hfree]
        simp [defaultChain, Chain.hook]
      · intro other hother
        unfold Ruleset.baseOf
        rw [hchains, List.find?_append]
        simp [defaultChain, Chain.hook, Ne.symm hother]
    · -- A chain that is hooked alike would have been listed for the hook.
      have hnot := List.find?_eq_none.mp hfree existing hmem
      obtain ⟨hkey, hlike⟩ := hhooked
      exfalso
      apply hnot
      have hfamily : existing.family = family := congrArg Prod.fst hkey
      cases hbase : existing.base with
      | none => simp [Chain.hookedLike, hbase] at hlike
      | some found =>
          simp [Chain.hookedLike, hbase, defaultChain,
            BaseHook.sameHook] at hlike
          simp [hfamily, Chain.hook, hbase, hlike]

/-! ## What a run of everything leaves -/

/-- The chain is jumped to from the first base chain of the hook. -/
structure SupervisorHung (ruleset : Ruleset) (family : Family)
    (hook chain : String) (base : Chain) : Prop where
  baseOf : ruleset.baseOf family hook = some base
  hasChain : ruleset.HasChain (family, base.table, chain)
  hasJump : ruleset.HasRule (family, base.table, base.name)
    fun rule => ruleJumpsTo rule chain

structure FilterHung (manager : NftablesManager) (ruleset : Ruleset)
    (family : Family) (base : Chain) : Prop where
  hung : SupervisorHung ruleset family "forward"
    manager.supervisorFilterChain base
  conntrack : ruleset.HasRule
    (family, base.table, manager.supervisorFilterChain) hasConntrackAccept

structure Initialized (manager : NftablesManager) (ruleset : Ruleset) :
    Prop where
  nat : ∃ base, SupervisorHung ruleset .ip "postrouting"
    manager.supervisorNatChain base
  filter : ∃ base, FilterHung manager ruleset .ip base
  prerouting : ∃ base, SupervisorHung ruleset .ip "prerouting"
    manager.supervisorPreroutingChain base
  filter6 : manager.ipv6Enabled = true →
    ∃ base, FilterHung manager ruleset .ip6 base

section Growth

variable {before after : Ruleset} {manager : NftablesManager}
  {family : Family} {hook chain : String} {base : Chain}

theorem SupervisorHung.grows (hgrows : before.Grows after)
    (hhung : SupervisorHung before family hook chain base) :
    SupervisorHung after family hook chain base where
  baseOf := Ruleset.baseOf_grows hgrows hhung.baseOf
  hasChain := hhung.hasChain.grows hgrows
  hasJump := hhung.hasJump.grows hgrows

theorem FilterHung.grows (hgrows : before.Grows after)
    (hhung : FilterHung manager before family base) :
    FilterHung manager after family base where
  hung := hhung.hung.grows hgrows
  conntrack := hhung.conntrack.grows hgrows

theorem Initialized.grows (hgrows : before.Grows after)
    (hinit : Initialized manager before) : Initialized manager after where
  nat := hinit.nat.imp fun _ hhung => hhung.grows hgrows
  filter := hinit.filter.imp fun _ hhung => hhung.grows hgrows
  prerouting := hinit.prerouting.imp fun _ hhung => hhung.grows hgrows
  filter6 := fun henabled =>
    (hinit.filter6 henabled).imp fun _ hhung => hhung.grows hgrows

end Growth

/-! ## The batch of the first run -/

section Batch

variable {manager : NftablesManager} {listing : Listing}
  {listed ruleset next : Ruleset} {commands : List NftCommand}
  {family : Family} {hook chain : String} {base : Chain}

theorem Listing.TrueOf.grows (htrue : listing.TrueOf listed)
    (hgrows : listed.Grows ruleset) : listing.TrueOf ruleset where
  chains := fun chain hmem => hgrows.chains.subset (htrue.chains chain hmem)
  rules := fun rule hmem => hgrows.rules.subset (htrue.rules rule hmem)

/-- The listing may be older than the ruleset on which the batch runs. -/
theorem supervisorCommands_hung
    (hgrows : listed.Grows ruleset)
    (hbase : listed.baseOf family hook = some base)
    (hsubset : supervisorCommands listed.listing family base.table hook
      chain ⊆ commands)
    (hadds : ∀ command ∈ commands, command.adds = true)
    (hok : ruleset.applyBatch commands = some next) :
    SupervisorHung next family hook chain base := by
  have htrue := listed.listing_trueOf.grows hgrows
  have hafter := Ruleset.applyBatch_grows hadds hok
  unfold supervisorCommands at hsubset
  rw [Ruleset.findBaseChainName_listing hbase, List.append_subset]
    at hsubset
  constructor
  · exact Ruleset.baseOf_grows (hgrows.trans hafter) hbase
  · exact hasChain_of_addChainIfNotPresent htrue hsubset.1 hadds hok
  · apply hasRule_of_addRuleIfNotPresent htrue.rules _ hsubset.2 hadds hok
    intro rule hexpr
    simp [ruleJumpsTo, hexpr, exprJumpsTo]

theorem supervisorFilterCommands_hung
    (hgrows : listed.Grows ruleset)
    (hbase : listed.baseOf family "forward" = some base)
    (hsubset : manager.supervisorFilterCommands listed.listing family
      base.table ⊆ commands)
    (hadds : ∀ command ∈ commands, command.adds = true)
    (hok : ruleset.applyBatch commands = some next) :
    FilterHung manager next family base := by
  have htrue := listed.listing_trueOf.grows hgrows
  unfold NftablesManager.supervisorFilterCommands at hsubset
  rw [List.append_subset] at hsubset
  constructor
  · exact supervisorCommands_hung hgrows hbase hsubset.1 hadds hok
  · apply hasRule_of_addRuleIfNotPresent htrue.rules _ hsubset.2 hadds hok
    intro rule hexpr
    simp [hasConntrackAccept, hexpr, isCtState, isAccept]

end Batch

/-! ## Runs of `initialize` with whole listings -/

structure InitializeCalls.Listed (calls : InitializeCalls) : Prop where
  list : ∀ family, calls.list family = .listed
  relist : ∀ family, calls.relist family = .listed
  list6 : ∀ family, calls.list6 family = .listed
  relist6 : ∀ family, calls.relist6 family = .listed

namespace NftablesManager

variable {manager : NftablesManager} {calls : InitializeCalls}
  {ruleset after : Ruleset}

theorem initializeChains6_listed {commands : List NftCommand}
    (hcalls : calls.Listed)
    (hok : manager.initializeChains6 calls ruleset =
      (.ok commands, after)) :
    ruleset.Grows after ∧ (∀ command ∈ commands, command.adds = true) ∧
      (manager.ipv6Enabled = true → ∃ base,
        after.baseOf .ip6 "forward" = some base ∧
        commands = manager.supervisorFilterCommands after.listing .ip6
          base.table) := by
  unfold initializeChains6 at hok
  by_cases henabled : manager.ipv6Enabled = true
  · rw [if_pos henabled,
      NftM.bind_of_ok (NftM.listRuleset_of_listed hcalls.list6 _)] at hok
    obtain ⟨table, middle, htable, hrest⟩ := NftM.bind_eq_ok.mp hok
    rw [NftM.bind_of_ok (NftM.listRuleset_of_listed hcalls.relist6 _)]
      at hrest
    cases hrest
    obtain ⟨hgrows, ⟨base, hbase, rfl⟩, _⟩ :=
      findOrCreateTableForHook_listed (.refl ruleset) id htable
    exact ⟨hgrows, adds_supervisorFilterCommands _ _ _ _,
      fun _ => ⟨base, hbase, rfl⟩⟩
  · rw [if_neg henabled] at hok
    cases hok
    refine ⟨.refl _, ?_, ?_⟩
    · intro command hmem
      cases hmem
    · intro hno
      exact absurd hno henabled

theorem initializeChains_listed (hcalls : calls.Listed)
    (hok : manager.initializeChains calls ruleset = (.ok (), after)) :
    ruleset.Grows after ∧ Initialized manager after := by
  unfold initializeChains at hok
  rw [NftM.bind_of_ok (NftM.listRuleset_of_listed hcalls.list _)] at hok
  obtain ⟨natTable, first, hnat, hok⟩ := NftM.bind_eq_ok.mp hok
  obtain ⟨filterTable, second, hfilter, hok⟩ := NftM.bind_eq_ok.mp hok
  obtain ⟨preroutingTable, third, hprerouting, hok⟩ :=
    NftM.bind_eq_ok.mp hok
  rw [NftM.bind_of_ok (NftM.listRuleset_of_listed hcalls.relist _)] at hok
  obtain ⟨commands6, fourth, hcommands6, hbatch⟩ := NftM.bind_eq_ok.mp hok
  -- Each creation leaves the search for the other hooks as it was.
  obtain ⟨hfirst, ⟨natBase, hnatBase, rfl⟩, hkeptFirst⟩ :=
    findOrCreateTableForHook_listed (.refl ruleset) id hnat
  obtain ⟨hsecond, ⟨filterBase, hfilterBase, rfl⟩, hkeptSecond⟩ :=
    findOrCreateTableForHook_listed hfirst
      (fun hnone => (hkeptFirst "forward" (by decide)).trans hnone) hfilter
  have hearlier := hfirst.trans hsecond
  obtain ⟨hthird, ⟨preroutingBase, hpreroutingBase, rfl⟩, _⟩ :=
    findOrCreateTableForHook_listed hearlier
      (fun hnone => (hkeptSecond "prerouting" (by decide)).trans
        ((hkeptFirst "prerouting" (by decide)).trans hnone)) hprerouting
  obtain ⟨hfourth, hadds6, hbase6⟩ :=
    initializeChains6_listed hcalls hcommands6
  have happlied := NftM.applyBatch_of_runCommands hbatch
  have hadds : ∀ command ∈
      supervisorCommands third.listing .ip natBase.table "postrouting"
          manager.supervisorNatChain ++
        manager.supervisorFilterCommands third.listing .ip
          filterBase.table ++
        supervisorCommands third.listing .ip preroutingBase.table
          "prerouting" manager.supervisorPreroutingChain ++
        commands6, command.adds = true := by
    intro command hmem
    simp only [List.mem_append] at hmem
    rcases hmem with ((hmem | hmem) | hmem) | hmem
    · exact adds_supervisorCommands _ _ _ _ _ command hmem
    · exact adds_supervisorFilterCommands _ _ _ _ command hmem
    · exact adds_supervisorCommands _ _ _ _ _ command hmem
    · exact hadds6 command hmem
  have hlast := Ruleset.applyBatch_grows hadds happlied
  refine ⟨((hearlier.trans hthird).trans hfourth).trans hlast, ?_⟩
  constructor
  · refine ⟨natBase, supervisorCommands_hung hfourth ?_ ?_ hadds happlied⟩
    · exact Ruleset.baseOf_grows (hsecond.trans hthird) hnatBase
    · intro command hmem
      simp [hmem]
  · refine ⟨filterBase,
      supervisorFilterCommands_hung hfourth ?_ ?_ hadds happlied⟩
    · exact Ruleset.baseOf_grows hthird hfilterBase
    · intro command hmem
      simp [hmem]
  · refine ⟨preroutingBase,
      supervisorCommands_hung hfourth hpreroutingBase ?_ hadds happlied⟩
    intro command hmem
    simp [hmem]
  · intro henabled
    obtain ⟨base6, hfound6, hcommands⟩ := hbase6 henabled
    refine ⟨base6, supervisorFilterCommands_hung (.refl fourth) hfound6 ?_
      hadds happlied⟩
    intro command hmem
    simp [hcommands, hmem]

end NftablesManager

/-! ## A second run of `initialize` -/

section Again

variable {manager : NftablesManager} {ruleset : Ruleset}

theorem supervisorCommands_eq_nil {family : Family} {hook chain : String}
    {base : Chain} (hhung : SupervisorHung ruleset family hook chain base) :
    supervisorCommands ruleset.listing family base.table hook chain =
      [] := by
  unfold supervisorCommands addJumpIfNotPresent
  rw [Ruleset.findBaseChainName_listing hhung.baseOf,
    Ruleset.addChainIfNotPresent_of_hasChain hhung.hasChain,
    Ruleset.addRuleIfNotPresent_of_hasRule hhung.hasJump, List.nil_append]

theorem supervisorFilterCommands_eq_nil {family : Family} {base : Chain}
    (hhung : FilterHung manager ruleset family base) :
    manager.supervisorFilterCommands ruleset.listing family base.table =
      [] := by
  unfold NftablesManager.supervisorFilterCommands addConntrackIfNotPresent
  rw [supervisorCommands_eq_nil hhung.hung,
    Ruleset.addRuleIfNotPresent_of_hasRule hhung.conntrack,
    List.nil_append]

theorem findOrCreateTableForHook_of_baseOf {outcome : BatchOutcome}
    {family : Family} {hook : String} {base : Chain}
    (hbase : ruleset.baseOf family hook = some base) (current : Ruleset) :
    findOrCreateTableForHook outcome ruleset.listing hook family current =
      (.ok base.table, current) := by
  unfold findOrCreateTableForHook
  rw [Ruleset.findTableForHook_listing, hbase, Option.map_some]
  rfl

theorem NftM.runCommands_nil (outcome : BatchOutcome) (ruleset : Ruleset) :
    NftM.runCommands outcome [] ruleset = (.ok (), ruleset) := rfl

variable {calls : InitializeCalls}

theorem NftablesManager.initializeChains6_silent (hcalls : calls.Listed)
    (hinit : Initialized manager ruleset) :
    manager.initializeChains6 calls ruleset = (.ok [], ruleset) := by
  unfold initializeChains6
  by_cases henabled : manager.ipv6Enabled = true
  · obtain ⟨base, hhung⟩ := hinit.filter6 henabled
    rw [if_pos henabled,
      NftM.bind_of_ok (NftM.listRuleset_of_listed hcalls.list6 _),
      NftM.bind_of_ok (findOrCreateTableForHook_of_baseOf
        hhung.hung.baseOf ruleset),
      NftM.bind_of_ok (NftM.listRuleset_of_listed hcalls.relist6 _),
      supervisorFilterCommands_eq_nil hhung, NftM.pure_apply]
  · rw [if_neg henabled, NftM.pure_apply]

/-- Nothing is run, so it does not matter what running it would do. -/
theorem NftablesManager.initializeChains_silent (hcalls : calls.Listed)
    (hinit : Initialized manager ruleset) :
    manager.initializeChains calls ruleset = (.ok (), ruleset) := by
  obtain ⟨natBase, hnat⟩ := hinit.nat
  obtain ⟨filterBase, hfilter⟩ := hinit.filter
  obtain ⟨preroutingBase, hprerouting⟩ := hinit.prerouting
  unfold initializeChains
  rw [NftM.bind_of_ok (NftM.listRuleset_of_listed hcalls.list _),
    NftM.bind_of_ok (findOrCreateTableForHook_of_baseOf hnat.baseOf _),
    NftM.bind_of_ok
      (findOrCreateTableForHook_of_baseOf hfilter.hung.baseOf _),
    NftM.bind_of_ok
      (findOrCreateTableForHook_of_baseOf hprerouting.baseOf _),
    NftM.bind_of_ok (NftM.listRuleset_of_listed hcalls.relist _),
    NftM.bind_of_ok (initializeChains6_silent hcalls hinit),
    supervisorCommands_eq_nil hnat, supervisorFilterCommands_eq_nil hfilter,
    supervisorCommands_eq_nil hprerouting]
  exact NftM.runCommands_nil _ _

end Again

/-! ## Setups of machines -/

structure MachineSetup where
  vmId : String
  tapDevice : String
  calls : NftCalls

namespace NftablesManager

variable (manager : NftablesManager)

def setUpMachines : List MachineSetup → NftM Unit
  | [] => pure ()
  | setup :: rest => do
      NftM.commit fun ruleset =>
        manager.setupVm setup.calls ruleset setup.vmId setup.tapDevice
      setUpMachines rest

def setUpAll (calls : InitializeCalls) (setups : List MachineSetup) :
    NftM Unit := do
  manager.initializeChains calls
  manager.setUpMachines setups

end NftablesManager

/-- The chains of the machine are in the tables in which the ruleset itself
shows the chains of the supervisor. -/
structure MachineSetUp (manager : NftablesManager) (ruleset : Ruleset)
    (vmId tap : String) : Prop where
  nat : ∃ table,
    getTableForChain ruleset.listing .ip manager.supervisorNatChain =
      some table ∧ NatSetUp manager ruleset table vmId
  filter : ∃ table,
    getTableForChain ruleset.listing .ip manager.supervisorFilterChain =
      some table ∧ FilterSetUp manager ruleset .ip table vmId tap
  filter6 : manager.ipv6Enabled = true → ∃ table,
    getTableForChain ruleset.listing .ip6 manager.supervisorFilterChain =
      some table ∧ FilterSetUp manager ruleset .ip6 table vmId tap

section Machines

variable {manager : NftablesManager} {before after : Ruleset}
  {family : Family} {table vmId tap name : String}

theorem NatSetUp.grows (hgrows : before.Grows after)
    (hset : NatSetUp manager before table vmId) :
    NatSetUp manager after table vmId where
  chain := hset.chain.grows hgrows
  jump := hset.jump.grows hgrows
  masquerade := hset.masquerade.grows hgrows

theorem FilterSetUp.grows (hgrows : before.Grows after)
    (hset : FilterSetUp manager before family table vmId tap) :
    FilterSetUp manager after family table vmId tap where
  chain := hset.chain.grows hgrows
  jump := hset.jump.grows hgrows
  accept := hset.accept.grows hgrows

theorem MachineSetUp.grows (hgrows : before.Grows after)
    (hset : MachineSetUp manager before vmId tap) :
    MachineSetUp manager after vmId tap := by
  constructor
  · obtain ⟨table, htable, hnat⟩ := hset.nat
    exact ⟨table, getTableForChain_grows hgrows htable, hnat.grows hgrows⟩
  · obtain ⟨table, htable, hfilter⟩ := hset.filter
    exact ⟨table, getTableForChain_grows hgrows htable,
      hfilter.grows hgrows⟩
  · intro henabled
    obtain ⟨table, htable, hfilter⟩ := hset.filter6 henabled
    exact ⟨table, getTableForChain_grows hgrows htable,
      hfilter.grows hgrows⟩

/-- A setup with whole listings, on an initialised ruleset. -/
theorem setupVm_listed {calls : NftCalls}
    (hlist : ∀ family, calls.list family = .listed)
    (hinit : Initialized manager before)
    (hok : manager.setupVm calls before vmId tap = .ok after) :
    before.Grows after ∧ MachineSetUp manager after vmId tap := by
  unfold NftablesManager.setupVm at hok
  rw [executeListRuleset_of_listed hlist] at hok
  obtain ⟨listing, hlisting, hrest⟩ := bind_eq_ok.mp hok
  cases hlisting
  obtain ⟨commands, hcommands, hrun⟩ := bind_eq_ok.mp hrest
  have hbatch := executeNftCommands_eq_ok hrun
  have hgrows := Ruleset.applyBatch_grows
    (NftablesManager.adds_setupCommands hcommands) hbatch
  have hset := NftablesManager.setupCommands_setUp before.listing_trueOf
    hcommands hbatch
  refine ⟨hgrows, ?_, ?_, ?_⟩
  · obtain ⟨table, htable, hnat⟩ := hset.nat
    exact ⟨table, getTableForChain_grows hgrows htable, hnat⟩
  · obtain ⟨table, htable, hfilter⟩ := hset.filter
    exact ⟨table, getTableForChain_grows hgrows htable, hfilter⟩
  · intro henabled
    obtain ⟨base, hhung⟩ := hinit.filter6 henabled
    obtain ⟨table, htable⟩ := exists_table_of_hasChain hhung.hung.hasChain
    exact ⟨table, getTableForChain_grows hgrows htable,
      hset.filter6 henabled table htable⟩

theorem natCommands_eq_nil
    (hset : NatSetUp manager before table vmId) :
    manager.natCommands before.listing table vmId tap = [] := by
  simp only [NftablesManager.natCommands, addJumpIfNotPresent,
    addMasqueradeIfNotPresent]
  rw [Ruleset.addChainIfNotPresent_of_hasChain hset.chain,
    Ruleset.addRuleIfNotPresent_of_hasRule hset.jump,
    Ruleset.addRuleIfNotPresent_of_hasRule hset.masquerade,
    List.nil_append, List.nil_append]

theorem filterCommands_eq_nil
    (hset : FilterSetUp manager before family table vmId tap) :
    manager.filterCommands before.listing family table vmId tap = [] := by
  simp only [NftablesManager.filterCommands, addJumpIfNotPresent,
    addForwardAcceptIfNotPresent]
  rw [Ruleset.addChainIfNotPresent_of_hasChain hset.chain,
    Ruleset.addRuleIfNotPresent_of_hasRule hset.jump,
    Ruleset.addRuleIfNotPresent_of_hasRule hset.accept,
    List.nil_append, List.nil_append]

theorem ip6Commands_eq_nil
    (hset : MachineSetUp manager before vmId tap) :
    manager.ip6Commands before.listing vmId tap = [] := by
  unfold NftablesManager.ip6Commands
  by_cases henabled : manager.ipv6Enabled = true
  · obtain ⟨table, htable, hfilter⟩ := hset.filter6 henabled
    rw [if_pos henabled, htable]
    exact filterCommands_eq_nil hfilter
  · rw [if_neg henabled]

theorem setupVm_silent {calls : NftCalls}
    (hlist : ∀ family, calls.list family = .listed)
    (hset : MachineSetUp manager before vmId tap) :
    manager.setupVm calls before vmId tap = .ok before := by
  obtain ⟨natTable, hnatTable, hnat⟩ := hset.nat
  obtain ⟨filterTable, hfilterTable, hfilter⟩ := hset.filter
  have hcommands :
      manager.setupCommands before.listing vmId tap = .ok [] := by
    unfold NftablesManager.setupCommands
    rw [hnatTable, hfilterTable]
    change Except.ok _ = _
    rw [natCommands_eq_nil hnat, filterCommands_eq_nil hfilter,
      ip6Commands_eq_nil hset]
    rfl
  unfold NftablesManager.setupVm
  rw [executeListRuleset_of_listed hlist]
  change (manager.setupCommands before.listing vmId tap >>= _) = _
  rw [hcommands]
  rfl

end Machines

/-! ## Everything twice -/

section Twice

variable {manager : NftablesManager} {before after : Ruleset}

def MachineSetup.Listed (setup : MachineSetup) : Prop :=
  ∀ family, setup.calls.list family = .listed

/-- The machine and the interface that are set up. -/
def MachineSetup.machine (setup : MachineSetup) : String × String :=
  (setup.vmId, setup.tapDevice)

theorem setUpMachines_listed {setups : List MachineSetup}
    (hlisted : ∀ setup ∈ setups, setup.Listed)
    (hinit : Initialized manager before)
    (hok : manager.setUpMachines setups before = (.ok (), after)) :
    before.Grows after ∧ ∀ machine ∈ setups.map MachineSetup.machine,
      MachineSetUp manager after machine.1 machine.2 := by
  induction setups generalizing before with
  | nil =>
      cases hok
      refine ⟨.refl _, ?_⟩
      intro machine hmem
      cases hmem
  | cons setup rest ih =>
      obtain ⟨_, middle, hfirst, hrest⟩ := NftM.bind_eq_ok.mp hok
      obtain ⟨hgrows, hset⟩ := setupVm_listed
        (hlisted setup List.mem_cons_self) hinit
        (NftM.commit_eq_ok.mp hfirst)
      obtain ⟨hlater, hothers⟩ := ih
        (fun other hother => hlisted other (List.mem_cons_of_mem _ hother))
        (hinit.grows hgrows) hrest
      refine ⟨hgrows.trans hlater, ?_⟩
      intro machine hmem
      rcases List.mem_cons.mp hmem with rfl | hmem
      · exact hset.grows hlater
      · exact hothers machine hmem

theorem setUpMachines_silent {setups : List MachineSetup}
    (hlisted : ∀ setup ∈ setups, setup.Listed)
    (hset : ∀ machine ∈ setups.map MachineSetup.machine,
      MachineSetUp manager before machine.1 machine.2) :
    manager.setUpMachines setups before = (.ok (), before) := by
  induction setups with
  | nil => rfl
  | cons setup rest ih =>
      have hfirst := setupVm_silent
        (hlisted setup List.mem_cons_self)
        (hset setup.machine List.mem_cons_self)
      rw [NftablesManager.setUpMachines,
        NftM.bind_of_ok (NftM.commit_eq_ok.mpr hfirst)]
      apply ih
      · intro other hother
        exact hlisted other (List.mem_cons_of_mem _ hother)
      · intro machine hmem
        exact hset machine (List.mem_cons_of_mem _ hmem)

theorem setUpAll_installed
    {calls : InitializeCalls} {setups : List MachineSetup}
    (hcalls : calls.Listed) (hsetups : ∀ setup ∈ setups, setup.Listed)
    (hok : manager.setUpAll calls setups before = (.ok (), after)) :
    Initialized manager after ∧
      ∀ machine ∈ setups.map MachineSetup.machine,
        MachineSetUp manager after machine.1 machine.2 := by
  obtain ⟨_, middle, hstarted, hmachines⟩ := NftM.bind_eq_ok.mp hok
  obtain ⟨_, hinit⟩ :=
    NftablesManager.initializeChains_listed hcalls hstarted
  obtain ⟨hgrows, hset⟩ := setUpMachines_listed hsetups hinit hmachines
  exact ⟨hinit.grows hgrows, hset⟩

/-- After a run of everything in which the calls went through, a second run
for the same machines succeeds and changes nothing whatever a batch would do,
also when `nft` could not run one: it runs none. -/
theorem setUpAll_twice
    {calls again : InitializeCalls} {setups setupsAgain : List MachineSetup}
    (hcalls : calls.Listed) (hsetups : ∀ setup ∈ setups, setup.Listed)
    (hok : manager.setUpAll calls setups before = (.ok (), after))
    (hagain : again.Listed)
    (hsetupsAgain : ∀ setup ∈ setupsAgain, setup.Listed)
    (hsame : setupsAgain.map MachineSetup.machine =
      setups.map MachineSetup.machine) :
    manager.setUpAll again setupsAgain after = (.ok (), after) := by
  obtain ⟨hinit, hset⟩ := setUpAll_installed hcalls hsetups hok
  rw [NftablesManager.setUpAll, NftM.bind_of_ok
    (NftablesManager.initializeChains_silent hagain hinit)]
  apply setUpMachines_silent hsetupsAgain
  rw [hsame]
  exact hset

end Twice

/-! A machine on an empty ruleset, and a second run without `nft`. -/

def sampleSetups (outcome : BatchOutcome) : List MachineSetup :=
  [⟨"vm-a", "tap-a", ⟨allListed, outcome⟩⟩]

def sampleAfter : Ruleset :=
  (sampleManager.setUpAll (initializeWith batchApplied)
    (sampleSetups batchApplied) Ruleset.empty).2

theorem sampleSetups_listed (outcome : BatchOutcome) :
    ∀ setup ∈ sampleSetups outcome, setup.Listed := by
  intro setup hmem
  rw [List.mem_singleton.mp hmem]
  exact fun _ => rfl

theorem setUpAll_sample_twice :
    sampleManager.setUpAll (initializeWith batchBroken)
      (sampleSetups batchBroken) sampleAfter = (.ok (), sampleAfter) := by
  refine @setUpAll_twice sampleManager Ruleset.empty sampleAfter
    (initializeWith batchApplied) (initializeWith batchBroken)
    (sampleSetups batchApplied) (sampleSetups batchBroken)
    ?_ ?_ ?_ ?_ ?_ ?_
  · exact ⟨fun _ => rfl, fun _ => rfl, fun _ => rfl, fun _ => rfl⟩
  · exact sampleSetups_listed _
  · exact NftM.eq_ok_of_isOk (by decide +kernel)
  · exact ⟨fun _ => rfl, fun _ => rfl, fun _ => rfl, fun _ => rfl⟩
  · exact sampleSetups_listed _
  · rfl

end AlephCvm.Nft
