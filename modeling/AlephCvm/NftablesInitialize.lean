import AlephCvm.NftablesSetup

/-!
# Initialising the supervisor chains

Model of `initialize` and of the searches for base chains in
`aleph-network/src/nftables/mod.rs`.  The operation lists the ruleset several
times and runs several batches; what an earlier batch has changed stays when a
later one fails.
-/

namespace AlephCvm.Nft

open ResultContext

/-! ## Operations of several batches -/

def NftM (α : Type) : Type := Ruleset → Except String α × Ruleset

instance : Monad NftM where
  pure value := fun ruleset => (.ok value, ruleset)
  bind first next := fun ruleset =>
    match first ruleset with
    | (.error message, after) => (.error message, after)
    | (.ok value, after) => next value after

namespace NftM

variable {α β : Type}

/-- A call that changes the ruleset only when it succeeds. -/
def commit (call : Ruleset → Except String Ruleset) : NftM Unit :=
  fun ruleset =>
    match call ruleset with
    | .error message => (.error message, ruleset)
    | .ok next => (.ok (), next)

def listRuleset (list : Family → ListOutcome) : NftM Listing :=
  fun ruleset => (executeListRuleset list ruleset, ruleset)

def runCommands (outcome : BatchOutcome) (commands : List NftCommand) :
    NftM Unit :=
  commit fun ruleset => executeNftCommands outcome ruleset commands

def fail (message : String) : NftM α :=
  fun ruleset => (.error message, ruleset)

theorem pure_apply (value : α) (ruleset : Ruleset) :
    (pure value : NftM α) ruleset = (.ok value, ruleset) := rfl

theorem bind_apply (first : NftM α) (next : α → NftM β)
    (ruleset : Ruleset) :
    (first >>= next) ruleset =
      match first ruleset with
      | (.error message, after) => (.error message, after)
      | (.ok value, after) => next value after := rfl

theorem bind_eq_ok {first : NftM α} {next : α → NftM β}
    {ruleset after : Ruleset} {result : β} :
    (first >>= next) ruleset = (.ok result, after) ↔
      ∃ value middle, first ruleset = (.ok value, middle) ∧
        next value middle = (.ok result, after) := by
  rw [bind_apply]
  cases hfirst : first ruleset with
  | mk outcome middle =>
      cases outcome with
      | error message => simp
      | ok value => simp

theorem bind_of_ok {first : NftM α} {next : α → NftM β}
    {ruleset middle : Ruleset} {value : α}
    (hfirst : first ruleset = (.ok value, middle)) :
    (first >>= next) ruleset = next value middle := by
  rw [bind_apply, hfirst]

theorem list_bind_eq_ok {list : Family → ListOutcome}
    {next : Listing → NftM β} {ruleset after : Ruleset} {result : β} :
    (listRuleset list >>= next) ruleset = (.ok result, after) ↔
      ∃ listing, executeListRuleset list ruleset = .ok listing ∧
        next listing ruleset = (.ok result, after) := by
  rw [bind_apply, listRuleset]
  cases executeListRuleset list ruleset <;> simp

theorem commit_eq_ok {call : Ruleset → Except String Ruleset}
    {ruleset after : Ruleset} :
    commit call ruleset = (.ok (), after) ↔ call ruleset = .ok after := by
  unfold commit
  cases call ruleset <;> simp

theorem eq_ok_of_isOk {operation : NftM Unit} {ruleset : Ruleset}
    (hok : (operation ruleset).1.isOk = true) :
    operation ruleset = (.ok (), (operation ruleset).2) := by
  cases hresult : operation ruleset with
  | mk outcome after =>
      cases outcome with
      | ok value => rfl
      | error message =>
          rw [hresult] at hok
          cases hok

end NftM

/-! ## Searching and creating base chains -/

def Chain.hook (chain : Chain) : Option String :=
  chain.base.map BaseHook.hook

/-- The table of the first listed base chain of the hook. -/
def findTableForHook (listing : Listing) (hook : String) (family : Family) :
    Option String :=
  (listing.chains.find? fun chain =>
    chain.family == family && chain.hook == some hook).map Chain.table

/-- Table, type and priority of the base chain that is created when a hook
has none. -/
def defaultBase : String → Option (String × String × Int)
  | "postrouting" => some ("nat", "nat", 100)
  | "prerouting" => some ("nat", "nat", -100)
  | "forward" => some ("filter", "filter", 0)
  | _ => none

def toUppercase (text : String) : String :=
  String.ofList (text.toList.map Char.toUpper)

def defaultChain (family : Family) (table chainType : String) (prio : Int)
    (hook : String) : Chain :=
  ⟨family, table, toUppercase hook,
    some ⟨chainType, hook, prio, "accept"⟩⟩

def findOrCreateTableForHook (outcome : BatchOutcome) (listing : Listing)
    (hook : String) (family : Family) : NftM String :=
  match findTableForHook listing hook family with
  | some table => pure table
  | none =>
      match defaultBase hook with
      | none => NftM.fail s!"unsupported hook: {hook}"
      | some (table, chainType, prio) => do
          NftM.runCommands outcome
            [.addTable family table,
              .addChain (defaultChain family table chainType prio hook)]
          return table

/-- The first listed base chain of the hook in the table, or the
conventional name. -/
def findBaseChainName (listing : Listing) (family : Family)
    (table hook : String) : String :=
  match listing.chains.find? fun chain =>
      chain.family == family && chain.table == table &&
        chain.hook == some hook with
  | some chain => chain.name
  | none => toUppercase hook

def isCtState : RuleExpr → Bool
  | .matching _ (.ct key) _ => key == "state"
  | _ => false

def hasConntrackAccept (rule : Rule) : Bool :=
  rule.expr.any isCtState && rule.expr.any isAccept

def addConntrackIfNotPresent (listing : Listing) (chain : ChainKey) :
    List NftCommand :=
  addRuleIfNotPresent listing chain hasConntrackAccept
    [.matching "in" (.ct "state") (.list ["established", "related"]),
      .accept]

/-- A supervisor chain and the jump to it from the base chain of a hook. -/
def supervisorCommands (listing : Listing) (family : Family)
    (table hook chain : String) : List NftCommand :=
  addChainIfNotPresent listing (family, table, chain) ++
    addJumpIfNotPresent listing
      (family, table, findBaseChainName listing family table hook) chain

/-! ## The operation -/

/-- The outcomes of the nft calls of `initialize`. -/
structure InitializeCalls where
  list : Family → ListOutcome
  createPostrouting : BatchOutcome
  createForward : BatchOutcome
  createPrerouting : BatchOutcome
  relist : Family → ListOutcome
  list6 : Family → ListOutcome
  createForward6 : BatchOutcome
  relist6 : Family → ListOutcome
  batch : BatchOutcome

namespace NftablesManager

variable (manager : NftablesManager)

def supervisorFilterCommands (listing : Listing) (family : Family)
    (table : String) : List NftCommand :=
  supervisorCommands listing family table "forward"
      manager.supervisorFilterChain ++
    addConntrackIfNotPresent listing
      (family, table, manager.supervisorFilterChain)

def initializeChains6 (calls : InitializeCalls) : NftM (List NftCommand) :=
  if manager.ipv6Enabled then do
    let listing ← NftM.listRuleset calls.list6
    let filterTable ← findOrCreateTableForHook calls.createForward6 listing
      "forward" .ip6
    let listing ← NftM.listRuleset calls.relist6
    return manager.supervisorFilterCommands listing .ip6 filterTable
  else return []

def initializeChains (calls : InitializeCalls) : NftM Unit := do
  let listing ← NftM.listRuleset calls.list
  let natTable ← findOrCreateTableForHook calls.createPostrouting listing
    "postrouting" .ip
  let filterTable ← findOrCreateTableForHook calls.createForward listing
    "forward" .ip
  let preroutingTable ← findOrCreateTableForHook calls.createPrerouting
    listing "prerouting" .ip
  let listing ← NftM.listRuleset calls.relist
  let commands6 ← manager.initializeChains6 calls
  NftM.runCommands calls.batch
    (supervisorCommands listing .ip natTable "postrouting"
        manager.supervisorNatChain ++
      manager.supervisorFilterCommands listing .ip filterTable ++
      supervisorCommands listing .ip preroutingTable "prerouting"
        manager.supervisorPreroutingChain ++
      commands6)

end NftablesManager

/-! ## A whole listing -/

/-- What a listing shows when it works for both families. -/
def Ruleset.listing (ruleset : Ruleset) : Listing where
  chains :=
    (ruleset.chains.filter fun chain => chain.family == .ip) ++
      ruleset.chains.filter fun chain => chain.family == .ip6
  rules :=
    (ruleset.rules.filter fun rule => rule.family == .ip) ++
      ruleset.rules.filter fun rule => rule.family == .ip6

theorem executeListRuleset_of_listed
    {list : Family → ListOutcome} (hlist : ∀ family, list family = .listed)
    (ruleset : Ruleset) :
    executeListRuleset list ruleset = .ok ruleset.listing := by
  simp only [executeListRuleset, hlist, listFamily]
  rfl

theorem NftM.listRuleset_of_listed
    {list : Family → ListOutcome} (hlist : ∀ family, list family = .listed)
    (ruleset : Ruleset) :
    NftM.listRuleset list ruleset = (.ok ruleset.listing, ruleset) := by
  rw [NftM.listRuleset, executeListRuleset_of_listed hlist]

namespace Ruleset

variable (ruleset : Ruleset)

@[simp] theorem mem_listing_chains {chain : Chain} :
    chain ∈ ruleset.listing.chains ↔ chain ∈ ruleset.chains := by
  cases hfamily : chain.family <;> simp [listing, hfamily]

@[simp] theorem mem_listing_rules {rule : Rule} :
    rule ∈ ruleset.listing.rules ↔ rule ∈ ruleset.rules := by
  cases hfamily : rule.family <;> simp [listing, hfamily]

theorem listing_trueOf : ruleset.listing.TrueOf ruleset :=
  ⟨fun _ => ruleset.mem_listing_chains.mp,
    fun _ => ruleset.mem_listing_rules.mp⟩

/-- A search within one family does not see the other one. -/
theorem find_filter_family {family : Family} {found : Chain → Bool}
    (hfamily : ∀ chain, found chain = true → chain.family = family)
    (other : Family) :
    (ruleset.chains.filter fun chain => chain.family == other).find?
        found =
      if other = family then ruleset.chains.find? found else none := by
  rw [List.find?_filter]
  split_ifs with heq
  · congr 1
    funext chain
    cases hfound : found chain with
    | false => simp
    | true => simp [hfamily chain hfound, heq]
  · rw [List.find?_eq_none]
    intro chain _ hboth
    simp only [decide_eq_true_eq, beq_iff_eq] at hboth
    exact heq (hboth.1.symm.trans (hfamily chain hboth.2))

theorem find_listing_chains (family : Family) {found : Chain → Bool}
    (hfamily : ∀ chain, found chain = true → chain.family = family) :
    ruleset.listing.chains.find? found = ruleset.chains.find? found := by
  simp only [listing, List.find?_append,
    ruleset.find_filter_family hfamily]
  cases family <;> simp

theorem chainExists_listing (key : ChainKey) :
    chainExists ruleset.listing key = true ↔ ruleset.HasChain key := by
  simp [chainExists, HasChain]

theorem hasRule_listing (key : ChainKey) (present : Rule → Bool) :
    (ruleset.listing.rules.any fun rule =>
        rule.chainKey == key && present rule) = true ↔
      ruleset.HasRule key present := by
  simp [HasRule]

variable {ruleset}

theorem addChainIfNotPresent_of_hasChain {key : ChainKey}
    (hchain : ruleset.HasChain key) :
    addChainIfNotPresent ruleset.listing key = [] := by
  unfold addChainIfNotPresent
  rw [if_pos ((ruleset.chainExists_listing key).mpr hchain)]

theorem addRuleIfNotPresent_of_hasRule {key : ChainKey}
    {present : Rule → Bool} (hrule : ruleset.HasRule key present)
    (expr : List RuleExpr) :
    addRuleIfNotPresent ruleset.listing key present expr = [] := by
  unfold addRuleIfNotPresent
  rw [if_pos ((ruleset.hasRule_listing key present).mpr hrule)]

/-! ## The first base chain of a hook -/

def baseOf (ruleset : Ruleset) (family : Family) (hook : String) :
    Option Chain :=
  ruleset.chains.find? fun chain =>
    chain.family == family && chain.hook == some hook

theorem findTableForHook_listing (family : Family) (hook : String) :
    findTableForHook ruleset.listing hook family =
      (ruleset.baseOf family hook).map Chain.table := by
  unfold findTableForHook baseOf
  rw [ruleset.find_listing_chains family]
  intro chain hfound
  simp only [Bool.and_eq_true, beq_iff_eq] at hfound
  exact hfound.1

/-- The second search finds the chain that the first one found. -/
theorem findBaseChainName_listing {family : Family} {hook : String}
    {base : Chain} (hbase : ruleset.baseOf family hook = some base) :
    findBaseChainName ruleset.listing family base.table hook =
      base.name := by
  have hsecond : ruleset.chains.find? (fun chain =>
      chain.family == family && chain.table == base.table &&
        chain.hook == some hook) = some base := by
    obtain ⟨hmatch, before, after, hsplit, hbefore⟩ :=
      List.find?_eq_some_iff_append.mp hbase
    rw [List.find?_eq_some_iff_append]
    simp only [Bool.and_eq_true, beq_iff_eq] at hmatch
    refine ⟨by simp [hmatch.1, hmatch.2], before, after, hsplit, ?_⟩
    intro chain hchain
    have hnot := hbefore chain hchain
    grind
  unfold findBaseChainName
  rw [ruleset.find_listing_chains family, hsecond]
  intro chain hfound
  simp only [Bool.and_eq_true, beq_iff_eq] at hfound
  exact hfound.1.1

theorem baseOf_grows {before after : Ruleset} {family : Family}
    {hook : String} {base : Chain} (hgrows : before.Grows after)
    (hbase : before.baseOf family hook = some base) :
    after.baseOf family hook = some base := by
  obtain ⟨rest, hchains⟩ := hgrows.chains
  unfold baseOf at hbase ⊢
  rw [← hchains, List.find?_append, hbase, Option.some_or]

end Ruleset

/-! ## Creating a base chain -/

section Create

variable {ruleset after : Ruleset} {outcome : BatchOutcome}

theorem NftM.applyBatch_of_runCommands {commands : List NftCommand}
    (hok : NftM.runCommands outcome commands ruleset = (.ok (), after)) :
    ruleset.applyBatch commands = some after :=
  executeNftCommands_eq_ok (NftM.commit_eq_ok.mp hok)

/-- The base chain is new, or it was there already with the same hook. -/
structure BaseCreated (chain : Chain) (before after : Ruleset) : Prop where
  rules : after.rules = before.rules
  chains : ¬before.HasChain chain.key ∧
      after.chains = before.chains ++ [chain] ∨
    (∃ existing ∈ before.chains, existing.key = chain.key ∧
      existing.hookedLike chain = true) ∧
      after.chains = before.chains.map chain.rebase

theorem baseCreated_of_apply {chain : Chain} (hbase : chain.base ≠ none)
    (hok : ruleset.apply (.addChain chain) = some after) :
    BaseCreated chain ruleset after := by
  cases Ruleset.applied_of_apply hok with
  | chainKnown _ hknown hregular => exact absurd hregular hbase
  | chainUpdated _ hother hhooked => exact ⟨rfl, .inr ⟨hhooked, rfl⟩⟩
  | chainAdded _ htable hfresh => exact ⟨rfl, .inl ⟨hfresh, rfl⟩⟩

theorem baseCreated_of_runCommands {chain : Chain} {family : Family}
    {table : String} (hbase : chain.base ≠ none)
    (hok : NftM.runCommands outcome
      [.addTable family table, .addChain chain] ruleset =
        (.ok (), after)) :
    BaseCreated chain ruleset after := by
  have hbatch := NftM.applyBatch_of_runCommands hok
  rw [Ruleset.applyBatch_cons, Option.bind_eq_some_iff] at hbatch
  obtain ⟨middle, htable, hrest⟩ := hbatch
  rw [Ruleset.applyBatch_cons, Option.bind_eq_some_iff] at hrest
  obtain ⟨last, hchain, hlast⟩ := hrest
  cases hlast
  have hcreated := baseCreated_of_apply hbase hchain
  simp only [Ruleset.apply] at htable
  split_ifs at htable with hknown
  · cases htable
    exact hcreated
  · cases htable
    exact ⟨hcreated.rules, hcreated.chains⟩

/-- Either the search finds a table, or the base chain is created. -/
theorem findOrCreateTableForHook_eq_ok {listing : Listing} {hook : String}
    {family : Family} {table : String}
    (hok : findOrCreateTableForHook outcome listing hook family ruleset =
      (.ok table, after)) :
    findTableForHook listing hook family = some table ∧ after = ruleset ∨
      findTableForHook listing hook family = none ∧
        ∃ chainType prio,
          defaultBase hook = some (table, chainType, prio) ∧
          BaseCreated (defaultChain family table chainType prio hook)
            ruleset after := by
  unfold findOrCreateTableForHook at hok
  cases hfound : findTableForHook listing hook family with
  | some found =>
      rw [hfound] at hok
      cases hok
      exact .inl ⟨rfl, rfl⟩
  | none =>
      rw [hfound] at hok
      cases hdefault : defaultBase hook with
      | none =>
          rw [hdefault] at hok
          cases hok
      | some default =>
          obtain ⟨name, chainType, prio⟩ := default
          rw [hdefault] at hok
          obtain ⟨_, middle, hcreate, hpure⟩ := NftM.bind_eq_ok.mp hok
          cases hpure
          refine .inr ⟨rfl, chainType, prio, rfl, ?_⟩
          exact baseCreated_of_runCommands (Option.some_ne_none _) hcreate

end Create

/-! ## The commands only add -/

theorem adds_supervisorCommands (listing : Listing) (family : Family)
    (table hook chain : String) :
    ∀ command ∈ supervisorCommands listing family table hook chain,
      command.adds = true := by
  intro command hmem
  rcases List.mem_append.mp hmem with hchain | hjump
  · exact adds_addChainIfNotPresent _ _ command hchain
  · exact adds_addRuleIfNotPresent _ _ _ _ command hjump

theorem adds_supervisorFilterCommands (manager : NftablesManager)
    (listing : Listing) (family : Family) (table : String) :
    ∀ command ∈ manager.supervisorFilterCommands listing family table,
      command.adds = true := by
  intro command hmem
  rcases List.mem_append.mp hmem with hchain | hconntrack
  · exact adds_supervisorCommands _ _ _ _ _ command hchain
  · exact adds_addRuleIfNotPresent _ _ _ _ command hconntrack

/-! ## The table of a chain -/

theorem getTableForChain_listing (ruleset : Ruleset) (family : Family)
    (name : String) :
    getTableForChain ruleset.listing family name =
      (ruleset.chains.find? fun chain =>
        chain.family == family && chain.name == name).map Chain.table := by
  unfold getTableForChain
  rw [ruleset.find_listing_chains family]
  intro chain hfound
  simp only [Bool.and_eq_true, beq_iff_eq] at hfound
  exact hfound.1

section Tables

variable {before after : Ruleset} {family : Family} {table name : String}

/-- A table that any listing shows is the one that a whole listing shows. -/
theorem getTableForChain_of_list {list : Family → ListOutcome}
    {listing : Listing}
    (hlisting : executeListRuleset list before = .ok listing)
    (htable : getTableForChain listing family name = some table) :
    getTableForChain before.listing family name = some table := by
  have hfamily : ∀ chain : Chain,
      (chain.family == family && chain.name == name) = true →
        chain.family = family := by
    intro chain hfound
    simp only [Bool.and_eq_true, beq_iff_eq] at hfound
    exact hfound.1
  have hpart : ∀ other part,
      listFamily before other (list other) = .ok part →
      part.chains.find? (fun chain =>
          chain.family == family && chain.name == name) = none ∨
        part.chains.find? (fun chain =>
            chain.family == family && chain.name == name) =
          before.chains.find? fun chain =>
            chain.family == family && chain.name == name := by
    intro other part hlisted
    cases houtcome : list other with
    | listed =>
        rw [houtcome] at hlisted
        cases hlisted
        simp only [before.find_filter_family hfamily]
        split_ifs with heq
        · exact .inr rfl
        · exact .inl rfl
    | unusable =>
        rw [houtcome] at hlisted
        cases hlisted
        exact .inl rfl
    | notExecuted message =>
        rw [houtcome] at hlisted
        cases hlisted
  unfold executeListRuleset at hlisting
  obtain ⟨ip, hip, hlisting⟩ := bind_eq_ok.mp hlisting
  obtain ⟨ip6, hip6, hlisting⟩ := bind_eq_ok.mp hlisting
  cases hlisting
  rw [getTableForChain_listing]
  unfold getTableForChain at htable
  simp only [List.find?_append] at htable
  have hfirst := hpart .ip ip hip
  have hsecond := hpart .ip6 ip6 hip6
  grind

theorem getTableForChain_grows (hgrows : before.Grows after)
    (htable : getTableForChain before.listing family name = some table) :
    getTableForChain after.listing family name = some table := by
  rw [getTableForChain_listing, Option.map_eq_some_iff] at htable ⊢
  obtain ⟨chain, hfound, hname⟩ := htable
  obtain ⟨rest, hchains⟩ := hgrows.chains
  refine ⟨chain, ?_, hname⟩
  rw [← hchains, List.find?_append, hfound, Option.some_or]

theorem exists_table_of_hasChain
    (hchain : before.HasChain (family, table, name)) :
    ∃ first, getTableForChain before.listing family name = some first := by
  obtain ⟨chain, hmem, hkey⟩ := List.mem_map.mp hchain
  rw [getTableForChain_listing]
  cases hfound : before.chains.find? fun chain =>
      chain.family == family && chain.name == name with
  | some first => exact ⟨first.table, rfl⟩
  | none =>
      have hnot := List.find?_eq_none.mp hfound chain hmem
      simp only [Chain.key, Prod.mk.injEq] at hkey
      simp [hkey.1, hkey.2.2] at hnot

theorem hasChain_of_getTableForChain
    (htable : getTableForChain before.listing family name = some table) :
    before.HasChain (family, table, name) := by
  rw [getTableForChain_listing, Option.map_eq_some_iff] at htable
  obtain ⟨chain, hfound, rfl⟩ := htable
  have hmatch := List.find?_some hfound
  simp only [Bool.and_eq_true, beq_iff_eq] at hmatch
  have hkey : chain.key = (family, chain.table, name) := by
    rw [Chain.key, hmatch.1, hmatch.2]
  rw [← hkey]
  exact List.mem_map_of_mem (List.mem_of_find?_eq_some hfound)

end Tables

/-! ## A sample manager, and calls that all end alike -/

def sampleManager : NftablesManager := ⟨"aleph", "eth0", true⟩

def allListed : Family → ListOutcome := fun _ => .listed

def batchApplied : BatchOutcome := ⟨.ok (), ""⟩

def batchBroken : BatchOutcome := ⟨.error "failed to spawn nft", ""⟩

def initializeWith (outcome : BatchOutcome) : InitializeCalls :=
  ⟨allListed, outcome, outcome, outcome, allListed, allListed, outcome,
    allListed, outcome⟩

end AlephCvm.Nft
