import AlephCvm.NftablesInitialize
import AlephCvm.ForwardRules

/-!
# The base chains under the supervisor chains

`initialize` takes the first listed base chain of a hook, whatever type it
has; only when it finds none does it create one, and then of the right type.
The base chains of one hook are looked at in the order of the listing, with
their types, and each supervisor chain ends up under the chain picked there.
-/

namespace AlephCvm.Nft

open ResultContext

/-! ## The base chains of a hook -/

def Chain.typed (chain : Chain) : ChainKey × Option String :=
  (chain.key, chain.base.map BaseHook.chainType)

def Chain.hooksInto (family : Family) (hook : String) (chain : Chain) :
    Bool :=
  chain.family == family && chain.hook == some hook

/-- The base chains of a hook with their types. -/
def Ruleset.hookView (ruleset : Ruleset) (family : Family) (hook : String) :
    List (ChainKey × Option String) :=
  (ruleset.chains.filter (Chain.hooksInto family hook)).map Chain.typed

/-- A rule of a base chain of this type on the hook jumps to the chain. -/
def JumpedFrom (ruleset : Ruleset) (family : Family)
    (chainType hook target : String) : Prop :=
  ∃ rule ∈ ruleset.rules, ruleJumpsTo rule target = true ∧
    ∃ base ∈ ruleset.chains, base.key = rule.chainKey ∧
      base.hooksInto family hook = true ∧
      base.base.map BaseHook.chainType = some chainType

instance JumpedFrom.decidable (ruleset : Ruleset) (family : Family)
    (chainType hook target : String) :
    Decidable (JumpedFrom ruleset family chainType hook target) :=
  inferInstanceAs (Decidable (∃ rule ∈ ruleset.rules, _))

theorem jumpedFrom_iff_hookView {ruleset : Ruleset} {family : Family}
    {chainType hook target : String} :
    JumpedFrom ruleset family chainType hook target ↔
      ∃ rule ∈ ruleset.rules, ruleJumpsTo rule target = true ∧
        (rule.chainKey, some chainType) ∈ ruleset.hookView family hook := by
  unfold JumpedFrom
  apply exists_congr
  intro rule
  apply and_congr_right
  intro _
  apply and_congr_right
  intro _
  constructor
  · rintro ⟨base, hmem, hkey, hhooks, htype⟩
    apply List.mem_map.mpr
    refine ⟨base, List.mem_filter.mpr ⟨hmem, hhooks⟩, ?_⟩
    rw [Chain.typed, hkey, htype]
  · intro hview
    obtain ⟨base, hfiltered, htyped⟩ := List.mem_map.mp hview
    obtain ⟨hmem, hhooks⟩ := List.mem_filter.mp hfiltered
    rw [Chain.typed, Prod.mk.injEq] at htyped
    exact ⟨base, hmem, htyped.1, hhooks, htyped.2⟩

theorem Ruleset.hookView_key {ruleset : Ruleset} {family : Family}
    {hook : String} {entry : ChainKey × Option String}
    (hmem : entry ∈ ruleset.hookView family hook) :
    entry.1.1 = family ∧ ruleset.HasChain entry.1 := by
  obtain ⟨chain, hfiltered, rfl⟩ := List.mem_map.mp hmem
  obtain ⟨hchain, hhooks⟩ := List.mem_filter.mp hfiltered
  unfold Chain.hooksInto at hhooks
  rw [Bool.and_eq_true, beq_iff_eq] at hhooks
  exact ⟨hhooks.1, List.mem_map_of_mem hchain⟩

/-- A chain has one type. -/
theorem Ruleset.hookView_type {ruleset : Ruleset} {family : Family}
    {hook : String} {key : ChainKey} {first second : Option String}
    (hfirst : (key, first) ∈ ruleset.hookView family hook)
    (hsecond : (key, second) ∈ ruleset.hookView family hook) :
    first = second := by
  obtain ⟨chain, hchain, htyped⟩ := List.mem_map.mp hfirst
  obtain ⟨other, hother, hotherTyped⟩ := List.mem_map.mp hsecond
  rw [Chain.typed, Prod.mk.injEq] at htyped hotherTyped
  have heq : chain = other :=
    List.inj_on_of_nodup_map ruleset.chains_nodup
      (List.mem_of_mem_filter hchain) (List.mem_of_mem_filter hother)
      (htyped.1.trans hotherTyped.1.symm)
  rw [← htyped.2, ← hotherTyped.2, heq]

theorem Ruleset.mem_hookView_iff {ruleset : Ruleset} {family : Family}
    {hook : String} {key : ChainKey} {found wanted : Option String}
    (hentry : (key, found) ∈ ruleset.hookView family hook) :
    (key, wanted) ∈ ruleset.hookView family hook ↔ found = wanted := by
  constructor
  · intro hmem
    exact Ruleset.hookView_type hentry hmem
  · intro heq
    rw [← heq]
    exact hentry

/-! ## Listings, whole or not -/

theorem find_executeListRuleset
    {list : Family → ListOutcome} {ruleset : Ruleset} {listing : Listing}
    (hlisted : executeListRuleset list ruleset = .ok listing)
    (family : Family) {found : Chain → Bool}
    (hfamily : ∀ chain, found chain = true → chain.family = family) :
    listing.chains.find? found =
      if list family = .listed then ruleset.chains.find? found
      else none := by
  have hpart : ∀ other part,
      listFamily ruleset other (list other) = .ok part →
      part.chains.find? found =
        if other = family ∧ list family = .listed then
          ruleset.chains.find? found
        else none := by
    intro other part hpart
    cases houtcome : list other with
    | listed =>
        rw [houtcome] at hpart
        cases hpart
        rw [ruleset.find_filter_family hfamily]
        by_cases heq : other = family
        · rw [if_pos heq, if_pos ⟨heq, heq ▸ houtcome⟩]
        · rw [if_neg heq, if_neg (fun hboth => heq hboth.1)]
    | unusable =>
        rw [houtcome] at hpart
        cases hpart
        rw [if_neg]
        · rfl
        · rintro ⟨rfl, hlisted⟩
          rw [houtcome] at hlisted
          cases hlisted
    | notExecuted message =>
        rw [houtcome] at hpart
        cases hpart
  unfold executeListRuleset at hlisted
  obtain ⟨ip, hip, hrest⟩ := bind_eq_ok.mp hlisted
  obtain ⟨ip6, hip6, hjoined⟩ := bind_eq_ok.mp hrest
  cases hjoined
  rw [List.find?_append, hpart .ip ip hip, hpart .ip6 ip6 hip6]
  cases family <;> split_ifs <;> simp_all

section Searches

variable {list : Family → ListOutcome} {ruleset : Ruleset}
  {listing : Listing} (hlisted : executeListRuleset list ruleset = .ok listing)
  (family : Family) (hook : String)

include hlisted

theorem findTableForHook_of_list :
    findTableForHook listing hook family =
      if list family = .listed then
        (ruleset.hookView family hook).head?.map fun entry => entry.1.2.1
      else none := by
  unfold findTableForHook
  rw [find_executeListRuleset hlisted family]
  · split_ifs
    · unfold Ruleset.hookView
      rw [List.head?_map, List.head?_filter, Option.map_map]
      rfl
    · rfl
  · intro chain hfound
    simp only [Bool.and_eq_true, beq_iff_eq] at hfound
    exact hfound.1

theorem findBaseChainName_of_list (table : String) :
    findBaseChainName listing family table hook =
      if list family = .listed then
        match (ruleset.hookView family hook).find? fun entry =>
            entry.1.2.1 == table with
        | some entry => entry.1.2.2
        | none => toUppercase hook
      else toUppercase hook := by
  unfold findBaseChainName
  rw [find_executeListRuleset hlisted family]
  · split_ifs
    · have hview : (ruleset.hookView family hook).find? (fun entry =>
            entry.1.2.1 == table) =
          (ruleset.chains.find? fun chain =>
            chain.family == family && chain.table == table &&
              chain.hook == some hook).map Chain.typed := by
        unfold Ruleset.hookView
        rw [List.find?_map, List.find?_filter]
        congr 2
        funext chain
        rw [Bool.eq_iff_iff]
        simp only [Chain.hooksInto, Function.comp_apply, Chain.typed,
          Chain.key, decide_eq_true_eq, Bool.and_eq_true]
        exact and_right_comm
      rw [hview]
      cases ruleset.chains.find? _ <;> rfl
    · rfl
  · intro chain hfound
    simp only [Bool.and_eq_true, beq_iff_eq] at hfound
    exact hfound.1.1

end Searches

/-! ## Creating a base chain, seen from the hooks -/

section Create

variable {before after : Ruleset} {chain : Chain} {base : BaseHook}

/-- Taking a policy over changes neither key nor hook nor type. -/
theorem rebase_same (hbase : chain.base = some base)
    (hhooked : ∃ existing ∈ before.chains, existing.key = chain.key ∧
      existing.hookedLike chain = true)
    {found : Chain} (hmem : found ∈ before.chains) :
    (chain.rebase found).typed = found.typed ∧
      ∀ family hook, (chain.rebase found).hooksInto family hook =
        found.hooksInto family hook := by
  by_cases hkey : found.key = chain.key
  · obtain ⟨existing, hexisting, hsame, hlike⟩ := hhooked
    have heq : found = existing :=
      List.inj_on_of_nodup_map before.chains_nodup hmem hexisting
        (hkey.trans hsame.symm)
    subst heq
    cases hfound : found.base with
    | none => simp [Chain.hookedLike, hfound] at hlike
    | some asked =>
        simp only [Chain.hookedLike, hfound, hbase, BaseHook.sameHook,
          Bool.and_eq_true, beq_iff_eq] at hlike
        have hrebase : chain.rebase found =
            { found with base := some base } := by
          rw [Chain.rebase, if_pos hkey, hbase]
        rw [hrebase]
        refine ⟨?_, ?_⟩
        · simp [Chain.typed, Chain.key, hfound, hlike.1.1]
        · intro family hook
          simp [Chain.hooksInto, Chain.hook, hfound, hlike.1.2]
  · have hrebase : chain.rebase found = found := by
      rw [Chain.rebase, if_neg hkey]
    rw [hrebase]
    exact ⟨rfl, fun _ _ => rfl⟩

theorem filter_map_rebase (hbase : chain.base = some base)
    (hhooked : ∃ existing ∈ before.chains, existing.key = chain.key ∧
      existing.hookedLike chain = true)
    (family : Family) (hook : String) {chains : List Chain}
    (hsubset : ∀ found ∈ chains, found ∈ before.chains) :
    ((chains.map chain.rebase).filter
        (Chain.hooksInto family hook)).map Chain.typed =
      (chains.filter (Chain.hooksInto family hook)).map Chain.typed := by
  induction chains with
  | nil => rfl
  | cons found rest ih =>
      obtain ⟨htyped, hhooks⟩ :=
        rebase_same hbase hhooked (hsubset found List.mem_cons_self)
      have hrest := ih fun other hother =>
        hsubset other (List.mem_cons_of_mem _ hother)
      rw [List.map_cons, List.filter_cons, List.filter_cons, hhooks]
      split_ifs
      · rw [List.map_cons, List.map_cons, htyped, hrest]
      · exact hrest

/-- What creating the base chain does to the view of its hook. -/
def ViewExtended (chain : Chain) (before after : Ruleset)
    (family : Family) (hook : String) : Prop :=
  ¬before.HasChain chain.key ∧
      after.hookView family hook =
        before.hookView family hook ++ [chain.typed] ∨
    chain.typed ∈ before.hookView family hook ∧
      after.hookView family hook = before.hookView family hook

theorem BaseCreated.view_of_hook (hbase : chain.base = some base)
    (hcreated : BaseCreated chain before after) :
    ViewExtended chain before after chain.family base.hook := by
  have hhooks : chain.hooksInto chain.family base.hook = true := by
    simp [Chain.hooksInto, Chain.hook, hbase]
  rcases hcreated.chains with ⟨hfresh, hchains⟩ | ⟨hhooked, hchains⟩
  · refine .inl ⟨hfresh, ?_⟩
    unfold Ruleset.hookView
    rw [hchains, List.filter_append, List.map_append,
      List.filter_cons_of_pos hhooks]
    rfl
  · refine .inr ⟨?_, ?_⟩
    · obtain ⟨existing, hmem, hkey, hlike⟩ := hhooked
      have hsame := rebase_same hbase ⟨existing, hmem, hkey, hlike⟩ hmem
      have hrebase : chain.rebase existing =
          { existing with base := chain.base } := by
        rw [Chain.rebase, if_pos hkey]
      have htyped : existing.typed = chain.typed := by
        rw [← hsame.1, hrebase]
        exact Prod.ext hkey rfl
      have hfamily : existing.family = chain.family :=
        congrArg Prod.fst hkey
      have hinto : existing.hooksInto chain.family base.hook = true := by
        rw [← hsame.2, hrebase]
        simp [Chain.hooksInto, Chain.hook, hbase, hfamily]
      rw [← htyped]
      exact List.mem_map_of_mem (List.mem_filter.mpr ⟨hmem, hinto⟩)
    · unfold Ruleset.hookView
      rw [hchains]
      exact filter_map_rebase hbase hhooked _ _ fun _ h => h

theorem BaseCreated.view_of_other (hbase : chain.base = some base)
    (hcreated : BaseCreated chain before after)
    {family : Family} {hook : String}
    (hother : chain.hooksInto family hook = false) :
    after.hookView family hook = before.hookView family hook := by
  unfold Ruleset.hookView
  rcases hcreated.chains with ⟨_, hchains⟩ | ⟨hhooked, hchains⟩
  · rw [hchains, List.filter_append, List.filter_cons_of_neg
      (by rw [hother]; decide), List.filter_nil, List.append_nil]
  · rw [hchains]
    exact filter_map_rebase hbase hhooked _ _ fun _ h => h

theorem BaseCreated.hasChain (hcreated : BaseCreated chain before after)
    {key : ChainKey} (hkey : before.HasChain key) : after.HasChain key := by
  unfold Ruleset.HasChain at hkey ⊢
  rcases hcreated.chains with ⟨_, hchains⟩ | ⟨_, hchains⟩
  · rw [hchains, List.map_append]
    exact List.mem_append_left _ hkey
  · rw [hchains, chain.map_key_rebase]
    exact hkey

end Create

/-! ## The chain that the searches pick -/

/-- The base chain that is picked from a first and a second listing has the
type: with whole listings it is the first base chain of the hook, or a new
one when there is none. -/
def Ruleset.PicksRight (ruleset : Ruleset) (first second : ListOutcome)
    (family : Family) (hook table chainType : String) : Prop :=
  match if first = .listed then ruleset.hookView family hook else [] with
  | (key, found) :: _ =>
      if second = .listed then found = some chainType
      else ((family, key.2.1, toUppercase hook), some chainType) ∈
        ruleset.hookView family hook
  | [] => second = .listed → ∀ entry,
      (ruleset.hookView family hook).find? (fun entry =>
        entry.1.2.1 == table) = some entry → entry.2 = some chainType

/-- How the table for a hook was come by, and what the hook then looks
like. -/
inductive BaseFound (ruleset : Ruleset) (first : ListOutcome)
    (family : Family) (hook : String) (default : Chain) :
    String → List (ChainKey × Option String) → Prop
  | listed (key : ChainKey) (found : Option String)
      (rest : List (ChainKey × Option String)) (hfirst : first = .listed)
      (hview : ruleset.hookView family hook = (key, found) :: rest) :
      BaseFound ruleset first family hook default key.2.1
        (ruleset.hookView family hook)
  | created (view : List (ChainKey × Option String))
      (hnone : first = .listed → ruleset.hookView family hook = [])
      (hview : ¬ruleset.HasChain default.key ∧
          view = ruleset.hookView family hook ++ [default.typed] ∨
        default.typed ∈ ruleset.hookView family hook ∧
          view = ruleset.hookView family hook) :
      BaseFound ruleset first family hook default default.table view

theorem findOrCreateTableForHook_found
    {ruleset current after : Ruleset} {list : Family → ListOutcome}
    {listing : Listing} {outcome : BatchOutcome} {family : Family}
    {hook table : String} {name chainType : String} {prio : Int}
    (hlisted : executeListRuleset list ruleset = .ok listing)
    (hdefault : defaultBase hook = some (name, chainType, prio))
    (hkeys : ∀ key, ruleset.HasChain key → current.HasChain key)
    (hview : current.hookView family hook = ruleset.hookView family hook)
    (hok : findOrCreateTableForHook outcome listing hook family current =
      (.ok table, after)) :
    BaseFound ruleset (list family) family hook
        (defaultChain family name chainType prio hook) table
        (after.hookView family hook) ∧
      after.rules = current.rules ∧
      (∀ key, current.HasChain key → after.HasChain key) ∧
      ∀ otherFamily otherHook,
        (otherFamily ≠ family ∨ otherHook ≠ hook) →
        after.hookView otherFamily otherHook =
          current.hookView otherFamily otherHook := by
  rcases findOrCreateTableForHook_eq_ok hok with
    ⟨hfound, rfl⟩ | ⟨hnone, createdType, createdPrio, hcreate, hcreated⟩
  · rw [findTableForHook_of_list hlisted] at hfound
    refine ⟨?_, rfl, fun _ h => h, fun _ _ _ => rfl⟩
    split_ifs at hfound with hfirst
    cases hentries : ruleset.hookView family hook with
    | nil =>
        rw [hentries] at hfound
        cases hfound
    | cons entry rest =>
        rw [hentries] at hfound
        cases hfound
        rw [hview]
        exact .listed entry.1 entry.2 rest hfirst hentries
  · rw [hdefault] at hcreate
    cases hcreate
    rw [findTableForHook_of_list hlisted] at hnone
    refine ⟨?_, hcreated.rules, fun _ => hcreated.hasChain, ?_⟩
    · have hextended := hcreated.view_of_hook rfl
      apply BaseFound.created
      · intro hfirst
        rw [if_pos hfirst, Option.map_eq_none_iff,
          List.head?_eq_none_iff] at hnone
        exact hnone
      · rw [← hview]
        rcases hextended with ⟨hfresh, happended⟩ | hthere
        · exact .inl ⟨fun hknown => hfresh (hkeys _ hknown), happended⟩
        · exact .inr hthere
    · intro otherFamily otherHook hother
      apply hcreated.view_of_other rfl
      rcases hother with hne | hne
      · simp [Chain.hooksInto, defaultChain, Ne.symm hne]
      · simp [Chain.hooksInto, Chain.hook, defaultChain, Ne.symm hne]

/-- The name that the second search settles on. -/
def pickedName (view : List (ChainKey × Option String))
    (second : ListOutcome) (table hook : String) : String :=
  if second = .listed then
    match view.find? fun entry => entry.1.2.1 == table with
    | some entry => entry.1.2.2
    | none => toUppercase hook
  else toUppercase hook

theorem picksRight_of_listed
    {ruleset : Ruleset} {first second : ListOutcome} {family : Family}
    {hook table chainType : String} {key : ChainKey}
    {found : Option String} {rest : List (ChainKey × Option String)}
    (hfirst : first = .listed)
    (hview : ruleset.hookView family hook = (key, found) :: rest) :
    ((family, key.2.1, pickedName (ruleset.hookView family hook) second
        key.2.1 hook), some chainType) ∈ ruleset.hookView family hook ↔
      ruleset.PicksRight first second family hook table chainType := by
  have hhead : (key, found) ∈ ruleset.hookView family hook := by
    rw [hview]
    exact List.mem_cons_self
  have hfamily : key.1 = family := (Ruleset.hookView_key hhead).1
  unfold Ruleset.PicksRight pickedName
  rw [if_pos hfirst]
  by_cases hsecond : second = .listed
  · have hpicked : (ruleset.hookView family hook).find? (fun entry =>
        entry.1.2.1 == key.2.1) = some (key, found) := by
      rw [hview]
      simp
    rw [if_pos hsecond, hpicked]
    simp only [hview, if_pos hsecond]
    have hsame : ((family, key.2.1, key.2.2) : ChainKey) = key := by
      rw [← hfamily]
    rw [hsame, ← hview]
    exact Ruleset.mem_hookView_iff hhead
  · rw [if_neg hsecond]
    simp only [hview, if_neg hsecond]

/-- The new base chain is not one of those that were there. -/
theorem mem_extended_iff
    {ruleset : Ruleset} {family : Family} {hook : String} {default : Chain}
    {view : List (ChainKey × Option String)}
    (hview : ¬ruleset.HasChain default.key ∧
        view = ruleset.hookView family hook ++ [default.typed] ∨
      default.typed ∈ ruleset.hookView family hook ∧
        view = ruleset.hookView family hook)
    {key : ChainKey} (hknown : ruleset.HasChain key)
    {type : Option String} :
    (key, type) ∈ view ↔ (key, type) ∈ ruleset.hookView family hook := by
  rcases hview with ⟨hfresh, heq⟩ | ⟨_, heq⟩
  · rw [heq, List.mem_append, List.mem_singleton]
    constructor
    · rintro (hold | hnew)
      · exact hold
      · rw [Chain.typed, Prod.mk.injEq] at hnew
        exact absurd (hnew.1 ▸ hknown) hfresh
    · exact Or.inl
  · rw [heq]

theorem picksRight_of_created
    {ruleset : Ruleset} {first second : ListOutcome} {family : Family}
    {hook chainType : String} {default : Chain}
    {view : List (ChainKey × Option String)}
    (hkey : default.key = (family, default.table, toUppercase hook))
    (htype : default.base.map BaseHook.chainType = some chainType)
    (hnone : first = .listed → ruleset.hookView family hook = [])
    (hview : ¬ruleset.HasChain default.key ∧
        view = ruleset.hookView family hook ++ [default.typed] ∨
      default.typed ∈ ruleset.hookView family hook ∧
        view = ruleset.hookView family hook) :
    ((family, default.table, pickedName view second default.table hook),
        some chainType) ∈ view ↔
      ruleset.PicksRight first second family hook default.table
        chainType := by
  have htyped : default.typed = (default.key, some chainType) := by
    rw [Chain.typed, htype]
  have hmem : (default.key, some chainType) ∈ view := by
    rw [← htyped]
    rcases hview with ⟨_, heq⟩ | ⟨hthere, heq⟩
    · rw [heq]
      exact List.mem_append_right _ List.mem_cons_self
    · rw [heq]
      exact hthere
  have hempty : (if first = .listed then ruleset.hookView family hook
      else []) = [] := by
    split_ifs with hfirst
    · exact hnone hfirst
    · rfl
  unfold Ruleset.PicksRight pickedName
  rw [hempty]
  by_cases hsecond : second = .listed
  · simp only [if_pos hsecond, forall_prop_of_true hsecond]
    cases hpicked : (ruleset.hookView family hook).find? (fun entry =>
        entry.1.2.1 == default.table) with
    | some entry =>
        have hentry := List.mem_of_find?_eq_some hpicked
        have htable : entry.1.2.1 = default.table := by
          simpa using List.find?_some hpicked
        have hviewPicked : view.find? (fun entry =>
            entry.1.2.1 == default.table) = some entry := by
          rcases hview with ⟨_, heq⟩ | ⟨_, heq⟩
          · rw [heq, List.find?_append, hpicked, Option.some_or]
          · rw [heq, hpicked]
        have hsame : ((family, default.table, entry.1.2.2) : ChainKey) =
            entry.1 := by
          rw [← htable, ← (Ruleset.hookView_key hentry).1]
        have hknown := (Ruleset.hookView_key hentry).2
        rw [hviewPicked]
        simp only [hsame, Option.some.injEq, forall_eq']
        rw [mem_extended_iff hview hknown]
        exact Ruleset.mem_hookView_iff hentry
    | none =>
        have hviewPicked : view.find? (fun entry =>
            entry.1.2.1 == default.table) = some default.typed := by
          rcases hview with ⟨_, heq⟩ | ⟨hthere, _⟩
          · rw [heq, List.find?_append, hpicked]
            simp [Chain.typed, Chain.key]
          · have hnot := List.find?_eq_none.mp hpicked _ hthere
            simp [Chain.typed, Chain.key] at hnot
        have hsame : ((family, default.table, default.typed.1.2.2) :
            ChainKey) = default.key := by
          change (family, default.table, default.key.2.2) = default.key
          rw [hkey]
        rw [hviewPicked]
        simp only [hsame, reduceCtorEq, false_implies, implies_true,
          iff_true]
        exact hmem
  · simp only [if_neg hsecond, forall_prop_of_false hsecond, iff_true]
    rw [← hkey]
    exact hmem

theorem BaseFound.picksRight_iff
    {ruleset : Ruleset} {first : ListOutcome} {family : Family}
    {hook chainType table : String} {default : Chain}
    {view : List (ChainKey × Option String)}
    (hkey : default.key = (family, default.table, toUppercase hook))
    (htype : default.base.map BaseHook.chainType = some chainType)
    (hfound : BaseFound ruleset first family hook default table view)
    (second : ListOutcome) :
    ((family, table, pickedName view second table hook),
        some chainType) ∈ view ↔
      ruleset.PicksRight first second family hook default.table
        chainType := by
  cases hfound with
  | listed key found rest hfirst hview =>
      exact picksRight_of_listed hfirst hview
  | created view hnone hview =>
      exact picksRight_of_created hkey htype hnone hview

/-! ## The batch of `initialize` -/

section Batch

variable {ruleset next : Ruleset}

theorem Ruleset.hookView_apply {command : NftCommand}
    (hadds : command.adds = true) (hok : ruleset.apply command = some next)
    (family : Family) (hook : String) :
    next.hookView family hook = ruleset.hookView family hook := by
  cases Ruleset.applied_of_apply hok with
  | tableKnown name table => rfl
  | tableAdded name table => rfl
  | chainKnown chain hknown hregular => rfl
  | chainUpdated chain hbase hhooked =>
      exact absurd (Option.isNone_iff_eq_none.mp hadds) hbase
  | chainAdded chain htable hfresh =>
      have hregular : chain.base = none := Option.isNone_iff_eq_none.mp hadds
      have hhooks : chain.hooksInto family hook = false := by
        simp [Chain.hooksInto, Chain.hook, hregular]
      unfold Ruleset.hookView Ruleset.addChain
      rw [List.filter_append, List.filter_cons_of_neg
        (by rw [hhooks]; decide), List.filter_nil, List.append_nil]
  | ruleAdded key expr hchain hjumps => rfl
  | ruleDeleted key handle => cases hadds
  | chainDropped key hfree => cases hadds

theorem Ruleset.hookView_applyBatch {commands : List NftCommand}
    (hadds : ∀ command ∈ commands, command.adds = true)
    (hok : ruleset.applyBatch commands = some next)
    (family : Family) (hook : String) :
    next.hookView family hook = ruleset.hookView family hook :=
  Ruleset.applyBatch_relates
    (R := fun before after =>
      after.hookView family hook = before.hookView family hook)
    (fun _ => rfl) (fun _ _ _ hfirst hsecond => hsecond.trans hfirst)
    (fun command hmem _ _ happly =>
      Ruleset.hookView_apply (hadds command hmem) happly family hook) hok

end Batch

theorem addRule_of_supervisorCommands
    {listing : Listing} {family : Family} {table hook chain : String}
    {key : ChainKey} {expr : List RuleExpr}
    (hmem : .addRule key expr ∈
      supervisorCommands listing family table hook chain) :
    key = (family, table, findBaseChainName listing family table hook) ∧
      expr = [.jump chain] := by
  rcases List.mem_append.mp hmem with hchain | hjump
  · exact absurd hchain NftablesManager.not_mem_addChainIfNotPresent
  · exact NftablesManager.eq_of_mem_addRuleIfNotPresent hjump

/-- A rule that jumps to the target is the jump of its own supervisor
chain. -/
theorem addRule_jumps_of_supervisorCommands
    {listing : Listing} {family : Family} {table hook chain : String}
    {rule : Rule} {target : String}
    (hmem : .addRule rule.chainKey rule.expr ∈
      supervisorCommands listing family table hook chain)
    (hjumps : ruleJumpsTo rule target = true) :
    target = chain ∧ rule.chainKey =
      (family, table, findBaseChainName listing family table hook) := by
  obtain ⟨hkey, hexpr⟩ := addRule_of_supervisorCommands hmem
  rw [ruleJumpsTo, hexpr] at hjumps
  simp [exprJumpsTo] at hjumps
  exact ⟨hjumps.symm, hkey⟩

theorem addRule_jumps_of_supervisorFilterCommands
    {manager : NftablesManager} {listing : Listing} {family : Family}
    {table : String} {rule : Rule} {target : String}
    (hmem : .addRule rule.chainKey rule.expr ∈
      manager.supervisorFilterCommands listing family table)
    (hjumps : ruleJumpsTo rule target = true) :
    target = manager.supervisorFilterChain ∧ rule.chainKey =
      (family, table, findBaseChainName listing family table "forward") := by
  rcases List.mem_append.mp hmem with hsupervisor | hconntrack
  · exact addRule_jumps_of_supervisorCommands hsupervisor hjumps
  · obtain ⟨_, hexpr⟩ :=
      NftablesManager.eq_of_mem_addRuleIfNotPresent hconntrack
    rw [ruleJumpsTo, hexpr] at hjumps
    simp [exprJumpsTo] at hjumps

/-! ## One supervisor chain -/

section Placed

variable {ruleset current after : Ruleset} {first second : ListOutcome}
  {family : Family} {hook table target chainType : String}
  {default : Chain} {view : List (ChainKey × Option String)}

/-- A rule that was there before sits in a base chain that was there. -/
theorem BaseFound.mem_old
    (hfound : BaseFound ruleset first family hook default table view)
    {key : ChainKey} (hkey : ruleset.HasChain key) {type : Option String} :
    (key, type) ∈ view ↔ (key, type) ∈ ruleset.hookView family hook := by
  cases hfound with
  | listed => exact Iff.rfl
  | created view hnone hview => exact mem_extended_iff hview hkey

/-- The jumps to a supervisor chain are the old ones and the one from the
picked base chain. -/
structure Placed (ruleset after : Ruleset) (family : Family)
    (target : String) (key : ChainKey) : Prop where
  jump : after.HasRule key fun rule => ruleJumpsTo rule target
  kept : ∀ rule ∈ ruleset.rules, rule ∈ after.rules
  only : ∀ rule ∈ after.rules, ruleJumpsTo rule target = true →
    rule.family = family → rule ∈ ruleset.rules ∨ rule.chainKey = key

theorem BaseFound.jumpedFrom_iff
    (hkey : default.key = (family, default.table, toUppercase hook))
    (htype : default.base.map BaseHook.chainType = some chainType)
    (hfound : BaseFound ruleset first family hook default table view)
    (hview : after.hookView family hook = view)
    (hplaced : Placed ruleset after family target
      (family, table, pickedName view second table hook)) :
    JumpedFrom after family chainType hook target ↔
      ruleset.PicksRight first second family hook default.table chainType ∨
        JumpedFrom ruleset family chainType hook target := by
  have hpicked := hfound.picksRight_iff hkey htype second
  rw [jumpedFrom_iff_hookView, jumpedFrom_iff_hookView, hview]
  constructor
  · rintro ⟨rule, hmem, hjumps, hbase⟩
    rw [← hview] at hbase
    have hfamily := (Ruleset.hookView_key hbase).1
    rw [hview] at hbase
    rcases hplaced.only rule hmem hjumps hfamily with hold | hnew
    · refine Or.inr ⟨rule, hold, hjumps, ?_⟩
      exact (hfound.mem_old (ruleset.rule_chain rule hold)).mp hbase
    · rw [hnew] at hbase
      exact Or.inl (hpicked.mp hbase)
  · rintro (hright | ⟨rule, hmem, hjumps, hbase⟩)
    · obtain ⟨rule, hmem, hchain, hjumps⟩ := hplaced.jump
      refine ⟨rule, hmem, hjumps, ?_⟩
      rw [hchain]
      exact hpicked.mpr hright
    · refine ⟨rule, hplaced.kept rule hmem, hjumps, ?_⟩
      exact (hfound.mem_old (ruleset.rule_chain rule hmem)).mpr hbase

end Placed

/-! ## The four supervisor chains -/

/-- Every supervisor chain is jumped to from a base chain of the right type
on the right hook. -/
def HangRight (manager : NftablesManager) (ruleset : Ruleset) : Prop :=
  JumpedFrom ruleset .ip "nat" "postrouting" manager.supervisorNatChain ∧
  JumpedFrom ruleset .ip "filter" "forward"
    manager.supervisorFilterChain ∧
  JumpedFrom ruleset .ip "nat" "prerouting"
    manager.supervisorPreroutingChain ∧
  (manager.ipv6Enabled = true →
    JumpedFrom ruleset .ip6 "filter" "forward"
      manager.supervisorFilterChain)

instance HangRight.decidable (manager : NftablesManager)
    (ruleset : Ruleset) : Decidable (HangRight manager ruleset) :=
  inferInstanceAs (Decidable (_ ∧ _))

/-- The base chain that is picked has the right type, or one of that type
jumps to the supervisor chain already. -/
def RightBase (ruleset : Ruleset) (first second : ListOutcome)
    (family : Family) (hook table chainType target : String) : Prop :=
  ruleset.PicksRight first second family hook table chainType ∨
    JumpedFrom ruleset family chainType hook target

def RightBases (manager : NftablesManager) (calls : InitializeCalls)
    (ruleset : Ruleset) : Prop :=
  RightBase ruleset (calls.list .ip) (calls.relist .ip) .ip "postrouting"
    "nat" "nat" manager.supervisorNatChain ∧
  RightBase ruleset (calls.list .ip) (calls.relist .ip) .ip "forward"
    "filter" "filter" manager.supervisorFilterChain ∧
  RightBase ruleset (calls.list .ip) (calls.relist .ip) .ip "prerouting"
    "nat" "nat" manager.supervisorPreroutingChain ∧
  (manager.ipv6Enabled = true →
    RightBase ruleset (calls.list6 .ip6) (calls.relist6 .ip6) .ip6 "forward"
      "filter" "filter" manager.supervisorFilterChain)

/-- What the IPv6 part does before the batch runs. -/
structure Prepared6 (manager : NftablesManager) (calls : InitializeCalls)
    (before after : Ruleset) (commands : List NftCommand) : Prop where
  rules : after.rules = before.rules
  view : ∀ hook, after.hookView .ip hook = before.hookView .ip hook
  hasChain : ∀ key, before.HasChain key → after.HasChain key
  adds : ∀ command ∈ commands, command.adds = true
  family : ∀ key expr, .addRule key expr ∈ commands → key.1 = .ip6
  found : manager.ipv6Enabled = true → ∃ table listing,
    BaseFound before (calls.list6 .ip6) .ip6 "forward"
      (defaultChain .ip6 "filter" "filter" 0 "forward") table
      (after.hookView .ip6 "forward") ∧
    executeListRuleset calls.relist6 after = .ok listing ∧
    commands = manager.supervisorFilterCommands listing .ip6 table

namespace NftablesManager

variable {manager : NftablesManager} {calls : InitializeCalls}
  {ruleset after : Ruleset}

theorem family_of_supervisorFilterCommands {listing : Listing}
    {family : Family} {table : String} {key : ChainKey}
    {expr : List RuleExpr}
    (hmem : .addRule key expr ∈
      manager.supervisorFilterCommands listing family table) :
    key.1 = family := by
  rcases List.mem_append.mp hmem with hsupervisor | hconntrack
  · rw [(addRule_of_supervisorCommands hsupervisor).1]
  · rw [(NftablesManager.eq_of_mem_addRuleIfNotPresent hconntrack).1]

theorem initializeChains6_prepared {commands : List NftCommand}
    (hok : manager.initializeChains6 calls ruleset =
      (.ok commands, after)) :
    Prepared6 manager calls ruleset after commands := by
  unfold initializeChains6 at hok
  by_cases henabled : manager.ipv6Enabled = true
  · rw [if_pos henabled] at hok
    obtain ⟨listing, hlisted, hok⟩ := NftM.list_bind_eq_ok.mp hok
    obtain ⟨table, created, htable, hok⟩ := NftM.bind_eq_ok.mp hok
    obtain ⟨listing6, hrelisted, hok⟩ := NftM.list_bind_eq_ok.mp hok
    cases hok
    obtain ⟨hfound, hrules, hchains, hother⟩ :=
      findOrCreateTableForHook_found hlisted rfl (fun _ h => h) rfl htable
    exact {
      rules := hrules
      view := fun hook => hother .ip hook (Or.inl (by decide))
      hasChain := hchains
      adds := adds_supervisorFilterCommands _ _ _ _
      family := fun _ _ => family_of_supervisorFilterCommands
      found := fun _ => ⟨table, listing6, hfound, hrelisted, rfl⟩ }
  · rw [if_neg henabled] at hok
    cases hok
    exact {
      rules := rfl
      view := fun _ => rfl
      hasChain := fun _ h => h
      adds := fun _ hmem => absurd hmem List.not_mem_nil
      family := fun _ _ hmem => absurd hmem List.not_mem_nil
      found := fun hno => absurd hno henabled }

/-- A supervisor chain of the batch, whose commands were derived from a
listing that is still true. -/
theorem placed_of_batch {listed : Ruleset} {listing : Listing}
    {family : Family} {table hook target : String}
    {commands : List NftCommand}
    (htrue : ∀ rule ∈ listing.rules, rule ∈ ruleset.rules)
    (hrules : ruleset.rules = listed.rules)
    (hsubset : supervisorCommands listing family table hook target ⊆
      commands)
    (hadds : ∀ command ∈ commands, command.adds = true)
    (hbatch : ruleset.applyBatch commands = some after)
    (honly : ∀ rule : Rule, .addRule rule.chainKey rule.expr ∈ commands →
      ruleJumpsTo rule target = true → rule.family = family →
      rule.chainKey =
        (family, table, findBaseChainName listing family table hook)) :
    Placed listed after family target
      (family, table, findBaseChainName listing family table hook) := by
  have hjump : addJumpIfNotPresent listing
      (family, table, findBaseChainName listing family table hook)
        target ⊆ commands := by
    intro command hmem
    exact hsubset (List.mem_append_right _ hmem)
  constructor
  · apply hasRule_of_addRuleIfNotPresent htrue _ hjump hadds hbatch
    intro rule hexpr
    simp [ruleJumpsTo, hexpr, exprJumpsTo]
  · intro rule hmem
    rw [← hrules] at hmem
    exact (Ruleset.applyBatch_grows hadds hbatch).rules.subset hmem
  · intro rule hmem hjumps hfamily
    rcases Ruleset.mem_rules_of_applyBatch hbatch hmem with hold | hadded
    · rw [hrules] at hold
      exact Or.inl hold
    · exact Or.inr (honly rule hadded hjumps hfamily)

/-- The batch of `initialize` for given tables. -/
def batchCommands (manager : NftablesManager) (listing : Listing)
    (natTable filterTable preroutingTable : String)
    (commands6 : List NftCommand) : List NftCommand :=
  supervisorCommands listing .ip natTable "postrouting"
      manager.supervisorNatChain ++
    manager.supervisorFilterCommands listing .ip filterTable ++
    supervisorCommands listing .ip preroutingTable "prerouting"
      manager.supervisorPreroutingChain ++
    commands6

/-- A successful run up to its batch, and the batch. -/
structure Assembled (manager : NftablesManager) (calls : InitializeCalls)
    (ruleset current after : Ruleset) (listing : Listing)
    (natTable filterTable preroutingTable : String)
    (commands6 : List NftCommand) : Prop where
  nat : BaseFound ruleset (calls.list .ip) .ip "postrouting"
    (defaultChain .ip "nat" "nat" 100 "postrouting") natTable
    (after.hookView .ip "postrouting")
  filter : BaseFound ruleset (calls.list .ip) .ip "forward"
    (defaultChain .ip "filter" "filter" 0 "forward") filterTable
    (after.hookView .ip "forward")
  prerouting : BaseFound ruleset (calls.list .ip) .ip "prerouting"
    (defaultChain .ip "nat" "nat" (-100) "prerouting") preroutingTable
    (after.hookView .ip "prerouting")
  name : ∀ table hook, findBaseChainName listing .ip table hook =
    pickedName (after.hookView .ip hook) (calls.relist .ip) table hook
  rules : current.rules = ruleset.rules
  listed : ∀ rule ∈ listing.rules, rule ∈ current.rules
  adds : ∀ command ∈ manager.batchCommands listing natTable filterTable
    preroutingTable commands6, command.adds = true
  family6 : ∀ key expr, .addRule key expr ∈ commands6 → key.1 = .ip6
  batch : current.applyBatch (manager.batchCommands listing natTable
    filterTable preroutingTable commands6) = some after

section Assembly

variable {current : Ruleset} {listing : Listing}
  {natTable filterTable preroutingTable : String}
  {commands6 : List NftCommand}

theorem Assembled.not_mem_commands6
    (hrun : Assembled manager calls ruleset current after listing natTable
      filterTable preroutingTable commands6)
    {rule : Rule} (hfamily : rule.family = .ip) :
    .addRule rule.chainKey rule.expr ∉ commands6 := by
  intro hmem
  have hother := hrun.family6 _ _ hmem
  rw [Rule.chainKey, hfamily] at hother
  cases hother

theorem Assembled.nat_iff
    (hrun : Assembled manager calls ruleset current after listing natTable
      filterTable preroutingTable commands6) :
    JumpedFrom after .ip "nat" "postrouting" manager.supervisorNatChain ↔
      RightBase ruleset (calls.list .ip) (calls.relist .ip) .ip
        "postrouting" "nat" "nat" manager.supervisorNatChain := by
  apply hrun.nat.jumpedFrom_iff rfl rfl rfl
  rw [← hrun.name]
  apply placed_of_batch hrun.listed hrun.rules _ hrun.adds hrun.batch
  · intro rule hmem hjumps hfamily
    simp only [batchCommands, List.mem_append] at hmem
    rcases hmem with ((hmem | hmem) | hmem) | hmem
    · exact (addRule_jumps_of_supervisorCommands hmem hjumps).2
    · exact absurd (addRule_jumps_of_supervisorFilterCommands hmem hjumps).1
        manager.supervisorNatChain_ne_filter
    · exact absurd (addRule_jumps_of_supervisorCommands hmem hjumps).1
        manager.supervisorNatChain_ne_prerouting
    · exact (hrun.not_mem_commands6 hfamily hmem).elim
  · intro command hmem
    simp [batchCommands, hmem]

theorem Assembled.filter_iff
    (hrun : Assembled manager calls ruleset current after listing natTable
      filterTable preroutingTable commands6) :
    JumpedFrom after .ip "filter" "forward"
        manager.supervisorFilterChain ↔
      RightBase ruleset (calls.list .ip) (calls.relist .ip) .ip "forward"
        "filter" "filter" manager.supervisorFilterChain := by
  apply hrun.filter.jumpedFrom_iff rfl rfl rfl
  rw [← hrun.name]
  apply placed_of_batch hrun.listed hrun.rules _ hrun.adds hrun.batch
  · intro rule hmem hjumps hfamily
    simp only [batchCommands, List.mem_append] at hmem
    rcases hmem with ((hmem | hmem) | hmem) | hmem
    · exact absurd (addRule_jumps_of_supervisorCommands hmem hjumps).1.symm
        manager.supervisorNatChain_ne_filter
    · exact (addRule_jumps_of_supervisorFilterCommands hmem hjumps).2
    · exact absurd (addRule_jumps_of_supervisorCommands hmem hjumps).1
        manager.supervisorFilterChain_ne_prerouting
    · exact (hrun.not_mem_commands6 hfamily hmem).elim
  · intro command hmem
    simp [batchCommands, supervisorFilterCommands, hmem]

theorem Assembled.prerouting_iff
    (hrun : Assembled manager calls ruleset current after listing natTable
      filterTable preroutingTable commands6) :
    JumpedFrom after .ip "nat" "prerouting"
        manager.supervisorPreroutingChain ↔
      RightBase ruleset (calls.list .ip) (calls.relist .ip) .ip
        "prerouting" "nat" "nat" manager.supervisorPreroutingChain := by
  apply hrun.prerouting.jumpedFrom_iff rfl rfl rfl
  rw [← hrun.name]
  apply placed_of_batch hrun.listed hrun.rules _ hrun.adds hrun.batch
  · intro rule hmem hjumps hfamily
    simp only [batchCommands, List.mem_append] at hmem
    rcases hmem with ((hmem | hmem) | hmem) | hmem
    · exact absurd (addRule_jumps_of_supervisorCommands hmem hjumps).1.symm
        manager.supervisorNatChain_ne_prerouting
    · exact absurd
        (addRule_jumps_of_supervisorFilterCommands hmem hjumps).1.symm
        manager.supervisorFilterChain_ne_prerouting
    · exact (addRule_jumps_of_supervisorCommands hmem hjumps).2
    · exact (hrun.not_mem_commands6 hfamily hmem).elim
  · intro command hmem
    simp [batchCommands, hmem]

/-- The IPv6 chain hangs as the IPv4 filter chain does; none of the other
commands touches the family. -/
theorem Assembled.filter6_iff {third : Ruleset} {table : String}
    {listing6 : Listing}
    (hrun : Assembled manager calls ruleset current after listing natTable
      filterTable preroutingTable commands6)
    (hfound : BaseFound third (calls.list6 .ip6) .ip6 "forward"
      (defaultChain .ip6 "filter" "filter" 0 "forward") table
      (after.hookView .ip6 "forward"))
    (hrules : current.rules = third.rules)
    (hname : findBaseChainName listing6 .ip6 table "forward" =
      pickedName (after.hookView .ip6 "forward") (calls.relist6 .ip6) table
        "forward")
    (htrue : ∀ rule ∈ listing6.rules, rule ∈ current.rules)
    (hcommands : commands6 =
      manager.supervisorFilterCommands listing6 .ip6 table) :
    JumpedFrom after .ip6 "filter" "forward"
        manager.supervisorFilterChain ↔
      RightBase third (calls.list6 .ip6) (calls.relist6 .ip6) .ip6
        "forward" "filter" "filter" manager.supervisorFilterChain := by
  apply hfound.jumpedFrom_iff rfl rfl rfl
  rw [← hname]
  apply placed_of_batch htrue hrules _ hrun.adds hrun.batch
  · intro rule hmem hjumps hfamily
    have hip : ∀ key : ChainKey, key.1 = .ip → rule.chainKey ≠ key := by
      intro key hkey heq
      rw [← heq, Rule.chainKey, hfamily] at hkey
      cases hkey
    simp only [batchCommands, List.mem_append] at hmem
    rcases hmem with ((hmem | hmem) | hmem) | hmem
    · exact absurd (addRule_of_supervisorCommands hmem).1 (hip _ rfl)
    · have hother := family_of_supervisorFilterCommands hmem
      exact absurd rfl (hip _ hother)
    · exact absurd (addRule_of_supervisorCommands hmem).1 (hip _ rfl)
    · rw [hcommands] at hmem
      exact (addRule_jumps_of_supervisorFilterCommands hmem hjumps).2
  · intro command hmem
    simp [batchCommands, hcommands, supervisorFilterCommands, hmem]

end Assembly

theorem rightBase_congr {first second : Ruleset} {list relist : ListOutcome}
    {family : Family} {hook table chainType target : String}
    (hview : first.hookView family hook = second.hookView family hook)
    (hrules : first.rules = second.rules) :
    RightBase first list relist family hook table chainType target ↔
      RightBase second list relist family hook table chainType target := by
  unfold RightBase Ruleset.PicksRight
  rw [jumpedFrom_iff_hookView, jumpedFrom_iff_hookView, hview, hrules]

/-- When `initialize` succeeds, its chains hang off base chains of the right
type exactly when the picked base chains have it or others jumped there
before. -/
theorem hangRight_iff_rightBases
    (hok : manager.initializeChains calls ruleset = (.ok (), after)) :
    HangRight manager after ↔ RightBases manager calls ruleset := by
  unfold initializeChains at hok
  obtain ⟨listing, hlisted, hok⟩ := NftM.list_bind_eq_ok.mp hok
  obtain ⟨natTable, first, hnat, hok⟩ := NftM.bind_eq_ok.mp hok
  obtain ⟨filterTable, second, hfilter, hok⟩ := NftM.bind_eq_ok.mp hok
  obtain ⟨preroutingTable, third, hprerouting, hok⟩ :=
    NftM.bind_eq_ok.mp hok
  obtain ⟨relisting, hrelisted, hok⟩ := NftM.list_bind_eq_ok.mp hok
  obtain ⟨commands6, fourth, hcommands6, hrun⟩ := NftM.bind_eq_ok.mp hok
  have hbatch : fourth.applyBatch (manager.batchCommands relisting natTable
      filterTable preroutingTable commands6) = some after :=
    NftM.applyBatch_of_runCommands hrun
  -- How each table was found, and that later steps keep the other hooks.
  obtain ⟨hnatFound, hrules1, hkeys1, hother1⟩ :=
    findOrCreateTableForHook_found hlisted rfl (fun _ h => h) rfl hnat
  obtain ⟨hfilterFound, hrules2, hkeys2, hother2⟩ :=
    findOrCreateTableForHook_found hlisted rfl hkeys1
      (hother1 _ _ (Or.inr (by decide))) hfilter
  obtain ⟨hpreFound, hrules3, hkeys3, hother3⟩ :=
    findOrCreateTableForHook_found hlisted rfl
      (fun key hkey => hkeys2 key (hkeys1 key hkey))
      ((hother2 _ _ (Or.inr (by decide))).trans
        (hother1 _ _ (Or.inr (by decide)))) hprerouting
  have hprepared := initializeChains6_prepared hcommands6
  have hthird : third.rules = ruleset.rules := by
    rw [hrules3, hrules2, hrules1]
  have hadds : ∀ command ∈ manager.batchCommands relisting natTable
      filterTable preroutingTable commands6, command.adds = true := by
    intro command hmem
    simp only [batchCommands, List.mem_append] at hmem
    rcases hmem with ((hmem | hmem) | hmem) | hmem
    · exact adds_supervisorCommands _ _ _ _ _ command hmem
    · exact adds_supervisorFilterCommands _ _ _ _ command hmem
    · exact adds_supervisorCommands _ _ _ _ _ command hmem
    · exact hprepared.adds command hmem
  have hfourth := Ruleset.hookView_applyBatch hadds hbatch
  have hview : ∀ hook, after.hookView .ip hook = third.hookView .ip hook :=
    fun hook => (hfourth .ip hook).trans (hprepared.view hook)
  have hassembled : Assembled manager calls ruleset fourth after relisting
      natTable filterTable preroutingTable commands6 := {
    nat := by
      rw [hview, hother3 _ _ (Or.inr (by decide)),
        hother2 _ _ (Or.inr (by decide))]
      exact hnatFound
    filter := by
      rw [hview, hother3 _ _ (Or.inr (by decide))]
      exact hfilterFound
    prerouting := by
      rw [hview]
      exact hpreFound
    name := by
      intro table hook
      rw [hview]
      exact findBaseChainName_of_list hrelisted .ip hook table
    rules := hprepared.rules.trans hthird
    listed := by
      rw [hprepared.rules]
      exact (executeListRuleset_trueOf hrelisted).rules
    adds := hadds
    family6 := hprepared.family
    batch := hbatch }
  have hsame6 : third.hookView .ip6 "forward" =
      ruleset.hookView .ip6 "forward" := by
    rw [hother3 _ _ (Or.inl (by decide)), hother2 _ _ (Or.inl (by decide)),
      hother1 _ _ (Or.inl (by decide))]
  unfold HangRight RightBases
  rw [hassembled.nat_iff, hassembled.filter_iff, hassembled.prerouting_iff]
  refine and_congr_right fun _ => and_congr_right fun _ =>
    and_congr_right fun _ => imp_congr_right fun henabled => ?_
  obtain ⟨table, listing6, hfound, hrelisted6, hcommands⟩ :=
    hprepared.found henabled
  rw [← hfourth] at hfound
  rw [← rightBase_congr hsame6 hthird]
  apply hassembled.filter6_iff hfound hprepared.rules _ _ hcommands
  · rw [hfourth]
    exact findBaseChainName_of_list hrelisted6 .ip6 "forward" table
  · exact (executeListRuleset_trueOf hrelisted6).rules

end NftablesManager

theorem emptyRuleset_hangRight_iff :
    HangRight sampleManager
        (sampleManager.initializeChains (initializeWith batchApplied)
          Ruleset.empty).2 ↔
      RightBases sampleManager (initializeWith batchApplied)
        Ruleset.empty :=
  NftablesManager.hangRight_iff_rightBases
    (NftM.eq_ok_of_isOk (by decide +kernel))

/-- A mangle table that hooks where the NAT table hooks, and is older. -/
def mangleRuleset : Ruleset where
  tables := [(.ip, "mangle"), (.ip, "nat"), (.ip, "filter")]
  chains := [
    ⟨.ip, "mangle", "PREROUTING",
      some ⟨"filter", "prerouting", -150, "accept"⟩⟩,
    ⟨.ip, "mangle", "POSTROUTING",
      some ⟨"filter", "postrouting", -150, "accept"⟩⟩,
    ⟨.ip, "nat", "PREROUTING",
      some ⟨"nat", "prerouting", -100, "accept"⟩⟩,
    ⟨.ip, "nat", "POSTROUTING",
      some ⟨"nat", "postrouting", 100, "accept"⟩⟩,
    ⟨.ip, "filter", "FORWARD", some ⟨"filter", "forward", 0, "accept"⟩⟩]
  rules := []
  nextHandle := 1
  chain_table := by decide
  chains_nodup := by decide
  rule_chain := by simp
  jump_chain := by simp
  handles_nodup := Ruleset.empty.handles_nodup
  handle_lt := Ruleset.empty.handle_lt

theorem supervisors_hang_off_mangle :
    (sampleManager.initializeChains (initializeWith batchApplied)
        mangleRuleset).1.isOk = true ∧
      ¬HangRight sampleManager
        (sampleManager.initializeChains (initializeWith batchApplied)
          mangleRuleset).2 := by
  decide +kernel

end AlephCvm.Nft
