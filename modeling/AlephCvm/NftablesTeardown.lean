import AlephCvm.NftablesManager

/-!
# What setup adds, teardown removes

The chains of a machine are recognised by their names, in every family and
table.  `setupVm` adds nothing but such chains, rules in them and jumps to
them; `teardownVm` removes exactly these.  So setup followed by teardown
leaves the part of the ruleset that does not belong to the machine, whatever
the ruleset held before, and gives the ruleset back when it held no chain of
the machine.
-/

namespace AlephCvm.Nft

open ResultContext

/-! ## Entries that belong to a set of chain names -/

def chainOwned (owned : String → Bool) (chain : Chain) : Bool :=
  owned chain.name

/-- The rule sits in an owned chain or jumps to one. -/
def ruleOwned (owned : String → Bool) (rule : Rule) : Bool :=
  owned rule.chain || (jumpTargets rule.expr).any owned

/-- The second ruleset is what is left of the first without the owned
entries. -/
structure OwnedRemoved (owned : String → Bool) (before after : Ruleset) :
    Prop where
  tables : after.tables = before.tables
  chains : after.chains =
    before.chains.filter fun chain => !chainOwned owned chain
  rules : after.rules =
    before.rules.filter fun rule => !ruleOwned owned rule

/-- The two rulesets differ in owned entries only. -/
structure SameForeign (owned : String → Bool) (before after : Ruleset) :
    Prop where
  tables : after.tables = before.tables
  chains :
    (after.chains.filter fun chain => !chainOwned owned chain) =
      before.chains.filter fun chain => !chainOwned owned chain
  rules :
    (after.rules.filter fun rule => !ruleOwned owned rule) =
      before.rules.filter fun rule => !ruleOwned owned rule

theorem SameForeign.refl (owned : String → Bool) (ruleset : Ruleset) :
    SameForeign owned ruleset ruleset :=
  ⟨rfl, rfl, rfl⟩

theorem SameForeign.trans
    {owned : String → Bool} {first second third : Ruleset}
    (hfirst : SameForeign owned first second)
    (hsecond : SameForeign owned second third) :
    SameForeign owned first third :=
  ⟨hsecond.tables.trans hfirst.tables, hsecond.chains.trans hfirst.chains,
    hsecond.rules.trans hfirst.rules⟩

theorem SameForeign.ownedRemoved
    {owned : String → Bool} {first second third : Ruleset}
    (hsame : SameForeign owned first second)
    (hremoved : OwnedRemoved owned second third) :
    OwnedRemoved owned first third :=
  ⟨hremoved.tables.trans hsame.tables, hremoved.chains.trans hsame.chains,
    hremoved.rules.trans hsame.rules⟩

theorem ruleOwned_or
    (first second : String → Bool) (rule : Rule) :
    ruleOwned (fun name => first name || second name) rule =
      (ruleOwned first rule || ruleOwned second rule) := by
  have hany : (jumpTargets rule.expr).any
        (fun name => first name || second name) =
      ((jumpTargets rule.expr).any first ||
        (jumpTargets rule.expr).any second) := by
    induction jumpTargets rule.expr with
    | nil => rfl
    | cons target rest ih =>
        simp only [List.any_cons, ih]
        cases first target <;> cases second target <;> simp
  simp only [ruleOwned, hany]
  cases first rule.chain <;> cases second rule.chain <;> simp

theorem OwnedRemoved.comp
    {first second : String → Bool} {before middle after : Ruleset}
    (hfirst : OwnedRemoved first before middle)
    (hsecond : OwnedRemoved second middle after) :
    OwnedRemoved (fun name => first name || second name) before after := by
  refine ⟨hsecond.tables.trans hfirst.tables, ?_, ?_⟩
  · rw [hsecond.chains, hfirst.chains, List.filter_filter]
    apply List.filter_congr
    intro chain _
    simp [chainOwned, Bool.and_comm]
  · rw [hsecond.rules, hfirst.rules, List.filter_filter]
    apply List.filter_congr
    intro rule _
    rw [ruleOwned_or, Bool.not_or, Bool.and_comm]

/-- Without an owned chain there is no owned rule either. -/
theorem ruleOwned_of_no_chain {owned : String → Bool} {ruleset : Ruleset}
    (hfree : ∀ chain ∈ ruleset.chains, owned chain.name = false)
    {rule : Rule} (hrule : rule ∈ ruleset.rules) :
    ruleOwned owned rule = false := by
  have hkey : ∀ key ∈ ruleset.chains.map Chain.key,
      owned key.2.2 = false := by
    intro key hkey
    obtain ⟨chain, hchain, rfl⟩ := List.mem_map.mp hkey
    exact hfree chain hchain
  have hchain : owned rule.chain = false :=
    hkey rule.chainKey (ruleset.rule_chain rule hrule)
  have hjumps : (jumpTargets rule.expr).any owned = false := by
    rw [List.any_eq_false]
    intro target htarget
    have hname := hkey (rule.family, rule.table, target)
      (ruleset.jump_chain rule hrule _
        (List.mem_map.mpr ⟨target, htarget, rfl⟩))
    simpa using hname
  simp [ruleOwned, hchain, hjumps]

/-- Nothing is removed exactly when there is no owned chain. -/
theorem OwnedRemoved.unchanged_iff
    {owned : String → Bool} {before after : Ruleset}
    (hremoved : OwnedRemoved owned before after) :
    (after.tables = before.tables ∧ after.chains = before.chains ∧
        after.rules = before.rules) ↔
      ∀ chain ∈ before.chains, owned chain.name = false := by
  constructor
  · rintro ⟨_, hchains, _⟩ chain hchain
    rw [hremoved.chains, List.filter_eq_self] at hchains
    simpa [chainOwned] using hchains chain hchain
  · intro hfree
    refine ⟨hremoved.tables, ?_, ?_⟩
    · rw [hremoved.chains, List.filter_eq_self]
      intro chain hchain
      simp [chainOwned, hfree chain hchain]
    · rw [hremoved.rules, List.filter_eq_self]
      intro rule hrule
      rw [ruleOwned_of_no_chain hfree hrule]
      rfl

/-! ## Batches that add owned entries -/

/-- The command adds an owned chain, a rule in one or a jump to one. -/
def AddsOwned (owned : String → Bool) : NftCommand → Prop
  | .addChain chain => owned chain.name = true
  | .addRule key expr =>
      owned key.2.2 = true ∨ (jumpTargets expr).any owned = true
  | _ => False

theorem filter_foreign_rebase
    {owned : String → Bool} {target : Chain}
    (howned : owned target.name = true) (chains : List Chain) :
    ((chains.map target.rebase).filter fun chain =>
        !chainOwned owned chain) =
      chains.filter fun chain => !chainOwned owned chain := by
  induction chains with
  | nil => rfl
  | cons chain rest ih =>
      by_cases hkey : chain.key = target.key
      · have hname : chain.name = target.name := Chain.name_of_key hkey
        simpa [Chain.rebase, hkey, chainOwned, hname, howned] using ih
      · simp [Chain.rebase, hkey, List.filter_cons, ih]

theorem Ruleset.apply_sameForeign
    {owned : String → Bool} {ruleset next : Ruleset} {command : NftCommand}
    (hadds : AddsOwned owned command)
    (hok : ruleset.apply command = some next) :
    SameForeign owned ruleset next := by
  cases Ruleset.applied_of_apply hok with
  | tableKnown family name => exact absurd hadds id
  | tableAdded family name => exact absurd hadds id
  | chainKnown chain hknown hregular => exact .refl owned ruleset
  | chainUpdated chain hbase hhooked =>
      exact ⟨rfl, filter_foreign_rebase hadds ruleset.chains, rfl⟩
  | chainAdded chain htable hfresh =>
      have hchain : owned chain.name = true := hadds
      refine ⟨rfl, ?_, rfl⟩
      simp [Ruleset.addChain, chainOwned, hchain]
  | ruleAdded key expr hchain hjumps =>
      have hrule : ruleOwned owned (ruleset.newRule key expr) = true := by
        rcases hadds with hname | htarget
        · simp [ruleOwned, Ruleset.newRule, hname]
        · simp only [ruleOwned, Ruleset.newRule, htarget, Bool.or_true]
      refine ⟨rfl, rfl, ?_⟩
      simp [Ruleset.addRule, hrule]
  | ruleDeleted key handle => exact absurd hadds id
  | chainDropped key hfree => exact absurd hadds id

theorem Ruleset.applyBatch_sameForeign
    {owned : String → Bool} {ruleset next : Ruleset}
    {commands : List NftCommand}
    (hadds : ∀ command ∈ commands, AddsOwned owned command)
    (hok : ruleset.applyBatch commands = some next) :
    SameForeign owned ruleset next :=
  Ruleset.applyBatch_relates (.refl owned)
    (fun _ _ _ hfirst hsecond => hfirst.trans hsecond)
    (fun command hmem _ _ happly =>
      Ruleset.apply_sameForeign (hadds command hmem) happly) hok

/-! ## Batches that delete -/

theorem decide_notMem_cons {α : Type} [BEq α] [LawfulBEq α]
    (item head : α) (rest : List α) [Decidable (item ∉ rest)]
    [Decidable (item ∉ head :: rest)] :
    (decide (item ∉ rest) && item != head) =
      decide (item ∉ head :: rest) := by
  rw [Bool.eq_iff_iff]
  simp only [Bool.and_eq_true, decide_eq_true_eq, bne_iff_ne,
    List.mem_cons, not_or]
  exact and_comm

theorem Ruleset.handle_injective
    {ruleset : Ruleset} {first second : Rule}
    (hfirst : first ∈ ruleset.rules) (hsecond : second ∈ ruleset.rules)
    (hhandle : first.handle = second.handle) : first = second :=
  List.inj_on_of_nodup_map ruleset.handles_nodup hfirst hsecond hhandle

theorem Ruleset.keepRules_congr
    {ruleset : Ruleset} {first second : Rule → Bool}
    (hsame : ∀ rule ∈ ruleset.rules, first rule = second rule) :
    ruleset.keepRules first = ruleset.keepRules second := by
  apply Ruleset.ext
  · rfl
  · rfl
  · exact List.filter_congr hsame
  · rfl

theorem Ruleset.apply_deleteRule
    {ruleset : Ruleset} {target : Rule} (htarget : target ∈ ruleset.rules) :
    ruleset.apply (.deleteRule target.chainKey target.handle) =
      some (ruleset.keepRules fun rule => rule != target) := by
  have hexists : ∃ rule ∈ ruleset.rules,
      rule.chainKey = target.chainKey ∧ rule.handle = target.handle :=
    ⟨target, htarget, rfl, rfl⟩
  simp only [Ruleset.apply, if_pos hexists, Option.some.injEq]
  apply Ruleset.keepRules_congr
  intro rule hrule
  by_cases heq : rule = target
  · simp [heq]
  · have hhandle : rule.handle ≠ target.handle := by
      intro hsame
      exact heq (Ruleset.handle_injective hrule htarget hsame)
    have hkept : (rule.handle == target.handle) = false := by
      simpa using hhandle
    rw [hkept, Bool.and_false, Bool.not_false, bne_iff_ne.mpr heq]

/-- Deleting listed rules one after the other keeps all the others. -/
theorem Ruleset.applyBatch_deleteRules
    {ruleset : Ruleset} {targets : List Rule}
    (hmem : ∀ rule ∈ targets, rule ∈ ruleset.rules)
    (hnodup : targets.Nodup) :
    ruleset.applyBatch
        (targets.map fun rule => .deleteRule rule.chainKey rule.handle) =
      some (ruleset.keepRules fun rule => decide (rule ∉ targets)) := by
  induction targets generalizing ruleset with
  | nil =>
      simp only [List.map_nil, Ruleset.applyBatch_nil, Option.some.injEq]
      apply Ruleset.ext
      · rfl
      · rfl
      · simp [Ruleset.keepRules]
      · rfl
  | cons target rest ih =>
      rw [List.nodup_cons] at hnodup
      rw [List.map_cons, Ruleset.applyBatch_cons,
        Ruleset.apply_deleteRule (hmem target List.mem_cons_self),
        Option.bind_some]
      have hrest : ∀ rule ∈ rest,
          rule ∈ (ruleset.keepRules fun rule => rule != target).rules := by
        intro rule hrule
        refine List.mem_filter.mpr
          ⟨hmem rule (List.mem_cons_of_mem _ hrule), ?_⟩
        rw [bne_iff_ne]
        rintro rfl
        exact hnodup.1 hrule
      rw [ih hrest hnodup.2]
      congr 1
      apply Ruleset.ext
      · rfl
      · rfl
      · simp only [Ruleset.keepRules, List.filter_filter]
        apply List.filter_congr
        intro rule _
        exact decide_notMem_cons _ _ _
      · rfl

/-- The chains with the keys are gone, and with them their rules. -/
structure ChainsDropped (keys : List ChainKey) (before after : Ruleset) :
    Prop where
  tables : after.tables = before.tables
  chains : after.chains =
    before.chains.filter fun chain => decide (chain.key ∉ keys)
  rules : after.rules =
    before.rules.filter fun rule => decide (rule.chainKey ∉ keys)

theorem Ruleset.applyBatch_deleteChains
    {ruleset : Ruleset} {keys : List ChainKey}
    (hmem : ∀ key ∈ keys, key ∈ ruleset.chains.map Chain.key)
    (hnodup : keys.Nodup)
    (hfree : ∀ key ∈ keys, ruleset.Unreferenced key) :
    ∃ next, ruleset.applyBatch (keys.map .deleteChain) = some next ∧
      ChainsDropped keys ruleset next := by
  induction keys generalizing ruleset with
  | nil =>
      refine ⟨ruleset, rfl, rfl, ?_, ?_⟩
      · simp
      · simp
  | cons key rest ih =>
      rw [List.nodup_cons] at hnodup
      have hkey := hmem key List.mem_cons_self
      have hkeyFree := hfree key List.mem_cons_self
      have happly : ruleset.apply (.deleteChain key) =
          some (ruleset.dropChain key hkeyFree) := by
        simp only [Ruleset.apply, if_pos hkey, dif_pos hkeyFree]
      have hrestMem : ∀ other ∈ rest, other ∈
          (ruleset.dropChain key hkeyFree).chains.map Chain.key := by
        intro other hother
        obtain ⟨chain, hchain, hchainKey⟩ := List.mem_map.mp
          (hmem other (List.mem_cons_of_mem _ hother))
        refine List.mem_map.mpr
          ⟨chain, List.mem_filter.mpr ⟨hchain, ?_⟩, hchainKey⟩
        rw [hchainKey, bne_iff_ne]
        rintro rfl
        exact hnodup.1 hother
      have hrestFree : ∀ other ∈ rest,
          (ruleset.dropChain key hkeyFree).Unreferenced other := by
        intro other hother rule hrule
        exact hfree other (List.mem_cons_of_mem _ hother) rule
          (List.mem_of_mem_filter hrule)
      obtain ⟨next, hbatch, hdropped⟩ := ih hrestMem hnodup.2 hrestFree
      refine ⟨next, ?_, hdropped.tables, ?_, ?_⟩
      · rw [List.map_cons, Ruleset.applyBatch_cons, happly,
          Option.bind_some, hbatch]
      · rw [hdropped.chains]
        simp only [Ruleset.dropChain, List.filter_filter]
        apply List.filter_congr
        intro chain _
        exact decide_notMem_cons _ _ _
      · rw [hdropped.rules]
        simp only [Ruleset.dropChain, List.filter_filter]
        apply List.filter_congr
        intro rule _
        exact decide_notMem_cons _ _ _

/-! ## Listings -/

/-- What the listings of the two families have of some entries. -/
def listedEntries {α : Type} (list : Family → ListOutcome)
    (family : α → Family) (entries : List α) : List α :=
  (entries.filter fun entry => list .ip == .listed && family entry == .ip) ++
    entries.filter fun entry => list .ip6 == .listed && family entry == .ip6

theorem mem_listedEntries {α : Type} {list : Family → ListOutcome}
    {family : α → Family} {entries : List α} {entry : α} :
    entry ∈ listedEntries list family entries ↔
      entry ∈ entries ∧ list (family entry) = .listed := by
  unfold listedEntries
  cases hfamily : family entry <;> simp [hfamily]

theorem nodup_listedEntries {α β : Type} {list : Family → ListOutcome}
    {family : α → Family} {name : α → β} {entries : List α}
    (hname : ∀ first second, name first = name second →
      family first = family second)
    (hnodup : (entries.map name).Nodup) :
    ((listedEntries list family entries).map name).Nodup := by
  unfold listedEntries
  rw [List.map_append, List.nodup_append]
  refine ⟨hnodup.sublist (List.filter_sublist.map _),
    hnodup.sublist (List.filter_sublist.map _), ?_⟩
  intro first hfirst second hsecond heq
  obtain ⟨ipEntry, hip, rfl⟩ := List.mem_map.mp hfirst
  obtain ⟨ip6Entry, hip6, rfl⟩ := List.mem_map.mp hsecond
  have hipFamily := (List.mem_filter.mp hip).2
  have hip6Family := (List.mem_filter.mp hip6).2
  simp only [Bool.and_eq_true, beq_iff_eq] at hipFamily hip6Family
  have hfamily := hname ipEntry ip6Entry heq
  rw [hipFamily.2, hip6Family.2] at hfamily
  exact Family.noConfusion hfamily

/-- The listing has each entry of the families that were read, and has it
once. -/
structure Lists (list : Family → ListOutcome) (ruleset : Ruleset)
    (listing : Listing) : Prop where
  mem_rules : ∀ rule, rule ∈ listing.rules ↔
    rule ∈ ruleset.rules ∧ list rule.family = .listed
  rules_nodup : listing.rules.Nodup
  mem_chains : ∀ chain, chain ∈ listing.chains ↔
    chain ∈ ruleset.chains ∧ list chain.family = .listed
  keys_nodup : (listing.chains.map Chain.key).Nodup

theorem listFamily_eq_ok {ruleset : Ruleset} {family : Family}
    {outcome : ListOutcome} {listing : Listing}
    (hok : listFamily ruleset family outcome = .ok listing) :
    listing = ⟨ruleset.chains.filter fun chain =>
        outcome == .listed && chain.family == family,
      ruleset.rules.filter fun rule =>
        outcome == .listed && rule.family == family⟩ := by
  cases outcome with
  | listed =>
      cases hok
      simp
  | unusable =>
      cases hok
      have hnot : (ListOutcome.unusable == ListOutcome.listed) = false := rfl
      simp [hnot]
  | notExecuted message => cases hok

theorem executeListRuleset_lists
    {list : Family → ListOutcome} {ruleset : Ruleset} {listing : Listing}
    (hok : executeListRuleset list ruleset = .ok listing) :
    Lists list ruleset listing := by
  simp only [executeListRuleset, bind_eq_ok, pure_eq_ok] at hok
  obtain ⟨ip, hip, ip6, hip6, rfl⟩ := hok
  rw [listFamily_eq_ok hip, listFamily_eq_ok hip6]
  have hrules : ruleset.rules.Nodup := ruleset.handles_nodup.of_map
  have hlisted :
      ((listedEntries list Rule.family ruleset.rules).map id).Nodup :=
    nodup_listedEntries (fun first second heq => congrArg Rule.family heq)
      (by simpa using hrules)
  exact {
    mem_rules := fun rule => mem_listedEntries
    rules_nodup := by
      rw [List.map_id] at hlisted
      exact hlisted
    mem_chains := fun chain => mem_listedEntries
    keys_nodup := nodup_listedEntries
      (fun first second heq => congrArg Prod.fst heq)
      ruleset.chains_nodup }

/-- The listing fails when one of its two calls cannot be made. -/
theorem executeListRuleset_isOk_iff
    (list : Family → ListOutcome) (ruleset : Ruleset) :
    (∃ listing, executeListRuleset list ruleset = .ok listing) ↔
      ∀ family message, list family ≠ .notExecuted message := by
  simp only [executeListRuleset, bind_eq_ok, pure_eq_ok]
  constructor
  · rintro ⟨listing, ip, hip, ip6, hip6, _⟩ family message hfailed
    cases family with
    | ip =>
        rw [hfailed] at hip
        cases hip
    | ip6 =>
        rw [hfailed] at hip6
        cases hip6
  · intro hexecuted
    have hfamily : ∀ family, ∃ part,
        listFamily ruleset family (list family) = .ok part := by
      intro family
      cases houtcome : list family with
      | listed => exact ⟨_, rfl⟩
      | unusable => exact ⟨_, rfl⟩
      | notExecuted message => exact absurd houtcome (hexecuted _ _)
    obtain ⟨ip, hip⟩ := hfamily .ip
    obtain ⟨ip6, hip6⟩ := hfamily .ip6
    exact ⟨_, ip, hip, ip6, hip6, rfl⟩

theorem exists_listing_of_listed
    {list : Family → ListOutcome} (hlist : ∀ family, list family = .listed)
    (ruleset : Ruleset) :
    ∃ listing, executeListRuleset list ruleset = .ok listing := by
  apply (executeListRuleset_isOk_iff _ _).mpr
  intro family message
  rw [hlist]
  exact ListOutcome.noConfusion

theorem executeListRuleset_listed
    {list : Family → ListOutcome} (hlist : ∀ family, list family = .listed)
    (ruleset : Ruleset) :
    ∃ listing, executeListRuleset list ruleset = .ok listing ∧
      (∀ rule, rule ∈ listing.rules ↔ rule ∈ ruleset.rules) ∧
      listing.rules.Nodup ∧
      (∀ chain, chain ∈ listing.chains ↔ chain ∈ ruleset.chains) ∧
      (listing.chains.map Chain.key).Nodup := by
  obtain ⟨listing, hok⟩ := exists_listing_of_listed hlist ruleset
  have hlists := executeListRuleset_lists hok
  refine ⟨listing, hok, ?_, hlists.rules_nodup, ?_, hlists.keys_nodup⟩
  · intro rule
    rw [hlists.mem_rules, hlist, eq_self_iff_true, and_true]
  · intro chain
    rw [hlists.mem_chains, hlist, eq_self_iff_true, and_true]

theorem executeNftCommands_eq_ok
    {outcome : BatchOutcome} {ruleset next : Ruleset}
    {commands : List NftCommand}
    (hok : executeNftCommands outcome ruleset commands = .ok next) :
    ruleset.applyBatch commands = some next := by
  unfold executeNftCommands at hok
  split_ifs at hok with hempty
  · rw [List.isEmpty_iff.mp hempty, Ruleset.applyBatch_nil]
    simpa using hok
  · cases hexecuted : outcome.executed with
    | error message => simp [hexecuted] at hok
    | ok value =>
        simp only [hexecuted] at hok
        cases hbatch : ruleset.applyBatch commands with
        | none => simp [hbatch] at hok
        | some applied =>
            simp only [hbatch, Except.ok.injEq] at hok
            rw [hok]

theorem executeNftCommands_of_applyBatch
    {outcome : BatchOutcome} {ruleset next : Ruleset}
    {commands : List NftCommand} (hexecuted : outcome.executed = .ok ())
    (hbatch : ruleset.applyBatch commands = some next) :
    executeNftCommands outcome ruleset commands = .ok next := by
  unfold executeNftCommands
  split_ifs with hempty
  · rw [List.isEmpty_iff.mp hempty, Ruleset.applyBatch_nil] at hbatch
    simpa using hbatch
  · simp only [hexecuted, hbatch]

/-! ## Removing one chain -/

theorem ruleJumpsTo_eq_any (rule : Rule) (name : String) :
    ruleJumpsTo rule name =
      (jumpTargets rule.expr).any fun target => target == name := by
  unfold ruleJumpsTo jumpTargets
  induction rule.expr with
  | nil => rfl
  | cons expr rest ih =>
      rw [List.any_cons, ih]
      cases expr with
      | jump target => simp [exprJumpsTo, jumpTarget]
      | matching op left right => simp [exprJumpsTo, jumpTarget]
      | masquerade => simp [exprJumpsTo, jumpTarget]
      | dnat addr port => simp [exprJumpsTo, jumpTarget]
      | accept => simp [exprJumpsTo, jumpTarget]
      | other text => simp [exprJumpsTo, jumpTarget]

theorem ruleJumpsTo_of_mem_jumpKeys
    {rule : Rule} {key : ChainKey} (hkey : key ∈ rule.jumpKeys) :
    ruleJumpsTo rule key.2.2 = true := by
  obtain ⟨target, htarget, rfl⟩ := List.mem_map.mp hkey
  rw [ruleJumpsTo_eq_any, List.any_eq_true]
  exact ⟨target, htarget, by simp⟩

theorem family_of_mem_jumpKeys
    {rule : Rule} {key : ChainKey} (hkey : key ∈ rule.jumpKeys) :
    rule.family = key.1 := by
  obtain ⟨target, htarget, rfl⟩ := List.mem_map.mp hkey
  rfl

/-- The rules of a listing that jump to a chain name. -/
def jumpingRules (listing : Listing) (name : String) : List Rule :=
  listing.rules.filter fun rule => ruleJumpsTo rule name

/-- The chains of a name in a listing. -/
def namedKeys (listing : Listing) (name : String) : List ChainKey :=
  (listing.chains.filter fun chain => chain.name == name).map Chain.key

theorem removeChainCommands_eq (listing : Listing) (name : String) :
    NftablesManager.removeChainCommands listing name =
      (jumpingRules listing name).map
          (fun rule => .deleteRule rule.chainKey rule.handle) ++
        (namedKeys listing name).map .deleteChain := by
  rw [NftablesManager.removeChainCommands, jumpingRules, namedKeys,
    List.map_map]
  rfl

theorem Lists.mem_jumpingRules_iff
    {list : Family → ListOutcome} {ruleset : Ruleset} {listing : Listing}
    (hlists : Lists list ruleset listing) {name : String} {rule : Rule} :
    rule ∈ jumpingRules listing name ↔ rule ∈ ruleset.rules ∧
      list rule.family = .listed ∧ ruleJumpsTo rule name = true := by
  rw [jumpingRules, List.mem_filter, hlists.mem_rules, and_assoc]

theorem Lists.mem_namedKeys_iff
    {list : Family → ListOutcome} {ruleset : Ruleset} {listing : Listing}
    (hlists : Lists list ruleset listing) {name : String} {key : ChainKey} :
    key ∈ namedKeys listing name ↔
      key ∈ ruleset.chains.map Chain.key ∧ list key.1 = .listed ∧
        key.2.2 = name := by
  constructor
  · intro hmem
    obtain ⟨chain, hchain, rfl⟩ := List.mem_map.mp hmem
    obtain ⟨hlisted, hname⟩ := List.mem_filter.mp hchain
    obtain ⟨hruleset, hfamily⟩ := (hlists.mem_chains chain).mp hlisted
    exact ⟨List.mem_map_of_mem hruleset, hfamily, eq_of_beq hname⟩
  · rintro ⟨hmem, hfamily, hname⟩
    obtain ⟨chain, hchain, rfl⟩ := List.mem_map.mp hmem
    apply List.mem_map_of_mem
    apply List.mem_filter.mpr
    exact ⟨(hlists.mem_chains chain).mpr ⟨hchain, hfamily⟩,
      beq_iff_eq.mpr hname⟩

/-- In the families that were read, the chains of the name are gone, with
their rules and the jumps to them. -/
structure NamedRemoved (list : Family → ListOutcome) (name : String)
    (before after : Ruleset) : Prop where
  tables : after.tables = before.tables
  chains : after.chains = before.chains.filter fun chain =>
    !(list chain.family == .listed && chain.name == name)
  rules : after.rules = before.rules.filter fun rule =>
    !(list rule.family == .listed &&
      ruleOwned (fun found => found == name) rule)

theorem NamedRemoved.ownedRemoved
    {list : Family → ListOutcome} {name : String} {before after : Ruleset}
    (hremoved : NamedRemoved list name before after)
    (hlist : ∀ family, list family = .listed) :
    OwnedRemoved (fun found => found == name) before after where
  tables := hremoved.tables
  chains := by simpa [hlist, chainOwned] using hremoved.chains
  rules := by simpa [hlist] using hremoved.rules

/-- Once the rules that jump to the name are deleted, nothing refers to its
chains. -/
theorem Lists.unreferenced
    {list : Family → ListOutcome} {ruleset : Ruleset} {listing : Listing}
    (hlists : Lists list ruleset listing) {name : String} {key : ChainKey}
    (hkey : key ∈ namedKeys listing name) :
    (ruleset.keepRules fun rule =>
      decide (rule ∉ jumpingRules listing name)).Unreferenced key := by
  intro rule hmem _ hjump
  obtain ⟨hrule, hkept⟩ := List.mem_filter.mp hmem
  obtain ⟨_, hfamily, hname⟩ := hlists.mem_namedKeys_iff.mp hkey
  have hjumps := ruleJumpsTo_of_mem_jumpKeys hjump
  rw [← family_of_mem_jumpKeys hjump] at hfamily
  rw [hname] at hjumps
  have hnot : rule ∉ jumpingRules listing name := by simpa using hkept
  exact hnot (hlists.mem_jumpingRules_iff.mpr ⟨hrule, hfamily, hjumps⟩)

theorem Lists.namedRemoved
    {list : Family → ListOutcome} {ruleset next : Ruleset}
    {listing : Listing} (hlists : Lists list ruleset listing)
    {name : String}
    (hdropped : ChainsDropped (namedKeys listing name)
      (ruleset.keepRules fun rule =>
        decide (rule ∉ jumpingRules listing name)) next) :
    NamedRemoved list name ruleset next := by
  refine ⟨hdropped.tables, ?_, ?_⟩
  · rw [hdropped.chains]
    apply List.filter_congr
    intro chain hchain
    have hmem : chain.key ∈ namedKeys listing name ↔
        list chain.family = .listed ∧ chain.name = name := by
      rw [hlists.mem_namedKeys_iff]
      exact ⟨fun h => h.2, fun h => ⟨List.mem_map_of_mem hchain, h⟩⟩
    rw [Bool.eq_iff_iff]
    simp [hmem]
  · rw [hdropped.rules]
    simp only [Ruleset.keepRules, List.filter_filter]
    apply List.filter_congr
    intro rule hrule
    have hchainKey : rule.chainKey ∈ namedKeys listing name ↔
        list rule.family = .listed ∧ rule.chain = name := by
      rw [hlists.mem_namedKeys_iff]
      exact ⟨fun h => h.2, fun h => ⟨ruleset.rule_chain rule hrule, h⟩⟩
    have hjump : rule ∈ jumpingRules listing name ↔
        list rule.family = .listed ∧
          (jumpTargets rule.expr).any (fun target => target == name) =
            true := by
      rw [hlists.mem_jumpingRules_iff, ruleJumpsTo_eq_any]
      exact ⟨fun h => h.2, fun h => ⟨hrule, h⟩⟩
    rw [Bool.eq_iff_iff]
    by_cases hfamily : list rule.family = .listed
    · simp only [Bool.and_eq_true, decide_eq_true_eq, hchainKey, hjump,
        hfamily, true_and, beq_self_eq_true, Bool.true_and, ruleOwned,
        Bool.not_eq_true', Bool.or_eq_false_iff, beq_eq_false_iff_ne,
        Bool.not_eq_true, ne_eq]
    · simp [hchainKey, hjump, hfamily]

theorem removeChainCommands_applied
    {list : Family → ListOutcome} {ruleset : Ruleset} {listing : Listing}
    (hlists : Lists list ruleset listing) (name : String) :
    ∃ next, ruleset.applyBatch
        (NftablesManager.removeChainCommands listing name) = some next ∧
      NamedRemoved list name ruleset next := by
  have hlisted : ∀ rule ∈ jumpingRules listing name,
      rule ∈ ruleset.rules := by
    intro rule hrule
    exact (hlists.mem_jumpingRules_iff.mp hrule).1
  have hdeleted := Ruleset.applyBatch_deleteRules hlisted
    (hlists.rules_nodup.filter _)
  have hexists : ∀ key ∈ namedKeys listing name,
      key ∈ (ruleset.keepRules fun rule =>
        decide (rule ∉ jumpingRules listing name)).chains.map Chain.key := by
    intro key hkey
    exact (hlists.mem_namedKeys_iff.mp hkey).1
  obtain ⟨next, hdropped, hnext⟩ := Ruleset.applyBatch_deleteChains hexists
    (hlists.keys_nodup.sublist (List.filter_sublist.map _))
    (fun key hkey => hlists.unreferenced hkey)
  refine ⟨next, ?_, hlists.namedRemoved hnext⟩
  rw [removeChainCommands_eq, Ruleset.applyBatch_append, hdeleted,
    Option.bind_some, hdropped]

theorem removeChainEverywhere_removed
    {calls : NftCalls} (hcalls : calls.Succeed) (ruleset : Ruleset)
    (name : String) :
    ∃ next,
      NftablesManager.removeChainEverywhere calls ruleset name = .ok next ∧
        OwnedRemoved (fun found => found == name) ruleset next := by
  obtain ⟨listing, hlisting⟩ :=
    exists_listing_of_listed hcalls.1 ruleset
  obtain ⟨next, hbatch, hremoved⟩ := removeChainCommands_applied
    (executeListRuleset_lists hlisting) name
  refine ⟨next, ?_, hremoved.ownedRemoved hcalls.1⟩
  simp only [NftablesManager.removeChainEverywhere, hlisting, bind,
    Except.bind]
  exact executeNftCommands_of_applyBatch hcalls.2 hbatch

/-- A removal that succeeds has removed what it was shown. -/
theorem removeChainEverywhere_namedRemoved
    {calls : NftCalls} {ruleset next : Ruleset} {name : String}
    (hok : NftablesManager.removeChainEverywhere calls ruleset name =
      .ok next) :
    NamedRemoved calls.list name ruleset next := by
  simp only [NftablesManager.removeChainEverywhere, bind_eq_ok] at hok
  obtain ⟨listing, hlisting, hrun⟩ := hok
  obtain ⟨applied, hbatch, hremoved⟩ := removeChainCommands_applied
    (executeListRuleset_lists hlisting) name
  rw [executeNftCommands_eq_ok hrun, Option.some.injEq] at hbatch
  rw [hbatch]
  exact hremoved

/-! ## Removing a port forward -/

/-- The same tables and chains, and the rules that pass. -/
structure RulesKept (keep : Rule → Bool) (before after : Ruleset) :
    Prop where
  tables : after.tables = before.tables
  chains : after.chains = before.chains
  rules : after.rules = before.rules.filter keep

theorem RulesKept.refl (ruleset : Ruleset) :
    RulesKept (fun _ => true) ruleset ruleset :=
  ⟨rfl, rfl, by simp⟩

theorem RulesKept.trans {first second : Rule → Bool}
    {before middle after : Ruleset}
    (hfirst : RulesKept first before middle)
    (hsecond : RulesKept second middle after) :
    RulesKept (fun rule => second rule && first rule) before after where
  tables := hsecond.tables.trans hfirst.tables
  chains := hsecond.chains.trans hfirst.chains
  rules := by rw [hsecond.rules, hfirst.rules, List.filter_filter]

theorem RulesKept.congr {first second : Rule → Bool}
    {before after : Ruleset} (hkept : RulesKept first before after)
    (hsame : ∀ rule, second rule = first rule) :
    RulesKept second before after := by
  rw [funext hsame]
  exact hkept

theorem removePortForwardCommands_applied
    (manager : NftablesManager) {list : Family → ListOutcome}
    {ruleset : Ruleset} {listing : Listing}
    (hlists : Lists list ruleset listing) (hostPort : UInt16)
    (protocol : Net.Protocol) :
    ∃ next, ruleset.applyBatch
        (manager.removePortForwardCommands listing hostPort protocol) =
          some next ∧
      RulesKept (fun rule => !(list rule.family == .listed &&
        isDnatRuleMatching rule manager.supervisorPreroutingChain hostPort
          protocol)) ruleset next := by
  generalize htargets : listing.rules.filter (fun rule =>
    isDnatRuleMatching rule manager.supervisorPreroutingChain hostPort
      protocol) = targets
  have htarget : ∀ rule, rule ∈ targets ↔ rule ∈ ruleset.rules ∧
      list rule.family = .listed ∧ isDnatRuleMatching rule
        manager.supervisorPreroutingChain hostPort protocol = true := by
    intro rule
    rw [← htargets, List.mem_filter, hlists.mem_rules, and_assoc]
  have hlisted : ∀ rule ∈ targets, rule ∈ ruleset.rules := by
    intro rule hrule
    exact ((htarget rule).mp hrule).1
  have hdeleted := Ruleset.applyBatch_deleteRules hlisted
    (htargets ▸ hlists.rules_nodup.filter _)
  refine ⟨ruleset.keepRules fun rule => decide (rule ∉ targets), ?_,
    rfl, rfl, ?_⟩
  · rw [NftablesManager.removePortForwardCommands, htargets, hdeleted]
  · apply List.filter_congr
    intro rule hrule
    rw [Bool.eq_iff_iff]
    simp [htarget, hrule]

/-- With calls that go through, exactly the rules that the search matches
are removed, and the removal succeeds on every ruleset. -/
theorem removePortForward_kept
    (manager : NftablesManager) {calls : NftCalls} (hcalls : calls.Succeed)
    (ruleset : Ruleset) (hostPort : UInt16) (protocol : Net.Protocol) :
    ∃ next, manager.removePortForward calls ruleset hostPort protocol =
        .ok next ∧
      RulesKept (fun rule => !isDnatRuleMatching rule
        manager.supervisorPreroutingChain hostPort protocol)
        ruleset next := by
  obtain ⟨listing, hlisting⟩ :=
    exists_listing_of_listed hcalls.1 ruleset
  obtain ⟨next, hbatch, hkept⟩ := removePortForwardCommands_applied manager
    (executeListRuleset_lists hlisting) hostPort protocol
  refine ⟨next, ?_, ?_⟩
  · simp only [NftablesManager.removePortForward, hlisting, bind,
      Except.bind]
    exact executeNftCommands_of_applyBatch hcalls.2 hbatch
  · apply hkept.congr
    intro rule
    simp [hcalls.1]

/-- A removal that succeeds has removed the rules that it was shown. -/
theorem removePortForward_rulesKept
    (manager : NftablesManager) {calls : NftCalls} {ruleset next : Ruleset}
    {hostPort : UInt16} {protocol : Net.Protocol}
    (hok : manager.removePortForward calls ruleset hostPort protocol =
      .ok next) :
    RulesKept (fun rule => !(calls.list rule.family == .listed &&
      isDnatRuleMatching rule manager.supervisorPreroutingChain hostPort
        protocol)) ruleset next := by
  simp only [NftablesManager.removePortForward, bind_eq_ok] at hok
  obtain ⟨listing, hlisting, hrun⟩ := hok
  obtain ⟨applied, hbatch, hkept⟩ := removePortForwardCommands_applied
    manager (executeListRuleset_lists hlisting) hostPort protocol
  rw [executeNftCommands_eq_ok hrun, Option.some.injEq] at hbatch
  rw [hbatch]
  exact hkept

theorem removePortForward_succeeds
    (manager : NftablesManager) {calls : NftCalls} (hcalls : calls.Succeed)
    (ruleset : Ruleset) (hostPort : UInt16) (protocol : Net.Protocol) :
    ∃ next, manager.removePortForward calls ruleset hostPort protocol =
      .ok next := by
  obtain ⟨next, hok, _⟩ := removePortForward_kept manager hcalls ruleset
    hostPort protocol
  exact ⟨next, hok⟩

/-! ## The chains of a machine -/

namespace NftablesManager

variable (manager : NftablesManager)

/-- The two chain names of a machine. -/
def vmChain (vmId name : String) : Bool :=
  name == manager.vmNatChain vmId || name == manager.vmFilterChain vmId

theorem vmChain_vmNatChain (vmId : String) :
    manager.vmChain vmId (manager.vmNatChain vmId) = true := by
  simp [vmChain]

theorem vmChain_vmFilterChain (vmId : String) :
    manager.vmChain vmId (manager.vmFilterChain vmId) = true := by
  simp [vmChain]

theorem vmChain_supervisorPreroutingChain (vmId : String) :
    manager.vmChain vmId manager.supervisorPreroutingChain = false := by
  have hnat := (manager.vmNatChain_ne_supervisor vmId).2.2
  have hfilter := (manager.vmFilterChain_ne_supervisor vmId).2.2
  simp [vmChain, hnat.symm, hfilter.symm]

theorem vmChain_vmFilterChain_of_ne {vmId other : String}
    (hne : other ≠ vmId) :
    manager.vmChain vmId (manager.vmFilterChain other) = false := by
  have hnat : manager.vmFilterChain other ≠ manager.vmNatChain vmId :=
    (manager.vmNatChain_ne_vmFilterChain vmId other).symm
  have hfilter : manager.vmFilterChain other ≠ manager.vmFilterChain vmId :=
    fun heq => hne (manager.vmFilterChain_injective heq)
  simp [vmChain, hnat, hfilter]

theorem teardownVm_removed
    {natCalls filterCalls : NftCalls} (hnat : natCalls.Succeed)
    (hfilter : filterCalls.Succeed) (ruleset : Ruleset) (vmId : String) :
    (manager.teardownVm natCalls filterCalls ruleset vmId).1 = .ok () ∧
      OwnedRemoved (manager.vmChain vmId) ruleset
        (manager.teardownVm natCalls filterCalls ruleset vmId).2 := by
  obtain ⟨middle, hmiddle, hfirst⟩ := removeChainEverywhere_removed hnat
    ruleset (manager.vmNatChain vmId)
  obtain ⟨final, hfinal, hsecond⟩ := removeChainEverywhere_removed hfilter
    middle (manager.vmFilterChain vmId)
  simp only [teardownVm, hmiddle, hfinal, true_and]
  exact hfirst.comp hsecond

theorem addsOwned_addChainIfNotPresent
    {owned : String → Bool} {listing : Listing} {key : ChainKey}
    (howned : owned key.2.2 = true) :
    ∀ command ∈ addChainIfNotPresent listing key,
      AddsOwned owned command := by
  intro command hcommand
  unfold addChainIfNotPresent at hcommand
  split_ifs at hcommand with hexists
  · simp at hcommand
  · rw [List.mem_singleton.mp hcommand]
    exact howned

theorem addsOwned_addRuleIfNotPresent
    {owned : String → Bool} {listing : Listing} {key : ChainKey}
    {present : Rule → Bool} {expr : List RuleExpr}
    (howned : owned key.2.2 = true ∨ (jumpTargets expr).any owned = true) :
    ∀ command ∈ addRuleIfNotPresent listing key present expr,
      AddsOwned owned command := by
  intro command hcommand
  unfold addRuleIfNotPresent at hcommand
  split_ifs at hcommand with hexists
  · simp at hcommand
  · rw [List.mem_singleton.mp hcommand]
    exact howned

theorem addsOwned_natCommands
    (listing : Listing) (table vmId tapDevice : String) :
    ∀ command ∈ manager.natCommands listing table vmId tapDevice,
      AddsOwned (manager.vmChain vmId) command := by
  intro command hcommand
  have hname := manager.vmChain_vmNatChain vmId
  rw [natCommands, List.mem_append, List.mem_append] at hcommand
  rcases hcommand with (hchain | hjump) | hrule
  · exact addsOwned_addChainIfNotPresent hname command hchain
  · refine addsOwned_addRuleIfNotPresent (Or.inr ?_) command hjump
    simp [jumpTargets, jumpTarget, hname]
  · exact addsOwned_addRuleIfNotPresent (Or.inl hname) command hrule

theorem addsOwned_filterCommands
    (listing : Listing) (family : Family) (table vmId tapDevice : String) :
    ∀ command ∈
        manager.filterCommands listing family table vmId tapDevice,
      AddsOwned (manager.vmChain vmId) command := by
  intro command hcommand
  have hname := manager.vmChain_vmFilterChain vmId
  rw [filterCommands, List.mem_append, List.mem_append] at hcommand
  rcases hcommand with (hchain | hjump) | hrule
  · exact addsOwned_addChainIfNotPresent hname command hchain
  · refine addsOwned_addRuleIfNotPresent (Or.inr ?_) command hjump
    simp [jumpTargets, jumpTarget, hname]
  · exact addsOwned_addRuleIfNotPresent (Or.inl hname) command hrule

theorem addsOwned_ip6Commands
    (listing : Listing) (vmId tapDevice : String) :
    ∀ command ∈ manager.ip6Commands listing vmId tapDevice,
      AddsOwned (manager.vmChain vmId) command := by
  intro command hcommand
  unfold ip6Commands at hcommand
  split_ifs at hcommand with henabled
  · cases htable : getTableForChain listing .ip6
        manager.supervisorFilterChain with
    | none => simp [htable] at hcommand
    | some table =>
        simp only [htable] at hcommand
        exact manager.addsOwned_filterCommands listing .ip6 table vmId
          tapDevice command hcommand
  · simp at hcommand

/-- Setting a machine up touches nothing but entries of that machine. -/
theorem setupVm_sameForeign
    {calls : NftCalls} {ruleset next : Ruleset} {vmId tapDevice : String}
    (hok : manager.setupVm calls ruleset vmId tapDevice = .ok next) :
    SameForeign (manager.vmChain vmId) ruleset next := by
  simp only [setupVm, setupCommands, bind_eq_ok, optionContext_eq_ok,
    pure_eq_ok] at hok
  obtain ⟨listing, _, commands, ⟨natTable, _, filterTable, _, rfl⟩, hrun⟩ :=
    hok
  refine Ruleset.applyBatch_sameForeign ?_ (executeNftCommands_eq_ok hrun)
  intro command hcommand
  rw [List.mem_append, List.mem_append] at hcommand
  rcases hcommand with (hnat | hfilter) | hip6
  · exact manager.addsOwned_natCommands listing natTable vmId tapDevice
      command hnat
  · exact manager.addsOwned_filterCommands listing .ip filterTable vmId
      tapDevice command hfilter
  · exact manager.addsOwned_ip6Commands listing vmId tapDevice command hip6

/-- After setup, teardown leaves the entries that were not the machine's. -/
theorem teardownVm_after_setupVm
    {calls natCalls filterCalls : NftCalls} {ruleset next : Ruleset}
    {vmId tapDevice : String} (hnat : natCalls.Succeed)
    (hfilter : filterCalls.Succeed)
    (hok : manager.setupVm calls ruleset vmId tapDevice = .ok next) :
    OwnedRemoved (manager.vmChain vmId) ruleset
      (manager.teardownVm natCalls filterCalls next vmId).2 :=
  (manager.setupVm_sameForeign hok).ownedRemoved
    (manager.teardownVm_removed hnat hfilter next vmId).2

end NftablesManager

end AlephCvm.Nft
