import Mathlib.Data.List.Nodup

/-!
# The kernel's nftables ruleset

The part of the kernel that `nft` talks to.  A ruleset lists tables, chains
and rules in the order in which they were added; a rule has a handle that no
other rule gets again.  The invariants of the kernel are fields of the
structure: rules sit in chains that exist, jumps lead to chains of the same
table, and neither chains nor handles repeat.

A batch is a list of commands that the kernel applies one after the other and
drops as a whole when one of them is rejected.  Deleting a chain deletes the
rules in it, and is refused while a rule of another chain jumps to it.
-/

namespace AlephCvm.Nft

inductive Family where
  | ip
  | ip6
  deriving DecidableEq, Repr

inductive MatchLeft where
  | ct (key : String)
  | metaKey (key : String)
  | payload (protocol field : String)
  | other (text : String)
  deriving DecidableEq, Repr

inductive MatchRight where
  | text (value : String)
  | number (value : ℕ)
  | list (values : List String)
  | other (text : String)
  deriving DecidableEq, Repr

/-- One expression of a rule.  Expressions that no modelled function looks at
are `other`. -/
inductive RuleExpr where
  | matching (op : String) (left : MatchLeft) (right : MatchRight)
  | jump (target : String)
  | masquerade
  | dnat (addr : String) (port : ℕ)
  | accept
  | other (text : String)
  deriving DecidableEq, Repr

/-- The hook that makes a chain a base chain. -/
structure BaseHook where
  chainType : String
  hook : String
  prio : Int
  policy : String
  deriving DecidableEq, Repr

/-- Family, table and name. -/
abbrev ChainKey := Family × String × String

structure Chain where
  family : Family
  table : String
  name : String
  base : Option BaseHook
  deriving DecidableEq, Repr

def Chain.key (chain : Chain) : ChainKey :=
  (chain.family, chain.table, chain.name)

structure Rule where
  family : Family
  table : String
  chain : String
  handle : ℕ
  expr : List RuleExpr
  deriving DecidableEq, Repr

def Rule.chainKey (rule : Rule) : ChainKey :=
  (rule.family, rule.table, rule.chain)

theorem Chain.name_of_key {chain : Chain} {key : ChainKey}
    (hkey : chain.key = key) : chain.name = key.2.2 :=
  congrArg (fun found => found.2.2) hkey

theorem Rule.chain_of_chainKey {rule : Rule} {key : ChainKey}
    (hkey : rule.chainKey = key) : rule.chain = key.2.2 :=
  congrArg (fun found => found.2.2) hkey

def jumpTarget : RuleExpr → Option String
  | .jump target => some target
  | _ => none

/-- The chains that a list of expressions jumps to. -/
def jumpTargets (expr : List RuleExpr) : List String :=
  expr.filterMap jumpTarget

def Rule.jumpKeys (rule : Rule) : List ChainKey :=
  (jumpTargets rule.expr).map fun target =>
    (rule.family, rule.table, target)

@[ext]
structure Ruleset where
  tables : List (Family × String)
  chains : List Chain
  rules : List Rule
  nextHandle : ℕ
  chain_table : ∀ chain ∈ chains, (chain.family, chain.table) ∈ tables
  chains_nodup : (chains.map Chain.key).Nodup
  rule_chain : ∀ rule ∈ rules, rule.chainKey ∈ chains.map Chain.key
  jump_chain : ∀ rule ∈ rules, ∀ key ∈ rule.jumpKeys,
    key ∈ chains.map Chain.key
  handles_nodup : (rules.map Rule.handle).Nodup
  handle_lt : ∀ rule ∈ rules, rule.handle < nextHandle

def Ruleset.empty : Ruleset where
  tables := []
  chains := []
  rules := []
  nextHandle := 1
  chain_table := by simp
  chains_nodup := by simp
  rule_chain := by simp
  jump_chain := by simp
  handles_nodup := by simp
  handle_lt := by simp

/-! ## Primitive changes -/

def Ruleset.addTable (ruleset : Ruleset) (family : Family) (name : String) :
    Ruleset :=
  { ruleset with
    tables := ruleset.tables ++ [(family, name)]
    chain_table := by
      intro chain hchain
      exact List.mem_append_left _ (ruleset.chain_table chain hchain) }

def Ruleset.addChain (ruleset : Ruleset) (chain : Chain)
    (htable : (chain.family, chain.table) ∈ ruleset.tables)
    (hfresh : chain.key ∉ ruleset.chains.map Chain.key) : Ruleset :=
  { ruleset with
    chains := ruleset.chains ++ [chain]
    chain_table := by
      intro candidate hcandidate
      rcases List.mem_append.mp hcandidate with hold | hnew
      · exact ruleset.chain_table candidate hold
      · rw [List.mem_singleton.mp hnew]
        exact htable
    chains_nodup := by
      rw [List.map_append, List.nodup_append]
      refine ⟨ruleset.chains_nodup, List.nodup_singleton _, ?_⟩
      intro key hkey fresh hmem heq
      rw [List.map_singleton, List.mem_singleton] at hmem
      exact hfresh (hmem ▸ heq ▸ hkey)
    rule_chain := by
      intro rule hrule
      rw [List.map_append]
      exact List.mem_append_left _ (ruleset.rule_chain rule hrule)
    jump_chain := by
      intro rule hrule key hkey
      rw [List.map_append]
      exact List.mem_append_left _ (ruleset.jump_chain rule hrule key hkey) }

/-- The rule that an `add rule` command creates. -/
def Ruleset.newRule (ruleset : Ruleset) (key : ChainKey)
    (expr : List RuleExpr) : Rule :=
  ⟨key.1, key.2.1, key.2.2, ruleset.nextHandle, expr⟩

def Ruleset.addRule (ruleset : Ruleset) (key : ChainKey)
    (expr : List RuleExpr) (hchain : key ∈ ruleset.chains.map Chain.key)
    (hjumps : ∀ target ∈ jumpTargets expr,
      (key.1, key.2.1, target) ∈ ruleset.chains.map Chain.key) : Ruleset :=
  { ruleset with
    rules := ruleset.rules ++ [ruleset.newRule key expr]
    nextHandle := ruleset.nextHandle + 1
    rule_chain := by
      intro rule hrule
      rcases List.mem_append.mp hrule with hold | hnew
      · exact ruleset.rule_chain rule hold
      · rw [List.mem_singleton.mp hnew]
        exact hchain
    jump_chain := by
      intro rule hrule target htarget
      rcases List.mem_append.mp hrule with hold | hnew
      · exact ruleset.jump_chain rule hold target htarget
      · rw [List.mem_singleton.mp hnew] at htarget
        obtain ⟨name, hname, rfl⟩ := List.mem_map.mp htarget
        exact hjumps name hname
    handles_nodup := by
      rw [List.map_append, List.nodup_append]
      refine ⟨ruleset.handles_nodup, List.nodup_singleton _, ?_⟩
      intro handle hhandle fresh hfresh heq
      obtain ⟨rule, hrule, rfl⟩ := List.mem_map.mp hhandle
      rw [List.map_singleton, List.mem_singleton] at hfresh
      have hlt := ruleset.handle_lt rule hrule
      have hnext : rule.handle = ruleset.nextHandle := heq.trans hfresh
      omega
    handle_lt := by
      intro rule hrule
      rcases List.mem_append.mp hrule with hold | hnew
      · exact Nat.lt_succ_of_lt (ruleset.handle_lt rule hold)
      · rw [List.mem_singleton.mp hnew]
        exact Nat.lt_succ_self _ }

def Ruleset.keepRules (ruleset : Ruleset) (keep : Rule → Bool) : Ruleset :=
  { ruleset with
    rules := ruleset.rules.filter keep
    rule_chain := by
      intro rule hrule
      exact ruleset.rule_chain rule (List.mem_of_mem_filter hrule)
    jump_chain := by
      intro rule hrule
      exact ruleset.jump_chain rule (List.mem_of_mem_filter hrule)
    handles_nodup :=
      ruleset.handles_nodup.sublist (List.filter_sublist.map _)
    handle_lt := by
      intro rule hrule
      exact ruleset.handle_lt rule (List.mem_of_mem_filter hrule) }

/-- No rule of another chain jumps to the chain. -/
def Ruleset.Unreferenced (ruleset : Ruleset) (key : ChainKey) : Prop :=
  ∀ rule ∈ ruleset.rules, rule.chainKey ≠ key → key ∉ rule.jumpKeys

instance Ruleset.Unreferenced.decidable
    (ruleset : Ruleset) (key : ChainKey) :
    Decidable (ruleset.Unreferenced key) :=
  inferInstanceAs (Decidable (∀ rule ∈ ruleset.rules, _))

def Ruleset.dropChain (ruleset : Ruleset) (key : ChainKey)
    (hfree : ruleset.Unreferenced key) : Ruleset :=
  { ruleset with
    chains := ruleset.chains.filter fun chain => chain.key != key
    rules := ruleset.rules.filter fun rule => rule.chainKey != key
    chain_table := by
      intro chain hchain
      exact ruleset.chain_table chain (List.mem_of_mem_filter hchain)
    chains_nodup :=
      ruleset.chains_nodup.sublist (List.filter_sublist.map _)
    rule_chain := by
      intro rule hrule
      obtain ⟨hmem, hne⟩ := List.mem_filter.mp hrule
      obtain ⟨chain, hchain, hkey⟩ :=
        List.mem_map.mp (ruleset.rule_chain rule hmem)
      refine List.mem_map.mpr ⟨chain, List.mem_filter.mpr ⟨hchain, ?_⟩, hkey⟩
      rw [hkey]
      exact hne
    jump_chain := by
      intro rule hrule target htarget
      obtain ⟨hmem, hne⟩ := List.mem_filter.mp hrule
      obtain ⟨chain, hchain, hkey⟩ :=
        List.mem_map.mp (ruleset.jump_chain rule hmem target htarget)
      refine List.mem_map.mpr ⟨chain, List.mem_filter.mpr ⟨hchain, ?_⟩, hkey⟩
      have hother : key ∉ rule.jumpKeys :=
        hfree rule hmem (by simpa using hne)
      rw [hkey, bne_iff_ne]
      intro heq
      exact hother (heq ▸ htarget)
    handles_nodup :=
      ruleset.handles_nodup.sublist (List.filter_sublist.map _)
    handle_lt := by
      intro rule hrule
      exact ruleset.handle_lt rule (List.mem_of_mem_filter hrule) }

/-- Type, hook and priority agree; only the policy may differ. -/
def BaseHook.sameHook (first second : BaseHook) : Bool :=
  first.chainType == second.chainType && first.hook == second.hook &&
    first.prio == second.prio

/-- The existing chain is a base chain as the other one asks for. -/
def Chain.hookedLike (existing chain : Chain) : Bool :=
  match existing.base, chain.base with
  | some found, some asked => found.sameHook asked
  | _, _ => false

def Chain.rebase (target existing : Chain) : Chain :=
  if existing.key = target.key then { existing with base := target.base }
  else existing

@[simp] theorem Chain.rebase_key (target existing : Chain) :
    (target.rebase existing).key = existing.key := by
  unfold Chain.rebase
  split <;> rfl

theorem Chain.map_key_rebase (target : Chain) (chains : List Chain) :
    (chains.map target.rebase).map Chain.key = chains.map Chain.key := by
  rw [List.map_map]
  exact List.map_congr_left fun existing _ => target.rebase_key existing

/-- The base chain takes the policy of the target over. -/
def Ruleset.updateChain (ruleset : Ruleset) (target : Chain) : Ruleset :=
  { ruleset with
    chains := ruleset.chains.map target.rebase
    chain_table := by
      intro chain hchain
      obtain ⟨existing, hmem, rfl⟩ := List.mem_map.mp hchain
      have hkey := target.rebase_key existing
      simp only [Chain.key, Prod.mk.injEq] at hkey
      rw [hkey.1, hkey.2.1]
      exact ruleset.chain_table existing hmem
    chains_nodup := by
      rw [target.map_key_rebase]
      exact ruleset.chains_nodup
    rule_chain := by
      rw [target.map_key_rebase]
      exact ruleset.rule_chain
    jump_chain := by
      rw [target.map_key_rebase]
      exact ruleset.jump_chain }

/-! ## Commands and batches -/

inductive NftCommand where
  | addTable (family : Family) (name : String)
  | addChain (chain : Chain)
  | addRule (key : ChainKey) (expr : List RuleExpr)
  | deleteRule (key : ChainKey) (handle : ℕ)
  | deleteChain (key : ChainKey)
  deriving DecidableEq, Repr

/-- One command of a batch, or `none` when the kernel rejects it.  Adding a
table or a regular chain that exists changes nothing; a base chain that
exists cannot be hooked elsewhere. -/
def Ruleset.apply (ruleset : Ruleset) : NftCommand → Option Ruleset
  | .addTable family name =>
      if (family, name) ∈ ruleset.tables then some ruleset
      else some (ruleset.addTable family name)
  | .addChain chain =>
      if hfresh : chain.key ∈ ruleset.chains.map Chain.key then
        if chain.base = none then some ruleset
        else if ∃ existing ∈ ruleset.chains, existing.key = chain.key ∧
            existing.hookedLike chain = true then
          some (ruleset.updateChain chain)
        else none
      else if htable : (chain.family, chain.table) ∈ ruleset.tables then
        some (ruleset.addChain chain htable hfresh)
      else none
  | .addRule key expr =>
      if hchain : key ∈ ruleset.chains.map Chain.key then
        if hjumps : ∀ target ∈ jumpTargets expr,
            (key.1, key.2.1, target) ∈ ruleset.chains.map Chain.key then
          some (ruleset.addRule key expr hchain hjumps)
        else none
      else none
  | .deleteRule key handle =>
      if ∃ rule ∈ ruleset.rules, rule.chainKey = key ∧
          rule.handle = handle then
        some (ruleset.keepRules fun rule =>
          !(rule.chainKey == key && rule.handle == handle))
      else none
  | .deleteChain key =>
      if key ∈ ruleset.chains.map Chain.key then
        if hfree : ruleset.Unreferenced key then
          some (ruleset.dropChain key hfree)
        else none
      else none

/-- All that an accepted command can do. -/
inductive Ruleset.Applied (ruleset : Ruleset) :
    NftCommand → Ruleset → Prop
  | tableKnown (family : Family) (name : String) :
      Applied ruleset (.addTable family name) ruleset
  | tableAdded (family : Family) (name : String) :
      Applied ruleset (.addTable family name) (ruleset.addTable family name)
  | chainKnown (chain : Chain)
      (hknown : chain.key ∈ ruleset.chains.map Chain.key)
      (hregular : chain.base = none) :
      Applied ruleset (.addChain chain) ruleset
  | chainUpdated (chain : Chain) (hbase : chain.base ≠ none)
      (hhooked : ∃ existing ∈ ruleset.chains, existing.key = chain.key ∧
        existing.hookedLike chain = true) :
      Applied ruleset (.addChain chain) (ruleset.updateChain chain)
  | chainAdded (chain : Chain)
      (htable : (chain.family, chain.table) ∈ ruleset.tables)
      (hfresh : chain.key ∉ ruleset.chains.map Chain.key) :
      Applied ruleset (.addChain chain)
        (ruleset.addChain chain htable hfresh)
  | ruleAdded (key : ChainKey) (expr : List RuleExpr)
      (hchain : key ∈ ruleset.chains.map Chain.key)
      (hjumps : ∀ target ∈ jumpTargets expr,
        (key.1, key.2.1, target) ∈ ruleset.chains.map Chain.key) :
      Applied ruleset (.addRule key expr)
        (ruleset.addRule key expr hchain hjumps)
  | ruleDeleted (key : ChainKey) (handle : ℕ) :
      Applied ruleset (.deleteRule key handle)
        (ruleset.keepRules fun rule =>
          !(rule.chainKey == key && rule.handle == handle))
  | chainDropped (key : ChainKey) (hfree : ruleset.Unreferenced key) :
      Applied ruleset (.deleteChain key) (ruleset.dropChain key hfree)

theorem Ruleset.applied_of_apply {ruleset next : Ruleset}
    {command : NftCommand} (hok : ruleset.apply command = some next) :
    ruleset.Applied command next := by
  cases command with
  | addTable family name =>
      simp only [Ruleset.apply] at hok
      split_ifs at hok with hknown
      · cases hok
        exact .tableKnown family name
      · cases hok
        exact .tableAdded family name
  | addChain chain =>
      simp only [Ruleset.apply] at hok
      split_ifs at hok with hknown hregular hhooked htable
      · cases hok
        exact .chainKnown chain hknown hregular
      · cases hok
        exact .chainUpdated chain hregular hhooked
      · cases hok
        exact .chainAdded chain htable hknown
  | addRule key expr =>
      simp only [Ruleset.apply] at hok
      split_ifs at hok with hchain hjumps
      cases hok
      exact .ruleAdded key expr hchain hjumps
  | deleteRule key handle =>
      simp only [Ruleset.apply] at hok
      split_ifs at hok with hexists
      cases hok
      exact .ruleDeleted key handle
  | deleteChain key =>
      simp only [Ruleset.apply] at hok
      split_ifs at hok with hknown hfree
      cases hok
      exact .chainDropped key hfree

def Ruleset.applyBatch (ruleset : Ruleset) (commands : List NftCommand) :
    Option Ruleset :=
  commands.foldlM Ruleset.apply ruleset

@[simp] theorem Ruleset.applyBatch_nil (ruleset : Ruleset) :
    ruleset.applyBatch [] = some ruleset := rfl

theorem Ruleset.applyBatch_cons
    (ruleset : Ruleset) (command : NftCommand) (rest : List NftCommand) :
    ruleset.applyBatch (command :: rest) =
      (ruleset.apply command).bind fun next => next.applyBatch rest := rfl

theorem Ruleset.applyBatch_append
    (ruleset : Ruleset) (before after : List NftCommand) :
    ruleset.applyBatch (before ++ after) =
      (ruleset.applyBatch before).bind fun next => next.applyBatch after := by
  unfold Ruleset.applyBatch
  rw [List.foldlM_append]
  rfl

/-- What every command of a batch does to a ruleset, the batch does, if it
can be done repeatedly. -/
theorem Ruleset.applyBatch_relates {R : Ruleset → Ruleset → Prop}
    (hrefl : ∀ ruleset, R ruleset ruleset)
    (htrans : ∀ first second third, R first second → R second third →
      R first third)
    {commands : List NftCommand} {ruleset next : Ruleset}
    (hstep : ∀ command ∈ commands, ∀ before after : Ruleset,
      before.apply command = some after → R before after)
    (hok : ruleset.applyBatch commands = some next) : R ruleset next := by
  induction commands generalizing ruleset with
  | nil =>
      cases hok
      exact hrefl next
  | cons command rest ih =>
      rw [Ruleset.applyBatch_cons, Option.bind_eq_some_iff] at hok
      obtain ⟨middle, hcommand, hrest⟩ := hok
      apply htrans ruleset middle next
      · exact hstep command List.mem_cons_self ruleset middle hcommand
      · exact ih (fun later hlater =>
          hstep later (List.mem_cons_of_mem _ hlater)) hrest

end AlephCvm.Nft
