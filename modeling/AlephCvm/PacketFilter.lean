import Mathlib.Data.List.Forall2

/-!
# First-match packet filters

A filter looks at the rules of a chain one after the other.  For the packet at
hand a rule has no effect, sends the packet through another chain, or ends the
evaluation with a verdict; a chain that ends without a verdict returns to the
rule after the jump.  The kernel bounds how deep jumps may nest, and so does
`evaluate`.  What comes out is tied to the rules that the packet reaches.
-/

namespace PacketFilter

/-- What a rule does to one packet. -/
inductive Action (κ ω : Type*) where
  | pass
  | jump (target : κ)
  | stop (verdict : ω)

variable {κ ρ ω : Type*}

/-- The first rule that ends the evaluation, with its verdict. -/
def evaluate (rules : κ → List ρ) (action : ρ → Action κ ω) :
    ℕ → κ → Option (ρ × ω)
  | 0, _ => none
  | depth + 1, chain =>
      (rules chain).findSome? fun rule =>
        match action rule with
        | .pass => none
        | .jump target => evaluate rules action depth target
        | .stop verdict => some (rule, verdict)

/-- The rule sits in the chain or in one that is jumped to from there. -/
inductive Reaches (rules : κ → List ρ) (action : ρ → Action κ ω) :
    ℕ → κ → ρ → Prop
  | here {depth : ℕ} {chain : κ} {rule : ρ} (hmem : rule ∈ rules chain) :
      Reaches rules action (depth + 1) chain rule
  | jump {depth : ℕ} {chain target : κ} {rule reached : ρ}
      (hmem : rule ∈ rules chain) (hjump : action rule = .jump target)
      (hreached : Reaches rules action depth target reached) :
      Reaches rules action (depth + 1) chain reached

section

variable {rules : κ → List ρ} {action : ρ → Action κ ω}

/-- A verdict comes from a rule that the packet reaches. -/
theorem reaches_of_evaluate {depth : ℕ} {chain : κ} {rule : ρ}
    {verdict : ω}
    (heval : evaluate rules action depth chain = some (rule, verdict)) :
    Reaches rules action depth chain rule ∧
      action rule = .stop verdict := by
  induction depth generalizing chain with
  | zero => cases heval
  | succ depth ih =>
      obtain ⟨first, hmem, hfirst⟩ :=
        List.exists_of_findSome?_eq_some heval
      cases haction : action first with
      | pass =>
          rw [haction] at hfirst
          cases hfirst
      | jump target =>
          rw [haction] at hfirst
          obtain ⟨hreached, hstop⟩ := ih hfirst
          exact ⟨.jump hmem haction hreached, hstop⟩
      | stop found =>
          rw [haction] at hfirst
          cases hfirst
          exact ⟨.here hmem, haction⟩

/-- A rule with a verdict that the packet reaches is not passed over without
a verdict. -/
theorem evaluate_isSome_of_reaches {depth : ℕ} {chain : κ} {rule : ρ}
    {verdict : ω} (hreaches : Reaches rules action depth chain rule)
    (hstop : action rule = .stop verdict) :
    (evaluate rules action depth chain).isSome = true := by
  induction hreaches with
  | here hmem =>
      apply List.findSome?_isSome_iff.mpr
      refine ⟨_, hmem, ?_⟩
      rw [hstop]
      rfl
  | jump hmem hjump hreached ih =>
      apply List.findSome?_isSome_iff.mpr
      refine ⟨_, hmem, ?_⟩
      rw [hjump]
      exact ih hstop

/-- When the rules of a chain do what a list of entries decides, without
jumps, the first entry with a verdict decides. -/
theorem evaluate_of_entries {α : Type*} {entries : List α}
    {verdictOf : α → Option ω} {chain : κ} (depth : ℕ)
    (hentries : List.Forall₂ (fun rule entry =>
      action rule = (verdictOf entry).elim .pass .stop)
        (rules chain) entries) :
    (evaluate rules action (depth + 1) chain).map Prod.snd =
      entries.findSome? verdictOf := by
  unfold evaluate
  generalize rules chain = list at hentries
  induction hentries with
  | nil => rfl
  | cons hrule _ ih =>
      rw [List.findSome?_cons, List.findSome?_cons, hrule, ← ih]
      cases verdictOf _ <;> rfl

/-- A chain that does not decide at some depth does not at a smaller one. -/
theorem evaluate_none_of_le {depth smaller : ℕ} {chain : κ}
    (hle : smaller ≤ depth)
    (hnone : evaluate rules action depth chain = none) :
    evaluate rules action smaller chain = none := by
  induction smaller generalizing depth chain with
  | zero => rfl
  | succ smaller ih =>
      obtain ⟨deeper, rfl⟩ : ∃ deeper, depth = deeper + 1 :=
        ⟨depth - 1, by omega⟩
      apply List.findSome?_eq_none_iff.mpr
      intro rule hmem
      have hrule := List.findSome?_eq_none_iff.mp hnone rule hmem
      cases haction : action rule with
      | pass => rfl
      | jump target =>
          rw [haction] at hrule
          exact ih (by omega) hrule
      | stop verdict =>
          rw [haction] at hrule
          cases hrule

theorem findSome?_eq_filter {α β : Type*} {found other : α → Option β}
    {keep : α → Bool} {items : List α}
    (hkept : ∀ item ∈ items, keep item = true → found item = other item)
    (hnone : ∀ item ∈ items, keep item = false → found item = none) :
    items.findSome? found = (items.filter keep).findSome? other := by
  induction items with
  | nil => rfl
  | cons item rest ih =>
      rw [List.forall_mem_cons] at hkept hnone
      have hrest := ih hkept.2 hnone.2
      cases hkeep : keep item with
      | true => simp [hkeep, List.findSome?_cons, hkept.1 hkeep, hrest]
      | false => simp [hkeep, hnone.1 hkeep, hrest]

/-- Rules that jump to chains that do not decide can be left out of some
chains, if no other rule leads out of these. -/
theorem evaluate_of_silent
    {others : κ → List ρ} {depth : ℕ} (inside : κ → Prop)
    (extra : ρ → Bool)
    (hrules : ∀ chain, inside chain →
      rules chain = (others chain).filter fun rule => !extra rule)
    (hclosed : ∀ chain, inside chain → ∀ rule ∈ rules chain, ∀ target,
      action rule = .jump target → inside target)
    (hsilent : ∀ chain, inside chain → ∀ rule ∈ others chain,
      extra rule = true → ∃ target, action rule = .jump target ∧
        evaluate others action depth target = none)
    {chain : κ} (hchain : inside chain) :
    evaluate others action depth chain =
      evaluate rules action depth chain := by
  have hall : ∀ smaller ≤ depth, ∀ chain, inside chain →
      evaluate others action smaller chain =
        evaluate rules action smaller chain := by
    intro smaller
    induction smaller with
    | zero =>
        intro _ chain _
        rfl
    | succ smaller ih =>
        intro hle chain hinside
        rw [evaluate, evaluate, hrules chain hinside]
        apply findSome?_eq_filter
        · intro rule hmem hkeep
          have hkept : rule ∈ rules chain := by
            rw [hrules chain hinside]
            exact List.mem_filter.mpr ⟨hmem, hkeep⟩
          cases haction : action rule with
          | pass => rfl
          | stop verdict => rfl
          | jump target =>
              exact ih (by omega) target
                (hclosed chain hinside rule hkept target haction)
        · intro rule hmem hkeep
          obtain ⟨target, haction, hquiet⟩ :=
            hsilent chain hinside rule hmem (by simpa using hkeep)
          rw [haction]
          exact evaluate_none_of_le (by omega) hquiet
  exact hall depth (Nat.le_refl depth) chain hchain

end

end PacketFilter
