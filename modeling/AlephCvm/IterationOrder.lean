import Mathlib.Data.List.Rotate

/-!
# Unspecified iteration orders

Hash maps and directories are traversed in an order that the program does not
control.  An `IterationOrder` is one such order: it rearranges every list it
is given.  Operations that traverse a map take one as a parameter, so that a
theorem about them holds for all orders.
-/

structure IterationOrder where
  arrange : {α : Type} → List α → List α
  perm : ∀ {α : Type} (items : List α), (arrange items).Perm items

namespace IterationOrder

/-- The order in which the model stores the items. -/
def stored : IterationOrder where
  arrange := fun items => items
  perm := fun items => List.Perm.refl items

/-- The stored order, started at a later item. -/
def rotated (start : ℕ) : IterationOrder where
  arrange := fun items => items.rotate start
  perm := fun items => List.rotate_perm items start

/-- Every item comes first in some order. -/
theorem exists_rotated_head {α : Type} {item : α} {items : List α}
    (hmem : item ∈ items) :
    ∃ start rest, (rotated start).arrange items = item :: rest := by
  obtain ⟨before, after, rfl⟩ := List.append_of_mem hmem
  exact ⟨before.length, after ++ before,
    List.rotate_append_length_eq before (item :: after)⟩

variable {α : Type} (order : IterationOrder)

@[simp] theorem mem_arrange {item : α} {items : List α} :
    item ∈ order.arrange items ↔ item ∈ items :=
  (order.perm items).mem_iff

end IterationOrder
