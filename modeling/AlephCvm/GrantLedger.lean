import Mathlib.Algebra.BigOperators.Group.Multiset.Basic
import Mathlib.Algebra.Order.Group.Multiset

/-!
# Totals of outstanding grants

A ledger of grants is a multiset.  Every grant names the account it was
charged to and has a weight, and the balance an account should show is the
total weight of the grants outstanding on it.
-/

namespace GrantLedger

variable {γ κ : Type*} [DecidableEq κ]

def total (account : γ → κ) (weight : γ → ℕ) (grants : Multiset γ) (key : κ) :
    ℕ :=
  (grants.map fun grant => if account grant = key then weight grant else 0).sum

@[simp] theorem total_zero (account : γ → κ) (weight : γ → ℕ) (key : κ) :
    total account weight 0 key = 0 := by
  simp [total]

@[simp] theorem total_cons
    (account : γ → κ) (weight : γ → ℕ) (grant : γ) (grants : Multiset γ)
    (key : κ) :
    total account weight (grant ::ₘ grants) key =
      (if account grant = key then weight grant else 0) +
        total account weight grants key := by
  simp [total]

theorem total_add
    (account : γ → κ) (weight : γ → ℕ) (first second : Multiset γ)
    (key : κ) :
    total account weight (first + second) key =
      total account weight first key + total account weight second key := by
  simp [total]

theorem total_erase [DecidableEq γ]
    (account : γ → κ) (weight : γ → ℕ) {grant : γ} {grants : Multiset γ}
    (hgrant : grant ∈ grants) (key : κ) :
    total account weight grants key =
      (if account grant = key then weight grant else 0) +
        total account weight (grants.erase grant) key := by
  rw [← total_cons, Multiset.cons_erase hgrant]

theorem total_erase_of_ne [DecidableEq γ]
    (account : γ → κ) (weight : γ → ℕ) {grant : γ} {grants : Multiset γ}
    (hgrant : grant ∈ grants) {key : κ} (hne : account grant ≠ key) :
    total account weight (grants.erase grant) key =
      total account weight grants key := by
  rw [total_erase account weight hgrant key, if_neg hne, Nat.zero_add]

end GrantLedger
