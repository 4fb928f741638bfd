import Mathlib.Data.List.Basic

/-!
# Tables that are reflected in lists

A table is kept a second time as a list of items that carry its keys.  The
list reflects the table when every entry has exactly one item that carries its
key, which is an image of the entry, and no item carries a key that has no
entry.  The rules say which changes of the list go with which changes of the
table.
-/

namespace TableReflection

variable {κ ν ρ : Type*}

structure Reflects (carries : ρ → κ → Bool) (image : κ → ν → ρ → Prop)
    (lookup : κ → Option ν) (items : List ρ) : Prop where
  entry : ∀ key value, lookup key = some value →
    ∃ item, items.filter (fun item => carries item key) = [item] ∧
      image key value item
  free : ∀ key, lookup key = none →
    items.filter (fun item => carries item key) = []

variable {carries : ρ → κ → Bool} {image other : κ → ν → ρ → Prop}
  {lookup after : κ → Option ν} {items : List ρ}

theorem Reflects.empty (hnone : ∀ key, lookup key = none)
    (hitems : ∀ item ∈ items, ∀ key, carries item key = false) :
    Reflects carries image lookup items where
  entry := by
    intro key value hlookup
    rw [hnone] at hlookup
    cases hlookup
  free := by
    intro key _
    rw [List.filter_eq_nil_iff]
    intro item hitem
    rw [hitems item hitem]
    exact Bool.false_ne_true

theorem Reflects.congr (hreflects : Reflects carries image lookup items)
    (hsame : ∀ key, after key = lookup key) :
    Reflects carries image after items := by
  rw [funext hsame]
  exact hreflects

theorem Reflects.mono (hreflects : Reflects carries image lookup items)
    (himage : ∀ key value item, lookup key = some value →
      image key value item → other key value item) :
    Reflects carries other lookup items where
  entry := by
    intro key value hlookup
    obtain ⟨item, hitem, himaged⟩ := hreflects.entry key value hlookup
    exact ⟨item, hitem, himage key value item hlookup himaged⟩
  free := hreflects.free

/-- Items that carry no key may be appended. -/
theorem Reflects.append_other
    (hreflects : Reflects carries image lookup items) {others : List ρ}
    (hothers : ∀ item ∈ others, ∀ key, carries item key = false) :
    Reflects carries image lookup (items ++ others) := by
  have hnone : ∀ key,
      others.filter (fun item => carries item key) = [] := by
    intro key
    rw [List.filter_eq_nil_iff]
    intro item hitem
    rw [hothers item hitem]
    exact Bool.false_ne_true
  constructor
  · intro key value hlookup
    rw [List.filter_append, hnone, List.append_nil]
    exact hreflects.entry key value hlookup
  · intro key hlookup
    rw [List.filter_append, hnone, List.append_nil]
    exact hreflects.free key hlookup

/-- A new entry goes with a new item that carries its key only. -/
theorem Reflects.insert [DecidableEq κ]
    (hreflects : Reflects carries image lookup items) {key : κ} {value : ν}
    {item : ρ} (hfree : lookup key = none)
    (hcarries : ∀ found, carries item found = decide (found = key))
    (himage : image key value item)
    (hafter : ∀ found, after found =
      if found = key then some value else lookup found) :
    Reflects carries image after (items ++ [item]) := by
  constructor
  · intro found current hlookup
    rw [hafter] at hlookup
    by_cases hkey : found = key
    · rw [if_pos hkey, Option.some.injEq] at hlookup
      subst hkey
      subst hlookup
      refine ⟨item, ?_, himage⟩
      rw [List.filter_append, hreflects.free found hfree]
      simp [hcarries]
    · rw [if_neg hkey] at hlookup
      obtain ⟨old, hold, himaged⟩ := hreflects.entry found current hlookup
      refine ⟨old, ?_, himaged⟩
      rw [List.filter_append, hold]
      simp [hcarries, hkey]
  · intro found hlookup
    rw [hafter] at hlookup
    by_cases hkey : found = key
    · rw [if_pos hkey] at hlookup
      cases hlookup
    · rw [if_neg hkey] at hlookup
      rw [List.filter_append, hreflects.free found hlookup]
      simp [hcarries, hkey]

/-- Entries are removed together with the items that carry their keys; which
of the other items are dropped does not matter. -/
theorem Reflects.remove
    (hreflects : Reflects carries image lookup items) {gone : κ → Prop}
    [DecidablePred gone] {keep : ρ → Bool}
    (hkeep : ∀ key value, lookup key = some value →
      ∀ item, carries item key = true → image key value item →
        keep item = !decide (gone key))
    (hafter : ∀ key, after key = if gone key then none else lookup key) :
    Reflects carries image after (items.filter keep) := by
  have hcomm : ∀ key,
      (items.filter keep).filter (fun item => carries item key) =
        (items.filter fun item => carries item key).filter keep := by
    intro key
    rw [List.filter_filter, List.filter_filter]
    apply List.filter_congr
    intro item _
    exact Bool.and_comm _ _
  have hkept : ∀ key value, lookup key = some value →
      ∃ item, (items.filter keep).filter (fun item => carries item key) =
          (if gone key then [] else [item]) ∧ image key value item := by
    intro key value hlookup
    obtain ⟨item, hitem, himaged⟩ := hreflects.entry key value hlookup
    have hmem : item ∈ items.filter fun item => carries item key := by
      rw [hitem]
      exact List.mem_cons_self
    have hdecided := hkeep key value hlookup item
      (List.mem_filter.mp hmem).2 himaged
    refine ⟨item, ?_, himaged⟩
    rw [hcomm, hitem, List.filter_singleton, hdecided]
    by_cases hgone : gone key
    · simp [hgone]
    · simp [hgone]
  constructor
  · intro key value hlookup
    rw [hafter] at hlookup
    by_cases hgone : gone key
    · rw [if_pos hgone] at hlookup
      cases hlookup
    · rw [if_neg hgone] at hlookup
      obtain ⟨item, hitem, himaged⟩ := hkept key value hlookup
      rw [if_neg hgone] at hitem
      exact ⟨item, hitem, himaged⟩
  · intro key hlookup
    cases hold : lookup key with
    | none =>
        rw [hcomm, hreflects.free key hold]
        rfl
    | some value =>
        rw [hafter, hold] at hlookup
        by_cases hgone : gone key
        · obtain ⟨item, hitem, _⟩ := hkept key value hold
          rw [if_pos hgone] at hitem
          exact hitem
        · rw [if_neg hgone] at hlookup
          cases hlookup

end TableReflection
