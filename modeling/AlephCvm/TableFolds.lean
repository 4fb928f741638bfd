import Mathlib.Algebra.BigOperators.Group.Multiset.Basic
import Mathlib.Data.Finset.Insert
import Mathlib.Data.List.AList

/-!
# Tables and loops over them

What a finite map holds after one insertion or removal, and after a loop of
them.  A loop that inserts one entry per item, or erases one key per item, is
a fold over the map.  The lemmas read such a fold back: entries of other keys
stay, and when no two items fight over a key every item is found under its
key.
-/

namespace TableFolds

variable {κ ν ι : Type}

/-- Items with the same key have the same value. -/
def Consistent (key : ι → κ) (value : ι → ν) (items : List ι) : Prop :=
  ∀ first ∈ items, ∀ second ∈ items, key first = key second →
    value first = value second

theorem consistent_of_nodup
    {key : ι → κ} {value : ι → ν} {items : List ι}
    (hnodup : (items.map key).Nodup) : Consistent key value items := by
  intro first hfirst second hsecond hkey
  rw [List.inj_on_of_nodup_map hnodup hfirst hsecond hkey]

variable [DecidableEq κ]

theorem lookup_insert_iff
    {table : AList fun _ : κ => ν} {key wanted : κ} {value found : ν} :
    (table.insert key value).lookup wanted = some found ↔
      (wanted = key ∧ found = value) ∨
        (wanted ≠ key ∧ table.lookup wanted = some found) := by
  by_cases hwanted : wanted = key
  · subst hwanted
    simp [eq_comm]
  · rw [AList.lookup_insert_ne hwanted]
    simp [hwanted]

theorem lookup_erase_iff
    {table : AList fun _ : κ => ν} {key wanted : κ} {found : ν} :
    (table.erase key).lookup wanted = some found ↔
      wanted ≠ key ∧ table.lookup wanted = some found := by
  by_cases hwanted : wanted = key
  · subst hwanted
    simp
  · rw [AList.lookup_erase_ne hwanted]
    simp [hwanted]

def insertAll (key : ι → κ) (value : ι → ν) (items : List ι)
    (table : AList fun _ : κ => ν) : AList fun _ : κ => ν :=
  items.foldl (fun table item => table.insert (key item) (value item)) table

variable {key : ι → κ} {value : ι → ν}

theorem lookup_insertAll_of_notMem
    {items : List ι} {table : AList fun _ : κ => ν} {wanted : κ}
    (hwanted : wanted ∉ items.map key) :
    (insertAll key value items table).lookup wanted =
      table.lookup wanted := by
  induction items generalizing table with
  | nil => rfl
  | cons item rest ih =>
      rw [List.map_cons, List.mem_cons, not_or] at hwanted
      rw [insertAll, List.foldl_cons, ← insertAll, ih hwanted.2]
      exact AList.lookup_insert_ne hwanted.1

/-- What holds of a table and of every inserted item holds afterwards. -/
theorem forall_lookup_insertAll
    {P : κ → ν → Prop} {items : List ι} {table : AList fun _ : κ => ν}
    (htable : ∀ wanted found, table.lookup wanted = some found →
      P wanted found) (hitems : ∀ item ∈ items, P (key item) (value item)) :
    ∀ wanted found,
      (insertAll key value items table).lookup wanted = some found →
        P wanted found := by
  induction items generalizing table with
  | nil => exact htable
  | cons item rest ih =>
      apply ih
      · intro wanted found hlookup
        rcases lookup_insert_iff.mp hlookup with ⟨hkey, hnew⟩ | ⟨_, hold⟩
        · rw [hkey, hnew]
          exact hitems item List.mem_cons_self
        · exact htable wanted found hold
      · intro other hother
        exact hitems other (List.mem_cons_of_mem item hother)

theorem lookup_insertAll_of_mem
    {items : List ι} {table : AList fun _ : κ => ν} {item : ι}
    (hsame : Consistent key value items) (hitem : item ∈ items) :
    (insertAll key value items table).lookup (key item) =
      some (value item) := by
  induction items generalizing table item with
  | nil => simp at hitem
  | cons head rest ih =>
      have hrest : Consistent key value rest := by
        intro first hfirst second hsecond
        exact hsame first (List.mem_cons_of_mem head hfirst) second
          (List.mem_cons_of_mem head hsecond)
      rw [insertAll, List.foldl_cons, ← insertAll]
      by_cases hlater : key item ∈ rest.map key
      · obtain ⟨later, hmem, hkey⟩ := List.mem_map.mp hlater
        rw [← hkey, ih hrest hmem, hsame later
          (List.mem_cons_of_mem head hmem) item hitem hkey]
      · rw [lookup_insertAll_of_notMem hlater]
        rcases List.mem_cons.mp hitem with rfl | hmem
        · exact AList.lookup_insert _
        · exact (hlater (List.mem_map_of_mem hmem)).elim

/-- A table filled from nothing holds exactly the items. -/
theorem lookup_insertAll_empty_iff
    {items : List ι} {wanted : κ} {found : ν}
    (hsame : Consistent key value items) :
    (insertAll key value items ∅).lookup wanted = some found ↔
      ∃ item ∈ items, key item = wanted ∧ value item = found := by
  constructor
  · intro hlookup
    by_cases hwanted : wanted ∈ items.map key
    · obtain ⟨item, hitem, rfl⟩ := List.mem_map.mp hwanted
      rw [lookup_insertAll_of_mem hsame hitem] at hlookup
      exact ⟨item, hitem, rfl, Option.some.inj hlookup⟩
    · rw [lookup_insertAll_of_notMem hwanted, AList.lookup_empty] at hlookup
      simp at hlookup
  · rintro ⟨item, hitem, rfl, rfl⟩
    exact lookup_insertAll_of_mem hsame hitem

theorem lookup_foldl_erase
    (keys : List κ) (table : AList fun _ : κ => ν) (wanted : κ) :
    (keys.foldl (fun table key => table.erase key) table).lookup wanted =
      if wanted ∈ keys then none else table.lookup wanted := by
  induction keys generalizing table with
  | nil => simp
  | cons head rest ih =>
      rw [List.foldl_cons, ih]
      by_cases hrest : wanted ∈ rest
      · simp [hrest]
      · by_cases hhead : wanted = head
        · subst hhead
          simp
        · simp [hrest, hhead, AList.lookup_erase_ne hhead]

theorem mem_foldl_insert
    [DecidableEq ν] (items : List ι) (set : Finset ν) (wanted : ν) :
    wanted ∈ items.foldl (fun set item => insert (value item) set) set ↔
      wanted ∈ set ∨ ∃ item ∈ items, value item = wanted := by
  induction items generalizing set with
  | nil => simp
  | cons item rest ih =>
      rw [List.foldl_cons, ih, Finset.mem_insert]
      simp only [List.mem_cons, exists_eq_or_imp]
      constructor
      · rintro ((hitem | hset) | hrest)
        · exact .inr (.inl hitem.symm)
        · exact .inl hset
        · exact .inr (.inr hrest)
      · rintro (hset | hitem | hrest)
        · exact .inl (.inr hset)
        · exact .inl (.inl hitem.symm)
        · exact .inr hrest

/-! ## The values of a table -/

/-- The values, each as often as there are keys for it. -/
def values (table : AList fun _ : κ => ν) : Multiset ν :=
  Multiset.ofList (table.entries.map Sigma.snd)

theorem values_insert_of_lookup_none
    {table : AList fun _ : κ => ν} {key : κ} (value : ν)
    (hnone : table.lookup key = none) :
    values (table.insert key value) = value ::ₘ values table := by
  rw [AList.lookup_eq_none] at hnone
  rw [values, AList.entries_insert_of_notMem hnone]
  rfl

theorem values_erase
    {table : AList fun _ : κ => ν} {key : κ} {value : ν}
    (hlookup : table.lookup key = some value) :
    values table = value ::ₘ values (table.erase key) := by
  have hkey : key ∈ table.entries.keys :=
    AList.lookup_isSome.mp (by rw [hlookup]; rfl)
  obtain ⟨found, before, after, _, hentries, herase⟩ :=
    List.exists_of_kerase hkey
  have hfound : found = value := by
    have hmem : (⟨key, found⟩ : Sigma fun _ : κ => ν) ∈ table.entries := by
      rw [hentries]
      simp
    rw [AList.mem_lookup_iff.mpr hmem, Option.some.injEq] at hlookup
    exact hlookup
  subst hfound
  have herased : (table.erase key).entries = before ++ after := herase
  rw [values, values, hentries, herased, Multiset.cons_coe,
    Multiset.coe_eq_coe, List.map_append, List.map_append, List.map_cons]
  exact List.perm_middle

theorem values_insertAll_of_nodup
    {items : List ι} {table : AList fun _ : κ => ν}
    (hnodup : (items.map key).Nodup)
    (hfresh : ∀ item ∈ items, table.lookup (key item) = none) :
    values (insertAll key value items table) =
      Multiset.ofList (items.map value) + values table := by
  induction items generalizing table with
  | nil => simp [insertAll]
  | cons head rest ih =>
      rw [List.map_cons, List.nodup_cons] at hnodup
      have hhead := hfresh head List.mem_cons_self
      have hrest : ∀ item ∈ rest,
          (table.insert (key head) (value head)).lookup (key item) =
            none := by
        intro item hitem
        have hne : key item ≠ key head := by
          intro heq
          exact hnodup.1 (heq ▸ List.mem_map_of_mem hitem)
        rw [AList.lookup_insert_ne hne]
        exact hfresh item (List.mem_cons_of_mem head hitem)
      rw [insertAll, List.foldl_cons, ← insertAll, ih hnodup.2 hrest,
        values_insert_of_lookup_none _ hhead, List.map_cons,
        ← Multiset.cons_coe, Multiset.add_cons, Multiset.cons_add]

/-- Items that weigh no more than the entries under their keys weigh no more
than the table, by induction on the items; each takes its entry away. -/
theorem sum_le_values
    {items : List ι} {table : AList fun _ : κ => ν} {load : ι → ℕ}
    {weight : ν → ℕ} (hnodup : (items.map key).Nodup)
    (hle : ∀ item ∈ items, load item ≠ 0 →
      ∃ found, table.lookup (key item) = some found ∧
        load item ≤ weight found) :
    ((Multiset.ofList items).map load).sum ≤
      ((values table).map weight).sum := by
  induction items generalizing table with
  | nil => exact Nat.zero_le _
  | cons head rest ih =>
      rw [List.map_cons, List.nodup_cons] at hnodup
      rw [← Multiset.cons_coe, Multiset.map_cons, Multiset.sum_cons]
      by_cases hzero : load head = 0
      · have hrest := ih hnodup.2 fun item hitem =>
          hle item (List.mem_cons_of_mem head hitem)
        omega
      · obtain ⟨found, hlookup, hload⟩ :=
          hle head List.mem_cons_self hzero
        have hrest : ((Multiset.ofList rest).map load).sum ≤
            ((values (table.erase (key head))).map weight).sum := by
          refine ih hnodup.2 ?_
          intro item hitem hne
          obtain ⟨value, hvalue, hbound⟩ :=
            hle item (List.mem_cons_of_mem head hitem) hne
          refine ⟨value, lookup_erase_iff.mpr ⟨?_, hvalue⟩, hbound⟩
          intro heq
          exact hnodup.1 (heq ▸ List.mem_map_of_mem hitem)
        rw [values_erase hlookup, Multiset.map_cons, Multiset.sum_cons]
        omega

/-! ## The entries of a table -/

/-- Keys with their values. -/
def pairs (table : AList fun _ : κ => ν) : Multiset (κ × ν) :=
  Multiset.ofList (table.entries.map fun entry => (entry.1, entry.2))

theorem pairs_insert_of_notMem
    {table : AList fun _ : κ => ν} {key : κ} (value : ν)
    (hfresh : key ∉ table) :
    pairs (table.insert key value) = (key, value) ::ₘ pairs table := by
  rw [pairs, AList.entries_insert_of_notMem hfresh]
  rfl

omit [DecidableEq κ] in
theorem nodup_of_pairs
    {table : AList fun _ : κ => ν} {items : List (κ × ν)}
    (hpairs : pairs table = Multiset.ofList items) :
    (items.map Prod.fst).Nodup := by
  have hperm := (Multiset.coe_eq_coe.mp hpairs).map Prod.fst
  rw [List.map_map] at hperm
  exact hperm.nodup_iff.mp table.nodupKeys

theorem pairs_insertAll_of_nodup
    {items : List (κ × ν)} {table : AList fun _ : κ => ν}
    (hnodup : (items.map Prod.fst).Nodup)
    (hfresh : ∀ item ∈ items, item.1 ∉ table) :
    pairs (insertAll Prod.fst Prod.snd items table) =
      Multiset.ofList items + pairs table := by
  induction items generalizing table with
  | nil => simp [insertAll]
  | cons head rest ih =>
      rw [List.map_cons, List.nodup_cons] at hnodup
      rw [List.forall_mem_cons] at hfresh
      have hrest : ∀ item ∈ rest, item.1 ∉ table.insert head.1 head.2 := by
        intro item hitem hmem
        rw [AList.mem_insert] at hmem
        rcases hmem with hsame | hold
        · exact hnodup.1 (hsame ▸ List.mem_map_of_mem hitem)
        · exact hfresh.2 item hitem hold
      rw [insertAll, List.foldl_cons, ← insertAll, ih hnodup.2 hrest,
        pairs_insert_of_notMem _ hfresh.1, ← Multiset.cons_coe,
        Multiset.add_cons, Multiset.cons_add]

/-- Filling a table keeps every item exactly when no key occurs twice. -/
theorem pairs_insertAll_iff
    {items : List (κ × ν)} :
    pairs (insertAll Prod.fst Prod.snd items ∅) = Multiset.ofList items ↔
      (items.map Prod.fst).Nodup := by
  constructor
  · exact nodup_of_pairs
  · intro hnodup
    rw [pairs_insertAll_of_nodup hnodup (by simp)]
    exact add_zero _

end TableFolds
