import Mathlib.Data.List.Basic

/-!
# The parts of a split text

What the parts between separators contain, how a text without separators in
front of another one is split, and the words of texts that were joined with a
separator.
-/

namespace SplitText

variable {α : Type*}

/-- No symbol of a part separates. -/
theorem not_separator_of_mem_splitOnP
    {separates : α → Bool} {text part : List α}
    (hpart : part ∈ text.splitOnP separates) :
    ∀ symbol ∈ part, separates symbol = false := by
  induction text generalizing part with
  | nil =>
      simp_all
  | cons first rest ih =>
      rw [List.splitOnP_cons_eq_if_modifyHead] at hpart
      split at hpart
      · rcases List.mem_cons.1 hpart with hempty | hlater
        · simp [hempty]
        · exact ih hlater
      · rename_i hfirst
        cases hrest : rest.splitOnP separates with
        | nil =>
            simp [hrest] at hpart
        | cons head others =>
            have hhead := ih (show head ∈ rest.splitOnP separates by
              simp [hrest])
            simp only [hrest, List.modifyHead_cons, List.mem_cons] at hpart
            rcases hpart with hequal | hlater
            · subst hequal
              simpa using ⟨by simpa using hfirst, hhead⟩
            · exact ih (by simp [hrest, hlater])

/-! ## White space -/

/-- The characters that have the property `White_Space` of Unicode. -/
def isWhiteSpace (symbol : Char) : Bool :=
  decide (9 ≤ symbol.toNat ∧ symbol.toNat ≤ 13) ||
    decide (0x2000 ≤ symbol.toNat ∧ symbol.toNat ≤ 0x200A) ||
    [0x20, 0x85, 0xA0, 0x1680, 0x2028, 0x2029, 0x202F, 0x205F,
      0x3000].contains symbol.toNat

/-- The visible characters of ASCII are no white space. -/
theorem isWhiteSpace_of_visible {symbol : Char}
    (hlow : 0x20 < symbol.toNat) (hhigh : symbol.toNat < 0x80) :
    isWhiteSpace symbol = false := by
  simp only [isWhiteSpace, Bool.or_eq_false_iff, decide_eq_false_iff_not,
    List.contains_eq_mem, List.mem_cons, List.not_mem_nil, or_false]
  omega

/-! ## Words -/

/-- The parts that are not empty. -/
def words (separates : α → Bool) (text : List α) : List (List α) :=
  (text.splitOnP separates).filter fun word => !word.isEmpty

theorem separates_eq_false_of_mem_words
    {separates : α → Bool} {text word : List α}
    (hword : word ∈ words separates text) :
    ∀ symbol ∈ word, separates symbol = false :=
  not_separator_of_mem_splitOnP (List.mem_of_mem_filter hword)

theorem words_of_no_separator
    {separates : α → Bool} {text : List α} (hnonempty : text ≠ [])
    (htext : ∀ symbol ∈ text, separates symbol = false) :
    words separates text = [text] := by
  rw [words, List.splitOnP_eq_singleton htext]
  simp [hnonempty]

/-- A separator ends the words in front of it. -/
theorem words_append_separator
    {separates : α → Bool} {separator : α}
    (hseparates : separates separator = true) (front back : List α) :
    words separates (front ++ separator :: back) =
      words separates front ++ words separates back := by
  rw [words, List.splitOnP_append_cons _ _ hseparates, List.filter_append]
  rfl

/-- Joining with a separator keeps the words of each text. -/
theorem words_intercalate
    {separates : α → Bool} {separator : α}
    (hseparates : separates separator = true) (texts : List (List α)) :
    words separates ([separator].intercalate texts) =
      texts.flatMap (words separates) := by
  induction texts with
  | nil => rfl
  | cons text rest ih =>
      cases rest with
      | nil => simp
      | cons next others =>
          rw [List.intercalate_cons_cons, List.append_assoc,
            List.singleton_append, words_append_separator hseparates, ih]
          rfl

/-- A symbol of a joined text separates or belongs to a part. -/
theorem mem_intercalate
    {separator symbol : α} {list : List (List α)}
    (hsymbol : symbol ∈ [separator].intercalate list) :
    symbol = separator ∨ ∃ part ∈ list, symbol ∈ part := by
  induction list with
  | nil => simp at hsymbol
  | cons part rest ih =>
      cases rest with
      | nil =>
          rw [List.intercalate_singleton] at hsymbol
          exact .inr ⟨part, List.mem_cons_self, hsymbol⟩
      | cons next others =>
          rw [List.intercalate_cons_cons] at hsymbol
          simp only [List.mem_append, List.mem_singleton] at hsymbol
          rcases hsymbol with (hpart | hseparator) | hrest
          · exact .inr ⟨part, List.mem_cons_self, hpart⟩
          · exact .inl hseparator
          · rcases ih hrest with hseparator | ⟨other, hother, hmem⟩
            · exact .inl hseparator
            · exact .inr ⟨other, List.mem_cons_of_mem part hother, hmem⟩

/-- The last separator divides a text in one way. -/
theorem append_separator_inj
    {separator : α} {front other back rest : List α}
    (hback : separator ∉ back) (hrest : separator ∉ rest) :
    front ++ separator :: back = other ++ separator :: rest ↔
      front = other ∧ back = rest := by
  constructor
  · intro hsame
    induction front generalizing other with
    | nil =>
        cases other with
        | nil =>
            simpa using hsame
        | cons first others =>
            simp only [List.nil_append, List.cons_append,
              List.cons.injEq] at hsame
            simp [hsame.2] at hback
    | cons first fronts ih =>
        cases other with
        | nil =>
            simp only [List.nil_append, List.cons_append,
              List.cons.injEq] at hsame
            simp [← hsame.2] at hrest
        | cons second others =>
            simp only [List.cons_append, List.cons.injEq] at hsame
            have hparts := ih hsame.2
            simp [hsame.1, hparts]
  · intro hparts
    rw [hparts.1, hparts.2]

section Separator

variable [DecidableEq α]

theorem not_mem_of_mem_splitOn
    {separator : α} {text part : List α}
    (hpart : part ∈ text.splitOn separator) : separator ∉ part := by
  intro hmem
  have hnot := not_separator_of_mem_splitOnP hpart separator hmem
  simp at hnot

theorem mem_of_mem_splitOn
    {separator symbol : α} {text part : List α}
    (hpart : part ∈ text.splitOn separator) (hsymbol : symbol ∈ part) :
    symbol ∈ text := by
  induction text generalizing part with
  | nil =>
      simp_all
  | cons first rest ih =>
      rw [List.splitOn_cons_eq_if_modifyHead] at hpart
      split at hpart
      · rcases List.mem_cons.1 hpart with hempty | hlater
        · simp [hempty] at hsymbol
        · exact List.mem_cons_of_mem first (ih hlater hsymbol)
      · cases hrest : rest.splitOn separator with
        | nil =>
            simp [hrest] at hpart
        | cons head others =>
            have hhead : head ∈ rest.splitOn separator := by
              simp [hrest]
            simp only [hrest, List.modifyHead_cons, List.mem_cons] at hpart
            rcases hpart with hfirst | hlater
            · subst hfirst
              rcases List.mem_cons.1 hsymbol with hequal | hmem
              · simp [hequal]
              · exact List.mem_cons_of_mem first (ih hhead hmem)
            · have hother : part ∈ rest.splitOn separator := by
                simp [hrest, hlater]
              exact List.mem_cons_of_mem first (ih hother hsymbol)

theorem splitOn_append_of_not_mem
    {separator : α} {front : List α}
    (hfront : separator ∉ front) (text : List α) :
    (front ++ text).splitOn separator =
      (text.splitOn separator).modifyHead (front ++ ·) := by
  induction front with
  | nil =>
      cases htext : text.splitOn separator <;> simp [htext]
  | cons symbol front ih =>
      simp only [List.mem_cons, not_or] at hfront
      rw [List.cons_append, List.splitOn_cons_eq_if_modifyHead,
        if_neg (by simpa using Ne.symm hfront.1), ih hfront.2]
      cases text.splitOn separator <;> simp

end Separator

end SplitText
