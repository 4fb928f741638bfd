import AlephCvm.SplitText
import Mathlib.Data.List.DropRight

/-!
# Values behind a key, as a stream editor finds them

The command `s/.*KEY\(CLASS*\).*/\1/p` prints, for every line in which the key
occurs, the symbols of the class behind it.  The first `.*` is greedy, so that
the key is looked for from the end of the line.  A shell substitutes what was
printed without the line ends at its end.
-/

namespace GreedyMatch

open SplitText

/-- A key that may occur only behind some symbols (`none` is the start of the
line), and the symbols that are captured behind it. -/
structure Pattern (α : Type*) where
  allowedAfter : Option α → Bool
  key : List α
  captures : α → Bool

variable {α : Type*}

/-- The symbol behind which a line goes on. -/
def lastSymbol (previous : Option α) (before : List α) : Option α :=
  before.getLast?.or previous

/-- The key occurs in the line, at the end of `before`. -/
structure Pattern.OccursAt (pattern : Pattern α) (previous : Option α)
    (line before after : List α) : Prop where
  split : line = before ++ (pattern.key ++ after)
  allowed : pattern.allowedAfter (lastSymbol previous before) = true

@[simp] theorem lastSymbol_nil (previous : Option α) :
    lastSymbol previous [] = previous := by
  simp [lastSymbol]

theorem lastSymbol_of_getLast?
    {before : List α} {symbol : α} (hlast : before.getLast? = some symbol)
    (previous : Option α) :
    lastSymbol previous before = some symbol := by
  simp [lastSymbol, hlast]

theorem lastSymbol_cons
    (previous : Option α) (symbol : α) (before : List α) :
    lastSymbol previous (symbol :: before) =
      lastSymbol (some symbol) before := by
  cases before.getLast? <;> simp_all [lastSymbol, List.getLast?_cons]

theorem Pattern.occursAt_cons_iff
    (pattern : Pattern α) (previous : Option α) (symbol : α)
    (rest before after : List α) :
    pattern.OccursAt previous (symbol :: rest) (symbol :: before) after ↔
      pattern.OccursAt (some symbol) rest before after := by
  constructor
  · intro hoccurs
    have hsplit := hoccurs.split
    have hallowed := hoccurs.allowed
    rw [lastSymbol_cons] at hallowed
    exact ⟨by simpa using hsplit, hallowed⟩
  · intro hoccurs
    have hsplit := hoccurs.split
    exact ⟨by simp [hsplit], by rw [lastSymbol_cons]; exact hoccurs.allowed⟩

/-- An occurrence is at the start of the line or further on. -/
theorem Pattern.occursAt_cons_cases
    {pattern : Pattern α} {previous : Option α} {symbol : α}
    {rest before after : List α}
    (hoccurs : pattern.OccursAt previous (symbol :: rest) before after) :
    before = [] ∨ ∃ further, before = symbol :: further ∧
      pattern.OccursAt (some symbol) rest further after := by
  cases before with
  | nil => exact .inl rfl
  | cons first further =>
      have hfirst : symbol = first := by
        have hsplit := hoccurs.split
        simp only [List.cons_append, List.cons.injEq] at hsplit
        exact hsplit.1
      subst hfirst
      exact .inr ⟨further, rfl,
        (pattern.occursAt_cons_iff previous symbol rest further after).1
          hoccurs⟩

theorem Pattern.not_occursAt_nil
    {pattern : Pattern α} {previous : Option α} {before after : List α}
    (hkey : pattern.key ≠ []) :
    ¬ pattern.OccursAt previous [] before after := by
  intro hoccurs
  have hsplit := hoccurs.split
  simp_all

theorem Pattern.occursAt_start_iff
    (pattern : Pattern α) (previous : Option α) (line after : List α) :
    pattern.OccursAt previous line [] after ↔
      line = pattern.key ++ after ∧
        pattern.allowedAfter previous = true := by
  constructor
  · intro hoccurs
    exact ⟨hoccurs.split, by simpa using hoccurs.allowed⟩
  · intro ⟨hsplit, hallowed⟩
    exact ⟨hsplit, by simpa using hallowed⟩

/-- An occurrence behind which the key does not occur again. -/
structure Pattern.LastAt (pattern : Pattern α) (previous : Option α)
    (line before after : List α) : Prop where
  occursAt : pattern.OccursAt previous line before after
  last : ∀ other behind, pattern.OccursAt previous line other behind →
    other.length ≤ before.length

theorem Pattern.LastAt.unique
    {pattern : Pattern α} {previous : Option α}
    {line before after other behind : List α}
    (hlast : pattern.LastAt previous line before after)
    (hother : pattern.LastAt previous line other behind) :
    before = other ∧ after = behind := by
  have hlength : before.length = other.length := by
    have hle := hlast.last other behind hother.occursAt
    have hge := hother.last before after hlast.occursAt
    omega
  have hsplit : before ++ (pattern.key ++ after) =
      other ++ (pattern.key ++ behind) := by
    rw [← hlast.occursAt.split, ← hother.occursAt.split]
  have hparts := List.append_inj hsplit hlength
  exact ⟨hparts.1, List.append_cancel_left hparts.2⟩

section Lines

variable [DecidableEq α]

/-- What the last match captures; `previous` stands in front of the line. -/
def Pattern.lastMatch (pattern : Pattern α) :
    Option α → List α → Option (List α)
  | _, [] => none
  | previous, symbol :: rest =>
      match pattern.lastMatch (some symbol) rest with
      | some captured => some captured
      | none =>
          if pattern.allowedAfter previous &&
              pattern.key.isPrefixOf (symbol :: rest) then
            some (((symbol :: rest).drop pattern.key.length).takeWhile
              pattern.captures)
          else none

theorem Pattern.lastMatch_eq_none_iff
    (pattern : Pattern α) (hkey : pattern.key ≠ [])
    (previous : Option α) (line : List α) :
    pattern.lastMatch previous line = none ↔
      ∀ before after, ¬ pattern.OccursAt previous line before after := by
  induction line generalizing previous with
  | nil =>
      simp only [lastMatch, true_iff]
      intro before after
      exact not_occursAt_nil hkey
  | cons symbol rest ih =>
      constructor
      · intro hnone before after hoccurs
        cases hrest : pattern.lastMatch (some symbol) rest with
        | some captured =>
            simp [lastMatch, hrest] at hnone
        | none =>
            have hlater := (ih (some symbol)).1 hrest
            rcases occursAt_cons_cases hoccurs with hstart | hfurther
            · subst hstart
              obtain ⟨hsplit, hallowed⟩ :=
                (pattern.occursAt_start_iff previous _ after).1 hoccurs
              have hprefix : pattern.key <+: symbol :: rest :=
                ⟨after, hsplit.symm⟩
              simp [lastMatch, hrest, hallowed,
                List.isPrefixOf_iff_prefix.2 hprefix] at hnone
            · obtain ⟨further, -, hoccurs⟩ := hfurther
              exact hlater further after hoccurs
      · intro habsent
        have hrest : pattern.lastMatch (some symbol) rest = none := by
          rw [ih (some symbol)]
          intro before after hoccurs
          exact habsent (symbol :: before) after
            ((pattern.occursAt_cons_iff previous symbol rest before
              after).2 hoccurs)
        simp only [lastMatch, hrest]
        rw [if_neg]
        simp only [Bool.and_eq_true, List.isPrefixOf_iff_prefix, not_and]
        intro hallowed ⟨after, hsplit⟩
        exact habsent [] after
          ((pattern.occursAt_start_iff previous _ after).2
            ⟨hsplit.symm, hallowed⟩)

theorem Pattern.lastAt_of_lastMatch
    {pattern : Pattern α} (hkey : pattern.key ≠ [])
    {previous : Option α} {line captured : List α}
    (hmatch : pattern.lastMatch previous line = some captured) :
    ∃ before after, pattern.LastAt previous line before after ∧
      captured = after.takeWhile pattern.captures := by
  induction line generalizing previous with
  | nil =>
      simp [lastMatch] at hmatch
  | cons symbol rest ih =>
      cases hrest : pattern.lastMatch (some symbol) rest with
      | some found =>
          simp only [lastMatch, hrest, Option.some.injEq] at hmatch
          subst hmatch
          obtain ⟨before, after, hlast, hcaptured⟩ := ih hrest
          have hoccurs :=
            (pattern.occursAt_cons_iff previous symbol rest before after).2
              hlast.occursAt
          refine ⟨symbol :: before, after, ⟨hoccurs, ?_⟩, hcaptured⟩
          intro other behind hother
          rcases occursAt_cons_cases hother with hstart | hfurther
          · simp [hstart]
          · obtain ⟨further, hequal, hother⟩ := hfurther
            have hle := hlast.last further behind hother
            simp only [hequal, List.length_cons]
            omega
      | none =>
          have habsent := (pattern.lastMatch_eq_none_iff hkey _ _).1 hrest
          simp only [lastMatch, hrest] at hmatch
          split at hmatch
          · rename_i hhere
            simp only [Bool.and_eq_true, List.isPrefixOf_iff_prefix]
              at hhere
            obtain ⟨hallowed, after, hsplit⟩ := hhere
            have hoccurs :=
              (pattern.occursAt_start_iff previous (symbol :: rest) after).2
                ⟨hsplit.symm, hallowed⟩
            refine ⟨[], after, ⟨hoccurs, ?_⟩, ?_⟩
            · intro other behind hother
              rcases occursAt_cons_cases hother with hstart | hfurther
              · simp [hstart]
              · obtain ⟨further, -, hother⟩ := hfurther
                exact absurd hother (habsent further behind)
            · rw [← hsplit, List.drop_left] at hmatch
              simpa using hmatch.symm
          · cases hmatch

/-- The match is the last occurrence of the key. -/
theorem Pattern.LastAt.lastMatch_eq
    {pattern : Pattern α} (hkey : pattern.key ≠ [])
    {previous : Option α} {line before after : List α}
    (hlast : pattern.LastAt previous line before after) :
    pattern.lastMatch previous line =
      some (after.takeWhile pattern.captures) := by
  cases hmatch : pattern.lastMatch previous line with
  | none =>
      have habsent := (pattern.lastMatch_eq_none_iff hkey _ _).1 hmatch
      exact absurd hlast.occursAt (habsent before after)
  | some captured =>
      obtain ⟨other, behind, hother, hcaptured⟩ :=
        lastAt_of_lastMatch hkey hmatch
      obtain ⟨-, hafter⟩ := hlast.unique hother
      rw [hcaptured, hafter]

/-- A line without the first symbol of the key has no match. -/
theorem Pattern.lastMatch_eq_none_of_missing
    {pattern : Pattern α} {symbol : α} (hsymbol : symbol ∈ pattern.key)
    {line : List α} (hmissing : symbol ∉ line) (previous : Option α) :
    pattern.lastMatch previous line = none := by
  rw [pattern.lastMatch_eq_none_iff (List.ne_nil_of_mem hsymbol)]
  intro before after hoccurs
  apply hmissing
  rw [hoccurs.split]
  simp [hsymbol]

theorem Pattern.lastMatch_append_of_some
    {pattern : Pattern α} {previous : Option α}
    {front line captured : List α}
    (hmatch : pattern.lastMatch (lastSymbol previous front) line =
      some captured) :
    pattern.lastMatch previous (front ++ line) = some captured := by
  induction front generalizing previous with
  | nil =>
      simpa using hmatch
  | cons symbol front ih =>
      rw [lastSymbol_cons] at hmatch
      simp [lastMatch, ih hmatch]

/-- The key starts nowhere in `front`, whatever comes behind it. -/
def Pattern.missesIn (pattern : Pattern α) : List α → Bool
  | [] => true
  | symbol :: rest =>
      !pattern.key.isPrefixOf (symbol :: rest) &&
        !(symbol :: rest).isPrefixOf pattern.key && pattern.missesIn rest

theorem Pattern.lastMatch_cons_of_not_here
    {pattern : Pattern α} {previous : Option α} {symbol : α} {rest : List α}
    (hhere : pattern.allowedAfter previous = true →
      ¬ pattern.key <+: symbol :: rest) :
    pattern.lastMatch previous (symbol :: rest) =
      pattern.lastMatch (some symbol) rest := by
  cases hrest : pattern.lastMatch (some symbol) rest with
  | some captured =>
      simp [lastMatch, hrest]
  | none =>
      simp only [lastMatch, hrest]
      rw [if_neg]
      simpa [List.isPrefixOf_iff_prefix] using hhere

/-- Only whether the key may start the line matters of what precedes it. -/
theorem Pattern.lastMatch_congr
    {pattern : Pattern α} {first second : Option α}
    (hallowed : pattern.allowedAfter first = pattern.allowedAfter second)
    (line : List α) :
    pattern.lastMatch first line = pattern.lastMatch second line := by
  cases line with
  | nil => rfl
  | cons symbol rest =>
      simp only [lastMatch, hallowed]

theorem Pattern.lastMatch_append_of_misses
    {pattern : Pattern α} {previous : Option α} {front line : List α}
    (hmisses : pattern.missesIn front = true) :
    pattern.lastMatch previous (front ++ line) =
      pattern.lastMatch (lastSymbol previous front) line := by
  induction front generalizing previous with
  | nil =>
      simp
  | cons symbol front ih =>
      simp only [missesIn, Bool.and_eq_true, Bool.not_eq_true',
        ← Bool.not_eq_true, List.isPrefixOf_iff_prefix] at hmisses
      obtain ⟨⟨hkey, hsuffix⟩, hfurther⟩ := hmisses
      rw [List.cons_append, lastMatch_cons_of_not_here, ih hfurther,
        lastSymbol_cons]
      intro _ hstart
      have hfront : symbol :: front <+: symbol :: (front ++ line) :=
        ⟨line, rfl⟩
      rcases List.prefix_or_prefix_of_prefix hstart hfront with hle | hge
      · exact hkey hle
      · exact hsuffix hge

theorem Pattern.lastMatch_append_of_absent
    {pattern : Pattern α} {first : α} {others : List α}
    (hkey : pattern.key = first :: others) {previous : Option α}
    {front line : List α} (habsent : first ∉ front) :
    pattern.lastMatch previous (front ++ line) =
      pattern.lastMatch (lastSymbol previous front) line := by
  induction front generalizing previous with
  | nil =>
      simp
  | cons symbol front ih =>
      simp only [List.mem_cons, not_or] at habsent
      rw [List.cons_append, lastMatch_cons_of_not_here, ih habsent.2,
        lastSymbol_cons]
      intro _ hstart
      rw [hkey, List.cons_prefix_cons] at hstart
      exact habsent.1 hstart.1

/-- A line without the first symbol of the key has no match. -/
theorem Pattern.lastMatch_eq_none_of_absent
    {pattern : Pattern α} {first : α} {others : List α}
    (hkey : pattern.key = first :: others) {line : List α}
    (habsent : first ∉ line) (previous : Option α) :
    pattern.lastMatch previous line = none := by
  rw [← line.append_nil, lastMatch_append_of_absent hkey habsent]
  rfl

/-- The key at the start of a line that has no match further on. -/
theorem Pattern.lastMatch_key
    {pattern : Pattern α} {first : α} {others after : List α}
    (hkey : pattern.key = first :: others) {previous : Option α}
    (hallowed : pattern.allowedAfter previous = true)
    (hfurther : pattern.lastMatch (some first) (others ++ after) = none) :
    pattern.lastMatch previous (pattern.key ++ after) =
      some (after.takeWhile pattern.captures) := by
  have hdrop : (pattern.key ++ after).drop pattern.key.length = after :=
    List.drop_left
  have hstart : pattern.key.isPrefixOf (pattern.key ++ after) = true :=
    List.isPrefixOf_iff_prefix.2 (List.prefix_append _ _)
  rw [hkey, List.cons_append] at hdrop hstart ⊢
  simp only [lastMatch, hfurther, hallowed, Bool.true_and, hkey]
  rw [if_pos hstart, hdrop]

end Lines

/-! ## Texts -/

/-- The lines that `sed -n` prints. -/
def Pattern.print (pattern : Pattern Char) (text : List Char) :
    List (List Char) :=
  (text.splitOn '\n').filterMap (pattern.lastMatch none)

/-- What `$(...)` makes of the printed lines. -/
def substitution (lines : List (List Char)) : List Char :=
  (lines.flatMap (· ++ ['\n'])).rdropWhile (· == '\n')

@[simp] theorem substitution_nil : substitution [] = [] := rfl

theorem substitution_eq_nil_iff
    {lines : List (List Char)} (hlines : ∀ line ∈ lines, '\n' ∉ line) :
    substitution lines = [] ↔ ∀ line ∈ lines, line = [] := by
  simp only [substitution, List.rdropWhile_eq_nil_iff, List.mem_flatMap]
  constructor
  · intro hbreaks line hline
    rw [List.eq_nil_iff_forall_not_mem]
    intro symbol hsymbol
    have hbreak := hbreaks symbol ⟨line, hline, by simp [hsymbol]⟩
    have hequal : symbol = '\n' := by simpa using hbreak
    exact hlines line hline (hequal ▸ hsymbol)
  · intro hblank symbol hsymbol
    obtain ⟨line, hline, hmem⟩ := hsymbol
    rw [hblank line hline] at hmem
    simpa using hmem

theorem Pattern.print_eq_nil_of_missing
    {pattern : Pattern Char} {symbol : Char}
    (hsymbol : symbol ∈ pattern.key) {text : List Char}
    (hmissing : symbol ∉ text) : pattern.print text = [] := by
  simp only [print, List.filterMap_eq_nil_iff]
  intro line hline
  exact lastMatch_eq_none_of_missing hsymbol
    (fun hmem => hmissing (mem_of_mem_splitOn hline hmem)) none

/-- A text that starts with the key and has no other. -/
theorem Pattern.print_key
    {pattern : Pattern Char} {first symbol : Char} {others text : List Char}
    (hkey : pattern.key = first :: others)
    (hallowed : pattern.allowedAfter none = true)
    (hmisses : pattern.missesIn others = true)
    (hbreak : '\n' ∉ pattern.key) (hsymbol : symbol ∈ pattern.key)
    (hmissing : symbol ∉ text) :
    ∃ line lines, text.splitOn '\n' = line :: lines ∧
      pattern.print (pattern.key ++ text) =
        [line.takeWhile pattern.captures] := by
  cases htext : text.splitOn '\n' with
  | nil => exact absurd htext (List.splitOn_ne_nil _ _)
  | cons line lines =>
      have hnone : ∀ other ∈ line :: lines, ∀ previous,
          pattern.lastMatch previous other = none := by
        intro other hother previous
        rw [← htext] at hother
        exact lastMatch_eq_none_of_missing hsymbol
          (fun hmem => hmissing (mem_of_mem_splitOn hother hmem)) previous
      have hfirst : pattern.lastMatch none (pattern.key ++ line) =
          some (line.takeWhile pattern.captures) := by
        apply lastMatch_key hkey hallowed
        rw [lastMatch_append_of_misses hmisses]
        exact hnone line (by simp) _
      have hothers : lines.filterMap (pattern.lastMatch none) = [] := by
        rw [List.filterMap_eq_nil_iff]
        intro other hother
        exact hnone other (by simp [hother]) none
      refine ⟨line, lines, rfl, ?_⟩
      unfold print
      rw [splitOn_append_of_not_mem hbreak, htext]
      simp [hfirst, hothers]

theorem Pattern.not_mem_of_mem_print
    {pattern : Pattern Char} (hkey : pattern.key ≠ [])
    {text captured : List Char} (hcaptured : captured ∈ pattern.print text) :
    '\n' ∉ captured := by
  simp only [print, List.mem_filterMap] at hcaptured
  obtain ⟨line, hline, hmatch⟩ := hcaptured
  obtain ⟨before, after, hlast, hequal⟩ :=
    Pattern.lastAt_of_lastMatch hkey hmatch
  intro hmem
  apply not_mem_of_mem_splitOn hline
  rw [hequal] at hmem
  rw [hlast.occursAt.split]
  have hafter := (List.takeWhile_prefix _).subset hmem
  simp [hafter]

/-- A part of the first line in which no key starts is not looked at. -/
theorem Pattern.print_append_of_misses
    {pattern : Pattern Char} {front : List Char}
    (hmisses : pattern.missesIn front = true) (hfront : '\n' ∉ front)
    (hallowed : pattern.allowedAfter (lastSymbol none front) =
      pattern.allowedAfter none) (text : List Char) :
    pattern.print (front ++ text) = pattern.print text := by
  unfold print
  rw [splitOn_append_of_not_mem hfront]
  cases htext : text.splitOn '\n' with
  | nil => rfl
  | cons line lines =>
      simp only [List.modifyHead_cons, List.filterMap_cons,
        lastMatch_append_of_misses hmisses,
        lastMatch_congr hallowed]

theorem rdropWhile_of_no_break
    {line : List Char} (hline : '\n' ∉ line) :
    line.rdropWhile (· == '\n') = line := by
  rw [List.rdropWhile_eq_self_iff]
  intro hnonempty hlast
  have hequal : line.getLast hnonempty = '\n' := by
    simpa using hlast
  exact hline (hequal ▸ List.getLast_mem hnonempty)

/-- What the pattern finds in a text of one line. -/
theorem Pattern.substitution_print
    (pattern : Pattern Char) (hkey : pattern.key ≠ [])
    {line : List Char} (hline : '\n' ∉ line) :
    substitution (pattern.print line) =
      (pattern.lastMatch none line).getD [] := by
  unfold print
  rw [List.splitOn_eq_singleton hline]
  cases hmatch : pattern.lastMatch none line with
  | none =>
      simp [hmatch]
  | some captured =>
      have hprint : captured ∈ pattern.print line := by
        simp [print, List.splitOn_eq_singleton hline, hmatch]
      have hbreak := not_mem_of_mem_print hkey hprint
      simp [hmatch, substitution, List.rdropWhile_concat_pos,
        rdropWhile_of_no_break hbreak]

/-- The first line is kept with its end unless only line ends follow. -/
theorem substitution_cons (line : List Char) (lines : List (List Char)) :
    substitution (line :: lines) =
      if substitution lines = [] then line.rdropWhile (· == '\n')
      else line ++ '\n' :: substitution lines := by
  simp only [substitution, List.rdropWhile, List.flatMap_cons,
    List.reverse_append, List.dropWhile_append, List.reverse_eq_nil_iff,
    List.isEmpty_iff]
  by_cases hlines :
      (lines.flatMap (· ++ ['\n'])).reverse.dropWhile (· == '\n') = []
  · simp [hlines]
  · simp [hlines]

/-- One line that is not empty comes out as it is when the others are. -/
theorem substitution_eq_iff
    {lines : List (List Char)} (hlines : ∀ line ∈ lines, '\n' ∉ line)
    {value : List Char} (hvalue : value ≠ []) (hbreak : '\n' ∉ value) :
    substitution lines = value ↔
      ∃ others, lines = value :: others ∧ ∀ line ∈ others, line = [] := by
  cases lines with
  | nil =>
      simp [Ne.symm hvalue]
  | cons first others =>
      have hothers : ∀ line ∈ others, '\n' ∉ line := by
        intro line hline
        exact hlines line (by simp [hline])
      have hfirst : first.rdropWhile (· == '\n') = first :=
        rdropWhile_of_no_break (hlines first (by simp))
      rw [substitution_cons]
      by_cases hblank : substitution others = []
      · rw [if_pos hblank, hfirst]
        rw [substitution_eq_nil_iff hothers] at hblank
        constructor
        · intro hequal
          exact ⟨others, by rw [hequal], hblank⟩
        · intro ⟨rest, hequal, _⟩
          simp_all
      · rw [if_neg hblank]
        rw [substitution_eq_nil_iff hothers] at hblank
        constructor
        · intro hequal
          exact absurd (by simp [← hequal]) hbreak
        · intro ⟨rest, hequal, hrest⟩
          simp only [List.cons.injEq] at hequal
          exact absurd (hequal.2 ▸ hrest) hblank

/-- Something is found when some line has a value behind its last key. -/
theorem Pattern.substitution_print_ne_nil_iff
    (pattern : Pattern Char) (hkey : pattern.key ≠ []) (text : List Char) :
    substitution (pattern.print text) ≠ [] ↔
      ∃ line ∈ text.splitOn '\n', ∃ before symbol after,
        pattern.LastAt none line before (symbol :: after) ∧
          pattern.captures symbol = true := by
  rw [Ne, substitution_eq_nil_iff
    (fun line hline => not_mem_of_mem_print hkey hline)]
  constructor
  · intro hfound
    simp only [not_forall] at hfound
    obtain ⟨captured, hcaptured, hnonempty⟩ := hfound
    simp only [print, List.mem_filterMap] at hcaptured
    obtain ⟨line, hline, hmatch⟩ := hcaptured
    obtain ⟨before, after, hlast, hequal⟩ :=
      lastAt_of_lastMatch hkey hmatch
    cases after with
    | nil =>
        simp [hequal] at hnonempty
    | cons symbol after =>
        refine ⟨line, hline, before, symbol, after, hlast, ?_⟩
        by_contra hsymbol
        simp [hequal, hsymbol] at hnonempty
  · intro ⟨line, hline, before, symbol, after, hlast, hsymbol⟩ hblank
    have hmatch := hlast.lastMatch_eq hkey
    have hempty := hblank _
      (List.mem_filterMap.2 ⟨line, hline, hmatch⟩)
    simp [hsymbol] at hempty

/-- The value comes from the first line with the key, and nothing is found
on later lines. -/
theorem Pattern.substitution_print_eq_iff
    (pattern : Pattern Char) (hkey : pattern.key ≠ []) (text : List Char)
    {value : List Char} (hvalue : value ≠ []) (hbreak : '\n' ∉ value) :
    substitution (pattern.print text) = value ↔
      ∃ earlier line later before after,
        text.splitOn '\n' = earlier ++ line :: later ∧
        (∀ other ∈ earlier, ∀ front behind,
          ¬ pattern.OccursAt none other front behind) ∧
        pattern.LastAt none line before after ∧
        after.takeWhile pattern.captures = value ∧
        ∀ other ∈ later, ∀ front behind,
          pattern.LastAt none other front behind →
            behind.takeWhile pattern.captures = [] := by
  rw [substitution_eq_iff
    (fun line hline => not_mem_of_mem_print hkey hline) hvalue hbreak]
  unfold print
  constructor
  · intro ⟨others, hprint, hblank⟩
    obtain ⟨earlier, line, later, hsplit, hnone, hmatch, hrest⟩ :=
      List.filterMap_eq_cons_iff.1 hprint
    obtain ⟨before, after, hlast, hequal⟩ :=
      lastAt_of_lastMatch hkey hmatch
    refine ⟨earlier, line, later, before, after, hsplit, ?_, hlast,
      hequal.symm, ?_⟩
    · intro other hother
      exact (pattern.lastMatch_eq_none_iff hkey none other).1
        (hnone other hother)
    · intro other hother front behind hbehind
      apply hblank
      rw [← hrest]
      exact List.mem_filterMap.2
        ⟨other, hother, hbehind.lastMatch_eq hkey⟩
  · intro ⟨earlier, line, later, before, after, hsplit, hnone, hlast,
      hequal, hblank⟩
    refine ⟨later.filterMap (pattern.lastMatch none), ?_, ?_⟩
    · rw [List.filterMap_eq_cons_iff]
      refine ⟨earlier, line, later, hsplit, ?_, ?_, rfl⟩
      · intro other hother
        exact (pattern.lastMatch_eq_none_iff hkey none other).2
          (hnone other hother)
      · rw [hlast.lastMatch_eq hkey, hequal]
    · intro captured hcaptured
      obtain ⟨other, hother, hmatch⟩ := List.mem_filterMap.1 hcaptured
      obtain ⟨front, behind, hbehind, hvalues⟩ :=
        lastAt_of_lastMatch hkey hmatch
      rw [hvalues]
      exact hblank other hother front behind hbehind

end GreedyMatch
