import AlephCvm.QemuCommand

/-!
# Trimmed texts, lines and words

What `trim`, `lines` and `split_whitespace` make of a text whose blanks are
known.
-/

namespace AlephCvm.Qemu

open SplitText

/-! ## Trimming -/

theorem dropWhile_of_no_whitespace
    {symbols : List Char}
    (hsymbols : ∀ symbol ∈ symbols, isWhiteSpace symbol = false) :
    symbols.dropWhile isWhiteSpace = symbols := by
  cases symbols with
  | nil => rfl
  | cons symbol rest =>
      exact List.dropWhile_cons_of_neg (by simp [hsymbols])

theorem trimText_of_no_whitespace
    {text : String}
    (htext : ∀ symbol ∈ text.toList, isWhiteSpace symbol = false) :
    trimText text = text := by
  have hback : ∀ symbol ∈ text.toList.reverse,
      isWhiteSpace symbol = false := by
    simpa using htext
  rw [trimText, dropWhile_of_no_whitespace htext,
    dropWhile_of_no_whitespace hback, List.reverse_reverse,
    String.ofList_toList]

/-- The line break behind a word is trimmed away. -/
theorem trimText_append_newline
    {text : String}
    (htext : ∀ symbol ∈ text.toList, isWhiteSpace symbol = false) :
    trimText (text ++ "\n") = text := by
  have hback : ∀ symbol ∈ text.toList.reverse,
      isWhiteSpace symbol = false := by
    simpa using htext
  have hlist : (text ++ "\n").toList = text.toList ++ ['\n'] :=
    String.toList_append
  rw [trimText, hlist]
  cases hsymbols : text.toList with
  | nil =>
      rw [String.toList_eq_nil_iff.mp hsymbols]
      rfl
  | cons symbol rest =>
      have hfirst : isWhiteSpace symbol = false := by
        apply htext
        rw [hsymbols]
        exact List.mem_cons_self
      rw [hsymbols] at hback
      rw [List.cons_append, List.dropWhile_cons_of_neg (by simp [hfirst]),
        ← List.cons_append, List.reverse_append, List.reverse_singleton,
        List.singleton_append, List.dropWhile_cons_of_pos (by decide),
        dropWhile_of_no_whitespace hback, List.reverse_reverse, ← hsymbols,
        String.ofList_toList]

/-! ## Lines and words -/

theorem textLines_append
    {line : String} (hline : '\n' ∉ line.toList) (rest : String) :
    textLines (line ++ "\n" ++ rest) = line :: textLines rest := by
  have hlist : (line ++ "\n" ++ rest).toList =
      line.toList ++ '\n' :: rest.toList := by
    simp
  rw [textLines, hlist, List.splitOn_append_cons_self_of_not_mem hline,
    List.map_cons, String.ofList_toList, textLines]

/-- A word behind a blank is the last word. -/
theorem splitWhitespace_append_word
    (front : String) {word : String} (hnonempty : word ≠ "")
    (hword : ∀ symbol ∈ word.toList, isWhiteSpace symbol = false) :
    splitWhitespace (front ++ " " ++ word) =
      splitWhitespace front ++ [word] := by
  have hlist : (front ++ " " ++ word).toList =
      front.toList ++ ' ' :: word.toList := by
    simp
  have hkept : (!word.toList.isEmpty) = true := by
    simpa using hnonempty
  rw [splitWhitespace, hlist,
    List.splitOnP_append_cons _ _ (by decide : isWhiteSpace ' ' = true),
    List.splitOnP_eq_singleton hword, List.filter_append, List.map_append,
    splitWhitespace, List.filter_singleton, hkept]
  simp

end AlephCvm.Qemu
