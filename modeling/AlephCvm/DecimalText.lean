import AlephCvm.SplitText

/-!
# Decimal text

Unsigned numbers below a limit as they are read from decimal digits, one
digit at a time with a check for overflow, and the round trip with the digits
that are written for a number.
-/

namespace DecimalText

inductive ParseError where
  | empty
  | invalidDigit
  | overflow
  deriving DecidableEq, Repr

def ParseError.describe : ParseError → String
  | .empty => "cannot parse integer from empty string"
  | .invalidDigit => "invalid digit found in string"
  | .overflow => "number too large to fit in target type"

def digitValue (digit : Char) : ℕ := digit.toNat - '0'.toNat

def parseDigits (limit : ℕ) : ℕ → List Char → Except ParseError ℕ
  | acc, [] => .ok acc
  | acc, digit :: rest =>
      if digit.isDigit then
        if 10 * acc + digitValue digit < limit then
          parseDigits limit (10 * acc + digitValue digit) rest
        else .error .overflow
      else .error .invalidDigit

/-- One plus sign may stand in front of the digits. -/
def parse (limit : ℕ) : List Char → Except ParseError ℕ
  | [] => .error .empty
  | ['+'] => .error .invalidDigit
  | '+' :: rest => parseDigits limit 0 rest
  | text => parseDigits limit 0 text

theorem le_ofDigitChars (digits : List Char) (acc : ℕ) :
    acc ≤ Nat.ofDigitChars 10 digits acc := by
  induction digits generalizing acc with
  | nil => simp
  | cons digit rest ih =>
      rw [Nat.ofDigitChars_cons]
      have hrest := ih (10 * acc + (digit.toNat - '0'.toNat))
      omega

/-- No intermediate value exceeds the last one. -/
theorem parseDigits_eq_ok {limit acc : ℕ} {digits : List Char}
    (hdigits : ∀ digit ∈ digits, digit.isDigit = true)
    (hlimit : Nat.ofDigitChars 10 digits acc < limit) :
    parseDigits limit acc digits = .ok (Nat.ofDigitChars 10 digits acc) := by
  induction digits generalizing acc with
  | nil => simp [parseDigits]
  | cons digit rest ih =>
      rw [Nat.ofDigitChars_cons] at hlimit ⊢
      have hstep : 10 * acc + digitValue digit < limit :=
        Nat.lt_of_le_of_lt (le_ofDigitChars rest _) hlimit
      have hrest : ∀ other ∈ rest, other.isDigit = true := by
        intro other hother
        exact hdigits other (List.mem_cons_of_mem digit hother)
      rw [parseDigits, if_pos (hdigits digit List.mem_cons_self),
        if_pos hstep]
      exact ih hrest hlimit

theorem parse_of_digits {limit : ℕ} {digits : List Char}
    (hnonempty : digits ≠ [])
    (hdigits : ∀ digit ∈ digits, digit.isDigit = true) :
    parse limit digits = parseDigits limit 0 digits := by
  have hplus : '+' ∉ digits := by
    intro hmem
    have hdigit := hdigits '+' hmem
    simp at hdigit
  unfold parse
  split
  · exact absurd rfl hnonempty
  · simp at hplus
  · simp at hplus
  · rfl

/-! ## Numbers that were written -/

theorem toList_toString (number : ℕ) :
    (toString number).toList = Nat.toDigits 10 number :=
  Nat.toList_repr

theorem toString_ne_empty (number : ℕ) : toString number ≠ "" := by
  intro hempty
  have hdigits := congrArg String.toList hempty
  rw [toList_toString] at hdigits
  exact Nat.toDigits_ne_nil hdigits

theorem isDigit_of_mem_toString {number : ℕ} {digit : Char}
    (hmem : digit ∈ (toString number).toList) : digit.isDigit = true := by
  rw [toList_toString] at hmem
  exact Nat.isDigit_of_mem_toDigits (by decide) (by decide) hmem

/-- What is written for a number below the limit is read back. -/
theorem parse_toString {limit number : ℕ} (hlimit : number < limit) :
    parse limit (toString number).toList = .ok number := by
  have hdigits : ∀ digit ∈ (toString number).toList, digit.isDigit = true :=
    fun _ hmem => isDigit_of_mem_toString hmem
  have hnonempty : (toString number).toList ≠ [] := by
    rw [toList_toString]
    exact Nat.toDigits_ne_nil
  have hvalue : Nat.ofDigitChars 10 (toString number).toList 0 = number := by
    rw [toList_toString]
    exact Nat.ofDigitChars_ten_toDigits
  rw [parse_of_digits hnonempty hdigits, parseDigits_eq_ok hdigits, hvalue]
  rw [hvalue]
  exact hlimit

theorem not_mem_toString {symbol : Char} (hsymbol : symbol.isDigit = false)
    (number : ℕ) : symbol ∉ (toString number).toList := by
  intro hmem
  rw [isDigit_of_mem_toString hmem] at hsymbol
  cases hsymbol

theorem toString_no_whitespace (number : ℕ) :
    ∀ symbol ∈ (toString number).toList,
      SplitText.isWhiteSpace symbol = false := by
  intro symbol hmem
  obtain ⟨hlow, hhigh⟩ := Char.isDigit_iff_toNat.mp
    (isDigit_of_mem_toString hmem)
  apply SplitText.isWhiteSpace_of_visible
  · exact Nat.lt_of_lt_of_le (by decide) hlow
  · exact Nat.lt_of_le_of_lt hhigh (by decide)

theorem head?_toDigits {number : ℕ} (hpositive : 0 < number) :
    (Nat.toDigits 10 number).head? ≠ some '0' := by
  induction number using Nat.strongRecOn with
  | ind number ih =>
      by_cases hsmall : number < 10
      · rw [Nat.toDigits_of_lt_base hsmall]
        intro hzero
        have hdigit := Nat.toNat_digitChar_sub_48_of_lt_ten hsmall
        have hchar : number.digitChar = '0' := by
          simpa using hzero
        rw [hchar] at hdigit
        simp at hdigit
        omega
      · have hbase : 10 ≤ number := by omega
        rw [Nat.toDigits_of_base_le (by decide) hbase,
          List.head?_append_of_ne_nil _ Nat.toDigits_ne_nil]
        exact ih (number / 10) (by omega) (by omega)

/-- Only zero is written with a zero in front. -/
theorem head?_toString {number : ℕ}
    (hlong : 1 < (toString number).toList.length) :
    (toString number).toList.head? ≠ some '0' := by
  rw [toList_toString] at hlong ⊢
  apply head?_toDigits
  by_contra hzero
  have hnumber : number = 0 := by omega
  rw [hnumber] at hlong
  simp at hlong

end DecimalText
