import AlephCvm.TeeTypes
import AlephCvm.Utf8Text

/-!
# Reading hexadecimal text

A text is read as bytes exactly when it is their hexadecimal text up to the
case of its letters.  A text of the right length that is not read is refused
at its first byte that is no digit.
-/

namespace AlephCvm.Tee

/-! ## Digits -/

def symbolOf (byte : UInt8) : Char := Char.ofNat byte.toNat

theorem hexValue_digit_cases : ∀ code : Fin 256,
    ∀ value ∈ hexValue (UInt8.ofNat code.val), value.toNat < 16 ∧
      code.val < 128 ∧
      (symbolOf (UInt8.ofNat code.val)).toLower = hexDigit value := by
  decide +kernel

theorem hexValue_of_digit_cases : ∀ (code : Fin 128) (value : Fin 16),
    (symbolOf (UInt8.ofNat code.val)).toLower =
        hexDigit (UInt8.ofNat value.val) →
      hexValue (UInt8.ofNat code.val) = some (UInt8.ofNat value.val) := by
  decide +kernel

theorem hexValue_eq_some {byte value : UInt8}
    (hvalue : hexValue byte = some value) :
    value.toNat < 16 ∧ byte.toNat < 128 ∧
      (symbolOf byte).toLower = hexDigit value := by
  have hcase := hexValue_digit_cases ⟨byte.toNat, byte.toNat_lt⟩
  simpa [hvalue] using hcase

theorem hexValue_of_toLower {byte value : UInt8}
    (hbyte : byte.toNat < 128) (hvalue : value.toNat < 16)
    (hdigit : (symbolOf byte).toLower = hexDigit value) :
    hexValue byte = some value := by
  have hcase := hexValue_of_digit_cases ⟨byte.toNat, hbyte⟩
    ⟨value.toNat, hvalue⟩ (by simpa using hdigit)
  simpa using hcase

theorem hexPair {high low : UInt8}
    (hhigh : high.toNat < 16) (hlow : low.toNat < 16) :
    (high * 16 + low) / 16 = high ∧ (high * 16 + low) % 16 = low := by
  constructor <;>
    (apply UInt8.toNat_inj.mp
     simp only [UInt8.toNat_div, UInt8.toNat_mod, UInt8.toNat_add,
       UInt8.toNat_mul, UInt8.reduceToNat]
     omega)

theorem hexPair_div_mod (byte : UInt8) :
    byte / 16 * 16 + byte % 16 = byte := by
  apply UInt8.toNat_inj.mp
  have hlt := byte.toNat_lt
  simp only [UInt8.toNat_div, UInt8.toNat_mod, UInt8.toNat_add,
    UInt8.toNat_mul, UInt8.reduceToNat]
  omega

/-! ## Bytes of a text -/

def lowerText (bytes : Bytes) : List Char :=
  bytes.map fun byte => (symbolOf byte).toLower

theorem hexDecodeFrom_eq_ok {source decoded : Bytes} {index : ℕ}
    (heven : source.length % 2 = 0)
    (hok : hexDecodeFrom index source = .ok decoded) :
    (∀ byte ∈ source, byte.toNat < 128) ∧
      lowerText source = (hexEncode decoded).toList := by
  fun_induction hexDecodeFrom index source generalizing decoded with
  | case1 => simp at hok
  | case2 => simp at hok
  | case3 => simp at hok
  | case4 index high low rest highValue lowValue hlow hhigh found hrest ih =>
      simp only [Except.ok.injEq] at hok
      subst hok
      obtain ⟨hhighLt, hhighAscii, hhighDigit⟩ := hexValue_eq_some hhigh
      obtain ⟨hlowLt, hlowAscii, hlowDigit⟩ := hexValue_eq_some hlow
      have hrestEven : rest.length % 2 = 0 := by
        simp only [List.length_cons] at heven
        omega
      obtain ⟨hascii, htext⟩ := ih hrestEven hrest
      have hpair := hexPair hhighLt hlowLt
      constructor
      · simp only [List.forall_mem_cons]
        exact ⟨hhighAscii, hlowAscii, hascii⟩
      · simp only [hexEncode, String.toList_ofList] at htext ⊢
        simp only [lowerText, List.map_cons, List.flatMap_cons] at htext ⊢
        rw [htext, hpair.1, hpair.2, hhighDigit, hlowDigit]
        rfl
  | case5 source index hshape =>
      simp only [Except.ok.injEq] at hok
      subst hok
      cases source with
      | nil => simp [lowerText, hexEncode]
      | cons high rest =>
          cases rest with
          | nil => simp at heven
          | cons low rest => exact absurd rfl (hshape high low rest)

theorem hexDecodeFrom_of_lowerText {source decoded : Bytes} (index : ℕ)
    (hascii : ∀ byte ∈ source, byte.toNat < 128)
    (htext : lowerText source = (hexEncode decoded).toList) :
    source.length % 2 = 0 ∧ hexDecodeFrom index source = .ok decoded := by
  simp only [hexEncode, String.toList_ofList] at htext
  induction decoded generalizing source index with
  | nil =>
      have hempty : source = [] := by
        simpa [lowerText] using htext
      subst hempty
      exact ⟨rfl, rfl⟩
  | cons byte rest ih =>
      cases source with
      | nil => simp [lowerText] at htext
      | cons high others =>
          cases others with
          | nil => simp [lowerText] at htext
          | cons low others =>
              simp only [lowerText, List.map_cons, List.flatMap_cons,
                List.cons_append, List.nil_append,
                List.cons.injEq] at htext
              simp only [List.forall_mem_cons] at hascii
              have hquotient : (byte / 16).toNat < 16 := by
                have hlt := byte.toNat_lt
                simp only [UInt8.toNat_div, UInt8.reduceToNat]
                omega
              have hremainder : (byte % 16).toNat < 16 := by
                simp only [UInt8.toNat_mod, UInt8.reduceToNat]
                omega
              have hhigh := hexValue_of_toLower hascii.1 hquotient htext.1
              have hlow := hexValue_of_toLower hascii.2.1 hremainder
                htext.2.1
              obtain ⟨heven, hdecoded⟩ :=
                ih (index + 2) hascii.2.2 htext.2.2
              constructor
              · simp only [List.length_cons]
                omega
              · simp only [hexDecodeFrom, hhigh, hlow, hdecoded]
                rw [hexPair_div_mod]

/-! ## Texts -/

theorem symbolOf_ofNat {symbol : Char} (hascii : symbol.toNat < 128) :
    symbolOf (UInt8.ofNat symbol.toNat) = symbol := by
  have hsmall : symbol.toNat % 2 ^ 8 = symbol.toNat := by
    apply Nat.mod_eq_of_lt
    omega
  rw [symbolOf, UInt8.toNat_ofNat', hsmall, Char.ofNat_toNat]

theorem lowerText_toUTF8 {text : String} (hascii : Utf8Text.Ascii text) :
    lowerText text.toUTF8.toList = text.toList.map Char.toLower := by
  rw [lowerText, Utf8Text.toList_toUTF8_of_ascii hascii, List.map_map]
  apply List.map_congr_left
  intro symbol hsymbol
  rw [Function.comp_apply, symbolOf_ofNat (hascii symbol hsymbol)]

theorem hexDigit_ascii : ∀ value : Fin 16,
    (hexDigit (UInt8.ofNat value.val)).toNat < 128 := by
  decide +kernel

theorem toNat_hexDigit_lt {value : UInt8} (hvalue : value.toNat < 16) :
    (hexDigit value).toNat < 128 := by
  have hcase := hexDigit_ascii ⟨value.toNat, hvalue⟩
  simpa using hcase

theorem toNat_lt_of_mem_hexEncode {bytes : Bytes} {symbol : Char}
    (hmem : symbol ∈ (hexEncode bytes).toList) : symbol.toNat < 128 := by
  simp only [hexEncode, String.toList_ofList, List.mem_flatMap,
    List.mem_cons, List.not_mem_nil, or_false] at hmem
  obtain ⟨byte, _, hdigit | hdigit⟩ := hmem
  · rw [hdigit]
    apply toNat_hexDigit_lt
    have hlt := byte.toNat_lt
    simp only [UInt8.toNat_div, UInt8.reduceToNat]
    omega
  · rw [hdigit]
    apply toNat_hexDigit_lt
    simp only [UInt8.toNat_mod, UInt8.reduceToNat]
    omega

theorem toNat_lt_of_toLower {symbol : Char}
    (hlower : symbol.toLower.toNat < 128) : symbol.toNat < 128 := by
  by_contra hother
  have hsame : symbol.toLower = symbol := by
    unfold Char.toLower
    split
    · rename_i hcapital
      have hlast : symbol.toNat ≤ 90 := hcapital.2
      omega
    · rfl
  rw [hsame] at hlower
  exact hother hlower

/-- A text is read as bytes exactly when it is their hexadecimal text, in
capitals or not. -/
theorem hexDecode_eq_ok_iff {text : String} {bytes : Bytes} :
    hexDecode text = .ok bytes ↔
      text.toList.map Char.toLower = (hexEncode bytes).toList := by
  constructor
  · intro hok
    simp only [hexDecode] at hok
    by_cases heven : text.toUTF8.toList.length % 2 = 0
    · rw [if_pos heven] at hok
      obtain ⟨hbytes, htext⟩ := hexDecodeFrom_eq_ok heven hok
      rw [← lowerText_toUTF8 (Utf8Text.ascii_of_bytes hbytes), htext]
    · rw [if_neg heven] at hok
      cases hok
  · intro htext
    have hascii : Utf8Text.Ascii text := by
      intro symbol hsymbol
      apply toNat_lt_of_toLower
      have hmem : symbol.toLower ∈ (hexEncode bytes).toList := by
        rw [← htext]
        exact List.mem_map_of_mem hsymbol
      exact toNat_lt_of_mem_hexEncode hmem
    have hbytes : ∀ byte ∈ text.toUTF8.toList, byte.toNat < 128 := by
      intro byte hbyte
      rw [Utf8Text.toList_toUTF8_of_ascii hascii] at hbyte
      obtain ⟨symbol, hsymbol, rfl⟩ := List.mem_map.mp hbyte
      have hlt := hascii symbol hsymbol
      rw [UInt8.toNat_ofNat']
      omega
    rw [← lowerText_toUTF8 hascii] at htext
    obtain ⟨heven, hok⟩ := hexDecodeFrom_of_lowerText 0 hbytes htext
    simp only [hexDecode]
    rw [if_pos heven, hok]

theorem toLower_hexDigit_cases : ∀ value : Fin 16,
    (hexDigit (UInt8.ofNat value.val)).toLower =
      hexDigit (UInt8.ofNat value.val) := by
  decide +kernel

theorem toLower_hexDigit {value : UInt8} (hvalue : value.toNat < 16) :
    (hexDigit value).toLower = hexDigit value := by
  have hcase := toLower_hexDigit_cases ⟨value.toNat, hvalue⟩
  simpa using hcase

@[simp]
theorem hexDecode_hexEncode (bytes : Bytes) :
    hexDecode (hexEncode bytes) = .ok bytes := by
  rw [hexDecode_eq_ok_iff]
  have hsame : ∀ symbol ∈ (hexEncode bytes).toList,
      symbol.toLower = symbol := by
    intro symbol hmem
    simp only [hexEncode, String.toList_ofList, List.mem_flatMap,
      List.mem_cons, List.not_mem_nil, or_false] at hmem
    obtain ⟨byte, _, hdigit | hdigit⟩ := hmem
    · rw [hdigit]
      apply toLower_hexDigit
      have hlt := byte.toNat_lt
      simp only [UInt8.toNat_div, UInt8.reduceToNat]
      omega
    · rw [hdigit]
      apply toLower_hexDigit
      simp only [UInt8.toNat_mod, UInt8.reduceToNat]
      omega
  conv_rhs => rw [← List.map_id (hexEncode bytes).toList]
  exact List.map_congr_left hsame

end AlephCvm.Tee
