import Mathlib.Data.String.Basic

/-!
# UTF-8 bytes of a text

The bytes of a text are those of its characters one after the other.  An
ASCII character is the one byte with its number, and every other character
begins with a byte from 128 on; a text is therefore ASCII exactly when its
bytes are below 128.  Bytes that need not be a text are read as characters
with gaps, one for each byte that belongs to none.
-/

namespace Utf8Text

theorem toList_loop (bytes : ByteArray) (index : ℕ) (front : List UInt8) :
    ByteArray.toList.loop bytes index front =
      front.reverse ++ bytes.data.toList.drop index := by
  fun_induction ByteArray.toList.loop bytes index front with
  | case1 index front hindex ih =>
      have hdrop : bytes.data.toList.drop index =
          bytes.get! index :: bytes.data.toList.drop (index + 1) := by
        have hlt : index < bytes.data.toList.length := by
          simpa using hindex
        have hget : bytes.get! index = bytes.data.toList[index] := by
          simp [ByteArray.get!, getElem!_pos bytes.data index hindex]
        rw [hget, List.drop_eq_getElem_cons hlt]
      rw [ih, hdrop]
      simp
  | case2 index front hindex =>
      have hend : bytes.data.toList.drop index = [] := by
        apply List.drop_eq_nil_of_le
        simpa using hindex
      rw [hend, List.append_nil]

/-- The bytes are those of the characters. -/
theorem toList_toUTF8 (text : String) :
    text.toUTF8.toList = text.toList.flatMap String.utf8EncodeChar := by
  have hbytes : text.toUTF8 = text.toList.utf8Encode :=
    String.utf8Encode_toList.symm
  rw [hbytes, ByteArray.toList, toList_loop]
  simp [List.utf8Encode]

theorem utf8EncodeChar_of_lt {symbol : Char} (hascii : symbol.toNat < 128) :
    String.utf8EncodeChar symbol = [UInt8.ofNat symbol.toNat] := by
  have hval : symbol.val.toNat ≤ 127 := by
    have hsame : symbol.toNat = symbol.val.toNat := rfl
    omega
  simp only [String.utf8EncodeChar, if_pos hval]
  rfl

/-- The first byte of another character is not an ASCII one. -/
theorem exists_utf8EncodeChar {symbol : Char} (hother : 128 ≤ symbol.toNat) :
    ∃ byte ∈ String.utf8EncodeChar symbol, 128 ≤ byte.toNat := by
  have hval : ¬ symbol.val.toNat ≤ 127 := by
    have hsame : symbol.toNat = symbol.val.toNat := rfl
    omega
  simp only [String.utf8EncodeChar, if_neg hval]
  split_ifs
  · refine ⟨_, List.mem_cons_self, ?_⟩
    rw [UInt8.toNat_ofNat']
    omega
  · refine ⟨_, List.mem_cons_self, ?_⟩
    rw [UInt8.toNat_ofNat']
    omega
  · refine ⟨_, List.mem_cons_self, ?_⟩
    rw [UInt8.toNat_ofNat']
    omega

def Ascii (text : String) : Prop := ∀ symbol ∈ text.toList, symbol.toNat < 128

theorem toList_toUTF8_of_ascii {text : String} (hascii : Ascii text) :
    text.toUTF8.toList =
      text.toList.map fun symbol => UInt8.ofNat symbol.toNat := by
  unfold Ascii at hascii
  rw [toList_toUTF8]
  generalize text.toList = symbols at hascii
  induction symbols with
  | nil => rfl
  | cons symbol rest ih =>
      have hsymbol := hascii symbol List.mem_cons_self
      have hrest : ∀ other ∈ rest, other.toNat < 128 := by
        intro other hother
        exact hascii other (List.mem_cons_of_mem symbol hother)
      rw [List.flatMap_cons, utf8EncodeChar_of_lt hsymbol, ih hrest]
      rfl

theorem ascii_of_bytes {text : String}
    (hbytes : ∀ byte ∈ text.toUTF8.toList, byte.toNat < 128) :
    Ascii text := by
  intro symbol hsymbol
  by_contra hother
  obtain ⟨byte, hbyte, hlarge⟩ :=
    exists_utf8EncodeChar (Nat.le_of_not_lt hother)
  have hmem : byte ∈ text.toUTF8.toList := by
    rw [toList_toUTF8]
    exact List.mem_flatMap.mpr ⟨symbol, hsymbol, hbyte⟩
  have hsmall := hbytes byte hmem
  omega

/-- The text with the given bytes, if there is one. -/
def textOf (bytes : List UInt8) : Option String :=
  String.fromUTF8? ⟨bytes.toArray⟩

@[simp]
theorem textOf_toUTF8 (text : String) :
    textOf text.toUTF8.toList = some text := by
  have hbytes : (⟨text.toUTF8.toList.toArray⟩ : ByteArray) =
      text.toUTF8 := by
    rw [ByteArray.toList, toList_loop]
    simp
  have hvalid : text.toUTF8.IsValidUTF8 := text.isValidUTF8
  rw [textOf, hbytes, String.fromUTF8?, dif_pos hvalid]
  rfl

/-! ## Bytes that need not be a text -/

/-- A character, or nothing for a byte that belongs to none. -/
abbrev Symbol := Option Char

/-- The first number says how many bytes still belong to the character
before. -/
def symbolsFrom : ℕ → List UInt8 → List Symbol
  | _, [] => []
  | skip + 1, _ :: rest => symbolsFrom skip rest
  | 0, byte :: rest =>
      match (⟨((byte :: rest).take 4).toArray⟩ :
          ByteArray).utf8DecodeChar? 0 with
      | some symbol => some symbol :: symbolsFrom (symbol.utf8Size - 1) rest
      | none => none :: symbolsFrom 0 rest

def symbolsOf (bytes : List UInt8) : List Symbol := symbolsFrom 0 bytes

theorem symbolsFrom_append (front rest : List UInt8) :
    symbolsFrom front.length (front ++ rest) = symbolsFrom 0 rest := by
  induction front with
  | nil => rfl
  | cons byte front ih => exact ih

theorem utf8DecodeChar_take (symbol : Char) (rest : List UInt8) :
    (⟨((String.utf8EncodeChar symbol ++ rest).take 4).toArray⟩ :
      ByteArray).utf8DecodeChar? 0 = some symbol := by
  have hlength : (String.utf8EncodeChar symbol).length ≤ 4 := by
    rw [String.length_utf8EncodeChar]
    exact symbol.utf8Size_le_four
  have hbytes : ∀ back : List UInt8,
      (⟨(String.utf8EncodeChar symbol ++ back).toArray⟩ : ByteArray) =
        [symbol].utf8Encode ++ ⟨back.toArray⟩ := by
    intro back
    apply ByteArray.ext
    simp [List.utf8Encode]
  rw [List.take_append, List.take_of_length_le hlength, hbytes]
  exact List.utf8DecodeChar?_utf8Encode_singleton_append

theorem symbolsOf_flatMap (symbols : List Char) :
    symbolsOf (symbols.flatMap String.utf8EncodeChar) =
      symbols.map some := by
  induction symbols with
  | nil => rfl
  | cons symbol rest ih =>
      have hdecode := utf8DecodeChar_take symbol
        (rest.flatMap String.utf8EncodeChar)
      have hlength : (String.utf8EncodeChar symbol).length =
          symbol.utf8Size := String.length_utf8EncodeChar symbol
      rw [List.flatMap_cons, List.map_cons, ← ih]
      cases hbytes : String.utf8EncodeChar symbol with
      | nil =>
          have hpositive := symbol.utf8Size_pos
          rw [hbytes, List.length_nil] at hlength
          omega
      | cons byte others =>
          have hskip : others.length = symbol.utf8Size - 1 := by
            rw [hbytes, List.length_cons] at hlength
            omega
          rw [hbytes, List.cons_append] at hdecode
          rw [symbolsOf, List.cons_append, symbolsFrom, hdecode]
          simp only [← hskip, symbolsFrom_append]
          rfl

/-- The bytes of a text have no gaps. -/
@[simp]
theorem symbolsOf_toUTF8 (text : String) :
    symbolsOf text.toUTF8.toList = text.toList.map some := by
  rw [toList_toUTF8, symbolsOf_flatMap]

end Utf8Text
