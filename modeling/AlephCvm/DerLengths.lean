import AlephCvm.BigEndian
import AlephCvm.KdsCertificates

/-!
# The lengths of DER objects

What the first bytes of a DER object say about its length, against what
`der_object_length` computes in a word of 64 bits.  The two agree as long as
the whole object has fewer than `2 ^ 64` bytes.  A pair of such objects is
cut where the second one begins.
-/

namespace AlephCvm.Tee

open ResultContext

/-- The bytes that encode the length behind the first one, and the number of
bytes of the contents. -/
structure DerHeader where
  lengthBytes : Bytes
  contentLength : ℕ

/-- The definite length at the start of an object, in short or long form. -/
def derHeader : Bytes → Option DerHeader
  | _ :: first :: rest =>
      if first.toNat < 128 then some ⟨[], first.toNat⟩
      else
        let count := first.toNat - 128
        if count = 0 ∨ rest.length < count then none
        else some ⟨rest.take count, BigEndian.value (rest.take count)⟩
  | _ => none

def DerHeader.total (header : DerHeader) : ℕ :=
  1 + 1 + header.lengthBytes.length + header.contentLength

/-! ## The computed length -/

theorem highBit_eq_zero_iff (byte : UInt8) :
    byte &&& 128 = 0 ↔ byte.toNat < 128 := by
  have hall : ∀ value : Fin 256,
      UInt8.ofNat value.val &&& 128 = 0 ↔ value.val < 128 := by
    decide +kernel
  have hbyte := hall ⟨byte.toNat, byte.toNat_lt⟩
  rwa [UInt8.ofNat_toNat] at hbyte

theorem lowBits_toNat (byte : UInt8) :
    (byte &&& 127).toNat = byte.toNat % 128 := by
  rw [UInt8.toNat_and]
  exact Nat.and_two_pow_sub_one_eq_mod _ 7

theorem derLongLength_toNat (lengthBytes : Bytes) :
    (derLongLength lengthBytes).toNat =
      BigEndian.value lengthBytes % 2 ^ 64 :=
  BigEndian.foldl_shiftIn_toNat lengthBytes

theorem ok_eq_ok_iff_toNat {computed length : UInt64} {total : ℕ}
    (hcomputed : computed.toNat = total % 2 ^ 64) :
    (Except.ok computed : Except String UInt64) = .ok length ↔
      length.toNat = total % 2 ^ 64 := by
  rw [Except.ok.injEq, ← UInt64.toNat_inj, hcomputed]
  exact eq_comm

/-- The length is that of the header, as far as it fits in a word. -/
theorem derObjectLength_eq_ok_iff (data : Bytes) (length : UInt64) :
    derObjectLength data = .ok length ↔
      ∃ header, derHeader data = some header ∧
        length.toNat = header.total % 2 ^ 64 := by
  rcases data with _ | ⟨tag, _ | ⟨first, rest⟩⟩
  · simp [derObjectLength, derHeader]
  · simp [derObjectLength, derHeader]
  have hfirst := first.toNat_lt
  by_cases hshort : first.toNat < 128
  · have hsum : (2 + first.toUInt64).toNat =
        (DerHeader.mk [] first.toNat).total % 2 ^ 64 := by
      simp [DerHeader.total]
    simp only [derObjectLength, derHeader, highBit_eq_zero_iff, if_pos hshort,
      Option.some.injEq, exists_eq_left']
    exact ok_eq_ok_iff_toNat hsum
  have hcount : (first &&& 127).toNat = first.toNat - 128 := by
    rw [lowBits_toNat]
    omega
  simp only [derObjectLength, derHeader, highBit_eq_zero_iff, if_neg hshort,
    hcount, List.length_cons]
  by_cases hnone : first.toNat - 128 = 0
  · simp [hnone]
  by_cases hcut : rest.length < first.toNat - 128
  · have hlong : rest.length + 1 + 1 < 2 + (first.toNat - 128) := by omega
    simp [hnone, hcut, hlong]
  have hlong : ¬ rest.length + 1 + 1 < 2 + (first.toNat - 128) := by omega
  have htake : (rest.take (first.toNat - 128)).length =
      first.toNat - 128 := by
    rw [List.length_take]
    omega
  have hsum : (2 + UInt64.ofNat (first.toNat - 128) +
        derLongLength (rest.take (first.toNat - 128))).toNat =
      (DerHeader.mk (rest.take (first.toNat - 128))
        (BigEndian.value (rest.take (first.toNat - 128)))).total %
          2 ^ 64 := by
    simp only [DerHeader.total, htake, UInt64.toNat_add, derLongLength_toNat]
    simp
  simp only [hnone, hcut, hlong, if_false, false_or, Option.some.injEq,
    exists_eq_left']
  exact ok_eq_ok_iff_toNat hsum

theorem derObjectLength_of_header {data : Bytes} {header : DerHeader}
    (hheader : derHeader data = some header) :
    derObjectLength data = .ok (UInt64.ofNat header.total) := by
  rw [derObjectLength_eq_ok_iff]
  exact ⟨header, hheader, UInt64.toNat_ofNat'⟩

theorem two_le_length_of_ok {data : Bytes} {length : UInt64}
    (hok : derObjectLength data = .ok length) : 2 ≤ data.length := by
  rcases data with _ | ⟨tag, _ | ⟨first, rest⟩⟩
  · cases hok
  · cases hok
  · simp

/-- A pair is cut at the computed length, behind which something is left. -/
theorem splitDerCerts_eq_ok_iff (data first second : Bytes) :
    splitDerCerts data = .ok (first, second) ↔
      ∃ length, derObjectLength data = .ok length ∧
        first.length = length.toNat ∧ second ≠ [] ∧
        data = first ++ second := by
  simp only [splitDerCerts, bind_eq_ok, ensure_eq_ok, context_eq_ok,
    pure_eq_ok, decide_eq_true_eq, Bool.not_eq_true', Prod.mk.injEq]
  constructor
  · rintro ⟨-, -, length, hlength, -, hwithin, -, hrest, rfl, rfl⟩
    rw [List.isEmpty_eq_false_iff] at hrest
    refine ⟨length, hlength, ?_, hrest, ?_⟩
    · rw [List.length_take, Nat.min_eq_left hwithin]
    · rw [List.take_append_drop]
  · rintro ⟨length, hlength, hcut, hrest, rfl⟩
    have htwo := two_le_length_of_ok hlength
    have htake : (first ++ second).take length.toNat = first := by
      rw [← hcut, List.take_left]
    have hdrop : (first ++ second).drop length.toNat = second := by
      rw [← hcut, List.drop_left]
    have hwithin : length.toNat ≤ (first ++ second).length := by
      rw [List.length_append, hcut]
      omega
    have hleft :
        ((first ++ second).drop length.toNat).isEmpty = false := by
      rw [hdrop, List.isEmpty_eq_false_iff]
      exact hrest
    exact ⟨(), htwo, length, hlength, (), hwithin, (), hleft, htake, hdrop⟩

/-! ## Lengths that do not fit -/

/-- A length that is returned is the one that the bytes denote, and a pair is
cut there. -/
structure LengthExact (data : Bytes) : Prop where
  length_eq : ∀ length, derObjectLength data = .ok length →
    ∃ header, derHeader data = some header ∧ length.toNat = header.total
  cut_eq : ∀ first second, splitDerCerts data = .ok (first, second) →
    ∃ header, derHeader data = some header ∧ first.length = header.total

theorem LengthExact.total_lt {data : Bytes} {header : DerHeader}
    (hexact : LengthExact data) (hheader : derHeader data = some header) :
    header.total < 2 ^ 64 := by
  obtain ⟨same, hsame, hlength⟩ :=
    hexact.length_eq _ (derObjectLength_of_header hheader)
  rw [hheader, Option.some.injEq] at hsame
  subst hsame
  rw [UInt64.toNat_ofNat'] at hlength
  omega

/-- Nothing is lost exactly when the object has fewer than `2 ^ 64` bytes. -/
theorem der_length_exact_iff (data : Bytes) :
    LengthExact data ↔
      ∀ header, derHeader data = some header → header.total < 2 ^ 64 := by
  constructor
  · intro hexact header hheader
    exact hexact.total_lt hheader
  · intro hfits
    have hlength : ∀ length, derObjectLength data = .ok length →
        ∃ header, derHeader data = some header ∧
          length.toNat = header.total := by
      intro length hok
      obtain ⟨header, hheader, hmod⟩ :=
        (derObjectLength_eq_ok_iff data length).mp hok
      have hsmall := hfits header hheader
      exact ⟨header, hheader, hmod.trans (Nat.mod_eq_of_lt hsmall)⟩
    refine ⟨hlength, ?_⟩
    intro first second hsplit
    obtain ⟨length, hok, hfirst, -, -⟩ :=
      (splitDerCerts_eq_ok_iff data first second).mp hsplit
    obtain ⟨header, hheader, htotal⟩ := hlength length hok
    exact ⟨header, hheader, hfirst.trans htotal⟩

/-- Nine length bytes that denote `2 ^ 64 + 5`, and six bytes more. -/
def overlongLength : Bytes :=
  [0x30, 0x89, 1, 0, 0, 0, 0, 0, 0, 0, 5, 0x30, 4, 1, 2, 3, 4]

/-- The length is taken to be 16, and the pair is cut there. -/
theorem overlong_length_cut :
    derObjectLength overlongLength = .ok 16 ∧
      (splitDerCerts overlongLength).toOption =
        some (overlongLength.take 16, overlongLength.drop 16) ∧
      ¬ LengthExact overlongLength := by
  refine ⟨rfl, rfl, ?_⟩
  intro hexact
  have hheader : derHeader overlongLength =
      some ⟨[1, 0, 0, 0, 0, 0, 0, 0, 5],
        BigEndian.value [1, 0, 0, 0, 0, 0, 0, 0, 5]⟩ := by
    simp [derHeader, overlongLength]
  have hsmall := hexact.total_lt hheader
  simp [DerHeader.total, BigEndian.value] at hsmall

/-! ## Cutting a pair -/

/-- The bytes of a definite length: below 128 in one byte, or behind a byte
that counts them, with leading zeros if there are any. -/
inductive DerLength : Bytes → ℕ → Prop
  | short (length : ℕ) (hsmall : length < 128) :
      DerLength [UInt8.ofNat length] length
  | long (bytes : Bytes) (hnonempty : bytes ≠ []) (hcount : bytes.length ≤ 8) :
      DerLength (UInt8.ofNat (128 + bytes.length) :: bytes)
        (BigEndian.value bytes)

/-- An object with a tag of one byte and a definite length. -/
structure DerObject where
  tag : UInt8
  lengthOctets : Bytes
  contents : Bytes
  definite : DerLength lengthOctets contents.length
  size_lt : 1 + lengthOctets.length + contents.length < 2 ^ 63

/-- The header is read back from the length, whatever follows. -/
theorem DerLength.derHeader_eq {lengthOctets : Bytes} {length : ℕ}
    (hlength : DerLength lengthOctets length) (tag : UInt8) (rest : Bytes) :
    ∃ header, derHeader (tag :: (lengthOctets ++ rest)) = some header ∧
      header.total = 1 + lengthOctets.length + length := by
  cases hlength with
  | short length hsmall =>
      have hfirst : (UInt8.ofNat length).toNat = length := by
        rw [UInt8.toNat_ofNat']
        omega
      refine ⟨⟨[], length⟩, ?_, ?_⟩
      · simp only [List.singleton_append, derHeader, hfirst, if_pos hsmall]
      · simp [DerHeader.total]
  | long bytes hnonempty hcount =>
      have hpositive := List.length_pos_iff.mpr hnonempty
      have hfirst : (UInt8.ofNat (128 + bytes.length)).toNat =
          128 + bytes.length := by
        rw [UInt8.toNat_ofNat']
        omega
      have hlong : ¬ 128 + bytes.length < 128 := by omega
      have hcomplete :
          ¬ (bytes.length = 0 ∨ (bytes ++ rest).length < bytes.length) := by
        rw [List.length_append]
        omega
      refine ⟨⟨bytes, BigEndian.value bytes⟩, ?_, ?_⟩
      · simp only [List.cons_append, derHeader, hfirst, if_neg hlong,
          Nat.add_sub_cancel_left, if_neg hcomplete, List.take_left]
      · simp only [DerHeader.total, List.length_cons]
        omega

namespace DerObject

def encode (object : DerObject) : Bytes :=
  object.tag :: (object.lengthOctets ++ object.contents)

theorem length_encode (object : DerObject) :
    object.encode.length =
      1 + object.lengthOctets.length + object.contents.length := by
  rw [encode, List.length_cons, List.length_append]
  omega

/-- The header of an object says how long it is, whatever follows. -/
theorem derHeader_encode (object : DerObject) (rest : Bytes) :
    ∃ header, derHeader (object.encode ++ rest) = some header ∧
      header.total = object.encode.length := by
  rw [length_encode, encode, List.cons_append, List.append_assoc]
  exact object.definite.derHeader_eq object.tag (object.contents ++ rest)

theorem derObjectLength_encode (object : DerObject) (rest : Bytes) :
    ∃ length, derObjectLength (object.encode ++ rest) = .ok length ∧
      length.toNat = object.encode.length := by
  obtain ⟨header, hheader, htotal⟩ := object.derHeader_encode rest
  have hsize := object.size_lt
  rw [← object.length_encode] at hsize
  refine ⟨_, derObjectLength_of_header hheader, ?_⟩
  rw [UInt64.toNat_ofNat', htotal]
  apply Nat.mod_eq_of_lt
  omega

theorem encode_ne_nil (object : DerObject) : object.encode ≠ [] :=
  List.cons_ne_nil _ _

end DerObject

/-- Two objects behind each other are cut where the second one begins. -/
theorem splitDerCerts_pair (ask ark : DerObject) :
    splitDerCerts (ask.encode ++ ark.encode) =
      .ok (ask.encode, ark.encode) := by
  obtain ⟨length, hlength, hsize⟩ := ask.derObjectLength_encode ark.encode
  rw [splitDerCerts_eq_ok_iff]
  exact ⟨length, hlength, hsize.symm, ark.encode_ne_nil, rfl⟩

/-- One byte of contents behind a length in two bytes. -/
def longObject : DerObject where
  tag := 0x30
  lengthOctets := [0x82, 0, 1]
  contents := [7]
  definite := .long [0, 1] (by decide) (by decide)
  size_lt := by decide

/-- An object without contents. -/
def emptyObject : DerObject where
  tag := 0x30
  lengthOctets := [0]
  contents := []
  definite := .short 0 (by decide)
  size_lt := by decide

theorem splitDerCerts_long_and_empty :
    splitDerCerts [0x30, 0x82, 0, 1, 7, 0x30, 0] =
      .ok ([0x30, 0x82, 0, 1, 7], [0x30, 0]) :=
  splitDerCerts_pair longObject emptyObject

end AlephCvm.Tee
