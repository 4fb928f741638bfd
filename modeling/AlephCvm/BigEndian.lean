import Mathlib.Data.List.Induction
import Mathlib.Data.Nat.Digits.Defs

/-!
# Big-endian bytes

The number that a string of bytes denotes when the most significant byte
comes first, the shortest string for a number, and what a machine word holds
after the bytes were shifted into it one by one.
-/

namespace BigEndian

def value (bytes : List UInt8) : ℕ :=
  bytes.foldl (fun acc byte => acc * 256 + byte.toNat) 0

@[simp] theorem value_concat (bytes : List UInt8) (byte : UInt8) :
    value (bytes ++ [byte]) = value bytes * 256 + byte.toNat := by
  simp [value, List.foldl_append]

/-! ## The other order of the bytes -/

/-- The number whose least significant byte comes first. -/
def littleEndian (bytes : List UInt8) : ℕ :=
  Nat.ofDigits 256 (bytes.map UInt8.toNat)

theorem value_reverse (bytes : List UInt8) :
    value bytes.reverse = littleEndian bytes := by
  induction bytes with
  | nil => rfl
  | cons byte rest ih =>
      rw [List.reverse_cons, value_concat, ih, littleEndian, littleEndian,
        List.map_cons, Nat.ofDigits_cons, Nat.mul_comm, Nat.add_comm]

/-! ## Shortest strings -/

/-- The shortest string for a number; zero takes one byte. -/
structure Shortest (bytes : List UInt8) (number : ℕ) : Prop where
  nonempty : bytes ≠ []
  noLeadingZero : bytes.head? = some 0 → bytes = [0]
  denotes : value bytes = number

theorem value_append_of_zeros
    {zeros : List UInt8} (hzeros : ∀ byte ∈ zeros, byte = 0)
    (bytes : List UInt8) : value (zeros ++ bytes) = value bytes := by
  have hfront : zeros.foldl (fun acc byte => acc * 256 + byte.toNat) 0 =
      0 := by
    induction zeros with
    | nil => rfl
    | cons byte rest ih =>
        obtain ⟨rfl, hrest⟩ := List.forall_mem_cons.mp hzeros
        exact ih hrest
  rw [value, List.foldl_append, hfront, value]

/-- What stands behind zeros is the shortest string when it begins with
another byte. -/
theorem shortest_of_zeros
    {zeros rest : List UInt8} {first : UInt8}
    (hzeros : ∀ byte ∈ zeros, byte = 0) (hfirst : first ≠ 0) :
    Shortest (first :: rest) (value (zeros ++ first :: rest)) where
  nonempty := by simp
  noLeadingZero := by
    intro hhead
    exact (hfirst (Option.some.inj hhead)).elim
  denotes := (value_append_of_zeros hzeros _).symm

theorem shortest_zero
    {zeros : List UInt8} (hzeros : ∀ byte ∈ zeros, byte = 0) :
    Shortest [0] (value zeros) where
  nonempty := by simp
  noLeadingZero := fun _ => rfl
  denotes := by
    have hvalue := value_append_of_zeros hzeros []
    rw [List.append_nil] at hvalue
    rw [hvalue]
    rfl

/-! ## Words of 64 bits -/

/-- `acc << 8 | byte`. -/
def shiftIn (acc : UInt64) (byte : UInt8) : UInt64 :=
  (acc <<< 8) ||| byte.toUInt64

theorem shiftIn_toNat (acc : UInt64) (byte : UInt8) :
    (shiftIn acc byte).toNat = (acc.toNat * 256 + byte.toNat) % UInt64.size := by
  have hbyte : byte.toNat < 2 ^ 8 := byte.toNat_lt
  have hshifted : acc.toNat * 256 % 2 ^ 64 =
      2 ^ 8 * (acc.toNat % 2 ^ 56) := by
    omega
  have hword : (shiftIn acc byte).toNat =
      (acc.toNat <<< 8 % 2 ^ 64) ||| byte.toNat := by
    simp [shiftIn]
  rw [hword, Nat.shiftLeft_eq, show 2 ^ 8 = 256 from rfl, hshifted,
    ← Nat.two_pow_add_eq_or_of_lt hbyte]
  unfold UInt64.size
  omega

/-- Bits that leave the word on the left are lost. -/
theorem foldl_shiftIn_toNat (bytes : List UInt8) :
    (bytes.foldl shiftIn 0).toNat = value bytes % UInt64.size := by
  induction bytes using List.reverseRecOn with
  | nil => rfl
  | append_singleton bytes byte ih =>
      rw [List.foldl_append, List.foldl_cons, List.foldl_nil, shiftIn_toNat,
        ih, value_concat]
      unfold UInt64.size
      omega

end BigEndian
