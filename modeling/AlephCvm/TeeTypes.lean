import Mathlib.Data.Vector.Basic
import AlephCvm.NumaAllocator

/-!
# Types shared by the crates

Model of `aleph-tee/src/types.rs`: attestation reports as the agent returns
them, verification results, and the configuration of a virtual machine.  An
`AttestationReport` is a JSON wrapper.  Its `data` field is the raw report
that the processor signed; `reportData` and `measurement` are copies that
travel beside it and that nothing signs.  Arrays of a fixed length are
vectors, so a report with a 63-byte `reportData` cannot be built.
-/

namespace AlephCvm.Tee

open AlephCvm.Numa

abbrev Bytes := List UInt8

abbrev ReportData := List.Vector UInt8 64

abbrev Digest384 := List.Vector UInt8 48

inductive TeeType where
  | sevSnp
  | tdx
  | nvidiaCc
  | none
  deriving DecidableEq, Repr

structure AttestationReport where
  teeType : TeeType
  data : Bytes
  reportData : ReportData
  measurement : Bytes
  deriving DecidableEq

structure TcbParams where
  blSpl : UInt8
  teeSpl : UInt8
  snpSpl : UInt8
  ucodeSpl : UInt8
  deriving DecidableEq, Repr

/-- The `details` object of a verification result. -/
structure VerificationDetails where
  product : String
  guestSvn : UInt32
  vmpl : UInt32
  verified : Bool
  tcb : TcbParams
  deriving DecidableEq, Repr

structure VerificationResult where
  valid : Bool
  teeType : TeeType
  summary : String
  measurement : Bytes
  details : VerificationDetails
  deriving DecidableEq, Repr

structure DiskConfig where
  path : String
  readonly : Bool
  format : String
  deriving DecidableEq, Repr

structure TeeConfig where
  backend : TeeType
  policy : Option String
  deriving DecidableEq, Repr

structure VmConfig where
  vmId : String
  kernel : Option String
  initrd : Option String
  disks : List DiskConfig
  vcpus : UInt32
  memoryMb : UInt32
  tee : TeeConfig
  encrypted : Bool
  numaNode : Option UInt32
  hugepageSize : Option HugePageSize
  deriving DecidableEq, Repr

/-! ## Hexadecimal text -/

def hexDigit (value : UInt8) : Char :=
  if value < 10 then Char.ofNat (48 + value.toNat)
  else Char.ofNat (87 + value.toNat)

/-- `hex::encode`. -/
def hexEncode (bytes : Bytes) : String :=
  String.ofList
    (bytes.flatMap fun byte => [hexDigit (byte / 16), hexDigit (byte % 16)])

theorem hexDigit_injective : ∀ first second : Fin 16,
    hexDigit (UInt8.ofNat first.val) = hexDigit (UInt8.ofNat second.val) →
      first = second := by
  decide +kernel

theorem toNat_of_hexDigit_eq {first second : UInt8}
    (hfirst : first.toNat < 16) (hsecond : second.toNat < 16)
    (hdigit : hexDigit first = hexDigit second) :
    first.toNat = second.toNat := by
  have hsame := hexDigit_injective ⟨first.toNat, hfirst⟩
    ⟨second.toNat, hsecond⟩ (by simpa using hdigit)
  exact Fin.mk.inj hsame

theorem hexEncode_byte_injective {first second : UInt8}
    (hsame : hexEncode [first] = hexEncode [second]) : first = second := by
  have hdigits : hexDigit (first / 16) = hexDigit (second / 16) ∧
      hexDigit (first % 16) = hexDigit (second % 16) := by
    have hlists := congrArg String.toList hsame
    simpa [hexEncode] using hlists
  have hquotient : ∀ byte : UInt8, (byte / 16).toNat < 16 := by
    intro byte
    have hlt := byte.toNat_lt
    simp only [UInt8.toNat_div, UInt8.reduceToNat]
    omega
  have hremainder : ∀ byte : UInt8, (byte % 16).toNat < 16 := by
    intro byte
    simp only [UInt8.toNat_mod, UInt8.reduceToNat]
    omega
  have hhigh := toNat_of_hexDigit_eq (hquotient first) (hquotient second)
    hdigits.1
  have hlow := toNat_of_hexDigit_eq (hremainder first) (hremainder second)
    hdigits.2
  apply UInt8.toNat_inj.mp
  simp only [UInt8.toNat_div, UInt8.toNat_mod, UInt8.reduceToNat]
    at hhigh hlow
  omega

theorem hexEncode_injective {first second : Bytes}
    (hsame : hexEncode first = hexEncode second) : first = second := by
  have hlists := congrArg String.toList hsame
  simp only [hexEncode, String.toList_ofList] at hlists
  clear hsame
  induction first generalizing second with
  | nil =>
      cases second with
      | nil => rfl
      | cons byte rest => simp at hlists
  | cons byte rest ih =>
      cases second with
      | nil => simp at hlists
      | cons other others =>
          simp only [List.flatMap_cons] at hlists
          have hparts := List.append_inj hlists (by simp)
          have hbyte : byte = other := by
            apply hexEncode_byte_injective
            simp [hexEncode, hparts.1]
          rw [hbyte, ih hparts.2]

theorem length_hexEncode (bytes : Bytes) :
    (hexEncode bytes).toList.length = 2 * bytes.length := by
  simp only [hexEncode, String.toList_ofList]
  induction bytes with
  | nil => rfl
  | cons byte rest ih =>
      rw [List.flatMap_cons, List.length_append, ih]
      simp only [List.length_cons, List.length_nil]
      omega

inductive FromHexError where
  | oddLength
  | invalidHexCharacter (byte : UInt8) (index : ℕ)
  deriving DecidableEq, Repr

def hexValue (byte : UInt8) : Option UInt8 :=
  if 48 ≤ byte ∧ byte ≤ 57 then some (byte - 48)
  else if 65 ≤ byte ∧ byte ≤ 70 then some (byte - 55)
  else if 97 ≤ byte ∧ byte ≤ 102 then some (byte - 87)
  else none

def hexDecodeFrom (index : ℕ) : Bytes → Except FromHexError Bytes
  | high :: low :: rest =>
      match hexValue high, hexValue low with
      | none, _ => .error (.invalidHexCharacter high index)
      | some _, none => .error (.invalidHexCharacter low (index + 1))
      | some highValue, some lowValue =>
          match hexDecodeFrom (index + 2) rest with
          | .error error => .error error
          | .ok decoded => .ok ((highValue * 16 + lowValue) :: decoded)
  | _ => .ok []

/-- `hex::decode` on the UTF-8 bytes of a text. -/
def hexDecode (text : String) : Except FromHexError Bytes :=
  let bytes := text.toUTF8.toList
  if bytes.length % 2 = 0 then hexDecodeFrom 0 bytes
  else .error .oddLength

def FromHexError.message : FromHexError → String
  | .oddLength => "Odd number of digits"
  | .invalidHexCharacter byte index =>
      s!"Invalid character '{Char.ofNat byte.toNat}' at position {index}"

/-! ## Report data fields -/

/-- Bytes copied to the front of a zeroed 64-byte array.  A longer slice
would make the copy of the source fail; the callers never pass one. -/
def zeroPad (bytes : Bytes) (hlength : bytes.length ≤ 64) : ReportData :=
  ⟨bytes ++ List.replicate (64 - bytes.length) 0, by
    simp only [List.length_append, List.length_replicate]
    omega⟩

theorem zeroPad_toList (bytes : Bytes) (hlength : bytes.length ≤ 64) :
    (zeroPad bytes hlength).toList =
      bytes ++ List.replicate (64 - bytes.length) 0 := rfl

/-- `SHA-384(public key)` followed by sixteen zero bytes. -/
def keyBoundReportData (digest : Digest384) : ReportData :=
  zeroPad digest.toList (by simp)

theorem keyBoundReportData_toList (digest : Digest384) :
    (keyBoundReportData digest).toList =
      digest.toList ++ List.replicate 16 0 := by
  rw [keyBoundReportData, zeroPad_toList]
  simp

theorem keyBoundReportData_injective {first second : Digest384}
    (h : keyBoundReportData first = keyBoundReportData second) :
    first = second := by
  have hlist := congrArg List.Vector.toList h
  rw [keyBoundReportData_toList, keyBoundReportData_toList] at hlist
  apply List.Vector.toList_injective
  exact List.append_cancel_right hlist

end AlephCvm.Tee
