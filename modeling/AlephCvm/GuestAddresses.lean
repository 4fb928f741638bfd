import Mathlib.Data.Finset.Basic
import AlephCvm.TeeTypes

/-!
# Addresses of virtual machines

Model of the pure functions of `aleph-compute-node/src/network/tap.rs` and of
the IPv6 networks of the `ipnet` crate.  An IPv4 address is a `u32` whose
octets are read from the high end.  The offset of an address is recovered
from its last octet alone, with wrapping subtraction; it is the offset the
address was made from, whatever carries the addition made.
-/

namespace AlephCvm.Net

open AlephCvm.Tee

abbrev Ipv4Addr := UInt32

def octets (ip : Ipv4Addr) : UInt8 × UInt8 × UInt8 × UInt8 :=
  ((ip >>> 24).toUInt8, (ip >>> 16).toUInt8, (ip >>> 8).toUInt8, ip.toUInt8)

def ipv4Text (ip : Ipv4Addr) : String :=
  let (first, second, third, last) := octets ip
  s!"{first}.{second}.{third}.{last}"

def macForVmIp (ip : Ipv4Addr) : String :=
  let (_, second, third, last) := octets ip
  s!"52:54:00:{hexEncode [second]}:{hexEncode [third]}:{hexEncode [last]}"

def allocateVmIp (gatewayIp : Ipv4Addr) (offset : UInt8) : Ipv4Addr :=
  gatewayIp + offset.toUInt32

/-- `ip.octets()[3].wrapping_sub(gateway_ip.octets()[3])`. -/
def ipOffset (gatewayIp ip : Ipv4Addr) : UInt8 :=
  (octets ip).2.2.2 - (octets gatewayIp).2.2.2

@[simp] theorem ipOffset_allocateVmIp
    (gatewayIp : Ipv4Addr) (offset : UInt8) :
    ipOffset gatewayIp (allocateVmIp gatewayIp offset) = offset := by
  simp only [ipOffset, octets, allocateVmIp, UInt32.toUInt8_add,
    UInt8.toUInt8_toUInt32]
  rw [UInt8.add_comm, UInt8.add_sub_cancel]

/-! ## Free offsets -/

/-- The offsets `1..=254` in increasing order. -/
def offsetRange : List UInt8 :=
  (List.range 254).map fun index => UInt8.ofNat (index + 1)

def freeOffset (used : Finset UInt8) : Option UInt8 :=
  offsetRange.find? fun offset => decide (offset ∉ used)

theorem freeOffset_notMem
    {used : Finset UInt8} {offset : UInt8}
    (hfree : freeOffset used = some offset) : offset ∉ used := by
  have hfound := List.find?_some hfree
  simpa using hfound

/-! ## IPv6 networks -/

structure Ipv6Net where
  addr : BitVec 128
  prefixLen : Fin 129
  deriving DecidableEq, Repr

namespace Ipv6Net

variable (net : Ipv6Net)

/-- The number of addresses below the prefix. -/
def size : ℕ := 2 ^ (128 - net.prefixLen.val)

/-- The first address of the network. -/
def network : ℕ := net.addr.toNat / net.size * net.size

/-- The last address of the network. -/
def broadcast : ℕ := net.network + net.size - 1

/-- `Ipv6Net::new`, for a prefix length that may be out of range. -/
def new (addr : BitVec 128) (prefixLen : UInt8) : Except String Ipv6Net :=
  if hlength : prefixLen.toNat < 129 then
    .ok ⟨addr, ⟨prefixLen.toNat, hlength⟩⟩
  else .error "invalid IP prefix length"

theorem network_le_broadcast : net.network ≤ net.broadcast := by
  have hsize : 0 < net.size := Nat.two_pow_pos _
  unfold broadcast
  omega

end Ipv6Net

def ipv6Segments (addr : BitVec 128) : List ℕ :=
  (List.range 8).map fun index =>
    addr.toNat / 2 ^ (16 * (7 - index)) % 65536

def hexNat (value : ℕ) : String := String.ofList (Nat.toDigits 16 value)

def joinSegments (segments : List ℕ) : String :=
  ":".intercalate (segments.map hexNat)

/-- Start and length of the first longest run of zero segments. -/
def longestZeros (segments : List ℕ) : ℕ × ℕ :=
  let scan := segments.zipIdx.foldl
    (fun (spans : (ℕ × ℕ) × (ℕ × ℕ)) entry =>
      let (longest, current) := spans
      if entry.1 = 0 then
        let current :=
          if current.2 = 0 then (entry.2, 1) else (current.1, current.2 + 1)
        (if longest.2 < current.2 then current else longest, current)
      else (longest, (0, 0)))
    ((0, 0), (0, 0))
  scan.1

/-- The textual form of an IPv6 address as Rust displays it. -/
def ipv6Text (addr : BitVec 128) : String :=
  let segments := ipv6Segments addr
  if addr.toNat / 2 ^ 32 = 65535 then
    s!"::ffff:{ipv4Text (UInt32.ofNat addr.toNat)}"
  else
    let (start, length) := longestZeros segments
    if 1 < length then
      s!"{joinSegments (segments.take start)}::" ++
        joinSegments (segments.drop (start + length))
    else joinSegments segments

def ipv6NetText (net : Ipv6Net) : String :=
  s!"{ipv6Text net.addr}/{net.prefixLen}"

/-! ## Reservation files -/

def dhcpLine (mac : String) (ip : Ipv4Addr) : String :=
  s!"{mac},{ipv4Text ip}\n"

def dhcpv6File (vmId : String) : String := s!"{vmId}.v6"

def dhcpv6Line (mac : String) (addr : BitVec 128) : String :=
  s!"{mac},id:*,[{ipv6Text addr}]\n"

theorem dhcpv6File_ne (vmId : String) : dhcpv6File vmId ≠ vmId := by
  intro heq
  have hlength := congrArg String.length heq
  simp [dhcpv6File, toString] at hlength

def tapName (vmId : String) : String := s!"tap-{vmId}"

end AlephCvm.Net
