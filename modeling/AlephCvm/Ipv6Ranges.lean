import Mathlib.Data.Set.Lattice
import Mathlib.Order.CompletePartialOrder
import AlephCvm.Ipv6RangeAllocator
import AlephCvm.StepRuns

/-!
# The address ranges of the IPv6 allocator

A network stands for the addresses that share its prefix, whatever its host
bits are.  The interval tests of the allocator decide exactly the inclusion
and the disjointness of these sets, so the ranges that a run of allocations
and releases leaves are parts of the pool that do not meet.
-/

namespace AlephCvm.Net

open StepRuns

namespace Ipv6Net

variable (net : Ipv6Net)

def hostBits : ℕ := 128 - net.prefixLen.val

def addresses : Set (BitVec 128) :=
  { addr | addr >>> net.hostBits = net.addr >>> net.hostBits }

theorem size_pos : 0 < net.size := Nat.two_pow_pos _

theorem mem_addresses_iff_div (addr : BitVec 128) :
    addr ∈ net.addresses ↔
      addr.toNat / net.size = net.addr.toNat / net.size := by
  unfold addresses hostBits size
  rw [Set.mem_ofPred_eq, ← BitVec.toNat_inj, BitVec.toNat_ushiftRight,
    BitVec.toNat_ushiftRight, Nat.shiftRight_eq_div_pow,
    Nat.shiftRight_eq_div_pow]

theorem mem_addresses_iff (addr : BitVec 128) :
    addr ∈ net.addresses ↔
      net.network ≤ addr.toNat ∧ addr.toNat ≤ net.broadcast := by
  have hsize := net.size_pos
  rw [mem_addresses_iff_div, Nat.div_eq_iff hsize]
  unfold broadcast network
  omega

theorem network_mem_addresses :
    BitVec.ofNat 128 net.network ∈ net.addresses := by
  have hbelow : net.network ≤ net.addr.toNat := Nat.div_mul_le_self _ _
  have hbound := net.addr.isLt
  have hvalue : (BitVec.ofNat 128 net.network).toNat = net.network :=
    Nat.mod_eq_of_lt (by omega)
  rw [mem_addresses_iff, hvalue]
  exact ⟨Nat.le_refl _, net.network_le_broadcast⟩

theorem broadcast_lt : net.broadcast < 2 ^ 128 := by
  have hsize := net.size_pos
  have hwhole : net.size * 2 ^ net.prefixLen.val = 2 ^ 128 := by
    have hlength := net.prefixLen.isLt
    unfold size
    rw [← Nat.pow_add]
    congr 1
    omega
  have hindex : net.addr.toNat / net.size < 2 ^ net.prefixLen.val := by
    apply Nat.div_lt_of_lt_mul
    rw [hwhole]
    exact net.addr.isLt
  have hnext : (net.addr.toNat / net.size + 1) * net.size ≤ 2 ^ 128 := by
    rw [← hwhole, Nat.mul_comm net.size]
    exact Nat.mul_le_mul_right _ hindex
  rw [Nat.add_mul, Nat.one_mul] at hnext
  unfold broadcast network
  omega

theorem broadcast_mem_addresses :
    BitVec.ofNat 128 net.broadcast ∈ net.addresses := by
  have hvalue : (BitVec.ofNat 128 net.broadcast).toNat = net.broadcast :=
    Nat.mod_eq_of_lt net.broadcast_lt
  rw [mem_addresses_iff, hvalue]
  exact ⟨net.network_le_broadcast, Nat.le_refl _⟩

end Ipv6Net

namespace Ipv6RangeAllocator

/-! ## What the interval tests decide -/

theorem contains_iff (alloc : Ipv6RangeAllocator) (net : Ipv6Net) :
    alloc.contains net = true ↔ net.addresses ⊆ alloc.pool.addresses := by
  unfold contains
  rw [decide_eq_true_eq]
  constructor
  · intro hinside addr hmem
    rw [Ipv6Net.mem_addresses_iff] at hmem ⊢
    omega
  · intro hsubset
    have hfirst := hsubset net.network_mem_addresses
    have hlast := hsubset net.broadcast_mem_addresses
    have hbound := net.broadcast_lt
    have hle := net.network_le_broadcast
    rw [Ipv6Net.mem_addresses_iff, BitVec.toNat_ofNat,
      Nat.mod_eq_of_lt (by omega)] at hfirst hlast
    exact ⟨hfirst.1, hlast.2⟩

theorem rangesMeet_eq_false_iff (net existing : Ipv6Net) :
    rangesMeet net existing = false ↔
      Disjoint net.addresses existing.addresses := by
  unfold rangesMeet
  rw [decide_eq_false_iff_not, Set.disjoint_left]
  constructor
  · intro happart addr hmem hother
    rw [Ipv6Net.mem_addresses_iff] at hmem hother
    omega
  · intro hdisjoint hmeet
    -- The later of the two first addresses lies in both ranges.
    rcases Nat.le_total net.network existing.network with hle | hle
    · have hboth : BitVec.ofNat 128 existing.network ∈ net.addresses := by
        have hmem := existing.network_mem_addresses
        have hbound := existing.broadcast_lt
        have hspan := existing.network_le_broadcast
        rw [Ipv6Net.mem_addresses_iff, BitVec.toNat_ofNat,
          Nat.mod_eq_of_lt (by omega)]
        exact ⟨hle, hmeet.2⟩
      exact hdisjoint hboth existing.network_mem_addresses
    · have hboth : BitVec.ofNat 128 net.network ∈ existing.addresses := by
        have hbound := net.broadcast_lt
        have hspan := net.network_le_broadcast
        rw [Ipv6Net.mem_addresses_iff, BitVec.toNat_ofNat,
          Nat.mod_eq_of_lt (by omega)]
        exact ⟨hle, hmeet.1⟩
      exact hdisjoint net.network_mem_addresses hboth

/-! ## Runs of allocations and releases -/

inductive AllocatorOp
  | allocate (vmId : String) (requested : Option Ipv6Net) (draws : ℕ → ℕ)
  | release (vmId : String)

/-- A call that fails or panics leaves the allocations as they are. -/
def step (alloc : Ipv6RangeAllocator) : AllocatorOp → Ipv6RangeAllocator
  | .allocate vmId requested draws =>
      match alloc.allocate vmId requested draws with
      | .error _ => alloc
      | .ok (_, next) => next
  | .release vmId => alloc.release vmId

/-- Every allocation lies in the pool and apart from those of other VMs. -/
structure Separated (pool : Ipv6Net) (alloc : Ipv6RangeAllocator) :
    Prop where
  pool_eq : alloc.pool = pool
  inside : ∀ vmId net, alloc.allocations.lookup vmId = some net →
    net.addresses ⊆ pool.addresses
  apart : ∀ vmId other net existing, vmId ≠ other →
    alloc.allocations.lookup vmId = some net →
    alloc.allocations.lookup other = some existing →
    Disjoint net.addresses existing.addresses

variable {pool : Ipv6Net} {alloc : Ipv6RangeAllocator}

theorem Separated.new (pool : Ipv6Net) (defaultPrefix : UInt8) :
    Separated pool (Ipv6RangeAllocator.new pool defaultPrefix) where
  pool_eq := rfl
  inside := by
    intro vmId net hlookup
    simp [Ipv6RangeAllocator.new] at hlookup
  apart := by
    intro vmId other net existing hne hlookup
    simp [Ipv6RangeAllocator.new] at hlookup

theorem Separated.release (hsep : Separated pool alloc) (vmId : String) :
    Separated pool (alloc.release vmId) := by
  have hkept : ∀ other net,
      (alloc.release vmId).allocations.lookup other = some net →
        alloc.allocations.lookup other = some net := by
    intro other net hlookup
    by_cases heq : other = vmId
    · subst heq
      simp [Ipv6RangeAllocator.release] at hlookup
    · rwa [Ipv6RangeAllocator.release, AList.lookup_erase_ne heq]
        at hlookup
  constructor
  · exact hsep.pool_eq
  · intro other net hlookup
    exact hsep.inside other net (hkept other net hlookup)
  · intro first second net existing hne hfirst hsecond
    exact hsep.apart first second net existing hne
      (hkept first net hfirst) (hkept second existing hsecond)

/-- A range that passed the two tests may take the place of the one its VM
had before. -/
theorem Separated.insert (hsep : Separated pool alloc) (vmId : String)
    {net : Ipv6Net} (hinside : alloc.contains net = true)
    (hfree : alloc.overlaps net = false) :
    Separated pool
      { alloc with allocations := alloc.allocations.insert vmId net } := by
  have hpool : net.addresses ⊆ pool.addresses := by
    rw [← hsep.pool_eq]
    exact (alloc.contains_iff net).mp hinside
  have hdisjoint : ∀ other existing,
      alloc.allocations.lookup other = some existing →
        Disjoint net.addresses existing.addresses := by
    intro other existing hlookup
    apply (rangesMeet_eq_false_iff net existing).mp
    exact (alloc.overlaps_eq_false_iff net).mp hfree other existing hlookup
  constructor
  · exact hsep.pool_eq
  · intro other range hlookup
    by_cases heq : other = vmId
    · subst heq
      rw [AList.lookup_insert, Option.some.injEq] at hlookup
      exact hlookup ▸ hpool
    · rw [AList.lookup_insert_ne heq] at hlookup
      exact hsep.inside other range hlookup
  · intro first second range existing hne hfirst hsecond
    by_cases heq : first = vmId
    · subst heq
      rw [AList.lookup_insert, Option.some.injEq] at hfirst
      rw [AList.lookup_insert_ne (Ne.symm hne)] at hsecond
      exact hfirst ▸ hdisjoint second existing hsecond
    · rw [AList.lookup_insert_ne heq] at hfirst
      by_cases hother : second = vmId
      · subst hother
        rw [AList.lookup_insert, Option.some.injEq] at hsecond
        exact hsecond ▸ (hdisjoint first range hfirst).symm
      · rw [AList.lookup_insert_ne hother] at hsecond
        exact hsep.apart first second range existing hne hfirst hsecond

theorem Separated.step (hsep : Separated pool alloc) (op : AllocatorOp) :
    Separated pool (alloc.step op) := by
  cases op with
  | release vmId => exact hsep.release vmId
  | allocate vmId requested draws =>
      cases hnet : alloc.chooseNet draws requested with
      | error failure =>
          simpa only [Ipv6RangeAllocator.step, Ipv6RangeAllocator.allocate,
            hnet] using hsep
      | ok net =>
          have haccepted := alloc.chooseNet_accepted hnet
          simp only [Ipv6RangeAllocator.step, Ipv6RangeAllocator.allocate,
            hnet]
          exact hsep.insert vmId haccepted.1 haccepted.2

/-- The allocator of a pool after a run of calls. -/
def afterCalls (pool : Ipv6Net) (defaultPrefix : UInt8)
    (ops : List AllocatorOp) : Ipv6RangeAllocator :=
  run step (Ipv6RangeAllocator.new pool defaultPrefix) ops

theorem separated_afterCalls (pool : Ipv6Net) (defaultPrefix : UInt8)
    (ops : List AllocatorOp) :
    Separated pool (afterCalls pool defaultPrefix ops) :=
  run_invariant (fun _ op hsep => hsep.step op) ops
    (Separated.new pool defaultPrefix)

/-- Whatever is allocated and released, the recorded ranges are parts of the
pool, and those of two VMs share no address. -/
theorem allocations_apart_after_calls (pool : Ipv6Net)
    (defaultPrefix : UInt8) (ops : List AllocatorOp) :
    let final := (afterCalls pool defaultPrefix ops).allocations
    (∀ vmId net, final.lookup vmId = some net →
      net.addresses ⊆ pool.addresses) ∧
    ∀ first second net existing, first ≠ second →
      final.lookup first = some net →
      final.lookup second = some existing →
      Disjoint net.addresses existing.addresses := by
  have hfinal := separated_afterCalls pool defaultPrefix ops
  exact ⟨hfinal.inside, hfinal.apart⟩

end Ipv6RangeAllocator

end AlephCvm.Net
