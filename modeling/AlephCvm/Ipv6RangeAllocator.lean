import Mathlib.Data.List.AList
import AlephCvm.GuestAddresses
import AlephCvm.ResultContext

/-!
# The IPv6 range allocator

Model of `aleph-network/src/ipv6/range_allocator.rs`.  Ranges are compared by
their first and last addresses.  A random allocation makes up to a hundred
draws; the sequence of drawn values is a parameter.
-/

namespace AlephCvm.Net

open ResultContext

structure Ipv6RangeAllocator where
  pool : Ipv6Net
  defaultPrefix : UInt8
  allocations : AList fun _ : String => Ipv6Net

def Ipv6RangeAllocator.new (pool : Ipv6Net) (defaultPrefix : UInt8) :
    Ipv6RangeAllocator :=
  ⟨pool, defaultPrefix, ∅⟩

namespace Ipv6RangeAllocator

variable (alloc : Ipv6RangeAllocator)

def contains (net : Ipv6Net) : Bool :=
  decide (alloc.pool.network ≤ net.network ∧
    net.broadcast ≤ alloc.pool.broadcast)

/-- The overlap test of the source on two ranges. -/
def rangesMeet (net existing : Ipv6Net) : Bool :=
  decide (net.network ≤ existing.broadcast ∧
    existing.network ≤ net.broadcast)

def overlaps (net : Ipv6Net) : Bool :=
  alloc.allocations.entries.any fun entry => rangesMeet net entry.2

/-- One past the largest offset that can be drawn. -/
def drawBound : ℕ :=
  if alloc.pool.size ≤ 2 ^ 64 - 1 then alloc.pool.size else 2 ^ 64 - 1

/-- The address of one draw, with the drawn value brought into the range. -/
def drawnAddr (draw : ℕ) : BitVec 128 :=
  BitVec.ofNat 128 (alloc.pool.network + (1 + draw % (alloc.drawBound - 1)))

/-- The attempts that are left. -/
def tryDraws (draws : ℕ → ℕ) : List ℕ → Except Failure Ipv6Net
  | [] => .error (.error
      (s!"failed to find a non-overlapping address in pool " ++
        s!"{ipv6NetText alloc.pool} after 100 attempts"))
  | attempt :: rest =>
      match Ipv6Net.new (alloc.drawnAddr (draws attempt))
          alloc.defaultPrefix with
      | .error message => .error (.error message)
      | .ok net =>
          if alloc.contains net && !alloc.overlaps net then .ok net
          else tryDraws draws rest

/-- A pool of all addresses overflows the shift of the host count; a pool of
one address leaves no value to draw.  Both panic. -/
def randomAddress (draws : ℕ → ℕ) : Except Failure Ipv6Net :=
  if alloc.pool.prefixLen.val = 0 then
    .error (.panicked "attempt to shift left with overflow")
  else if alloc.pool.prefixLen.val = 128 then
    .error (.panicked "cannot sample empty range")
  else alloc.tryDraws draws (List.range 100)

def chooseNet (draws : ℕ → ℕ) : Option Ipv6Net → Except Failure Ipv6Net
  | some net =>
      if alloc.contains net = false then
        .error (.error
          (s!"requested {ipv6NetText net} is not within pool " ++
            s!"{ipv6NetText alloc.pool}"))
      else if alloc.overlaps net then
        .error (.error
          (s!"requested {ipv6NetText net} overlaps with an existing " ++
            "allocation"))
      else .ok net
  | none => alloc.randomAddress draws

def allocate (vmId : String) (requested : Option Ipv6Net)
    (draws : ℕ → ℕ) : Except Failure (Ipv6Net × Ipv6RangeAllocator) :=
  match alloc.chooseNet draws requested with
  | .error failure => .error failure
  | .ok net => .ok (net,
      { alloc with allocations := alloc.allocations.insert vmId net })

def release (vmId : String) : Ipv6RangeAllocator :=
  { alloc with allocations := alloc.allocations.erase vmId }

/-! ## What an allocated range satisfies -/

theorem tryDraws_accepted
    {draws : ℕ → ℕ} {attempts : List ℕ} {net : Ipv6Net}
    (hok : alloc.tryDraws draws attempts = .ok net) :
    alloc.contains net = true ∧ alloc.overlaps net = false := by
  induction attempts with
  | nil => cases hok
  | cons attempt rest ih =>
      unfold tryDraws at hok
      split at hok
      · cases hok
      · split at hok
        · rename_i hboth
          cases hok
          simpa using hboth
        · exact ih hok

theorem chooseNet_accepted
    {draws : ℕ → ℕ} {requested : Option Ipv6Net} {net : Ipv6Net}
    (hok : alloc.chooseNet draws requested = .ok net) :
    alloc.contains net = true ∧ alloc.overlaps net = false := by
  cases requested with
  | some asked =>
      simp only [chooseNet] at hok
      split_ifs at hok with hpool hoverlap
      cases hok
      exact ⟨by simpa using hpool, by simpa using hoverlap⟩
  | none =>
      simp only [chooseNet, randomAddress] at hok
      split_ifs at hok with hall hone
      exact alloc.tryDraws_accepted hok

theorem chooseNet_requested
    {draws : ℕ → ℕ} {net : Ipv6Net} (hpool : alloc.contains net = true)
    (hfree : alloc.overlaps net = false) :
    alloc.chooseNet draws (some net) = .ok net := by
  simp [chooseNet, hpool, hfree]

theorem rangesMeet_self (net : Ipv6Net) : rangesMeet net net = true := by
  simp [rangesMeet, net.network_le_broadcast]

theorem rangesMeet_comm (first second : Ipv6Net) :
    rangesMeet first second = rangesMeet second first := by
  unfold rangesMeet
  rw [decide_eq_decide]
  exact and_comm

theorem overlaps_eq_false_iff (net : Ipv6Net) :
    alloc.overlaps net = false ↔
      ∀ vmId existing, alloc.allocations.lookup vmId = some existing →
        rangesMeet net existing = false := by
  unfold overlaps
  rw [List.any_eq_false]
  constructor
  · intro hfree vmId existing hlookup
    have hmem := AList.mem_lookup_iff.mp hlookup
    simpa using hfree ⟨vmId, existing⟩ hmem
  · intro hfree entry hentry
    have hlookup : alloc.allocations.lookup entry.1 = some entry.2 :=
      AList.mem_lookup_iff.mpr hentry
    simpa using hfree entry.1 entry.2 hlookup

end Ipv6RangeAllocator

end AlephCvm.Net
