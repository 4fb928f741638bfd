import AlephCvm.Ipv6Ranges

/-!
# Random addresses of a pool

The draws of `random_address` with their arithmetic: the shift that counts
the addresses, the exclusive bound of the drawn offset and the sum with the
first address, each of which panics when it leaves its range.  For the pool of
all addresses the shift does, for a pool of one address there is nothing to
draw, and every other pool is served without a panic.
-/

namespace AlephCvm.Net

open ResultContext

/-- `1u128 << bits`. -/
def shiftOne (bits : ℕ) : Except Failure ℕ :=
  if bits < 128 then .ok (2 ^ bits)
  else .error (.panicked "attempt to shift left with overflow")

/-- `random_range(low..high)`, for a source of numbers of any size. -/
def randomRange (low high draw : ℕ) : Except Failure ℕ :=
  if low < high then .ok (low + draw % (high - low))
  else .error (.panicked "cannot sample empty range")

/-- `first + offset` as `u128`. -/
def addOffset (first offset : ℕ) : Except Failure (BitVec 128) :=
  if first + offset < 2 ^ 128 then .ok (BitVec.ofNat 128 (first + offset))
  else .error (.panicked "attempt to add with overflow")

namespace Ipv6RangeAllocator

variable (alloc : Ipv6RangeAllocator)

def drawOffset (hostCount draw : ℕ) : Except Failure ℕ :=
  if hostCount ≤ 2 ^ 64 - 1 then randomRange 1 hostCount draw
  else randomRange 1 (2 ^ 64 - 1) draw

/-- One round of the loop up to the two tests. -/
def drawNet (hostCount draw : ℕ) : Except Failure Ipv6Net := do
  let offset ← drawOffset hostCount draw
  let addr ← addOffset alloc.pool.network offset
  match Ipv6Net.new addr alloc.defaultPrefix with
  | .error message => .error (.error message)
  | .ok net => .ok net

def drawLoop (hostCount : ℕ) (draws : ℕ → ℕ) :
    List ℕ → Except Failure Ipv6Net
  | [] => .error (.error
      (s!"failed to find a non-overlapping address in pool " ++
        s!"{ipv6NetText alloc.pool} after 100 attempts"))
  | attempt :: rest => do
      let net ← alloc.drawNet hostCount (draws attempt)
      if alloc.contains net && !alloc.overlaps net then return net
      else drawLoop hostCount draws rest

def drawAddress (draws : ℕ → ℕ) : Except Failure Ipv6Net := do
  let hostCount ← shiftOne (128 - alloc.pool.prefixLen.val)
  alloc.drawLoop hostCount draws (List.range 100)

/-- `allocate(vm_id, None)`. -/
def allocateRandom (vmId : String) (draws : ℕ → ℕ) :
    Except Failure (Ipv6Net × Ipv6RangeAllocator) := do
  let net ← alloc.drawAddress draws
  return (net, { alloc with allocations := alloc.allocations.insert vmId net })

/-- A network inside the pool and apart from all others, or an error. -/
def AllocatesSafely :
    Except Failure (Ipv6Net × Ipv6RangeAllocator) → Prop
  | .ok (net, _) => net.addresses ⊆ alloc.pool.addresses ∧
      ∀ vmId existing, alloc.allocations.lookup vmId = some existing →
        Disjoint net.addresses existing.addresses
  | .error (.error _) => True
  | .error (.panicked _) => False

/-! ## The arithmetic of one round -/

variable {alloc}

theorem offset_lt_size (draw : ℕ) (hone : 1 < alloc.pool.size) :
    1 + draw % (alloc.drawBound - 1) < alloc.pool.size := by
  have hmod : draw % (alloc.drawBound - 1) < alloc.drawBound - 1 := by
    apply Nat.mod_lt
    unfold drawBound
    split_ifs <;> omega
  have hbound : alloc.drawBound ≤ alloc.pool.size := by
    unfold drawBound
    split_ifs <;> omega
  omega

/-- The drawn address is in the pool, so the sum does not overflow. -/
theorem addOffset_eq_drawnAddr (draw : ℕ) (hone : 1 < alloc.pool.size) :
    addOffset alloc.pool.network (1 + draw % (alloc.drawBound - 1)) =
      .ok (alloc.drawnAddr draw) := by
  have hoffset := offset_lt_size draw hone
  have hlast := alloc.pool.broadcast_lt
  have hsum : alloc.pool.network + (1 + draw % (alloc.drawBound - 1)) <
      2 ^ 128 := by
    unfold Ipv6Net.broadcast at hlast
    omega
  rw [addOffset, if_pos hsum]
  rfl

theorem drawOffset_eq (alloc : Ipv6RangeAllocator) (draw : ℕ)
    (hone : 1 < alloc.pool.size) :
    drawOffset alloc.pool.size draw =
      .ok (1 + draw % (alloc.drawBound - 1)) := by
  unfold drawOffset drawBound randomRange
  split_ifs with hsmall
  · rfl
  · rfl
  · omega

theorem drawNet_eq (draw : ℕ) (hone : 1 < alloc.pool.size) :
    alloc.drawNet alloc.pool.size draw =
      match Ipv6Net.new (alloc.drawnAddr draw) alloc.defaultPrefix with
      | .error message => .error (.error message)
      | .ok net => .ok net := by
  have hoffset := alloc.drawOffset_eq draw hone
  have haddr := addOffset_eq_drawnAddr draw hone
  simp only [drawNet, hoffset, bind, Except.bind, haddr]

theorem drawLoop_eq (draws : ℕ → ℕ) (attempts : List ℕ)
    (hone : 1 < alloc.pool.size) :
    alloc.drawLoop alloc.pool.size draws attempts =
      alloc.tryDraws draws attempts := by
  induction attempts with
  | nil => rfl
  | cons attempt rest ih =>
      rw [drawLoop, tryDraws, drawNet_eq _ hone, ih]
      cases Ipv6Net.new (alloc.drawnAddr (draws attempt))
        alloc.defaultPrefix <;> rfl

/-- With one address in the pool the first round has nothing to draw. -/
theorem drawLoop_one (alloc : Ipv6RangeAllocator) (draws : ℕ → ℕ)
    (attempt : ℕ) (rest : List ℕ) :
    alloc.drawLoop 1 draws (attempt :: rest) =
      .error (.panicked "cannot sample empty range") :=
  rfl

theorem size_eq (alloc : Ipv6RangeAllocator) :
    alloc.pool.size = 2 ^ (128 - alloc.pool.prefixLen.val) :=
  rfl

theorem one_lt_size (hlength : alloc.pool.prefixLen.val ≠ 128) :
    1 < alloc.pool.size := by
  have hle := alloc.pool.prefixLen.isLt
  rw [size_eq]
  apply Nat.one_lt_two_pow
  omega

/-- The model of the allocator and the one with its arithmetic agree. -/
theorem drawAddress_eq (draws : ℕ → ℕ) :
    alloc.drawAddress draws = alloc.randomAddress draws := by
  have hle := alloc.pool.prefixLen.isLt
  unfold drawAddress randomAddress shiftOne
  by_cases hzero : alloc.pool.prefixLen.val = 0
  · rw [if_pos hzero, hzero]
    rfl
  have hbits : 128 - alloc.pool.prefixLen.val < 128 := by omega
  rw [if_neg hzero, if_pos hbits]
  by_cases hfull : alloc.pool.prefixLen.val = 128
  · have hcount : 2 ^ (128 - alloc.pool.prefixLen.val) = 1 := by
      rw [hfull, Nat.sub_self, Nat.pow_zero]
    have hrange : List.range 100 = 0 :: (List.range 99).map Nat.succ :=
      List.range_succ_eq_map
    have hfirst :=
      alloc.drawLoop_one draws 0 ((List.range 99).map Nat.succ)
    rw [if_pos hfull, hcount, hrange]
    exact hfirst
  · rw [if_neg hfull, ← size_eq]
    exact drawLoop_eq draws _ (one_lt_size hfull)

theorem allocateRandom_eq (vmId : String) (draws : ℕ → ℕ) :
    alloc.allocateRandom vmId draws = alloc.allocate vmId none draws := by
  unfold allocateRandom allocate chooseNet
  rw [drawAddress_eq]
  cases alloc.randomAddress draws <;> rfl

/-! ## Pools that are served without a panic -/

theorem tryDraws_ne_panicked (draws : ℕ → ℕ) (attempts : List ℕ)
    (message : String) :
    alloc.tryDraws draws attempts ≠ .error (.panicked message) := by
  induction attempts with
  | nil => simp [tryDraws]
  | cons attempt rest ih =>
      unfold tryDraws
      split
      · simp
      · split_ifs
        · simp
        · exact ih

theorem randomAddress_panics_iff (alloc : Ipv6RangeAllocator)
    (draws : ℕ → ℕ) :
    (∃ message, alloc.randomAddress draws = .error (.panicked message)) ↔
      alloc.pool.prefixLen.val = 0 ∨ alloc.pool.prefixLen.val = 128 := by
  unfold randomAddress
  split_ifs with hzero hfull
  · exact iff_of_true ⟨_, rfl⟩ (Or.inl hzero)
  · exact iff_of_true ⟨_, rfl⟩ (Or.inr hfull)
  · apply iff_of_false
    · rintro ⟨message, hpanic⟩
      exact tryDraws_ne_panicked draws _ message hpanic
    · exact not_or.mpr ⟨hzero, hfull⟩

theorem accepted_apart {net : Ipv6Net} (hinside : alloc.contains net = true)
    (hfree : alloc.overlaps net = false) :
    net.addresses ⊆ alloc.pool.addresses ∧
      ∀ vmId existing, alloc.allocations.lookup vmId = some existing →
        Disjoint net.addresses existing.addresses := by
  refine ⟨(alloc.contains_iff net).mp hinside, ?_⟩
  intro vmId existing hlookup
  apply (rangesMeet_eq_false_iff net existing).mp
  exact (alloc.overlaps_eq_false_iff net).mp hfree vmId existing hlookup

/-- Whatever is recorded and drawn, a random allocation ends with a network
that may be used or with an error, unless the pool holds every address or a
single one. -/
theorem random_allocation_total_iff (alloc : Ipv6RangeAllocator)
    (vmId : String) (draws : ℕ → ℕ) :
    alloc.AllocatesSafely (alloc.allocateRandom vmId draws) ↔
      alloc.pool.prefixLen.val ≠ 0 ∧ alloc.pool.prefixLen.val ≠ 128 := by
  have hpanics := alloc.randomAddress_panics_iff draws
  rw [← not_or, ← hpanics]
  unfold allocateRandom
  rw [drawAddress_eq]
  cases hdrawn : alloc.randomAddress draws with
  | error failure =>
      cases failure with
      | error message =>
          simp [AllocatesSafely, bind, Except.bind]
      | panicked message =>
          simp [AllocatesSafely, bind, Except.bind]
  | ok net =>
      have hchosen : alloc.chooseNet draws none = .ok net := hdrawn
      have haccepted := alloc.chooseNet_accepted hchosen
      have hsafe := accepted_apart haccepted.1 haccepted.2
      refine iff_of_true hsafe ?_
      rintro ⟨message, hpanic⟩
      cases hpanic

end Ipv6RangeAllocator

/-- The pool `2001:db8::1/128`. -/
def oneAddressPool : Ipv6Net :=
  ⟨0x20010db8000000000000000000000001#128, Fin.last 128⟩

/-- The first random allocation from a pool of one address panics, and so
does the one from the pool of all addresses. -/
theorem extreme_pools_panic :
    let one := Ipv6RangeAllocator.new oneAddressPool 128
    let all := Ipv6RangeAllocator.new ⟨0#128, 0⟩ 128
    ¬ one.AllocatesSafely (one.allocateRandom "vm-a" fun _ => 0) ∧
    ¬ all.AllocatesSafely (all.allocateRandom "vm-a" fun _ => 0) := by
  intro one all
  have hone : one.allocateRandom "vm-a" (fun _ => 0) =
      .error (.panicked "cannot sample empty range") := rfl
  have hall : all.allocateRandom "vm-a" (fun _ => 0) =
      .error (.panicked "attempt to shift left with overflow") := rfl
  rw [hone, hall]
  exact ⟨id, id⟩

end AlephCvm.Net
