import AlephCvm.NumaAllocator
import AlephCvm.StepRuns

/-!
# The NUMA counters and the capacity of the nodes

The calls of `allocate` and `release` come in any order and with any
arguments; a release need not belong to an allocation.  Each counter stays
below the capacity that the availability is computed from, because a call
adds at most what the saturating subtraction has left.
-/

namespace AlephCvm.Numa

open StepRuns

variable {topology : NumaTopology}

inductive NumaCall where
  | allocate (vcpus memoryMb : UInt32) (hint : Option UInt32)
      (usesHugepages : Bool)
  | release (node vcpus memoryMb : UInt32) (hugepageSize : HugePageSize)
  deriving DecidableEq

def NumaAllocator.call (numa : NumaAllocator topology) :
    NumaCall → NumaAllocator topology
  | .allocate vcpus memoryMb hint usesHugepages =>
      match numa.allocate vcpus memoryMb hint usesHugepages with
      | .error _ => numa
      | .ok (_, next) => next
  | .release node vcpus memoryMb hugepageSize =>
      numa.release node vcpus memoryMb hugepageSize

/-- The counters of every node are within its capacity. -/
structure NumaAllocator.WithinCapacity (numa : NumaAllocator topology) :
    Prop where
  vcpus : ∀ idx : topology.Index,
    (numa.allocatedVcpus idx).toNat ≤ (topology.nodes.get idx).cpus.val.length
  pages2m : ∀ idx : topology.Index,
    (numa.allocated2mPages idx).toNat ≤
      (topology.nodes.get idx).total2mHugepages.toNat
  pages1g : ∀ idx : topology.Index,
    (numa.allocated1gPages idx).toNat ≤
      (topology.nodes.get idx).total1gHugepages.toNat

/-- None of the three additions at a node leaves the range of `u32`. -/
structure NumaAllocator.ChargeFits (numa : NumaAllocator topology)
    (idx : topology.Index) (vcpus pages2m pages1g : UInt32) : Prop where
  vcpus : (numa.allocatedVcpus idx).toNat + vcpus.toNat < UInt32.size
  pages2m : (numa.allocated2mPages idx).toNat + pages2m.toNat < UInt32.size
  pages1g : (numa.allocated1gPages idx).toNat + pages1g.toNat < UInt32.size

/-- What a successful allocation adds to the counters does not overflow. -/
def NumaAllocator.AddsWithoutOverflow (numa : NumaAllocator topology) :
    NumaCall → Prop
  | .allocate vcpus memoryMb hint usesHugepages =>
      ∀ placement next,
        numa.allocate vcpus memoryMb hint usesHugepages =
          .ok (placement, next) →
        ∃ idx pages2m pages1g,
          next = numa.charge idx vcpus pages2m pages1g ∧
            numa.ChargeFits idx vcpus pages2m pages1g
  | .release _ _ _ _ => True

theorem NumaAllocator.new_withinCapacity (topology : NumaTopology) :
    (NumaAllocator.new topology).WithinCapacity := by
  constructor <;> intro idx <;> simp [NumaAllocator.new]

/-! ## One counter -/

/-- A counter below the bounds of its nodes stays there when one node is
charged with what is available. -/
theorem counter_charge_le
    {counter : topology.Index → UInt32} {bound : topology.Index → ℕ}
    {idx : topology.Index} {capacity amount : UInt32}
    (hcapacity : capacity.toNat ≤ bound idx)
    (hroom : amount ≤ satSub capacity (counter idx))
    (hbound : ∀ position, (counter position).toNat ≤ bound position)
    (position : topology.Index) :
    (Function.update counter idx (counter idx + amount) position).toNat ≤
      bound position := by
  by_cases hposition : position = idx
  · subst position
    have hsum := toNat_add_of_le_satSub hroom
    have hused := hbound idx
    rw [UInt32.le_iff_toNat_le, toNat_satSub] at hroom
    rw [Function.update_self, hsum]
    omega
  · rw [Function.update_of_ne hposition]
    exact hbound position

theorem counter_discharge_le
    {counter : topology.Index → UInt32} {bound : topology.Index → ℕ}
    (idx : topology.Index) (amount : UInt32)
    (hbound : ∀ position, (counter position).toNat ≤ bound position)
    (position : topology.Index) :
    (Function.update counter idx (satSub (counter idx) amount)
        position).toNat ≤ bound position := by
  by_cases hposition : position = idx
  · subst position
    have hused := hbound idx
    rw [Function.update_self, toNat_satSub]
    omega
  · rw [Function.update_of_ne hposition]
    exact hbound position

theorem zero_le_satSub (capacity used : UInt32) :
    0 ≤ satSub capacity used := by
  rw [UInt32.le_iff_toNat_le]
  simp

/-- The number of CPUs is cut to 32 bits before it is used. -/
theorem toNat_cpuCount_le (idx : topology.Index) :
    (UInt32.ofNat (topology.nodes.get idx).cpus.val.length).toNat ≤
      (topology.nodes.get idx).cpus.val.length := by
  rw [UInt32.toNat_ofNat']
  exact Nat.mod_le _ _

/-! ## One call -/

/-- The amounts that fit into what is available at a node. -/
structure NumaAllocator.HasRoom (numa : NumaAllocator topology)
    (idx : topology.Index) (vcpus pages2m pages1g : UInt32) : Prop where
  vcpus : vcpus ≤ numa.availableCpus idx
  pages2m : pages2m ≤ numa.available2m idx
  pages1g : pages1g ≤ numa.available1g idx

theorem Placed.hasRoom
    {numa next : NumaAllocator topology} {vcpus memoryMb : UInt32}
    {usesHugepages : Bool} {idx : topology.Index}
    {hugepageSize : HugePageSize}
    (hplaced : Placed numa vcpus memoryMb usesHugepages idx hugepageSize
      next) :
    ∃ pages2m pages1g, next = numa.charge idx vcpus pages2m pages1g ∧
      numa.HasRoom idx vcpus pages2m pages1g := by
  cases hplaced with
  | plain hcpus huse =>
      exact ⟨0, 0, rfl, hcpus, zero_le_satSub _ _, zero_le_satSub _ _⟩
  | gigantic hcpus huse hpages =>
      exact ⟨0, memoryMb / 1024, rfl, hcpus, zero_le_satSub _ _, hpages⟩
  | huge hcpus huse hpages =>
      exact ⟨divCeil2 memoryMb, 0, rfl, hcpus, hpages, zero_le_satSub _ _⟩

theorem NumaAllocator.WithinCapacity.charge
    {numa : NumaAllocator topology} (hwithin : numa.WithinCapacity)
    {idx : topology.Index} {vcpus pages2m pages1g : UInt32}
    (hroom : numa.HasRoom idx vcpus pages2m pages1g) :
    (numa.charge idx vcpus pages2m pages1g).WithinCapacity where
  vcpus := counter_charge_le (toNat_cpuCount_le idx) hroom.vcpus
    hwithin.vcpus
  pages2m := counter_charge_le le_rfl hroom.pages2m hwithin.pages2m
  pages1g := counter_charge_le le_rfl hroom.pages1g hwithin.pages1g

theorem NumaAllocator.HasRoom.fits
    {numa : NumaAllocator topology} {idx : topology.Index}
    {vcpus pages2m pages1g : UInt32}
    (hroom : numa.HasRoom idx vcpus pages2m pages1g) :
    numa.ChargeFits idx vcpus pages2m pages1g where
  vcpus := by
    rw [← toNat_add_of_le_satSub hroom.vcpus]
    exact UInt32.toNat_lt_size _
  pages2m := by
    rw [← toNat_add_of_le_satSub hroom.pages2m]
    exact UInt32.toNat_lt_size _
  pages1g := by
    rw [← toNat_add_of_le_satSub hroom.pages1g]
    exact UInt32.toNat_lt_size _

theorem NumaAllocator.WithinCapacity.discharge
    {numa : NumaAllocator topology} (hwithin : numa.WithinCapacity)
    (idx : topology.Index) (vcpus memoryMb : UInt32)
    (hugepageSize : HugePageSize) :
    (numa.discharge idx vcpus memoryMb hugepageSize).WithinCapacity := by
  have hvcpus := counter_discharge_le idx vcpus hwithin.vcpus
  cases hugepageSize with
  | size1G =>
      exact ⟨hvcpus, hwithin.pages2m,
        counter_discharge_le idx (memoryMb / 1024) hwithin.pages1g⟩
  | size2M =>
      exact ⟨hvcpus, counter_discharge_le idx (divCeil2 memoryMb)
        hwithin.pages2m, hwithin.pages1g⟩

theorem NumaAllocator.WithinCapacity.call
    {numa : NumaAllocator topology} (hwithin : numa.WithinCapacity)
    (call : NumaCall) : (numa.call call).WithinCapacity := by
  cases call with
  | allocate vcpus memoryMb hint usesHugepages =>
      cases hallocate : numa.allocate vcpus memoryMb hint usesHugepages with
      | error message =>
          simp only [NumaAllocator.call, hallocate]
          exact hwithin
      | ok placed =>
          obtain ⟨placement, next⟩ := placed
          obtain ⟨idx, _, hplaced⟩ := allocate_placed hallocate
          obtain ⟨pages2m, pages1g, hnext, hroom⟩ := hplaced.hasRoom
          simp only [NumaAllocator.call, hallocate, hnext]
          exact hwithin.charge hroom
  | release node vcpus memoryMb hugepageSize =>
      cases hposition : topology.position node with
      | none =>
          simp only [NumaAllocator.call, NumaAllocator.release, hposition]
          exact hwithin
      | some idx =>
          simp only [NumaAllocator.call, NumaAllocator.release, hposition]
          exact hwithin.discharge idx vcpus memoryMb hugepageSize

theorem NumaAllocator.addsWithoutOverflow
    (numa : NumaAllocator topology) (call : NumaCall) :
    numa.AddsWithoutOverflow call := by
  cases call with
  | allocate vcpus memoryMb hint usesHugepages =>
      intro placement next hallocate
      obtain ⟨idx, _, hplaced⟩ := allocate_placed hallocate
      obtain ⟨pages2m, pages1g, hnext, hroom⟩ := hplaced.hasRoom
      exact ⟨idx, pages2m, pages1g, hnext, hroom.fits⟩
  | release node vcpus memoryMb hugepageSize => trivial

/-- After every sequence of calls the counters are within the capacity of
their nodes, and no addition on the way has overflowed. -/
theorem numa_counters_within_capacity
    (topology : NumaTopology) (calls : List NumaCall) :
    (run NumaAllocator.call (.new topology) calls).WithinCapacity ∧
      Along NumaAllocator.call NumaAllocator.AddsWithoutOverflow
        (.new topology) calls := by
  have hinit := NumaAllocator.new_withinCapacity topology
  have hstep : ∀ (numa : NumaAllocator topology) (call : NumaCall),
      numa.WithinCapacity → (numa.call call).WithinCapacity := by
    intro numa call hwithin
    exact hwithin.call call
  constructor
  · exact run_invariant hstep calls hinit
  · apply along_of_run_invariant hstep _ calls hinit
    intro numa call _
    exact numa.addsWithoutOverflow call

end AlephCvm.Numa
