import Mathlib.Data.List.FinRange
import Mathlib.Data.Fin.Basic
import Mathlib.Logic.Function.Basic

/-!
# NUMA placement of virtual machines

Model of `aleph-compute-node/src/numa.rs`.  The allocator packs machines onto
the nodes of a detected topology, tries the nodes in order, prefers 1 GiB
pages for requests that are a multiple of 1024 MiB and falls back to 2 MiB
pages.  Counters and requests are `UInt32`, so additions wrap and the
subtractions are saturating as in the source.

The counters of one node are reached through its position in the topology.
The three vectors of the source become functions on these positions, which
keeps an index out of range from being written down.
-/

namespace AlephCvm.Numa

/-- `u32::saturating_sub`. -/
def satSub (a b : UInt32) : UInt32 :=
  if a ≤ b then 0 else a - b

/-- `u32::div_ceil(2)`, the number of 2 MiB pages behind a memory size. -/
def divCeil2 (memoryMb : UInt32) : UInt32 :=
  if 0 < memoryMb % 2 then memoryMb / 2 + 1 else memoryMb / 2

/-- A `BTreeSet<u32>` of CPU ids, iterated in increasing order. -/
abbrev CpuSet := { cpus : List UInt32 // cpus.Pairwise (· < ·) }

structure NumaNode where
  id : UInt32
  cpus : CpuSet
  total2mHugepages : UInt32
  total1gHugepages : UInt32
  totalRamMb : UInt32
  deriving DecidableEq

structure NumaTopology where
  nodes : List NumaNode
  deriving DecidableEq

def NumaTopology.numNodes (topology : NumaTopology) : ℕ :=
  topology.nodes.length

abbrev NumaTopology.Index (topology : NumaTopology) :=
  Fin topology.nodes.length

def NumaTopology.DistinctIds (topology : NumaTopology) : Prop :=
  (topology.nodes.map NumaNode.id).Nodup

instance (topology : NumaTopology) : Decidable topology.DistinctIds :=
  inferInstanceAs (Decidable (topology.nodes.map NumaNode.id).Nodup)

inductive HugePageSize where
  | size2M
  | size1G
  deriving DecidableEq, Repr

structure NumaPlacement where
  node : UInt32
  cpuset : String
  hugepageSize : HugePageSize
  deriving DecidableEq, Repr

/-! ## Rendering of a CPU set -/

def formatRange (rangeStart rangeEnd : UInt32) : String :=
  if rangeStart = rangeEnd then toString rangeStart
  else s!"{rangeStart}-{rangeEnd}"

def flushRange (result : String) (rangeStart rangeEnd : UInt32) : String :=
  (if result.isEmpty then result else result.push ',') ++
    formatRange rangeStart rangeEnd

def formatCpusetFrom (result : String) (rangeStart rangeEnd : UInt32) :
    List UInt32 → String
  | [] => flushRange result rangeStart rangeEnd
  | cpu :: rest =>
      if cpu = rangeEnd + 1 then
        formatCpusetFrom result rangeStart cpu rest
      else
        formatCpusetFrom (flushRange result rangeStart rangeEnd) cpu cpu rest

def formatCpuset (cpus : CpuSet) : String :=
  match cpus.val with
  | [] => ""
  | first :: rest => formatCpusetFrom "" first first rest

/-! ## The allocator -/

@[ext]
structure NumaAllocator (topology : NumaTopology) where
  allocatedVcpus : topology.Index → UInt32
  allocated2mPages : topology.Index → UInt32
  allocated1gPages : topology.Index → UInt32

variable {topology : NumaTopology}

def NumaAllocator.new (topology : NumaTopology) : NumaAllocator topology where
  allocatedVcpus := fun _ => 0
  allocated2mPages := fun _ => 0
  allocated1gPages := fun _ => 0

/-- The position of a node id, as `iter().position(..)` finds it. -/
def NumaTopology.position (topology : NumaTopology) (node : UInt32) :
    Option topology.Index :=
  (List.finRange topology.nodes.length).find?
    (fun idx => (topology.nodes.get idx).id == node)

/-- The three `+=` of a successful placement. -/
def NumaAllocator.charge
    (numa : NumaAllocator topology) (idx : topology.Index)
    (vcpus pages2m pages1g : UInt32) : NumaAllocator topology where
  allocatedVcpus :=
    Function.update numa.allocatedVcpus idx (numa.allocatedVcpus idx + vcpus)
  allocated2mPages :=
    Function.update numa.allocated2mPages idx
      (numa.allocated2mPages idx + pages2m)
  allocated1gPages :=
    Function.update numa.allocated1gPages idx
      (numa.allocated1gPages idx + pages1g)

def NumaAllocator.availableCpus
    (numa : NumaAllocator topology) (idx : topology.Index) : UInt32 :=
  satSub (UInt32.ofNat (topology.nodes.get idx).cpus.val.length)
    (numa.allocatedVcpus idx)

def NumaAllocator.available1g
    (numa : NumaAllocator topology) (idx : topology.Index) : UInt32 :=
  satSub (topology.nodes.get idx).total1gHugepages (numa.allocated1gPages idx)

def NumaAllocator.available2m
    (numa : NumaAllocator topology) (idx : topology.Index) : UInt32 :=
  satSub (topology.nodes.get idx).total2mHugepages (numa.allocated2mPages idx)

def placementOn (topology : NumaTopology) (idx : topology.Index)
    (hugepageSize : HugePageSize) : NumaPlacement where
  node := (topology.nodes.get idx).id
  cpuset := formatCpuset (topology.nodes.get idx).cpus
  hugepageSize := hugepageSize

/-- The body of the candidate loop: `none` is `continue`. -/
def NumaAllocator.tryNode
    (numa : NumaAllocator topology) (vcpus memoryMb : UInt32)
    (usesHugepages : Bool) (idx : topology.Index) :
    Option (NumaPlacement × NumaAllocator topology) :=
  if numa.availableCpus idx < vcpus then none
  else if usesHugepages = false then
    some (placementOn topology idx .size2M, numa.charge idx vcpus 0 0)
  else if memoryMb % 1024 = 0 ∧ memoryMb / 1024 ≤ numa.available1g idx then
    some (placementOn topology idx .size1G,
      numa.charge idx vcpus 0 (memoryMb / 1024))
  else if divCeil2 memoryMb ≤ numa.available2m idx then
    some (placementOn topology idx .size2M,
      numa.charge idx vcpus (divCeil2 memoryMb) 0)
  else none

def NumaTopology.candidates (topology : NumaTopology) (hint : Option UInt32) :
    Except String (List topology.Index) :=
  match hint with
  | some nodeId =>
      match topology.position nodeId with
      | some idx => .ok [idx]
      | none => .error s!"NUMA node {nodeId} does not exist"
  | none => .ok (List.finRange topology.nodes.length)

/-- A failed call returns before any counter is written, so only a success
carries a new allocator. -/
def NumaAllocator.allocate
    (numa : NumaAllocator topology) (vcpus memoryMb : UInt32)
    (hint : Option UInt32) (usesHugepages : Bool) :
    Except String (NumaPlacement × NumaAllocator topology) :=
  match topology.candidates hint with
  | .error message => .error message
  | .ok candidates =>
      match candidates.findSome?
          (numa.tryNode vcpus memoryMb usesHugepages) with
      | some placed => .ok placed
      | none => .error
          s!"no NUMA node has enough resources for {vcpus} vCPUs and {memoryMb} MB"

/-- The saturating subtractions of `release` at one node. -/
def NumaAllocator.discharge
    (numa : NumaAllocator topology) (idx : topology.Index)
    (vcpus memoryMb : UInt32) (hugepageSize : HugePageSize) :
    NumaAllocator topology :=
  let numa := { numa with
    allocatedVcpus :=
      Function.update numa.allocatedVcpus idx
        (satSub (numa.allocatedVcpus idx) vcpus) }
  match hugepageSize with
  | .size1G => { numa with
      allocated1gPages :=
        Function.update numa.allocated1gPages idx
          (satSub (numa.allocated1gPages idx) (memoryMb / 1024)) }
  | .size2M => { numa with
      allocated2mPages :=
        Function.update numa.allocated2mPages idx
          (satSub (numa.allocated2mPages idx) (divCeil2 memoryMb)) }

def NumaAllocator.release
    (numa : NumaAllocator topology) (node vcpus memoryMb : UInt32)
    (hugepageSize : HugePageSize) : NumaAllocator topology :=
  match topology.position node with
  | some idx => numa.discharge idx vcpus memoryMb hugepageSize
  | none => numa

/-! ## Arithmetic of the counters -/

theorem toNat_satSub (a b : UInt32) :
    (satSub a b).toNat = a.toNat - b.toNat := by
  unfold satSub
  split_ifs with hle
  · rw [UInt32.le_iff_toNat_le] at hle
    simp only [UInt32.toNat_zero]
    omega
  · rw [UInt32.le_iff_toNat_le] at hle
    rw [UInt32.toNat_sub_of_le]
    rw [UInt32.le_iff_toNat_le]
    omega

/-- Room left under the capacity keeps a `u32` addition from wrapping. -/
theorem toNat_add_of_le_satSub
    {capacity used request : UInt32}
    (hroom : request ≤ satSub capacity used) :
    (used + request).toNat = used.toNat + request.toNat := by
  rw [UInt32.le_iff_toNat_le, toNat_satSub] at hroom
  have hcapacity := capacity.toNat_lt
  have hused := used.toNat_lt
  rw [UInt32.toNat_add]
  apply Nat.mod_eq_of_lt
  omega

theorem satSub_add_cancel
    {capacity used request : UInt32}
    (hroom : request ≤ satSub capacity used) :
    satSub (used + request) request = used := by
  apply UInt32.toNat_inj.mp
  rw [toNat_satSub, toNat_add_of_le_satSub hroom]
  omega

theorem toNat_divCeil2 (memoryMb : UInt32) :
    (divCeil2 memoryMb).toNat = (memoryMb.toNat + 1) / 2 := by
  have hlt := memoryMb.toNat_lt
  unfold divCeil2
  split_ifs with hodd
  · rw [UInt32.lt_iff_toNat_lt] at hodd
    simp at hodd ⊢
    omega
  · rw [UInt32.lt_iff_toNat_lt] at hodd
    simp at hodd ⊢
    omega

theorem divCeil2_eq_zero_iff (memoryMb : UInt32) :
    divCeil2 memoryMb = 0 ↔ memoryMb = 0 := by
  rw [← UInt32.toNat_inj, ← UInt32.toNat_inj, toNat_divCeil2,
    UInt32.toNat_zero]
  omega

/-! ## What a successful placement did -/

/-- The three ways in which the candidate loop accepts a node. -/
inductive Placed
    (numa : NumaAllocator topology) (vcpus memoryMb : UInt32)
    (usesHugepages : Bool) (idx : topology.Index) :
    HugePageSize → NumaAllocator topology → Prop
  | plain (hcpus : vcpus ≤ numa.availableCpus idx)
      (huse : usesHugepages = false) :
      Placed numa vcpus memoryMb usesHugepages idx .size2M
        (numa.charge idx vcpus 0 0)
  | gigantic (hcpus : vcpus ≤ numa.availableCpus idx)
      (huse : usesHugepages = true)
      (hpages : memoryMb / 1024 ≤ numa.available1g idx) :
      Placed numa vcpus memoryMb usesHugepages idx .size1G
        (numa.charge idx vcpus 0 (memoryMb / 1024))
  | huge (hcpus : vcpus ≤ numa.availableCpus idx)
      (huse : usesHugepages = true)
      (hpages : divCeil2 memoryMb ≤ numa.available2m idx) :
      Placed numa vcpus memoryMb usesHugepages idx .size2M
        (numa.charge idx vcpus (divCeil2 memoryMb) 0)

theorem NumaAllocator.tryNode_placed
    {numa : NumaAllocator topology} {vcpus memoryMb : UInt32}
    {usesHugepages : Bool} {idx : topology.Index}
    {placement : NumaPlacement} {next : NumaAllocator topology}
    (htry : numa.tryNode vcpus memoryMb usesHugepages idx =
      some (placement, next)) :
    placement = placementOn topology idx placement.hugepageSize ∧
      Placed numa vcpus memoryMb usesHugepages idx
        placement.hugepageSize next := by
  unfold NumaAllocator.tryNode at htry
  split_ifs at htry with hcpus huse h1g h2m
  · simp only [Option.some.injEq, Prod.mk.injEq] at htry
    rcases htry with ⟨rfl, rfl⟩
    exact ⟨rfl, .plain (UInt32.not_lt.mp hcpus) huse⟩
  · simp only [Option.some.injEq, Prod.mk.injEq] at htry
    rcases htry with ⟨rfl, rfl⟩
    exact ⟨rfl, .gigantic (UInt32.not_lt.mp hcpus)
      (Bool.eq_true_of_not_eq_false huse) h1g.2⟩
  · simp only [Option.some.injEq, Prod.mk.injEq] at htry
    rcases htry with ⟨rfl, rfl⟩
    exact ⟨rfl, .huge (UInt32.not_lt.mp hcpus)
      (Bool.eq_true_of_not_eq_false huse) h2m⟩

/-- A successful allocation is the first acceptance of the candidate loop. -/
theorem NumaAllocator.allocate_tryNode
    {numa : NumaAllocator topology} {vcpus memoryMb : UInt32}
    {hint : Option UInt32} {usesHugepages : Bool}
    {placement : NumaPlacement} {next : NumaAllocator topology}
    (hallocate : numa.allocate vcpus memoryMb hint usesHugepages =
      .ok (placement, next)) :
    ∃ idx, numa.tryNode vcpus memoryMb usesHugepages idx =
      some (placement, next) := by
  unfold NumaAllocator.allocate at hallocate
  cases hcandidates : topology.candidates hint with
  | error message => simp [hcandidates] at hallocate
  | ok candidates =>
      simp only [hcandidates] at hallocate
      cases hfound : candidates.findSome?
          (numa.tryNode vcpus memoryMb usesHugepages) with
      | none => simp [hfound] at hallocate
      | some placed =>
          simp only [hfound, Except.ok.injEq] at hallocate
          subst placed
          obtain ⟨idx, _, htry⟩ := List.exists_of_findSome?_eq_some hfound
          exact ⟨idx, htry⟩

/-- Every successful allocation charged exactly one node of the topology and
reported that node's id. -/
theorem NumaAllocator.allocate_placed
    {numa : NumaAllocator topology} {vcpus memoryMb : UInt32}
    {hint : Option UInt32} {usesHugepages : Bool}
    {placement : NumaPlacement} {next : NumaAllocator topology}
    (hallocate : numa.allocate vcpus memoryMb hint usesHugepages =
      .ok (placement, next)) :
    ∃ idx : topology.Index,
      placement = placementOn topology idx placement.hugepageSize ∧
      Placed numa vcpus memoryMb usesHugepages idx
        placement.hugepageSize next := by
  obtain ⟨idx, htry⟩ := NumaAllocator.allocate_tryNode hallocate
  exact ⟨idx, NumaAllocator.tryNode_placed htry⟩

/-! ## Node ids and positions -/

theorem NumaTopology.DistinctIds.id_injective
    (hdistinct : topology.DistinctIds) {first second : topology.Index}
    (hid : (topology.nodes.get first).id = (topology.nodes.get second).id) :
    first = second := by
  have hnodup : (topology.nodes.map NumaNode.id).Nodup := hdistinct
  have hinjective := List.nodup_iff_injective_get.mp hnodup
  have hcast :
      Fin.cast (by simp) first =
        (Fin.cast (by simp) second :
          Fin (topology.nodes.map NumaNode.id).length) := by
    apply hinjective
    simpa using hid
  exact Fin.cast_injective _ hcast

theorem NumaTopology.DistinctIds.position_id
    (hdistinct : topology.DistinctIds) (idx : topology.Index) :
    topology.position (topology.nodes.get idx).id = some idx := by
  cases hfind : topology.position (topology.nodes.get idx).id with
  | none =>
      unfold NumaTopology.position at hfind
      rw [List.find?_eq_none] at hfind
      have hno := hfind idx (List.mem_finRange idx)
      simp at hno
  | some found =>
      unfold NumaTopology.position at hfind
      have hid := List.find?_some hfind
      simp only [beq_iff_eq] at hid
      rw [hdistinct.id_injective hid]

/-- On a topology with distinct ids, releasing what a placement reported
acts on the node the placement charged. -/
theorem NumaAllocator.release_placementOn
    (hdistinct : topology.DistinctIds) (numa : NumaAllocator topology)
    (idx : topology.Index) (vcpus memoryMb : UInt32)
    (hugepageSize : HugePageSize) :
    numa.release (placementOn topology idx hugepageSize).node vcpus memoryMb
        hugepageSize =
      numa.discharge idx vcpus memoryMb hugepageSize := by
  unfold NumaAllocator.release placementOn
  rw [hdistinct.position_id idx]

theorem satSub_eq_self_iff (used pages : UInt32) :
    satSub used pages = used ↔ pages = 0 ∨ used = 0 := by
  rw [← UInt32.toNat_inj, toNat_satSub, ← UInt32.toNat_inj,
    ← UInt32.toNat_inj]
  simp only [UInt32.toNat_zero]
  omega

/-- Releasing a placement right after it was made restores the counters,
except that a plain machine also takes the 2 MiB pages of its memory size
from the counter that it never charged. -/
theorem NumaAllocator.release_allocate_eq_iff
    (hdistinct : topology.DistinctIds) {numa : NumaAllocator topology}
    {vcpus memoryMb : UInt32} {hint : Option UInt32} {usesHugepages : Bool}
    {placement : NumaPlacement} {next : NumaAllocator topology}
    (hallocate : numa.allocate vcpus memoryMb hint usesHugepages =
      .ok (placement, next)) :
    next.release placement.node vcpus memoryMb placement.hugepageSize =
        numa ↔
      usesHugepages = true ∨ memoryMb = 0 ∨
        ∀ idx, topology.position placement.node = some idx →
          numa.allocated2mPages idx = 0 := by
  obtain ⟨idx, hplacement, hplaced⟩ :=
    NumaAllocator.allocate_placed hallocate
  generalize placement.hugepageSize = hugepageSize at hplacement hplaced
  subst hplacement
  have hposition : topology.position
      (placementOn topology idx hugepageSize).node = some idx :=
    hdistinct.position_id idx
  rw [NumaAllocator.release_placementOn hdistinct, hposition]
  cases hplaced with
  | plain hcpus huse =>
      have hback := satSub_add_cancel hcpus
      simp only [NumaAllocator.discharge, NumaAllocator.charge, huse,
        Function.update_self, hback, Function.update_idem,
        Function.update_eq_self, UInt32.add_zero, Bool.false_eq_true,
        false_or, Option.some.injEq, forall_eq']
      rw [← divCeil2_eq_zero_iff memoryMb, ← satSub_eq_self_iff]
      constructor
      · intro heq
        have hcounter :=
          congrFun (congrArg NumaAllocator.allocated2mPages heq) idx
        simpa using hcounter
      · intro heq
        rw [heq, Function.update_eq_self]
  | gigantic hcpus huse hpages =>
      have hback := satSub_add_cancel hcpus
      have hpagesBack := satSub_add_cancel hpages
      simp [NumaAllocator.discharge, NumaAllocator.charge, huse, hback,
        hpagesBack]
  | huge hcpus huse hpages =>
      have hback := satSub_add_cancel hcpus
      have hpagesBack := satSub_add_cancel hpages
      simp [NumaAllocator.discharge, NumaAllocator.charge, huse, hback,
        hpagesBack]

end AlephCvm.Numa
