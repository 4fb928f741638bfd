import AlephCvm.NumaAllocator
import AlephCvm.GrantLedger
import AlephCvm.StepRuns

/-!
# The NUMA ledger

`VmManager` pairs every successful `allocate` with one later `release` that
passes back the node and page size of the placement together with the
machine's vCPUs and memory.  The ledger remembers the outstanding placements
and compares the counters of each node with what these placements took.

The counters of a machine without hugepages are the delicate case: its
placement reports 2 MiB pages but charges none, and its release subtracts
them.  The ledger stays balanced along a run exactly when no such release
meets a 2 MiB counter it can lower.
-/

namespace AlephCvm.Numa

open GrantLedger StepRuns

variable {topology : NumaTopology}

/-- A successful allocation that has not been released. -/
structure Grant where
  node : UInt32
  vcpus : UInt32
  memoryMb : UInt32
  usesHugepages : Bool
  hugepageSize : HugePageSize
  deriving DecidableEq

def Grant.pages2m (grant : Grant) : ℕ :=
  if grant.usesHugepages = true ∧ grant.hugepageSize = .size2M then
    (divCeil2 grant.memoryMb).toNat
  else 0

def Grant.pages1g (grant : Grant) : ℕ :=
  if grant.usesHugepages = true ∧ grant.hugepageSize = .size1G then
    (grant.memoryMb / 1024).toNat
  else 0

structure LedgerState (topology : NumaTopology) where
  numa : NumaAllocator topology
  outstanding : Multiset Grant

def LedgerState.initial (topology : NumaTopology) : LedgerState topology where
  numa := .new topology
  outstanding := 0

inductive NumaOp where
  | allocate (vcpus memoryMb : UInt32) (hint : Option UInt32)
      (usesHugepages : Bool)
  | release (grant : Grant)
  deriving DecidableEq

def LedgerState.step (state : LedgerState topology) :
    NumaOp → LedgerState topology
  | .allocate vcpus memoryMb hint usesHugepages =>
      match state.numa.allocate vcpus memoryMb hint usesHugepages with
      | .error _ => state
      | .ok (placement, next) =>
          { numa := next
            outstanding :=
              ⟨placement.node, vcpus, memoryMb, usesHugepages,
                placement.hugepageSize⟩ ::ₘ state.outstanding }
  | .release grant =>
      if grant ∈ state.outstanding then
        { numa := state.numa.release grant.node grant.vcpus grant.memoryMb
            grant.hugepageSize
          outstanding := state.outstanding.erase grant }
      else state

/-- Every counter is the sum of what the outstanding placements took. -/
structure LedgerState.Balanced (state : LedgerState topology) : Prop where
  vcpus : ∀ idx : topology.Index,
    (state.numa.allocatedVcpus idx).toNat =
      total Grant.node (fun grant => grant.vcpus.toNat) state.outstanding
        (topology.nodes.get idx).id
  pages2m : ∀ idx : topology.Index,
    (state.numa.allocated2mPages idx).toNat =
      total Grant.node Grant.pages2m state.outstanding
        (topology.nodes.get idx).id
  pages1g : ∀ idx : topology.Index,
    (state.numa.allocated1gPages idx).toNat =
      total Grant.node Grant.pages1g state.outstanding
        (topology.nodes.get idx).id

/-- The operation releases no pages that were never charged: a released
machine used hugepages, has no memory, or meets an empty 2 MiB counter. -/
def LedgerState.ReleasesCharged (state : LedgerState topology) :
    NumaOp → Prop
  | .allocate _ _ _ _ => True
  | .release grant =>
      grant ∈ state.outstanding →
        grant.usesHugepages = true ∨ grant.memoryMb = 0 ∨
          ∀ idx : topology.Index,
            (topology.nodes.get idx).id = grant.node →
              state.numa.allocated2mPages idx = 0

/-- Outstanding placements lie on the topology, and one without hugepages
was reported as 2 MiB. -/
def LedgerState.Issued (state : LedgerState topology) : Prop :=
  ∀ grant ∈ state.outstanding,
    (∃ idx : topology.Index, grant.node = (topology.nodes.get idx).id) ∧
      (grant.usesHugepages = false → grant.hugepageSize = .size2M)

theorem LedgerState.initial_balanced (topology : NumaTopology) :
    (LedgerState.initial topology).Balanced := by
  constructor <;> intro idx <;>
    simp [LedgerState.initial, NumaAllocator.new]

theorem LedgerState.initial_issued (topology : NumaTopology) :
    (LedgerState.initial topology).Issued := by
  intro grant hgrant
  simp [LedgerState.initial] at hgrant

/-! ## Allocation keeps the balance -/

theorem total_cons_self
    (weight : Grant → ℕ) (grant : Grant) (grants : Multiset Grant)
    {idx : topology.Index} (hnode : grant.node = (topology.nodes.get idx).id) :
    total Grant.node weight (grant ::ₘ grants) (topology.nodes.get idx).id =
      weight grant +
        total Grant.node weight grants (topology.nodes.get idx).id := by
  rw [total_cons, if_pos hnode]

theorem total_cons_other
    (hdistinct : topology.DistinctIds)
    (weight : Grant → ℕ) (grant : Grant) (grants : Multiset Grant)
    {idx other : topology.Index}
    (hnode : grant.node = (topology.nodes.get idx).id) (hne : other ≠ idx) :
    total Grant.node weight (grant ::ₘ grants)
        (topology.nodes.get other).id =
      total Grant.node weight grants (topology.nodes.get other).id := by
  have hid : grant.node ≠ (topology.nodes.get other).id := by
    intro heq
    apply hne
    exact hdistinct.id_injective (heq.symm.trans hnode)
  rw [total_cons, if_neg hid, Nat.zero_add]

/-- A counter raised at one position keeps every position's balance. -/
theorem counter_charge_balanced
    (hdistinct : topology.DistinctIds)
    {counter : topology.Index → UInt32} {amount : UInt32}
    {weight : Grant → ℕ} {grant : Grant} {grants : Multiset Grant}
    {idx : topology.Index}
    (hnode : grant.node = (topology.nodes.get idx).id)
    (hexact : (counter idx + amount).toNat =
      (counter idx).toNat + weight grant)
    (hbalanced : ∀ position : topology.Index,
      (counter position).toNat =
        total Grant.node weight grants (topology.nodes.get position).id)
    (position : topology.Index) :
    (Function.update counter idx (counter idx + amount) position).toNat =
      total Grant.node weight (grant ::ₘ grants)
        (topology.nodes.get position).id := by
  by_cases hposition : position = idx
  · subst position
    rw [Function.update_self, hexact, total_cons_self weight grant grants hnode,
      hbalanced idx, Nat.add_comm]
  · rw [Function.update_of_ne hposition,
      total_cons_other hdistinct weight grant grants hnode hposition]
    exact hbalanced position

theorem LedgerState.Balanced.charge
    (hdistinct : topology.DistinctIds)
    {state : LedgerState topology} (hbalanced : state.Balanced)
    {grant : Grant} {idx : topology.Index}
    (hnode : grant.node = (topology.nodes.get idx).id)
    {next : NumaAllocator topology}
    (hplaced : Placed state.numa grant.vcpus grant.memoryMb
      grant.usesHugepages idx grant.hugepageSize next) :
    LedgerState.Balanced
      { numa := next, outstanding := grant ::ₘ state.outstanding } := by
  obtain ⟨node, vcpus, memoryMb, usesHugepages, hugepageSize⟩ := grant
  cases hplaced with
  | plain hcpus huse =>
      dsimp only at huse
      exact {
        vcpus := counter_charge_balanced hdistinct hnode
          (toNat_add_of_le_satSub hcpus) hbalanced.vcpus
        pages2m := counter_charge_balanced hdistinct hnode
          (by simp [Grant.pages2m, huse]) hbalanced.pages2m
        pages1g := counter_charge_balanced hdistinct hnode
          (by simp [Grant.pages1g]) hbalanced.pages1g }
  | gigantic hcpus huse hpages =>
      dsimp only at huse
      exact {
        vcpus := counter_charge_balanced hdistinct hnode
          (toNat_add_of_le_satSub hcpus) hbalanced.vcpus
        pages2m := counter_charge_balanced hdistinct hnode
          (by simp [Grant.pages2m]) hbalanced.pages2m
        pages1g := counter_charge_balanced hdistinct hnode
          (by
            rw [toNat_add_of_le_satSub hpages]
            simp [Grant.pages1g, huse]) hbalanced.pages1g }
  | huge hcpus huse hpages =>
      dsimp only at huse
      exact {
        vcpus := counter_charge_balanced hdistinct hnode
          (toNat_add_of_le_satSub hcpus) hbalanced.vcpus
        pages2m := counter_charge_balanced hdistinct hnode
          (by
            rw [toNat_add_of_le_satSub hpages]
            simp [Grant.pages2m, huse]) hbalanced.pages2m
        pages1g := counter_charge_balanced hdistinct hnode
          (by simp [Grant.pages1g]) hbalanced.pages1g }

theorem LedgerState.allocate_cases
    (state : LedgerState topology) (vcpus memoryMb : UInt32)
    (hint : Option UInt32) (usesHugepages : Bool) :
    state.step (.allocate vcpus memoryMb hint usesHugepages) = state ∨
      ∃ (idx : topology.Index) (hugepageSize : HugePageSize)
          (next : NumaAllocator topology),
        Placed state.numa vcpus memoryMb usesHugepages idx hugepageSize
          next ∧
        state.step (.allocate vcpus memoryMb hint usesHugepages) =
          { numa := next
            outstanding :=
              ⟨(topology.nodes.get idx).id, vcpus, memoryMb, usesHugepages,
                hugepageSize⟩ ::ₘ state.outstanding } := by
  cases hallocate :
      state.numa.allocate vcpus memoryMb hint usesHugepages with
  | error message =>
      left
      simp [LedgerState.step, hallocate]
  | ok placed =>
      obtain ⟨placement, next⟩ := placed
      obtain ⟨idx, hplacement, hplaced⟩ :=
        NumaAllocator.allocate_placed hallocate
      right
      refine ⟨idx, placement.hugepageSize, next, hplaced, ?_⟩
      simp only [LedgerState.step, hallocate]
      rw [show placement.node = (topology.nodes.get idx).id by
        rw [hplacement]
        rfl]

/-! ## Release and the uncharged pages -/

/-- Lowering a counter by what the released grant took keeps every
position's balance. -/
theorem counter_discharge_balanced
    (hdistinct : topology.DistinctIds)
    {counter : topology.Index → UInt32} {amount : UInt32}
    {weight : Grant → ℕ} {grant : Grant} {grants : Multiset Grant}
    (hgrant : grant ∈ grants) {idx : topology.Index}
    (hnode : grant.node = (topology.nodes.get idx).id)
    (hexact : (counter idx).toNat - amount.toNat =
      (counter idx).toNat - weight grant)
    (hbalanced : ∀ position : topology.Index,
      (counter position).toNat =
        total Grant.node weight grants (topology.nodes.get position).id)
    (position : topology.Index) :
    (Function.update counter idx (satSub (counter idx) amount)
        position).toNat =
      total Grant.node weight (grants.erase grant)
        (topology.nodes.get position).id := by
  by_cases hposition : position = idx
  · subst position
    have htotal := total_erase Grant.node weight hgrant
      (topology.nodes.get idx).id
    rw [if_pos hnode, ← hbalanced idx] at htotal
    rw [Function.update_self, toNat_satSub, hexact]
    omega
  · have hid : grant.node ≠ (topology.nodes.get position).id := by
      intro heq
      exact hposition (hdistinct.id_injective (heq.symm.trans hnode))
    rw [Function.update_of_ne hposition,
      total_erase_of_ne Grant.node weight hgrant hid]
    exact hbalanced position

/-- A counter that the released grant did not weigh on is kept as it is. -/
theorem counter_untouched_balanced
    {counter : topology.Index → UInt32}
    {weight : Grant → ℕ} {grant : Grant} {grants : Multiset Grant}
    (hgrant : grant ∈ grants) (hweight : weight grant = 0)
    (hbalanced : ∀ position : topology.Index,
      (counter position).toNat =
        total Grant.node weight grants (topology.nodes.get position).id)
    (position : topology.Index) :
    (counter position).toNat =
      total Grant.node weight (grants.erase grant)
        (topology.nodes.get position).id := by
  have htotal := total_erase Grant.node weight hgrant
    (topology.nodes.get position).id
  rw [hweight, ite_self, Nat.zero_add] at htotal
  rw [hbalanced position, htotal]

theorem LedgerState.Balanced.discharge
    (hdistinct : topology.DistinctIds)
    {state : LedgerState topology} (hbalanced : state.Balanced)
    {grant : Grant} (hgrant : grant ∈ state.outstanding)
    {idx : topology.Index}
    (hnode : grant.node = (topology.nodes.get idx).id)
    (hexact : grant.hugepageSize = .size2M →
      (state.numa.allocated2mPages idx).toNat -
          (divCeil2 grant.memoryMb).toNat =
        (state.numa.allocated2mPages idx).toNat - grant.pages2m)
    (hplain : grant.usesHugepages = false → grant.hugepageSize = .size2M) :
    LedgerState.Balanced
      { numa := state.numa.discharge idx grant.vcpus grant.memoryMb
          grant.hugepageSize
        outstanding := state.outstanding.erase grant } := by
  cases hsize : grant.hugepageSize with
  | size2M =>
      exact {
        vcpus := counter_discharge_balanced hdistinct hgrant hnode rfl
          hbalanced.vcpus
        pages2m := counter_discharge_balanced hdistinct hgrant hnode
          (hexact hsize) hbalanced.pages2m
        pages1g := counter_untouched_balanced hgrant
          (by simp [Grant.pages1g, hsize]) hbalanced.pages1g }
  | size1G =>
      have huse : grant.usesHugepages = true := by
        by_contra hno
        have := hplain (Bool.eq_false_of_not_eq_true hno)
        rw [hsize] at this
        contradiction
      exact {
        vcpus := counter_discharge_balanced hdistinct hgrant hnode rfl
          hbalanced.vcpus
        pages2m := counter_untouched_balanced hgrant
          (by simp [Grant.pages2m, hsize]) hbalanced.pages2m
        pages1g := counter_discharge_balanced hdistinct hgrant hnode
          (by simp [Grant.pages1g, hsize, huse]) hbalanced.pages1g }

theorem LedgerState.release_eq
    (hdistinct : topology.DistinctIds)
    (state : LedgerState topology) {grant : Grant}
    (hgrant : grant ∈ state.outstanding) {idx : topology.Index}
    (hnode : grant.node = (topology.nodes.get idx).id) :
    state.step (.release grant) =
      { numa := state.numa.discharge idx grant.vcpus grant.memoryMb
          grant.hugepageSize
        outstanding := state.outstanding.erase grant } := by
  have hrelease := NumaAllocator.release_placementOn hdistinct state.numa idx
    grant.vcpus grant.memoryMb grant.hugepageSize
  simp only [LedgerState.step, if_pos hgrant]
  rw [show grant.node =
      (placementOn topology idx grant.hugepageSize).node from hnode, hrelease]

/-- The pages the release subtracts are the pages the grant took exactly when
the grant used hugepages, has no memory, or the counter is already empty. -/
theorem LedgerState.discharge_exact_iff
    {state : LedgerState topology} {grant : Grant}
    (hsize : grant.hugepageSize = .size2M) (idx : topology.Index) :
    (state.numa.allocated2mPages idx).toNat -
          (divCeil2 grant.memoryMb).toNat =
        (state.numa.allocated2mPages idx).toNat - grant.pages2m ↔
      grant.usesHugepages = true ∨ grant.memoryMb = 0 ∨
        state.numa.allocated2mPages idx = 0 := by
  rw [← divCeil2_eq_zero_iff, ← UInt32.toNat_inj, ← UInt32.toNat_inj]
  cases huse : grant.usesHugepages with
  | true => simp [Grant.pages2m, huse, hsize]
  | false =>
      simp only [Grant.pages2m, huse, Bool.false_eq_true, false_and,
        if_false, false_or, UInt32.toNat_zero]
      omega

theorem LedgerState.release_balanced_iff
    (hdistinct : topology.DistinctIds)
    {state : LedgerState topology} (hbalanced : state.Balanced)
    (hissued : state.Issued) {grant : Grant}
    (hgrant : grant ∈ state.outstanding) :
    (state.step (.release grant)).Balanced ↔
      state.ReleasesCharged (.release grant) := by
  obtain ⟨⟨idx, hnode⟩, hplain⟩ := hissued grant hgrant
  have hcharged :
      state.ReleasesCharged (.release grant) ↔
        grant.usesHugepages = true ∨ grant.memoryMb = 0 ∨
          state.numa.allocated2mPages idx = 0 := by
    constructor
    · intro h
      exact (h hgrant).imp_right
        (Or.imp_right fun hempty => hempty idx hnode.symm)
    · intro h _
      refine h.imp_right (Or.imp_right fun hempty position hposition => ?_)
      rw [hdistinct.id_injective (hposition.trans hnode)]
      exact hempty
  rw [LedgerState.release_eq hdistinct state hgrant hnode, hcharged]
  constructor
  · intro hafter
    cases huse : grant.usesHugepages with
    | true => exact Or.inl rfl
    | false =>
        have hsize := hplain huse
        rw [← huse, ← LedgerState.discharge_exact_iff hsize idx]
        have hbefore := hbalanced.pages2m idx
        have htotal := total_erase Grant.node Grant.pages2m hgrant
          (topology.nodes.get idx).id
        have hcounter := hafter.pages2m idx
        rw [if_pos hnode, ← hbefore] at htotal
        simp only [NumaAllocator.discharge, hsize, Function.update_self,
          toNat_satSub] at hcounter
        omega
  · intro hcond
    exact hbalanced.discharge hdistinct hgrant hnode
      (fun hsize => (LedgerState.discharge_exact_iff hsize idx).mpr hcond)
      hplain

/-! ## Runs -/

def LedgerState.Good (state : LedgerState topology) : Prop :=
  state.Balanced ∧ state.Issued

theorem LedgerState.Issued.step
    {state : LedgerState topology} (hissued : state.Issued) (op : NumaOp) :
    (state.step op).Issued := by
  cases op with
  | allocate vcpus memoryMb hint usesHugepages =>
      rcases state.allocate_cases vcpus memoryMb hint usesHugepages with
        hsame | ⟨idx, hugepageSize, next, hplaced, hnext⟩
      · rw [hsame]
        exact hissued
      · rw [hnext]
        intro grant hgrant
        rcases Multiset.mem_cons.mp hgrant with rfl | hold
        · refine ⟨⟨idx, rfl⟩, fun huse => ?_⟩
          cases hplaced with
          | plain => rfl
          | gigantic _ htrue _ =>
              exact absurd (htrue.symm.trans huse) Bool.noConfusion
          | huge => rfl
        · exact hissued grant hold
  | release released =>
      intro grant hgrant
      simp only [LedgerState.step] at hgrant
      split at hgrant
      · exact hissued grant (Multiset.mem_of_mem_erase hgrant)
      · exact hissued grant hgrant

theorem LedgerState.Good.step_balanced_iff
    (hdistinct : topology.DistinctIds)
    (state : LedgerState topology) (op : NumaOp) (hgood : state.Good) :
    (state.step op).Balanced ↔ state.ReleasesCharged op := by
  cases op with
  | allocate vcpus memoryMb hint usesHugepages =>
      refine ⟨fun _ => trivial, fun _ => ?_⟩
      rcases state.allocate_cases vcpus memoryMb hint usesHugepages with
        hsame | ⟨idx, hugepageSize, next, hplaced, hnext⟩
      · rw [hsame]
        exact hgood.1
      · rw [hnext]
        exact hgood.1.charge hdistinct rfl hplaced
  | release grant =>
      by_cases hgrant : grant ∈ state.outstanding
      · exact LedgerState.release_balanced_iff hdistinct hgood.1 hgood.2
          hgrant
      · refine ⟨fun _ h => (hgrant h).elim, fun _ => ?_⟩
        simpa [LedgerState.step, hgrant] using hgood.1

/-- Along every run on a topology with distinct node ids, the counters show
what the outstanding placements took exactly as long as no release subtracts
pages that its placement never charged. -/
theorem numa_ledger_balanced_iff
    (topology : NumaTopology) (hdistinct : topology.DistinctIds)
    (ops : List NumaOp) :
    Along LedgerState.step (fun state op => (state.step op).Balanced)
        (LedgerState.initial topology) ops ↔
      Along LedgerState.step LedgerState.ReleasesCharged
        (LedgerState.initial topology) ops := by
  apply along_iff_of_invariant
    (LedgerState.Good.step_balanced_iff hdistinct)
  · intro state op hgood hcharged
    exact ⟨(LedgerState.Good.step_balanced_iff hdistinct state op hgood).mpr
      hcharged, hgood.2.step op⟩
  · exact ⟨LedgerState.initial_balanced topology,
      LedgerState.initial_issued topology⟩

/-- One node with four CPUs and eight 2 MiB pages. -/
def singleNodeTopology : NumaTopology where
  nodes := [{
    id := 0
    cpus := ⟨[0, 1, 2, 3], by decide⟩
    total2mHugepages := 8
    total1gHugepages := 0
    totalRamMb := 64 }]

theorem numa_ledger_balanced_confidential_and_plain :
    singleNodeTopology.DistinctIds ∧
      Along LedgerState.step (fun state op => (state.step op).Balanced)
        (LedgerState.initial singleNodeTopology)
        [.allocate 1 4 none true, .allocate 1 2 none false,
          .release ⟨0, 1, 4, true, .size2M⟩] := by
  refine ⟨by decide, ?_⟩
  apply (numa_ledger_balanced_iff singleNodeTopology (by decide) _).mpr
  exact ⟨trivial, trivial, fun _ => Or.inl rfl, trivial⟩

/-- A confidential machine takes two pages, a plain one takes none, and
deleting the plain one gives a page of the confidential machine back. -/
theorem numa_ledger_unbalanced_after_plain_release :
    singleNodeTopology.DistinctIds ∧
      ¬ Along LedgerState.step (fun state op => (state.step op).Balanced)
        (LedgerState.initial singleNodeTopology)
        [.allocate 1 4 none true, .allocate 1 2 none false,
          .release ⟨0, 1, 2, false, .size2M⟩] := by
  refine ⟨by decide, ?_⟩
  intro h
  have hpages := h.2.2.1.pages2m ⟨0, by decide⟩
  revert hpages
  decide

end AlephCvm.Numa
