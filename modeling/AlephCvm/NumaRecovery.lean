import AlephCvm.NumaLedger
import AlephCvm.VmRecovery
import AlephCvm.VmRegistry

/-!
# The NUMA counters of recovered machines

`recover_vms` charges the counters for the machines whose unit is active and
keeps the node of every machine in its handle.  `delete_vm` looks only at the
handle's node when it releases, and subtracts what the handle records.

The counters of a node are compared with the total weight of the machines
placed on it.  `counter_released_iff` is the rule for one counter: after the
release it shows the total of the remaining machines exactly when the amount
that was subtracted is the weight of the removed one.
-/

namespace AlephCvm.Vm

open ResultContext StepRuns TableFolds GrantLedger AlephCvm.Tee
open AlephCvm.Numa AlephCvm.Net AlephCvm.Nft AlephCvm.Qemu

variable {cfg : NodeConfig}

/-! ## Totals over machines -/

/-- The total weight of the machines on the node at a position. -/
def placedTotal (cfg : NodeConfig) (weight : VmHandle → ℕ)
    (handles : Multiset VmHandle) (idx : cfg.topology.Index) : ℕ :=
  total VmHandle.numaNode weight handles
    (some (cfg.topology.nodes.get idx).id)

theorem placedTotal_cons_self
    (weight : VmHandle → ℕ) {handle : VmHandle}
    (handles : Multiset VmHandle) {idx : cfg.topology.Index}
    (hnode : handle.numaNode = some (cfg.topology.nodes.get idx).id) :
    placedTotal cfg weight (handle ::ₘ handles) idx =
      weight handle + placedTotal cfg weight handles idx := by
  rw [placedTotal, total_cons, if_pos hnode]
  rfl

theorem placedTotal_cons_other
    (weight : VmHandle → ℕ) {handle : VmHandle}
    (handles : Multiset VmHandle) {idx : cfg.topology.Index}
    (hnode : handle.numaNode ≠ some (cfg.topology.nodes.get idx).id) :
    placedTotal cfg weight (handle ::ₘ handles) idx =
      placedTotal cfg weight handles idx := by
  rw [placedTotal, total_cons, if_neg hnode, Nat.zero_add]
  rfl

theorem placedTotal_cons_of_zero
    {weight : VmHandle → ℕ} {handle : VmHandle}
    (handles : Multiset VmHandle) (idx : cfg.topology.Index)
    (hzero : weight handle = 0) :
    placedTotal cfg weight (handle ::ₘ handles) idx =
      placedTotal cfg weight handles idx := by
  rw [placedTotal, total_cons, hzero, ite_self, Nat.zero_add]
  rfl

/-- The handle is on no node of the topology but the one at the position. -/
theorem numaNode_ne_of_position
    {handle : VmHandle} {node : UInt32} {idx other : cfg.topology.Index}
    (hnode : handle.numaNode = some node)
    (hposition : cfg.topology.position node = some idx)
    (hne : other ≠ idx) :
    handle.numaNode ≠ some (cfg.topology.nodes.get other).id := by
  intro heq
  rw [hnode, Option.some.injEq] at heq
  rw [heq, cfg.distinct_ids.position_id other, Option.some.injEq]
    at hposition
  exact hne hposition

theorem id_of_position
    {node : UInt32} {idx : cfg.topology.Index}
    (hposition : cfg.topology.position node = some idx) :
    (cfg.topology.nodes.get idx).id = node := by
  unfold NumaTopology.position at hposition
  have hfound := List.find?_some hposition
  simpa using hfound

theorem numaNode_ne_of_position_none
    {handle : VmHandle} {node : UInt32} (idx : cfg.topology.Index)
    (hnode : handle.numaNode = some node)
    (hposition : cfg.topology.position node = none) :
    handle.numaNode ≠ some (cfg.topology.nodes.get idx).id := by
  intro heq
  rw [hnode, Option.some.injEq] at heq
  rw [heq, cfg.distinct_ids.position_id idx] at hposition
  cases hposition

/-- One counter after a release shows the total of the other machines if and
only if the subtracted amount counts like the weight of the removed one. -/
theorem counter_released_iff
    {counter : cfg.topology.Index → UInt32} {weight : VmHandle → ℕ}
    {handle : VmHandle} {rest : Multiset VmHandle} {node : UInt32}
    {idx : cfg.topology.Index} (amount : UInt32)
    (hnode : handle.numaNode = some node)
    (hposition : cfg.topology.position node = some idx)
    (hbalanced : ∀ position, (counter position).toNat =
      placedTotal cfg weight (handle ::ₘ rest) position) :
    (∀ position, (Function.update counter idx
        (satSub (counter idx) amount) position).toNat =
          placedTotal cfg weight rest position) ↔
      (counter idx).toNat - amount.toNat =
        (counter idx).toNat - weight handle := by
  have hid : handle.numaNode = some (cfg.topology.nodes.get idx).id := by
    rw [hnode, id_of_position hposition]
  have hat := hbalanced idx
  rw [placedTotal_cons_self weight rest hid] at hat
  constructor
  · intro hafter
    have hcounter := hafter idx
    rw [Function.update_self, toNat_satSub] at hcounter
    omega
  · intro hamount position
    by_cases hsame : position = idx
    · subst hsame
      rw [Function.update_self, toNat_satSub, hamount]
      omega
    · have hother := numaNode_ne_of_position hnode hposition hsame
      rw [Function.update_of_ne hsame, hbalanced position,
        placedTotal_cons_other weight rest hother]

theorem weight_le_counter
    {counter : cfg.topology.Index → UInt32} {weight : VmHandle → ℕ}
    {handle : VmHandle} {rest : Multiset VmHandle} {node : UInt32}
    {idx : cfg.topology.Index}
    (hnode : handle.numaNode = some node)
    (hposition : cfg.topology.position node = some idx)
    (hbalanced : ∀ position, (counter position).toNat =
      placedTotal cfg weight (handle ::ₘ rest) position) :
    weight handle ≤ (counter idx).toNat := by
  have hid : handle.numaNode = some (cfg.topology.nodes.get idx).id := by
    rw [hnode, id_of_position hposition]
  rw [hbalanced idx, placedTotal_cons_self weight rest hid]
  exact Nat.le_add_right _ _

/-! ## Deletions after a recovery -/

def VmHandle.runningVcpus (handle : VmHandle) : ℕ :=
  if handle.state = .running then handle.config.vcpus.toNat else 0

def VmHandle.runningPages2m (handle : VmHandle) : ℕ :=
  if handle.state = .running then (divCeil2 handle.config.memoryMb).toNat
  else 0

/-- The page size a deletion releases. -/
def VmHandle.recordedSize (handle : VmHandle) : HugePageSize :=
  handle.config.hugepageSize.getD .size2M

/-- The counters show the running ones of the machines on each node. -/
structure RunningCharged (numa : NumaAllocator cfg.topology)
    (handles : Multiset VmHandle) : Prop where
  vcpus : ∀ idx, (numa.allocatedVcpus idx).toNat =
    placedTotal cfg VmHandle.runningVcpus handles idx
  pages2m : ∀ idx, (numa.allocated2mPages idx).toNat =
    placedTotal cfg VmHandle.runningPages2m handles idx

def Node.RunningCharged (node : Node cfg) : Prop :=
  Vm.RunningCharged node.numa (values node.vms)

def Node.deleteStep (node : Node cfg) (op : DeleteCalls × String) :
    Node cfg :=
  (node.deleteVm op.1 op.2).2

/-- A running machine recorded 2 MiB pages; the release of a stopped one
finds nothing that it could take from the others. -/
def ReleaseCharged (numa : NumaAllocator cfg.topology)
    (handle : VmHandle) : Prop :=
  ∀ numaNode idx, handle.numaNode = some numaNode →
    cfg.topology.position numaNode = some idx →
      match handle.state with
      | .running =>
          handle.recordedSize = .size2M ∨ handle.config.memoryMb = 0
      | .stopped =>
          (handle.config.vcpus = 0 ∨ numa.allocatedVcpus idx = 0) ∧
            (handle.recordedSize = .size1G ∨ handle.config.memoryMb = 0 ∨
              numa.allocated2mPages idx = 0)

def Node.ReleasesOnlyCharged (node : Node cfg)
    (op : DeleteCalls × String) : Prop :=
  ∀ handle, node.vms.lookup op.2 = some handle →
    ReleaseCharged node.numa handle

theorem Node.deleteHandle_numa
    (node : Node cfg) (calls : DeleteCalls) (id : String)
    (handle : VmHandle) :
    (node.deleteHandle calls id handle).numa =
      releaseNuma node.numa handle := by
  unfold Node.deleteHandle
  have hfiles := fun next : Node cfg =>
    (next.removeReservations_sameHost calls.cleanup handle.config.vmId
      handle.ipv6.isSome).numa
  rw [hfiles]
  split_ifs
  · rw [(Node.releaseIpv6_sameHost _ _).numa]
    rfl
  · rfl

/-- The 2 MiB pages that a release with this page size subtracts. -/
def releasedPages2m (memoryMb : UInt32) : HugePageSize → UInt32
  | .size2M => divCeil2 memoryMb
  | .size1G => 0

theorem discharge_allocatedVcpus
    (numa : NumaAllocator cfg.topology) (idx : cfg.topology.Index)
    (vcpus memoryMb : UInt32) (hugepageSize : HugePageSize) :
    (numa.discharge idx vcpus memoryMb hugepageSize).allocatedVcpus =
      Function.update numa.allocatedVcpus idx
        (satSub (numa.allocatedVcpus idx) vcpus) := by
  cases hugepageSize <;> rfl

theorem discharge_allocated2mPages
    (numa : NumaAllocator cfg.topology) (idx : cfg.topology.Index)
    (vcpus memoryMb : UInt32) (hugepageSize : HugePageSize) :
    (numa.discharge idx vcpus memoryMb hugepageSize).allocated2mPages =
      Function.update numa.allocated2mPages idx
        (satSub (numa.allocated2mPages idx)
          (releasedPages2m memoryMb hugepageSize)) := by
  cases hugepageSize with
  | size2M => rfl
  | size1G =>
      have hsame : satSub (numa.allocated2mPages idx) 0 =
          numa.allocated2mPages idx := by
        rw [satSub_eq_self_iff]
        exact .inl rfl
      simp only [NumaAllocator.discharge, releasedPages2m, hsame,
        Function.update_eq_self]

/-- The amounts subtracted count like the weights exactly under the
condition. -/
theorem released_amounts_iff
    {handle : VmHandle} {vcpus pages2m : UInt32}
    (hvcpus : handle.runningVcpus ≤ vcpus.toNat)
    (hpages : handle.runningPages2m ≤ pages2m.toNat) :
    (vcpus.toNat - handle.config.vcpus.toNat =
        vcpus.toNat - handle.runningVcpus ∧
      pages2m.toNat - (releasedPages2m handle.config.memoryMb
          handle.recordedSize).toNat =
        pages2m.toNat - handle.runningPages2m) ↔
      match handle.state with
      | .running =>
          handle.recordedSize = .size2M ∨ handle.config.memoryMb = 0
      | .stopped =>
          (handle.config.vcpus = 0 ∨ vcpus = 0) ∧
            (handle.recordedSize = .size1G ∨ handle.config.memoryMb = 0 ∨
              pages2m = 0) := by
  have hzero : handle.config.memoryMb = 0 ↔
      (divCeil2 handle.config.memoryMb).toNat = 0 := by
    rw [← divCeil2_eq_zero_iff, ← UInt32.toNat_inj]
    rfl
  have hnone : ∀ value : UInt32, value = 0 ↔ value.toNat = 0 := by
    intro value
    rw [← UInt32.toNat_inj]
    rfl
  rw [hzero, hnone handle.config.vcpus, hnone vcpus, hnone pages2m]
  unfold VmHandle.runningVcpus at hvcpus ⊢
  unfold VmHandle.runningPages2m at hpages ⊢
  cases hstate : handle.state with
  | running =>
      simp only [hstate, if_true] at hvcpus hpages ⊢
      cases hsize : handle.recordedSize with
      | size2M => simp [releasedPages2m]
      | size1G =>
          simp only [releasedPages2m, UInt32.toNat_zero, reduceCtorEq,
            false_or, true_and]
          omega
  | stopped =>
      simp only [reduceCtorEq, if_false]
      cases hsize : handle.recordedSize with
      | size2M =>
          simp only [releasedPages2m, reduceCtorEq, false_or]
          omega
      | size1G =>
          simp only [releasedPages2m, UInt32.toNat_zero, true_or, and_true]
          omega

/-- A handle on no node of the topology weighs on no counter. -/
theorem released_elsewhere
    {counter : cfg.topology.Index → UInt32} {weight : VmHandle → ℕ}
    {handle : VmHandle} {rest : Multiset VmHandle}
    (hother : ∀ idx : cfg.topology.Index,
      handle.numaNode ≠ some (cfg.topology.nodes.get idx).id)
    (hbalanced : ∀ position, (counter position).toNat =
      placedTotal cfg weight (handle ::ₘ rest) position) :
    ∀ position, (counter position).toNat =
      placedTotal cfg weight rest position := by
  intro position
  rw [hbalanced position, placedTotal_cons_other weight rest
    (hother position)]

/-- A handle is on no node of the topology and releases nothing, or it is on
one and releases there what it records. -/
theorem releaseNuma_cases
    (numa : NumaAllocator cfg.topology) (handle : VmHandle) :
    (releaseNuma numa handle = numa ∧
      (∀ idx : cfg.topology.Index, handle.numaNode ≠
        some (cfg.topology.nodes.get idx).id) ∧
      ∀ node idx, handle.numaNode = some node →
        cfg.topology.position node ≠ some idx) ∨
    ∃ node idx, handle.numaNode = some node ∧
      cfg.topology.position node = some idx ∧
      releaseNuma numa handle = numa.discharge idx handle.config.vcpus
        handle.config.memoryMb handle.recordedSize := by
  unfold releaseNuma
  cases hnode : handle.numaNode with
  | none =>
      refine .inl ⟨rfl, ?_, ?_⟩
      · intro idx
        exact (Option.some_ne_none _).symm
      · intro node idx hsome
        cases hsome
  | some node =>
      simp only [NumaAllocator.release]
      cases hposition : cfg.topology.position node with
      | none =>
          refine .inl ⟨rfl, ?_, ?_⟩
          · intro idx
            rw [← hnode]
            exact numaNode_ne_of_position_none idx hnode hposition
          · intro found idx hfound hat
            rw [Option.some.injEq] at hfound
            rw [← hfound, hposition] at hat
            cases hat
      | some idx => exact .inr ⟨node, idx, rfl, hposition, rfl⟩

theorem releaseNuma_charged_iff
    {numa : NumaAllocator cfg.topology} {handle : VmHandle}
    {rest : Multiset VmHandle}
    (hcharged : RunningCharged numa (handle ::ₘ rest)) :
    RunningCharged (releaseNuma numa handle) rest ↔
      ReleaseCharged numa handle := by
  have hvcpus := hcharged.vcpus
  have hpages := hcharged.pages2m
  rcases releaseNuma_cases numa handle with
    ⟨hsame, hother, hnowhere⟩ | ⟨node, idx, hnode, hposition, hreleased⟩
  · rw [hsame]
    refine iff_of_true ⟨released_elsewhere hother hvcpus,
      released_elsewhere hother hpages⟩ ?_
    intro node idx hnode hposition
    exact (hnowhere node idx hnode hposition).elim
  · have hvcpusLe := weight_le_counter hnode hposition hvcpus
    have hpagesLe := weight_le_counter hnode hposition hpages
    have hamounts := released_amounts_iff hvcpusLe hpagesLe
    have hvcpusIff := counter_released_iff handle.config.vcpus hnode
      hposition hvcpus
    have hpagesIff := counter_released_iff (releasedPages2m
      handle.config.memoryMb handle.recordedSize) hnode hposition hpages
    rw [← discharge_allocatedVcpus _ _ _ handle.config.memoryMb
      handle.recordedSize, ← hreleased] at hvcpusIff
    rw [← discharge_allocated2mPages _ _ handle.config.vcpus, ← hreleased]
      at hpagesIff
    constructor
    · intro hafter found position hfound hat
      rw [hnode, Option.some.injEq] at hfound
      rw [← hfound, hposition, Option.some.injEq] at hat
      rw [← hat]
      exact hamounts.mp ⟨hvcpusIff.mp hafter.vcpus,
        hpagesIff.mp hafter.pages2m⟩
    · intro hcond
      have heq := hamounts.mpr (hcond node idx hnode hposition)
      exact ⟨hvcpusIff.mpr heq.1, hpagesIff.mpr heq.2⟩

theorem Node.deleteStep_charged_iff
    {node : Node cfg} (hcharged : node.RunningCharged)
    (op : DeleteCalls × String) :
    (node.deleteStep op).RunningCharged ↔
      node.ReleasesOnlyCharged op := by
  obtain ⟨calls, id⟩ := op
  unfold Node.deleteStep Node.deleteVm Node.ReleasesOnlyCharged
  cases hlookup : node.vms.lookup id with
  | none => simpa using hcharged
  | some handle =>
      have hvms := (node.deleteHandle_deleted calls id handle).vms
      have hnuma := node.deleteHandle_numa calls id handle
      unfold Node.RunningCharged at hcharged ⊢
      rw [values_erase hlookup] at hcharged
      simp only [Option.some.injEq, forall_eq']
      rw [hnuma, hvms]
      exact releaseNuma_charged_iff hcharged

/-! ## The replay of the allocations -/

/-- The NUMA part of one round of the recovery loop. -/
def replayNuma (calls : RestartCalls) (numa : NumaAllocator cfg.topology)
    (persisted : PersistedVm) : NumaAllocator cfg.topology :=
  if calls.unitActive persisted.config.vmId then restoreNuma numa persisted
  else numa

theorem recoverVms_numa
    (calls : RestartCalls) (persistedVms : List PersistedVm)
    (node : Node cfg) :
    (persistedVms.foldl (Node.recoverVm calls) node).numa =
      run (replayNuma calls) node.numa persistedVms :=
  (List.foldl_hom Node.numa fun _ _ => rfl).symm

/-- The allocation for the machine, if there is one, succeeds. -/
def AllocationSucceeds (calls : RestartCalls)
    (numa : NumaAllocator cfg.topology) (persisted : PersistedVm) : Prop :=
  calls.unitActive persisted.config.vmId = true →
    ∀ node, persisted.numaNode = some node →
      (numa.allocate persisted.config.vcpus persisted.config.memoryMb
        (some node) (isConfidential persisted.config)).isOk = true

theorem allocate_hinted
    {topology : NumaTopology} {numa : NumaAllocator topology}
    {vcpus memoryMb node : UInt32} {usesHugepages : Bool}
    {placed : NumaPlacement × NumaAllocator topology}
    (hok : numa.allocate vcpus memoryMb (some node) usesHugepages =
      .ok placed) :
    ∃ idx, topology.position node = some idx ∧
      numa.tryNode vcpus memoryMb usesHugepages idx = some placed := by
  unfold NumaAllocator.allocate NumaTopology.candidates at hok
  cases hposition : topology.position node with
  | none => simp [hposition] at hok
  | some idx =>
      refine ⟨idx, rfl, ?_⟩
      simp only [hposition, List.findSome?_cons, List.findSome?_nil] at hok
      cases htry : numa.tryNode vcpus memoryMb usesHugepages idx with
      | none => simp [htry] at hok
      | some found =>
          simp only [htry, Except.ok.injEq] at hok
          rw [hok]

/-- Without 1 GiB pages on the node, hugepages are 2 MiB pages.  A machine
without memory is placed on no pages at all. -/
theorem tryNode_without1g
    {topology : NumaTopology} {numa : NumaAllocator topology}
    {vcpus memoryMb : UInt32} {idx : topology.Index}
    {placement : NumaPlacement} {next : NumaAllocator topology}
    (hnone : (topology.nodes.get idx).total1gHugepages = 0)
    (htry : numa.tryNode vcpus memoryMb true idx =
      some (placement, next)) :
    vcpus ≤ numa.availableCpus idx ∧
      divCeil2 memoryMb ≤ numa.available2m idx ∧
      next = numa.charge idx vcpus (divCeil2 memoryMb) 0 := by
  simp only [NumaAllocator.tryNode, Bool.true_eq_false, if_false] at htry
  split_ifs at htry with hcpus h1g h2m
  · simp only [Option.some.injEq, Prod.mk.injEq] at htry
    have hempty : numa.available1g idx = 0 := by
      rw [NumaAllocator.available1g, hnone, ← UInt32.toNat_inj,
        toNat_satSub, UInt32.toNat_zero, Nat.zero_sub]
    have hmemory : memoryMb = 0 := by
      obtain ⟨haligned, hfits⟩ := h1g
      rw [hempty, UInt32.le_iff_toNat_le] at hfits
      rw [← UInt32.toNat_inj] at haligned ⊢
      simp at haligned hfits ⊢
      omega
    subst hmemory
    exact ⟨UInt32.not_lt.mp hcpus, UInt32.zero_le, htry.2.symm⟩
  · simp only [Option.some.injEq, Prod.mk.injEq] at htry
    exact ⟨UInt32.not_lt.mp hcpus, h2m, htry.2.symm⟩

/-- One counter after a charge shows the total with the new machine. -/
theorem counter_charged
    {counter : cfg.topology.Index → UInt32} {weight : VmHandle → ℕ}
    {handle : VmHandle} {rest : Multiset VmHandle} {node amount : UInt32}
    {idx : cfg.topology.Index}
    (hnode : handle.numaNode = some node)
    (hposition : cfg.topology.position node = some idx)
    (hexact : (counter idx + amount).toNat =
      (counter idx).toNat + weight handle)
    (hbalanced : ∀ position, (counter position).toNat =
      placedTotal cfg weight rest position) :
    ∀ position, (Function.update counter idx (counter idx + amount)
      position).toNat =
        placedTotal cfg weight (handle ::ₘ rest) position := by
  have hid : handle.numaNode = some (cfg.topology.nodes.get idx).id := by
    rw [hnode, id_of_position hposition]
  intro position
  by_cases hsame : position = idx
  · subst hsame
    rw [Function.update_self, hexact, placedTotal_cons_self weight rest hid,
      hbalanced position, Nat.add_comm]
  · have hother := numaNode_ne_of_position hnode hposition hsame
    rw [Function.update_of_ne hsame, hbalanced position,
      placedTotal_cons_other weight rest hother]

theorem recoveredHandle_stopped
    (cfg : NodeConfig) {calls : RestartCalls} {persisted : PersistedVm}
    (hinactive : calls.unitActive persisted.config.vmId = false) :
    (recoveredHandle cfg calls persisted).state = .stopped := by
  simp [recoveredHandle, hinactive]

theorem recoveredHandle_running
    (cfg : NodeConfig) {calls : RestartCalls} {persisted : PersistedVm}
    (hactive : calls.unitActive persisted.config.vmId = true) :
    (recoveredHandle cfg calls persisted).state = .running := by
  simp [recoveredHandle, hactive]

/-- No node of the host has 1 GiB pages. -/
def NodeConfig.Without1g (cfg : NodeConfig) : Prop :=
  ∀ idx : cfg.topology.Index,
    (cfg.topology.nodes.get idx).total1gHugepages = 0

theorem replayNuma_charged
    (hwithout : cfg.Without1g) {calls : RestartCalls}
    {numa : NumaAllocator cfg.topology} {handles : Multiset VmHandle}
    {persisted : PersistedVm} (hcharged : RunningCharged numa handles)
    (hconfidential : isConfidential persisted.config = true)
    (hsucceeds : AllocationSucceeds calls numa persisted) :
    RunningCharged (replayNuma calls numa persisted)
      (recoveredHandle cfg calls persisted ::ₘ handles) := by
  unfold replayNuma
  cases hactive : calls.unitActive persisted.config.vmId with
  | false =>
      have hstopped := recoveredHandle_stopped cfg hactive
      have hvcpus : (recoveredHandle cfg calls persisted).runningVcpus =
          0 := by
        simp [VmHandle.runningVcpus, hstopped]
      have hpages : (recoveredHandle cfg calls persisted).runningPages2m =
          0 := by
        simp [VmHandle.runningPages2m, hstopped]
      constructor
      · intro idx
        rw [placedTotal_cons_of_zero handles idx hvcpus]
        exact hcharged.vcpus idx
      · intro idx
        rw [placedTotal_cons_of_zero handles idx hpages]
        exact hcharged.pages2m idx
  | true =>
      have hrunning := recoveredHandle_running cfg hactive
      unfold restoreNuma
      cases hnode : persisted.numaNode with
      | none =>
          have hother : ∀ idx : cfg.topology.Index,
              (recoveredHandle cfg calls persisted).numaNode ≠
                some (cfg.topology.nodes.get idx).id := by
            intro idx
            simp [recoveredHandle, hnode]
          constructor
          · intro idx
            rw [placedTotal_cons_other _ _ (hother idx)]
            exact hcharged.vcpus idx
          · intro idx
            rw [placedTotal_cons_other _ _ (hother idx)]
            exact hcharged.pages2m idx
      | some node =>
          have hok := hsucceeds hactive node hnode
          have hplaced : (recoveredHandle cfg calls persisted).numaNode =
              some node := hnode
          rw [hconfidential] at hok
          simp only [hconfidential, if_true]
          cases hallocate : numa.allocate persisted.config.vcpus
              persisted.config.memoryMb (some node) true with
          | error message =>
              rw [hallocate] at hok
              cases hok
          | ok placed =>
              obtain ⟨idx, hposition, htry⟩ := allocate_hinted hallocate
              obtain ⟨hcpus, hpages, hnext⟩ :=
                tryNode_without1g (hwithout idx) htry
              simp only [hnext]
              constructor
              · refine counter_charged hplaced hposition ?_ hcharged.vcpus
                rw [toNat_add_of_le_satSub hcpus, VmHandle.runningVcpus,
                  if_pos hrunning]
                rfl
              · refine counter_charged hplaced hposition ?_
                  hcharged.pages2m
                rw [toNat_add_of_le_satSub hpages, VmHandle.runningPages2m,
                  if_pos hrunning]
                rfl

/-- By induction on the list of files: the replay charges for the running
machines of the list on top of those that were charged before. -/
theorem run_replayNuma_charged
    (hwithout : cfg.Without1g) {calls : RestartCalls}
    {numa : NumaAllocator cfg.topology} {handles : Multiset VmHandle}
    {persistedVms : List PersistedVm}
    (hcharged : RunningCharged numa handles)
    (hconfidential : ∀ persisted ∈ persistedVms,
      isConfidential persisted.config = true)
    (hsucceed : Along (replayNuma calls) (AllocationSucceeds calls) numa
      persistedVms) :
    RunningCharged (run (replayNuma calls) numa persistedVms)
      (Multiset.ofList (persistedVms.map (recoveredHandle cfg calls)) +
        handles) := by
  induction persistedVms generalizing numa handles with
  | nil => simpa [run] using hcharged
  | cons persisted rest ih =>
      have hhead := replayNuma_charged hwithout hcharged
        (hconfidential persisted List.mem_cons_self) hsucceed.1
      have hrest := ih hhead
        (fun other hother =>
          hconfidential other (List.mem_cons_of_mem persisted hother))
        hsucceed.2
      rw [List.map_cons, ← Multiset.cons_coe, Multiset.cons_add]
      rw [Multiset.add_cons] at hrest
      exact hrest

theorem runningCharged_new :
    RunningCharged (NumaAllocator.new cfg.topology) 0 := by
  constructor <;> intro idx <;> simp [NumaAllocator.new, placedTotal]

theorem Node.restart_runningCharged
    (hwithout : cfg.Without1g) {node : Node cfg}
    (hnamed : FilesNamed node.stateDir) {calls : RestartCalls}
    (hconfidential : ∀ name persisted,
      node.stateDir.lookup name = some persisted →
        isConfidential persisted.config = true)
    (hsucceed : Along (replayNuma calls) (AllocationSucceeds calls)
      (.new cfg.topology) (loadedVms calls node.stateDir)) :
    (node.restart calls).RunningCharged := by
  have hloaded : ∀ persisted ∈ loadedVms calls node.stateDir,
      isConfidential persisted.config = true := by
    intro persisted hmem
    obtain ⟨name, hfile⟩ := exists_file_of_mem_loadedVms hmem
    exact hconfidential name persisted hfile
  have hcharged := run_replayNuma_charged hwithout runningCharged_new
    hloaded hsucceed
  have hvalues : values (insertAll (fun persisted => persisted.config.vmId)
      (recoveredHandle cfg calls) (loadedVms calls node.stateDir) ∅) =
        Multiset.ofList ((loadedVms calls node.stateDir).map
          (recoveredHandle cfg calls)) + 0 :=
    values_insertAll_of_nodup (loadedVms_nodup calls hnamed)
      (fun _ _ => AList.lookup_empty _)
  unfold Node.RunningCharged
  rw [Node.restart_eq, recoverVms_numa, recoverVms_vms]
  simp only [Node.fresh]
  rw [hvalues]
  exact hcharged

/-- After a recovery whose allocations succeed, on a host without 1 GiB pages
and with confidential machines only, the counters show the running machines,
and they do so after each of a sequence of deletions if and only if every
deletion releases only what the recovery charged. -/
theorem running_counters_after_deletions_iff
    (hwithout : cfg.Without1g) (node : Node cfg)
    (hnamed : FilesNamed node.stateDir) (calls : RestartCalls)
    (hconfidential : ∀ name persisted,
      node.stateDir.lookup name = some persisted →
        isConfidential persisted.config = true)
    (hsucceed : Along (replayNuma calls) (AllocationSucceeds calls)
      (.new cfg.topology) (loadedVms calls node.stateDir))
    (ops : List (DeleteCalls × String)) :
    (node.restart calls).RunningCharged ∧
      (Along Node.deleteStep
          (fun node op => (node.deleteStep op).RunningCharged)
          (node.restart calls) ops ↔
        Along Node.deleteStep Node.ReleasesOnlyCharged
          (node.restart calls) ops) := by
  have hrecovered := Node.restart_runningCharged hwithout hnamed
    hconfidential hsucceed
  refine ⟨hrecovered, along_iff_of_invariant ?_ ?_ ops hrecovered⟩
  · intro node op hcharged
    exact node.deleteStep_charged_iff hcharged op
  · intro node op hcharged hcond
    exact (node.deleteStep_charged_iff hcharged op).mpr hcond

/-! ## Two saved machines -/

/-- A host with one node of four CPUs and eight 2 MiB pages. -/
def hugepageHost : NodeConfig :=
  { smallHost with
    topology := singleNodeTopology
    distinct_ids := by decide }

/-- The state file of a confidential machine with one CPU and two pages. -/
def savedMachine (vmId : String) (offset : UInt8) : PersistedVm where
  config := { smallConfig vmId .sevSnp with
    memoryMb := 4
    hugepageSize := some .size2M }
  ip := allocateVmIp 0x0A006401 offset
  ipv6 := none
  tapName := tapName vmId
  macAddr := macForVmIp (allocateVmIp 0x0A006401 offset)
  portForwards := []
  createdAtEpoch := 0
  numaNode := some 0

def twoSavedMachines : Node hugepageHost :=
  .fresh hugepageHost ∅ supervisorRuleset ∅
    ((AList.insert (stateFile "vm-b") (savedMachine "vm-b" 2) ∅).insert
      (stateFile "vm-a") (savedMachine "vm-a" 1))

/-- Only the unit of `vm-a` is active. -/
def oneUnitActive : RestartCalls where
  taps := ∅
  ruleset := supervisorRuleset
  hostsdir := ∅
  readDir := .ok ()
  order := .stored
  readable := fun _ => true
  unitActive := fun vmId => vmId == "vm-a"
  nftSetup := fun _ => nftSucceeds
  nftForward := fun _ _ => nftSucceeds

theorem hugepageHost_without1g : hugepageHost.Without1g := by
  intro idx
  have hidx : idx = ⟨0, by decide⟩ := Subsingleton.elim (α := Fin 1) idx _
  rw [hidx]
  rfl

theorem twoSavedMachines_named : FilesNamed twoSavedMachines.stateDir := by
  have hempty : FilesNamed ∅ := by
    intro name persisted hlookup
    rw [AList.lookup_empty] at hlookup
    cases hlookup
  exact (hempty.insert (savedMachine "vm-b" 2)).insert
    (savedMachine "vm-a" 1)

theorem twoSavedMachines_confidential :
    ∀ name persisted,
      twoSavedMachines.stateDir.lookup name = some persisted →
        isConfidential persisted.config = true := by
  intro name persisted hlookup
  rcases lookup_insert_iff.mp hlookup with ⟨_, rfl⟩ | ⟨_, hrest⟩
  · rfl
  · rcases lookup_insert_iff.mp hrest with ⟨_, rfl⟩ | ⟨_, hnone⟩
    · rfl
    · rw [AList.lookup_empty] at hnone
      cases hnone

theorem twoSavedMachines_allocated :
    Along (replayNuma oneUnitActive) (AllocationSucceeds oneUnitActive)
      (.new hugepageHost.topology)
      (loadedVms oneUnitActive twoSavedMachines.stateDir) := by
  have hloaded : loadedVms oneUnitActive twoSavedMachines.stateDir =
      [savedMachine "vm-a" 1, savedMachine "vm-b" 2] := by
    decide +kernel
  rw [hloaded]
  refine ⟨?_, ?_, trivial⟩
  · intro _ node hnode
    cases hnode
    decide +kernel
  · intro hactive
    exact absurd hactive (by decide)

/-- Deleting the running machine keeps the counters. -/
theorem running_counters_after_deleting_running :
    Along Node.deleteStep
      (fun node op => (node.deleteStep op).RunningCharged)
      (twoSavedMachines.restart oneUnitActive)
      [(deleteSucceeds, "vm-a")] := by
  refine (running_counters_after_deletions_iff hugepageHost_without1g
    twoSavedMachines twoSavedMachines_named oneUnitActive
    twoSavedMachines_confidential twoSavedMachines_allocated _).2.mpr
    ⟨?_, trivial⟩
  intro handle hlookup numaNode idx hnode hposition
  have hhandle : ((twoSavedMachines.restart oneUnitActive).vms.lookup
      "vm-a") = some (recoveredHandle hugepageHost oneUnitActive
        (savedMachine "vm-a" 1)) := by
    decide +kernel
  rw [hhandle, Option.some.injEq] at hlookup
  subst hlookup
  exact .inl rfl

/-- Deleting the stopped machine takes the CPU of the running one from the
counter. -/
theorem running_counters_wrong_after_deleting_stopped :
    hugepageHost.Without1g ∧ FilesNamed twoSavedMachines.stateDir ∧
      (∀ name persisted,
        twoSavedMachines.stateDir.lookup name = some persisted →
          isConfidential persisted.config = true) ∧
      Along (replayNuma oneUnitActive) (AllocationSucceeds oneUnitActive)
        (.new hugepageHost.topology)
        (loadedVms oneUnitActive twoSavedMachines.stateDir) ∧
      ¬ Along Node.deleteStep
        (fun node op => (node.deleteStep op).RunningCharged)
        (twoSavedMachines.restart oneUnitActive)
        [(deleteSucceeds, "vm-b")] := by
  refine ⟨hugepageHost_without1g, twoSavedMachines_named,
    twoSavedMachines_confidential, twoSavedMachines_allocated, ?_⟩
  intro h
  have hvcpus := h.1.vcpus ⟨0, by decide⟩
  revert hvcpus
  unfold placedTotal total values
  decide +kernel

end AlephCvm.Vm
