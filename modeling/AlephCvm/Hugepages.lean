import AlephCvm.CpuLists

/-!
# Reservation of 2 MiB pages

Model of `aleph-compute-node/src/hugepages.rs`.  At start-up every NUMA node
gets a budget of 2 MiB pages out of its share of the memory limit, its RAM
without the headroom and the 1 GiB pages it already has; the budget is written
to the node's file in `/sys` and the count that is read back is kept.
Arithmetic on `u32` wraps as in the release build.

A node for which the code finds no budget keeps the pages that it had before.
The limit is divided by the number of nodes also when it is the sum of their
RAM, so nodes of different sizes do not get their own RAM without the
headroom.
-/

namespace AlephCvm.Numa

open ResultContext
open Qemu (trimText)

/-! ## Budget and files -/

def compute2mBudget
    (nodeRamMb existing1gPages headroomMb perNodeCapMb : UInt32) : UInt32 :=
  let roomMb := satSub nodeRamMb headroomMb
  let nodeCap := if perNodeCapMb ≤ roomMb then perNodeCapMb else roomMb
  let reserved1gMb := existing1gPages * 1024
  satSub nodeCap reserved1gMb / 2

/-- How the file of a node takes a text, and what is read from it after. -/
structure SysfsAnswer where
  write : Except String Unit
  read : Except String String

def hugepagesPath (sysfsBase : String) (nodeId : UInt32) : String :=
  s!"{sysfsBase}/node{nodeId}/hugepages/hugepages-2048kB/nr_hugepages"

def allocate2mPagesOnNode (sysfs : String → SysfsAnswer)
    (sysfsBase : String) (nodeId count : UInt32) : Except String UInt32 := do
  let path := hugepagesPath sysfsBase nodeId
  let answer := sysfs (toString count)
  context s!"failed to write hugepage count to {path}" answer.write
  let text ← context s!"failed to read back hugepage count from {path}"
    answer.read
  context s!"failed to parse hugepage count from {path}"
    (parseU32 (trimText text))

/-! ## The loop over the nodes -/

inductive NodeOutcome where
  | skipped
  | wrote (desired actual : UInt32)
  | failed (desired : UInt32) (message : String)

/-- The count that was asked for, with zero for none. -/
def NodeOutcome.requested : NodeOutcome → UInt32
  | .skipped => 0
  | .wrote desired _ => desired
  | .failed desired _ => desired

/-- A node after its round of the loop. -/
structure NodeAllocation where
  node : NumaNode
  outcome : NodeOutcome

def allocateNode (sysfs : String → SysfsAnswer) (sysfsBase : String)
    (headroomMb perNodeCap : UInt32) (node : NumaNode) : NodeAllocation :=
  let desired := compute2mBudget node.totalRamMb node.total1gHugepages
    headroomMb perNodeCap
  if desired = 0 then ⟨node, .skipped⟩
  else
    match allocate2mPagesOnNode sysfs sysfsBase node.id desired with
    | .ok actual =>
        ⟨{ node with total2mHugepages := actual }, .wrote desired actual⟩
    | .error message => ⟨node, .failed desired message⟩

/-- The counters of the loop with the rounds behind it. -/
structure HugepageRun where
  rounds : List NodeAllocation
  failedNodes : UInt32
  totalNodes : UInt32

def HugepageRun.record (run : HugepageRun) (round : NodeAllocation) :
    HugepageRun :=
  match round.outcome with
  | .skipped => { run with rounds := run.rounds ++ [round] }
  | .wrote _ _ =>
      { run with
        rounds := run.rounds ++ [round]
        totalNodes := run.totalNodes + 1 }
  | .failed _ _ =>
      { rounds := run.rounds ++ [round]
        failedNodes := run.failedNodes + 1
        totalNodes := run.totalNodes + 1 }

def sumRam (nodes : List NumaNode) : UInt32 :=
  nodes.foldl (fun acc node => acc + node.totalRamMb) 0

def perNodeCap (topology : NumaTopology) (globalLimitMb : Option UInt32) :
    UInt32 :=
  globalLimitMb.getD (sumRam topology.nodes) /
    UInt32.ofNat topology.nodes.length

/-- The loop; the answers of `/sys` may depend on how many nodes are done. -/
def allocateNodes (sysfs : ℕ → String → SysfsAnswer) (sysfsBase : String)
    (headroomMb cap : UInt32) (nodes : List NumaNode) : HugepageRun :=
  nodes.foldl
    (fun run node =>
      run.record
        (allocateNode (sysfs run.rounds.length) sysfsBase headroomMb cap node))
    ⟨[], 0, 0⟩

/-- The topology and the result of a call, with what was done for each
node. -/
structure HugepageResult where
  topology : NumaTopology
  rounds : List NodeAllocation
  result : Except String Unit

def allocateHugepages (topology : NumaTopology) (headroomMb : UInt32)
    (globalLimitMb : Option UInt32) (sysfsBase : String)
    (sysfs : ℕ → String → SysfsAnswer) : HugepageResult :=
  if UInt32.ofNat topology.nodes.length = 0 then
    ⟨topology, topology.nodes.map fun node => ⟨node, .skipped⟩, .ok ()⟩
  else
    let run := allocateNodes sysfs sysfsBase headroomMb
      (perNodeCap topology globalLimitMb) topology.nodes
    ⟨⟨run.rounds.map NodeAllocation.node⟩, run.rounds,
      ensure (!(decide (0 < run.failedNodes) &&
          run.failedNodes == run.totalNodes))
        s!"hugepage allocation failed on all {run.failedNodes} NUMA nodes"⟩

/-! ## The arithmetic of the budget -/

/-- RAM without the headroom. -/
def roomMb (headroomMb : UInt32) (node : NumaNode) : ℕ :=
  node.totalRamMb.toNat - headroomMb.toNat

/-- What the 1 GiB pages of a node take. -/
def hugeMb (node : NumaNode) : ℕ := 1024 * node.total1gHugepages.toNat

theorem compute2mBudget_toNat (headroomMb cap : UInt32) (node : NumaNode) :
    (compute2mBudget node.totalRamMb node.total1gHugepages headroomMb
        cap).toNat =
      (min cap.toNat (roomMb headroomMb node) - hugeMb node % 2 ^ 32) / 2 := by
  have hcap : (if cap ≤ satSub node.totalRamMb headroomMb then cap
        else satSub node.totalRamMb headroomMb).toNat =
      min cap.toNat (roomMb headroomMb node) := by
    unfold roomMb
    split_ifs with hle
    · rw [UInt32.le_iff_toNat_le, toNat_satSub] at hle
      rw [Nat.min_eq_left hle]
    · rw [UInt32.le_iff_toNat_le, toNat_satSub] at hle
      rw [toNat_satSub]
      omega
  unfold compute2mBudget
  rw [UInt32.toNat_div, toNat_satSub, hcap, UInt32.toNat_mul, hugeMb,
    Nat.mul_comm 1024]
  rfl

/-! ## The rounds of a run -/

@[simp] theorem record_rounds (run : HugepageRun) (round : NodeAllocation) :
    (run.record round).rounds = run.rounds ++ [round] := by
  unfold HugepageRun.record
  split <;> rfl

theorem allocateNodes_concat (sysfs : ℕ → String → SysfsAnswer)
    (sysfsBase : String) (headroomMb cap : UInt32) (nodes : List NumaNode)
    (node : NumaNode) :
    allocateNodes sysfs sysfsBase headroomMb cap (nodes ++ [node]) =
      let run := allocateNodes sysfs sysfsBase headroomMb cap nodes
      run.record
        (allocateNode (sysfs run.rounds.length) sysfsBase headroomMb cap
          node) := by
  rw [allocateNodes, List.foldl_append]
  rfl

/-- Every node has its own round, with the answers of that moment. -/
theorem allocateNodes_rounds (sysfs : ℕ → String → SysfsAnswer)
    (sysfsBase : String) (headroomMb cap : UInt32) (nodes : List NumaNode) :
    (allocateNodes sysfs sysfsBase headroomMb cap nodes).rounds =
      nodes.mapIdx fun done node =>
        allocateNode (sysfs done) sysfsBase headroomMb cap node := by
  induction nodes using List.reverseRecOn with
  | nil => rfl
  | append_singleton nodes node ih =>
      rw [List.mapIdx_concat, ← ih, allocateNodes_concat, record_rounds, ih,
        List.length_mapIdx]

theorem mapIdx_const {α β : Type} (f : α → β) (values : List α) :
    values.mapIdx (fun _ value => f value) = values.map f := by
  apply List.ext_getElem
  · rw [List.length_map, List.length_mapIdx]
  · intro done hleft hright
    rw [List.getElem_map, List.getElem_mapIdx]

theorem compute2mBudget_zero_cap (ram pages headroomMb : UInt32) :
    compute2mBudget ram pages headroomMb 0 = 0 := by
  simp [compute2mBudget, satSub]

/-- Without nodes to count there is no share, and nothing is written. -/
theorem allocateNode_zero_cap (sysfs : String → SysfsAnswer)
    (sysfsBase : String) (headroomMb : UInt32) (node : NumaNode) :
    allocateNode sysfs sysfsBase headroomMb 0 node = ⟨node, .skipped⟩ := by
  simp [allocateNode, compute2mBudget_zero_cap]

theorem allocateHugepages_rounds (topology : NumaTopology)
    (headroomMb : UInt32) (globalLimitMb : Option UInt32)
    (sysfsBase : String) (sysfs : ℕ → String → SysfsAnswer) :
    (allocateHugepages topology headroomMb globalLimitMb sysfsBase
        sysfs).rounds =
      topology.nodes.mapIdx fun done node =>
        allocateNode (sysfs done) sysfsBase headroomMb
          (perNodeCap topology globalLimitMb) node := by
  unfold allocateHugepages
  split_ifs with hzero
  · have hcap : perNodeCap topology globalLimitMb = 0 := by
      rw [perNodeCap, hzero]
      exact UInt32.div_zero
    simp only [hcap, allocateNode_zero_cap]
    exact (mapIdx_const _ _).symm
  · exact allocateNodes_rounds sysfs sysfsBase headroomMb _ _

theorem allocateHugepages_nodes (topology : NumaTopology)
    (headroomMb : UInt32) (globalLimitMb : Option UInt32)
    (sysfsBase : String) (sysfs : ℕ → String → SysfsAnswer) :
    let run := allocateHugepages topology headroomMb globalLimitMb sysfsBase
      sysfs
    run.topology.nodes = run.rounds.map NodeAllocation.node := by
  intro run
  unfold run allocateHugepages
  split_ifs
  · rw [List.map_map]
    exact (List.map_id _).symm
  · rfl

/-! ## The memory limit and the headroom -/

def NodeOutcome.Honoured : NodeOutcome → Prop
  | .skipped => True
  | .wrote desired actual => actual ≤ desired
  | .failed _ _ => False

/-- Every write succeeded, and no more was read back than was written. -/
def HugepageResult.Honoured (run : HugepageResult) : Prop :=
  ∀ round ∈ run.rounds, round.outcome.Honoured

def allRamMb (nodes : List NumaNode) : ℕ :=
  nodes.foldl (fun acc node => acc + node.totalRamMb.toNat) 0

section Budget

variable (topology : NumaTopology) (globalLimitMb : Option UInt32)
  (headroomMb : UInt32)

/-- The limit that is given, or all RAM. -/
def limitMb : ℕ :=
  match globalLimitMb with
  | some limit => limit.toNat
  | none => allRamMb topology.nodes

def shareMb : ℕ := limitMb topology globalLimitMb / topology.nodes.length

/-- The share with the limit and the number of nodes cut to 32 bits. -/
def wrappedShareMb : ℕ :=
  limitMb topology globalLimitMb % 2 ^ 32 / (topology.nodes.length % 2 ^ 32)

/-- What 2 MiB pages may take on a node. -/
def allowedMb (node : NumaNode) : ℕ :=
  min (shareMb topology globalLimitMb) (roomMb headroomMb node) - hugeMb node

def WithinBudget (node : NumaNode) : Prop :=
  2 * node.total2mHugepages.toNat ≤
    allowedMb topology globalLimitMb headroomMb node

/-- Whatever the files answer, after a successful call whose writes were all
honoured every node is within its budget. -/
def EnforcesBudget : Prop :=
  ∀ sysfsBase sysfs,
    let run := allocateHugepages topology headroomMb globalLimitMb sysfsBase
      sysfs
    run.result = .ok () → run.Honoured →
      ∀ node ∈ run.topology.nodes,
        WithinBudget topology globalLimitMb headroomMb node

/-- The cap of a node that the code computes with. -/
def cappedMb (node : NumaNode) : ℕ :=
  min (wrappedShareMb topology globalLimitMb) (roomMb headroomMb node)

/-- Room for at least one page in what the code computes. -/
def HasBudget (node : NumaNode) : Prop :=
  hugeMb node % 2 ^ 32 + 2 ≤ cappedMb topology globalLimitMb headroomMb node

/-- A node with room has 1 GiB pages whose size fits in 32 bits, and its cap
in whole pages is not above its share; a node without room already fits. -/
structure FitsBudget (node : NumaNode) : Prop where
  huge_lt : HasBudget topology globalLimitMb headroomMb node →
    hugeMb node < 2 ^ 32
  capped_le : HasBudget topology globalLimitMb headroomMb node →
    let capped := cappedMb topology globalLimitMb headroomMb node
    capped - (capped - hugeMb node) % 2 ≤
      min (shareMb topology globalLimitMb) (roomMb headroomMb node)
  within : ¬ HasBudget topology globalLimitMb headroomMb node →
    WithinBudget topology globalLimitMb headroomMb node

end Budget

variable {topology : NumaTopology} {globalLimitMb : Option UInt32}
  {headroomMb : UInt32} {node : NumaNode}

theorem sumRam_toNat (nodes : List NumaNode) :
    (sumRam nodes).toNat = allRamMb nodes % 2 ^ 32 := by
  induction nodes using List.reverseRecOn with
  | nil => rfl
  | append_singleton nodes node ih =>
      have hsum : sumRam (nodes ++ [node]) =
          sumRam nodes + node.totalRamMb := by
        simp [sumRam, List.foldl_append]
      have hall : allRamMb (nodes ++ [node]) =
          allRamMb nodes + node.totalRamMb.toNat := by
        simp [allRamMb, List.foldl_append]
      rw [hsum, hall, UInt32.toNat_add, ih]
      omega

theorem perNodeCap_toNat (topology : NumaTopology)
    (globalLimitMb : Option UInt32) :
    (perNodeCap topology globalLimitMb).toNat =
      wrappedShareMb topology globalLimitMb := by
  have hlimit : (globalLimitMb.getD (sumRam topology.nodes)).toNat =
      limitMb topology globalLimitMb % 2 ^ 32 := by
    cases globalLimitMb with
    | none => exact sumRam_toNat topology.nodes
    | some limit => exact (Nat.mod_eq_of_lt limit.toNat_lt).symm
  rw [perNodeCap, UInt32.toNat_div, hlimit, UInt32.toNat_ofNat']
  rfl

theorem desired_toNat (topology : NumaTopology)
    (globalLimitMb : Option UInt32) (headroomMb : UInt32) (node : NumaNode) :
    (compute2mBudget node.totalRamMb node.total1gHugepages headroomMb
        (perNodeCap topology globalLimitMb)).toNat =
      (cappedMb topology globalLimitMb headroomMb node -
        hugeMb node % 2 ^ 32) / 2 := by
  rw [compute2mBudget_toNat, perNodeCap_toNat, cappedMb]

theorem desired_eq_zero_iff (topology : NumaTopology)
    (globalLimitMb : Option UInt32) (headroomMb : UInt32) (node : NumaNode) :
    compute2mBudget node.totalRamMb node.total1gHugepages headroomMb
        (perNodeCap topology globalLimitMb) = 0 ↔
      ¬ HasBudget topology globalLimitMb headroomMb node := by
  rw [← UInt32.toNat_inj, desired_toNat, UInt32.toNat_zero, HasBudget]
  omega

/-- With room, the count that is written fits exactly when the node does. -/
theorem desired_within_iff
    (hroom : HasBudget topology globalLimitMb headroomMb node) :
    2 * (compute2mBudget node.totalRamMb node.total1gHugepages headroomMb
        (perNodeCap topology globalLimitMb)).toNat ≤
        allowedMb topology globalLimitMb headroomMb node ↔
      FitsBudget topology globalLimitMb headroomMb node := by
  have hram : roomMb headroomMb node < 2 ^ 32 :=
    Nat.lt_of_le_of_lt (Nat.sub_le _ _) node.totalRamMb.toNat_lt
  have hcount := hroom
  rw [desired_toNat, allowedMb]
  unfold HasBudget at hcount
  constructor
  · intro hwithin
    refine ⟨fun _ => ?_, fun _ => ?_, fun hnone => absurd hroom hnone⟩
    · omega
    · intro capped
      omega
  · intro hfits
    have hhuge := hfits.huge_lt hroom
    have hcapped := hfits.capped_le hroom
    simp only at hcapped
    omega

/-- An honoured round brings a node that fits within its budget. -/
theorem allocateNode_within (sysfs : String → SysfsAnswer)
    (sysfsBase : String)
    (hfits : FitsBudget topology globalLimitMb headroomMb node)
    (hhonoured : (allocateNode sysfs sysfsBase headroomMb
      (perNodeCap topology globalLimitMb) node).outcome.Honoured) :
    WithinBudget topology globalLimitMb headroomMb
      (allocateNode sysfs sysfsBase headroomMb
        (perNodeCap topology globalLimitMb) node).node := by
  unfold allocateNode at hhonoured ⊢
  simp only at hhonoured ⊢
  split_ifs at hhonoured ⊢ with hzero
  · rw [desired_eq_zero_iff] at hzero
    exact hfits.within hzero
  · rw [desired_eq_zero_iff, not_not] at hzero
    split at hhonoured
    · rename_i actual hactual
      have hpages := (desired_within_iff hzero).mpr hfits
      have hle : actual ≤ _ := hhonoured
      rw [UInt32.le_iff_toNat_le] at hle
      change 2 * actual.toNat ≤
        allowedMb topology globalLimitMb headroomMb node
      omega
    · exact hhonoured.elim

/-! ## Files that keep what is written -/

/-- A file that gives back the text that was written to it. -/
def echo (text : String) : SysfsAnswer := ⟨.ok (), .ok text⟩

theorem allocate2mPagesOnNode_echo (sysfsBase : String)
    (nodeId count : UInt32) :
    allocate2mPagesOnNode echo sysfsBase nodeId count = .ok count := by
  have htrim : trimText (toString count) = toString count :=
    Qemu.trimText_of_no_whitespace
      (DecimalText.toString_no_whitespace count.toNat)
  simp only [allocate2mPagesOnNode, echo, context, bind, Except.bind, htrim,
    parseU32_toString]

theorem allocateNode_echo (sysfsBase : String) (headroomMb cap : UInt32)
    (node : NumaNode) :
    allocateNode echo sysfsBase headroomMb cap node =
      let desired := compute2mBudget node.totalRamMb node.total1gHugepages
        headroomMb cap
      if desired = 0 then ⟨node, .skipped⟩
      else ⟨{ node with total2mHugepages := desired },
        .wrote desired desired⟩ := by
  simp only [allocateNode, allocate2mPagesOnNode_echo]

theorem record_failedNodes {run : HugepageRun} {round : NodeAllocation}
    (hhonoured : round.outcome.Honoured) :
    (run.record round).failedNodes = run.failedNodes := by
  unfold HugepageRun.record
  split
  · rfl
  · rfl
  · rename_i desired message houtcome
    rw [houtcome] at hhonoured
    exact hhonoured.elim

theorem failedNodes_eq_zero {nodes : List NumaNode}
    {sysfs : ℕ → String → SysfsAnswer} {sysfsBase : String}
    {headroomMb cap : UInt32}
    (hhonoured : ∀ round ∈
      (allocateNodes sysfs sysfsBase headroomMb cap nodes).rounds,
        round.outcome.Honoured) :
    (allocateNodes sysfs sysfsBase headroomMb cap nodes).failedNodes = 0 := by
  induction nodes using List.reverseRecOn with
  | nil => rfl
  | append_singleton nodes node ih =>
      rw [allocateNodes_concat, record_rounds] at hhonoured
      rw [allocateNodes_concat, record_failedNodes]
      · apply ih
        intro round hround
        exact hhonoured round (List.mem_append_left _ hround)
      · exact hhonoured _ (List.mem_append_right _ List.mem_cons_self)

/-- A call whose writes are all honoured succeeds. -/
theorem result_of_honoured (topology : NumaTopology)
    (globalLimitMb : Option UInt32) (headroomMb : UInt32)
    (sysfsBase : String) (sysfs : ℕ → String → SysfsAnswer)
    (hhonoured : (allocateHugepages topology headroomMb globalLimitMb
      sysfsBase sysfs).Honoured) :
    (allocateHugepages topology headroomMb globalLimitMb sysfsBase
      sysfs).result = .ok () := by
  unfold allocateHugepages HugepageResult.Honoured at hhonoured
  unfold allocateHugepages
  split_ifs at hhonoured ⊢
  · rfl
  · have hfailed := failedNodes_eq_zero hhonoured
    simp [hfailed]

theorem honoured_echo (topology : NumaTopology)
    (globalLimitMb : Option UInt32) (headroomMb : UInt32)
    (sysfsBase : String) :
    (allocateHugepages topology headroomMb globalLimitMb sysfsBase
      fun _ => echo).Honoured := by
  intro round hround
  rw [allocateHugepages_rounds, List.mem_mapIdx] at hround
  obtain ⟨done, hdone, rfl⟩ := hround
  rw [allocateNode_echo]
  simp only
  split_ifs
  · trivial
  · exact UInt32.le_refl _

theorem echo_mem_nodes (headroomMb : UInt32) (sysfsBase : String)
    (hnode : node ∈ topology.nodes) :
    (allocateNode echo sysfsBase headroomMb
        (perNodeCap topology globalLimitMb) node).node ∈
      (allocateHugepages topology headroomMb globalLimitMb sysfsBase
        fun _ => echo).topology.nodes := by
  obtain ⟨done, hdone, rfl⟩ := List.mem_iff_getElem.mp hnode
  rw [allocateHugepages_nodes, List.mem_map, allocateHugepages_rounds]
  exact ⟨_, List.mem_mapIdx.mpr ⟨done, hdone, rfl⟩, rfl⟩

/-- Files that keep what is written fill every budget to the last page. -/
theorem fits_of_enforced
    (henforced : EnforcesBudget topology globalLimitMb headroomMb)
    (hnode : node ∈ topology.nodes) :
    FitsBudget topology globalLimitMb headroomMb node := by
  have hgood := honoured_echo topology globalLimitMb headroomMb ""
  have hok := result_of_honoured topology globalLimitMb headroomMb "" _ hgood
  have hwithin := henforced "" (fun _ => echo) hok hgood _
    (echo_mem_nodes headroomMb "" hnode)
  have hdesired := desired_eq_zero_iff topology globalLimitMb headroomMb node
  rw [allocateNode_echo] at hwithin
  by_cases hroom : HasBudget topology globalLimitMb headroomMb node
  · rw [if_neg (hdesired.not.mpr (not_not.mpr hroom))] at hwithin
    exact (desired_within_iff hroom).mp hwithin
  · rw [if_pos (hdesired.mpr hroom)] at hwithin
    exact ⟨fun h => absurd h hroom, fun h => absurd h hroom,
      fun _ => hwithin⟩

/-- The budget is enforced exactly when every node fits: one without room in
what the code computes must already do so with the pages it has. -/
theorem budget_enforced_iff (topology : NumaTopology)
    (globalLimitMb : Option UInt32) (headroomMb : UInt32) :
    EnforcesBudget topology globalLimitMb headroomMb ↔
      ∀ node ∈ topology.nodes,
        FitsBudget topology globalLimitMb headroomMb node := by
  constructor
  · intro henforced node hnode
    exact fits_of_enforced henforced hnode
  · intro hfits sysfsBase sysfs run hok hhonoured node hnode
    rw [allocateHugepages_nodes, List.mem_map] at hnode
    obtain ⟨round, hround, rfl⟩ := hnode
    have hgood := hhonoured round hround
    rw [allocateHugepages_rounds, List.mem_mapIdx] at hround
    obtain ⟨done, hdone, rfl⟩ := hround
    exact allocateNode_within _ _ (hfits _ (List.getElem_mem hdone)) hgood

/-- With fewer than `2 ^ 32` nodes the computed share is not above the
share. -/
theorem fitsBudget_iff_of_few_nodes
    (hfew : topology.nodes.length < 2 ^ 32) :
    FitsBudget topology globalLimitMb headroomMb node ↔
      (HasBudget topology globalLimitMb headroomMb node →
        hugeMb node < 2 ^ 32) ∧
      (¬ HasBudget topology globalLimitMb headroomMb node →
        WithinBudget topology globalLimitMb headroomMb node) := by
  have hshare : wrappedShareMb topology globalLimitMb ≤
      shareMb topology globalLimitMb := by
    rw [wrappedShareMb, Nat.mod_eq_of_lt hfew]
    exact Nat.div_le_div_right (Nat.mod_le _ _)
  constructor
  · intro hfits
    exact ⟨hfits.huge_lt, hfits.within⟩
  · intro hboth
    refine ⟨hboth.1, ?_, hboth.2⟩
    intro hroom capped
    have hcapped : capped ≤
        min (shareMb topology globalLimitMb) (roomMb headroomMb node) :=
      min_le_min_right _ hshare
    omega

/-- A node of 4 GiB with 512 pages of 2 MiB that were reserved before. -/
def reservedNode : NumaNode := ⟨0, ⟨[0], by simp⟩, 512, 0, 4096⟩

/-- With a headroom of 4 GiB there is no budget, and the pages stay. -/
theorem reserved_pages_stay :
    ¬ EnforcesBudget ⟨[reservedNode]⟩ none 4096 := by
  intro henforced
  have hfits := fits_of_enforced henforced (List.mem_singleton_self _)
  have hwithin := hfits.within (by unfold HasBudget; decide)
  revert hwithin
  unfold WithinBudget
  decide

/-! ## Requests without a memory limit -/

theorem allocateNode_requested (sysfs : String → SysfsAnswer)
    (sysfsBase : String) (headroomMb cap : UInt32) (node : NumaNode) :
    (allocateNode sysfs sysfsBase headroomMb cap node).outcome.requested =
      compute2mBudget node.totalRamMb node.total1gHugepages headroomMb
        cap := by
  unfold allocateNode
  simp only
  split_ifs with hzero
  · exact hzero.symm
  · split <;> rfl

/-- What is asked for depends on no answer. -/
theorem requested_eq (topology : NumaTopology) (headroomMb : UInt32)
    (globalLimitMb : Option UInt32) (sysfsBase : String)
    (sysfs : ℕ → String → SysfsAnswer) :
    (allocateHugepages topology headroomMb globalLimitMb sysfsBase
        sysfs).rounds.map (fun round => round.outcome.requested.toNat) =
      topology.nodes.map fun node =>
        (cappedMb topology globalLimitMb headroomMb node -
          hugeMb node % 2 ^ 32) / 2 := by
  rw [allocateHugepages_rounds]
  apply List.ext_getElem
  · simp only [List.length_map, List.length_mapIdx]
  · intro done hleft hright
    rw [List.getElem_map, List.getElem_mapIdx, List.getElem_map,
      allocateNode_requested, desired_toNat]

/-- RAM without headroom and 1 GiB pages, in pages of 2 MiB. -/
def wantedPages (headroomMb : UInt32) (node : NumaNode) : ℕ :=
  (roomMb headroomMb node - hugeMb node) / 2

/-- The average of all RAM, as the code computes it, does not cut off a page
of the node. -/
def ShareSuffices (topology : NumaTopology) (headroomMb : UInt32)
    (node : NumaNode) : Prop :=
  let share := wrappedShareMb topology none
  let room := roomMb headroomMb node
  (hugeMb node < 2 ^ 32 ∧
    (room ≤ share ∨ room ≤ hugeMb node + 1 ∨
      room = share + 1 ∧ share % 2 = 0)) ∨
  (2 ^ 32 ≤ hugeMb node ∧ min share room ≤ hugeMb node % 2 ^ 32 + 1)

theorem requested_eq_wanted_iff (topology : NumaTopology)
    (headroomMb : UInt32) (node : NumaNode) :
    (cappedMb topology none headroomMb node - hugeMb node % 2 ^ 32) / 2 =
        wantedPages headroomMb node ↔
      ShareSuffices topology headroomMb node := by
  have hram : roomMb headroomMb node < 2 ^ 32 :=
    Nat.lt_of_le_of_lt (Nat.sub_le _ _) node.totalRamMb.toNat_lt
  have heven : hugeMb node % 2 = 0 := by
    unfold hugeMb
    omega
  unfold wantedPages ShareSuffices cappedMb
  rcases Nat.lt_or_ge (hugeMb node) (2 ^ 32) with hsmall | hlarge
  · rw [Nat.mod_eq_of_lt hsmall]
    omega
  · omega

/-- Without a memory limit every node is asked for its RAM without headroom
and 1 GiB pages exactly when the average of all RAM cuts nothing off. -/
theorem default_requests_iff (topology : NumaTopology) (headroomMb : UInt32)
    (sysfsBase : String) (sysfs : ℕ → String → SysfsAnswer) :
    (allocateHugepages topology headroomMb none sysfsBase sysfs).rounds.map
        (fun round => round.outcome.requested.toNat) =
        topology.nodes.map (wantedPages headroomMb) ↔
      ∀ node ∈ topology.nodes, ShareSuffices topology headroomMb node := by
  rw [requested_eq, List.map_inj_left]
  simp only [requested_eq_wanted_iff]

/-- Two nodes with 96000 and 32000 MiB. -/
def unevenNodes : NumaTopology :=
  ⟨[⟨0, ⟨[0], by simp⟩, 0, 0, 96000⟩, ⟨1, ⟨[1], by simp⟩, 0, 0, 32000⟩]⟩

/-- The larger node is asked for 32000 pages instead of 45952. -/
theorem uneven_nodes_capped :
    (allocateHugepages unevenNodes 4096 none "" fun _ => echo).rounds.map
        (fun round => round.outcome.requested.toNat) = [32000, 13952] ∧
      unevenNodes.nodes.map (wantedPages 4096) = [45952, 13952] := by
  rw [requested_eq]
  decide

end AlephCvm.Numa
