import Mathlib.Data.List.Sort
import Mathlib.Order.WellFounded
import AlephCvm.NumaCapacity

/-!
# Where the allocator places a machine

The candidate loop of `allocate` with its `continue`, its three returns and
the counters as the state, against a statement of what a placement is in
terms of whole numbers: the first candidate in topology order that has the
CPUs and the pages.  The loop counts the CPUs of a node in 32 bits, so a node
with all `2 ^ 32` CPU ids counts as one without any.
-/

namespace AlephCvm.Numa

variable {topology : NumaTopology}

structure NumaRequest where
  vcpus : UInt32
  memoryMb : UInt32
  hint : Option UInt32
  usesHugepages : Bool
  deriving DecidableEq

/-! ## The loop -/

def NumaAllocator.addVcpus (numa : NumaAllocator topology)
    (idx : topology.Index) (vcpus : UInt32) : NumaAllocator topology :=
  { numa with
    allocatedVcpus := Function.update numa.allocatedVcpus idx
      (numa.allocatedVcpus idx + vcpus) }

def NumaAllocator.add1gPages (numa : NumaAllocator topology)
    (idx : topology.Index) (pages : UInt32) : NumaAllocator topology :=
  { numa with
    allocated1gPages := Function.update numa.allocated1gPages idx
      (numa.allocated1gPages idx + pages) }

def NumaAllocator.add2mPages (numa : NumaAllocator topology)
    (idx : topology.Index) (pages : UInt32) : NumaAllocator topology :=
  { numa with
    allocated2mPages := Function.update numa.allocated2mPages idx
      (numa.allocated2mPages idx + pages) }

def noRoomMessage (vcpus memoryMb : UInt32) : String :=
  s!"no NUMA node has enough resources for {vcpus} vCPUs and {memoryMb} MB"

def NumaAllocator.placeFrom (numa : NumaAllocator topology)
    (request : NumaRequest) : List topology.Index →
      Except String NumaPlacement × NumaAllocator topology
  | [] => (.error (noRoomMessage request.vcpus request.memoryMb), numa)
  | idx :: rest =>
      if numa.availableCpus idx < request.vcpus then
        numa.placeFrom request rest
      else if request.usesHugepages = false then
        (.ok (placementOn topology idx .size2M),
          numa.addVcpus idx request.vcpus)
      else if request.memoryMb % 1024 = 0 ∧
          request.memoryMb / 1024 ≤ numa.available1g idx then
        (.ok (placementOn topology idx .size1G),
          (numa.addVcpus idx request.vcpus).add1gPages idx
            (request.memoryMb / 1024))
      else if divCeil2 request.memoryMb ≤ numa.available2m idx then
        (.ok (placementOn topology idx .size2M),
          (numa.addVcpus idx request.vcpus).add2mPages idx
            (divCeil2 request.memoryMb))
      else numa.placeFrom request rest

/-- The call with the counters it leaves, whether it succeeds or not. -/
def NumaAllocator.place (numa : NumaAllocator topology)
    (request : NumaRequest) :
    Except String NumaPlacement × NumaAllocator topology :=
  match topology.candidates request.hint with
  | .error message => (.error message, numa)
  | .ok candidates => numa.placeFrom request candidates

theorem NumaAllocator.charge_vcpus (numa : NumaAllocator topology)
    (idx : topology.Index) (vcpus : UInt32) :
    numa.charge idx vcpus 0 0 = numa.addVcpus idx vcpus := by
  simp [NumaAllocator.charge, NumaAllocator.addVcpus]

theorem NumaAllocator.charge_1g (numa : NumaAllocator topology)
    (idx : topology.Index) (vcpus pages : UInt32) :
    numa.charge idx vcpus 0 pages =
      (numa.addVcpus idx vcpus).add1gPages idx pages := by
  simp [NumaAllocator.charge, NumaAllocator.addVcpus,
    NumaAllocator.add1gPages]

theorem NumaAllocator.charge_2m (numa : NumaAllocator topology)
    (idx : topology.Index) (vcpus pages : UInt32) :
    numa.charge idx vcpus pages 0 =
      (numa.addVcpus idx vcpus).add2mPages idx pages := by
  simp [NumaAllocator.charge, NumaAllocator.addVcpus,
    NumaAllocator.add2mPages]

theorem NumaAllocator.placeFrom_cons (numa : NumaAllocator topology)
    (request : NumaRequest) (idx : topology.Index)
    (rest : List topology.Index) :
    numa.placeFrom request (idx :: rest) =
      match numa.tryNode request.vcpus request.memoryMb request.usesHugepages
          idx with
      | some (placement, next) => (.ok placement, next)
      | none => numa.placeFrom request rest := by
  rw [NumaAllocator.placeFrom]
  unfold NumaAllocator.tryNode
  split_ifs with hcpus huse h1g h2m
  · rfl
  · rw [NumaAllocator.charge_vcpus]
  · rw [NumaAllocator.charge_1g]
  · rw [NumaAllocator.charge_2m]
  · rfl

theorem NumaAllocator.placeFrom_eq (numa : NumaAllocator topology)
    (request : NumaRequest) (candidates : List topology.Index) :
    numa.placeFrom request candidates =
      match candidates.findSome? (numa.tryNode request.vcpus request.memoryMb
          request.usesHugepages) with
      | some (placement, next) => (.ok placement, next)
      | none => (.error (noRoomMessage request.vcpus request.memoryMb),
          numa) := by
  induction candidates with
  | nil => rfl
  | cons idx rest ih =>
      rw [NumaAllocator.placeFrom_cons, List.findSome?_cons, ih]
      cases numa.tryNode request.vcpus request.memoryMb
        request.usesHugepages idx <;> rfl

/-- The loop with state and the one that returns a new allocator only when it
succeeds do the same. -/
theorem NumaAllocator.place_eq (numa : NumaAllocator topology)
    (request : NumaRequest) :
    numa.place request =
      match numa.allocate request.vcpus request.memoryMb request.hint
          request.usesHugepages with
      | .ok (placement, next) => (.ok placement, next)
      | .error message => (.error message, numa) := by
  unfold NumaAllocator.place NumaAllocator.allocate
  cases topology.candidates request.hint with
  | error message => rfl
  | ok candidates =>
      simp only [numa.placeFrom_eq]
      cases candidates.findSome? (numa.tryNode request.vcpus
          request.memoryMb request.usesHugepages) with
      | none => rfl
      | some placed => rfl

/-! ## What a placement is -/

def NumaAllocator.freeCpus (numa : NumaAllocator topology)
    (idx : topology.Index) : ℕ :=
  (topology.nodes.get idx).cpus.val.length - (numa.allocatedVcpus idx).toNat

def NumaAllocator.free1g (numa : NumaAllocator topology)
    (idx : topology.Index) : ℕ :=
  (topology.nodes.get idx).total1gHugepages.toNat -
    (numa.allocated1gPages idx).toNat

def NumaAllocator.free2m (numa : NumaAllocator topology)
    (idx : topology.Index) : ℕ :=
  (topology.nodes.get idx).total2mHugepages.toNat -
    (numa.allocated2mPages idx).toNat

/-- The memory is a number of gigantic pages that are free. -/
def NumaAllocator.Fits1g (numa : NumaAllocator topology)
    (request : NumaRequest) (idx : topology.Index) : Prop :=
  request.memoryMb.toNat % 1024 = 0 ∧
    request.memoryMb.toNat / 1024 ≤ numa.free1g idx

instance (numa : NumaAllocator topology) (request : NumaRequest)
    (idx : topology.Index) : Decidable (numa.Fits1g request idx) :=
  inferInstanceAs (Decidable (_ ∧ _))

def NumaAllocator.Fits2m (numa : NumaAllocator topology)
    (request : NumaRequest) (idx : topology.Index) : Prop :=
  (request.memoryMb.toNat + 1) / 2 ≤ numa.free2m idx

def NumaAllocator.Fits (numa : NumaAllocator topology)
    (request : NumaRequest) (idx : topology.Index) : Prop :=
  request.vcpus.toNat ≤ numa.freeCpus idx ∧
    (request.usesHugepages = true →
      numa.Fits1g request idx ∨ numa.Fits2m request idx)

/-- The first node of the hinted id, or any node without a hint. -/
def NumaTopology.Candidate (topology : NumaTopology) :
    Option UInt32 → topology.Index → Prop
  | none, _ => True
  | some nodeId, idx => (topology.nodes.get idx).id = nodeId ∧
      ∀ earlier < idx, (topology.nodes.get earlier).id ≠ nodeId

structure NumaAllocator.FirstFit (numa : NumaAllocator topology)
    (request : NumaRequest) (idx : topology.Index) : Prop where
  candidate : topology.Candidate request.hint idx
  fits : numa.Fits request idx
  first : ∀ earlier < idx, topology.Candidate request.hint earlier →
    ¬ numa.Fits request earlier

/-- The page size and the three amounts that a placement on the node takes. -/
def NumaAllocator.demand (numa : NumaAllocator topology)
    (request : NumaRequest) (idx : topology.Index) :
    HugePageSize × ℕ × ℕ × ℕ :=
  if request.usesHugepages = false then
    (.size2M, request.vcpus.toNat, 0, 0)
  else if numa.Fits1g request idx then
    (.size1G, request.vcpus.toNat, 0, request.memoryMb.toNat / 1024)
  else
    (.size2M, request.vcpus.toNat, (request.memoryMb.toNat + 1) / 2, 0)

/-- The amounts are added to the counters of the node, and to no others. -/
structure Charged (numa after : NumaAllocator topology)
    (idx : topology.Index) (vcpus pages2m pages1g : ℕ) : Prop where
  vcpus : (after.allocatedVcpus idx).toNat =
    (numa.allocatedVcpus idx).toNat + vcpus
  pages2m : (after.allocated2mPages idx).toNat =
    (numa.allocated2mPages idx).toNat + pages2m
  pages1g : (after.allocated1gPages idx).toNat =
    (numa.allocated1gPages idx).toNat + pages1g
  others : ∀ other, other ≠ idx →
    after.allocatedVcpus other = numa.allocatedVcpus other ∧
      after.allocated2mPages other = numa.allocated2mPages other ∧
      after.allocated1gPages other = numa.allocated1gPages other

/-- The call ends as specified. -/
inductive PlacedAsSpecified (numa : NumaAllocator topology)
    (request : NumaRequest) :
    Except String NumaPlacement × NumaAllocator topology → Prop
  | placed (idx : topology.Index) (after : NumaAllocator topology)
      (size : HugePageSize) (vcpus pages2m pages1g : ℕ)
      (hfirst : numa.FirstFit request idx)
      (hdemand : numa.demand request idx = (size, vcpus, pages2m, pages1g))
      (hcharged : Charged numa after idx vcpus pages2m pages1g) :
      PlacedAsSpecified numa request (.ok (placementOn topology idx size),
        after)
  | refused (message : String)
      (hnone : ∀ idx, topology.Candidate request.hint idx →
        ¬ numa.Fits request idx) :
      PlacedAsSpecified numa request (.error message, numa)

/-! ## One node -/

/-- What the loop tests at a node. -/
def NumaAllocator.FitsCounted (numa : NumaAllocator topology)
    (request : NumaRequest) (idx : topology.Index) : Prop :=
  request.vcpus.toNat ≤ (numa.availableCpus idx).toNat ∧
    (request.usesHugepages = true →
      numa.Fits1g request idx ∨ numa.Fits2m request idx)

theorem NumaAllocator.fits1g_iff {numa : NumaAllocator topology}
    {request : NumaRequest} {idx : topology.Index} :
    numa.Fits1g request idx ↔ request.memoryMb % 1024 = 0 ∧
      request.memoryMb / 1024 ≤ numa.available1g idx := by
  unfold NumaAllocator.Fits1g NumaAllocator.free1g
  rw [UInt32.le_iff_toNat_le, NumaAllocator.available1g, toNat_satSub,
    ← UInt32.toNat_inj]
  simp

theorem NumaAllocator.fits2m_iff {numa : NumaAllocator topology}
    {request : NumaRequest} {idx : topology.Index} :
    numa.Fits2m request idx ↔
      divCeil2 request.memoryMb ≤ numa.available2m idx := by
  unfold NumaAllocator.Fits2m NumaAllocator.free2m
  rw [UInt32.le_iff_toNat_le, NumaAllocator.available2m, toNat_satSub,
    toNat_divCeil2]

theorem NumaAllocator.tryNode_eq_none_iff {numa : NumaAllocator topology}
    {request : NumaRequest} {idx : topology.Index} :
    numa.tryNode request.vcpus request.memoryMb request.usesHugepages idx =
        none ↔ ¬ numa.FitsCounted request idx := by
  unfold NumaAllocator.FitsCounted
  rw [← UInt32.le_iff_toNat_le, NumaAllocator.fits1g_iff,
    NumaAllocator.fits2m_iff, ← UInt32.not_lt]
  unfold NumaAllocator.tryNode
  split_ifs with hcpus huse h1g h2m
  · simp [hcpus]
  · simp [hcpus, huse]
  · simp only [false_iff, not_not]
    exact ⟨hcpus, fun _ => .inl h1g⟩
  · simp only [false_iff, not_not]
    exact ⟨hcpus, fun _ => .inr h2m⟩
  · simp only [true_iff]
    rintro ⟨_, hpages⟩
    rcases hpages (Bool.eq_true_of_not_eq_false huse) with h | h
    · exact h1g h
    · exact h2m h

theorem NumaAllocator.HasRoom.charged {numa : NumaAllocator topology}
    {idx : topology.Index} {vcpus pages2m pages1g : UInt32}
    (hroom : numa.HasRoom idx vcpus pages2m pages1g) :
    Charged numa (numa.charge idx vcpus pages2m pages1g) idx vcpus.toNat
      pages2m.toNat pages1g.toNat where
  vcpus := by
    simp only [NumaAllocator.charge, Function.update_self,
      toNat_add_of_le_satSub hroom.vcpus]
  pages2m := by
    simp only [NumaAllocator.charge, Function.update_self,
      toNat_add_of_le_satSub hroom.pages2m]
  pages1g := by
    simp only [NumaAllocator.charge, Function.update_self,
      toNat_add_of_le_satSub hroom.pages1g]
  others := by
    intro other hother
    simp [NumaAllocator.charge, Function.update_of_ne hother]

/-- A node that is taken is charged with its demand. -/
theorem NumaAllocator.tryNode_charged {numa after : NumaAllocator topology}
    {request : NumaRequest} {idx : topology.Index}
    {placement : NumaPlacement}
    (htry : numa.tryNode request.vcpus request.memoryMb
      request.usesHugepages idx = some (placement, after)) :
    ∃ size vcpus pages2m pages1g,
      placement = placementOn topology idx size ∧
      numa.demand request idx = (size, vcpus, pages2m, pages1g) ∧
      Charged numa after idx vcpus pages2m pages1g := by
  unfold NumaAllocator.tryNode at htry
  unfold NumaAllocator.demand
  split_ifs at htry with hcpus huse h1g h2m
  · simp only [Option.some.injEq, Prod.mk.injEq] at htry
    obtain ⟨rfl, rfl⟩ := htry
    have hroom : numa.HasRoom idx request.vcpus 0 0 :=
      ⟨UInt32.not_lt.mp hcpus, zero_le_satSub _ _, zero_le_satSub _ _⟩
    rw [if_pos huse]
    exact ⟨_, _, _, _, rfl, rfl, hroom.charged⟩
  · simp only [Option.some.injEq, Prod.mk.injEq] at htry
    obtain ⟨rfl, rfl⟩ := htry
    have hroom : numa.HasRoom idx request.vcpus 0 (request.memoryMb / 1024) :=
      ⟨UInt32.not_lt.mp hcpus, zero_le_satSub _ _, h1g.2⟩
    have hcharged := hroom.charged
    rw [UInt32.toNat_div] at hcharged
    rw [if_neg huse, if_pos (NumaAllocator.fits1g_iff.mpr h1g)]
    exact ⟨_, _, _, _, rfl, rfl, hcharged⟩
  · simp only [Option.some.injEq, Prod.mk.injEq] at htry
    obtain ⟨rfl, rfl⟩ := htry
    have hroom : numa.HasRoom idx request.vcpus (divCeil2 request.memoryMb)
        0 :=
      ⟨UInt32.not_lt.mp hcpus, h2m, zero_le_satSub _ _⟩
    have hcharged := hroom.charged
    rw [toNat_divCeil2] at hcharged
    rw [if_neg huse, if_neg (mt NumaAllocator.fits1g_iff.mp h1g)]
    exact ⟨_, _, _, _, rfl, rfl, hcharged⟩

/-! ## The first node -/

/-- A search through an ordered list finds the least of what it looks for. -/
theorem findSome?_eq_some_iff_first {α β : Type} [LinearOrder α]
    {items : List α} (hsorted : items.Pairwise (· < ·)) {pick : α → Option β}
    {found : β} :
    items.findSome? pick = some found ↔
      ∃ item ∈ items, pick item = some found ∧
        ∀ earlier ∈ items, earlier < item → pick earlier = none := by
  rw [List.findSome?_eq_some_iff]
  constructor
  · rintro ⟨before, item, later, rfl, hitem, hbefore⟩
    refine ⟨item, by simp, hitem, ?_⟩
    intro earlier hearlier hlt
    have hlater := (List.pairwise_cons.mp
      (List.pairwise_append.mp hsorted).2.1).1
    rcases List.mem_append.mp hearlier with hmem | hmem
    · exact hbefore earlier hmem
    · rcases List.mem_cons.mp hmem with rfl | hmem
      · exact absurd hlt (lt_irrefl _)
      · exact absurd hlt (lt_asymm (hlater earlier hmem))
  · rintro ⟨item, hmem, hitem, hfirst⟩
    obtain ⟨before, later, rfl⟩ := List.append_of_mem hmem
    refine ⟨before, item, later, rfl, hitem, ?_⟩
    intro earlier hearlier
    have hlt := (List.pairwise_append.mp hsorted).2.2 earlier hearlier item
      List.mem_cons_self
    exact hfirst earlier (List.mem_append_left _ hearlier) hlt

theorem NumaTopology.position_eq_some_iff {nodeId : UInt32}
    {idx : topology.Index} :
    topology.position nodeId = some idx ↔
      topology.Candidate (some nodeId) idx := by
  unfold NumaTopology.position NumaTopology.Candidate
  rw [← List.findSome?_guard, findSome?_eq_some_iff_first
    (List.pairwise_lt_finRange _)]
  simp only [List.mem_finRange, true_and, Option.guard_eq_some_iff,
    Option.guard_eq_none_iff, beq_iff_eq, beq_eq_false_iff_ne]
  constructor
  · rintro ⟨item, ⟨rfl, hid⟩, hfirst⟩
    exact ⟨hid, fun earlier hlt => hfirst earlier trivial hlt⟩
  · rintro ⟨hid, hfirst⟩
    exact ⟨idx, ⟨rfl, hid⟩, fun earlier _ hlt => hfirst earlier hlt⟩

theorem NumaTopology.candidates_ok
    {hint : Option UInt32} {candidates : List topology.Index}
    (hok : topology.candidates hint = .ok candidates) :
    candidates.Pairwise (· < ·) ∧
      ∀ idx, idx ∈ candidates ↔ topology.Candidate hint idx := by
  unfold NumaTopology.candidates at hok
  cases hint with
  | none =>
      cases hok
      exact ⟨List.pairwise_lt_finRange _, fun idx =>
        iff_of_true (List.mem_finRange idx) trivial⟩
  | some nodeId =>
      cases hposition : topology.position nodeId with
      | none => simp [hposition] at hok
      | some found =>
          simp only [hposition, Except.ok.injEq] at hok
          subst hok
          refine ⟨List.pairwise_singleton _ _, fun idx => ?_⟩
          rw [List.mem_singleton, ← topology.position_eq_some_iff,
            hposition, Option.some.injEq]
          exact eq_comm

theorem NumaTopology.candidates_error
    {hint : Option UInt32} {message : String}
    (herror : topology.candidates hint = .error message)
    (idx : topology.Index) : ¬ topology.Candidate hint idx := by
  unfold NumaTopology.candidates at herror
  cases hint with
  | none => cases herror
  | some nodeId =>
      rw [← topology.position_eq_some_iff]
      intro hposition
      simp [hposition] at herror

/-- What the loop does: the first candidate that passes its test is tried. -/
inductive PlaceResult (numa : NumaAllocator topology)
    (request : NumaRequest) :
    Except String NumaPlacement × NumaAllocator topology → Prop
  | placed (idx : topology.Index) (placement : NumaPlacement)
      (after : NumaAllocator topology)
      (hcandidate : topology.Candidate request.hint idx)
      (htry : numa.tryNode request.vcpus request.memoryMb
        request.usesHugepages idx = some (placement, after))
      (hfirst : ∀ earlier < idx, topology.Candidate request.hint earlier →
        ¬ numa.FitsCounted request earlier) :
      PlaceResult numa request (.ok placement, after)
  | refused (message : String)
      (hnone : ∀ idx, topology.Candidate request.hint idx →
        ¬ numa.FitsCounted request idx) :
      PlaceResult numa request (.error message, numa)

theorem NumaAllocator.place_result (numa : NumaAllocator topology)
    (request : NumaRequest) :
    PlaceResult numa request (numa.place request) := by
  unfold NumaAllocator.place
  cases hcandidates : topology.candidates request.hint with
  | error message =>
      refine .refused message ?_
      intro idx hcandidate
      exact absurd hcandidate (topology.candidates_error hcandidates idx)
  | ok candidates =>
      obtain ⟨hsorted, hmem⟩ := topology.candidates_ok hcandidates
      simp only [numa.placeFrom_eq]
      cases hfound : candidates.findSome? (numa.tryNode request.vcpus
          request.memoryMb request.usesHugepages) with
      | none =>
          refine .refused _ ?_
          intro idx hcandidate
          exact NumaAllocator.tryNode_eq_none_iff.mp
            (List.findSome?_eq_none_iff.mp hfound idx
              ((hmem idx).mpr hcandidate))
      | some placed =>
          obtain ⟨placement, after⟩ := placed
          obtain ⟨idx, hidx, htry, hfirst⟩ :=
            (findSome?_eq_some_iff_first hsorted).mp hfound
          refine .placed idx placement after ((hmem idx).mp hidx) htry ?_
          intro earlier hlt hcandidate
          exact NumaAllocator.tryNode_eq_none_iff.mp
            (hfirst earlier ((hmem earlier).mpr hcandidate) hlt)

theorem NumaAllocator.FirstFit.unique {numa : NumaAllocator topology}
    {request : NumaRequest} {first second : topology.Index}
    (hfirst : numa.FirstFit request first)
    (hsecond : numa.FirstFit request second) : first = second := by
  rcases lt_trichotomy first second with hlt | heq | hlt
  · exact absurd hfirst.fits (hsecond.first first hlt hfirst.candidate)
  · exact heq
  · exact absurd hsecond.fits (hfirst.first second hlt hsecond.candidate)

/-- Where a candidate fits, one of those up to it is the first. -/
theorem NumaAllocator.exists_firstFit {numa : NumaAllocator topology}
    {request : NumaRequest} {idx : topology.Index}
    (hcandidate : topology.Candidate request.hint idx)
    (hfits : numa.Fits request idx) :
    ∃ first ≤ idx, numa.FirstFit request first := by
  have hsome : { node | topology.Candidate request.hint node ∧
      numa.Fits request node }.Nonempty := ⟨idx, hcandidate, hfits⟩
  obtain ⟨first, ⟨hfirstCandidate, hfirstFits⟩, hmin⟩ :=
    wellFounded_lt.has_min _ hsome
  refine ⟨first, not_lt.mp (hmin idx ⟨hcandidate, hfits⟩),
    hfirstCandidate, hfirstFits, ?_⟩
  intro earlier hlt hearlier hearlierFits
  exact hmin earlier ⟨hearlier, hearlierFits⟩ hlt

/-! ## Counting the CPUs -/

theorem CpuSet.length_le (cpus : CpuSet) :
    cpus.val.length ≤ UInt32.size := by
  have hnodup : (cpus.val.map UInt32.toNat).Nodup := by
    apply cpus.property.nodup.map
    intro first second hsame
    exact UInt32.toNat_inj.mp hsame
  have hsubset : cpus.val.map UInt32.toNat ⊆ List.range UInt32.size := by
    intro number hnumber
    obtain ⟨cpu, _, rfl⟩ := List.mem_map.mp hnumber
    exact List.mem_range.mpr cpu.toNat_lt_size
  have hle := (List.subperm_of_subset hnodup hsubset).length_le
  rw [List.length_map, List.length_range] at hle
  exact hle

theorem NumaAllocator.toNat_availableCpus (numa : NumaAllocator topology)
    (idx : topology.Index) :
    (numa.availableCpus idx).toNat =
      (topology.nodes.get idx).cpus.val.length % UInt32.size -
        (numa.allocatedVcpus idx).toNat := by
  rw [NumaAllocator.availableCpus, toNat_satSub, UInt32.toNat_ofNat']

theorem NumaAllocator.FitsCounted.fits {numa : NumaAllocator topology}
    {request : NumaRequest} {idx : topology.Index}
    (hfits : numa.FitsCounted request idx) : numa.Fits request idx := by
  refine ⟨?_, hfits.2⟩
  have hcpus := hfits.1
  rw [NumaAllocator.toNat_availableCpus] at hcpus
  have hcount := Nat.mod_le
    (topology.nodes.get idx).cpus.val.length UInt32.size
  unfold NumaAllocator.freeCpus
  omega

theorem NumaAllocator.Fits.fitsCounted {numa : NumaAllocator topology}
    {request : NumaRequest} {idx : topology.Index}
    (hfits : numa.Fits request idx)
    (hcount : request.vcpus = 0 ∨
      (topology.nodes.get idx).cpus.val.length < UInt32.size) :
    numa.FitsCounted request idx := by
  refine ⟨?_, hfits.2⟩
  rcases hcount with hzero | hlt
  · rw [hzero]
    exact Nat.zero_le _
  · rw [NumaAllocator.toNat_availableCpus, Nat.mod_eq_of_lt hlt]
    exact hfits.1

theorem NumaAllocator.FitsCounted.count_lt {numa : NumaAllocator topology}
    {request : NumaRequest} {idx : topology.Index}
    (hfits : numa.FitsCounted request idx) (hvcpus : request.vcpus ≠ 0) :
    (topology.nodes.get idx).cpus.val.length < UInt32.size := by
  have hcpus := hfits.1
  rw [NumaAllocator.toNat_availableCpus] at hcpus
  have hpos : request.vcpus.toNat ≠ 0 := by
    intro hzero
    exact hvcpus (UInt32.toNat_inj.mp hzero)
  have hle := (topology.nodes.get idx).cpus.length_le
  rcases Nat.lt_or_eq_of_le hle with hlt | heq
  · exact hlt
  · rw [heq, Nat.mod_self] at hcpus
    omega

theorem NumaAllocator.demand_vcpus (numa : NumaAllocator topology)
    (request : NumaRequest) (idx : topology.Index) :
    (numa.demand request idx).2.1 = request.vcpus.toNat := by
  unfold NumaAllocator.demand
  split_ifs <;> rfl

/-- Only one node can have been charged with a positive number of CPUs. -/
theorem Charged.eq_of_pos {numa after : NumaAllocator topology}
    {first second : topology.Index}
    {vcpus pages2m pages1g otherVcpus other2m other1g : ℕ}
    (hfirst : Charged numa after first vcpus pages2m pages1g)
    (hsecond : Charged numa after second otherVcpus other2m other1g)
    (hpos : 0 < otherVcpus) : second = first := by
  by_contra hne
  have hsame := (hfirst.others second hne).1
  have hmore := hsecond.vcpus
  rw [hsame] at hmore
  omega

theorem NumaAllocator.fitsCounted_of_tryNode {numa : NumaAllocator topology}
    {request : NumaRequest} {idx : topology.Index}
    {placed : NumaPlacement × NumaAllocator topology}
    (htry : numa.tryNode request.vcpus request.memoryMb request.usesHugepages
      idx = some placed) :
    numa.FitsCounted request idx := by
  by_contra hnot
  rw [NumaAllocator.tryNode_eq_none_iff.mpr hnot] at htry
  cases htry

/-- Where CPUs are asked for, a call that ends as specified has counted the
CPUs of the node it had to choose. -/
theorem counted_of_specified {numa : NumaAllocator topology}
    {request : NumaRequest} {idx : topology.Index}
    (hspecified : PlacedAsSpecified numa request (numa.place request))
    (hidx : numa.FirstFit request idx) :
    request.vcpus = 0 ∨
      (topology.nodes.get idx).cpus.val.length < UInt32.size := by
  have hresult := numa.place_result request
  generalize numa.place request = result at hresult hspecified
  by_cases hvcpus : request.vcpus = 0
  · exact .inl hvcpus
  right
  cases hspecified with
  | refused message hnone => exact absurd hidx.fits (hnone idx hidx.candidate)
  | placed chosen after size vcpus pages2m pages1g hfirst hdemand hcharged =>
      cases hresult with
      | placed tried _ _ hcandidate htry hearlier =>
          obtain ⟨_, _, _, _, _, _, htried⟩ :=
            NumaAllocator.tryNode_charged htry
          have hpos : 0 < vcpus := by
            have hcount := numa.demand_vcpus request chosen
            rw [hdemand] at hcount
            have hzero : request.vcpus.toNat ≠ 0 := fun h =>
              hvcpus (UInt32.toNat_inj.mp h)
            simp only at hcount
            omega
          have hsame := htried.eq_of_pos hcharged hpos
          have hcounted := NumaAllocator.fitsCounted_of_tryNode htry
          rw [hidx.unique hfirst, hsame]
          exact hcounted.count_lt hvcpus

/-- A call ends as specified unless it asks for CPUs and the first candidate
with room has all `2 ^ 32` CPU ids. -/
theorem placed_as_specified_iff (numa : NumaAllocator topology)
    (request : NumaRequest) :
    PlacedAsSpecified numa request (numa.place request) ↔
      ∀ idx, numa.FirstFit request idx → request.vcpus = 0 ∨
        (topology.nodes.get idx).cpus.val.length < UInt32.size := by
  constructor
  · intro hspecified idx hidx
    exact counted_of_specified hspecified hidx
  · intro hcounts
    have hmissed : ∀ idx, topology.Candidate request.hint idx →
        numa.Fits request idx → ∃ first ≤ idx,
          topology.Candidate request.hint first ∧
            numa.FitsCounted request first := by
      intro idx hcandidate hfits
      obtain ⟨first, hle, hfirst⟩ :=
        NumaAllocator.exists_firstFit hcandidate hfits
      exact ⟨first, hle, hfirst.candidate,
        hfirst.fits.fitsCounted (hcounts first hfirst)⟩
    have hresult := numa.place_result request
    generalize numa.place request = result at hresult
    cases hresult with
    | refused message hnone =>
        refine .refused message ?_
        intro idx hcandidate hfits
        obtain ⟨first, _, hfirst, hcounted⟩ := hmissed idx hcandidate hfits
        exact hnone first hfirst hcounted
    | placed idx placement after hcandidate htry hearlier =>
        have hcounted := NumaAllocator.fitsCounted_of_tryNode htry
        obtain ⟨size, vcpus, pages2m, pages1g, rfl, hdemand, hcharged⟩ :=
          NumaAllocator.tryNode_charged htry
        refine .placed idx after size vcpus pages2m pages1g ?_ hdemand
          hcharged
        refine ⟨hcandidate, hcounted.fits, ?_⟩
        intro earlier hlt hcandidate hfits
        obtain ⟨first, hle, hfirst, hcounted⟩ :=
          hmissed earlier hcandidate hfits
        exact hearlier first (lt_of_le_of_lt hle hlt) hfirst hcounted

/-! ## A node with every CPU id -/

theorem everyCpuId_pairwise (count : ℕ) (hcount : count ≤ UInt32.size) :
    ((List.range count).map UInt32.ofNat).Pairwise (· < ·) := by
  rw [List.pairwise_map]
  apply List.pairwise_lt_range.imp_of_mem
  intro first second hfirst hsecond hlt
  rw [List.mem_range] at hfirst hsecond
  rw [UInt32.lt_iff_toNat_lt, UInt32.toNat_ofNat', UInt32.toNat_ofNat',
    Nat.mod_eq_of_lt (lt_of_lt_of_le hfirst hcount),
    Nat.mod_eq_of_lt (lt_of_lt_of_le hsecond hcount)]
  exact hlt

/-- What the list `0-4294967295` stands for. -/
def everyCpuId : CpuSet :=
  ⟨(List.range UInt32.size).map UInt32.ofNat,
    everyCpuId_pairwise UInt32.size le_rfl⟩

theorem length_everyCpuId : everyCpuId.val.length = UInt32.size := by
  rw [everyCpuId, List.length_map, List.length_range]

def everyCpuTopology : NumaTopology :=
  ⟨[⟨0, everyCpuId, 0, 0, 4096⟩]⟩

def onlyNode : everyCpuTopology.Index := ⟨0, Nat.zero_lt_one⟩

def oneCpu : NumaRequest := ⟨1, 512, none, false⟩

theorem full_node_refused :
    ¬ PlacedAsSpecified (.new everyCpuTopology) oneCpu
      ((NumaAllocator.new everyCpuTopology).place oneCpu) := by
  have hcount : (everyCpuTopology.nodes.get onlyNode).cpus.val.length =
      UInt32.size := length_everyCpuId
  intro hspecified
  have hfirst : (NumaAllocator.new everyCpuTopology).FirstFit oneCpu
      onlyNode := by
    refine ⟨trivial, ⟨?_, ?_⟩, ?_⟩
    · rw [NumaAllocator.freeCpus, hcount]
      decide
    · intro huse
      cases huse
    · intro earlier hlt
      exact absurd hlt (Nat.not_lt_zero _)
  rcases counted_of_specified hspecified hfirst with hzero | hlt
  · cases hzero
  · rw [hcount] at hlt
    exact absurd hlt (lt_irrefl _)

end AlephCvm.Numa
