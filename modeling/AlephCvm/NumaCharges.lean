import AlephCvm.CreateVmCleanup
import AlephCvm.NumaRecovery

/-!
# Recorded placements and the counters

A machine keeps the node and the page size of its placement in its handle and
in its state file.  The counters should show what the running machines
recorded.  This file says what a creation does to the counters and when a
charge, a release and a replayed allocation keep them exact.

A replay asks the allocator again for the page size.  It gets the recorded
one when there is room for everything that was recorded and the machine does
not fit into the 1 GiB pages of its node while it recorded 2 MiB pages.
-/

namespace AlephCvm.Vm

open ResultContext StepRuns TableFolds GrantLedger AlephCvm.Tee
open AlephCvm.Numa AlephCvm.Net AlephCvm.Nft AlephCvm.Qemu

variable {cfg : NodeConfig}

/-! ## What a creation does to the counters -/

theorem ReservationResult.numa
    {node after : Node cfg} {calls : CreateCalls} {vmId : String}
    {vmIp : Ipv4Addr} {vmIpv6 : Option Ipv6Net}
    {result : Except Failure Unit}
    (hreserved : ReservationResult node calls vmId vmIp vmIpv6
      (result, after)) : after.numa = node.numa := by
  cases hreserved with
  | done files hwritten hfiles => rfl
  | dhcpRefused message hhostsdir hrefused => rfl
  | dhcpv6Refused net message hhostsdir hwritten hipv6 hrefused =>
      exact (Node.releaseIpv6_sameHost _ _).numa

theorem NetworkResult.numa
    {node after : Node cfg} {calls : CreateCalls} {vmId : String}
    {vmIpv6 : Option Ipv6Net} {result : Except Failure Unit}
    (hconnected : NetworkResult node calls vmId vmIpv6 (result, after)) :
    after.numa = node.numa := by
  cases hconnected with
  | done ruleset hnew hadd hup hmaster hipv6 hsetup => rfl
  | notAdded message hrefused =>
      exact (Node.cleanupReservations_sameHost _ _ _ _).numa
  | notAttached message hnew hadd hrefused =>
      exact (Node.cleanupReservations_sameHost _ _ _ _).numa
  | undone message hnew hadd hup hmaster hrefused =>
      exact (Node.cleanupReservations_sameHost _ _ _ _).numa

/-- A creation leaves the counters alone, panics after it charged them, takes
back what it charged, or charges them for the machine it registers. -/
inductive CreateNuma (node : Node cfg) (calls : CreateCalls)
    (config : VmConfig) (numaHint : Option UInt32) :
    Except Failure VmInfo × Node cfg → Prop
  | kept (failure : Failure) (after : Node cfg)
      (hnuma : after.numa = node.numa) :
      CreateNuma node calls config numaHint (.error failure, after)
  | panicked (failure : Failure) (after : Node cfg)
      (hdrives : drivesAccepted calls config = false) :
      CreateNuma node calls config numaHint (.error failure, after)
  | undone (failure : Failure) (after : Node cfg) (launch : Launch)
      (next : NumaAllocator cfg.topology) (message : String)
      (hspawn : calls.spawn = .error message)
      (hlaunch : LaunchOf node.numa next config numaHint launch)
      (hnuma : after.numa = next.release launch.placement.node
        config.vcpus config.memoryMb launch.placement.hugepageSize) :
      CreateNuma node calls config numaHint (.error failure, after)
  | charged (info : VmInfo) (after : Node cfg) (launch : Launch)
      (vmIp : Ipv4Addr) (vmIpv6 : Option Ipv6Net)
      (hvms : after.vms.lookup config.vmId =
        some (createdHandle cfg launch vmIp vmIpv6 calls.now))
      (hlaunch : LaunchOf node.numa after.numa config numaHint launch) :
      CreateNuma node calls config numaHint (.ok info, after)

theorem Node.undoLaunch_numa
    (node : Node cfg) (calls : CleanupCalls) (launch : Launch)
    (vmId : String) (vmIpv6 : Option Ipv6Net) :
    (node.undoLaunch calls launch vmId vmIpv6).numa =
      node.numa.release launch.placement.node launch.config.vcpus
        launch.config.memoryMb launch.placement.hugepageSize :=
  (Node.cleanupReservations_sameHost _ _ _ _).numa

theorem Node.launchVm_numa
    {node prepared : Node cfg} {calls : CreateCalls} {config : VmConfig}
    {numaHint : Option UInt32} {launch : Launch}
    (hlaunch : LaunchOf node.numa prepared.numa config numaHint launch)
    (vmIp : Ipv4Addr) (macAddr : String) (vmIpv6 : Option Ipv6Net) :
    CreateNuma node calls config numaHint
      (prepared.launchVm calls launch vmIp macAddr vmIpv6) := by
  unfold Node.launchVm
  cases hspawn : calls.spawn with
  | error message =>
      refine .undone _ _ launch prepared.numa message hspawn hlaunch ?_
      rw [Node.undoLaunch_numa, hlaunch.vcpus, hlaunch.memoryMb]
  | ok done =>
      have hsaved : ∀ persisted, (prepared.saveVm calls.save
          launch.config.vmId persisted).numa = prepared.numa := by
        intro persisted
        unfold Node.saveVm
        split_ifs <;> rfl
      refine .charged _ _ launch vmIp vmIpv6 ?_ ?_
      · rw [← hlaunch.vmId]
        exact AList.lookup_insert _
      · simp only [hsaved]
        exact hlaunch

theorem Node.createVm_numa
    (node : Node cfg) (calls : CreateCalls) (config : VmConfig)
    (requestedIpv6 : Option Ipv6Net) (numaHint : Option UInt32) :
    CreateNuma node calls config numaHint
      (node.createVm calls config requestedIpv6 numaHint) := by
  have houtcome := node.createVm_outcome calls config requestedIpv6 numaHint
  generalize node.createVm calls config requestedIpv6 numaHint = result
    at houtcome
  cases houtcome with
  | duplicate message hknown => exact .kept _ _ rfl
  | poolExhausted message hfresh hfull => exact .kept _ _ rfl
  | ipv6Refused offset failure hfresh hfree hrefused =>
      exact .kept _ _ rfl
  | notReserved offset vmIpv6 failure after hstarted hreserved =>
      exact .kept _ _ hreserved.numa
  | notConnected offset vmIpv6 reserved failure after hstarted hreserved
      hconnected =>
      exact .kept _ _ (hconnected.numa.trans hreserved.numa)
  | notPrepared offset vmIpv6 reserved connected failure after hstarted
      hreserved hconnected hprepared =>
      have hsame := hconnected.numa.trans hreserved.numa
      rw [Node.addNdpRange_eq] at hprepared
      cases hprepared with
      | refused message hrefused => exact .kept _ _ hsame
      | panicked message next hlaunchable hdrives =>
          exact .panicked _ _ hdrives
  | launched offset vmIpv6 reserved connected launch prepared hstarted
      hreserved hconnected hprepared =>
      have hsame : connected.numa = node.numa :=
        hconnected.numa.trans hreserved.numa
      rw [Node.addNdpRange_eq] at hprepared
      cases hprepared with
      | ready _ next hlaunchable hdrives hlaunch =>
          simp only [hsame] at hlaunch
          exact Node.launchVm_numa hlaunch _ _ _

/-! ## The ledger of recorded placements -/

/-- The 2 MiB pages that a running machine took according to its record. -/
def VmHandle.chargedPages2m (handle : VmHandle) : ℕ :=
  if handle.state = .running ∧ isConfidential handle.config = true ∧
      handle.recordedSize = .size2M then
    (divCeil2 handle.config.memoryMb).toNat
  else 0

def VmHandle.chargedPages1g (handle : VmHandle) : ℕ :=
  if handle.state = .running ∧ isConfidential handle.config = true ∧
      handle.recordedSize = .size1G then
    (handle.config.memoryMb / 1024).toNat
  else 0

/-- The counters show what the running machines recorded. -/
structure RecordedCharged (numa : NumaAllocator cfg.topology)
    (handles : Multiset VmHandle) : Prop where
  vcpus : ∀ idx, (numa.allocatedVcpus idx).toNat =
    placedTotal cfg VmHandle.runningVcpus handles idx
  pages2m : ∀ idx, (numa.allocated2mPages idx).toNat =
    placedTotal cfg VmHandle.chargedPages2m handles idx
  pages1g : ∀ idx, (numa.allocated1gPages idx).toNat =
    placedTotal cfg VmHandle.chargedPages1g handles idx

/-- The three bounds of a node: its CPUs and its two kinds of pages. -/
structure WithinCapacity (cfg : NodeConfig)
    (vcpus pages2m pages1g : cfg.topology.Index → ℕ) : Prop where
  vcpus : ∀ idx, vcpus idx ≤
    (UInt32.ofNat (cfg.topology.nodes.get idx).cpus.val.length).toNat
  pages2m : ∀ idx, pages2m idx ≤
    (cfg.topology.nodes.get idx).total2mHugepages.toNat
  pages1g : ∀ idx, pages1g idx ≤
    (cfg.topology.nodes.get idx).total1gHugepages.toNat

def NumaFits (numa : NumaAllocator cfg.topology) : Prop :=
  WithinCapacity cfg (fun idx => (numa.allocatedVcpus idx).toNat)
    (fun idx => (numa.allocated2mPages idx).toNat)
    (fun idx => (numa.allocated1gPages idx).toNat)

def TotalsFit (cfg : NodeConfig) (handles : Multiset VmHandle) : Prop :=
  WithinCapacity cfg (placedTotal cfg VmHandle.runningVcpus handles)
    (placedTotal cfg VmHandle.chargedPages2m handles)
    (placedTotal cfg VmHandle.chargedPages1g handles)

theorem RecordedCharged.totalsFit
    {numa : NumaAllocator cfg.topology} {handles : Multiset VmHandle}
    (hcharged : RecordedCharged numa handles) (hfits : NumaFits numa) :
    TotalsFit cfg handles := by
  constructor
  · intro idx
    rw [← hcharged.vcpus idx]
    exact hfits.vcpus idx
  · intro idx
    rw [← hcharged.pages2m idx]
    exact hfits.pages2m idx
  · intro idx
    rw [← hcharged.pages1g idx]
    exact hfits.pages1g idx

/-- Two allocators that show the same totals are the same. -/
theorem RecordedCharged.numa_eq
    {first second : NumaAllocator cfg.topology}
    {handles others : Multiset VmHandle}
    (hfirst : RecordedCharged first handles)
    (hsecond : RecordedCharged second others)
    (htotals : ∀ weight ∈ [VmHandle.runningVcpus, VmHandle.chargedPages2m,
      VmHandle.chargedPages1g], ∀ idx,
        placedTotal cfg weight handles idx =
          placedTotal cfg weight others idx) :
    first = second := by
  apply NumaAllocator.ext
  · funext idx
    rw [← UInt32.toNat_inj, hfirst.vcpus, hsecond.vcpus]
    exact htotals _ (by simp) idx
  · funext idx
    rw [← UInt32.toNat_inj, hfirst.pages2m, hsecond.pages2m]
    exact htotals _ (by simp) idx
  · funext idx
    rw [← UInt32.toNat_inj, hfirst.pages1g, hsecond.pages1g]
    exact htotals _ (by simp) idx

/-! ## A placement that is charged -/

/-- The placement is what the running machine recorded. -/
structure PlacementOf (handle : VmHandle) (vcpus memoryMb : UInt32)
    (usesHugepages : Bool) (size : HugePageSize) : Prop where
  running : handle.state = .running
  vcpus : handle.config.vcpus = vcpus
  memoryMb : handle.config.memoryMb = memoryMb
  confidential : isConfidential handle.config = usesHugepages
  size : usesHugepages = true → handle.recordedSize = size

theorem RecordedCharged.charge
    {numa next : NumaAllocator cfg.topology} {rest : Multiset VmHandle}
    {handle : VmHandle} {node vcpus memoryMb : UInt32}
    {usesHugepages : Bool} {size : HugePageSize}
    {idx : cfg.topology.Index} (hcharged : RecordedCharged numa rest)
    (hnode : handle.numaNode = some node)
    (hposition : cfg.topology.position node = some idx)
    (hplaced : Placed numa vcpus memoryMb usesHugepages idx size next)
    (hof : PlacementOf handle vcpus memoryMb usesHugepages size) :
    RecordedCharged next (handle ::ₘ rest) := by
  have hvcpusWeight : handle.runningVcpus = vcpus.toNat := by
    simp [VmHandle.runningVcpus, hof.running, hof.vcpus]
  have hpages2mWeight : handle.chargedPages2m =
      if usesHugepages = true ∧ handle.recordedSize = .size2M then
        (divCeil2 memoryMb).toNat else 0 := by
    simp [VmHandle.chargedPages2m, hof.running, hof.memoryMb,
      hof.confidential]
  have hpages1gWeight : handle.chargedPages1g =
      if usesHugepages = true ∧ handle.recordedSize = .size1G then
        (memoryMb / 1024).toNat else 0 := by
    simp [VmHandle.chargedPages1g, hof.running, hof.memoryMb,
      hof.confidential]
  have hsize := hof.size
  cases hplaced with
  | plain hcpus huse =>
      rw [huse] at hpages2mWeight hpages1gWeight
      exact {
        vcpus := counter_charged hnode hposition
          (by rw [toNat_add_of_le_satSub hcpus, hvcpusWeight])
          hcharged.vcpus
        pages2m := counter_charged hnode hposition
          (by simp [hpages2mWeight]) hcharged.pages2m
        pages1g := counter_charged hnode hposition
          (by simp [hpages1gWeight]) hcharged.pages1g }
  | gigantic hcpus huse hpages =>
      rw [huse, hsize huse] at hpages2mWeight hpages1gWeight
      exact {
        vcpus := counter_charged hnode hposition
          (by rw [toNat_add_of_le_satSub hcpus, hvcpusWeight])
          hcharged.vcpus
        pages2m := counter_charged hnode hposition
          (by simp [hpages2mWeight]) hcharged.pages2m
        pages1g := counter_charged hnode hposition
          (by rw [toNat_add_of_le_satSub hpages, hpages1gWeight]; simp)
          hcharged.pages1g }
  | huge hcpus huse hpages =>
      rw [huse, hsize huse] at hpages2mWeight hpages1gWeight
      exact {
        vcpus := counter_charged hnode hposition
          (by rw [toNat_add_of_le_satSub hcpus, hvcpusWeight])
          hcharged.vcpus
        pages2m := counter_charged hnode hposition
          (by rw [toNat_add_of_le_satSub hpages, hpages2mWeight]; simp)
          hcharged.pages2m
        pages1g := counter_charged hnode hposition
          (by simp [hpages1gWeight]) hcharged.pages1g }

/-- One counter that is raised within its room stays within its bound. -/
theorem counter_within
    {counter bound : cfg.topology.Index → UInt32}
    {idx : cfg.topology.Index} {amount : UInt32}
    (hroom : amount ≤ satSub (bound idx) (counter idx))
    (hwithin : ∀ position, (counter position).toNat ≤
      (bound position).toNat) :
    ∀ position, (Function.update counter idx (counter idx + amount)
      position).toNat ≤ (bound position).toNat := by
  intro position
  by_cases hsame : position = idx
  · subst hsame
    have hat := hwithin position
    rw [Function.update_self, toNat_add_of_le_satSub hroom]
    rw [UInt32.le_iff_toNat_le, toNat_satSub] at hroom
    omega
  · rw [Function.update_of_ne hsame]
    exact hwithin position

theorem NumaFits.charge
    {numa next : NumaAllocator cfg.topology} {vcpus memoryMb : UInt32}
    {usesHugepages : Bool} {size : HugePageSize}
    {idx : cfg.topology.Index} (hfits : NumaFits numa)
    (hplaced : Placed numa vcpus memoryMb usesHugepages idx size next) :
    NumaFits next := by
  have hzero : ∀ used capacity : UInt32, 0 ≤ satSub capacity used :=
    fun _ _ => UInt32.zero_le
  cases hplaced with
  | plain hcpus huse =>
      exact {
        vcpus := counter_within hcpus hfits.vcpus
        pages2m := counter_within (hzero _ _) hfits.pages2m
        pages1g := counter_within (hzero _ _) hfits.pages1g }
  | gigantic hcpus huse hpages =>
      exact {
        vcpus := counter_within hcpus hfits.vcpus
        pages2m := counter_within (hzero _ _) hfits.pages2m
        pages1g := counter_within hpages hfits.pages1g }
  | huge hcpus huse hpages =>
      exact {
        vcpus := counter_within hcpus hfits.vcpus
        pages2m := counter_within hpages hfits.pages2m
        pages1g := counter_within (hzero _ _) hfits.pages1g }

/-! ## A release -/

def releasedPages1g (memoryMb : UInt32) : HugePageSize → UInt32
  | .size2M => 0
  | .size1G => memoryMb / 1024

theorem discharge_allocated1gPages
    (numa : NumaAllocator cfg.topology) (idx : cfg.topology.Index)
    (vcpus memoryMb : UInt32) (size : HugePageSize) :
    (numa.discharge idx vcpus memoryMb size).allocated1gPages =
      Function.update numa.allocated1gPages idx
        (satSub (numa.allocated1gPages idx)
          (releasedPages1g memoryMb size)) := by
  cases size with
  | size1G => rfl
  | size2M =>
      have hsame : satSub (numa.allocated1gPages idx) 0 =
          numa.allocated1gPages idx := by
        rw [satSub_eq_self_iff]
        exact .inl rfl
      simp only [NumaAllocator.discharge, releasedPages1g, hsame,
        Function.update_eq_self]

/-- The pages of this size that are taken on the node. -/
def takenPages (numa : NumaAllocator cfg.topology)
    (idx : cfg.topology.Index) : HugePageSize → UInt32
  | .size2M => numa.allocated2mPages idx
  | .size1G => numa.allocated1gPages idx

/-- A release subtracts from no counter more than the machine was charged: a
plain machine finds no pages to give back, and a stopped one no CPUs either. -/
def ReleaseExact (numa : NumaAllocator cfg.topology)
    (handle : VmHandle) : Prop :=
  ∀ numaNode idx, handle.numaNode = some numaNode →
    cfg.topology.position numaNode = some idx →
      (handle.state = .running ∨ handle.config.vcpus = 0 ∨
        numa.allocatedVcpus idx = 0) ∧
      (handle.state = .running ∧ isConfidential handle.config = true ∨
        handle.config.memoryMb = 0 ∨
        takenPages numa idx handle.recordedSize = 0)

theorem releaseExact_amounts
    {numa : NumaAllocator cfg.topology} {handle : VmHandle}
    {numaNode : UInt32} {idx : cfg.topology.Index}
    (hexact : ReleaseExact numa handle)
    (hnode : handle.numaNode = some numaNode)
    (hposition : cfg.topology.position numaNode = some idx) :
    (numa.allocatedVcpus idx).toNat - handle.config.vcpus.toNat =
        (numa.allocatedVcpus idx).toNat - handle.runningVcpus ∧
      (numa.allocated2mPages idx).toNat -
          (releasedPages2m handle.config.memoryMb
            handle.recordedSize).toNat =
        (numa.allocated2mPages idx).toNat - handle.chargedPages2m ∧
      (numa.allocated1gPages idx).toNat -
          (releasedPages1g handle.config.memoryMb
            handle.recordedSize).toNat =
        (numa.allocated1gPages idx).toNat - handle.chargedPages1g := by
  obtain ⟨hvcpus, hpages⟩ := hexact numaNode idx hnode hposition
  have hcpus : (numa.allocatedVcpus idx).toNat - handle.config.vcpus.toNat =
      (numa.allocatedVcpus idx).toNat - handle.runningVcpus := by
    unfold VmHandle.runningVcpus
    rcases hvcpus with hrunning | hzero | hempty
    · rw [if_pos hrunning]
    · simp [hzero]
    · simp [hempty]
  refine ⟨hcpus, ?_⟩
  unfold VmHandle.chargedPages2m VmHandle.chargedPages1g
  rcases hpages with ⟨hrunning, hconfidential⟩ | hzero | hempty
  · cases hsize : handle.recordedSize <;>
      simp [hrunning, hconfidential, releasedPages2m, releasedPages1g]
  · have hdiv : divCeil2 0 = 0 := by decide
    cases hsize : handle.recordedSize <;>
      simp [hzero, hdiv, releasedPages2m, releasedPages1g]
  · cases hsize : handle.recordedSize with
    | size2M =>
        simp only [hsize, takenPages] at hempty
        simp [hempty, releasedPages1g]
    | size1G =>
        simp only [hsize, takenPages] at hempty
        simp [hempty, releasedPages2m]

theorem RecordedCharged.release
    {numa : NumaAllocator cfg.topology} {handle : VmHandle}
    {rest : Multiset VmHandle}
    (hcharged : RecordedCharged numa (handle ::ₘ rest))
    (hexact : ReleaseExact numa handle) :
    RecordedCharged (releaseNuma numa handle) rest := by
  rcases releaseNuma_cases numa handle with
    ⟨hsame, hother, _⟩ | ⟨node, idx, hnode, hposition, hreleased⟩
  · rw [hsame]
    exact ⟨released_elsewhere hother hcharged.vcpus,
      released_elsewhere hother hcharged.pages2m,
      released_elsewhere hother hcharged.pages1g⟩
  · obtain ⟨hvcpus, hpages2m, hpages1g⟩ :=
      releaseExact_amounts hexact hnode hposition
    rw [hreleased]
    constructor
    · rw [discharge_allocatedVcpus]
      exact (counter_released_iff _ hnode hposition hcharged.vcpus).mpr
        hvcpus
    · rw [discharge_allocated2mPages]
      exact (counter_released_iff _ hnode hposition hcharged.pages2m).mpr
        hpages2m
    · rw [discharge_allocated1gPages]
      exact (counter_released_iff _ hnode hposition hcharged.pages1g).mpr
        hpages1g

theorem counter_lowered_within
    {counter : cfg.topology.Index → UInt32}
    {bound : cfg.topology.Index → ℕ} (idx : cfg.topology.Index)
    (amount : UInt32)
    (hwithin : ∀ position, (counter position).toNat ≤ bound position) :
    ∀ position, (Function.update counter idx (satSub (counter idx) amount)
      position).toNat ≤ bound position := by
  intro position
  by_cases hsame : position = idx
  · subst hsame
    have hat := hwithin position
    rw [Function.update_self, toNat_satSub]
    omega
  · rw [Function.update_of_ne hsame]
    exact hwithin position

theorem NumaFits.release
    {numa : NumaAllocator cfg.topology} (hfits : NumaFits numa)
    (handle : VmHandle) : NumaFits (releaseNuma numa handle) := by
  rcases releaseNuma_cases numa handle with
    ⟨hsame, _, _⟩ | ⟨node, idx, _, _, hreleased⟩
  · rw [hsame]
    exact hfits
  · rw [hreleased]
    constructor
    · rw [discharge_allocatedVcpus]
      exact counter_lowered_within idx _ hfits.vcpus
    · rw [discharge_allocated2mPages]
      exact counter_lowered_within idx _ hfits.pages2m
    · rw [discharge_allocated1gPages]
      exact counter_lowered_within idx _ hfits.pages1g

/-! ## The replay -/

/-- The state file of a machine that was placed on a node. -/
structure PlacedFile (cfg : NodeConfig) (persisted : PersistedVm) :
    Prop where
  node : ∃ node idx, persisted.numaNode = some node ∧
    cfg.topology.position node = some idx
  size : persisted.config.hugepageSize.isSome = true
  aligned : isConfidential persisted.config = true →
    persisted.config.hugepageSize = some .size1G →
      persisted.config.memoryMb % 1024 = 0

/-- A machine recorded 2 MiB pages and fits into the 1 GiB pages of its
node. -/
def FitsGigantic (cfg : NodeConfig) (config : VmConfig)
    (numaNode : Option UInt32) : Prop :=
  isConfidential config = true ∧ config.hugepageSize = some .size2M ∧
    config.memoryMb % 1024 = 0 ∧
    ∃ node idx, numaNode = some node ∧
      cfg.topology.position node = some idx ∧
      config.memoryMb / 1024 ≤
        (cfg.topology.nodes.get idx).total1gHugepages

/-- A confidential machine whose unit is active is placed on its node with
the page size it recorded. -/
def ReplaysRecorded (calls : RestartCalls)
    (numa : NumaAllocator cfg.topology) (persisted : PersistedVm) : Prop :=
  calls.unitActive persisted.config.vmId = true →
    isConfidential persisted.config = true →
      ∃ node placement next, persisted.numaNode = some node ∧
        numa.allocate persisted.config.vcpus persisted.config.memoryMb
          (some node) (isConfidential persisted.config) =
            .ok (placement, next) ∧
        persisted.config.hugepageSize = some placement.hugepageSize

theorem allocate_of_tryNode
    {topology : NumaTopology} {numa : NumaAllocator topology}
    {vcpus memoryMb node : UInt32} {usesHugepages : Bool}
    {idx : topology.Index} {placed : NumaPlacement × NumaAllocator topology}
    (hposition : topology.position node = some idx)
    (htry : numa.tryNode vcpus memoryMb usesHugepages idx = some placed) :
    numa.allocate vcpus memoryMb (some node) usesHugepages =
      .ok placed := by
  simp only [NumaAllocator.allocate, NumaTopology.candidates, hposition,
    List.findSome?_cons, htry]

theorem le_satSub_of_total
    {amount bound counter : UInt32} {weight total : ℕ}
    (hamount : weight = amount.toNat) (hcounter : counter.toNat = total)
    (hroom : weight + total ≤ bound.toNat) :
    amount ≤ satSub bound counter := by
  rw [UInt32.le_iff_toNat_le, toNat_satSub]
  omega

theorem recordedSize_recoveredHandle
    (cfg : NodeConfig) (calls : RestartCalls) {persisted : PersistedVm}
    {size : HugePageSize}
    (hsize : persisted.config.hugepageSize = some size) :
    (recoveredHandle cfg calls persisted).recordedSize = size := by
  simp [VmHandle.recordedSize, recoveredHandle, hsize]

section Replay

variable {numa : NumaAllocator cfg.topology} {handles : Multiset VmHandle}
  {calls : RestartCalls} {persisted : PersistedVm}

/-- With room for all that was recorded, the candidate loop takes the
recorded page size. -/
theorem tryNode_recorded
    {node : UInt32} {idx : cfg.topology.Index} {size : HugePageSize}
    (hcharged : RecordedCharged numa handles)
    (hnode : persisted.numaNode = some node)
    (hposition : cfg.topology.position node = some idx)
    (hsize : persisted.config.hugepageSize = some size)
    (hfile : PlacedFile cfg persisted)
    (hsmall : ¬ FitsGigantic cfg persisted.config persisted.numaNode)
    (hactive : calls.unitActive persisted.config.vmId = true)
    (hroom : TotalsFit cfg (recoveredHandle cfg calls persisted ::ₘ
      handles)) :
    ∃ taken next, numa.tryNode persisted.config.vcpus
        persisted.config.memoryMb (isConfidential persisted.config) idx =
          some (placementOn cfg.topology idx taken, next) ∧
      Placed numa persisted.config.vcpus persisted.config.memoryMb
        (isConfidential persisted.config) idx taken next ∧
      (isConfidential persisted.config = true → taken = size) := by
  have hrunning := recoveredHandle_running cfg hactive
  have hrecorded := recordedSize_recoveredHandle cfg calls hsize
  have hid : (recoveredHandle cfg calls persisted).numaNode =
      some (cfg.topology.nodes.get idx).id := by
    rw [id_of_position hposition]
    exact hnode
  have hvcpusRoom := hroom.vcpus idx
  have hpages2mRoom := hroom.pages2m idx
  have hpages1gRoom := hroom.pages1g idx
  rw [placedTotal_cons_self _ _ hid] at hvcpusRoom hpages2mRoom hpages1gRoom
  have hcpus : persisted.config.vcpus ≤ numa.availableCpus idx := by
    refine le_satSub_of_total ?_ (hcharged.vcpus idx) hvcpusRoom
    rw [VmHandle.runningVcpus, if_pos hrunning]
    rfl
  unfold NumaAllocator.tryNode
  rw [if_neg (UInt32.not_lt.mpr hcpus)]
  cases hconfidential : isConfidential persisted.config with
  | false =>
      exact ⟨.size2M, _, rfl, .plain hcpus rfl, fun h => by cases h⟩
  | true =>
      have hhandle : isConfidential
          (recoveredHandle cfg calls persisted).config = true :=
        hconfidential
      simp only [Bool.true_eq_false, if_false]
      cases size with
      | size1G =>
          have haligned := hfile.aligned hconfidential hsize
          have hpages : persisted.config.memoryMb / 1024 ≤
              numa.available1g idx := by
            refine le_satSub_of_total ?_ (hcharged.pages1g idx)
              hpages1gRoom
            rw [VmHandle.chargedPages1g,
              if_pos ⟨hrunning, hhandle, hrecorded⟩]
            rfl
          rw [if_pos ⟨haligned, hpages⟩]
          exact ⟨.size1G, _, rfl, .gigantic hcpus rfl hpages, fun _ => rfl⟩
      | size2M =>
          have hpages : divCeil2 persisted.config.memoryMb ≤
              numa.available2m idx := by
            refine le_satSub_of_total ?_ (hcharged.pages2m idx)
              hpages2mRoom
            rw [VmHandle.chargedPages2m,
              if_pos ⟨hrunning, hhandle, hrecorded⟩]
            rfl
          have hnot : ¬ (persisted.config.memoryMb % 1024 = 0 ∧
              persisted.config.memoryMb / 1024 ≤ numa.available1g idx) := by
            intro hfits
            refine hsmall ⟨hconfidential, hsize, hfits.1, node, idx, hnode,
              hposition, ?_⟩
            have hle := hfits.2
            rw [NumaAllocator.available1g, UInt32.le_iff_toNat_le,
              toNat_satSub] at hle
            rw [UInt32.le_iff_toNat_le]
            omega
          rw [if_neg hnot, if_pos hpages]
          exact ⟨.size2M, _, rfl, .huge hcpus rfl hpages, fun _ => rfl⟩

theorem replayNuma_recorded
    (hcharged : RecordedCharged numa handles)
    (hactive : calls.unitActive persisted.config.vmId = true)
    (hfile : PlacedFile cfg persisted)
    (hsmall : ¬ FitsGigantic cfg persisted.config persisted.numaNode)
    (hroom : TotalsFit cfg (recoveredHandle cfg calls persisted ::ₘ
      handles)) :
    ReplaysRecorded calls numa persisted ∧
      RecordedCharged (replayNuma calls numa persisted)
        (recoveredHandle cfg calls persisted ::ₘ handles) := by
  obtain ⟨node, idx, hnode, hposition⟩ := hfile.node
  obtain ⟨size, hsize⟩ := Option.isSome_iff_exists.mp hfile.size
  obtain ⟨taken, next, htry, hplaced, htaken⟩ := tryNode_recorded hcharged
    hnode hposition hsize hfile hsmall hactive hroom
  have hallocate := allocate_of_tryNode hposition htry
  constructor
  · intro _ hconfidential
    refine ⟨node, _, next, hnode, hallocate, ?_⟩
    rw [hsize, ← htaken hconfidential]
    rfl
  · have hnext : replayNuma calls numa persisted = next := by
      simp only [replayNuma, hactive, if_true, restoreNuma, hnode,
        hallocate]
    rw [hnext]
    refine hcharged.charge hnode hposition hplaced ⟨?_, rfl, rfl, rfl, ?_⟩
    · exact recoveredHandle_running cfg hactive
    · intro hconfidential
      rw [htaken hconfidential]
      exact recordedSize_recoveredHandle cfg calls hsize

/-- A machine whose unit is not active weighs nothing. -/
theorem RecordedCharged.cons_stopped
    {handle : VmHandle} (hcharged : RecordedCharged numa handles)
    (hstopped : handle.state = .stopped) :
    RecordedCharged numa (handle ::ₘ handles) := by
  constructor
  · intro idx
    rw [placedTotal_cons_of_zero handles idx
      (by simp [VmHandle.runningVcpus, hstopped])]
    exact hcharged.vcpus idx
  · intro idx
    rw [placedTotal_cons_of_zero handles idx
      (by simp [VmHandle.chargedPages2m, hstopped])]
    exact hcharged.pages2m idx
  · intro idx
    rw [placedTotal_cons_of_zero handles idx
      (by simp [VmHandle.chargedPages1g, hstopped])]
    exact hcharged.pages1g idx

theorem TotalsFit.of_add
    {first second : Multiset VmHandle}
    (hfit : TotalsFit cfg (first + second)) : TotalsFit cfg second := by
  have hle : ∀ weight idx, placedTotal cfg weight second idx ≤
      placedTotal cfg weight (first + second) idx := by
    intro weight idx
    rw [placedTotal, placedTotal, total_add]
    exact Nat.le_add_left _ _
  constructor
  · intro idx
    exact (hle _ idx).trans (hfit.vcpus idx)
  · intro idx
    exact (hle _ idx).trans (hfit.pages2m idx)
  · intro idx
    exact (hle _ idx).trans (hfit.pages1g idx)

/-- By induction on the list of files.  There is room for every file because
there is room for all of them together. -/
theorem run_replayNuma_recorded
    {persistedVms : List PersistedVm}
    (hcharged : RecordedCharged numa handles)
    (hfiles : ∀ persisted ∈ persistedVms,
      calls.unitActive persisted.config.vmId = true →
        PlacedFile cfg persisted ∧
          ¬ FitsGigantic cfg persisted.config persisted.numaNode)
    (hroom : TotalsFit cfg (Multiset.ofList (persistedVms.map
      (recoveredHandle cfg calls)) + handles)) :
    Along (replayNuma calls) (ReplaysRecorded calls) numa persistedVms ∧
      RecordedCharged (run (replayNuma calls) numa persistedVms)
        (Multiset.ofList (persistedVms.map (recoveredHandle cfg calls)) +
          handles) := by
  induction persistedVms generalizing numa handles with
  | nil => exact ⟨trivial, by simpa [run] using hcharged⟩
  | cons persisted rest ih =>
      rw [List.map_cons, ← Multiset.cons_coe, Multiset.cons_add,
        ← Multiset.add_cons] at hroom ⊢
      have hhead : ReplaysRecorded calls numa persisted ∧
          RecordedCharged (replayNuma calls numa persisted)
            (recoveredHandle cfg calls persisted ::ₘ handles) := by
        cases hactive : calls.unitActive persisted.config.vmId with
        | true =>
            have hfile := hfiles persisted List.mem_cons_self hactive
            exact replayNuma_recorded hcharged hactive hfile.1 hfile.2
              hroom.of_add
        | false =>
            have hsame : replayNuma calls numa persisted = numa := by
              simp [replayNuma, hactive]
            rw [hsame]
            refine ⟨?_, hcharged.cons_stopped
              (recoveredHandle_stopped cfg hactive)⟩
            intro htrue
            rw [hactive] at htrue
            cases htrue
      obtain ⟨hrest, hafter⟩ := ih hhead.2
        (fun other hother =>
          hfiles other (List.mem_cons_of_mem persisted hother)) hroom
      exact ⟨⟨hhead.1, hrest⟩, hafter⟩

end Replay

end AlephCvm.Vm
