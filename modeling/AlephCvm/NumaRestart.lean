import AlephCvm.NumaCharges
import AlephCvm.StateMirror

/-!
# The NUMA counters across a restart

Recovery charges the recorded node of each machine whose unit is active, and
chooses the page size anew from counters that are filled in directory order.

`LedgerHeld` is the invariant of a run: the counters show what the running
machines recorded, they stay within the capacity of each node, and every
machine has a file with its configuration and its node.  In such a state a
restart gives the counters back, whatever the order, exactly when no machine
that recorded 2 MiB pages would fit into the 1 GiB pages of its node.
-/

namespace AlephCvm.Vm

open ResultContext StepRuns TableFolds GrantLedger AlephCvm.Tee
open AlephCvm.Numa AlephCvm.Net AlephCvm.Nft AlephCvm.Qemu

variable {cfg : NodeConfig}

/-! ## The invariant -/

structure LedgerHeld (node : Node cfg) : Prop where
  named : FilesNamed node.stateDir
  placed : ∀ name persisted, node.stateDir.lookup name = some persisted →
    PlacedFile cfg persisted
  saved : ∀ id handle, node.vms.lookup id = some handle → id ≠ "" ∧
    ∃ persisted, node.stateDir.lookup (stateFile id) = some persisted ∧
      persisted.config = handle.config ∧
      persisted.numaNode = handle.numaNode
  charged : RecordedCharged node.numa (values node.vms)
  fits : NumaFits node.numa

theorem LedgerHeld.fresh
    (cfg : NodeConfig) (taps : Finset String) (ruleset : Ruleset)
    (hostsdir : AList fun _ : String => String) :
    LedgerHeld (Node.fresh cfg taps ruleset hostsdir ∅) := by
  have hzero : ∀ weight idx, placedTotal cfg weight 0 idx = 0 := by
    intro weight idx
    exact total_zero _ _ _
  have hvalues : values (Node.fresh cfg taps ruleset hostsdir ∅).vms = 0 :=
    rfl
  exact {
    named := (Node.fresh_ledgerKept taps ruleset hostsdir).named
    placed := by simp [Node.fresh]
    saved := by simp [Node.fresh]
    charged := by
      rw [hvalues]
      constructor <;> intro idx <;> rw [hzero] <;> rfl
    fits := by
      constructor <;> intro idx <;> exact Nat.zero_le _ }

/-- The condition on one operation.  A creation saves what it completes and
does not leave counters behind when it fails; a deletion releases what was
charged; the units that are active at a restart are those of running
machines, and none of these fits into the 1 GiB pages while it recorded
2 MiB pages. -/
def Node.NumaKept (node : Node cfg) : ManagerOp → Prop
  | .createVm calls config requestedIpv6 numaHint =>
      config.vmId ≠ "" ∧ drivesAccepted calls config = true ∧
        (calls.spawn = .ok () ∨ node.NumaGivesBack config numaHint) ∧
        (node.Completes calls config requestedIpv6 numaHint →
          calls.save = true)
  | .deleteVm _ id => ∀ handle, node.vms.lookup id = some handle →
      ReleaseExact node.numa handle
  | .restart calls => ∀ persisted ∈ loadedVms calls node.stateDir,
      calls.unitActive persisted.config.vmId = true →
        (∃ handle, node.vms.lookup persisted.config.vmId = some handle ∧
          handle.state = .running) ∧
        ¬ FitsGigantic cfg persisted.config persisted.numaNode
  | _ => True

/-! ## Creations -/

theorem tryNode_aligned
    {topology : NumaTopology} {numa next : NumaAllocator topology}
    {vcpus memoryMb : UInt32} {usesHugepages : Bool}
    {idx : topology.Index} {placement : NumaPlacement}
    (htry : numa.tryNode vcpus memoryMb usesHugepages idx =
      some (placement, next))
    (hsize : placement.hugepageSize = .size1G) : memoryMb % 1024 = 0 := by
  unfold NumaAllocator.tryNode at htry
  split_ifs at htry with hcpus huse h1g h2m
  · simp only [Option.some.injEq, Prod.mk.injEq] at htry
    rw [← htry.1] at hsize
    cases hsize
  · exact h1g.1
  · simp only [Option.some.injEq, Prod.mk.injEq] at htry
    rw [← htry.1] at hsize
    cases hsize

theorem allocate_aligned
    {topology : NumaTopology} {numa next : NumaAllocator topology}
    {vcpus memoryMb : UInt32} {hint : Option UInt32} {usesHugepages : Bool}
    {placement : NumaPlacement}
    (hallocate : numa.allocate vcpus memoryMb hint usesHugepages =
      .ok (placement, next))
    (hsize : placement.hugepageSize = .size1G) : memoryMb % 1024 = 0 := by
  obtain ⟨idx, htry⟩ := NumaAllocator.allocate_tryNode hallocate
  exact tryNode_aligned htry hsize

section Creation

variable {node after : Node cfg} {calls : CreateCalls} {config : VmConfig}
  {numaHint : Option UInt32} {launch : Launch}

/-- The node of the placement is the one that was charged. -/
theorem LaunchOf.charged
    {next : NumaAllocator cfg.topology}
    (hlaunch : LaunchOf node.numa next config numaHint launch) :
    ∃ idx, cfg.topology.position launch.placement.node = some idx ∧
      Placed node.numa config.vcpus config.memoryMb
        (isConfidential config) idx launch.placement.hugepageSize next := by
  obtain ⟨idx, hplacement, hplaced⟩ :=
    NumaAllocator.allocate_placed hlaunch.allocated
  refine ⟨idx, ?_, hplaced⟩
  rw [hplacement]
  exact cfg.distinct_ids.position_id idx

/-- The handle of a new machine and the counters that were charged for it. -/
theorem LaunchOf.recorded
    {next : NumaAllocator cfg.topology} {rest : Multiset VmHandle}
    (hlaunch : LaunchOf node.numa next config numaHint launch)
    (hcharged : RecordedCharged node.numa rest) (hfits : NumaFits node.numa)
    (vmIp : Ipv4Addr) (vmIpv6 : Option Ipv6Net) (now : ℕ) :
    RecordedCharged next (createdHandle cfg launch vmIp vmIpv6 now ::ₘ
      rest) ∧ NumaFits next := by
  obtain ⟨idx, hposition, hplaced⟩ := hlaunch.charged
  refine ⟨hcharged.charge rfl hposition hplaced ?_, hfits.charge hplaced⟩
  refine ⟨rfl, hlaunch.vcpus, hlaunch.memoryMb, ?_, fun _ => ?_⟩
  · exact congrArg (fun tee => tee.backend != TeeType.none) hlaunch.tee
  · show launch.config.hugepageSize.getD .size2M = _
    rw [hlaunch.hugepageSize]
    rfl

theorem LaunchOf.placedFile
    {next : NumaAllocator cfg.topology} {persisted : PersistedVm}
    (hlaunch : LaunchOf node.numa next config numaHint launch)
    (hconfig : persisted.config = launch.config)
    (hnode : persisted.numaNode = some launch.placement.node) :
    PlacedFile cfg persisted := by
  obtain ⟨idx, hposition, -⟩ := hlaunch.charged
  refine ⟨⟨_, idx, hnode, hposition⟩, ?_, ?_⟩
  · rw [hconfig, hlaunch.hugepageSize]
    rfl
  · intro _ hsize
    rw [hconfig, hlaunch.hugepageSize, Option.some.injEq] at hsize
    rw [hconfig, hlaunch.memoryMb]
    exact allocate_aligned hlaunch.allocated hsize

theorem LedgerHeld.congr
    (hheld : LedgerHeld node) (hvms : after.vms = node.vms)
    (hdir : after.stateDir = node.stateDir)
    (hnuma : after.numa = node.numa) : LedgerHeld after := by
  obtain ⟨hnamed, hplaced, hsaved, hcharged, hfits⟩ := hheld
  constructor
  · rw [hdir]
    exact hnamed
  · rw [hdir]
    exact hplaced
  · rw [hvms, hdir]
    exact hsaved
  · rw [hvms, hnuma]
    exact hcharged
  · rw [hnuma]
    exact hfits

theorem CreateNuma.numa_of_failed
    {failure : Failure}
    (heffect : CreateNuma node calls config numaHint
      (.error failure, after))
    (hdrives : drivesAccepted calls config = true)
    (hspawn : calls.spawn = .ok () ∨ node.NumaGivesBack config numaHint) :
    after.numa = node.numa := by
  cases heffect with
  | kept failure after hnuma => exact hnuma
  | panicked failure after hpanics =>
      rw [hdrives] at hpanics
      cases hpanics
  | undone failure after launch next message hfailed hlaunch hnuma =>
      rcases hspawn with hspawned | hgives
      · rw [hspawned] at hfailed
        cases hfailed
      · rw [hnuma]
        exact (NumaAllocator.release_allocate_eq_iff cfg.distinct_ids
          hlaunch.allocated).mpr (hgives _ _ hlaunch.allocated)

theorem LedgerHeld.created
    (hheld : LedgerHeld node) {requestedIpv6 vmIpv6 : Option Ipv6Net}
    {offset : UInt8} {info : VmInfo}
    (hcreated : Created node calls config requestedIpv6 offset vmIpv6
      launch after)
    (heffect : CreateNuma node calls config numaHint (.ok info, after))
    (hvmId : config.vmId ≠ "") (hsave : calls.save = true) :
    LedgerHeld after := by
  cases heffect with
  | charged info after other vmIp otherIpv6 hvms hlaunch =>
      have hlookup : after.vms.lookup config.vmId =
          some (createdHandle cfg launch (allocateVmIp cfg.gatewayIp offset)
            vmIpv6 calls.now) := by
        rw [hcreated.vms]
        exact AList.lookup_insert _
      have hhandle := hlookup.symm.trans hvms
      rw [Option.some.injEq] at hhandle
      have hconfig : launch.config = other.config :=
        congrArg VmHandle.config hhandle
      have hnode : some launch.placement.node =
          some other.placement.node := congrArg VmHandle.numaNode hhandle
      have hdir := hcreated.stateDir
      rw [Node.saveVm, if_pos hsave] at hdir
      simp only at hdir
      have hrecorded := hlaunch.recorded hheld.charged hheld.fits vmIp
        otherIpv6 calls.now
      refine ⟨hcreated.filesNamed hheld.named, ?_, ?_, ?_, hrecorded.2⟩
      · intro name persisted hfile
        rw [hdir] at hfile
        rcases lookup_insert_iff.mp hfile with ⟨_, rfl⟩ | ⟨_, hold⟩
        · exact hlaunch.placedFile hconfig hnode
        · exact hheld.placed name persisted hold
      · intro id handle hfound
        rw [hdir]
        rcases hcreated.vms_lookup_iff.mp hfound with ⟨rfl, rfl⟩ | hold
        · exact ⟨hvmId, _, AList.lookup_insert _, rfl, rfl⟩
        · obtain ⟨hne, persisted, hfile, hsame⟩ :=
            hheld.saved id handle hold
          have hid : id ≠ config.vmId := by
            rintro rfl
            rw [hcreated.vms_fresh] at hold
            cases hold
          refine ⟨hne, persisted, ?_, hsame⟩
          rw [AList.lookup_insert_ne
            fun heq => hid (stateFile_injective heq)]
          exact hfile
      · rw [hcreated.vms, hhandle, values_insert_of_lookup_none _
          hcreated.vms_fresh]
        exact hrecorded.1

end Creation

/-! ## Deletions and forwards -/

theorem LedgerHeld.deleted
    {node : Node cfg} (hheld : LedgerHeld node) {calls : DeleteCalls}
    {id : String} {handle : VmHandle}
    (hlookup : node.vms.lookup id = some handle)
    (hexact : ReleaseExact node.numa handle) :
    LedgerHeld (node.deleteHandle calls id handle) := by
  have hdeleted := node.deleteHandle_deleted calls id handle
  have hnuma := node.deleteHandle_numa calls id handle
  have hcharged := hheld.charged
  rw [values_erase hlookup] at hcharged
  have hdir : ∀ name persisted,
      (node.deleteHandle calls id handle).stateDir.lookup name =
        some persisted → node.stateDir.lookup name = some persisted := by
    intro name persisted hfile
    rw [hdeleted.stateDir] at hfile
    split_ifs at hfile
    · exact (lookup_erase_iff.mp hfile).2
    · exact hfile
  constructor
  · intro name persisted hfile
    exact hheld.named name persisted (hdir name persisted hfile)
  · intro name persisted hfile
    exact hheld.placed name persisted (hdir name persisted hfile)
  · intro other otherHandle hother
    obtain ⟨hid, hold⟩ := hdeleted.vms_lookup_iff.mp hother
    obtain ⟨hne, persisted, hfile, hsame⟩ :=
      hheld.saved other otherHandle hold
    refine ⟨hne, persisted, ?_, hsame⟩
    rw [hdeleted.stateDir]
    split_ifs
    · exact lookup_erase_iff.mpr
        ⟨fun heq => hid (stateFile_injective heq), hfile⟩
    · exact hfile
  · rw [hdeleted.vms, hnuma]
    exact hcharged.release hexact
  · rw [hnuma]
    exact hheld.fits.release handle

/-- A file that is rewritten with another list of forwards says the same
about the placement. -/
theorem LedgerHeld.forwardsSaved
    {node between after : Node cfg} (hheld : LedgerHeld node)
    {calls : ForwardCalls} {vmId : String}
    (hsaved : ForwardsSaved between calls vmId after)
    (hvms : between.vms = node.vms)
    (hdir : between.stateDir = node.stateDir)
    (hnuma : between.numa = node.numa) :
    LedgerHeld after := by
  have hbetween := hheld.congr hvms hdir hnuma
  cases hsaved with
  | unsaved hunsaved => exact hbetween
  | saved persisted hfile =>
      refine ⟨?_, ?_, ?_, hbetween.charged, hbetween.fits⟩
      · have hname := hbetween.named _ persisted hfile
        rw [hname]
        exact hbetween.named.insert { persisted with
          portForwards := PortForwardState.listForVm between.portForwards
            calls.order vmId }
      · intro name found hlookup
        have hplaced := hbetween.placed _ persisted hfile
        rcases lookup_insert_iff.mp hlookup with ⟨_, rfl⟩ | ⟨_, hold⟩
        · exact ⟨hplaced.node, hplaced.size, hplaced.aligned⟩
        · exact hbetween.placed name found hold
      · intro id handle hlookup
        obtain ⟨hne, found, hfound, hsame⟩ :=
          hbetween.saved id handle hlookup
        refine ⟨hne, ?_⟩
        by_cases hid : stateFile id = stateFile vmId
        · rw [hid, hfile, Option.some.injEq] at hfound
          subst hfound
          refine ⟨{ persisted with
            portForwards := PortForwardState.listForVm between.portForwards
              calls.order vmId }, ?_, hsame⟩
          rw [hid]
          exact AList.lookup_insert _
        · exact ⟨found, (AList.lookup_insert_ne hid).trans hfound, hsame⟩

/-! ## Restarts -/

/-- The weights look at the state and the configuration of a machine, and a
stopped machine has none. -/
theorem weight_congr
    {weight : VmHandle → ℕ}
    (hweight : weight ∈ [VmHandle.runningVcpus, VmHandle.chargedPages2m,
      VmHandle.chargedPages1g]) {first second : VmHandle}
    (hstate : first.state = second.state)
    (hconfig : first.config = second.config) :
    weight first = weight second := by
  simp only [List.mem_cons, List.not_mem_nil, or_false] at hweight
  rcases hweight with rfl | rfl | rfl
  · simp only [VmHandle.runningVcpus, hstate, hconfig]
  · unfold VmHandle.chargedPages2m VmHandle.recordedSize
    rw [hstate, hconfig]
  · unfold VmHandle.chargedPages1g VmHandle.recordedSize
    rw [hstate, hconfig]

theorem running_of_weight
    {weight : VmHandle → ℕ}
    (hweight : weight ∈ [VmHandle.runningVcpus, VmHandle.chargedPages2m,
      VmHandle.chargedPages1g]) {handle : VmHandle}
    (hne : weight handle ≠ 0) : handle.state = .running := by
  simp only [List.mem_cons, List.not_mem_nil, or_false] at hweight
  by_contra hstopped
  apply hne
  rcases hweight with rfl | rfl | rfl
  · simp [VmHandle.runningVcpus, hstopped]
  · simp [VmHandle.chargedPages2m, hstopped]
  · simp [VmHandle.chargedPages1g, hstopped]

theorem unitActive_of_recovered_running
    {calls : RestartCalls} {persisted : PersistedVm}
    (hrunning : (recoveredHandle cfg calls persisted).state = .running) :
    calls.unitActive persisted.config.vmId = true := by
  cases hactive : calls.unitActive persisted.config.vmId with
  | true => rfl
  | false =>
      rw [recoveredHandle_stopped cfg hactive] at hrunning
      cases hrunning

section Restart

variable {node : Node cfg} {calls : RestartCalls}

theorem Node.restart_values
    (hnamed : FilesNamed node.stateDir) (calls : RestartCalls) :
    values (node.restart calls).vms =
      Multiset.ofList ((loadedVms calls node.stateDir).map
        (recoveredHandle cfg calls)) := by
  have hvalues : values (insertAll (fun persisted => persisted.config.vmId)
      (recoveredHandle cfg calls) (loadedVms calls node.stateDir) ∅) =
        Multiset.ofList ((loadedVms calls node.stateDir).map
          (recoveredHandle cfg calls)) + 0 :=
    values_insertAll_of_nodup (loadedVms_nodup calls hnamed)
      (fun _ _ => AList.lookup_empty _)
  rw [Node.restart_eq, recoverVms_vms]
  simp only [Node.fresh]
  rw [hvalues, Multiset.add_zero]

/-- The file of a machine is the one that was loaded for its id. -/
theorem LedgerHeld.loaded_file
    (hheld : LedgerHeld node) {persisted : PersistedVm} {handle : VmHandle}
    (hloaded : persisted ∈ loadedVms calls node.stateDir)
    (hlookup : node.vms.lookup persisted.config.vmId = some handle) :
    persisted.config = handle.config ∧
      persisted.numaNode = handle.numaNode := by
  obtain ⟨name, hfile⟩ := exists_file_of_mem_loadedVms hloaded
  obtain ⟨_, found, hfound, hsame⟩ := hheld.saved _ _ hlookup
  rw [← hheld.named name persisted hfile, hfile, Option.some.injEq]
    at hfound
  rw [hfound]
  exact hsame

/-- The loaded machines weigh no more than the machines before the restart. -/
theorem LedgerHeld.restart_total_le
    (hheld : LedgerHeld node) (hkept : node.NumaKept (.restart calls))
    {weight : VmHandle → ℕ}
    (hweight : weight ∈ [VmHandle.runningVcpus, VmHandle.chargedPages2m,
      VmHandle.chargedPages1g]) (idx : cfg.topology.Index) :
    placedTotal cfg weight (values (node.restart calls).vms) idx ≤
      placedTotal cfg weight (values node.vms) idx := by
  rw [Node.restart_values hheld.named calls, placedTotal, total,
    ← Multiset.map_coe, Multiset.map_map]
  refine sum_le_values (loadedVms_nodup calls hheld.named) ?_
  intro persisted hloaded hne
  simp only [Function.comp_apply] at hne ⊢
  have hweightNe : weight (recoveredHandle cfg calls persisted) ≠ 0 := by
    intro hzero
    rw [hzero, ite_self] at hne
    exact hne rfl
  have hrunning := running_of_weight hweight hweightNe
  have hactive := unitActive_of_recovered_running hrunning
  obtain ⟨⟨handle, hlookup, hhandle⟩, _⟩ :=
    hkept persisted hloaded hactive
  obtain ⟨hconfig, hnode⟩ := hheld.loaded_file hloaded hlookup
  refine ⟨handle, hlookup, le_of_eq ?_⟩
  have hsame : weight (recoveredHandle cfg calls persisted) =
      weight handle :=
    weight_congr hweight (hrunning.trans hhandle.symm) hconfig
  have hsameNode : (recoveredHandle cfg calls persisted).numaNode =
      handle.numaNode := hnode
  rw [hsame, hsameNode]

theorem LedgerHeld.restart_replay
    (hheld : LedgerHeld node) (hkept : node.NumaKept (.restart calls)) :
    Along (replayNuma calls) (ReplaysRecorded calls) (.new cfg.topology)
        (loadedVms calls node.stateDir) ∧
      RecordedCharged (node.restart calls).numa
        (values (node.restart calls).vms) ∧
      TotalsFit cfg (values (node.restart calls).vms) := by
  have hbefore := hheld.charged.totalsFit hheld.fits
  have hfit : TotalsFit cfg (values (node.restart calls).vms) := by
    constructor
    · intro idx
      exact (hheld.restart_total_le hkept (by simp) idx).trans
        (hbefore.vcpus idx)
    · intro idx
      exact (hheld.restart_total_le hkept (by simp) idx).trans
        (hbefore.pages2m idx)
    · intro idx
      exact (hheld.restart_total_le hkept (by simp) idx).trans
        (hbefore.pages1g idx)
  have hempty : RecordedCharged (NumaAllocator.new cfg.topology) 0 :=
    (LedgerHeld.fresh cfg ∅ supervisorRuleset ∅).charged
  have hfiles : ∀ persisted ∈ loadedVms calls node.stateDir,
      calls.unitActive persisted.config.vmId = true →
        PlacedFile cfg persisted ∧
          ¬ FitsGigantic cfg persisted.config persisted.numaNode := by
    intro persisted hloaded hactive
    obtain ⟨name, hfile⟩ := exists_file_of_mem_loadedVms hloaded
    exact ⟨hheld.placed name persisted hfile,
      (hkept persisted hloaded hactive).2⟩
  have hvalues := Node.restart_values hheld.named calls
  have hroom := hfit
  rw [hvalues, ← Multiset.add_zero (Multiset.ofList _)] at hroom
  obtain ⟨halong, hcharged⟩ :=
    run_replayNuma_recorded hempty hfiles hroom
  refine ⟨halong, ?_, hfit⟩
  rw [hvalues, Node.restart_eq, recoverVms_numa]
  rw [Multiset.add_zero] at hcharged
  exact hcharged

theorem NumaFits.of_totals
    {numa : NumaAllocator cfg.topology} {handles : Multiset VmHandle}
    (hcharged : RecordedCharged numa handles)
    (hfit : TotalsFit cfg handles) : NumaFits numa := by
  constructor
  · intro idx
    rw [hcharged.vcpus idx]
    exact hfit.vcpus idx
  · intro idx
    rw [hcharged.pages2m idx]
    exact hfit.pages2m idx
  · intro idx
    rw [hcharged.pages1g idx]
    exact hfit.pages1g idx

theorem LedgerHeld.restart
    (hheld : LedgerHeld node) (hkept : node.NumaKept (.restart calls)) :
    LedgerHeld (node.restart calls) := by
  obtain ⟨_, hcharged, hfit⟩ := hheld.restart_replay hkept
  refine ⟨?_, ?_, ?_, hcharged, .of_totals hcharged hfit⟩
  · rw [Node.restart_stateDir]
    exact hheld.named
  · rw [Node.restart_stateDir]
    exact hheld.placed
  · intro id handle hlookup
    obtain ⟨persisted, hloaded, rfl, rfl⟩ :=
      (Node.restart_vms_lookup_iff hheld.named calls).mp hlookup
    obtain ⟨_, name, hfile, hjson, _⟩ := mem_loadedVms_iff.mp hloaded
    have hname := hheld.named name persisted hfile
    rw [hname] at hfile hjson
    rw [Node.restart_stateDir]
    refine ⟨?_, persisted, hfile, rfl, rfl⟩
    intro hempty
    rw [hempty] at hjson
    revert hjson
    decide

end Restart

/-! ## Runs -/

theorem LedgerHeld.step
    {node : Node cfg} (hheld : LedgerHeld node) {op : ManagerOp}
    (hkept : node.NumaKept op) : LedgerHeld (node.step op) := by
  cases op with
  | createVm calls config requestedIpv6 numaHint =>
      obtain ⟨hvmId, hdrives, hspawn, hsave⟩ := hkept
      have heffect := node.createVm_effect calls config requestedIpv6
        numaHint
      have hnuma := node.createVm_numa calls config requestedIpv6 numaHint
      simp only [Node.step]
      generalize node.createVm calls config requestedIpv6 numaHint = result
        at heffect hnuma
      cases heffect with
      | refused failure hrefused => exact hheld
      | failed failure offset after hfresh hfree hfailed hsame =>
          exact hheld.congr hsame.vms hsame.stateDir
            (hnuma.numa_of_failed hdrives hspawn)
      | created info offset vmIpv6 launch after hcompletes hcreated =>
          exact hheld.created hcreated hnuma hvmId (hsave hcompletes)
  | deleteVm calls id =>
      simp only [Node.step, Node.deleteVm]
      cases hlookup : node.vms.lookup id with
      | none => exact hheld
      | some handle => exact hheld.deleted hlookup (hkept handle hlookup)
  | addPortForward calls vmId hostPort vmPort protocol =>
      have heffect := node.addPortForward_effect calls vmId hostPort vmPort
        protocol
      simp only [Node.step]
      generalize (node.addPortForward calls vmId hostPort vmPort
        protocol).2 = after at heffect
      cases heffect with
      | refused => exact hheld
      | rolledBack forward hfree => exact hheld.congr rfl rfl rfl
      | added forward handle ruleset _ hvm howner hfree hsaved =>
          exact hheld.forwardsSaved hsaved rfl rfl rfl
  | removePortForward calls hostPort protocol =>
      have heffect := node.removePortForward_effect calls hostPort protocol
      simp only [Node.step]
      generalize (node.removePortForward calls hostPort protocol).2 = after
        at heffect
      cases heffect with
      | refused => exact hheld
      | unsaved key hfailed => exact hheld.congr rfl rfl rfl
      | removed key forward ruleset _ hfound hsaved =>
          exact hheld.forwardsSaved hsaved rfl rfl rfl
  | restart calls => exact hheld.restart hkept

theorem LedgerHeld.run
    {node : Node cfg} (hheld : LedgerHeld node) {ops : List ManagerOp}
    (hkept : Along Node.step Node.NumaKept node ops) :
    LedgerHeld (run Node.step node ops) := by
  induction ops generalizing node with
  | nil => exact hheld
  | cons op rest ih => exact ih (hheld.step hkept.1) hkept.2

/-- The directory and all files can be read, and the units of the machines
are the active ones; the order of the directory is any. -/
structure RestartCalls.UnitsOf (calls : RestartCalls) (node : Node cfg) :
    Prop where
  readDir : calls.readDir = .ok ()
  readable : ∀ name, calls.readable name = true
  unitActive : ∀ id, calls.unitActive id = true ↔
    ∃ handle, node.vms.lookup id = some handle

/-- Whatever the order of the directory, a restart with all units active
gives the counters back and charges every machine for the page size in its
file. -/
def Node.NumaSurvivesRestart (node : Node cfg) : Prop :=
  ∀ calls : RestartCalls, calls.UnitsOf node →
    (node.restart calls).numa = node.numa ∧
      Along (replayNuma calls) (ReplaysRecorded calls) (.new cfg.topology)
        (loadedVms calls node.stateDir)

/-- Some machine recorded 2 MiB pages and fits into the 1 GiB pages of its
node. -/
def Node.FitsGigantic (node : Node cfg) : Prop :=
  ∃ id handle, node.vms.lookup id = some handle ∧
    Vm.FitsGigantic cfg handle.config handle.numaNode

section Survival

variable {node : Node cfg}

theorem LedgerHeld.numaKept_restart
    (hheld : LedgerHeld node)
    (hrunning : ∀ id handle, node.vms.lookup id = some handle →
      handle.state = .running)
    (hsmall : ¬ node.FitsGigantic) {calls : RestartCalls}
    (hunits : calls.UnitsOf node) : node.NumaKept (.restart calls) := by
  intro persisted hloaded hactive
  obtain ⟨handle, hlookup⟩ := (hunits.unitActive _).mp hactive
  obtain ⟨hconfig, hnode⟩ := hheld.loaded_file hloaded hlookup
  refine ⟨⟨handle, hlookup, hrunning _ handle hlookup⟩, ?_⟩
  intro hfits
  rw [hconfig, hnode] at hfits
  exact hsmall ⟨_, handle, hlookup, hfits⟩

/-- The machine of a state in which all files are read is loaded again. -/
theorem LedgerHeld.exists_loaded
    (hheld : LedgerHeld node) {calls : RestartCalls}
    (hunits : calls.UnitsOf node) {id : String} {handle : VmHandle}
    (hlookup : node.vms.lookup id = some handle) :
    ∃ persisted ∈ loadedVms calls node.stateDir,
      persisted.config.vmId = id ∧ persisted.config = handle.config ∧
        persisted.numaNode = handle.numaNode := by
  obtain ⟨hne, persisted, hfile, hconfig, hnode⟩ :=
    hheld.saved id handle hlookup
  have hid := stateFile_injective (hheld.named _ persisted hfile)
  refine ⟨persisted, ?_, hid.symm, hconfig, hnode⟩
  rw [mem_loadedVms_iff]
  exact ⟨hunits.readDir, _, hfile, hasJsonExtension_stateFile hne,
    hunits.readable _⟩

theorem LedgerHeld.restart_total_ge
    (hheld : LedgerHeld node)
    (hrunning : ∀ id handle, node.vms.lookup id = some handle →
      handle.state = .running) {calls : RestartCalls}
    (hunits : calls.UnitsOf node) {weight : VmHandle → ℕ}
    (hweight : weight ∈ [VmHandle.runningVcpus, VmHandle.chargedPages2m,
      VmHandle.chargedPages1g]) (idx : cfg.topology.Index) :
    placedTotal cfg weight (values node.vms) idx ≤
      placedTotal cfg weight (values (node.restart calls).vms) idx := by
  have hkeys : (node.vms.entries.map Sigma.fst).Nodup :=
    node.vms.nodupKeys
  rw [placedTotal, total, values, ← Multiset.map_coe, Multiset.map_map]
  refine sum_le_values hkeys ?_
  intro entry hentry _
  have hlookup := AList.mem_lookup_iff.mpr hentry
  obtain ⟨persisted, hloaded, hid, hconfig, hnode⟩ :=
    hheld.exists_loaded hunits hlookup
  have hactive : calls.unitActive persisted.config.vmId = true := by
    rw [hid]
    exact (hunits.unitActive _).mpr ⟨entry.2, hlookup⟩
  refine ⟨recoveredHandle cfg calls persisted, ?_, le_of_eq ?_⟩
  · rw [Node.restart_vms_lookup_iff hheld.named]
    exact ⟨persisted, hloaded, hid, rfl⟩
  · have hsame : weight entry.2 =
        weight (recoveredHandle cfg calls persisted) :=
      weight_congr hweight ((hrunning _ _ hlookup).trans
        (recoveredHandle_running cfg hactive).symm) hconfig.symm
    have hsameNode : entry.2.numaNode =
        (recoveredHandle cfg calls persisted).numaNode := hnode.symm
    simp only [Function.comp_apply]
    rw [hsame, hsameNode]

theorem LedgerHeld.survives
    (hheld : LedgerHeld node)
    (hrunning : ∀ id handle, node.vms.lookup id = some handle →
      handle.state = .running)
    (hsmall : ¬ node.FitsGigantic) : node.NumaSurvivesRestart := by
  intro calls hunits
  have hkept := hheld.numaKept_restart hrunning hsmall hunits
  obtain ⟨halong, hcharged, _⟩ := hheld.restart_replay hkept
  refine ⟨hcharged.numa_eq hheld.charged ?_, halong⟩
  intro weight hweight idx
  exact Nat.le_antisymm (hheld.restart_total_le hkept hweight idx)
    (hheld.restart_total_ge hrunning hunits hweight idx)

/-- A restart with the units of the node, from a given place of the
directory. -/
def restartFrom (node : Node cfg) (start : ℕ) : RestartCalls where
  taps := node.taps
  ruleset := node.ruleset
  hostsdir := node.hostsdir
  readDir := .ok ()
  order := .rotated start
  readable := fun _ => true
  unitActive := fun id => (node.vms.lookup id).isSome
  nftSetup := fun _ => nftSucceeds
  nftForward := fun _ _ => nftSucceeds

theorem restartFrom_unitsOf (node : Node cfg) (start : ℕ) :
    (restartFrom node start).UnitsOf node :=
  ⟨rfl, fun _ => rfl, fun _ => Option.isSome_iff_exists⟩

/-- Replayed first, a machine that fits takes 1 GiB pages. -/
theorem not_replaysRecorded_of_fits
    {calls : RestartCalls} {persisted : PersistedVm}
    (hactive : calls.unitActive persisted.config.vmId = true)
    (hfits : Vm.FitsGigantic cfg persisted.config persisted.numaNode) :
    ¬ ReplaysRecorded calls (NumaAllocator.new cfg.topology)
      persisted := by
  obtain ⟨hconfidential, hsize, haligned, node, idx, hnode, hposition,
    hpages⟩ := hfits
  intro hreplays
  obtain ⟨other, placement, next, hother, hallocate, hrecorded⟩ :=
    hreplays hactive hconfidential
  rw [hnode, Option.some.injEq] at hother
  rw [hsize, Option.some.injEq] at hrecorded
  obtain ⟨found, hfound, htry⟩ := allocate_hinted hallocate
  rw [← hother, hposition, Option.some.injEq] at hfound
  rw [← hfound, hconfidential] at htry
  have havailable : (NumaAllocator.new cfg.topology).available1g idx =
      (cfg.topology.nodes.get idx).total1gHugepages := by
    rw [NumaAllocator.available1g, satSub_eq_self_iff]
    exact .inl rfl
  rw [← havailable] at hpages
  simp only [NumaAllocator.tryNode, Bool.true_eq_false, if_false,
    haligned, hpages, and_self, if_true] at htry
  split_ifs at htry
  simp only [Option.some.injEq, Prod.mk.injEq] at htry
  rw [← htry.1] at hrecorded
  cases hrecorded

theorem LedgerHeld.not_survives
    (hheld : LedgerHeld node) (hfits : node.FitsGigantic) :
    ¬ node.NumaSurvivesRestart := by
  obtain ⟨id, handle, hlookup, hhandle⟩ := hfits
  obtain ⟨hne, persisted, hfile, hconfig, hnode⟩ :=
    hheld.saved id handle hlookup
  have hid := stateFile_injective (hheld.named _ persisted hfile)
  have hentry : (⟨stateFile id, persisted⟩ : Sigma fun _ : String =>
      PersistedVm) ∈ node.stateDir.entries.filter fun entry =>
        hasJsonExtension entry.1 && true := by
    rw [List.mem_filter, Bool.and_true]
    exact ⟨AList.mem_lookup_iff.mp hfile, hasJsonExtension_stateFile hne⟩
  obtain ⟨start, rest, hfirst⟩ := IterationOrder.exists_rotated_head hentry
  have hloaded : loadedVms (restartFrom node start) node.stateDir =
      persisted :: rest.map fun entry => entry.2 := by
    simp only [loadedVms, loadAllVms, restartFrom, hfirst, List.map_cons]
  intro hsurvives
  have halong := (hsurvives _ (restartFrom_unitsOf node start)).2
  rw [hloaded] at halong
  refine not_replaysRecorded_of_fits ?_ ?_ halong.1
  · rw [← hid]
    exact ((restartFrom_unitsOf node start).unitActive id).mpr
      ⟨handle, hlookup⟩
  · rw [hconfig, hnode]
    exact hhandle

end Survival

/-- In every run of a manager that starts empty and whose operations keep the
ledger, in each state in which all machines are running and confidential: a
restart with all units active gives the counters back in every order of the
directory, each machine charged for its recorded page size, if and only if no
machine that recorded 2 MiB pages fits into the 1 GiB pages of its node. -/
theorem numa_survives_restart_iff
    (cfg : NodeConfig) (taps : Finset String) (ruleset : Ruleset)
    (hostsdir : AList fun _ : String => String) (ops : List ManagerOp)
    (hkept : Along Node.step Node.NumaKept
      (.fresh cfg taps ruleset hostsdir ∅) ops)
    (hrunning : ∀ id handle,
      (run Node.step (.fresh cfg taps ruleset hostsdir ∅) ops).vms.lookup
        id = some handle →
      handle.state = .running ∧ isConfidential handle.config = true) :
    (run Node.step (.fresh cfg taps ruleset hostsdir ∅)
        ops).NumaSurvivesRestart ↔
      ¬ (run Node.step (.fresh cfg taps ruleset hostsdir ∅)
        ops).FitsGigantic := by
  have hheld := (LedgerHeld.fresh cfg taps ruleset hostsdir).run hkept
  constructor
  · intro hsurvives hfits
    exact hheld.not_survives hfits hsurvives
  · intro hsmall
    exact hheld.survives (fun id handle hlookup =>
      (hrunning id handle hlookup).1) hsmall

/-! ## A host with both page sizes -/

/-- The small host with 1024 pages of 2 MiB and one of 1 GiB. -/
def giganticHost : NodeConfig :=
  { smallHost with
    topology := ⟨smallHost.topology.nodes.map fun node => { node with
      total2mHugepages := 1024
      total1gHugepages := 1 }⟩
    distinct_ids := by decide }

def giganticNode : Node giganticHost :=
  .fresh giganticHost ∅ supervisorRuleset ∅ ∅

/-- An encrypted confidential machine of this size. -/
def encryptedConfig (vmId : String) (memoryMb : UInt32) : VmConfig :=
  { smallConfig vmId .sevSnp with encrypted := true, memoryMb := memoryMb }

/-- A machine of 512 MiB is placed on 2 MiB pages before and after. -/
theorem numa_survives_restart_small :
    (run Node.step giganticNode [.createVm createSucceeds
      (encryptedConfig "vm-a" 512) none none]).NumaSurvivesRestart := by
  have hentries : ∀ entry ∈ (run Node.step giganticNode [.createVm
      createSucceeds (encryptedConfig "vm-a" 512) none none]).vms.entries,
      (entry.2.state = .running ∧ isConfidential entry.2.config = true) ∧
        entry.2.config.memoryMb % 1024 ≠ 0 := by
    decide +kernel
  have hkept : Along Node.step Node.NumaKept giganticNode [.createVm
      createSucceeds (encryptedConfig "vm-a" 512) none none] :=
    ⟨⟨by decide, by decide +kernel, .inl rfl, fun _ => rfl⟩, trivial⟩
  refine (numa_survives_restart_iff giganticHost ∅ supervisorRuleset ∅ _
    hkept ?_).mpr ?_
  · intro id handle hlookup
    exact (hentries _ (AList.mem_lookup_iff.mp hlookup)).1
  · intro hfits
    obtain ⟨id, handle, hlookup, _, _, haligned, _⟩ := hfits
    exact (hentries _ (AList.mem_lookup_iff.mp hlookup)).2 haligned

/-- Two machines of 1 GiB are created, the first on the gigantic page and the
second on 2 MiB pages, and the first is deleted.  After a restart the second
is charged to the gigantic page. -/
def secondOnSmallPages : Node giganticHost :=
  run Node.step giganticNode
    [.createVm createSucceeds (encryptedConfig "vm-a" 1024) none none,
      .createVm createSucceeds (encryptedConfig "vm-b" 1024) none none,
      .deleteVm deleteSucceeds "vm-a"]

theorem numa_changes_after_restart :
    (∀ id handle, secondOnSmallPages.vms.lookup id = some handle →
      handle.state = .running ∧ isConfidential handle.config = true) ∧
    ¬ secondOnSmallPages.NumaSurvivesRestart := by
  constructor
  · intro id handle hlookup
    have hentries : ∀ entry ∈ secondOnSmallPages.vms.entries,
        entry.2.state = .running ∧
          isConfidential entry.2.config = true := by
      decide +kernel
    exact hentries _ (AList.mem_lookup_iff.mp hlookup)
  · intro hsurvives
    have hnuma := (hsurvives _ (restartFrom_unitsOf secondOnSmallPages 0)).1
    have hpages := congrArg (fun numa : NumaAllocator giganticHost.topology =>
      numa.allocated1gPages ⟨0, Nat.zero_lt_one⟩) hnuma
    revert hpages
    decide +kernel

end AlephCvm.Vm
