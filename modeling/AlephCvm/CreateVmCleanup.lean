import AlephCvm.CreateVmPhases
import AlephCvm.NftablesTeardown
import AlephCvm.VmLifecycle

/-!
# Failed creations and the resources of the host

`create_vm` acquires interfaces, firewall chains, reservation files, address
ranges and NUMA counters one after the other, and every later failure has to
give back what came before.  `Restored` says that a call gave everything
back.  `Node.GivesBack` lists, exit by exit and in terms of the node before
the call, when it does; the exits that give back unconditionally are the
first three, and two exits never do: an interface that could not be brought
up or attached, and a machine that could not be prepared.
-/

namespace AlephCvm.Vm

open ResultContext StepRuns AlephCvm.Tee AlephCvm.Numa AlephCvm.Net
open AlephCvm.Nft AlephCvm.Qemu

variable {cfg : NodeConfig}

structure RestoredHost (before after : Node cfg) : Prop where
  taps : after.taps = before.taps
  ruleset : after.ruleset.tables = before.ruleset.tables ∧
    after.ruleset.chains = before.ruleset.chains ∧
    after.ruleset.rules = before.ruleset.rules
  ndpRanges : ∀ tap,
    after.ndpRanges.lookup tap = before.ndpRanges.lookup tap
  numa : after.numa = before.numa

/-- Interfaces, firewall, NDP ranges, NUMA counters, reservation files and
IPv6 allocations are as they were. -/
structure Restored (before after : Node cfg) : Prop
    extends RestoredHost before after where
  hostsdir : ∀ name,
    after.hostsdir.lookup name = before.hostsdir.lookup name
  ipv6Allocations : ∀ id,
    after.ipv6Allocations.lookup id = before.ipv6Allocations.lookup id

theorem RestoredHost.of_sameHost
    {before after : Node cfg} (hsame : SameHost before after) :
    RestoredHost before after :=
  ⟨hsame.taps, by simp [hsame.ruleset], by simp [hsame.ndpRanges],
    hsame.numa⟩

theorem RestoredHost.congr_sameHost
    {before middle after : Node cfg} (hsame : SameHost middle after) :
    RestoredHost before after ↔ RestoredHost before middle := by
  constructor
  · rintro ⟨htaps, hruleset, hranges, hnuma⟩
    rw [hsame.taps] at htaps
    rw [hsame.ruleset] at hruleset
    rw [hsame.ndpRanges] at hranges
    rw [hsame.numa] at hnuma
    exact ⟨htaps, hruleset, hranges, hnuma⟩
  · rintro ⟨htaps, hruleset, hranges, hnuma⟩
    rw [← hsame.taps] at htaps
    rw [← hsame.ruleset] at hruleset
    rw [← hsame.ndpRanges] at hranges
    rw [← hsame.numa] at hnuma
    exact ⟨htaps, hruleset, hranges, hnuma⟩

/-! ## When an exit gives everything back -/

/-- The machine has no reservation files and no range of its own yet. -/
def Node.NoReservation (node : Node cfg) (vmId : String)
    (hasIpv6 : Bool) : Prop :=
  (∀ name, reservedName cfg vmId hasIpv6 name = true →
    node.hostsdir.lookup name = none) ∧
  (hasIpv6 = true → node.ipv6Allocations.lookup vmId = none)

/-- The failed write left the file as it was. -/
def KeepsFile (outcome : WriteOutcome)
    (files : AList fun _ : String => String) (name content : String) :
    Prop :=
  (writeFile outcome files name content).2.lookup name = files.lookup name

/-- A release of the placement subtracts only what was charged. -/
def Node.NumaGivesBack (node : Node cfg) (config : VmConfig)
    (numaHint : Option UInt32) : Prop :=
  ∀ placement next, node.numa.allocate config.vcpus config.memoryMb numaHint
      (isConfidential config) = .ok (placement, next) →
    isConfidential config = true ∨ config.memoryMb = 0 ∨
      ∀ idx, cfg.topology.position placement.node = some idx →
        node.numa.allocated2mPages idx = 0

/-- The condition of the exit after a failed spawn. -/
def Node.SpawnGivesBack (node : Node cfg) (config : VmConfig)
    (numaHint : Option UInt32) (hasIpv6 : Bool) : Prop :=
  node.NoReservation config.vmId hasIpv6 ∧
  (hasIpv6 = true → cfg.hasNdpProxy = true →
    node.ndpRanges.lookup (tapName config.vmId) = none) ∧
  (∀ chain ∈ node.ruleset.chains,
    cfg.nftables.vmChain config.vmId chain.name = false) ∧
  node.NumaGivesBack config numaHint

/-- The exits of a creation that has its offset and its range. -/
def Node.StartedGivesBack (node : Node cfg) (calls : CreateCalls)
    (config : VmConfig) (numaHint : Option UInt32) (vmIp : Ipv4Addr)
    (vmIpv6 : Option Ipv6Net) : Prop :=
  let vmId := config.vmId
  if cfg.dhcpHostsdir.isSome ∧ calls.dhcpWrite ≠ .written then
    vmIpv6 = none ∧ KeepsFile calls.dhcpWrite node.hostsdir vmId
      (dhcpLine (macForVmIp vmIp) vmIp)
  else if cfg.dhcpHostsdir.isSome ∧ vmIpv6.isSome ∧
      calls.dhcpv6Write ≠ .written then
    node.hostsdir.lookup vmId = none ∧
      node.ipv6Allocations.lookup vmId = none ∧
      ∀ net, vmIpv6 = some net →
        KeepsFile calls.dhcpv6Write node.hostsdir (dhcpv6File vmId)
          (dhcpv6Line (macForVmIp vmIp) net.addr)
  else if tapName vmId ∈ node.taps ∨ calls.tap.add.isOk = false then
    node.NoReservation vmId vmIpv6.isSome
  else if calls.tap.up.isOk = false ∨ calls.tap.master.isOk = false then
    False
  else if (vmIpv6.isSome ∧ calls.addIpv6.isOk = false) ∨
      (cfg.nftables.setupVm calls.nftSetup node.ruleset vmId
        (tapName vmId)).isOk = false then
    node.NoReservation vmId vmIpv6.isSome
  else if launchable node.numa calls config numaHint = false then False
  else if drivesAccepted calls config = false then True
  else if calls.spawn.isOk = true then True
  else node.SpawnGivesBack config numaHint vmIpv6.isSome

/-- The creation ends at an exit that gives back all it acquired. -/
def Node.GivesBack (node : Node cfg) (calls : CreateCalls)
    (config : VmConfig) (requestedIpv6 : Option Ipv6Net)
    (numaHint : Option UInt32) : Prop :=
  if config.vmId ∈ node.vms then True
  else
    match freeOffset node.usedIpOffsets,
        node.chosenIpv6 calls.draws requestedIpv6 with
    | some offset, .ok vmIpv6 =>
        node.StartedGivesBack calls config numaHint
          (allocateVmIp cfg.gatewayIp offset) vmIpv6
    | _, _ => True

theorem Node.givesBack_iff_started
    {node : Node cfg} {calls : CreateCalls} {config : VmConfig}
    {requestedIpv6 : Option Ipv6Net} {numaHint : Option UInt32}
    {offset : UInt8} {vmIpv6 : Option Ipv6Net}
    (hstarted : Started node calls config.vmId requestedIpv6 offset
      vmIpv6) :
    node.GivesBack calls config requestedIpv6 numaHint ↔
      node.StartedGivesBack calls config numaHint
        (allocateVmIp cfg.gatewayIp offset) vmIpv6 := by
  unfold Node.GivesBack
  rw [if_neg hstarted.fresh, hstarted.free, hstarted.chosen]

/-! ## Reservations -/

/-- The node holds the reservations of a machine on top of the first one. -/
structure Holds (node reserved : Node cfg) (vmId : String)
    (vmIpv6 : Option Ipv6Net) : Prop where
  hostsdir : ∀ name, reservedName cfg vmId vmIpv6.isSome name = false →
    reserved.hostsdir.lookup name = node.hostsdir.lookup name
  ipv6Allocations : reserved.ipv6Allocations =
    withRange node.ipv6Allocations vmId vmIpv6

theorem lookup_filtered_iff {α β : Type} {taken : α → Bool}
    {before after held : α → Option β}
    (hafter : ∀ key, after key = if taken key then none else held key)
    (hheld : ∀ key, taken key = false → held key = before key) :
    (∀ key, after key = before key) ↔
      ∀ key, taken key = true → before key = none := by
  constructor
  · intro hsame key hkey
    rw [← hsame, hafter, if_pos hkey]
  · intro hnone key
    rw [hafter]
    cases hkey : taken key with
    | true => simp [hnone key hkey]
    | false => simp [hheld key hkey]

/-- The cleanup restores the files and ranges of a node exactly when the
machine had none before. -/
theorem Node.cleanupReservations_restored_iff
    {node held : Node cfg} {calls : CleanupCalls} {vmId : String}
    {vmIpv6 : Option Ipv6Net} (hcalls : calls.Succeed)
    (hpool : vmIpv6.isSome = cfg.ipv6Pool.isSome)
    (hheld : Holds node held vmId vmIpv6) :
    Restored node (held.cleanupReservations calls vmId vmIpv6.isSome) ↔
      RestoredHost node held ∧
        node.NoReservation vmId vmIpv6.isSome := by
  have hhost : RestoredHost node
      (held.cleanupReservations calls vmId vmIpv6.isSome) ↔
        RestoredHost node held :=
    RestoredHost.congr_sameHost
      (held.cleanupReservations_sameHost calls vmId _)
  have hfiles := lookup_filtered_iff
    (held.cleanupReservations_lookup hcalls vmId vmIpv6.isSome)
    hheld.hostsdir
  have hranges : (∀ id, (held.cleanupReservations calls vmId
      vmIpv6.isSome).ipv6Allocations.lookup id =
        node.ipv6Allocations.lookup id) ↔
      ∀ id, (vmIpv6.isSome && id == vmId) = true →
        node.ipv6Allocations.lookup id = none := by
    apply lookup_filtered_iff (held.cleanupReservations_ipv6_lookup
      calls vmId (fun h => hpool ▸ h))
    intro id hid
    rw [hheld.ipv6Allocations]
    apply withRange_lookup_of_ne
    cases hsome : vmIpv6.isSome with
    | false => exact .inr rfl
    | true => simpa [hsome] using hid
  constructor
  · rintro ⟨hbefore, hsameFiles, hsameRanges⟩
    refine ⟨hhost.mp hbefore, hfiles.mp hsameFiles, fun hsome => ?_⟩
    exact hranges.mp hsameRanges vmId (by simp [hsome])
  · rintro ⟨hbefore, hnoFiles, hnoRange⟩
    refine ⟨hhost.mpr hbefore, hfiles.mpr hnoFiles, hranges.mpr ?_⟩
    intro id hid
    rw [Bool.and_eq_true, beq_iff_eq] at hid
    rw [hid.2]
    exact hnoRange hid.1

/-! ## The exits one by one -/

theorem withRange_restored_iff
    {node : Node cfg} {draws : ℕ → ℕ} {requested : Option Ipv6Net}
    {vmIpv6 : Option Ipv6Net} (vmId : String)
    (hchosen : node.chosenIpv6 draws requested = .ok vmIpv6) :
    (∀ id, (withRange node.ipv6Allocations vmId vmIpv6).lookup id =
        node.ipv6Allocations.lookup id) ↔ vmIpv6 = none := by
  cases vmIpv6 with
  | none => simp [withRange]
  | some net =>
      simp only [reduceCtorEq, iff_false]
      intro hsame
      have hlookup : node.ipv6Allocations.lookup vmId = some net := by
        rw [← hsame vmId]
        exact AList.lookup_insert _
      have hdisjoint := Node.chosenIpv6_disjoint hchosen hlookup
      rw [Ipv6RangeAllocator.rangesMeet_self] at hdisjoint
      exact Bool.noConfusion hdisjoint

theorem restored_after_dhcpRefused_iff
    {node : Node cfg} {calls : CreateCalls} {vmId : String}
    {requestedIpv6 vmIpv6 : Option Ipv6Net} {offset : UInt8}
    (hstarted : Started node calls vmId requestedIpv6 offset vmIpv6)
    (content : String) :
    Restored node { node.started vmId offset vmIpv6 with
        hostsdir := (writeFile calls.dhcpWrite node.hostsdir vmId
          content).2 } ↔
      vmIpv6 = none ∧
        KeepsFile calls.dhcpWrite node.hostsdir vmId content := by
  rw [← withRange_restored_iff vmId hstarted.chosen]
  constructor
  · intro hrestored
    exact ⟨hrestored.ipv6Allocations, hrestored.hostsdir vmId⟩
  · rintro ⟨hranges, hkeeps⟩
    refine ⟨.of_sameHost ⟨rfl, rfl, rfl, rfl⟩, ?_, hranges⟩
    intro name
    by_cases hname : name = vmId
    · rw [hname]
      exact hkeeps
    · exact writeFile_lookup_of_ne content hname

theorem restored_after_dhcpv6Refused_iff
    {node : Node cfg} {calls : CreateCalls} {vmId : String}
    {net : Ipv6Net} {offset : UInt8} (hcalls : calls.cleanup.Succeed)
    (hpool : cfg.ipv6Pool.isSome) (line content : String) :
    Restored node (Node.releaseIpv6
        { node.started vmId offset (some net) with
          hostsdir := removeFile calls.cleanup.removeDhcp
            (writeFile calls.dhcpv6Write (node.hostsdir.insert vmId line)
              (dhcpv6File vmId) content).2 vmId } vmId) ↔
      node.hostsdir.lookup vmId = none ∧
        node.ipv6Allocations.lookup vmId = none ∧
        KeepsFile calls.dhcpv6Write node.hostsdir (dhcpv6File vmId)
          content := by
  generalize hheld : { node.started vmId offset (some net) with
    hostsdir := removeFile calls.cleanup.removeDhcp
      (writeFile calls.dhcpv6Write (node.hostsdir.insert vmId line)
        (dhcpv6File vmId) content).2 vmId } = held
  have hfiles : held.hostsdir =
      ((writeFile calls.dhcpv6Write (node.hostsdir.insert vmId line)
        (dhcpv6File vmId) content).2).erase vmId := by
    rw [← hheld]
    simp only [removeFile, hcalls.2.1, if_true]
  have hranges : ∀ id, (held.releaseIpv6 vmId).ipv6Allocations.lookup id =
      if id == vmId then none else node.ipv6Allocations.lookup id := by
    intro id
    rw [held.releaseIpv6_allocations vmId hpool, ← hheld]
    by_cases hid : id = vmId
    · subst hid
      simp
    · simp [AList.lookup_erase_ne hid, hid, Node.started, Node.withIpv6,
        withRange, Node.takeOffset, AList.lookup_insert_ne hid]
  have hv6 : (held.releaseIpv6 vmId).hostsdir.lookup (dhcpv6File vmId) =
      (writeFile calls.dhcpv6Write node.hostsdir (dhcpv6File vmId)
        content).2.lookup (dhcpv6File vmId) := by
    rw [Node.releaseIpv6_hostsdir, hfiles,
      AList.lookup_erase_ne (dhcpv6File_ne vmId)]
    apply writeFile_lookup_congr
    exact AList.lookup_insert_ne (dhcpv6File_ne vmId)
  constructor
  · intro hrestored
    refine ⟨?_, ?_, ?_⟩
    · rw [← hrestored.hostsdir vmId, Node.releaseIpv6_hostsdir, hfiles,
        AList.lookup_erase]
    · rw [← hrestored.ipv6Allocations vmId, hranges]
      simp
    · rw [KeepsFile, ← hv6]
      exact hrestored.hostsdir (dhcpv6File vmId)
  · rintro ⟨hnoFile, hnoRange, hkeeps⟩
    have hhost : SameHost node (held.releaseIpv6 vmId) := by
      refine SameHost.trans ?_ (held.releaseIpv6_sameHost vmId)
      rw [← hheld]
      exact ⟨rfl, rfl, rfl, rfl⟩
    refine ⟨.of_sameHost hhost, ?_, ?_⟩
    · intro name
      by_cases hid : name = vmId
      · rw [hid, hnoFile, Node.releaseIpv6_hostsdir, hfiles,
          AList.lookup_erase]
      by_cases hname : name = dhcpv6File vmId
      · rw [hname, hv6]
        exact hkeeps
      · rw [Node.releaseIpv6_hostsdir, hfiles, AList.lookup_erase_ne hid,
          writeFile_lookup_of_ne content hname, AList.lookup_insert_ne hid]
    · intro id
      rw [hranges]
      by_cases hid : id = vmId
      · subst hid
        simp [hnoRange]
      · simp [hid]

/-- An interface that was added and not deleted is not given back. -/
theorem not_restored_of_tap_mem
    {before after : Node cfg} {tap : String} (hnew : tap ∉ before.taps)
    (hmem : tap ∈ after.taps) : ¬ Restored before after := by
  intro hrestored
  rw [hrestored.taps] at hmem
  exact hnew hmem

theorem ndpRanges_restored_iff
    (node : Node cfg) (tap : String) (vmIpv6 : Option Ipv6Net) :
    (∀ other, (if vmIpv6.isSome && cfg.hasNdpProxy then
          (node.ndpRangesWith tap vmIpv6).erase tap
        else node.ndpRangesWith tap vmIpv6).lookup other =
        node.ndpRanges.lookup other) ↔
      (vmIpv6.isSome = true → cfg.hasNdpProxy = true →
        node.ndpRanges.lookup tap = none) := by
  cases vmIpv6 with
  | none => simp [Node.ndpRangesWith]
  | some net =>
      cases hproxy : cfg.hasNdpProxy with
      | false => simp [Node.ndpRangesWith, hproxy]
      | true =>
          simp only [Option.isSome_some, Bool.true_and, if_true,
            Node.ndpRangesWith, hproxy, forall_true_left]
          constructor
          · intro hsame
            rw [← hsame tap, AList.lookup_erase]
          · intro hnone other
            by_cases hother : other = tap
            · rw [hother, hnone, AList.lookup_erase]
            · rw [AList.lookup_erase_ne hother,
                AList.lookup_insert_ne hother]

theorem ReservationResult.holds
    {node reserved : Node cfg} {calls : CreateCalls} {vmId : String}
    {vmIp : Ipv4Addr} {vmIpv6 : Option Ipv6Net} {offset : UInt8}
    (hreserved : ReservationResult (node.started vmId offset vmIpv6) calls
      vmId vmIp vmIpv6 (.ok (), reserved)) :
    Holds node reserved vmId vmIpv6 ∧ SameHost node reserved := by
  cases hreserved with
  | done files hwritten hfiles =>
      exact ⟨⟨hfiles, rfl⟩, ⟨rfl, rfl, rfl, rfl⟩⟩

theorem ReservationResult.written
    {node reserved : Node cfg} {calls : CreateCalls} {vmId : String}
    {vmIp : Ipv4Addr} {vmIpv6 : Option Ipv6Net}
    (hreserved : ReservationResult node calls vmId vmIp vmIpv6
      (.ok (), reserved)) :
    ¬ (cfg.dhcpHostsdir.isSome ∧ calls.dhcpWrite ≠ .written) ∧
      ¬ (cfg.dhcpHostsdir.isSome ∧ vmIpv6.isSome ∧
        calls.dhcpv6Write ≠ .written) := by
  cases hreserved with
  | done files hwritten hfiles =>
      refine ⟨fun h => h.2 (hwritten h.1).1, fun h => ?_⟩
      exact h.2.2 ((hwritten h.1).2 h.2.1)

/-- What a machine that is ready to run holds on top of the node. -/
structure ReadyHost (node prepared : Node cfg) (calls : CreateCalls)
    (config : VmConfig) (vmIpv6 : Option Ipv6Net)
    (numaHint : Option UInt32) (launch : Launch) : Prop where
  fresh : tapName config.vmId ∉ node.taps
  taps : prepared.taps = insert (tapName config.vmId) node.taps
  ruleset : cfg.nftables.setupVm calls.nftSetup node.ruleset config.vmId
    (tapName config.vmId) = .ok prepared.ruleset
  ndpRanges : prepared.ndpRanges =
    node.ndpRangesWith (tapName config.vmId) vmIpv6
  numa : LaunchOf node.numa prepared.numa config numaHint launch

theorem ReadyHost.of_phases
    {node reserved connected prepared : Node cfg} {calls : CreateCalls}
    {config : VmConfig} {vmIpv6 : Option Ipv6Net}
    {numaHint : Option UInt32} {launch : Launch}
    (hsame : SameHost node reserved)
    (hconnected : NetworkResult reserved calls config.vmId vmIpv6
      (.ok (), connected))
    (hprepared : LaunchResult
      (connected.addNdpRange (tapName config.vmId) vmIpv6) calls config
      numaHint (.ok launch, prepared)) :
    ReadyHost node prepared calls config vmIpv6 numaHint launch ∧
      launchable node.numa calls config numaHint = true ∧
      drivesAccepted calls config = true ∧
      prepared.hostsdir = reserved.hostsdir ∧
      prepared.ipv6Allocations = reserved.ipv6Allocations := by
  obtain ⟨htaps, hruleset, hranges, hnuma⟩ := hsame
  cases hconnected with
  | done ruleset hnew hadd hup hmaster hipv6 hsetup =>
      rw [Node.addNdpRange_eq] at hprepared
      cases hprepared with
      | ready _ next hlaunchable hdrives hlaunch =>
          simp only [hnuma] at hlaunchable hlaunch
          rw [htaps] at hnew
          rw [hruleset] at hsetup
          refine ⟨⟨hnew, ?_, hsetup, ?_, hlaunch⟩, hlaunchable, hdrives,
            rfl, rfl⟩
          · rw [← htaps]
          · simp only [Node.ndpRangesWith, hranges]

/-- After a failed spawn everything is undone, but with the tools of a
deletion: whatever carried the machine's names before is gone too. -/
theorem restored_after_spawn_iff
    {node prepared : Node cfg} {calls : CreateCalls} {config : VmConfig}
    {vmIpv6 : Option Ipv6Net} {numaHint : Option UInt32} {launch : Launch}
    (hcalls : calls.cleanup.Succeed)
    (hpool : vmIpv6.isSome = cfg.ipv6Pool.isSome)
    (hholds : Holds node prepared config.vmId vmIpv6)
    (hready : ReadyHost node prepared calls config vmIpv6 numaHint
      launch) :
    Restored node (prepared.undoLaunch calls.cleanup launch config.vmId
        vmIpv6) ↔
      node.SpawnGivesBack config numaHint vmIpv6.isSome := by
  have hholds : Holds node (prepared.undoHost calls.cleanup launch
      config.vmId vmIpv6) config.vmId vmIpv6 :=
    ⟨hholds.hostsdir, hholds.ipv6Allocations⟩
  rw [Node.undoLaunch,
    Node.cleanupReservations_restored_iff hcalls hpool hholds]
  have htaps : (prepared.undoHost calls.cleanup launch config.vmId
      vmIpv6).taps = node.taps := by
    simp only [Node.undoHost, deleteTap, hcalls.1, if_true, hready.taps]
    exact Finset.erase_insert hready.fresh
  have hruleset := (cfg.nftables.teardownVm_after_setupVm
    hcalls.2.2.2.1 hcalls.2.2.2.2 hready.ruleset).unchanged_iff
  have hranges := ndpRanges_restored_iff node (tapName config.vmId) vmIpv6
  rw [← hready.ndpRanges] at hranges
  have hnuma := NumaAllocator.release_allocate_eq_iff cfg.distinct_ids
    hready.numa.allocated
  rw [← hready.numa.vcpus, ← hready.numa.memoryMb] at hnuma
  have hgives : node.NumaGivesBack config numaHint ↔
      isConfidential config = true ∨ config.memoryMb = 0 ∨
        ∀ idx, cfg.topology.position launch.placement.node = some idx →
          node.numa.allocated2mPages idx = 0 := by
    simp only [Node.NumaGivesBack, hready.numa.allocated, Except.ok.injEq,
      Prod.mk.injEq, and_imp]
    constructor
    · intro hall
      exact hall _ _ rfl rfl
    · rintro hlaunch _ _ rfl -
      exact hlaunch
  rw [← hready.numa.memoryMb, ← hnuma] at hgives
  rw [Node.SpawnGivesBack, ← hruleset, ← hranges, hgives]
  constructor
  · rintro ⟨hhost, hnone⟩
    exact ⟨hnone, hhost.ndpRanges, hhost.ruleset, hhost.numa⟩
  · rintro ⟨hnone, hsameRanges, hsameRuleset, hsameNuma⟩
    exact ⟨⟨htaps, hsameRuleset, hsameRanges, hsameNuma⟩, hnone⟩

/-! ## Every exit -/

/-- A call that returns an error has restored the host. -/
def GaveBack (node : Node cfg) (result : Except Failure VmInfo × Node cfg) :
    Prop :=
  ∀ message, result.1 = .error (.error message) → Restored node result.2

theorem gaveBack_error_iff
    {node after : Node cfg} {message : String} :
    GaveBack node (.error (.error message), after) ↔
      Restored node after :=
  ⟨fun h => h message rfl, fun h _ _ => h⟩

theorem gaveBack_panicked
    (node after : Node cfg) (message : String) :
    GaveBack node (.error (.panicked message), after) := by
  intro text htext
  cases htext

section Started

variable {node reserved connected : Node cfg} {calls : CreateCalls}
  {config : VmConfig} {requestedIpv6 vmIpv6 : Option Ipv6Net}
  {numaHint : Option UInt32} {offset : UInt8}

theorem ReservationResult.gaveBack_iff
    {failure : Failure} {after : Node cfg}
    (hcalls : calls.cleanup.Succeed)
    (hstarted : Started node calls config.vmId requestedIpv6 offset vmIpv6)
    (hreserved : ReservationResult
      (node.started config.vmId offset vmIpv6) calls config.vmId
      (allocateVmIp cfg.gatewayIp offset) vmIpv6 (.error failure, after)) :
    GaveBack node (.error failure, after) ↔
      node.StartedGivesBack calls config numaHint
        (allocateVmIp cfg.gatewayIp offset) vmIpv6 := by
  unfold Node.StartedGivesBack
  cases hreserved with
  | dhcpRefused message hhostsdir hrefused =>
      simp only [if_pos (And.intro hhostsdir hrefused)]
      rw [gaveBack_error_iff]
      exact restored_after_dhcpRefused_iff hstarted _
  | dhcpv6Refused net message hhostsdir hwritten hipv6 hrefused =>
      subst hipv6
      have hpool : cfg.ipv6Pool.isSome := by
        rw [← Node.chosenIpv6_isSome hstarted.chosen]
        rfl
      have hfirst : ¬ (cfg.dhcpHostsdir.isSome ∧
          calls.dhcpWrite ≠ .written) := fun h => h.2 hwritten
      have hsecond : cfg.dhcpHostsdir.isSome ∧ (some net).isSome ∧
          calls.dhcpv6Write ≠ .written := ⟨hhostsdir, rfl, hrefused⟩
      simp only
      rw [gaveBack_error_iff, if_neg hfirst, if_pos hsecond]
      simp only [Option.some.injEq, forall_eq']
      exact restored_after_dhcpv6Refused_iff hcalls hpool _ _

theorem TapCalls.not_refused
    {tap : TapCalls} {taps : Finset String} {name : String}
    (hnew : name ∉ taps) (hadd : tap.add = .ok ()) :
    ¬ (name ∈ taps ∨ tap.add.isOk = false) := by
  simp [hnew, hadd, Except.isOk, Except.toBool]

theorem TapCalls.not_detached
    {tap : TapCalls} (hup : tap.up = .ok ()) (hmaster : tap.master = .ok ()) :
    ¬ (tap.up.isOk = false ∨ tap.master.isOk = false) := by
  simp [hup, hmaster, Except.isOk, Except.toBool]

theorem NetworkResult.gaveBack_iff
    {failure : Failure} {after : Node cfg}
    (hcalls : calls.cleanup.Succeed)
    (hstarted : Started node calls config.vmId requestedIpv6 offset vmIpv6)
    (hreserved : ReservationResult
      (node.started config.vmId offset vmIpv6) calls config.vmId
      (allocateVmIp cfg.gatewayIp offset) vmIpv6 (.ok (), reserved))
    (hconnected : NetworkResult reserved calls config.vmId vmIpv6
      (.error failure, after)) :
    GaveBack node (.error failure, after) ↔
      node.StartedGivesBack calls config numaHint
        (allocateVmIp cfg.gatewayIp offset) vmIpv6 := by
  have hpool := Node.chosenIpv6_isSome hstarted.chosen
  obtain ⟨hholds, hsame⟩ := hreserved.holds
  obtain ⟨hdhcp, hdhcpv6⟩ := hreserved.written
  unfold Node.StartedGivesBack
  simp only [if_neg hdhcp, if_neg hdhcpv6]
  cases hconnected with
  | notAdded message hrefused =>
      rw [hsame.taps] at hrefused
      rw [gaveBack_error_iff, if_pos hrefused,
        Node.cleanupReservations_restored_iff hcalls hpool hholds]
      exact and_iff_right (.of_sameHost hsame)
  | notAttached message hnew hadd hrefused =>
      rw [hsame.taps] at hnew
      have hadded := TapCalls.not_refused hnew hadd
      rw [gaveBack_error_iff, if_neg hadded, if_pos hrefused, iff_false]
      apply not_restored_of_tap_mem hnew
      rw [(Node.cleanupReservations_sameHost _ _ _ _).taps]
      exact Finset.mem_insert_self _ _
  | undone message hnew hadd hup hmaster hrefused =>
      rw [hsame.taps] at hnew
      rw [hsame.ruleset] at hrefused
      have hadded := TapCalls.not_refused hnew hadd
      have hattached := TapCalls.not_detached hup hmaster
      rw [gaveBack_error_iff, if_neg hadded, if_neg hattached,
        if_pos hrefused]
      have hheld : Holds node
          { reserved with
            taps := deleteTap calls.cleanup.deleteTap
              (insert (tapName config.vmId) reserved.taps)
              (tapName config.vmId) }
          config.vmId vmIpv6 := ⟨hholds.hostsdir, hholds.ipv6Allocations⟩
      rw [Node.cleanupReservations_restored_iff hcalls hpool hheld]
      apply and_iff_right
      refine .of_sameHost ⟨?_, hsame.ruleset, hsame.ndpRanges, hsame.numa⟩
      simp only [deleteTap, hcalls.1, if_true, hsame.taps]
      exact Finset.erase_insert hnew

/-- The conditions of the network phase are met once it is done. -/
theorem NetworkResult.startedGivesBack_iff
    (hreserved : ReservationResult
      (node.started config.vmId offset vmIpv6) calls config.vmId
      (allocateVmIp cfg.gatewayIp offset) vmIpv6 (.ok (), reserved))
    (hconnected : NetworkResult reserved calls config.vmId vmIpv6
      (.ok (), connected)) :
    node.StartedGivesBack calls config numaHint
        (allocateVmIp cfg.gatewayIp offset) vmIpv6 ↔
      if launchable node.numa calls config numaHint = false then False
      else if drivesAccepted calls config = false then True
      else if calls.spawn.isOk = true then True
      else node.SpawnGivesBack config numaHint vmIpv6.isSome := by
  obtain ⟨_, hsame⟩ := hreserved.holds
  obtain ⟨hdhcp, hdhcpv6⟩ := hreserved.written
  unfold Node.StartedGivesBack
  simp only [if_neg hdhcp, if_neg hdhcpv6]
  cases hconnected with
  | done ruleset hnew hadd hup hmaster hipv6 hsetup =>
      rw [hsame.taps] at hnew
      rw [hsame.ruleset] at hsetup
      have hadded := TapCalls.not_refused hnew hadd
      have hattached := TapCalls.not_detached hup hmaster
      have hfirewall : ¬ ((vmIpv6.isSome ∧ calls.addIpv6.isOk = false) ∨
          (cfg.nftables.setupVm calls.nftSetup node.ruleset config.vmId
            (tapName config.vmId)).isOk = false) := by
        rintro (⟨hsome, hrefused⟩ | hrefused)
        · simp [hipv6 hsome, Except.isOk, Except.toBool] at hrefused
        · simp [hsetup, Except.isOk, Except.toBool] at hrefused
      rw [if_neg hadded, if_neg hattached, if_neg hfirewall]

end Started

/-- Whether a creation gives everything back is decided by the exit it
takes. -/
theorem Node.createVm_gaveBack_iff
    {node : Node cfg} {calls : CreateCalls}
    (hcalls : calls.cleanup.Succeed) (config : VmConfig)
    (requestedIpv6 : Option Ipv6Net) (numaHint : Option UInt32) :
    GaveBack node (node.createVm calls config requestedIpv6 numaHint) ↔
      node.GivesBack calls config requestedIpv6 numaHint := by
  have houtcome := node.createVm_outcome calls config requestedIpv6 numaHint
  generalize node.createVm calls config requestedIpv6 numaHint = result
    at houtcome
  cases houtcome with
  | duplicate message hknown =>
      rw [gaveBack_error_iff, Node.GivesBack, if_pos hknown, iff_true]
      exact ⟨.of_sameHost (.refl node), fun _ => rfl, fun _ => rfl⟩
  | poolExhausted message hfresh hfull =>
      rw [gaveBack_error_iff, Node.GivesBack, if_neg hfresh, hfull, iff_true]
      exact ⟨.of_sameHost (.refl node), fun _ => rfl, fun _ => rfl⟩
  | ipv6Refused offset failure hfresh hfree hrefused =>
      rw [Node.GivesBack, if_neg hfresh, hfree, hrefused, iff_true]
      intro message _
      exact ⟨.of_sameHost ⟨rfl, rfl, rfl, rfl⟩, fun _ => rfl, fun _ => rfl⟩
  | notReserved offset vmIpv6 failure after hstarted hreserved =>
      rw [Node.givesBack_iff_started hstarted]
      exact hreserved.gaveBack_iff hcalls hstarted
  | notConnected offset vmIpv6 reserved failure after hstarted hreserved
      hconnected =>
      rw [Node.givesBack_iff_started hstarted]
      exact hconnected.gaveBack_iff hcalls hstarted hreserved
  | notPrepared offset vmIpv6 reserved connected failure after hstarted
      hreserved hconnected hprepared =>
      obtain ⟨_, hsame⟩ := hreserved.holds
      rw [Node.givesBack_iff_started hstarted,
        hconnected.startedGivesBack_iff hreserved]
      rw [Node.addNdpRange_eq] at hprepared
      cases hconnected with
      | done ruleset hnew hadd hup hmaster hipv6 hsetup =>
          rw [hsame.taps] at hnew
          cases hprepared with
          | refused message hrefused =>
              simp only [hsame.numa] at hrefused
              rw [gaveBack_error_iff, if_pos hrefused, iff_false]
              apply not_restored_of_tap_mem hnew
              exact Finset.mem_insert_self _ _
          | panicked message next hlaunchable hdrives =>
              simp only [hsame.numa] at hlaunchable
              simp only [hlaunchable, hdrives, Bool.true_eq_false, if_false,
                if_true, iff_true]
              exact gaveBack_panicked node _ message
  | launched offset vmIpv6 reserved connected launch prepared hstarted
      hreserved hconnected hprepared =>
      obtain ⟨hholds, hsame⟩ := hreserved.holds
      have hpool := Node.chosenIpv6_isSome hstarted.chosen
      obtain ⟨hready, hlaunchable, hdrives, hfiles, hranges⟩ :=
        ReadyHost.of_phases hsame hconnected hprepared
      rw [Node.givesBack_iff_started hstarted,
        hconnected.startedGivesBack_iff hreserved]
      have hheld : Holds node prepared config.vmId vmIpv6 :=
        ⟨hfiles ▸ hholds.hostsdir, hranges.trans hholds.ipv6Allocations⟩
      rw [Node.launchVm, hready.numa.vmId]
      simp only [hlaunchable, hdrives, Bool.true_eq_false, if_false]
      cases hspawn : calls.spawn with
      | error message =>
          rw [gaveBack_error_iff]
          simp only [Except.isOk, Except.toBool, Bool.false_eq_true,
            if_false]
          exact restored_after_spawn_iff hcalls hpool hheld hready
      | ok value =>
          simp only [Except.isOk, Except.toBool, if_true, iff_true]
          intro message herror
          cases herror

/-! ## Runs -/

/-- When the cleanup commands succeed, a creation that returns an error
leaves the resources of the host as they were. -/
def AllOrNothing (node : Node cfg) : ManagerOp → Prop
  | .createVm calls config requestedIpv6 numaHint =>
      calls.cleanup.Succeed →
        GaveBack node (node.createVm calls config requestedIpv6 numaHint)
  | _ => True

/-- The operation is no creation that ends at an exit which keeps
something. -/
def ExitsGiveBack (node : Node cfg) : ManagerOp → Prop
  | .createVm calls config requestedIpv6 numaHint =>
      calls.cleanup.Succeed →
        node.GivesBack calls config requestedIpv6 numaHint
  | _ => True

theorem allOrNothing_iff
    (node : Node cfg) (op : ManagerOp) :
    AllOrNothing node op ↔ ExitsGiveBack node op := by
  cases op with
  | createVm calls config requestedIpv6 numaHint =>
      exact forall_congr' fun hcalls =>
        Node.createVm_gaveBack_iff hcalls config requestedIpv6 numaHint
  | deleteVm calls id => exact Iff.rfl
  | addPortForward calls vmId hostPort vmPort protocol => exact Iff.rfl
  | removePortForward calls hostPort protocol => exact Iff.rfl
  | restart calls => exact Iff.rfl

/-- Along every run of the manager, from any state of the node, failed
creations are all-or-nothing exactly when each of them ends at an exit that
gives back what was acquired. -/
theorem create_vm_all_or_nothing_iff
    (node : Node cfg) (ops : List ManagerOp) :
    Along Node.step AllOrNothing node ops ↔
      Along Node.step ExitsGiveBack node ops :=
  along_congr allOrNothing_iff node ops

/-- A machine for a TEE without a backend is refused after its interface and
its firewall chains were set up, and both stay. -/
theorem create_vm_leaks_without_backend :
    ¬ Along Node.step AllOrNothing smallNode
      [.createVm createSucceeds (smallConfig "vm-a" .tdx) none none] := by
  intro h
  have hsucceed : createSucceeds.cleanup.Succeed :=
    ⟨rfl, rfl, rfl, ⟨fun _ => rfl, rfl⟩, ⟨fun _ => rfl, rfl⟩⟩
  have hrestored := h.1 hsucceed "no backend registered for TEE type: Tdx"
    (by decide +kernel)
  have htaps := hrestored.taps
  revert htaps
  decide +kernel

end AlephCvm.Vm
