import AlephCvm.OffsetLedger

/-!
# Memory and its mirror on disk

A restarted manager rebuilds its tables from the state directory.  The
invariant `Mirrored` ties every state file to the tables in memory: each
machine has one file that describes it, the files list the forwards, the
ledger holds the offsets, and the ranges are disjoint parts of the pool.
The result of this file is that a restart of a mirrored node gives all its
tables back, in whatever order the directory is read.
-/

namespace AlephCvm.Vm

open ResultContext TableFolds AlephCvm.Tee AlephCvm.Numa AlephCvm.Net
open AlephCvm.Nft AlephCvm.Qemu

variable {cfg : NodeConfig}

/-- The two nodes have the same machines, offsets, ranges and forwards. -/
structure SameMemory (before after : Node cfg) : Prop where
  vms : ∀ id, after.vms.lookup id = before.vms.lookup id
  usedIpOffsets : after.usedIpOffsets = before.usedIpOffsets
  ipv6Allocations : ∀ id,
    after.ipv6Allocations.lookup id = before.ipv6Allocations.lookup id
  portForwards : ∀ key,
    after.portForwards.lookup key = before.portForwards.lookup key

/-- The directory and all files can be read and all units are active; the
order of the directory is any. -/
structure RestartCalls.Faithful (calls : RestartCalls) : Prop where
  readDir : calls.readDir = .ok ()
  readable : ∀ name, calls.readable name = true
  unitActive : ∀ vmId, calls.unitActive vmId = true

/-- A restart now would give back what is in memory. -/
def Node.RecoversSame (node : Node cfg) : Prop :=
  ∀ calls : RestartCalls, calls.Faithful →
    SameMemory node (node.restart calls)

/-! ## State files and machines -/

theorem toList_stateFile (vmId : String) :
    (stateFile vmId).toList = vmId.toList ++ ".json".toList := by
  simp only [stateFile, toString, String.toList_append]

theorem stateFile_injective {first second : String}
    (hsame : stateFile first = stateFile second) : first = second := by
  have hlist := congrArg String.toList hsame
  rw [toList_stateFile, toList_stateFile] at hlist
  exact String.toList_inj.mp (List.append_cancel_right hlist)

theorem hasJsonExtension_stateFile {vmId : String} (hne : vmId ≠ "") :
    hasJsonExtension (stateFile vmId) = true := by
  have hsuffix : ".json".toList.isSuffixOf (stateFile vmId).toList =
      true := by
    rw [toList_stateFile, List.isSuffixOf_iff_suffix]
    exact List.suffix_append _ _
  have hname : stateFile vmId ≠ stateFile "" := fun hsame =>
    hne (stateFile_injective hsame)
  rw [hasJsonExtension, hsuffix, Bool.true_and, bne_iff_ne]
  exact hname

/-- The handle of a machine whose unit is active. -/
def runningHandle (cfg : NodeConfig) (persisted : PersistedVm) :
    VmHandle where
  config := persisted.config
  state := .running
  ip := persisted.ip
  ipv6 := persisted.ipv6
  process := some ⟨.forVm cfg.runDir persisted.config.vmId,
    persisted.config.vmId⟩
  tapName := persisted.tapName
  createdAtEpoch := persisted.createdAtEpoch
  numaNode := persisted.numaNode

theorem recoveredHandle_of_faithful
    {calls : RestartCalls} (hfaithful : calls.Faithful)
    (persisted : PersistedVm) :
    recoveredHandle cfg calls persisted = runningHandle cfg persisted := by
  simp [recoveredHandle, runningHandle, hfaithful.unitActive]

/-- Memory and state directory describe the same machines. -/
structure Mirrored (node : Node cfg) : Prop where
  exact : node.OffsetsExact
  distinct : ∀ id other handle otherHandle,
    node.vms.lookup id = some handle →
    node.vms.lookup other = some otherHandle →
    ipOffset cfg.gatewayIp handle.ip =
      ipOffset cfg.gatewayIp otherHandle.ip → id = other
  named : FilesNamed node.stateDir
  nonempty : ∀ name persisted,
    node.stateDir.lookup name = some persisted →
      persisted.config.vmId ≠ ""
  registered : ∀ name persisted,
    node.stateDir.lookup name = some persisted →
      node.vms.lookup persisted.config.vmId =
        some (runningHandle cfg persisted)
  saved : ∀ id handle, node.vms.lookup id = some handle →
    ∃ persisted, node.stateDir.lookup (stateFile id) = some persisted
  ranges : ∀ id, node.ipv6Allocations.lookup id =
    (node.vms.lookup id).bind VmHandle.ipv6
  inPool : ∀ id net, node.ipv6Allocations.lookup id = some net →
    ∃ pool, cfg.ipv6Pool = some pool ∧
      Ipv6RangeAllocator.contains ⟨pool, vmPrefix, ∅⟩ net = true
  disjoint : ∀ id other net otherNet, id ≠ other →
    node.ipv6Allocations.lookup id = some net →
    node.ipv6Allocations.lookup other = some otherNet →
      Ipv6RangeAllocator.rangesMeet net otherNet = false
  keyed : ∀ key forward, node.portForwards.lookup key = some forward →
    forward.key = key
  owned : ∀ key forward, node.portForwards.lookup key = some forward →
    ∃ handle, node.vms.lookup forward.vmId = some handle
  listed : ∀ name persisted,
    node.stateDir.lookup name = some persisted →
      ∀ forward, forward ∈ persisted.portForwards ↔
        node.portForwards.lookup forward.key = some forward ∧
          forward.vmId = persisted.config.vmId

namespace Mirrored

theorem fresh
    (cfg : NodeConfig) (taps : Finset String) (ruleset : Ruleset)
    (hostsdir : AList fun _ : String => String) :
    Mirrored (Node.fresh cfg taps ruleset hostsdir ∅) := by
  have hledger : (Node.fresh cfg taps ruleset hostsdir ∅).LedgerKept :=
    Node.fresh_ledgerKept taps ruleset hostsdir
  exact {
    exact := hledger.exact
    distinct := by
      intro id other handle otherHandle hlookup
      simp [Node.fresh] at hlookup
    named := hledger.named
    nonempty := by simp [Node.fresh]
    registered := by simp [Node.fresh]
    saved := by simp [Node.fresh]
    ranges := by simp [Node.fresh]
    inPool := by simp [Node.fresh]
    disjoint := by simp [Node.fresh]
    keyed := by simp [Node.fresh]
    owned := by simp [Node.fresh]
    listed := by simp [Node.fresh] }

/-- The invariant speaks of the tables through lookups only. -/
theorem congr
    {node after : Node cfg} (hmirrored : Mirrored node)
    (hsame : SameMemory node after)
    (hdir : after.stateDir = node.stateDir) : Mirrored after := by
  have hoffsets : after.offsets = node.offsets := by
    ext offset
    simp only [Node.mem_offsets, hsame.vms]
  obtain ⟨hexact, hdistinct, hnamed, hnonempty, hregistered, hsaved,
    hranges, hinPool, hdisjoint, hkeyed, howned, hlisted⟩ := hmirrored
  refine ⟨?_, ?_, ?_, ?_, ?_, ?_, ?_, ?_, ?_, ?_, ?_, ?_⟩
  · exact hsame.usedIpOffsets.trans (hexact.trans hoffsets.symm)
  all_goals
    simp only [hsame.vms, hsame.ipv6Allocations, hsame.portForwards, hdir]
    assumption

end Mirrored

/-! ## Ranges that fit are all restored -/

def ipv6Items (persistedVms : List PersistedVm) : List (String × Ipv6Net) :=
  persistedVms.filterMap fun persisted =>
    persisted.ipv6.map fun net => (persisted.config.vmId, net)

theorem foldl_withRange
    (persistedVms : List PersistedVm)
    (table : AList fun _ : String => Ipv6Net) :
    persistedVms.foldl (fun table persisted =>
        withRange table persisted.config.vmId persisted.ipv6) table =
      insertAll Prod.fst Prod.snd (ipv6Items persistedVms) table := by
  induction persistedVms generalizing table with
  | nil => rfl
  | cons persisted rest ih =>
      rw [List.foldl_cons, ih]
      cases hipv6 : persisted.ipv6 with
      | none => simp [ipv6Items, hipv6, withRange]
      | some net => simp [ipv6Items, hipv6, withRange, insertAll]

/-- The saved range lies in the pool. -/
def RangeInPool (cfg : NodeConfig) (persisted : PersistedVm) : Prop :=
  ∀ net, persisted.ipv6 = some net →
    ∃ pool, cfg.ipv6Pool = some pool ∧
      Ipv6RangeAllocator.contains ⟨pool, vmPrefix, ∅⟩ net = true

/-- The saved range meets no range of the table. -/
def RangeFree (table : AList fun _ : String => Ipv6Net)
    (persisted : PersistedVm) : Prop :=
  ∀ net, persisted.ipv6 = some net →
    ∀ id existing, table.lookup id = some existing →
      Ipv6RangeAllocator.rangesMeet net existing = false

def RangesApart (first second : PersistedVm) : Prop :=
  ∀ net other, first.ipv6 = some net → second.ipv6 = some other →
    Ipv6RangeAllocator.rangesMeet other net = false

theorem restoreIpv6_eq
    {table : AList fun _ : String => Ipv6Net} {persisted : PersistedVm}
    (hpool : RangeInPool cfg persisted)
    (hfree : RangeFree table persisted) :
    restoreIpv6 cfg table persisted =
      withRange table persisted.config.vmId persisted.ipv6 := by
  unfold restoreIpv6
  cases hipv6 : persisted.ipv6 with
  | none => rfl
  | some net =>
      obtain ⟨pool, hcfg, hcontains⟩ := hpool net hipv6
      have hchosen : Ipv6RangeAllocator.chooseNet ⟨pool, vmPrefix, table⟩
          (fun _ => 0) (some net) = .ok net := by
        apply Ipv6RangeAllocator.chooseNet_requested
        · exact hcontains
        · rw [Ipv6RangeAllocator.overlaps_eq_false_iff]
          exact hfree net hipv6
      simp only [hcfg, Ipv6RangeAllocator.allocate, hchosen, withRange]

theorem RangeFree.withRange
    {table : AList fun _ : String => Ipv6Net}
    {persisted later : PersistedVm} (hfree : RangeFree table later)
    (hapart : RangesApart persisted later) :
    RangeFree (withRange table persisted.config.vmId persisted.ipv6)
      later := by
  intro net hnet id existing hlookup
  cases hipv6 : persisted.ipv6 with
  | none =>
      rw [hipv6] at hlookup
      exact hfree net hnet id existing hlookup
  | some other =>
      rw [hipv6] at hlookup
      rcases lookup_insert_iff.mp hlookup with ⟨_, hnew⟩ | ⟨_, hold⟩
      · rw [hnew]
        exact hapart other net hipv6 hnet
      · exact hfree net hnet id existing hold

theorem foldl_restoreIpv6
    {persistedVms : List PersistedVm}
    {table : AList fun _ : String => Ipv6Net}
    (hpool : ∀ persisted ∈ persistedVms, RangeInPool cfg persisted)
    (hfree : ∀ persisted ∈ persistedVms, RangeFree table persisted)
    (hapart : persistedVms.Pairwise RangesApart) :
    persistedVms.foldl (restoreIpv6 cfg) table =
      persistedVms.foldl (fun table persisted =>
        withRange table persisted.config.vmId persisted.ipv6) table := by
  induction persistedVms generalizing table with
  | nil => rfl
  | cons persisted rest ih =>
      rw [List.pairwise_cons] at hapart
      rw [List.foldl_cons, List.foldl_cons,
        restoreIpv6_eq (hpool _ List.mem_cons_self)
          (hfree _ List.mem_cons_self)]
      apply ih
      · intro later hlater
        exact hpool later (List.mem_cons_of_mem persisted hlater)
      · intro later hlater
        exact (hfree later (List.mem_cons_of_mem persisted hlater)).withRange
          (hapart.1 later hlater)
      · exact hapart.2

/-! ## A restart gives the tables back -/

section Restart

variable {node : Node cfg} {calls : RestartCalls}

theorem Mirrored.mem_loadedVms
    (hmirrored : Mirrored node) (hfaithful : calls.Faithful)
    {persisted : PersistedVm} :
    persisted ∈ loadedVms calls node.stateDir ↔
      ∃ name, node.stateDir.lookup name = some persisted := by
  refine ⟨exists_file_of_mem_loadedVms, ?_⟩
  rintro ⟨name, hlookup⟩
  have hjson : hasJsonExtension name = true := by
    rw [hmirrored.named name persisted hlookup]
    exact hasJsonExtension_stateFile
      (hmirrored.nonempty name persisted hlookup)
  unfold loadedVms loadAllVms
  simp only [hfaithful.readDir, hfaithful.readable, Bool.and_true,
    List.mem_map, IterationOrder.mem_arrange, List.mem_filter]
  exact ⟨⟨name, persisted⟩, ⟨AList.mem_lookup_iff.mp hlookup, hjson⟩, rfl⟩

theorem Mirrored.restart_vms
    (hmirrored : Mirrored node) (hfaithful : calls.Faithful)
    (id : String) :
    (node.restart calls).vms.lookup id = node.vms.lookup id := by
  apply Option.ext
  intro handle
  rw [Node.restart_vms_lookup_iff hmirrored.named]
  constructor
  · rintro ⟨persisted, hloaded, rfl, rfl⟩
    obtain ⟨name, hlookup⟩ :=
      (hmirrored.mem_loadedVms hfaithful).mp hloaded
    rw [recoveredHandle_of_faithful hfaithful]
    exact hmirrored.registered name persisted hlookup
  · intro hlookup
    obtain ⟨persisted, hfile⟩ := hmirrored.saved id handle hlookup
    have hid : id = persisted.config.vmId :=
      stateFile_injective (hmirrored.named _ persisted hfile)
    subst hid
    refine ⟨persisted, (hmirrored.mem_loadedVms hfaithful).mpr ⟨_, hfile⟩,
      rfl, ?_⟩
    rw [hmirrored.registered _ persisted hfile,
      Option.some.injEq] at hlookup
    rw [recoveredHandle_of_faithful hfaithful, hlookup]

theorem Mirrored.restart_usedIpOffsets
    (hmirrored : Mirrored node) (hfaithful : calls.Faithful) :
    (node.restart calls).usedIpOffsets = node.usedIpOffsets := by
  have hrestarted : (node.restart calls).usedIpOffsets =
      (node.restart calls).offsets :=
    Node.restart_offsetsExact hmirrored.named calls
  rw [hrestarted, show node.usedIpOffsets = _ from hmirrored.exact]
  ext offset
  simp only [Node.mem_offsets, hmirrored.restart_vms hfaithful]

theorem Mirrored.restart_portForwards
    (hmirrored : Mirrored node) (hfaithful : calls.Faithful)
    (key : UInt16 × Protocol) :
    (node.restart calls).portForwards.lookup key =
      node.portForwards.lookup key := by
  have hlisted : ∀ forward,
      forward ∈ (loadedVms calls node.stateDir).flatMap
        PersistedVm.portForwards ↔
      node.portForwards.lookup forward.key = some forward := by
    intro forward
    rw [List.mem_flatMap]
    constructor
    · rintro ⟨persisted, hloaded, hforward⟩
      obtain ⟨name, hlookup⟩ :=
        (hmirrored.mem_loadedVms hfaithful).mp hloaded
      exact ((hmirrored.listed name persisted hlookup forward).mp
        hforward).1
    · intro hlookup
      obtain ⟨handle, hvm⟩ := hmirrored.owned _ forward hlookup
      obtain ⟨persisted, hfile⟩ := hmirrored.saved _ handle hvm
      have hid : forward.vmId = persisted.config.vmId :=
        stateFile_injective (hmirrored.named _ persisted hfile)
      exact ⟨persisted,
        (hmirrored.mem_loadedVms hfaithful).mpr ⟨_, hfile⟩,
        (hmirrored.listed _ persisted hfile forward).mpr ⟨hlookup, hid⟩⟩
  have hconsistent : Consistent PortForward.key id
      ((loadedVms calls node.stateDir).flatMap
        PersistedVm.portForwards) := by
    intro first hfirst second hsecond hkey
    rw [hlisted] at hfirst hsecond
    rw [hkey, hsecond, Option.some.injEq] at hfirst
    exact hfirst.symm
  apply Option.ext
  intro forward
  rw [Node.restart_eq, recoverVms_portForwards]
  refine (lookup_insertAll_empty_iff hconsistent).trans ?_
  constructor
  · rintro ⟨found, hfound, rfl, rfl⟩
    exact (hlisted found).mp hfound
  · intro hlookup
    have hkey := hmirrored.keyed key forward hlookup
    subst hkey
    exact ⟨forward, (hlisted forward).mpr hlookup, rfl, rfl⟩

theorem Mirrored.saved_ipv6
    (hmirrored : Mirrored node) {name : String} {persisted : PersistedVm}
    (hlookup : node.stateDir.lookup name = some persisted) :
    node.ipv6Allocations.lookup persisted.config.vmId = persisted.ipv6 := by
  rw [hmirrored.ranges, hmirrored.registered name persisted hlookup]
  rfl

theorem Mirrored.loaded_of_ipv6
    (hmirrored : Mirrored node) (hfaithful : calls.Faithful)
    {id : String} {net : Ipv6Net}
    (hlookup : node.ipv6Allocations.lookup id = some net) :
    ∃ persisted ∈ loadedVms calls node.stateDir,
      persisted.config.vmId = id := by
  rw [hmirrored.ranges, Option.bind_eq_some_iff] at hlookup
  obtain ⟨handle, hvm, _⟩ := hlookup
  obtain ⟨persisted, hfile⟩ := hmirrored.saved id handle hvm
  exact ⟨persisted, (hmirrored.mem_loadedVms hfaithful).mpr ⟨_, hfile⟩,
    (stateFile_injective (hmirrored.named _ persisted hfile)).symm⟩

theorem Mirrored.restart_ipv6Allocations
    (hmirrored : Mirrored node) (hfaithful : calls.Faithful)
    (id : String) :
    (node.restart calls).ipv6Allocations.lookup id =
      node.ipv6Allocations.lookup id := by
  have hfile : ∀ persisted ∈ loadedVms calls node.stateDir,
      node.ipv6Allocations.lookup persisted.config.vmId =
        persisted.ipv6 := by
    intro persisted hloaded
    obtain ⟨name, hlookup⟩ := exists_file_of_mem_loadedVms hloaded
    exact hmirrored.saved_ipv6 hlookup
  have hpool : ∀ persisted ∈ loadedVms calls node.stateDir,
      RangeInPool cfg persisted := by
    intro persisted hloaded net hnet
    exact hmirrored.inPool _ net ((hfile persisted hloaded).trans hnet)
  have hfree : ∀ persisted ∈ loadedVms calls node.stateDir,
      RangeFree ∅ persisted := by
    intro persisted _ net _ other existing hlookup
    rw [AList.lookup_empty] at hlookup
    cases hlookup
  have hapart : (loadedVms calls node.stateDir).Pairwise RangesApart := by
    have hids := List.pairwise_map.mp
      (loadedVms_nodup calls hmirrored.named)
    refine hids.imp_of_mem ?_
    intro first second hfirst hsecond hne net other hnet hother
    exact hmirrored.disjoint _ _ other net (Ne.symm hne)
      ((hfile second hsecond).trans hother) ((hfile first hfirst).trans hnet)
  have hitems : ∀ item,
      item ∈ ipv6Items (loadedVms calls node.stateDir) ↔
        node.ipv6Allocations.lookup item.1 = some item.2 := by
    intro item
    rw [ipv6Items, List.mem_filterMap]
    constructor
    · rintro ⟨persisted, hloaded, hitem⟩
      obtain ⟨net, hnet, rfl⟩ := Option.map_eq_some_iff.mp hitem
      exact (hfile persisted hloaded).trans hnet
    · intro hlookup
      obtain ⟨persisted, hloaded, hid⟩ :=
        hmirrored.loaded_of_ipv6 hfaithful hlookup
      refine ⟨persisted, hloaded, ?_⟩
      rw [← hfile persisted hloaded, hid, hlookup]
      rfl
  have hconsistent : Consistent Prod.fst Prod.snd
      (ipv6Items (loadedVms calls node.stateDir)) := by
    intro first hfirst second hsecond hkey
    rw [hitems] at hfirst hsecond
    rw [hkey, hsecond, Option.some.injEq] at hfirst
    exact hfirst.symm
  apply Option.ext
  intro net
  rw [Node.restart_eq, recoverVms_ipv6Allocations]
  change (List.foldl (restoreIpv6 cfg) ∅ _).lookup id = _ ↔ _
  rw [foldl_restoreIpv6 hpool hfree hapart, foldl_withRange,
    lookup_insertAll_empty_iff hconsistent]
  constructor
  · rintro ⟨item, hitem, rfl, rfl⟩
    exact (hitems item).mp hitem
  · intro hlookup
    exact ⟨(id, net), (hitems (id, net)).mpr hlookup, rfl, rfl⟩

theorem Mirrored.recoversSame (hmirrored : Mirrored node) :
    node.RecoversSame := by
  intro calls hfaithful
  exact ⟨hmirrored.restart_vms hfaithful,
    hmirrored.restart_usedIpOffsets hfaithful,
    hmirrored.restart_ipv6Allocations hfaithful,
    hmirrored.restart_portForwards hfaithful⟩

end Restart

end AlephCvm.Vm
