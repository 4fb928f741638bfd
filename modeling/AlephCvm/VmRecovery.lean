import AlephCvm.TableFolds
import AlephCvm.VmLifecycle

/-!
# Recovery as a fold over state files

`recover_vms` walks over the state files once and extends five tables in the
same loop.  Each table after the loop is the fold of its own update, so it
can be described without the others; this file gives these descriptions and
the ones of the list that the loop walks over.
-/

namespace AlephCvm.Vm

open ResultContext TableFolds AlephCvm.Tee AlephCvm.Numa AlephCvm.Net
open AlephCvm.Nft AlephCvm.Qemu

variable {cfg : NodeConfig}

/-! ## The list of state files -/

/-- What the recovery finds; nothing when the directory cannot be read. -/
def loadedVms (calls : RestartCalls)
    (stateDir : AList fun _ : String => PersistedVm) : List PersistedVm :=
  match loadAllVms calls stateDir with
  | .error _ => []
  | .ok persistedVms => persistedVms

theorem Node.restart_eq (node : Node cfg) (calls : RestartCalls) :
    node.restart calls =
      (loadedVms calls node.stateDir).foldl (Node.recoverVm calls)
        (.fresh cfg calls.taps calls.ruleset calls.hostsdir
          node.stateDir) := by
  unfold Node.restart Node.recoverVms loadedVms
  simp only [Node.fresh]
  cases loadAllVms calls node.stateDir <;> rfl

/-- The recovery finds the readable files with the right extension, and none
when the directory cannot be read. -/
theorem mem_loadedVms_iff
    {calls : RestartCalls} {stateDir : AList fun _ : String => PersistedVm}
    {persisted : PersistedVm} :
    persisted ∈ loadedVms calls stateDir ↔
      calls.readDir = .ok () ∧
        ∃ name, stateDir.lookup name = some persisted ∧
          hasJsonExtension name = true ∧ calls.readable name = true := by
  unfold loadedVms loadAllVms
  cases calls.readDir with
  | error message => simp
  | ok done =>
      simp only [List.mem_map, IterationOrder.mem_arrange, List.mem_filter,
        Bool.and_eq_true, true_and]
      constructor
      · intro h
        obtain ⟨entry, ⟨hentry, hname⟩, rfl⟩ := h
        exact ⟨entry.1, AList.mem_lookup_iff.mpr hentry, hname⟩
      · intro h
        obtain ⟨name, hfile, hname⟩ := h
        exact ⟨⟨name, persisted⟩,
          ⟨AList.mem_lookup_iff.mp hfile, hname⟩, rfl⟩

theorem exists_file_of_mem_loadedVms
    {calls : RestartCalls} {stateDir : AList fun _ : String => PersistedVm}
    {persisted : PersistedVm}
    (hmem : persisted ∈ loadedVms calls stateDir) :
    ∃ name, stateDir.lookup name = some persisted := by
  obtain ⟨_, name, hfile, _⟩ := mem_loadedVms_iff.mp hmem
  exact ⟨name, hfile⟩

/-- Every state file is named after the machine it describes. -/
def FilesNamed (stateDir : AList fun _ : String => PersistedVm) : Prop :=
  ∀ name persisted, stateDir.lookup name = some persisted →
    name = stateFile persisted.config.vmId

theorem FilesNamed.insert
    {stateDir : AList fun _ : String => PersistedVm}
    (hnamed : FilesNamed stateDir) (persisted : PersistedVm) :
    FilesNamed (stateDir.insert (stateFile persisted.config.vmId)
      persisted) := by
  intro name found hlookup
  rcases lookup_insert_iff.mp hlookup with ⟨hname, hfound⟩ | ⟨_, hold⟩
  · rw [hname, hfound]
  · exact hnamed name found hold

theorem FilesNamed.erase
    {stateDir : AList fun _ : String => PersistedVm}
    (hnamed : FilesNamed stateDir) (file : String) :
    FilesNamed (stateDir.erase file) := by
  intro name found hlookup
  exact hnamed name found (lookup_erase_iff.mp hlookup).2

theorem loadedVms_nodup
    (calls : RestartCalls) {stateDir : AList fun _ : String => PersistedVm}
    (hnamed : FilesNamed stateDir) :
    ((loadedVms calls stateDir).map fun persisted =>
      persisted.config.vmId).Nodup := by
  unfold loadedVms loadAllVms
  cases calls.readDir with
  | error message => exact List.nodup_nil
  | ok done =>
      simp only [List.map_map]
      apply List.Nodup.of_map stateFile
      rw [List.map_map]
      have hnames : ∀ entry ∈ calls.order.arrange
          (stateDir.entries.filter fun entry =>
            hasJsonExtension entry.1 && calls.readable entry.1),
          (stateFile ∘ (fun persisted : PersistedVm =>
            persisted.config.vmId) ∘
            fun entry : Σ _ : String, PersistedVm => entry.2) entry =
          entry.1 := by
        intro entry hentry
        rw [IterationOrder.mem_arrange, List.mem_filter] at hentry
        exact (hnamed entry.1 entry.2
          (AList.mem_lookup_iff.mpr hentry.1)).symm
      rw [List.map_congr_left hnames,
        (calls.order.perm _).map Sigma.fst |>.nodup_iff]
      exact stateDir.keys_nodup.sublist (List.filter_sublist.map Sigma.fst)

/-! ## The tables after the loop -/

section Fold

variable (calls : RestartCalls) (persistedVms : List PersistedVm)
  (node : Node cfg)

theorem recoverVms_vms :
    (persistedVms.foldl (Node.recoverVm calls) node).vms =
      insertAll (fun persisted => persisted.config.vmId)
        (recoveredHandle cfg calls) persistedVms node.vms :=
  (List.foldl_hom Node.vms fun _ _ => rfl).symm

theorem recoverVms_usedIpOffsets :
    (persistedVms.foldl (Node.recoverVm calls) node).usedIpOffsets =
      persistedVms.foldl (fun used persisted =>
        insert (ipOffset cfg.gatewayIp persisted.ip) used)
        node.usedIpOffsets :=
  (List.foldl_hom Node.usedIpOffsets fun _ _ => rfl).symm

theorem recoverVms_ipv6Allocations :
    (persistedVms.foldl (Node.recoverVm calls) node).ipv6Allocations =
      persistedVms.foldl (restoreIpv6 cfg) node.ipv6Allocations :=
  (List.foldl_hom Node.ipv6Allocations fun _ _ => rfl).symm

theorem recoverVms_portForwards :
    (persistedVms.foldl (Node.recoverVm calls) node).portForwards =
      (persistedVms.flatMap PersistedVm.portForwards).foldl
        PortForwardState.add node.portForwards := by
  rw [List.foldl_flatMap]
  exact (List.foldl_hom Node.portForwards fun _ _ => rfl).symm

theorem recoverVms_stateDir :
    (persistedVms.foldl (Node.recoverVm calls) node).stateDir =
      node.stateDir := by
  induction persistedVms generalizing node with
  | nil => rfl
  | cons persisted rest ih => exact ih _

end Fold

theorem Node.restart_stateDir (node : Node cfg) (calls : RestartCalls) :
    (node.restart calls).stateDir = node.stateDir := by
  rw [Node.restart_eq, recoverVms_stateDir]
  rfl

/-- The machines after a restart are the loaded ones. -/
theorem Node.restart_vms_lookup_iff
    {node : Node cfg} (hnamed : FilesNamed node.stateDir)
    (calls : RestartCalls) {id : String} {handle : VmHandle} :
    (node.restart calls).vms.lookup id = some handle ↔
      ∃ persisted ∈ loadedVms calls node.stateDir,
        persisted.config.vmId = id ∧
          recoveredHandle cfg calls persisted = handle := by
  rw [Node.restart_eq, recoverVms_vms]
  exact lookup_insertAll_empty_iff
    (consistent_of_nodup (loadedVms_nodup calls hnamed))

theorem Node.mem_restart_usedIpOffsets
    (node : Node cfg) (calls : RestartCalls) (offset : UInt8) :
    offset ∈ (node.restart calls).usedIpOffsets ↔
      ∃ persisted ∈ loadedVms calls node.stateDir,
        ipOffset cfg.gatewayIp persisted.ip = offset := by
  rw [Node.restart_eq, recoverVms_usedIpOffsets,
    mem_foldl_insert]
  simp [Node.fresh]

end AlephCvm.Vm
