import AlephCvm.VmRecovery
import AlephCvm.VmRegistry

/-!
# The ledger of address offsets

`used_ip_offsets` should hold the offsets of the machines and nothing else.
A creation takes its offset first and registers the machine last; no failure
in between gives the offset back.  A deletion returns the offset it computes
from the machine's address, and a restart rebuilds the set and the machines
from the same files.

`OffsetKept` is the exact condition on one operation.  The invariant behind
the run theorem is the ledger itself together with the naming of the state
files, which is what keeps two files from describing the same machine.
-/

namespace AlephCvm.Vm

open ResultContext StepRuns TableFolds AlephCvm.Tee AlephCvm.Numa
open AlephCvm.Net AlephCvm.Nft AlephCvm.Qemu

variable {cfg : NodeConfig}

/-- The offsets of the addresses of the machines. -/
def Node.offsets (node : Node cfg) : Finset UInt8 :=
  (node.vms.entries.map fun entry =>
    ipOffset cfg.gatewayIp entry.2.ip).toFinset

theorem Node.mem_offsets
    {node : Node cfg} {offset : UInt8} :
    offset ∈ node.offsets ↔ ∃ id handle,
      node.vms.lookup id = some handle ∧
        ipOffset cfg.gatewayIp handle.ip = offset := by
  simp only [Node.offsets, List.mem_toFinset, List.mem_map]
  constructor
  · rintro ⟨entry, hentry, hoffset⟩
    exact ⟨entry.1, entry.2, AList.mem_lookup_iff.mpr hentry, hoffset⟩
  · rintro ⟨id, handle, hlookup, hoffset⟩
    exact ⟨⟨id, handle⟩, AList.mem_lookup_iff.mp hlookup, hoffset⟩

theorem Node.offsets_congr
    {first second : Node cfg} (hvms : first.vms = second.vms) :
    first.offsets = second.offsets := by
  unfold Node.offsets
  rw [hvms]

/-- The ledger holds the offsets of the machines and nothing else. -/
def Node.OffsetsExact (node : Node cfg) : Prop :=
  node.usedIpOffsets = node.offsets

/-- A creation that takes an offset completes, and a deletion returns an
offset that no other machine has. -/
def Node.OffsetKept (node : Node cfg) : ManagerOp → Prop
  | .createVm calls config requestedIpv6 numaHint =>
      config.vmId ∈ node.vms ∨ freeOffset node.usedIpOffsets = none ∨
        node.Completes calls config requestedIpv6 numaHint
  | .deleteVm _ id =>
      ∀ handle, node.vms.lookup id = some handle →
        ∀ other otherHandle, node.vms.lookup other = some otherHandle →
          other ≠ id →
            ipOffset cfg.gatewayIp otherHandle.ip ≠
              ipOffset cfg.gatewayIp handle.ip
  | _ => True

/-! ## One operation -/

theorem ipOffset_createdHandle
    (launch : Launch) (offset : UInt8) (vmIpv6 : Option Ipv6Net)
    (now : ℕ) :
    ipOffset cfg.gatewayIp (createdHandle cfg launch
      (allocateVmIp cfg.gatewayIp offset) vmIpv6 now).ip = offset :=
  ipOffset_allocateVmIp _ _

theorem Created.offsetsExact
    {node after : Node cfg} {calls : CreateCalls} {config : VmConfig}
    {requestedIpv6 vmIpv6 : Option Ipv6Net} {offset : UInt8}
    {launch : Launch} (hexact : node.OffsetsExact)
    (hcreated : Created node calls config requestedIpv6 offset vmIpv6
      launch after) : after.OffsetsExact := by
  unfold Node.OffsetsExact
  rw [hcreated.usedIpOffsets, show node.usedIpOffsets = _ from hexact]
  ext candidate
  rw [Finset.mem_insert, Node.mem_offsets, Node.mem_offsets]
  constructor
  · rintro (rfl | ⟨id, handle, hlookup, hoffset⟩)
    · exact ⟨config.vmId, _,
        hcreated.vms_lookup_iff.mpr (.inl ⟨rfl, rfl⟩),
        ipOffset_createdHandle _ _ _ _⟩
    · exact ⟨id, handle, hcreated.vms_lookup_iff.mpr (.inr hlookup),
        hoffset⟩
  · rintro ⟨id, handle, hlookup, hoffset⟩
    rcases hcreated.vms_lookup_iff.mp hlookup with ⟨_, rfl⟩ | hold
    · rw [ipOffset_createdHandle] at hoffset
      exact .inl hoffset.symm
    · exact .inr ⟨id, handle, hold, hoffset⟩

theorem Deleted.offsetsExact_iff
    {node after : Node cfg} {calls : DeleteCalls} {id : String}
    {handle : VmHandle} (hexact : node.OffsetsExact)
    (hlookup : node.vms.lookup id = some handle)
    (hdeleted : Deleted node calls id handle after) :
    after.OffsetsExact ↔
      ∀ other otherHandle, node.vms.lookup other = some otherHandle →
        other ≠ id → ipOffset cfg.gatewayIp otherHandle.ip ≠
          ipOffset cfg.gatewayIp handle.ip := by
  unfold Node.OffsetsExact at hexact ⊢
  rw [hdeleted.usedIpOffsets, hexact]
  constructor
  · intro hafter other otherHandle hother hne hoffset
    have hmem : ipOffset cfg.gatewayIp handle.ip ∈ after.offsets := by
      rw [Node.mem_offsets]
      exact ⟨other, otherHandle, hdeleted.vms_lookup_iff.mpr ⟨hne, hother⟩,
        hoffset⟩
    rw [← hafter] at hmem
    exact Finset.notMem_erase _ _ hmem
  · intro hdistinct
    ext candidate
    rw [Finset.mem_erase, Node.mem_offsets, Node.mem_offsets]
    constructor
    · rintro ⟨hne, other, otherHandle, hother, hoffset⟩
      have hid : other ≠ id := by
        rintro rfl
        rw [hlookup, Option.some.injEq] at hother
        subst hother
        exact hne hoffset.symm
      exact ⟨other, otherHandle, hdeleted.vms_lookup_iff.mpr ⟨hid, hother⟩,
        hoffset⟩
    · rintro ⟨other, otherHandle, hother, hoffset⟩
      obtain ⟨hid, hkept⟩ := hdeleted.vms_lookup_iff.mp hother
      refine ⟨?_, other, otherHandle, hkept, hoffset⟩
      rw [← hoffset]
      exact hdistinct other otherHandle hkept hid

/-- Machines and offsets are rebuilt from the same files, whichever of them
could be read. -/
theorem Node.restart_offsetsExact
    {node : Node cfg} (hnamed : FilesNamed node.stateDir)
    (calls : RestartCalls) : (node.restart calls).OffsetsExact := by
  unfold Node.OffsetsExact
  ext offset
  rw [Node.mem_restart_usedIpOffsets, Node.mem_offsets]
  constructor
  · rintro ⟨persisted, hloaded, hoffset⟩
    exact ⟨persisted.config.vmId, recoveredHandle cfg calls persisted,
      (Node.restart_vms_lookup_iff hnamed calls).mpr
        ⟨persisted, hloaded, rfl, rfl⟩, hoffset⟩
  · rintro ⟨id, handle, hlookup, hoffset⟩
    obtain ⟨persisted, hloaded, _, rfl⟩ :=
      (Node.restart_vms_lookup_iff hnamed calls).mp hlookup
    exact ⟨persisted, hloaded, hoffset⟩

theorem SameMachines.offsetsExact_iff
    {before after : Node cfg} (hsame : SameMachines before after) :
    after.OffsetsExact ↔ before.OffsetsExact := by
  unfold Node.OffsetsExact
  rw [hsame.usedIpOffsets, Node.offsets_congr hsame.vms]

/-- In a node with an exact ledger, the ledger is exact after an operation if
and only if the operation meets the condition. -/
theorem Node.step_offsetsExact_iff
    {node : Node cfg} (hexact : node.OffsetsExact)
    (hnamed : FilesNamed node.stateDir) (op : ManagerOp) :
    (node.step op).OffsetsExact ↔ node.OffsetKept op := by
  have heffect := node.step_effect op
  generalize node.step op = after at heffect
  cases heffect with
  | createVm heffect =>
      cases heffect with
      | refused failure hrefused =>
          exact iff_of_true hexact (or_assoc.mp (.inl hrefused))
      | failed failure offset after hfresh hfree hfailed hsame =>
          refine iff_of_false ?_
            (Node.not_refused_or_completes hfresh hfree hfailed)
          intro hafter
          have hmem : offset ∈ after.offsets := by
            rw [← hafter, hsame.usedIpOffsets]
            exact Finset.mem_insert_self _ _
          rw [Node.offsets_congr hsame.vms] at hmem
          apply freeOffset_notMem hfree
          rw [hexact]
          exact hmem
      | created info offset vmIpv6 launch after hcompletes hcreated =>
          exact iff_of_true (hcreated.offsetsExact hexact)
            (.inr (.inr hcompletes))
  | notFound hnone =>
      simp only [Node.OffsetKept, hnone]
      simpa using hexact
  | deleted hvm hdeleted =>
      rw [Deleted.offsetsExact_iff hexact hvm hdeleted]
      simp only [Node.OffsetKept, hvm, Option.some.injEq, forall_eq']
  | addPortForward heffect =>
      exact iff_of_true (heffect.sameMachines.offsetsExact_iff.mpr hexact)
        trivial
  | removePortForward heffect =>
      exact iff_of_true (heffect.sameMachines.offsetsExact_iff.mpr hexact)
        trivial
  | restart calls =>
      exact iff_of_true (Node.restart_offsetsExact hnamed calls) trivial

/-! ## State files -/

theorem Created.filesNamed
    {node after : Node cfg} {calls : CreateCalls} {config : VmConfig}
    {requestedIpv6 vmIpv6 : Option Ipv6Net} {offset : UInt8}
    {launch : Launch} (hnamed : FilesNamed node.stateDir)
    (hcreated : Created node calls config requestedIpv6 offset vmIpv6
      launch after) : FilesNamed after.stateDir := by
  rw [hcreated.stateDir, Node.saveVm]
  split_ifs with hsave
  · rw [← hcreated.vmId]
    exact hnamed.insert (persistedOf (createdHandle cfg launch
      (allocateVmIp cfg.gatewayIp offset) vmIpv6 calls.now) _ [])
  · exact hnamed

theorem ForwardsSaved.filesNamed
    {node after : Node cfg} {calls : ForwardCalls} {vmId : String}
    (hsaved : ForwardsSaved node calls vmId after)
    (hnamed : FilesNamed node.stateDir) : FilesNamed after.stateDir := by
  cases hsaved with
  | unsaved hunsaved => exact hnamed
  | saved persisted hfile =>
      rw [hnamed _ persisted hfile]
      exact hnamed.insert { persisted with
        portForwards := PortForwardState.listForVm node.portForwards
          calls.order vmId }

theorem Node.step_filesNamed
    {node : Node cfg} (hnamed : FilesNamed node.stateDir)
    (op : ManagerOp) : FilesNamed (node.step op).stateDir := by
  have heffect := node.step_effect op
  generalize node.step op = after at heffect
  cases heffect with
  | createVm heffect =>
      cases heffect with
      | refused failure hrefused => exact hnamed
      | failed failure offset after hfresh hfree hfailed hsame =>
          rw [hsame.stateDir]
          exact hnamed
      | created info offset vmIpv6 launch after hcompletes hcreated =>
          exact hcreated.filesNamed hnamed
  | notFound hnone => exact hnamed
  | deleted hvm hdeleted =>
      rw [hdeleted.stateDir]
      split_ifs
      · exact hnamed.erase _
      · exact hnamed
  | addPortForward heffect =>
      cases heffect with
      | refused => exact hnamed
      | rolledBack forward hfree => exact hnamed
      | added forward handle ruleset _ hvm howner hfree hsaved =>
          exact hsaved.filesNamed hnamed
  | removePortForward heffect =>
      cases heffect with
      | refused => exact hnamed
      | unsaved key hfailed => exact hnamed
      | removed key forward ruleset _ hfound hsaved =>
          exact hsaved.filesNamed hnamed
  | restart calls =>
      rw [Node.restart_stateDir]
      exact hnamed

/-! ## Runs -/

structure Node.LedgerKept (node : Node cfg) : Prop where
  exact : node.OffsetsExact
  named : FilesNamed node.stateDir

theorem Node.fresh_ledgerKept
    (taps : Finset String) (ruleset : Ruleset)
    (hostsdir : AList fun _ : String => String) :
    (Node.fresh cfg taps ruleset hostsdir ∅).LedgerKept := by
  refine ⟨rfl, ?_⟩
  intro name persisted hlookup
  rw [Node.fresh, AList.lookup_empty] at hlookup
  cases hlookup

/-- In every run of a manager that starts without machines, the ledger is
exact after every operation if and only if every operation meets the
condition: no creation fails once it has taken its offset, and no deletion
returns an offset that another machine has. -/
theorem used_ip_offsets_exact_iff
    (cfg : NodeConfig) (taps : Finset String) (ruleset : Ruleset)
    (hostsdir : AList fun _ : String => String) (ops : List ManagerOp) :
    Along Node.step (fun node op => (node.step op).OffsetsExact)
        (.fresh cfg taps ruleset hostsdir ∅) ops ↔
      Along Node.step Node.OffsetKept
        (.fresh cfg taps ruleset hostsdir ∅) ops := by
  refine along_iff_of_invariant ?_ ?_ ops
    (Node.fresh_ledgerKept taps ruleset hostsdir)
  · intro node op hkept
    exact Node.step_offsetsExact_iff hkept.exact hkept.named op
  · intro node op hkept hcond
    exact ⟨(Node.step_offsetsExact_iff hkept.exact hkept.named op).mpr
      hcond, Node.step_filesNamed hkept.named op⟩

/-- A machine for a TEE without a backend is refused, and its offset stays in
the ledger of a node that has no machine. -/
theorem used_ip_offsets_leaks_without_backend :
    ¬ Along Node.step (fun node op => (node.step op).OffsetsExact)
      smallNode
      [.createVm createSucceeds (smallConfig "vm-a" .tdx) none none] := by
  intro h
  have hexact := h.1
  revert hexact
  unfold Node.OffsetsExact
  decide +kernel

end AlephCvm.Vm
