import AlephCvm.AcceptedCommands
import AlephCvm.SchedulerConvergence
import AlephCvm.StateMirror

/-!
# Where the machines of a node come from

The configuration of a machine is the one that it was created with, with the
hash trees and the placement filled in; no later operation touches it, and
a restart reads it back from the state file.  The rules of this file turn a
property of all configurations that a run hands to `create_vm` into one of
all machines and all state files after the run, and a property of all
forwards that it asks for into one of all forwards and all saved lists.
-/

namespace AlephCvm.Vm

open ResultContext TableFolds StepRuns AlephCvm.Tee AlephCvm.Numa
open AlephCvm.Net AlephCvm.Nft AlephCvm.Qemu

variable {cfg : NodeConfig}

/-! ## The configuration of a created machine -/

/-- The configuration that a creation registers for the given one. -/
structure FillsIn (cfg : NodeConfig) (calls : CreateCalls)
    (config filled : VmConfig) : Prop where
  backend : (cfg.backends config.tee.backend).isSome = true
  filled : ∃ disks placement,
    HashTreesAdded calls.verity config.disks disks ∧
      filled = placedConfig config disks cfg.topology.nodes.length placement

theorem Node.prepareLaunch_fillsIn
    {node : Node cfg} {calls : CreateCalls} {config : VmConfig}
    {numaHint : Option UInt32} {macAddr : String} {launch : Launch}
    (hlaunch : (node.prepareLaunch calls config numaHint macAddr).1 =
      .ok launch) : FillsIn cfg calls config launch.config := by
  obtain ⟨backend, cmdline, disks, args, hbackend, hboot, hconfig, -, -⟩ :=
    Node.prepareLaunch_built hlaunch
  refine ⟨by rw [hbackend]; rfl, disks, launch.placement, ?_, hconfig⟩
  exact prepareBoot_adds hboot

/-- The machine of a successful launch is the launched one. -/
theorem Node.launchVm_lookup
    {node after : Node cfg} {calls : CreateCalls} {launch : Launch}
    {vmIp : Ipv4Addr} {macAddr : String} {vmIpv6 : Option Ipv6Net}
    {info : VmInfo} {handle : VmHandle}
    (hok : node.launchVm calls launch vmIp macAddr vmIpv6 =
      (.ok info, after))
    (hlookup : after.vms.lookup launch.config.vmId = some handle) :
    handle.config = launch.config := by
  unfold Node.launchVm at hok
  cases hspawn : calls.spawn with
  | error message => simp [hspawn] at hok
  | ok done =>
      simp only [hspawn, Prod.mk.injEq] at hok
      obtain ⟨-, rfl⟩ := hok
      rw [AList.lookup_insert] at hlookup
      rw [← Option.some.inj hlookup]
      rfl

theorem Node.createVm_fillsIn
    {node after : Node cfg} {calls : CreateCalls} {config : VmConfig}
    {requestedIpv6 : Option Ipv6Net} {numaHint : Option UInt32}
    {info : VmInfo} {handle : VmHandle}
    (hok : node.createVm calls config requestedIpv6 numaHint =
      (.ok info, after))
    (hlookup : after.vms.lookup config.vmId = some handle) :
    FillsIn cfg calls config handle.config := by
  unfold Node.createVm at hok
  simp only at hok
  split at hok
  · simp at hok
  · split at hok
    · simp at hok
    · split at hok
      · simp at hok
      · split at hok
        · simp at hok
        · split at hok
          · simp at hok
          · split at hok
            · simp at hok
            · rename_i launch prepared hprepared
              have hfills := Node.prepareLaunch_fillsIn
                (congrArg Prod.fst hprepared)
              have hid : launch.config.vmId = config.vmId := by
                obtain ⟨disks, placement, -, hfilled⟩ := hfills.filled
                rw [hfilled]
                rfl
              rw [← hid] at hlookup
              rw [Node.launchVm_lookup hok hlookup]
              exact hfills

/-! ## All machines of a run -/

/-- All machines and all state files have configurations and interfaces of
one kind. -/
structure MachinesFrom (kind : VmConfig → String → Prop) (node : Node cfg) :
    Prop where
  named : FilesNamed node.stateDir
  vms : ∀ id handle, node.vms.lookup id = some handle →
    handle.config.vmId = id ∧ kind handle.config handle.tapName
  files : ∀ name persisted, node.stateDir.lookup name = some persisted →
    kind persisted.config persisted.tapName

theorem MachinesFrom.fresh
    (kind : VmConfig → String → Prop) (taps : Finset String)
    (ruleset : Ruleset)
    (hostsdir : AList fun _ : String => String) :
    MachinesFrom kind (Node.fresh cfg taps ruleset hostsdir ∅) := by
  refine ⟨(Node.fresh_ledgerKept taps ruleset hostsdir).named, ?_, ?_⟩
  · intro id handle hlookup
    rw [Node.fresh, AList.lookup_empty] at hlookup
    cases hlookup
  · intro name persisted hlookup
    rw [Node.fresh, AList.lookup_empty] at hlookup
    cases hlookup

/-- The operation hands only configurations to `create_vm` that become those
of the kind. -/
def CreatesOnly (cfg : NodeConfig) (kind : VmConfig → String → Prop) :
    ManagerOp → Prop
  | .createVm calls config _ _ =>
      ∀ filled, FillsIn cfg calls config filled →
        kind filled (tapName filled.vmId)
  | _ => True

theorem ForwardsSaved.machineFiles
    {kind : VmConfig → String → Prop} {node after : Node cfg}
    {calls : ForwardCalls} {vmId : String}
    (hsaved : ForwardsSaved node calls vmId after)
    (hfiles : ∀ name persisted,
      node.stateDir.lookup name = some persisted →
        kind persisted.config persisted.tapName) :
    ∀ name persisted, after.stateDir.lookup name = some persisted →
      kind persisted.config persisted.tapName := by
  intro name persisted hlookup
  cases hsaved with
  | unsaved hunsaved => exact hfiles name persisted hlookup
  | saved old hfile =>
      rcases lookup_insert_iff.mp hlookup with ⟨_, hnew⟩ | ⟨_, hold⟩
      · rw [hnew]
        exact hfiles _ old hfile
      · exact hfiles name persisted hold

theorem MachinesFrom.createVm
    {kind : VmConfig → String → Prop} {node : Node cfg}
    {calls : CreateCalls} {config : VmConfig}
    (hcreates : ∀ filled, FillsIn cfg calls config filled →
      kind filled (tapName filled.vmId))
    (requestedIpv6 : Option Ipv6Net) (numaHint : Option UInt32)
    (hkept : MachinesFrom kind node) :
    MachinesFrom kind
      (node.createVm calls config requestedIpv6 numaHint).2 := by
  have hnamed := Node.step_filesNamed hkept.named
    (.createVm calls config requestedIpv6 numaHint)
  have heffect := node.createVm_effect calls config requestedIpv6 numaHint
  simp only [Node.step] at hnamed
  generalize hresult : node.createVm calls config requestedIpv6 numaHint =
    result at heffect hnamed
  cases heffect with
  | refused failure hrefused => exact hkept
  | failed failure offset after hfresh hfree hfailed hsame =>
      refine ⟨hnamed, ?_, ?_⟩
      · intro id handle hlookup
        rw [hsame.vms] at hlookup
        exact hkept.vms id handle hlookup
      · intro name persisted hlookup
        rw [hsame.stateDir] at hlookup
        exact hkept.files name persisted hlookup
  | created info offset vmIpv6 launch after hcompletes hcreated =>
      have hkind : kind launch.config (tapName launch.config.vmId) := by
        have hlookup : after.vms.lookup config.vmId = some (createdHandle
            cfg launch (allocateVmIp cfg.gatewayIp offset) vmIpv6
            calls.now) := by
          rw [hcreated.vms, AList.lookup_insert]
        exact hcreates _ (Node.createVm_fillsIn hresult hlookup)
      refine ⟨hnamed, ?_, ?_⟩
      · intro id handle hlookup
        rcases hcreated.vms_lookup_iff.mp hlookup with ⟨rfl, rfl⟩ | hold
        · exact ⟨hcreated.vmId, hkind⟩
        · exact hkept.vms id handle hold
      · intro name persisted hlookup
        rw [hcreated.stateDir, Node.saveVm] at hlookup
        split at hlookup
        · rcases lookup_insert_iff.mp hlookup with ⟨_, rfl⟩ | ⟨_, hold⟩
          · exact hkind
          · exact hkept.files name persisted hold
        · exact hkept.files name persisted hlookup

theorem MachinesFrom.step
    {kind : VmConfig → String → Prop} {node : Node cfg} {op : ManagerOp}
    (hop : CreatesOnly cfg kind op) (hkept : MachinesFrom kind node) :
    MachinesFrom kind (node.step op) := by
  have hnamed := Node.step_filesNamed hkept.named op
  have heffect := node.step_effect op
  cases op with
  | createVm calls config requestedIpv6 numaHint =>
      exact hkept.createVm hop requestedIpv6 numaHint
  | deleteVm calls id =>
      generalize node.step (.deleteVm calls id) = after at heffect hnamed
      cases heffect with
      | notFound hnone => exact hkept
      | deleted hvm hdeleted =>
          refine ⟨hnamed, ?_, ?_⟩
          · intro other handle hlookup
            exact hkept.vms other handle
              (hdeleted.vms_lookup_iff.mp hlookup).2
          · intro name persisted hlookup
            rw [hdeleted.stateDir] at hlookup
            split at hlookup
            · exact hkept.files name persisted
                (lookup_erase_iff.mp hlookup).2
            · exact hkept.files name persisted hlookup
  | addPortForward calls vmId hostPort vmPort protocol =>
      generalize node.step (.addPortForward calls vmId hostPort vmPort
        protocol) = after at heffect hnamed
      cases heffect with
      | addPortForward heffect =>
          refine ⟨hnamed, ?_, ?_⟩
          · intro id handle hlookup
            rw [heffect.sameMachines.vms] at hlookup
            exact hkept.vms id handle hlookup
          · cases heffect with
            | refused => exact hkept.files
            | rolledBack forward hfree => exact hkept.files
            | added forward handle ruleset after hvm howner hfree hsaved =>
                exact hsaved.machineFiles hkept.files
  | removePortForward calls hostPort protocol =>
      generalize node.step (.removePortForward calls hostPort protocol) =
        after at heffect hnamed
      cases heffect with
      | removePortForward heffect =>
          refine ⟨hnamed, ?_, ?_⟩
          · intro id handle hlookup
            rw [heffect.sameMachines.vms] at hlookup
            exact hkept.vms id handle hlookup
          · cases heffect with
            | refused => exact hkept.files
            | unsaved key hfailed => exact hkept.files
            | removed key forward ruleset after hfound hsaved =>
                exact hsaved.machineFiles hkept.files
  | restart calls =>
      refine ⟨hnamed, ?_, ?_⟩
      · intro id handle hlookup
        obtain ⟨persisted, hloaded, hid, rfl⟩ :=
          (Node.restart_vms_lookup_iff hkept.named calls).mp hlookup
        obtain ⟨name, hfile⟩ := exists_file_of_mem_loadedVms hloaded
        exact ⟨hid, hkept.files name persisted hfile⟩
      · intro name persisted hlookup
        simp only [Node.step, Node.restart_stateDir] at hlookup
        exact hkept.files name persisted hlookup

/-- A run that hands only such configurations to `create_vm` keeps only such
machines. -/
theorem MachinesFrom.reaches
    {kind : VmConfig → String → Prop} {node after : Node cfg}
    (hreaches : Reaches Node.step (CreatesOnly cfg kind) node after)
    (hkept : MachinesFrom kind node) : MachinesFrom kind after :=
  hreaches.invariant (fun _ _ hop hbefore => hbefore.step hop) hkept

/-! ## All forwards of a run -/

theorem PortForwardState.forall_foldl_add
    {kind : PortForward → Prop} {state : PortForwardState}
    {forwards : List PortForward}
    (hstate : ∀ key forward, state.lookup key = some forward →
      kind forward)
    (hforwards : ∀ forward ∈ forwards, kind forward) :
    ∀ key forward, (forwards.foldl PortForwardState.add state).lookup key =
      some forward → kind forward :=
  forall_lookup_insertAll hstate hforwards

/-- All forwards, in memory and in the state files, are of one kind. -/
structure ForwardsFrom (kind : PortForward → Prop) (node : Node cfg) :
    Prop where
  forwards : ∀ key forward, node.portForwards.lookup key = some forward →
    kind forward
  files : ∀ name persisted, node.stateDir.lookup name = some persisted →
    ∀ forward ∈ persisted.portForwards, kind forward

theorem ForwardsFrom.fresh
    (kind : PortForward → Prop) (taps : Finset String) (ruleset : Ruleset)
    (hostsdir : AList fun _ : String => String) :
    ForwardsFrom kind (Node.fresh cfg taps ruleset hostsdir ∅) := by
  constructor
  · intro key forward hlookup
    rw [Node.fresh, AList.lookup_empty] at hlookup
    cases hlookup
  · intro name persisted hlookup
    rw [Node.fresh, AList.lookup_empty] at hlookup
    cases hlookup

/-- The operation asks only for forwards of the kind, whichever host port it
gets. -/
def ForwardsOnly (kind : PortForward → Prop) : ManagerOp → Prop
  | .addPortForward _ vmId _ vmPort protocol =>
      ∀ hostPort, kind ⟨vmId, hostPort, vmPort, protocol⟩
  | _ => True

theorem ForwardsFrom.saved
    {kind : PortForward → Prop} {node after : Node cfg}
    {calls : ForwardCalls} {vmId : String}
    (hsaved : ForwardsSaved node calls vmId after)
    (hkept : ForwardsFrom kind node) : ForwardsFrom kind after := by
  cases hsaved with
  | unsaved hunsaved => exact hkept
  | saved old hfile =>
      refine ⟨hkept.forwards, ?_⟩
      intro name persisted hlookup forward hforward
      rcases lookup_insert_iff.mp hlookup with ⟨_, hnew⟩ | ⟨_, hold⟩
      · rw [hnew] at hforward
        obtain ⟨⟨key, hlisted⟩, _⟩ :=
          (PortForwardState.mem_listForVm _).mp hforward
        exact hkept.forwards key forward hlisted
      · exact hkept.files name persisted hold forward hforward

theorem ForwardsFrom.createVm
    {kind : PortForward → Prop} {node : Node cfg}
    (calls : CreateCalls) (config : VmConfig)
    (requestedIpv6 : Option Ipv6Net) (numaHint : Option UInt32)
    (hkept : ForwardsFrom kind node) :
    ForwardsFrom kind
      (node.createVm calls config requestedIpv6 numaHint).2 := by
  have heffect := node.createVm_effect calls config requestedIpv6 numaHint
  generalize node.createVm calls config requestedIpv6 numaHint = result
    at heffect
  cases heffect with
  | refused failure hrefused => exact hkept
  | failed failure offset after hfresh hfree hfailed hsame =>
      constructor
      · rw [hsame.portForwards]
        exact hkept.forwards
      · rw [hsame.stateDir]
        exact hkept.files
  | created info offset vmIpv6 launch after hcompletes hcreated =>
      constructor
      · rw [hcreated.portForwards]
        exact hkept.forwards
      · intro name persisted hlookup forward hforward
        rw [hcreated.stateDir, Node.saveVm] at hlookup
        split at hlookup
        · rcases lookup_insert_iff.mp hlookup with ⟨_, rfl⟩ | ⟨_, hold⟩
          · cases hforward
          · exact hkept.files name persisted hold forward hforward
        · exact hkept.files name persisted hlookup forward hforward

theorem ForwardsFrom.deleted
    {kind : PortForward → Prop} {node after : Node cfg}
    {calls : DeleteCalls} {id : String} {handle : VmHandle}
    (hdeleted : Deleted node calls id handle after)
    (hkept : ForwardsFrom kind node) : ForwardsFrom kind after := by
  constructor
  · intro key forward hlookup
    rw [hdeleted.portForwards] at hlookup
    exact hkept.forwards key forward
      ((PortForwardState.removeAllForVm_lookup _ _ _ _ _).mp hlookup).1
  · intro name persisted hlookup
    rw [hdeleted.stateDir] at hlookup
    split at hlookup
    · exact hkept.files name persisted (lookup_erase_iff.mp hlookup).2
    · exact hkept.files name persisted hlookup

theorem ForwardsFrom.erase
    {kind : PortForward → Prop} {node : Node cfg}
    (key : UInt16 × Protocol) (ruleset : Ruleset)
    (hkept : ForwardsFrom kind node) :
    ForwardsFrom kind { node with
      portForwards := node.portForwards.erase key, ruleset := ruleset } := by
  refine ⟨?_, hkept.files⟩
  intro other forward hlookup
  exact hkept.forwards other forward (lookup_erase_iff.mp hlookup).2

theorem ForwardsFrom.addPortForward
    {kind : PortForward → Prop} {node : Node cfg} {vmId : String}
    {vmPort : UInt16} {protocol : Protocol}
    (hkind : ∀ hostPort, kind ⟨vmId, hostPort, vmPort, protocol⟩)
    (calls : ForwardCalls) (hostPort : UInt16)
    (hkept : ForwardsFrom kind node) :
    ForwardsFrom kind
      (node.addPortForward calls vmId hostPort vmPort protocol).2 := by
  have hadded : ∀ chosen other forward,
      (PortForwardState.add node.portForwards
        ⟨vmId, chosen, vmPort, protocol⟩).lookup other = some forward →
      kind forward := by
    intro chosen other forward hlookup
    rcases lookup_insert_iff.mp hlookup with ⟨_, rfl⟩ | ⟨_, hold⟩
    · exact hkind chosen
    · exact hkept.forwards other forward hold
  have hresult := node.addPortForward_result calls vmId hostPort vmPort
    protocol
  generalize node.addPortForward calls vmId hostPort vmPort protocol =
    result at hresult
  cases hresult with
  | refused message => exact hkept
  | rolledBack message chosen hchosen =>
      refine ⟨?_, hkept.files⟩
      intro other forward hlookup
      exact hadded chosen other forward (lookup_erase_iff.mp hlookup).2
  | added handle chosen ruleset after hvm hchosen hadd hsaved =>
      apply ForwardsFrom.saved hsaved
      exact ⟨hadded chosen, hkept.files⟩

theorem ForwardsFrom.restart
    {kind : PortForward → Prop} {node : Node cfg}
    (calls : RestartCalls) (hkept : ForwardsFrom kind node) :
    ForwardsFrom kind (node.restart calls) := by
  constructor
  · rw [Node.restart_eq, recoverVms_portForwards]
    apply PortForwardState.forall_foldl_add
    · intro key forward hlookup
      rw [Node.fresh, AList.lookup_empty] at hlookup
      cases hlookup
    · intro forward hforward
      obtain ⟨persisted, hloaded, hlisted⟩ := List.mem_flatMap.mp hforward
      obtain ⟨name, hfile⟩ := exists_file_of_mem_loadedVms hloaded
      exact hkept.files name persisted hfile forward hlisted
  · rw [Node.restart_stateDir]
    exact hkept.files

theorem ForwardsFrom.step
    {kind : PortForward → Prop} {node : Node cfg} {op : ManagerOp}
    (hop : ForwardsOnly kind op) (hkept : ForwardsFrom kind node) :
    ForwardsFrom kind (node.step op) := by
  have heffect := node.step_effect op
  cases op with
  | createVm calls config requestedIpv6 numaHint =>
      exact hkept.createVm calls config requestedIpv6 numaHint
  | deleteVm calls id =>
      generalize node.step (.deleteVm calls id) = after at heffect
      cases heffect with
      | notFound hnone => exact hkept
      | deleted hvm hdeleted => exact hkept.deleted hdeleted
  | addPortForward calls vmId hostPort vmPort protocol =>
      exact hkept.addPortForward hop calls hostPort
  | removePortForward calls hostPort protocol =>
      generalize node.step (.removePortForward calls hostPort protocol) =
        after at heffect
      cases heffect with
      | removePortForward heffect =>
          cases heffect with
          | refused => exact hkept
          | unsaved key hfailed => exact hkept.erase key node.ruleset
          | removed key forward ruleset after hfound hsaved =>
              exact (hkept.erase key ruleset).saved hsaved
  | restart calls => exact hkept.restart calls

theorem ForwardsFrom.reaches
    {kind : PortForward → Prop} {node after : Node cfg}
    (hreaches : Reaches Node.step (ForwardsOnly kind) node after)
    (hkept : ForwardsFrom kind node) : ForwardsFrom kind after :=
  hreaches.invariant (fun _ _ hop hbefore => hbefore.step hop) hkept

/-! ## A machine that stays -/

/-- The machine is registered and saved with this configuration. -/
structure KeepsVm (node : Node cfg) (id : String) (config : VmConfig) :
    Prop where
  vm : ∃ handle, node.vms.lookup id = some handle ∧ handle.config = config
  file : ∃ persisted, node.stateDir.lookup (stateFile id) =
    some persisted ∧ persisted.config = config

/-- The operation neither deletes the machine nor loses its file. -/
def Spares (id : String) : ManagerOp → Prop
  | .deleteVm _ other => other ≠ id
  | .restart calls =>
      calls.readDir = .ok () ∧ calls.readable (stateFile id) = true
  | _ => True

theorem ForwardsSaved.keepsVm
    {node after : Node cfg} {calls : ForwardCalls} {vmId id : String}
    {config : VmConfig} (hsaved : ForwardsSaved node calls vmId after)
    (hkeeps : KeepsVm node id config) : KeepsVm after id config := by
  obtain ⟨persisted, hfile, hconfig⟩ := hkeeps.file
  cases hsaved with
  | unsaved hunsaved => exact hkeeps
  | saved old hold =>
      refine ⟨hkeeps.vm, ?_⟩
      by_cases hsame : stateFile id = stateFile vmId
      · rw [hsame] at hfile ⊢
        rw [hold, Option.some.injEq] at hfile
        subst hfile
        refine ⟨_, AList.lookup_insert _, hconfig⟩
      · exact ⟨persisted,
          lookup_insert_iff.mpr (.inr ⟨hsame, hfile⟩), hconfig⟩

theorem KeepsVm.created
    {node after : Node cfg} {calls : CreateCalls} {config kept : VmConfig}
    {requestedIpv6 vmIpv6 : Option Ipv6Net} {offset : UInt8}
    {launch : Launch} {id : String}
    (hcreated : Created node calls config requestedIpv6 offset vmIpv6
      launch after)
    (hkeeps : KeepsVm node id kept) : KeepsVm after id kept := by
  obtain ⟨handle, hlookup, hhandle⟩ := hkeeps.vm
  obtain ⟨persisted, hfile, hpersisted⟩ := hkeeps.file
  have hother : id ≠ config.vmId := by
    rintro rfl
    rw [hcreated.vms_fresh] at hlookup
    cases hlookup
  refine ⟨⟨handle, hcreated.vms_lookup_iff.mpr (.inr hlookup), hhandle⟩,
    persisted, ?_, hpersisted⟩
  rw [hcreated.stateDir, Node.saveVm]
  split
  · exact lookup_insert_iff.mpr (.inr
      ⟨fun hsame => hother (stateFile_injective hsame), hfile⟩)
  · exact hfile

theorem KeepsVm.deleted
    {node after : Node cfg} {calls : DeleteCalls} {other id : String}
    {handle : VmHandle} {config : VmConfig} (hother : other ≠ id)
    (hdeleted : Deleted node calls other handle after)
    (hkeeps : KeepsVm node id config) : KeepsVm after id config := by
  obtain ⟨kept, hlookup, hkept⟩ := hkeeps.vm
  obtain ⟨persisted, hfile, hpersisted⟩ := hkeeps.file
  refine ⟨⟨kept, hdeleted.vms_lookup_iff.mpr ⟨hother.symm, hlookup⟩,
    hkept⟩, persisted, ?_, hpersisted⟩
  rw [hdeleted.stateDir]
  split
  · exact lookup_erase_iff.mpr
      ⟨fun hsame => hother (stateFile_injective hsame).symm, hfile⟩
  · exact hfile

theorem KeepsVm.restart
    {node : Node cfg} {calls : RestartCalls} {id : String}
    {config : VmConfig} (hnamed : FilesNamed node.stateDir) (hne : id ≠ "")
    (hspares : Spares id (.restart calls))
    (hkeeps : KeepsVm node id config) :
    KeepsVm (node.restart calls) id config := by
  obtain ⟨persisted, hfile, hpersisted⟩ := hkeeps.file
  have hid : persisted.config.vmId = id :=
    (stateFile_injective (hnamed _ persisted hfile)).symm
  have hloaded : persisted ∈ loadedVms calls node.stateDir :=
    mem_loadedVms_iff.mpr ⟨hspares.1, stateFile id, hfile,
      hasJsonExtension_stateFile hne, hspares.2⟩
  refine ⟨⟨recoveredHandle cfg calls persisted, ?_, hpersisted⟩,
    persisted, ?_, hpersisted⟩
  · exact (Node.restart_vms_lookup_iff hnamed calls).mpr
      ⟨persisted, hloaded, hid, rfl⟩
  · rw [Node.restart_stateDir]
    exact hfile

theorem KeepsVm.step
    {node : Node cfg} {op : ManagerOp} {id : String} {config : VmConfig}
    (hnamed : FilesNamed node.stateDir) (hne : id ≠ "")
    (hspares : Spares id op) (hkeeps : KeepsVm node id config) :
    KeepsVm (node.step op) id config := by
  have heffect := node.step_effect op
  generalize node.step op = after at heffect
  cases heffect with
  | createVm heffect =>
      cases heffect with
      | refused failure hrefused => exact hkeeps
      | failed failure offset after hfresh hfree hfailed hsame =>
          constructor
          · rw [hsame.vms]
            exact hkeeps.vm
          · rw [hsame.stateDir]
            exact hkeeps.file
      | created info offset vmIpv6 launch after hcompletes hcreated =>
          exact hkeeps.created hcreated
  | notFound hnone => exact hkeeps
  | deleted hvm hdeleted => exact hkeeps.deleted hspares hdeleted
  | addPortForward heffect =>
      cases heffect with
      | refused => exact hkeeps
      | rolledBack forward hfree => exact ⟨hkeeps.vm, hkeeps.file⟩
      | added forward handle ruleset after hvm howner hfree hsaved =>
          exact hsaved.keepsVm ⟨hkeeps.vm, hkeeps.file⟩
  | removePortForward heffect =>
      cases heffect with
      | refused => exact hkeeps
      | unsaved key hfailed => exact ⟨hkeeps.vm, hkeeps.file⟩
      | removed key forward ruleset after hfound hsaved =>
          exact hsaved.keepsVm ⟨hkeeps.vm, hkeeps.file⟩
  | restart calls => exact hkeeps.restart hnamed hne hspares

/-- A run that spares the machine keeps it. -/
theorem KeepsVm.reaches
    {node after : Node cfg} {id : String} {config : VmConfig}
    (hreaches : Reaches Node.step (Spares id) node after)
    (hnamed : FilesNamed node.stateDir) (hne : id ≠ "")
    (hkeeps : KeepsVm node id config) : KeepsVm after id config := by
  have hstep : ∀ (state : Node cfg) (op : ManagerOp), Spares id op →
      FilesNamed state.stateDir ∧ KeepsVm state id config →
      FilesNamed (state.step op).stateDir ∧
        KeepsVm (state.step op) id config := by
    intro state op hspares hbefore
    exact ⟨Node.step_filesNamed hbefore.1 op,
      hbefore.2.step hbefore.1 hne hspares⟩
  exact (hreaches.invariant hstep ⟨hnamed, hkeeps⟩).2

end AlephCvm.Vm
