import AlephCvm.OffsetLedger
import AlephCvm.SchedulerAgent

/-!
# Convergence of the node to its allocation

After an allocation request that reports no error the node has exactly the
allocated machines.  Whether they all run is another matter: the agent counts
every listed machine as running, so a machine that a recovery loaded as
stopped is left alone.  The two loops of the request are described by what
they do to the machines when no error is recorded.
-/

namespace AlephCvm.Agent

open ResultContext StepRuns AlephCvm.Tee AlephCvm.Numa AlephCvm.Net
open AlephCvm.Nft AlephCvm.Qemu AlephCvm.Vm AlephCvm.Grpc

variable {cfg : NodeConfig}

/-- The machines that run. -/
def runningVms (node : Node cfg) : Finset String :=
  ((node.vms.entries.filter fun entry =>
    entry.2.state == VmState.running).map Sigma.fst).toFinset

theorem mem_runningVms
    {node : Node cfg} {id : String} :
    id ∈ runningVms node ↔
      ∃ handle, node.vms.lookup id = some handle ∧
        handle.state = .running := by
  simp only [runningVms, List.mem_toFinset, List.mem_map, List.mem_filter,
    beq_iff_eq]
  constructor
  · rintro ⟨entry, ⟨hentry, hstate⟩, rfl⟩
    exact ⟨entry.2, AList.mem_lookup_iff.mpr hentry, hstate⟩
  · rintro ⟨handle, hlookup, hstate⟩
    exact ⟨⟨id, handle⟩, ⟨AList.mem_lookup_iff.mp hlookup, hstate⟩, rfl⟩

/-! ## Machines are registered under their ids -/

structure KeyedNode (node : Node cfg) : Prop where
  keyed : ∀ id handle, node.vms.lookup id = some handle →
    handle.config.vmId = id
  named : FilesNamed node.stateDir

theorem KeyedNode.fresh
    (cfg : NodeConfig) (taps : Finset String) (ruleset : Ruleset)
    (hostsdir : AList fun _ : String => String) :
    KeyedNode (Node.fresh cfg taps ruleset hostsdir ∅) := by
  refine ⟨?_, (Node.fresh_ledgerKept taps ruleset hostsdir).named⟩
  intro id handle hlookup
  rw [Node.fresh, AList.lookup_empty] at hlookup
  cases hlookup

theorem Created.keyed
    {node after : Node cfg} {calls : CreateCalls} {config : VmConfig}
    {requestedIpv6 vmIpv6 : Option Ipv6Net} {offset : UInt8}
    {launch : Launch}
    (hcreated : Created node calls config requestedIpv6 offset vmIpv6
      launch after)
    (hkeyed : ∀ id handle, node.vms.lookup id = some handle →
      handle.config.vmId = id)
    {id : String} {handle : VmHandle}
    (hlookup : after.vms.lookup id = some handle) :
    handle.config.vmId = id := by
  rcases hcreated.vms_lookup_iff.mp hlookup with ⟨rfl, rfl⟩ | hold
  · exact hcreated.vmId
  · exact hkeyed id handle hold

theorem KeyedNode.step
    (node : Node cfg) (op : ManagerOp) (hkeyed : KeyedNode node) :
    KeyedNode (node.step op) := by
  refine ⟨?_, Node.step_filesNamed hkeyed.named op⟩
  have heffect := node.step_effect op
  generalize node.step op = after at heffect
  intro id handle hlookup
  cases heffect with
  | createVm heffect =>
      cases heffect with
      | refused failure hrefused => exact hkeyed.keyed id handle hlookup
      | failed failure offset after hfresh hfree hfailed hsame =>
          rw [hsame.vms] at hlookup
          exact hkeyed.keyed id handle hlookup
      | created info offset vmIpv6 launch after hcompletes hcreated =>
          exact Created.keyed hcreated hkeyed.keyed hlookup
  | notFound hnone => exact hkeyed.keyed id handle hlookup
  | deleted hvm hdeleted =>
      exact hkeyed.keyed id handle (hdeleted.vms_lookup_iff.mp hlookup).2
  | addPortForward heffect =>
      rw [heffect.sameMachines.vms] at hlookup
      exact hkeyed.keyed id handle hlookup
  | removePortForward heffect =>
      rw [heffect.sameMachines.vms] at hlookup
      exact hkeyed.keyed id handle hlookup
  | restart calls =>
      obtain ⟨persisted, _, hid, rfl⟩ :=
        (Node.restart_vms_lookup_iff hkeyed.named calls).mp hlookup
      exact hid

theorem mem_listedVms
    {node : Node cfg} (hkeyed : KeyedNode node) (calls : AllocationCalls)
    {id : String} :
    id ∈ listedVms node calls ↔ ∃ handle, node.vms.lookup id =
      some handle := by
  simp only [listedVms, Grpc.listVms, Node.listVms, List.map_map,
    List.mem_toFinset, List.mem_map, IterationOrder.mem_arrange]
  constructor
  · rintro ⟨info, ⟨⟨listed, handle⟩, hentry, rfl⟩, rfl⟩
    have hlookup : node.vms.lookup listed = some handle :=
      AList.mem_lookup_iff.mpr hentry
    have hid := hkeyed.keyed listed handle hlookup
    subst hid
    exact ⟨handle, hlookup⟩
  · rintro ⟨handle, hlookup⟩
    refine ⟨_, ⟨⟨id, handle⟩, AList.mem_lookup_iff.mp hlookup, rfl⟩, ?_⟩
    exact hkeyed.keyed id handle hlookup

/-! ## Calls without errors -/

theorem callNode_eq_ok
    {α : Type} {libs : AgentLibs} {outcome : RpcOutcome}
    {node after : Node cfg} {call : Except CallFailure α × Node cfg}
    {value : α}
    (hok : callNode libs outcome node call = (.ok value, after)) :
    call = (.ok value, after) := by
  obtain ⟨result, called⟩ := call
  cases outcome with
  | unreachable message => simp [callNode] at hok
  | lost message => simp [callNode] at hok
  | answered =>
      cases result with
      | error failure => simp [callNode] at hok
      | ok found => simpa [callNode] using hok

theorem grpcDeleteVm_ok
    {node after : Node cfg} {calls : DeleteCalls} {vmId : String}
    (hok : Grpc.deleteVm node calls vmId = (.ok (), after)) :
    vmId ∈ node.vms ∧ after.vms = node.vms.erase vmId := by
  unfold Grpc.deleteVm Node.deleteVm at hok
  cases hlookup : node.vms.lookup vmId with
  | none => simp [hlookup] at hok
  | some handle =>
      simp only [hlookup, Prod.mk.injEq, true_and] at hok
      rw [← hok]
      have hmem : vmId ∈ node.vms := by
        rw [← AList.lookup_isSome, hlookup]
        rfl
      exact ⟨hmem, (node.deleteHandle_deleted calls vmId handle).vms⟩

theorem translateRequest_vmId
    {pathExists : String → Bool} {req : CreateVmRequest}
    {arguments : CreateArguments}
    (hok : translateRequest pathExists req = .ok arguments) :
    arguments.config.vmId = req.vmId := by
  simp only [translateRequest, bind_eq_ok, pure_eq_ok] at hok
  obtain ⟨_, _, tee, _, kernel, _, initrd, _, _, _, _, _, _, _, _, _, ipv6, _,
    rfl⟩ := hok
  rfl

theorem grpcCreateVm_ok
    {node after : Node cfg} {pathExists : String → Bool}
    {calls : CreateCalls} {req : CreateVmRequest} {info : ProtoVmInfo}
    (hok : Grpc.createVm node pathExists calls req = (.ok info, after)) :
    req.vmId ∉ node.vms ∧ ∃ handle, handle.state = .running ∧
      after.vms = node.vms.insert req.vmId handle := by
  unfold Grpc.createVm at hok
  cases htranslate : translateRequest pathExists req with
  | error status => simp [htranslate] at hok
  | ok arguments =>
      simp only [htranslate] at hok
      have hid := translateRequest_vmId htranslate
      have heffect := node.createVm_effect calls arguments.config
        arguments.requestedIpv6 arguments.numaHint
      generalize node.createVm calls arguments.config
        arguments.requestedIpv6 arguments.numaHint = result at heffect hok
      cases heffect with
      | refused failure hrefused => simp at hok
      | failed failure offset failed hfresh hfree hfailed hsame =>
          simp at hok
      | created created offset vmIpv6 launch final hcompletes hcreated =>
          simp only [Prod.mk.injEq] at hok
          have hfresh := hcreated.started.fresh
          rw [hid] at hfresh
          rw [← hok.2, hcreated.vms, hid]
          exact ⟨hfresh, _, rfl, rfl⟩

theorem grpcAddPortForward_vms
    (node : Node cfg) (calls : ForwardCalls)
    (req : AddPortForwardRequest) :
    (Grpc.addPortForward node calls req).2.vms = node.vms := by
  unfold Grpc.addPortForward
  cases parseProtocol req.protocol with
  | error message => rfl
  | ok protocol =>
      have hsame := (node.addPortForward_effect calls req.vmId
        req.hostPort.toUInt16 req.vmPort.toUInt16 protocol).sameMachines
      simp only
      generalize node.addPortForward calls req.vmId req.hostPort.toUInt16
        req.vmPort.toUInt16 protocol = result at hsame
      obtain ⟨message | forward, after⟩ := result
      · exact hsame.vms
      · exact hsame.vms

theorem callNode_vms
    {α : Type} (libs : AgentLibs) (outcome : RpcOutcome) (node : Node cfg)
    (call : Except CallFailure α × Node cfg)
    (hcall : call.2.vms = node.vms) :
    (callNode libs outcome node call).2.vms = node.vms := by
  obtain ⟨result, called⟩ := call
  cases outcome with
  | unreachable message => rfl
  | lost message => exact hcall
  | answered =>
      cases result with
      | error failure => exact hcall
      | ok found => exact hcall

theorem addForwards_vms
    (libs : AgentLibs) (calls : StartCalls) (node : Node cfg)
    (requests : List AddPortForwardRequest) :
    (addForwards libs calls node requests).vms = node.vms := by
  unfold addForwards
  generalize requests.zipIdx = entries
  induction entries generalizing node with
  | nil => rfl
  | cons entry rest ih =>
      rw [List.foldl_cons, ih]
      exact callNode_vms libs _ node _
        (grpcAddPortForward_vms node _ entry.1)

/-! ## The two loops -/

theorem stopVm_noErrors
    {libs : AgentLibs} {calls : AllocationCalls} {progress : Progress cfg}
    {vmId : ItemHash} (hnone : (stopVm libs calls progress vmId).2 = []) :
    progress.2 = [] ∧ vmId ∈ progress.1.vms ∧
      (stopVm libs calls progress vmId).1.vms =
        progress.1.vms.erase vmId := by
  obtain ⟨node, errors⟩ := progress
  unfold stopVm at hnone ⊢
  cases hcall : callNode libs (calls.stop vmId).rpc node
      (Grpc.deleteVm node (calls.stop vmId).delete vmId) with
  | mk result after =>
      simp only [hcall] at hnone ⊢
      cases result with
      | error message => simp at hnone
      | ok done => exact ⟨hnone, grpcDeleteVm_ok (callNode_eq_ok hcall)⟩

theorem startVm_noErrors
    {libs : AgentLibs} {agent : AgentState} {calls : AllocationCalls}
    {progress : Progress cfg} {vmHash : ItemHash}
    (hnone : (startVm libs agent calls progress vmHash).2 = []) :
    progress.2 = [] ∧ vmHash ∉ progress.1.vms ∧
      ∃ handle, handle.state = .running ∧
        (startVm libs agent calls progress vmHash).1.vms =
          progress.1.vms.insert vmHash handle := by
  obtain ⟨node, errors⟩ := progress
  unfold startVm at hnone ⊢
  cases hmsg : agent.messages.entries.lookup vmHash with
  | none => simp [hmsg] at hnone
  | some msg =>
      have hhash := agent.messages.keyed vmHash msg hmsg
      simp only [hmsg] at hnone ⊢
      cases htranslate : translateMessage (calls.start vmHash).cache
          agent.adapterConfig msg with
      | error message => simp [htranslate] at hnone
      | ok req =>
          have hid := translateMessage_vmId htranslate
          simp only [htranslate] at hnone ⊢
          cases hcall : callNode libs (calls.start vmHash).rpc node
              (Grpc.createVm node (calls.start vmHash).pathExists
                (calls.start vmHash).create req) with
          | mk result after =>
              simp only [hcall] at hnone ⊢
              cases result with
              | error message => simp at hnone
              | ok info =>
                  obtain ⟨hfresh, handle, hstate, hvms⟩ :=
                    grpcCreateVm_ok (callNode_eq_ok hcall)
                  rw [hid, hhash] at hfresh hvms
                  refine ⟨hnone, hfresh, handle, hstate, ?_⟩
                  rw [← hvms]
                  exact addForwards_vms _ _ _ _

theorem stopAll_noErrors
    {libs : AgentLibs} {calls : AllocationCalls} {ids : List ItemHash}
    {progress : Progress cfg}
    (hnone : (ids.foldl (stopVm libs calls) progress).2 = []) :
    progress.2 = [] ∧
      (ids.foldl (stopVm libs calls) progress).1.vms =
        ids.foldl (fun vms id => vms.erase id) progress.1.vms := by
  induction ids generalizing progress with
  | nil => exact ⟨hnone, rfl⟩
  | cons stopped rest ih =>
      rw [List.foldl_cons] at hnone
      obtain ⟨hfirst, hrest⟩ := ih hnone
      obtain ⟨hprogress, _, hvms⟩ := stopVm_noErrors hfirst
      refine ⟨hprogress, ?_⟩
      rw [List.foldl_cons, List.foldl_cons, hrest, hvms]

theorem startAll_noErrors
    {libs : AgentLibs} {agent : AgentState} {calls : AllocationCalls}
    {ids : List ItemHash} {progress : Progress cfg}
    (hnone : (ids.foldl (startVm libs agent calls) progress).2 = []) :
    progress.2 = [] ∧
      (∀ id ∉ ids,
        (ids.foldl (startVm libs agent calls) progress).1.vms.lookup id =
          progress.1.vms.lookup id) ∧
      ∀ id ∈ ids, ∃ handle, handle.state = .running ∧
        (ids.foldl (startVm libs agent calls) progress).1.vms.lookup id =
          some handle := by
  induction ids generalizing progress with
  | nil => exact ⟨hnone, fun _ _ => rfl, by simp⟩
  | cons started rest ih =>
      rw [List.foldl_cons] at hnone
      obtain ⟨hfirst, hothers, hrunning⟩ := ih hnone
      obtain ⟨hprogress, _, handle, hstate, hvms⟩ :=
        startVm_noErrors hfirst
      refine ⟨hprogress, ?_, ?_⟩
      · intro id hid
        rw [List.mem_cons, not_or] at hid
        rw [List.foldl_cons, hothers id hid.2, hvms]
        exact AList.lookup_insert_ne hid.1
      · intro id hid
        rw [List.foldl_cons]
        by_cases hrest : id ∈ rest
        · exact hrunning id hrest
        · rcases List.mem_cons.mp hid with rfl | hmem
          · refine ⟨handle, hstate, ?_⟩
            rw [hothers id hrest, hvms]
            exact AList.lookup_insert _
          · exact (hrest hmem).elim

/-! ## The whole request -/

@[simp] theorem mem_elements
    {order : IterationOrder} {set : Finset String} {item : String} :
    item ∈ elements order set ↔ item ∈ set := by
  simp [elements]

/-- After error-free actions, the machines that were neither stopped nor
started are as before, and the started ones run. -/
theorem applyActions_lookup
    {libs : AgentLibs} {agent : AgentState} {calls : AllocationCalls}
    {node : Node cfg} {actions : ReconcileActions}
    (hnone : (applyActions libs agent calls node actions).2 = []) :
    (∀ id ∈ actions.toStart, ∃ handle, handle.state = .running ∧
      (applyActions libs agent calls node actions).1.vms.lookup id =
        some handle) ∧
    ∀ id ∉ actions.toStart,
      (applyActions libs agent calls node actions).1.vms.lookup id =
        if id ∈ actions.toStop then none else node.vms.lookup id := by
  obtain ⟨hstopped, hothers, hstarted⟩ := startAll_noErrors hnone
  obtain ⟨_, hvms⟩ := stopAll_noErrors hstopped
  refine ⟨hstarted, ?_⟩
  intro id hid
  rw [applyActions, hothers id hid, hvms]
  exact TableFolds.lookup_foldl_erase _ _ _

theorem handleAllocation_ok
    {libs : AgentLibs} {agent : AgentState} {calls : AllocationCalls}
    {node : Node cfg} {request : AllocationRequest}
    {allocation : Allocation} {started stopped unchanged : ℕ}
    (hparse : libs.parseAllocation request.body = .ok allocation)
    (hdone : (handleAllocation libs agent calls node request).1 =
      .ok (.ok started stopped unchanged)) :
    (applyActions libs agent calls node (reconcile calls.desiredOrder
        calls.runningOrder allocation (listedVms node calls))).2 = [] ∧
      (handleAllocation libs agent calls node request).2 =
        (applyActions libs agent calls node (reconcile calls.desiredOrder
          calls.runningOrder allocation (listedVms node calls))).1 := by
  unfold handleAllocation at hdone ⊢
  simp only at hdone ⊢
  split_ifs at hdone ⊢ with hauthorized
  · simp at hdone
  simp only [hparse] at hdone ⊢
  cases hlist : callNode libs calls.listRpc node
      (.ok (listedVms node calls), node) with
  | mk result after =>
      cases result with
      | error message => simp [hlist] at hdone
      | ok running =>
          have hlisted := callNode_eq_ok hlist
          simp only [Prod.mk.injEq, Except.ok.injEq] at hlisted
          obtain ⟨rfl, rfl⟩ := hlisted
          simp only [hlist] at hdone ⊢
          refine ⟨?_, trivial⟩
          unfold allocationResponse at hdone
          split_ifs at hdone with hempty
          · exact List.isEmpty_iff.mp hempty
          · exfalso
            simp only [bind_eq_ok, pure_eq_ok] at hdone
            obtain ⟨_, _, _, _, hresponse⟩ := hdone
            cases hresponse

theorem runningVms_after_iff
    {libs : AgentLibs} {agent : AgentState} {calls : AllocationCalls}
    {node : Node cfg} {allocation : Allocation}
    (hkeyed : KeyedNode node)
    (hnone : (applyActions libs agent calls node
      (reconcile calls.desiredOrder calls.runningOrder allocation
        (listedVms node calls))).2 = []) :
    runningVms (applyActions libs agent calls node
        (reconcile calls.desiredOrder calls.runningOrder allocation
          (listedVms node calls))).1 = allocation.allVms ↔
      ∀ id ∈ allocation.allVms, ∀ handle,
        node.vms.lookup id = some handle → handle.state = .running := by
  obtain ⟨hstarted, hothers⟩ := applyActions_lookup hnone
  have htoStart : ∀ id, id ∈ (reconcile calls.desiredOrder
      calls.runningOrder allocation (listedVms node calls)).toStart ↔
        id ∈ allocation.allVms ∧ id ∉ listedVms node calls := by
    simp [reconcile]
  have htoStop : ∀ id, id ∈ (reconcile calls.desiredOrder
      calls.runningOrder allocation (listedVms node calls)).toStop ↔
        id ∈ listedVms node calls ∧ id ∉ allocation.allVms := by
    simp [reconcile]
  generalize reconcile calls.desiredOrder calls.runningOrder allocation
    (listedVms node calls) = actions
    at hnone hstarted hothers htoStart htoStop ⊢
  generalize (applyActions libs agent calls node actions).1 = after
    at hstarted hothers ⊢
  constructor
  · intro hsame id hid handle hlookup
    have hrunning : id ∈ runningVms after := by
      rw [hsame]
      exact hid
    obtain ⟨found, hfound, hstate⟩ := mem_runningVms.mp hrunning
    have hlisted := (mem_listedVms hkeyed calls).mpr ⟨handle, hlookup⟩
    have hkept : id ∉ actions.toStart := fun h =>
      ((htoStart id).mp h).2 hlisted
    have hnotStopped : id ∉ actions.toStop := fun h =>
      ((htoStop id).mp h).2 hid
    rw [hothers id hkept, if_neg hnotStopped, hlookup,
      Option.some.injEq] at hfound
    rw [hfound]
    exact hstate
  · intro hallRunning
    ext id
    rw [mem_runningVms]
    constructor
    · rintro ⟨handle, hlookup, hstate⟩
      by_contra hnot
      have hkept : id ∉ actions.toStart := fun h =>
        hnot ((htoStart id).mp h).1
      rw [hothers id hkept] at hlookup
      split_ifs at hlookup with hstopped
      apply hstopped
      exact (htoStop id).mpr
        ⟨(mem_listedVms hkeyed calls).mpr ⟨handle, hlookup⟩, hnot⟩
    · intro hid
      by_cases hnew : id ∈ actions.toStart
      · obtain ⟨handle, hstate, hlookup⟩ := hstarted id hnew
        exact ⟨handle, hlookup, hstate⟩
      · have hlisted : id ∈ listedVms node calls := by
          by_contra hnot
          exact hnew ((htoStart id).mpr ⟨hid, hnot⟩)
        obtain ⟨handle, hlookup⟩ := (mem_listedVms hkeyed calls).mp hlisted
        have hnotStopped : id ∉ actions.toStop := fun h =>
          ((htoStop id).mp h).2 hid
        refine ⟨handle, ?_, hallRunning id hid handle hlookup⟩
        rw [hothers id hnew, if_neg hnotStopped]
        exact hlookup

/-- For every state that a compute node can be in: after an allocation that
reports no error, the machines that run are the allocated ones if and only if
no allocated machine was there in another state before the request. -/
theorem allocation_converges_iff
    (cfg : NodeConfig) (taps : Finset String) (ruleset : Ruleset)
    (hostsdir : AList fun _ : String => String) (ops : List ManagerOp)
    (libs : AgentLibs) (agent : AgentState) (calls : AllocationCalls)
    (request : AllocationRequest) {allocation : Allocation}
    {started stopped unchanged : ℕ}
    (hparse : libs.parseAllocation request.body = .ok allocation)
    (hdone : (handleAllocation libs agent calls
      (run Node.step (.fresh cfg taps ruleset hostsdir ∅) ops)
      request).1 = .ok (.ok started stopped unchanged)) :
    runningVms (handleAllocation libs agent calls
        (run Node.step (.fresh cfg taps ruleset hostsdir ∅) ops)
        request).2 = allocation.allVms ↔
      ∀ id ∈ allocation.allVms, ∀ handle,
        (run Node.step (.fresh cfg taps ruleset hostsdir ∅)
          ops).vms.lookup id = some handle → handle.state = .running := by
  have hkeyed : KeyedNode
      (run Node.step (.fresh cfg taps ruleset hostsdir ∅) ops) :=
    run_invariant KeyedNode.step ops
      (KeyedNode.fresh cfg taps ruleset hostsdir)
  obtain ⟨hnone, hafter⟩ := handleAllocation_ok hparse hdone
  rw [hafter]
  exact runningVms_after_iff hkeyed hnone

/-! ## A node with one machine -/

def sampleBody : Bytes :=
  "\x7b\"instances\":[\"vm-a\"]\x7d".toUTF8.toList

def sampleAllocation : Allocation := ⟨∅, {"vm-a"}⟩

/-- The parser of the sample knows the sample body only. -/
def sampleLibs : AgentLibs where
  hmacSha256 := fun _ _ => []
  parseAllocation := fun body =>
    if body = sampleBody then .ok sampleAllocation
    else .error "expected value at line 1 column 1"
  failureText := fun _ => "status"

def sampleAgent : AgentState where
  messages := ⟨∅, by intro hash msg hlookup; cases hlookup⟩
  adapterConfig := ⟨"/boot/vmlinuz", "/boot/initrd"⟩
  allocationTokenHash := none

def deleteSucceeds : DeleteCalls :=
  ⟨.stored, fun _ => nftSucceeds, cleanupSucceeds, true⟩

def allocationSucceeds : AllocationCalls where
  listRpc := .answered
  listOrder := .stored
  now := 0
  desiredOrder := .stored
  runningOrder := .stored
  stop := fun _ => ⟨.answered, deleteSucceeds⟩
  start := fun _ => {
    cache := fun item _ => .ok item
    rpc := .answered
    pathExists := fun _ => true
    create := createSucceeds
    forwardRpc := fun _ => .answered
    forward := fun _ => ⟨nftSucceeds, .stored, true⟩ }

/-- A restart of the small node after a reboot of the host: the state
directory is there and no unit is active. -/
def restartAfterReboot : RestartCalls where
  taps := ∅
  ruleset := supervisorRuleset
  hostsdir := ∅
  readDir := .ok ()
  order := .stored
  readable := fun _ => true
  unitActive := fun _ => false
  nftSetup := fun _ => nftSucceeds
  nftForward := fun _ _ => nftSucceeds

def createVmA : ManagerOp :=
  .createVm createSucceeds (smallConfig "vm-a" .none) none none

theorem allocation_converges_on_running_node :
    runningVms (handleAllocation sampleLibs sampleAgent allocationSucceeds
        (run Node.step smallNode [createVmA])
        ⟨none, sampleBody⟩).2 = sampleAllocation.allVms := by
  apply (allocation_converges_iff smallHost ∅ supervisorRuleset ∅
    [createVmA] sampleLibs sampleAgent allocationSucceeds ⟨none, sampleBody⟩
    (show _ = Except.ok sampleAllocation from if_pos rfl)
    (show _ = Except.ok (AllocationResponse.ok 0 0 1) by
      decide +kernel)).mpr
  intro id hid handle hlookup
  have hvmA : id = "vm-a" := by
    simpa [Allocation.allVms, sampleAllocation] using hid
  subst hvmA
  have hstate : ((run Node.step smallNode [createVmA]).vms.lookup
      "vm-a").map VmHandle.state = some .running := by
    decide +kernel
  change (run Node.step smallNode [createVmA]).vms.lookup "vm-a" = _
    at hlookup
  rw [hlookup] at hstate
  simpa using hstate

/-- After a reboot the machine is loaded as stopped; the request reports that
nothing had to be done and the machine stays stopped. -/
theorem allocation_leaves_stopped_machine :
    sampleLibs.parseAllocation sampleBody = .ok sampleAllocation ∧
      (handleAllocation sampleLibs sampleAgent allocationSucceeds
        (run Node.step smallNode [createVmA, .restart restartAfterReboot])
        ⟨none, sampleBody⟩).1 = .ok (.ok 0 0 1) ∧
      runningVms (handleAllocation sampleLibs sampleAgent allocationSucceeds
        (run Node.step smallNode [createVmA, .restart restartAfterReboot])
        ⟨none, sampleBody⟩).2 ≠ sampleAllocation.allVms := by
  refine ⟨if_pos rfl, ?_, ?_⟩
  · decide +kernel
  · decide +kernel

end AlephCvm.Agent
