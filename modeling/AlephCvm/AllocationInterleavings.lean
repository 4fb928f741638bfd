import Mathlib.Data.Finset.SymmDiff
import AlephCvm.AtomicPrograms
import AlephCvm.TranslatedRequests

/-!
# Two allocations at the same time

A request lists the machines once and then issues one call after the other;
the client's lock is taken for each call only, so two requests may take their
calls in any order.  A successful call adds or removes one machine, and what a
request still has to do is the difference between the machines that it has
listed and its allocation.
-/

namespace AlephCvm.Agent

open ResultContext AtomicPrograms StepRuns AlephCvm.Tee AlephCvm.Nft
open AlephCvm.Vm AlephCvm.Grpc
open scoped symmDiff

variable {cfg : NodeConfig}

/-! ## The program of a request -/

inductive AllocationAction where
  | list
  | stop (vmId : ItemHash)
  | start (vmHash : ItemHash)
  deriving DecidableEq

/-- A call that stops or starts a machine answers with the errors that are
recorded for it. -/
abbrev AllocationAction.Response : AllocationAction → Type
  | .list => Except String (Finset ItemHash)
  | .stop _ | .start _ => List String

/-- One call to the node, under the client's lock; starting a machine includes
its port forwards. -/
def execCall (libs : AgentLibs) (agent : AgentState)
    (calls : AllocationCalls) :
    (action : AllocationAction) → Node cfg →
      Option (action.Response × Node cfg)
  | .list, node => some (callNode libs calls.listRpc node
      (.ok (listedVms node calls), node))
  | .stop vmId, node => some (stopVm libs calls (node, []) vmId).swap
  | .start vmHash, node =>
      some (startVm libs agent calls (node, []) vmHash).swap

abbrev AllocationProgram (α : Type) :=
  Program AllocationAction AllocationAction.Response α

def callClient (action : AllocationAction) :
    AllocationProgram action.Response :=
  .action action

def stopAll : List ItemHash → List String → AllocationProgram (List String)
  | [], errors => return errors
  | vmId :: rest, errors => do
      stopAll rest (errors ++ (← callClient (.stop vmId)))

def startAll : List ItemHash → List String → AllocationProgram (List String)
  | [], errors => return errors
  | vmHash :: rest, errors => do
      startAll rest (errors ++ (← callClient (.start vmHash)))

/-- An allocation that was accepted, with the orders in which its sets are
iterated. -/
structure AcceptedAllocation where
  allocation : Allocation
  desiredOrder : IterationOrder
  runningOrder : IterationOrder

def AcceptedAllocation.actions (accepted : AcceptedAllocation)
    (running : Finset ItemHash) : ReconcileActions :=
  reconcile accepted.desiredOrder accepted.runningOrder accepted.allocation
    running

def applyAllocation (accepted : AcceptedAllocation) :
    AllocationProgram (Except Failure AllocationResponse) := do
  match ← callClient .list with
  | .error message =>
      return .ok (.unreachable s!"compute node unreachable: {message}")
  | .ok running =>
      let actions := accepted.actions running
      let errors ← startAll actions.toStart (← stopAll actions.toStop [])
      return allocationResponse actions errors

/-! ## A request on its own -/

theorem stopVm_errors
    (libs : AgentLibs) (calls : AllocationCalls) (node : Node cfg)
    (errors : List String) (vmId : ItemHash) :
    stopVm libs calls (node, errors) vmId =
      ((stopVm libs calls (node, []) vmId).1,
        errors ++ (stopVm libs calls (node, []) vmId).2) := by
  unfold stopVm
  dsimp only
  cases callNode libs (calls.stop vmId).rpc node
      (Grpc.deleteVm node (calls.stop vmId).delete vmId) with
  | mk result after =>
      cases result with
      | error message => rfl
      | ok done => simp

theorem startVm_errors
    (libs : AgentLibs) (agent : AgentState) (calls : AllocationCalls)
    (node : Node cfg) (errors : List String) (vmHash : ItemHash) :
    startVm libs agent calls (node, errors) vmHash =
      ((startVm libs agent calls (node, []) vmHash).1,
        errors ++ (startVm libs agent calls (node, []) vmHash).2) := by
  unfold startVm
  dsimp only
  cases agent.messages.entries.lookup vmHash with
  | none => rfl
  | some msg =>
      dsimp only
      cases translateMessage (calls.start vmHash).cache agent.adapterConfig
          msg with
      | error message => rfl
      | ok req =>
          dsimp only
          cases callNode libs (calls.start vmHash).rpc node
              (Grpc.createVm node (calls.start vmHash).pathExists
                (calls.start vmHash).create req) with
          | mk result after =>
              cases result with
              | error message => rfl
              | ok info => simp

theorem stopAll_alone
    (libs : AgentLibs) (agent : AgentState) (calls : AllocationCalls)
    (ids : List ItemHash) (node : Node cfg) (errors : List String) :
    (stopAll ids errors).alone (execCall libs agent calls) node =
      some (ids.foldl (stopVm libs calls) (node, errors)).swap := by
  induction ids generalizing node errors with
  | nil => rfl
  | cons vmId rest ih =>
      rw [stopAll, callClient, Program.alone_bind, Program.alone_action,
        execCall, Option.bind_some, ih, List.foldl_cons,
        stopVm_errors libs calls node errors vmId]
      rfl

theorem startAll_alone
    (libs : AgentLibs) (agent : AgentState) (calls : AllocationCalls)
    (ids : List ItemHash) (node : Node cfg) (errors : List String) :
    (startAll ids errors).alone (execCall libs agent calls) node =
      some (ids.foldl (startVm libs agent calls) (node, errors)).swap := by
  induction ids generalizing node errors with
  | nil => rfl
  | cons vmHash rest ih =>
      rw [startAll, callClient, Program.alone_bind, Program.alone_action,
        execCall, Option.bind_some, ih, List.foldl_cons,
        startVm_errors libs agent calls node errors vmHash]
      rfl

/-- The handler runs the program once the request is accepted. -/
theorem applyAllocation_alone
    {libs : AgentLibs} {agent : AgentState} {calls : AllocationCalls}
    {request : AllocationRequest} {allocation : Allocation}
    (hauthorized : ∀ tokenHash, agent.allocationTokenHash = some tokenHash →
      verifyAllocationSignature libs request.body
        (request.signature.getD "") tokenHash = true)
    (hparse : libs.parseAllocation request.body = .ok allocation)
    (node : Node cfg) :
    (applyAllocation
        ⟨allocation, calls.desiredOrder, calls.runningOrder⟩).alone
        (execCall libs agent calls) node =
      some (handleAllocation libs agent calls node request) := by
  unfold handleAllocation
  dsimp only
  split_ifs with hrefused
  · exfalso
    cases htoken : agent.allocationTokenHash with
    | none => simp [htoken] at hrefused
    | some tokenHash =>
        simp [htoken, hauthorized tokenHash htoken] at hrefused
  simp only [hparse]
  unfold applyAllocation callClient
  rw [Program.alone_bind, Program.alone_action, execCall, Option.bind_some]
  cases callNode libs calls.listRpc node
      (.ok (listedVms node calls), node) with
  | mk result after =>
      cases result with
      | error message => rfl
      | ok running =>
          simp only [Program.alone_bind, stopAll_alone, startAll_alone,
            Option.bind_some]
          rfl

/-! ## Requests that run at the same time -/

inductive RequestName where
  | first
  | second
  deriving DecidableEq

abbrev AllocationTask :=
  Task RequestName AllocationAction AllocationAction.Response
    (Except Failure AllocationResponse)

abbrev AllocationSystem (cfg : NodeConfig) :=
  Pool (Node cfg) RequestName AllocationAction AllocationAction.Response
    (Except Failure AllocationResponse)

/-- Two requests that have not begun. -/
def twoAllocations (accepted : RequestName → AcceptedAllocation)
    (node : Node cfg) : AllocationSystem cfg :=
  ((⟨node, []⟩ : AllocationSystem cfg).call
    (fun name => applyAllocation (accepted name)) .first).call
      (fun name => applyAllocation (accepted name)) .second

def advanceAllocation (libs : AgentLibs) (agent : AgentState)
    (system : AllocationSystem cfg) (event : ℕ × AllocationCalls) :
    AllocationSystem cfg :=
  system.advance (execCall libs agent) event.1 event.2

/-- The machines on the node. -/
def nodeVms (node : Node cfg) : Finset ItemHash := node.vms.keys.toFinset

theorem mem_nodeVms
    {node : Node cfg} {id : ItemHash} :
    id ∈ nodeVms node ↔ ∃ handle, node.vms.lookup id = some handle := by
  rw [nodeVms, List.mem_toFinset, ← AList.mem_keys, ← AList.lookup_isSome,
    Option.isSome_iff_exists]

theorem listedVms_eq_nodeVms
    {node : Node cfg} (hkeyed : KeyedNode node) (calls : AllocationCalls) :
    listedVms node calls = nodeVms node := by
  ext id
  rw [mem_listedVms hkeyed calls, mem_nodeVms]

/-- What a request has still to stop and to start, once it has listed. -/
inductive AllocationStage where
  | listing
  | acting (stops starts : List ItemHash)
  | failed
  deriving DecidableEq

structure AllocationGhost where
  name : RequestName
  stage : AllocationStage
  deriving DecidableEq

namespace AllocationGhost

variable (accepted : RequestName → AcceptedAllocation)
  (ghost : AllocationGhost)

def afterList : Except String (Finset ItemHash) → AllocationGhost
  | .error _ => { ghost with stage := .failed }
  | .ok running => { ghost with
      stage := .acting ((accepted ghost.name).actions running).toStop
        ((accepted ghost.name).actions running).toStart }

def afterCall : AllocationGhost :=
  match ghost.stage with
  | .acting (_ :: stops) starts =>
      { ghost with stage := .acting stops starts }
  | .acting [] (_ :: starts) => { ghost with stage := .acting [] starts }
  | _ => ghost

def next : (action : AllocationAction) → action.Response → AllocationGhost
  | .list, running => ghost.afterList accepted running
  | .stop _, _ | .start _, _ => ghost.afterCall

def Allows : AllocationAction → Prop
  | .list => ghost.stage = .listing
  | .stop vmId => ∃ stops starts, ghost.stage = .acting (vmId :: stops) starts
  | .start vmHash => ∃ starts, ghost.stage = .acting [] (vmHash :: starts)

def Returned : Prop := ghost.stage = .acting [] [] ∨ ghost.stage = .failed

/-- The request has not listed the machines yet, or it has no call left. -/
def idle : Bool :=
  match ghost.stage with
  | .acting (_ :: _) _ | .acting [] (_ :: _) => false
  | .listing | .acting [] [] | .failed => true

end AllocationGhost

def allocations (accepted : RequestName → AcceptedAllocation) :
    Protocol RequestName AllocationAction AllocationAction.Response
      (Except Failure AllocationResponse) AllocationGhost where
  start name := ⟨name, .listing⟩
  next := AllocationGhost.next accepted
  allowed := AllocationGhost.Allows
  admits _ _ := True
  returns ghost _ := ghost.Returned

variable {accepted : RequestName → AcceptedAllocation}

theorem startAll_follows
    {name : RequestName} {starts errors : List String} :
    (startAll starts errors).Follows (allocations accepted)
      (fun ghost _ => ghost.Returned) ⟨name, .acting [] starts⟩ := by
  induction starts generalizing errors with
  | nil => exact .inl rfl
  | cons vmHash rest ih =>
      unfold startAll callClient
      rw [Program.follows_action_bind]
      exact ⟨⟨rest, rfl⟩, fun response _ => ih⟩

theorem stopAll_follows
    {name : RequestName} {stops starts errors : List String} :
    (stopAll stops errors).Follows (allocations accepted)
      (fun ghost _ => ghost = ⟨name, .acting [] starts⟩)
      ⟨name, .acting stops starts⟩ := by
  induction stops generalizing errors with
  | nil => rfl
  | cons vmId rest ih =>
      unfold stopAll callClient
      rw [Program.follows_action_bind]
      exact ⟨⟨rest, starts, rfl⟩, fun response _ => ih⟩

theorem applyAllocation_follows (name : RequestName) :
    (applyAllocation (accepted name)).Follows (allocations accepted)
      (allocations accepted).returns ((allocations accepted).start name) := by
  unfold applyAllocation callClient
  rw [Program.follows_action_bind]
  refine ⟨rfl, fun listed _ => ?_⟩
  cases listed with
  | error message => exact .inr rfl
  | ok running =>
      rw [Program.follows_bind]
      apply stopAll_follows.mono
      intro ghost errors hghost
      rw [hghost, Program.follows_bind]
      apply startAll_follows.mono
      intro reached _ hreached
      exact hreached

/-! ## Machines stay registered under their ids -/

theorem callNode_keyed
    {α : Type} {libs : AgentLibs} {outcome : RpcOutcome} {node : Node cfg}
    {call : Except CallFailure α × Node cfg} (hnode : KeyedNode node)
    (hcall : KeyedNode call.2) :
    KeyedNode (callNode libs outcome node call).2 := by
  obtain ⟨result, after⟩ := call
  cases outcome with
  | unreachable message => exact hnode
  | lost message => exact hcall
  | answered => cases result <;> exact hcall

theorem grpcDeleteVm_keyed
    {node : Node cfg} (hkeyed : KeyedNode node) (calls : DeleteCalls)
    (vmId : String) : KeyedNode (Grpc.deleteVm node calls vmId).2 := by
  have hstep := KeyedNode.step node (.deleteVm calls vmId) hkeyed
  rw [Node.step] at hstep
  unfold Grpc.deleteVm
  generalize node.deleteVm calls vmId = result at hstep
  obtain ⟨message | done, after⟩ := result
  · exact hstep
  · exact hstep

theorem grpcAddPortForward_keyed
    {node : Node cfg} (hkeyed : KeyedNode node) (calls : ForwardCalls)
    (req : AddPortForwardRequest) :
    KeyedNode (Grpc.addPortForward node calls req).2 := by
  unfold Grpc.addPortForward
  cases parseProtocol req.protocol with
  | error message => exact hkeyed
  | ok protocol =>
      have hstep := KeyedNode.step node (.addPortForward calls req.vmId
        req.hostPort.toUInt16 req.vmPort.toUInt16 protocol) hkeyed
      rw [Node.step] at hstep
      dsimp only
      generalize node.addPortForward calls req.vmId req.hostPort.toUInt16
        req.vmPort.toUInt16 protocol = result at hstep
      obtain ⟨message | forward, after⟩ := result
      · exact hstep
      · exact hstep

theorem addForwards_keyed
    (libs : AgentLibs) (calls : StartCalls) {node : Node cfg}
    (hkeyed : KeyedNode node) (requests : List AddPortForwardRequest) :
    KeyedNode (addForwards libs calls node requests) := by
  unfold addForwards
  generalize requests.zipIdx = entries
  induction entries generalizing node with
  | nil => exact hkeyed
  | cons entry rest ih =>
      rw [List.foldl_cons]
      exact ih (callNode_keyed hkeyed (grpcAddPortForward_keyed hkeyed _ _))

theorem stopVm_keyed
    (libs : AgentLibs) (calls : AllocationCalls) {node : Node cfg}
    (hkeyed : KeyedNode node) (vmId : ItemHash) :
    KeyedNode (stopVm libs calls (node, []) vmId).1 := by
  unfold stopVm
  have hcall : KeyedNode (callNode libs (calls.stop vmId).rpc node
      (Grpc.deleteVm node (calls.stop vmId).delete vmId)).2 :=
    callNode_keyed hkeyed
      (grpcDeleteVm_keyed hkeyed (calls.stop vmId).delete vmId)
  dsimp only
  generalize callNode libs (calls.stop vmId).rpc node
    (Grpc.deleteVm node (calls.stop vmId).delete vmId) = result at hcall
  obtain ⟨message | done, after⟩ := result
  · exact hcall
  · exact hcall

theorem startVm_keyed
    (libs : AgentLibs) (agent : AgentState) (calls : AllocationCalls)
    {node : Node cfg} (hkeyed : KeyedNode node) (vmHash : ItemHash) :
    KeyedNode (startVm libs agent calls (node, []) vmHash).1 := by
  unfold startVm
  dsimp only
  cases agent.messages.entries.lookup vmHash with
  | none => exact hkeyed
  | some msg =>
      dsimp only
      cases translateMessage (calls.start vmHash).cache agent.adapterConfig
          msg with
      | error message => exact hkeyed
      | ok req =>
          dsimp only
          have hcall : KeyedNode (callNode libs (calls.start vmHash).rpc
              node (Grpc.createVm node (calls.start vmHash).pathExists
                (calls.start vmHash).create req)).2 :=
            callNode_keyed hkeyed
              (grpcCreateVm_keyed hkeyed (calls.start vmHash).pathExists
                (calls.start vmHash).create req)
          generalize callNode libs (calls.start vmHash).rpc node
            (Grpc.createVm node (calls.start vmHash).pathExists
              (calls.start vmHash).create req) = result at hcall
          obtain ⟨message | info, after⟩ := result
          · exact hcall
          · exact addForwards_keyed libs _ hcall _

/-! ## One step -/

namespace AllocationGhost

variable (ghost : AllocationGhost)

/-- The machines that the request has still to stop or to start. -/
def pending : Finset ItemHash :=
  match ghost.stage with
  | .acting stops starts => (stops ++ starts).toFinset
  | .listing | .failed => ∅

def isActing : Bool :=
  match ghost.stage with
  | .acting _ _ => true
  | .listing | .failed => false

/-- No call failed so far, and no machine is called twice. -/
def Sound : Prop :=
  match ghost.stage with
  | .listing => True
  | .acting stops starts => (stops ++ starts).Nodup
  | .failed => False

end AllocationGhost

/-- What a successful step of a request does: it lists the machines, or it
settles one machine of those that were pending. -/
inductive AllocationMove (accepted : RequestName → AcceptedAllocation)
    (node : Node cfg) (ghost : AllocationGhost) (reached : Node cfg)
    (after : AllocationGhost) : Prop where
  | lists (hlisting : ghost.stage = .listing) (hnode : reached = node)
      (hpending : after.pending =
        nodeVms node ∆ (accepted ghost.name).allocation.allVms)
  | calls (hacting : ghost.isActing = true)
      (hpending : nodeVms reached ∆ after.pending =
        nodeVms node ∆ ghost.pending)

/-- The request keeps its name, and from now on it stops and starts
machines. -/
structure AllocationStep (accepted : RequestName → AcceptedAllocation)
    (node : Node cfg) (ghost : AllocationGhost) (reached : Node cfg)
    (after : AllocationGhost) : Prop where
  keyed : KeyedNode reached
  sound : after.Sound
  acting : after.isActing = true
  name : after.name = ghost.name
  move : AllocationMove accepted node ghost reached after

def Succeeded : (action : AllocationAction) → action.Response → Prop
  | .list, .ok _ => True
  | .list, .error _ => False
  | .stop _, errors | .start _, errors => errors = []

instance Succeeded.decidable :
    ∀ (action : AllocationAction) (response : action.Response),
      Decidable (Succeeded action response)
  | .list, .ok _ => inferInstanceAs (Decidable True)
  | .list, .error _ => inferInstanceAs (Decidable False)
  | .stop _, errors | .start _, errors =>
      inferInstanceAs (Decidable ((errors : List String) = []))

theorem actions_nodup
    (accepted : AcceptedAllocation) (running : Finset ItemHash) :
    ((accepted.actions running).toStop ++
      (accepted.actions running).toStart).Nodup := by
  have helements : ∀ (order : IterationOrder) (set : Finset String),
      (elements order set).Nodup := by
    intro order set
    exact (order.perm _).nodup_iff.mpr (Finset.sort_nodup set _)
  unfold AcceptedAllocation.actions reconcile
  apply List.Nodup.append
  · exact (helements accepted.runningOrder running).filter _
  · exact (helements accepted.desiredOrder _).filter _
  · intro id hstop hstart
    simp only [List.mem_filter, mem_elements, decide_eq_true_eq]
      at hstop hstart
    exact hstart.2 hstop.1

theorem actions_toFinset
    (accepted : AcceptedAllocation) (running : Finset ItemHash) :
    ((accepted.actions running).toStop ++
        (accepted.actions running).toStart).toFinset =
      running ∆ accepted.allocation.allVms := by
  ext id
  simp only [AcceptedAllocation.actions, reconcile, List.mem_toFinset,
    List.mem_append, List.mem_filter, mem_elements, decide_eq_true_eq,
    Finset.mem_symmDiff]

theorem list_step
    {libs : AgentLibs} {calls : AllocationCalls} {node reached : Node cfg}
    {ghost : AllocationGhost} {running : Finset ItemHash}
    (hkeyed : KeyedNode node) (hlisting : ghost.stage = .listing)
    (hlist : callNode libs calls.listRpc node
      (.ok (listedVms node calls), node) = (.ok running, reached)) :
    AllocationStep accepted node ghost reached
      (ghost.afterList accepted (.ok running)) := by
  have hcall := callNode_eq_ok hlist
  simp only [Prod.mk.injEq, Except.ok.injEq] at hcall
  obtain ⟨hrunning, hnode⟩ := hcall
  rw [listedVms_eq_nodeVms hkeyed] at hrunning
  subst hrunning
  subst hnode
  constructor
  · exact hkeyed
  · exact actions_nodup (accepted ghost.name) (nodeVms node)
  · rfl
  · rfl
  · exact .lists hlisting rfl
      (actions_toFinset (accepted ghost.name) (nodeVms node))

theorem insert_eq_symmDiff
    {id : ItemHash} {set : Finset ItemHash} (hfresh : id ∉ set) :
    insert id set = set ∆ {id} := by
  have hdisjoint : Disjoint set {id} :=
    Finset.disjoint_singleton_right.mpr hfresh
  rw [Finset.symmDiff_eq_union hdisjoint, Finset.union_comm,
    Finset.insert_eq]

theorem erase_eq_symmDiff
    {id : ItemHash} {set : Finset ItemHash} (hmem : id ∈ set) :
    set.erase id = set ∆ {id} := by
  ext other
  simp only [Finset.mem_erase, Finset.mem_symmDiff, Finset.mem_singleton]
  by_cases hid : other = id
  · simp [hid, hmem]
  · simp [hid]

theorem nodeVms_erase
    {node reached : Node cfg} {id : ItemHash} (hmem : id ∈ node.vms)
    (hvms : reached.vms = node.vms.erase id) :
    nodeVms reached = nodeVms node ∆ {id} := by
  have hbefore : id ∈ nodeVms node := List.mem_toFinset.mpr hmem
  rw [← erase_eq_symmDiff hbefore]
  ext other
  rw [Finset.mem_erase, nodeVms, nodeVms, hvms, List.mem_toFinset,
    List.mem_toFinset, ← AList.mem_keys, ← AList.mem_keys, AList.mem_erase]

theorem nodeVms_insert
    {node reached : Node cfg} {id : ItemHash} {handle : VmHandle}
    (hfresh : id ∉ node.vms)
    (hvms : reached.vms = node.vms.insert id handle) :
    nodeVms reached = nodeVms node ∆ {id} := by
  have hbefore : id ∉ nodeVms node :=
    fun hmem => hfresh (List.mem_toFinset.mp hmem)
  rw [← insert_eq_symmDiff hbefore]
  ext other
  rw [Finset.mem_insert, nodeVms, nodeVms, hvms, List.mem_toFinset,
    List.mem_toFinset, ← AList.mem_keys, ← AList.mem_keys, AList.mem_insert]

/-- A machine that is called for is settled when it changes on the node. -/
theorem call_step
    {node reached : Node cfg} {ghost : AllocationGhost}
    {stops starts : List ItemHash} (id : ItemHash)
    (hkeyed : KeyedNode reached) (hacting : ghost.isActing = true)
    (hpending : ghost.pending = (id :: (stops ++ starts)).toFinset)
    (hnodup : (id :: (stops ++ starts)).Nodup)
    (hnode : nodeVms reached = nodeVms node ∆ {id}) :
    AllocationStep accepted node ghost reached
      { ghost with stage := .acting stops starts } := by
  obtain ⟨hfresh, hnodup⟩ := List.nodup_cons.mp hnodup
  have hafter : AllocationGhost.pending
      { ghost with stage := .acting stops starts } =
        (stops ++ starts).toFinset := rfl
  constructor
  · exact hkeyed
  · exact hnodup
  · rfl
  · rfl
  · apply AllocationMove.calls hacting
    have hfresh : id ∉ (stops ++ starts).toFinset :=
      fun hmem => hfresh (List.mem_toFinset.mp hmem)
    rw [hafter, hnode, hpending, List.toFinset_cons,
      insert_eq_symmDiff hfresh, symmDiff_assoc,
      symmDiff_comm {id} (stops ++ starts).toFinset]

theorem stop_step
    {libs : AgentLibs} {calls : AllocationCalls} {node : Node cfg}
    {ghost : AllocationGhost} {vmId : ItemHash}
    (hkeyed : KeyedNode node) (hsound : ghost.Sound)
    (hallowed : ghost.Allows (.stop vmId))
    (hnone : (stopVm libs calls (node, []) vmId).2 = []) :
    AllocationStep accepted node ghost
      (stopVm libs calls (node, []) vmId).1 ghost.afterCall := by
  obtain ⟨stops, starts, hstage⟩ := hallowed
  obtain ⟨_, hmem, hvms⟩ := stopVm_noErrors hnone
  have hafter : ghost.afterCall =
      { ghost with stage := .acting stops starts } := by
    simp only [AllocationGhost.afterCall, hstage]
  rw [hafter]
  apply call_step vmId
  · exact stopVm_keyed libs calls hkeyed vmId
  · simp only [AllocationGhost.isActing, hstage]
  · simp only [AllocationGhost.pending, hstage, List.cons_append]
  · simpa only [AllocationGhost.Sound, hstage, List.cons_append] using hsound
  · exact nodeVms_erase hmem hvms

theorem start_step
    {libs : AgentLibs} {agent : AgentState} {calls : AllocationCalls}
    {node : Node cfg} {ghost : AllocationGhost} {vmHash : ItemHash}
    (hkeyed : KeyedNode node) (hsound : ghost.Sound)
    (hallowed : ghost.Allows (.start vmHash))
    (hnone : (startVm libs agent calls (node, []) vmHash).2 = []) :
    AllocationStep accepted node ghost
      (startVm libs agent calls (node, []) vmHash).1 ghost.afterCall := by
  obtain ⟨starts, hstage⟩ := hallowed
  obtain ⟨_, hfresh, handle, _, hvms⟩ := startVm_noErrors hnone
  have hafter : ghost.afterCall =
      { ghost with stage := .acting [] starts } := by
    simp only [AllocationGhost.afterCall, hstage]
  rw [hafter]
  apply call_step vmHash
  · exact startVm_keyed libs agent calls hkeyed vmHash
  · simp only [AllocationGhost.isActing, hstage]
  · simp only [AllocationGhost.pending, hstage, List.nil_append]
  · simpa only [AllocationGhost.Sound, hstage, List.nil_append] using hsound
  · exact nodeVms_insert hfresh hvms

theorem allocation_step
    {libs : AgentLibs} {agent : AgentState} {calls : AllocationCalls}
    {node reached : Node cfg} {ghost : AllocationGhost}
    {action : AllocationAction} {response : action.Response}
    (hkeyed : KeyedNode node) (hsound : ghost.Sound)
    (hallowed : ghost.Allows action)
    (hexec : execCall libs agent calls action node =
      some (response, reached))
    (hsucceeded : Succeeded action response) :
    AllocationStep accepted node ghost reached
      (ghost.next accepted action response) := by
  cases action with
  | list =>
      have hcall := Option.some.inj hexec
      cases response with
      | error message => exact hsucceeded.elim
      | ok running => exact list_step hkeyed hallowed hcall
  | stop vmId =>
      have hcall := Option.some.inj hexec
      rw [← Prod.swap_inj, Prod.swap_swap] at hcall
      have hnone : (stopVm libs calls (node, []) vmId).2 = [] := by
        rw [hcall]
        exact hsucceeded
      have hstep : AllocationStep accepted node ghost
          (stopVm libs calls (node, []) vmId).1 ghost.afterCall :=
        stop_step hkeyed hsound hallowed hnone
      rw [hcall] at hstep
      exact hstep
  | start vmHash =>
      have hcall := Option.some.inj hexec
      rw [← Prod.swap_inj, Prod.swap_swap] at hcall
      have hnone : (startVm libs agent calls (node, []) vmHash).2 = [] := by
        rw [hcall]
        exact hsucceeded
      have hstep : AllocationStep accepted node ghost
          (startVm libs agent calls (node, []) vmHash).1 ghost.afterCall :=
        start_step hkeyed hsound hallowed hnone
      rw [hcall] at hstep
      exact hstep

/-! ## Steps of two requests -/

/-- When a request lists, the other one has no call left or has not listed
either, or nothing has to be done for the request that lists. -/
def ListedApart (accepted : RequestName → AcceptedAllocation)
    (node : Node cfg) (_ : AllocationCalls) (ghost : AllocationGhost) :
    (action : AllocationAction) → action.Response → AllocationGhost → Prop
  | .list, _, other => other.idle = true ∨
      nodeVms node = (accepted ghost.name).allocation.allVms
  | .stop _, _, _ | .start _, _, _ => True

instance ListedApart.decidable
    (accepted : RequestName → AcceptedAllocation) (node : Node cfg)
    (calls : AllocationCalls) (ghost : AllocationGhost) :
    ∀ (action : AllocationAction) (response : action.Response)
      (other : AllocationGhost), Decidable
        (ListedApart accepted node calls ghost action response other)
  | .list, _, _ => inferInstanceAs (Decidable (_ ∨ _))
  | .stop _, _, _ | .start _, _, _ => inferInstanceAs (Decidable True)

section

variable (libs : AgentLibs) (agent : AgentState)
  (accepted : RequestName → AcceptedAllocation)
  (system : AllocationSystem cfg) (event : ℕ × AllocationCalls)

/-- A call that is taken succeeds. -/
def Succeeds : Prop :=
  system.Meets (execCall libs agent) (allocations accepted)
    (fun _ _ _ action response => Succeeded action response)
    (fun _ _ _ _ _ _ => True) event.1 event.2

def ListsApart : Prop :=
  system.Meets (execCall libs agent) (allocations accepted)
    (fun _ _ _ _ _ => True) (ListedApart accepted) event.1 event.2

instance Succeeds.decidable :
    Decidable (Succeeds libs agent accepted system event) :=
  inferInstanceAs (Decidable (Pool.Meets _ _ _ _ _ _ _))

instance ListsApart.decidable :
    Decidable (ListsApart libs agent accepted system event) :=
  inferInstanceAs (Decidable (Pool.Meets _ _ _ _ _ _ _))

end

/-- Two requests that keep to the protocol, without an error so far. -/
structure TwoRequests (accepted : RequestName → AcceptedAllocation)
    (system : AllocationSystem cfg) (ghost other : AllocationGhost) : Prop
    where
  keyed : KeyedNode system.shared
  follows : system.Follows (allocations accepted)
  ghosts : system.ghosts (allocations accepted) = [ghost, other] ∨
    system.ghosts (allocations accepted) = [other, ghost]
  sound : ghost.Sound
  otherSound : other.Sound

theorem TwoRequests.of_eq
    {system reached : AllocationSystem cfg} {ghost other : AllocationGhost}
    (htwo : TwoRequests accepted system ghost other)
    (hsame : reached = system) :
    TwoRequests accepted reached ghost other := by
  rw [hsame]
  exact htwo

theorem TwoRequests.symm
    {system : AllocationSystem cfg} {ghost other : AllocationGhost}
    (htwo : TwoRequests accepted system ghost other) :
    TwoRequests accepted system other ghost :=
  ⟨htwo.keyed, htwo.follows, htwo.ghosts.symm, htwo.otherSound, htwo.sound⟩

/-- The step is one of the first request. -/
structure RequestStep (libs : AgentLibs) (agent : AgentState)
    (accepted : RequestName → AcceptedAllocation)
    (system : AllocationSystem cfg) (ghost other : AllocationGhost)
    (event : ℕ × AllocationCalls) (after : AllocationGhost) : Prop where
  step : AllocationStep accepted system.shared ghost
    (advanceAllocation libs agent system event).shared after
  two : TwoRequests accepted (advanceAllocation libs agent system event)
    after other
  apart : ListsApart libs agent accepted system event ↔
    (ghost.stage = .listing → other.idle = true ∨
      nodeVms system.shared = (accepted ghost.name).allocation.allVms)

/-- The position of one of two entries, with the other one as its rest. -/
structure EntryAt {α : Type} (entries : List α) (index : ℕ)
    (entry other : α) : Prop where
  here : entries[index]? = some entry
  rest : entries.eraseIdx index = [other]
  updated : ∀ after, entries.set index after = [after, other] ∨
    entries.set index after = [other, after]

theorem entryAt_cases
    {α : Type} {entries : List α} {index : ℕ} {entry other found : α}
    (hentries : entries = [entry, other] ∨ entries = [other, entry])
    (hfound : entries[index]? = some found) :
    EntryAt entries index entry other ∨
      EntryAt entries index other entry := by
  have hpair : ∀ first second : α, entries = [first, second] →
      EntryAt entries index first second ∨
        EntryAt entries index second first := by
    intro first second hsame
    subst hsame
    match index with
    | 0 => exact .inl ⟨rfl, rfl, fun _ => .inl rfl⟩
    | 1 => exact .inr ⟨rfl, rfl, fun _ => .inr rfl⟩
    | later + 2 => simp at hfound
  rcases hentries with hsame | hsame
  · exact hpair entry other hsame
  · exact (hpair other entry hsame).symm

theorem TwoRequests.requestStep
    {libs : AgentLibs} {agent : AgentState} {system : AllocationSystem cfg}
    {ghost other : AllocationGhost} {event : ℕ × AllocationCalls}
    {task : AllocationTask} {action : AllocationAction}
    {next : action.Response → AllocationProgram
      (Except Failure AllocationResponse)}
    {response : action.Response} {shared : Node cfg}
    (htwo : TwoRequests accepted system ghost other)
    (hsucceeds : Succeeds libs agent accepted system event)
    (htask : system.tasks[event.1]? = some task)
    (hrest : task.rest = .perform action next)
    (hexec : execCall libs agent event.2 action system.shared =
      some (response, shared))
    (htaken : system.taken (execCall libs agent) event.1 event.2 =
      some (task, ⟨action, response⟩, shared))
    (hadvance : advanceAllocation libs agent system event =
      ⟨shared, system.tasks.set event.1 ⟨task.call,
        task.past ++ [⟨action, response⟩], next response⟩⟩)
    (hentry : EntryAt (system.ghosts (allocations accepted)) event.1 ghost
      other) :
    RequestStep libs agent accepted system ghost other event
      (ghost.next accepted action response) := by
  have hghost : task.ghost (allocations accepted) = ghost := by
    have hhere := hentry.here
    rw [Pool.ghosts, List.getElem?_map, htask, Option.map_some] at hhere
    exact Option.some.inj hhere
  have hothers : (system.tasks.eraseIdx event.1).map
      (Task.ghost (allocations accepted)) = [other] := by
    rw [← List.eraseIdx_map]
    exact hentry.rest
  have hprogram := htwo.follows task (List.mem_of_getElem? htask)
  rw [hrest, hghost] at hprogram
  have hsucceeded : Succeeded action response := (hsucceeds _ htaken).1
  have hstep : AllocationStep accepted system.shared ghost shared
      (ghost.next accepted action response) :=
    allocation_step htwo.keyed htwo.sound hprogram.1 hexec hsucceeded
  have hfollows : (advanceAllocation libs agent system event).Follows
      (allocations accepted) :=
    (Pool.advance_invariant (fun _ _ => True) (fun _ _ => trivial)
      (fun _ _ _ => trivial) (fun _ _ _ _ _ => trivial) htwo.follows trivial
      hsucceeds).1
  rw [hadvance] at hfollows
  constructor
  · rw [hadvance]
    exact hstep
  · rw [hadvance]
    refine ⟨hstep.keyed, hfollows, ?_, hstep.sound, htwo.otherSound⟩
    rw [Pool.ghosts, List.map_set, Task.ghost_snoc, hghost]
    exact hentry.updated _
  · have hguard : ListsApart libs agent accepted system event ↔
        ListedApart accepted system.shared event.2 ghost action response
          other := by
      unfold ListsApart Pool.Meets
      rw [htaken]
      simp only [Option.mem_def, Option.some.injEq, forall_eq', hghost,
        true_and]
      rw [← List.forall_mem_map, hothers]
      simp
    rw [hguard]
    cases action with
    | list =>
        have hlisting : ghost.stage = .listing := hprogram.1
        simp only [ListedApart, hlisting, true_imp_iff]
    | stop vmId =>
        obtain ⟨stops, starts, hstage⟩ := hprogram.1
        simp [ListedApart, hstage]
    | start vmHash =>
        obtain ⟨starts, hstage⟩ := hprogram.1
        simp [ListedApart, hstage]

theorem TwoRequests.advance
    {libs : AgentLibs} {agent : AgentState} {system : AllocationSystem cfg}
    {ghost other : AllocationGhost} {event : ℕ × AllocationCalls}
    (htwo : TwoRequests accepted system ghost other)
    (hsucceeds : Succeeds libs agent accepted system event) :
    (advanceAllocation libs agent system event = system ∧
        ListsApart libs agent accepted system event) ∨
      (∃ after, RequestStep libs agent accepted system ghost other event
        after) ∨
      ∃ after, RequestStep libs agent accepted system other ghost event
        after := by
  rcases system.taken_cases (execCall libs agent) event.1 event.2 with
    ⟨hblocked, hsame⟩ |
      ⟨task, action, next, response, shared, htask, hrest, hexec, htaken,
        hadvance⟩
  · left
    constructor
    · exact hsame
    · intro taken htaken
      rw [hblocked] at htaken
      cases htaken
  · right
    have hfound : (system.ghosts (allocations accepted))[event.1]? =
        some (task.ghost (allocations accepted)) := by
      rw [Pool.ghosts, List.getElem?_map, htask, Option.map_some]
    rcases entryAt_cases htwo.ghosts hfound with hentry | hentry
    · exact .inl ⟨_, htwo.requestStep hsucceeds htask hrest hexec htaken
        hadvance hentry⟩
    · exact .inr ⟨_, htwo.symm.requestStep hsucceeds htask hrest hexec htaken
        hadvance hentry⟩

/-! ## Whole runs -/

theorem TwoRequests.returned
    {system : AllocationSystem cfg} {ghost other : AllocationGhost}
    (htwo : TwoRequests accepted system ghost other)
    (hquiet : system.Quiet) :
    ghost.isActing = true ∧ ghost.pending = ∅ := by
  have hmem : ghost ∈ system.ghosts (allocations accepted) := by
    rcases htwo.ghosts with hghosts | hghosts <;> simp [hghosts]
  obtain ⟨task, htask, hghost⟩ := List.mem_map.mp hmem
  obtain ⟨value, hresult⟩ := Option.isSome_iff_exists.mp (hquiet task htask)
  have hreturned : ghost.Returned := by
    rw [← hghost]
    exact Task.returns_of_result (htwo.follows task htask) hresult
  have hsound := htwo.sound
  rcases hreturned with hstage | hstage
  · simp [AllocationGhost.isActing, AllocationGhost.pending, hstage]
  · simp [AllocationGhost.Sound, hstage] at hsound

theorem not_listing_of_acting
    {ghost : AllocationGhost} (hacting : ghost.isActing = true) :
    ghost.stage ≠ .listing := by
  intro hlisting
  simp [AllocationGhost.isActing, hlisting] at hacting

theorem idle_iff_pending
    {ghost : AllocationGhost} (hacting : ghost.isActing = true) :
    ghost.idle = true ↔ ghost.pending = ∅ := by
  obtain ⟨name, stage⟩ := ghost
  match stage with
  | .acting (_ :: _) _ | .acting [] (_ :: _) | .acting [] [] =>
      simp [AllocationGhost.idle, AllocationGhost.pending]
  | .listing | .failed => simp [AllocationGhost.isActing] at hacting

theorem AllocationStep.settles
    {node reached : Node cfg} {ghost after : AllocationGhost}
    (hstep : AllocationStep accepted node ghost reached after)
    (hacting : ghost.isActing = true) :
    nodeVms reached ∆ after.pending = nodeVms node ∆ ghost.pending := by
  cases hstep.move with
  | lists hlisting hnode hpending =>
      exact absurd hlisting (not_listing_of_acting hacting)
  | calls hacting hpending => exact hpending

section

variable {libs : AgentLibs} {agent : AgentState}

theorem RequestStep.listsApart
    {system : AllocationSystem cfg} {ghost other after : AllocationGhost}
    {event : ℕ × AllocationCalls}
    (hstep : RequestStep libs agent accepted system ghost other event after)
    (hacting : ghost.isActing = true) :
    ListsApart libs agent accepted system event := by
  apply hstep.apart.mpr
  intro hlisting
  exact absurd hlisting (not_listing_of_acting hacting)

/-- When both requests have listed, what they will do to the node is
fixed. -/
theorem both_acting
    {system : AllocationSystem cfg} {ghost other : AllocationGhost}
    (events : List (ℕ × AllocationCalls))
    (htwo : TwoRequests accepted system ghost other)
    (hacting : ghost.isActing = true) (hother : other.isActing = true)
    (hsucceeds : Along (advanceAllocation libs agent)
      (Succeeds libs agent accepted) system events)
    (hquiet : (run (advanceAllocation libs agent) system events).Quiet) :
    nodeVms (run (advanceAllocation libs agent) system events).shared =
        nodeVms system.shared ∆ ghost.pending ∆ other.pending ∧
      Along (advanceAllocation libs agent) (ListsApart libs agent accepted)
        system events := by
  induction events generalizing system ghost other with
  | nil =>
      have hghost := (htwo.returned hquiet).2
      have hnone := (htwo.symm.returned hquiet).2
      rw [hghost, hnone, ← Finset.bot_eq_empty, symmDiff_bot, symmDiff_bot]
      exact ⟨rfl, trivial⟩
  | cons event rest ih =>
      obtain ⟨hsucceeds, hrest⟩ := hsucceeds
      rcases htwo.advance hsucceeds with ⟨hsame, hlists⟩ |
        ⟨after, hstep⟩ | ⟨after, hstep⟩
      · obtain ⟨hfinal, halong⟩ := ih (htwo.of_eq hsame) hacting hother
          hrest hquiet
        constructor
        · apply hfinal.trans
          rw [hsame]
        · exact ⟨hlists, halong⟩
      · obtain ⟨hfinal, halong⟩ := ih hstep.two hstep.step.acting hother
          hrest hquiet
        constructor
        · apply hfinal.trans
          rw [hstep.step.settles hacting]
        · exact ⟨hstep.listsApart hacting, halong⟩
      · obtain ⟨hfinal, halong⟩ := ih hstep.two hstep.step.acting hacting
          hrest hquiet
        constructor
        · apply hfinal.trans
          rw [hstep.step.settles hother, symmDiff_right_comm]
        · exact ⟨hstep.listsApart hother, halong⟩

/-- The machines of one of the two allocations. -/
def Serialised (accepted : RequestName → AcceptedAllocation)
    (node : Node cfg) (ghost other : AllocationGhost) : Prop :=
  nodeVms node = (accepted ghost.name).allocation.allVms ∨
    nodeVms node = (accepted other.name).allocation.allVms

theorem serialised_after_list
    {node final : Node cfg} {ghost other after : AllocationGhost}
    (hacting : ghost.isActing = true)
    (hghost : nodeVms node ∆ ghost.pending =
      (accepted ghost.name).allocation.allVms)
    (hlisted : after.pending =
      nodeVms node ∆ (accepted other.name).allocation.allVms)
    (hfinal : nodeVms final =
      nodeVms node ∆ ghost.pending ∆ after.pending) :
    Serialised accepted final ghost other ↔ (ghost.idle = true ∨
      nodeVms node = (accepted other.name).allocation.allVms) := by
  have hfirst : nodeVms final = (accepted ghost.name).allocation.allVms ↔
      nodeVms node = (accepted other.name).allocation.allVms := by
    rw [hfinal, hghost, symmDiff_eq_left, hlisted, symmDiff_eq_bot]
  have hsecond : nodeVms final = (accepted other.name).allocation.allVms ↔
      ghost.idle = true := by
    rw [idle_iff_pending hacting, hfinal, hlisted,
      symmDiff_right_comm, symmDiff_symmDiff_cancel_left, symmDiff_comm,
      symmDiff_eq_right, Finset.bot_eq_empty]
  unfold Serialised
  rw [hfirst, hsecond]
  exact Or.comm

theorem Serialised.comm
    {node : Node cfg} {ghost other : AllocationGhost} :
    Serialised accepted node ghost other ↔
      Serialised accepted node other ghost := Or.comm

/-- While one request acts towards its allocation, the other one lists. -/
theorem one_acting
    {system : AllocationSystem cfg} {ghost other : AllocationGhost}
    (events : List (ℕ × AllocationCalls))
    (htwo : TwoRequests accepted system ghost other)
    (hacting : ghost.isActing = true) (hother : other.stage = .listing)
    (hghost : nodeVms system.shared ∆ ghost.pending =
      (accepted ghost.name).allocation.allVms)
    (hsucceeds : Along (advanceAllocation libs agent)
      (Succeeds libs agent accepted) system events)
    (hquiet : (run (advanceAllocation libs agent) system events).Quiet) :
    Serialised accepted
        (run (advanceAllocation libs agent) system events).shared ghost
          other ↔
      Along (advanceAllocation libs agent) (ListsApart libs agent accepted)
        system events := by
  induction events generalizing system ghost with
  | nil =>
      have hreturned := (htwo.symm.returned hquiet).1
      exact absurd hother (not_listing_of_acting hreturned)
  | cons event rest ih =>
      obtain ⟨hsucceeds, hrest⟩ := hsucceeds
      rcases htwo.advance hsucceeds with ⟨hsame, hlists⟩ |
        ⟨after, hstep⟩ | ⟨after, hstep⟩
      · have hrun := ih (htwo.of_eq hsame) hacting (by
          rw [hsame]
          exact hghost) hrest hquiet
        exact hrun.trans (and_iff_right hlists).symm
      · have hname := hstep.step.name
        have hrun := ih hstep.two hstep.step.acting (by
          rw [hstep.step.settles hacting, hname]
          exact hghost) hrest hquiet
        unfold Serialised at hrun ⊢
        rw [hname] at hrun
        exact hrun.trans (and_iff_right (hstep.listsApart hacting)).symm
      · cases hstep.step.move with
        | calls hcalls hpending =>
            exact absurd hother (not_listing_of_acting hcalls)
        | lists hlisting hnode hpending =>
            obtain ⟨hfinal, halong⟩ := both_acting rest hstep.two
              hstep.step.acting hacting hrest hquiet
            rw [hnode, symmDiff_right_comm] at hfinal
            have hserialised := serialised_after_list hacting hghost hpending
              hfinal
            apply hserialised.trans
            have hlists := hstep.apart
            simp only [hlisting, true_imp_iff] at hlists
            rw [← hlists]
            exact (and_iff_left halong).symm

/-- Nothing is on the way when the first request lists. -/
theorem first_lists
    {system : AllocationSystem cfg} {ghost other : AllocationGhost}
    {event : ℕ × AllocationCalls} {events : List (ℕ × AllocationCalls)}
    {after : AllocationGhost} (hghost : ghost.stage = .listing)
    (hother : other.stage = .listing)
    (hstep : RequestStep libs agent accepted system ghost other event after)
    (hsucceeds : Along (advanceAllocation libs agent)
      (Succeeds libs agent accepted) (advanceAllocation libs agent system
        event) events)
    (hquiet : (run (advanceAllocation libs agent) system
      (event :: events)).Quiet) :
    Serialised accepted (run (advanceAllocation libs agent) system
        (event :: events)).shared ghost other ↔
      Along (advanceAllocation libs agent) (ListsApart libs agent accepted)
        system (event :: events) := by
  have hname := hstep.step.name
  have hlists : ListsApart libs agent accepted system event := by
    apply hstep.apart.mpr
    intro _
    left
    simp only [AllocationGhost.idle, hother]
  cases hstep.step.move with
  | calls hcalls hpending =>
      exact absurd hghost (not_listing_of_acting hcalls)
  | lists hlisting hnode hpending =>
      have hrun := one_acting events hstep.two hstep.step.acting hother (by
        rw [hnode, hpending, hname, symmDiff_symmDiff_cancel_left])
        hsucceeds hquiet
      unfold Serialised at hrun ⊢
      rw [hname] at hrun
      exact hrun.trans (and_iff_right hlists).symm

theorem both_listing
    {system : AllocationSystem cfg} {ghost other : AllocationGhost}
    (events : List (ℕ × AllocationCalls))
    (htwo : TwoRequests accepted system ghost other)
    (hghost : ghost.stage = .listing) (hother : other.stage = .listing)
    (hsucceeds : Along (advanceAllocation libs agent)
      (Succeeds libs agent accepted) system events)
    (hquiet : (run (advanceAllocation libs agent) system events).Quiet) :
    Serialised accepted
        (run (advanceAllocation libs agent) system events).shared ghost
          other ↔
      Along (advanceAllocation libs agent) (ListsApart libs agent accepted)
        system events := by
  induction events generalizing system with
  | nil =>
      have hreturned := (htwo.returned hquiet).1
      exact absurd hghost (not_listing_of_acting hreturned)
  | cons event rest ih =>
      obtain ⟨hsucceeds, hrest⟩ := hsucceeds
      rcases htwo.advance hsucceeds with ⟨hsame, hlists⟩ |
        ⟨after, hstep⟩ | ⟨after, hstep⟩
      · have hrun := ih (htwo.of_eq hsame) hrest hquiet
        exact hrun.trans (and_iff_right hlists).symm
      · exact first_lists hghost hother hstep hrest hquiet
      · rw [Serialised.comm]
        exact first_lists hother hghost hstep hrest hquiet

end

def allocationRun (libs : AgentLibs) (agent : AgentState)
    (accepted : RequestName → AcceptedAllocation) (node : Node cfg)
    (events : List (ℕ × AllocationCalls)) : AllocationSystem cfg :=
  run (advanceAllocation libs agent) (twoAllocations accepted node) events

/-- Two requests that complete without an error leave the machines of one of
the two allocations exactly when no request listed while the other one still
had something to do, unless nothing had to be done for it. -/
theorem allocations_serialisable_iff
    (cfg : NodeConfig) (taps : Finset String) (ruleset : Ruleset)
    (hostsdir : AList fun _ : String => String) (ops : List ManagerOp)
    (libs : AgentLibs) (agent : AgentState)
    (accepted : RequestName → AcceptedAllocation)
    (events : List (ℕ × AllocationCalls))
    (hsucceeds : Along (advanceAllocation libs agent)
      (Succeeds libs agent accepted)
      (twoAllocations accepted
        (run Node.step (.fresh cfg taps ruleset hostsdir ∅) ops)) events)
    (hquiet : (allocationRun libs agent accepted
      (run Node.step (.fresh cfg taps ruleset hostsdir ∅) ops) events).Quiet) :
    (nodeVms (allocationRun libs agent accepted
          (run Node.step (.fresh cfg taps ruleset hostsdir ∅) ops)
          events).shared = (accepted .first).allocation.allVms ∨
        nodeVms (allocationRun libs agent accepted
          (run Node.step (.fresh cfg taps ruleset hostsdir ∅) ops)
          events).shared = (accepted .second).allocation.allVms) ↔
      Along (advanceAllocation libs agent) (ListsApart libs agent accepted)
        (twoAllocations accepted
          (run Node.step (.fresh cfg taps ruleset hostsdir ∅) ops))
        events := by
  have hkeyed : KeyedNode
      (run Node.step (.fresh cfg taps ruleset hostsdir ∅) ops) :=
    run_invariant KeyedNode.step ops
      (KeyedNode.fresh cfg taps ruleset hostsdir)
  have hnone : (⟨run Node.step (.fresh cfg taps ruleset hostsdir ∅) ops, []⟩ :
      AllocationSystem cfg).Follows (allocations accepted) := by
    intro task htask
    cases htask
  have htwo : TwoRequests accepted (twoAllocations accepted
      (run Node.step (.fresh cfg taps ruleset hostsdir ∅) ops))
      ⟨.first, .listing⟩ ⟨.second, .listing⟩ := by
    constructor
    · exact hkeyed
    · apply Pool.call_follows
      · exact Pool.call_follows hnone (applyAllocation_follows .first)
      · exact applyAllocation_follows .second
    · exact .inl rfl
    · trivial
    · trivial
  exact both_listing events htwo rfl rfl hsucceeds hquiet

/-! Two requests for one machine each. -/

def vmAllocated : RequestName → ItemHash
  | .first => "vm-x"
  | .second => "vm-y"

def oneVmEach (name : RequestName) : AcceptedAllocation :=
  ⟨⟨∅, {vmAllocated name}⟩, .stored, .stored⟩

/-- A host with room for two machines in huge pages. -/
def pagedHost : NodeConfig :=
  { smallHost with
    topology := ⟨smallHost.topology.nodes.map fun node =>
      { node with total2mHugepages := 128 }⟩
    distinct_ids := by decide }

def pagedNode : Node pagedHost := .fresh pagedHost ∅ supervisorRuleset ∅ ∅

def knowingAgent : AgentState :=
  { sampleAgent with
    messages := (sampleAgent.messages.register
      (instanceNamed "vm-x")).register (instanceNamed "vm-y") }

/-- The hash tree of an image that has not changed since. -/
def treeUpToDate : Qemu.VerityFiles :=
  ⟨true, true, some 0, some 1, .ok "a1", .error "", .error ""⟩

def everyCallSucceeds : AllocationCalls :=
  { allocationSucceeds with
    start := fun vmHash =>
      { allocationSucceeds.start vmHash with
        cache := sampleCache
        create := { createSucceeds with
          verity := ⟨treeUpToDate, treeUpToDate⟩ } } }

def inOrder (requests : List ℕ) : List (ℕ × AllocationCalls) :=
  requests.map fun index => (index, everyCallSucceeds)

theorem allocations_serialisable_in_turn :
    nodeVms (allocationRun sampleLibs knowingAgent oneVmEach pagedNode
          (inOrder [0, 0, 1, 1, 1])).shared =
        (oneVmEach .first).allocation.allVms ∨
      nodeVms (allocationRun sampleLibs knowingAgent oneVmEach pagedNode
          (inOrder [0, 0, 1, 1, 1])).shared =
        (oneVmEach .second).allocation.allVms := by
  have hrun : Along (advanceAllocation sampleLibs knowingAgent)
        (Succeeds sampleLibs knowingAgent oneVmEach)
        (twoAllocations oneVmEach pagedNode) (inOrder [0, 0, 1, 1, 1]) ∧
      (allocationRun sampleLibs knowingAgent oneVmEach pagedNode
        (inOrder [0, 0, 1, 1, 1])).Quiet ∧
      Along (advanceAllocation sampleLibs knowingAgent)
        (ListsApart sampleLibs knowingAgent oneVmEach)
        (twoAllocations oneVmEach pagedNode) (inOrder [0, 0, 1, 1, 1]) := by
    decide +kernel
  exact (allocations_serialisable_iff pagedHost ∅ supervisorRuleset ∅ []
    sampleLibs knowingAgent oneVmEach (inOrder [0, 0, 1, 1, 1]) hrun.1
    hrun.2.1).mpr hrun.2.2

/-- Both requests list the empty node before one of them starts its
machine. -/
theorem allocations_mixed :
    Along (advanceAllocation sampleLibs knowingAgent)
        (Succeeds sampleLibs knowingAgent oneVmEach)
        (twoAllocations oneVmEach pagedNode) (inOrder [0, 1, 0, 1]) ∧
      (allocationRun sampleLibs knowingAgent oneVmEach pagedNode
        (inOrder [0, 1, 0, 1])).Quiet ∧
      nodeVms (allocationRun sampleLibs knowingAgent oneVmEach pagedNode
          (inOrder [0, 1, 0, 1])).shared = {"vm-x", "vm-y"} ∧
      ¬ (nodeVms (allocationRun sampleLibs knowingAgent oneVmEach pagedNode
            (inOrder [0, 1, 0, 1])).shared =
          (oneVmEach .first).allocation.allVms ∨
        nodeVms (allocationRun sampleLibs knowingAgent oneVmEach pagedNode
            (inOrder [0, 1, 0, 1])).shared =
          (oneVmEach .second).allocation.allVms) := by
  decide +kernel

end AlephCvm.Agent
