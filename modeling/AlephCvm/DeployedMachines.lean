import AlephCvm.SchedulerRuns

/-!
# The machines of a deployment

What a node has in any state that its agent and it can reach, in whatever
order requests act and processes are restarted.  Each machine, each state
file and each forward has its grounds in the events before: a message that
was registered and an authentic allocation that lists it.  In the other
direction, a machine that every authentic allocation lists is never lost.

Both are invariants of the deployment together with its requests in
progress: what a request still has to stop is not in its allocation, and
what it still has to start is.
-/

namespace AlephCvm.Agent

open ResultContext TableFolds StepRuns AlephCvm.Tee AlephCvm.Net
open AlephCvm.Nft AlephCvm.Vm AlephCvm.Grpc

variable {cfg : NodeConfig}

/-! ## Grounds -/

/-- The header of the request, read as hexadecimal digits of either case, is
the authentication code of its body. -/
def Signed (libs : AgentLibs) (tokenHash : Option Bytes)
    (request : AllocationRequest) : Prop :=
  ∀ key, tokenHash = some key →
    hexDecode (request.signature.getD "") =
      .ok (libs.hmacSha256 key request.body)

/-- The configuration of the agent and what happened to it. -/
structure History where
  libs : AgentLibs
  adapterConfig : AdapterConfig
  tokenHash : Option Bytes
  events : List DeploymentEvent

namespace History

variable (history : History)

/-- An authentic request with this allocation has arrived. -/
def Received (allocation : Allocation) : Prop :=
  ∃ request, .request request ∈ history.events ∧
    Signed history.libs history.tokenHash request ∧
    history.libs.parseAllocation request.body = .ok allocation

/-- The message was registered and is allocated. -/
structure Wanted (msg : ExecutableMessage) : Prop where
  registered : .message msg ∈ history.events
  allocated : ∃ allocation, history.Received allocation ∧
    msg.itemHash ∈ allocation.allVms

/-- The machine is the one that a wanted message describes. -/
def Describes (cfg : NodeConfig) (config : VmConfig) (tap : String) : Prop :=
  ∃ msg index calls req arguments, history.Wanted msg ∧
    msg.itemHash = config.vmId ∧ tap = tapName config.vmId ∧
    .advance index calls ∈ history.events ∧
    translateMessage (calls.start config.vmId).cache history.adapterConfig
      msg = .ok req ∧
    translateRequest (calls.start config.vmId).pathExists req =
      .ok arguments ∧
    FillsIn cfg (calls.start config.vmId).create arguments.config config

/-- The forward leads to a port that a wanted message publishes. -/
def Publishes (forward : PortForward) : Prop :=
  ∃ msg, history.Wanted msg ∧ msg.itemHash = forward.vmId ∧
    ∃ published ∈ msg.resources.publishedPorts,
      published.port = forward.vmPort ∧
        parseProtocol published.protocol = .ok forward.protocol

/-- What a request still has to do has its grounds. -/
def Grounds : RequestStage → Prop
  | .listing allocation => history.Received allocation
  | .acting handling toStop toStart =>
      history.Received handling.allocation ∧
        (∀ id ∈ toStop, id ∉ handling.allocation.allVms) ∧
        ∀ id ∈ toStart, id ∈ handling.allocation.allVms
  | .starting handling vmHash msg toStart =>
      history.Received handling.allocation ∧ history.Wanted msg ∧
        msg.itemHash = vmHash ∧
        ∀ id ∈ toStart, id ∈ handling.allocation.allVms
  | .forwarding handling _ requests toStart =>
      history.Received handling.allocation ∧
        (∃ msg, history.Wanted msg ∧
          ∀ entry ∈ requests, entry.1 ∈ translatePortForwards msg) ∧
        ∀ id ∈ toStart, id ∈ handling.allocation.allVms
  | .answered _ => True

/-- What a request may do to the node. -/
structure Permits (cfg : NodeConfig) (op : ManagerOp) : Prop where
  creates : CreatesOnly cfg (history.Describes cfg) op
  forwards : ForwardsOnly history.Publishes op
  deletes : ∀ calls id, op = .deleteVm calls id →
    ∃ allocation, history.Received allocation ∧ id ∉ allocation.allVms
  running : ∀ calls, op ≠ .restart calls

end History

/-! ## One step of a request -/

variable {history : History}

theorem acceptedAllocation_received
    {agent : AgentState} {request : AllocationRequest}
    {allocation : Allocation}
    (htoken : agent.allocationTokenHash = history.tokenHash)
    (hevent : .request request ∈ history.events)
    (haccepted : acceptedAllocation history.libs agent request =
      some allocation) : history.Received allocation := by
  obtain ⟨hauthorized, hparse⟩ :=
    acceptedAllocation_eq_some_iff.mp haccepted
  refine ⟨request, hevent, ?_, hparse⟩
  intro key hkey
  have hverified := hauthorized key (htoken.trans hkey)
  unfold verifyAllocationSignature at hverified
  cases hdecode : hexDecode (request.signature.getD "") with
  | error message => simp [hdecode] at hverified
  | ok bytes =>
      simp only [hdecode, beq_iff_eq] at hverified
      rw [hverified]

theorem callNode_reaches
    {α : Type} {allowed : ManagerOp → Prop} (libs : AgentLibs)
    (outcome : RpcOutcome) {node : Node cfg}
    {call : Except CallFailure α × Node cfg}
    (hcall : Reaches Node.step allowed node call.2) :
    Reaches Node.step allowed node (callNode libs outcome node call).2 := by
  cases outcome with
  | unreachable message => exact .refl node
  | lost message => exact hcall
  | answered =>
      obtain ⟨result, after⟩ := call
      cases result with
      | error failure => exact hcall
      | ok value => exact hcall

theorem reconcile_toStop
    {desiredOrder runningOrder : IterationOrder} {allocation : Allocation}
    {running : Finset ItemHash} :
    ∀ id ∈ (reconcile desiredOrder runningOrder allocation running).toStop,
      id ∉ allocation.allVms := by
  intro id hid
  simpa using (List.mem_filter.mp hid).2

theorem reconcile_toStart
    {desiredOrder runningOrder : IterationOrder} {allocation : Allocation}
    {running : Finset ItemHash} :
    ∀ id ∈ (reconcile desiredOrder runningOrder allocation
      running).toStart, id ∈ allocation.allVms := by
  intro id hid
  exact mem_elements.mp (List.mem_filter.mp hid).1

/-- The step leaves the request with grounds for the rest and the node with
what the run permits. -/
structure Justified (history : History) (node : Node cfg)
    (after : Node cfg × RequestStage) : Prop where
  reaches : Reaches Node.step (history.Permits cfg) node after.1
  grounds : history.Grounds after.2

section Steps

variable {agent : AgentState} {calls : AllocationCalls} {node : Node cfg}
  {handling : Handling} {toStart : List ItemHash}

theorem advanceListing_justified
    {allocation : Allocation} (hreceived : history.Received allocation) :
    Justified history node
      (advanceListing history.libs calls node allocation) := by
  unfold advanceListing
  cases calls.listRpc with
  | unreachable message => exact ⟨.refl node, trivial⟩
  | lost message => exact ⟨.refl node, trivial⟩
  | answered =>
      exact ⟨.refl node, hreceived, reconcile_toStop, reconcile_toStart⟩

theorem advanceStop_justified
    {vmId : ItemHash} {toStop : List ItemHash}
    (hgrounds : history.Grounds
      (.acting handling (vmId :: toStop) toStart)) :
    Justified history node
      (advanceStop history.libs calls node handling vmId toStop toStart) := by
  obtain ⟨hreceived, hstop, hstart⟩ := hgrounds
  rw [List.forall_mem_cons] at hstop
  have hpermits : history.Permits cfg
      (.deleteVm (calls.stop vmId).delete vmId) := by
    refine ⟨trivial, trivial, ?_, by simp⟩
    rintro other id hop
    cases hop
    exact ⟨handling.allocation, hreceived, hstop.1⟩
  have hreaches := callNode_reaches history.libs (calls.stop vmId).rpc
    (deleteVm_reaches node hpermits)
  unfold advanceStop
  rcases hcall : callNode history.libs (calls.stop vmId).rpc node
    (Grpc.deleteVm node (calls.stop vmId).delete vmId) with
    ⟨answer, after⟩
  rw [hcall] at hreaches
  cases answer with
  | error message => exact ⟨hreaches, hreceived, hstop.2, hstart⟩
  | ok done => exact ⟨hreaches, hreceived, hstop.2, hstart⟩

theorem advanceLookup_justified
    {vmHash : ItemHash}
    (hmessages : ∀ hash msg, agent.messages.entries.lookup hash = some msg →
      .message msg ∈ history.events)
    (hgrounds : history.Grounds (.acting handling [] (vmHash :: toStart))) :
    Justified history node
      (advanceLookup agent node handling vmHash toStart) := by
  obtain ⟨hreceived, hstop, hstart⟩ := hgrounds
  rw [List.forall_mem_cons] at hstart
  unfold advanceLookup
  cases hlookup : agent.messages.entries.lookup vmHash with
  | none => exact ⟨.refl node, hreceived, hstop, hstart.2⟩
  | some msg =>
      have hhash := agent.messages.keyed vmHash msg hlookup
      refine ⟨.refl node, hreceived, ⟨hmessages vmHash msg hlookup,
        handling.allocation, hreceived, ?_⟩, hhash, hstart.2⟩
      rw [hhash]
      exact hstart.1

theorem advanceStart_justified
    {vmHash : ItemHash} {msg : ExecutableMessage} {index : ℕ}
    (hconfig : agent.adapterConfig = history.adapterConfig)
    (hevent : .advance index calls ∈ history.events)
    (hgrounds : history.Grounds (.starting handling vmHash msg toStart)) :
    Justified history node (advanceStart history.libs agent calls node
      handling vmHash msg toStart) := by
  obtain ⟨hreceived, hwanted, rfl, hstart⟩ := hgrounds
  unfold advanceStart
  simp only
  cases htranslate : translateMessage (calls.start msg.itemHash).cache
      agent.adapterConfig msg with
  | error message => exact ⟨.refl node, hreceived, by simp, hstart⟩
  | ok req =>
      have hpermits : ∀ arguments,
          translateRequest (calls.start msg.itemHash).pathExists req =
            .ok arguments →
          history.Permits cfg (.createVm (calls.start msg.itemHash).create
            arguments.config arguments.requestedIpv6
            arguments.numaHint) := by
        intro arguments hrequest
        refine ⟨?_, trivial, by simp, by simp⟩
        intro filled hfills
        have hid : filled.vmId = msg.itemHash := by
          obtain ⟨disks, placement, -, hfilled⟩ := hfills.filled
          rw [hfilled, ← translateMessage_vmId htranslate,
            ← translateRequest_vmId hrequest]
          rfl
        rw [← hid] at hrequest hfills htranslate
        rw [hconfig] at htranslate
        exact ⟨msg, index, calls, req, arguments, hwanted, hid.symm, rfl,
          hevent, htranslate, hrequest, hfills⟩
      have hreaches := callNode_reaches history.libs
        (calls.start msg.itemHash).rpc (createVm_reaches node hpermits)
      simp only
      rcases hcall : callNode history.libs (calls.start msg.itemHash).rpc
        node (Grpc.createVm node (calls.start msg.itemHash).pathExists
          (calls.start msg.itemHash).create req) with ⟨answer, after⟩
      rw [hcall] at hreaches
      cases answer with
      | error message => exact ⟨hreaches, hreceived, by simp, hstart⟩
      | ok info =>
          refine ⟨hreaches, hreceived, ⟨msg, hwanted, ?_⟩, hstart⟩
          intro entry hentry
          exact (List.mem_zipIdx' hentry).2 ▸ List.getElem_mem _

theorem advanceForward_justified
    {vmHash : ItemHash} {entry : AddPortForwardRequest × ℕ}
    {requests : List (AddPortForwardRequest × ℕ)}
    (hgrounds : history.Grounds
      (.forwarding handling vmHash (entry :: requests) toStart)) :
    Justified history node (advanceForward history.libs calls node handling
      vmHash entry requests toStart) := by
  obtain ⟨hreceived, ⟨msg, hwanted, hrequests⟩, hstart⟩ := hgrounds
  rw [List.forall_mem_cons] at hrequests
  refine ⟨?_, hreceived, ⟨msg, hwanted, hrequests.2⟩, hstart⟩
  apply callNode_reaches
  apply addPortForward_reaches
  intro protocol hprotocol
  refine ⟨trivial, ?_, by simp, by simp⟩
  intro hostPort
  obtain ⟨published, hpublished, hentry⟩ :=
    List.mem_map.mp hrequests.1
  rw [← hentry] at hprotocol ⊢
  exact ⟨msg, hwanted, rfl, published, hpublished, by simp, hprotocol⟩

theorem advanceRequest_justified
    {stage : RequestStage} {index : ℕ}
    (hconfig : agent.adapterConfig = history.adapterConfig)
    (hmessages : ∀ hash msg, agent.messages.entries.lookup hash = some msg →
      .message msg ∈ history.events)
    (hevent : .advance index calls ∈ history.events)
    (hgrounds : history.Grounds stage) :
    Justified history node
      (advanceRequest history.libs agent calls node stage) := by
  cases stage with
  | listing allocation => exact advanceListing_justified hgrounds
  | acting handling toStop toStart =>
      cases toStop with
      | cons vmId toStop => exact advanceStop_justified hgrounds
      | nil =>
          cases toStart with
          | cons vmHash toStart =>
              exact advanceLookup_justified hmessages hgrounds
          | nil => exact ⟨.refl node, trivial⟩
  | starting handling vmHash msg toStart =>
      exact advanceStart_justified hconfig hevent hgrounds
  | forwarding handling vmHash requests toStart =>
      cases requests with
      | cons entry requests => exact advanceForward_justified hgrounds
      | nil => exact ⟨.refl node, hgrounds.1, by simp, hgrounds.2.2⟩
  | answered response => exact ⟨.refl node, trivial⟩

end Steps

/-! ## The invariant of a deployment -/

/-- Everything in the deployment has its grounds in the history. -/
structure Grounded (history : History) (state : Deployment cfg) : Prop where
  config : state.agent.adapterConfig = history.adapterConfig
  token : state.agent.allocationTokenHash = history.tokenHash
  messages : ∀ hash msg,
    state.agent.messages.entries.lookup hash = some msg →
      .message msg ∈ history.events
  requests : ∀ stage ∈ state.requests, history.Grounds stage
  machines : MachinesFrom (history.Describes cfg) state.node
  forwards : ForwardsFrom history.Publishes state.node

theorem Grounded.fresh
    (history : History) (taps : Finset String) (ruleset : Ruleset)
    (hostsdir : AList fun _ : String => String) :
    Grounded history (Deployment.fresh cfg taps ruleset hostsdir
      history.adapterConfig history.tokenHash) where
  config := rfl
  token := rfl
  messages := by
    intro hash msg hlookup
    cases hlookup
  requests := by
    intro stage hstage
    cases hstage
  machines := .fresh _ taps ruleset hostsdir
  forwards := .fresh _ taps ruleset hostsdir

/-- A node that does what the run permits keeps its grounds. -/
theorem Grounded.reaches
    {state : Deployment cfg} {after : Node cfg}
    (hgrounded : Grounded history state)
    (hreaches : Reaches Node.step (history.Permits cfg) state.node after) :
    Grounded history { state with node := after } :=
  { hgrounded with
    machines := MachinesFrom.reaches
      (hreaches.mono fun _ hpermits => hpermits.creates)
      hgrounded.machines
    forwards := ForwardsFrom.reaches
      (hreaches.mono fun _ hpermits => hpermits.forwards)
      hgrounded.forwards }

/-- What one event does to the node is permitted. -/
theorem Grounded.advance
    {state : Deployment cfg} {index : ℕ} {calls : AllocationCalls}
    {stage : RequestStage} (hgrounded : Grounded history state)
    (hevent : .advance index calls ∈ history.events)
    (hstage : state.requests[index]? = some stage) :
    Justified history state.node (advanceRequest history.libs state.agent
      calls state.node stage) :=
  advanceRequest_justified hgrounded.config hgrounded.messages hevent
    (hgrounded.requests stage (List.mem_of_getElem? hstage))

theorem Grounded.step
    {state : Deployment cfg} {event : DeploymentEvent}
    (hevent : event ∈ history.events)
    (hgrounded : Grounded history state) :
    Grounded history (state.step history.libs event) := by
  cases event with
  | message msg =>
      refine { hgrounded with messages := ?_ }
      intro hash found hlookup
      rcases lookup_insert_iff.mp hlookup with ⟨_, rfl⟩ | ⟨_, hold⟩
      · exact hevent
      · exact hgrounded.messages hash found hold
  | request request =>
      simp only [Deployment.step]
      cases haccepted : acceptedAllocation history.libs state.agent
          request with
      | none => exact hgrounded
      | some allocation =>
          refine { hgrounded with requests := ?_ }
          intro stage hstage
          rcases List.mem_append.mp hstage with hold | hnew
          · exact hgrounded.requests stage hold
          · rw [List.mem_singleton.mp hnew]
            exact acceptedAllocation_received hgrounded.token hevent
              haccepted
  | advance index calls =>
      simp only [Deployment.step]
      cases hstage : state.requests[index]? with
      | none => exact hgrounded
      | some stage =>
          have hjustified := hgrounded.advance hevent hstage
          refine { hgrounded.reaches hjustified.reaches with
            requests := ?_ }
          intro other hother
          rcases List.mem_or_eq_of_mem_set hother with hold | hnew
          · exact hgrounded.requests other hold
          · rw [hnew]
            exact hjustified.grounds
  | restartNode calls =>
      have hcreates : CreatesOnly cfg (history.Describes cfg)
          (.restart calls) := trivial
      exact { hgrounded with
        machines := hgrounded.machines.step hcreates
        forwards := hgrounded.forwards.restart calls }
  | restartAgent =>
      refine { hgrounded with messages := ?_, requests := ?_ }
      · intro hash msg hlookup
        cases hlookup
      · intro stage hstage
        cases hstage

theorem Grounded.run
    {state : Deployment cfg} {events : List DeploymentEvent}
    (hevents : ∀ event ∈ events, event ∈ history.events)
    (hgrounded : Grounded history state) :
    Grounded history
      (run (Deployment.step history.libs) state events) :=
  run_invariant_of_along
    (fun _ _ hbefore hevent => hbefore.step hevent) hgrounded
    (along_of_forall hevents state)

/-! ## Grounds of machines and forwards -/

section Runs

variable (cfg : NodeConfig) (taps : Finset String) (ruleset : Ruleset)
  (hostsdir : AList fun _ : String => String) (libs : AgentLibs)
  (adapterConfig : AdapterConfig) (tokenHash : Option Bytes)

/-- The deployment after these events. -/
def deployed (events : List DeploymentEvent) : Deployment cfg :=
  run (Deployment.step libs)
    (.fresh cfg taps ruleset hostsdir adapterConfig tokenHash) events

theorem deployed_grounded
    (before after : List DeploymentEvent) :
    Grounded ⟨libs, adapterConfig, tokenHash, before ++ after⟩
      (deployed cfg taps ruleset hostsdir libs adapterConfig tokenHash
        before) := by
  let history : History :=
    ⟨libs, adapterConfig, tokenHash, before ++ after⟩
  have hevents : ∀ event ∈ before, event ∈ history.events :=
    fun _ hevent => List.mem_append_left after hevent
  exact Grounded.run hevents
    (Grounded.fresh history taps ruleset hostsdir)

/-- Each machine and each state file of a node was created from a message
that somebody registered, under the id of the message, and an authentic
allocation lists it; the configuration is the one that the agent's and the
node's translations make of the message. -/
theorem deployed_machines_described
    (events : List DeploymentEvent) :
    let history : History := ⟨libs, adapterConfig, tokenHash, events⟩
    let node := (deployed cfg taps ruleset hostsdir libs adapterConfig
      tokenHash events).node
    (∀ id handle, node.vms.lookup id = some handle →
      handle.config.vmId = id ∧
        history.Describes cfg handle.config handle.tapName) ∧
    (∀ name persisted, node.stateDir.lookup name = some persisted →
      name = stateFile persisted.config.vmId ∧
        history.Describes cfg persisted.config persisted.tapName) := by
  have hgrounded := deployed_grounded cfg taps ruleset hostsdir libs
    adapterConfig tokenHash events []
  rw [List.append_nil] at hgrounded
  refine ⟨hgrounded.machines.vms, ?_⟩
  intro name persisted hlookup
  exact ⟨hgrounded.machines.named name persisted hlookup,
    hgrounded.machines.files name persisted hlookup⟩

/-- No port of a machine is forwarded, now or after the next restart, that
its message does not publish. -/
theorem deployed_forwards_published
    (events : List DeploymentEvent) :
    let history : History := ⟨libs, adapterConfig, tokenHash, events⟩
    let node := (deployed cfg taps ruleset hostsdir libs adapterConfig
      tokenHash events).node
    (∀ key forward, node.portForwards.lookup key = some forward →
      history.Publishes forward) ∧
    (∀ name persisted, node.stateDir.lookup name = some persisted →
      ∀ forward ∈ persisted.portForwards, history.Publishes forward) := by
  have hgrounded := deployed_grounded cfg taps ruleset hostsdir libs
    adapterConfig tokenHash events []
  rw [List.append_nil] at hgrounded
  exact ⟨hgrounded.forwards.forwards, hgrounded.forwards.files⟩

/-! ## Machines that every allocation lists -/

variable {cfg taps ruleset hostsdir libs adapterConfig tokenHash}

theorem History.Describes.vmId_ne
    {config : VmConfig} {tap : String}
    (hdescribes : history.Describes cfg config tap) : config.vmId ≠ "" := by
  obtain ⟨msg, index, calls, req, arguments, -, -, -, -, -, hrequest,
    hfills⟩ := hdescribes
  have hvalid := ValidMachine.of_request hrequest hfills
  intro hempty
  exact (validateVmId_chars hvalid.vmId).1 (by rw [hempty]; rfl)

theorem History.Permits.spares
    {op : ManagerOp} {id : String}
    (hlisted : ∀ allocation, history.Received allocation →
      id ∈ allocation.allVms)
    (hpermits : history.Permits cfg op) : Spares id op := by
  cases op with
  | deleteVm calls other =>
      rintro rfl
      obtain ⟨allocation, hreceived, hunlisted⟩ :=
        hpermits.deletes calls other rfl
      exact hunlisted (hlisted allocation hreceived)
  | restart calls => exact absurd rfl (hpermits.running calls)
  | createVm calls config requestedIpv6 numaHint => trivial
  | addPortForward calls vmId hostPort vmPort protocol => trivial
  | removePortForward calls hostPort protocol => trivial

/-- A restart of the node reads the state file of the machine. -/
def ReadsFile (id : String) (event : DeploymentEvent) : Prop :=
  ∀ calls, event = .restartNode calls →
    calls.readDir = .ok () ∧ calls.readable (stateFile id) = true

theorem KeepsVm.event
    {state : Deployment cfg} {event : DeploymentEvent} {id : String}
    {config : VmConfig} (hevent : event ∈ history.events)
    (hlisted : ∀ allocation, history.Received allocation →
      id ∈ allocation.allVms)
    (hreads : ReadsFile id event) (hne : id ≠ "")
    (hgrounded : Grounded history state)
    (hkeeps : KeepsVm state.node id config) :
    KeepsVm (state.step history.libs event).node id config := by
  cases event with
  | message msg => exact hkeeps
  | request request =>
      simp only [Deployment.step]
      cases acceptedAllocation history.libs state.agent request with
      | none => exact hkeeps
      | some allocation => exact hkeeps
  | advance index calls =>
      simp only [Deployment.step]
      cases hstage : state.requests[index]? with
      | none => exact hkeeps
      | some stage =>
          have hreaches := (hgrounded.advance hevent hstage).reaches
          exact KeepsVm.reaches
            (hreaches.mono fun _ hpermits => hpermits.spares hlisted)
            hgrounded.machines.named hne hkeeps
  | restartNode calls =>
      exact hkeeps.restart hgrounded.machines.named hne
        (hreads calls rfl)
  | restartAgent => exact hkeeps

/-- A machine that every authentic allocation lists is not lost: whatever
requests are in progress and whatever arrives or is restarted, it stays
registered and saved with its configuration. -/
theorem allocated_machine_stays
    (before after : List DeploymentEvent) {id : String}
    {handle : VmHandle} {persisted : PersistedVm}
    (hvm : (deployed cfg taps ruleset hostsdir libs adapterConfig tokenHash
      before).node.vms.lookup id = some handle)
    (hfile : (deployed cfg taps ruleset hostsdir libs adapterConfig
      tokenHash before).node.stateDir.lookup (stateFile id) =
        some persisted)
    (hsaved : persisted.config = handle.config)
    (hlisted : ∀ allocation,
      History.Received ⟨libs, adapterConfig, tokenHash, before ++ after⟩
        allocation → id ∈ allocation.allVms)
    (hreads : ∀ event ∈ after, ReadsFile id event) :
    KeepsVm (deployed cfg taps ruleset hostsdir libs adapterConfig tokenHash
      (before ++ after)).node id handle.config := by
  let history : History :=
    ⟨libs, adapterConfig, tokenHash, before ++ after⟩
  have hgrounded : Grounded history (deployed cfg taps ruleset hostsdir
      libs adapterConfig tokenHash before) :=
    deployed_grounded cfg taps ruleset hostsdir libs adapterConfig
      tokenHash before after
  have hne : id ≠ "" := by
    obtain ⟨hid, hdescribes⟩ := hgrounded.machines.vms id handle hvm
    rw [← hid]
    exact hdescribes.vmId_ne
  have hstep : ∀ (state : Deployment cfg) (event : DeploymentEvent),
      Grounded history state ∧ KeepsVm state.node id handle.config →
      event ∈ history.events ∧ ReadsFile id event →
      Grounded history (state.step libs event) ∧
        KeepsVm (state.step libs event).node id handle.config := by
    intro state event hbefore hevent
    exact ⟨hbefore.1.step hevent.1,
      KeepsVm.event hevent.1 hlisted hevent.2 hne hbefore.1 hbefore.2⟩
  have hevents : ∀ event ∈ after,
      event ∈ history.events ∧ ReadsFile id event :=
    fun event hevent =>
      ⟨List.mem_append_right before hevent, hreads event hevent⟩
  rw [deployed, run_append]
  exact (run_invariant_of_along hstep
    ⟨hgrounded, ⟨handle, hvm, rfl⟩, persisted, hfile, hsaved⟩
    (along_of_forall hevents _)).2

end Runs

/-! A machine is started, the node is restarted while a second request for
the same machine is in progress, and that request goes on. -/

def startingEvents : List DeploymentEvent :=
  [.message (instanceNamed "vm-a"), .request ⟨none, sampleBody⟩] ++
    List.replicate 3 (.advance 0 everyCallSucceeds)

def followingEvents : List DeploymentEvent :=
  [.request ⟨none, sampleBody⟩, .advance 1 everyCallSucceeds,
    .restartNode restartAfterReboot, .advance 1 everyCallSucceeds]

def sampleDeployed (events : List DeploymentEvent) : Deployment pagedHost :=
  deployed pagedHost ∅ supervisorRuleset ∅ sampleLibs
    ⟨"/boot/vmlinuz", "/boot/initrd"⟩ none events

theorem allocated_machine_stays_over_restart :
    ∃ handle,
      (sampleDeployed startingEvents).node.vms.lookup "vm-a" =
        some handle ∧
      KeepsVm (sampleDeployed (startingEvents ++ followingEvents)).node
        "vm-a" handle.config := by
  have hstarted : ((sampleDeployed startingEvents).node.vms.lookup
        "vm-a").isSome = true ∧
      ((sampleDeployed startingEvents).node.stateDir.lookup
        (stateFile "vm-a")).map PersistedVm.config =
      ((sampleDeployed startingEvents).node.vms.lookup "vm-a").map
        VmHandle.config := by
    decide +kernel
  obtain ⟨handle, hvm⟩ := Option.isSome_iff_exists.mp hstarted.1
  have hconfig := hstarted.2
  rw [hvm, Option.map_some, Option.map_eq_some_iff] at hconfig
  obtain ⟨persisted, hfile, hsaved⟩ := hconfig
  refine ⟨handle, hvm, ?_⟩
  apply allocated_machine_stays startingEvents followingEvents hvm hfile
    hsaved
  · intro allocation hreceived
    obtain ⟨request, -, -, hparse⟩ := hreceived
    simp only [sampleLibs] at hparse
    split_ifs at hparse
    cases hparse
    decide
  · intro event hevent calls hrestart
    rw [hrestart] at hevent
    simp only [followingEvents, List.mem_cons, List.not_mem_nil,
      reduceCtorEq, DeploymentEvent.restartNode.injEq, or_false,
      false_or] at hevent
    rw [hevent]
    exact ⟨rfl, rfl⟩

end AlephCvm.Agent
