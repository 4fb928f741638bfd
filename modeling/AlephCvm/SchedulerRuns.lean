import AlephCvm.AllocationReports
import AlephCvm.ServiceRuns

/-!
# Runs of an agent and its node

The agent handles its requests concurrently: between two steps of one
request, others act on the node, messages are registered, and the agent or
the node is restarted.  A run is any order of such steps.  A request advances
by one call to the node or one look at the messages; the agent holds its
client from the creation of a machine to the last of its forwards, and the
runs here allow more orders than that.

Two things hold of every run.  What the node has, it has for a reason: a
message was registered for each machine and each forward, and an authentic
allocation lists it.  And what every authentic allocation lists, the node
does not lose.
-/

namespace AlephCvm.Agent

open ResultContext TableFolds StepRuns AlephCvm.Tee AlephCvm.Net
open AlephCvm.Nft AlephCvm.Vm AlephCvm.Grpc

variable {cfg : NodeConfig}

/-! ## Requests in progress -/

/-- The variables of the handler once it has compared its allocation with
the listed machines. -/
structure Handling where
  allocation : Allocation
  actions : ReconcileActions
  errors : List String

def Handling.failed (handling : Handling) (error : String) : Handling :=
  { handling with errors := handling.errors ++ [error] }

inductive RequestStage where
  | listing (allocation : Allocation)
  | acting (handling : Handling) (toStop toStart : List ItemHash)
  | starting (handling : Handling) (vmHash : ItemHash)
      (msg : ExecutableMessage) (toStart : List ItemHash)
  | forwarding (handling : Handling) (vmHash : ItemHash)
      (requests : List (AddPortForwardRequest × ℕ))
      (toStart : List ItemHash)
  | answered (response : Except Failure AllocationResponse)

/-- The allocation that the handler goes on with. -/
def acceptedAllocation (libs : AgentLibs) (agent : AgentState)
    (request : AllocationRequest) : Option Allocation :=
  let authorized :=
    match agent.allocationTokenHash with
    | none => true
    | some tokenHash => verifyAllocationSignature libs request.body
        (request.signature.getD "") tokenHash
  if authorized then (libs.parseAllocation request.body).toOption
  else none

theorem acceptedAllocation_eq_some_iff
    {libs : AgentLibs} {agent : AgentState} {request : AllocationRequest}
    {allocation : Allocation} :
    acceptedAllocation libs agent request = some allocation ↔
      (∀ tokenHash, agent.allocationTokenHash = some tokenHash →
        verifyAllocationSignature libs request.body
          (request.signature.getD "") tokenHash = true) ∧
        libs.parseAllocation request.body = .ok allocation := by
  have hparsed : (libs.parseAllocation request.body).toOption =
      some allocation ↔
        libs.parseAllocation request.body = .ok allocation := by
    cases libs.parseAllocation request.body with
    | error message => simp [Except.toOption]
    | ok parsed => simp [Except.toOption]
  unfold acceptedAllocation
  cases htoken : agent.allocationTokenHash with
  | none => simp [hparsed]
  | some tokenHash => simp [hparsed, Option.ite_none_right_eq_some]

section Advance

variable (libs : AgentLibs) (agent : AgentState) (calls : AllocationCalls)

def advanceListing (node : Node cfg) (allocation : Allocation) :
    Node cfg × RequestStage :=
  match callNode libs calls.listRpc node
      (.ok (listedVms node calls), node) with
  | (.error message, node) =>
      (node, .answered
        (.ok (.unreachable s!"compute node unreachable: {message}")))
  | (.ok running, node) =>
      let actions := reconcile calls.desiredOrder calls.runningOrder
        allocation running
      (node, .acting ⟨allocation, actions, []⟩ actions.toStop
        actions.toStart)

def advanceStop (node : Node cfg) (handling : Handling) (vmId : ItemHash)
    (toStop toStart : List ItemHash) : Node cfg × RequestStage :=
  match callNode libs (calls.stop vmId).rpc node
      (Grpc.deleteVm node (calls.stop vmId).delete vmId) with
  | (.error message, node) =>
      (node, .acting (handling.failed s!"stop {vmId}: {message}") toStop
        toStart)
  | (.ok (), node) => (node, .acting handling toStop toStart)

/-- The message is copied out of the table before it is translated. -/
def advanceLookup (node : Node cfg) (handling : Handling)
    (vmHash : ItemHash) (toStart : List ItemHash) :
    Node cfg × RequestStage :=
  match agent.messages.entries.lookup vmHash with
  | none =>
      (node, .acting (handling.failed s!"start {vmHash}: message not found")
        [] toStart)
  | some msg => (node, .starting handling vmHash msg toStart)

def advanceStart (node : Node cfg) (handling : Handling)
    (vmHash : ItemHash) (msg : ExecutableMessage)
    (toStart : List ItemHash) : Node cfg × RequestStage :=
  let calls := calls.start vmHash
  match translateMessage calls.cache agent.adapterConfig msg with
  | .error message =>
      (node, .acting (handling.failed s!"translate {vmHash}: {message}") []
        toStart)
  | .ok req =>
      match callNode libs calls.rpc node
          (Grpc.createVm node calls.pathExists calls.create req) with
      | (.error message, node) =>
          (node, .acting (handling.failed s!"start {vmHash}: {message}") []
            toStart)
      | (.ok _, node) =>
          (node, .forwarding handling vmHash
            (translatePortForwards msg).zipIdx toStart)

def advanceForward (node : Node cfg) (handling : Handling)
    (vmHash : ItemHash) (entry : AddPortForwardRequest × ℕ)
    (requests : List (AddPortForwardRequest × ℕ))
    (toStart : List ItemHash) : Node cfg × RequestStage :=
  ((callNode libs ((calls.start vmHash).forwardRpc entry.2) node
    (Grpc.addPortForward node ((calls.start vmHash).forward entry.2)
      entry.1)).2, .forwarding handling vmHash requests toStart)

def advanceRequest (node : Node cfg) : RequestStage →
    Node cfg × RequestStage
  | .listing allocation => advanceListing libs calls node allocation
  | .acting handling (vmId :: toStop) toStart =>
      advanceStop libs calls node handling vmId toStop toStart
  | .acting handling [] (vmHash :: toStart) =>
      advanceLookup agent node handling vmHash toStart
  | .acting handling [] [] =>
      (node, .answered
        (allocationResponse handling.actions handling.errors))
  | .starting handling vmHash msg toStart =>
      advanceStart libs agent calls node handling vmHash msg toStart
  | .forwarding handling vmHash (entry :: requests) toStart =>
      advanceForward libs calls node handling vmHash entry requests toStart
  | .forwarding handling _ [] toStart =>
      (node, .acting handling [] toStart)
  | .answered response => (node, .answered response)

end Advance

/-! ## Events -/

structure Deployment (cfg : NodeConfig) where
  node : Node cfg
  agent : AgentState
  requests : List RequestStage

inductive DeploymentEvent where
  | message (msg : ExecutableMessage)
  | request (request : AllocationRequest)
  | advance (index : ℕ) (calls : AllocationCalls)
  | restartNode (calls : RestartCalls)
  | restartAgent

theorem keyed_empty (hash : ItemHash) (msg : ExecutableMessage)
    (hlookup : AList.lookup hash
      (∅ : AList fun _ : ItemHash => ExecutableMessage) = some msg) :
    msg.itemHash = hash := by
  cases hlookup

def Deployment.step (libs : AgentLibs) (state : Deployment cfg) :
    DeploymentEvent → Deployment cfg
  | .message msg => { state with
      agent := { state.agent with
        messages := state.agent.messages.register msg } }
  | .request request =>
      match acceptedAllocation libs state.agent request with
      | none => state
      | some allocation => { state with
          requests := state.requests ++ [.listing allocation] }
  | .advance index calls =>
      match state.requests[index]? with
      | none => state
      | some stage =>
          let (node, stage) :=
            advanceRequest libs state.agent calls state.node stage
          { state with
            node := node
            requests := state.requests.set index stage }
  | .restartNode calls => { state with node := state.node.restart calls }
  | .restartAgent => { state with
      agent := { state.agent with messages := ⟨∅, keyed_empty⟩ }
      requests := [] }

/-- A fresh node and an agent that knows no messages. -/
def Deployment.fresh (cfg : NodeConfig) (taps : Finset String)
    (ruleset : Ruleset) (hostsdir : AList fun _ : String => String)
    (adapterConfig : AdapterConfig) (tokenHash : Option Bytes) :
    Deployment cfg where
  node := .fresh cfg taps ruleset hostsdir ∅
  agent := ⟨⟨∅, keyed_empty⟩, adapterConfig, tokenHash⟩
  requests := []

/-! ## A request that nothing interrupts -/

/-- The node and the stage of one request. -/
def advanceAlone (libs : AgentLibs) (agent : AgentState)
    (state : Node cfg × RequestStage) (calls : AllocationCalls) :
    Node cfg × RequestStage :=
  advanceRequest libs agent calls state.1 state.2

section Alone

variable (libs : AgentLibs) (agent : AgentState) (calls : AllocationCalls)

variable {libs agent calls} in
theorem advance_alone
    {before after : Node cfg × RequestStage}
    (hrest : Reaches (advanceAlone libs agent) (· = calls)
      (advanceAlone libs agent before calls) after) :
    Reaches (advanceAlone libs agent) (· = calls) before after :=
  Reaches.trans (Reaches.single (Eq.refl calls)) hrest

theorem stops_alone
    (handling : Handling) (toStart toStop : List ItemHash)
    (node : Node cfg) :
    Reaches (advanceAlone libs agent) (· = calls)
      (node, .acting handling toStop toStart)
      ((toStop.foldl (stopVm libs calls) (node, handling.errors)).1,
        .acting { handling with errors := (toStop.foldl (stopVm libs calls)
          (node, handling.errors)).2 } [] toStart) := by
  induction toStop generalizing node handling with
  | nil => exact .refl _
  | cons vmId toStop ih =>
      apply advance_alone
      rw [List.foldl_cons]
      simp only [advanceAlone, advanceRequest, advanceStop, stopVm]
      rcases callNode libs (calls.stop vmId).rpc node
        (Grpc.deleteVm node (calls.stop vmId).delete vmId) with
        ⟨answer, after⟩
      cases answer with
      | error message => exact ih (handling.failed _) after
      | ok done => exact ih handling after

theorem forwards_alone
    (handling : Handling) (vmHash : ItemHash) (toStart : List ItemHash)
    (requests : List (AddPortForwardRequest × ℕ)) (node : Node cfg) :
    Reaches (advanceAlone libs agent) (· = calls)
      (node, .forwarding handling vmHash requests toStart)
      (requests.foldl (fun node entry =>
        (callNode libs ((calls.start vmHash).forwardRpc entry.2) node
          (Grpc.addPortForward node ((calls.start vmHash).forward entry.2)
            entry.1)).2) node, .acting handling [] toStart) := by
  induction requests generalizing node with
  | nil => exact advance_alone (.refl _)
  | cons entry requests ih =>
      apply advance_alone
      exact ih _

theorem starts_alone
    (handling : Handling) (toStart : List ItemHash) (node : Node cfg) :
    Reaches (advanceAlone libs agent) (· = calls)
      (node, .acting handling [] toStart)
      ((toStart.foldl (startVm libs agent calls)
        (node, handling.errors)).1,
        .acting { handling with errors :=
          (toStart.foldl (startVm libs agent calls)
            (node, handling.errors)).2 } [] []) := by
  induction toStart generalizing node handling with
  | nil => exact .refl _
  | cons vmHash toStart ih =>
      apply advance_alone
      rw [List.foldl_cons]
      simp only [advanceAlone, advanceRequest, advanceLookup, startVm]
      cases hlookup : agent.messages.entries.lookup vmHash with
      | none => exact ih (handling.failed _) _
      | some msg =>
          apply advance_alone
          simp only [advanceAlone, advanceRequest, advanceStart]
          cases htranslate : translateMessage (calls.start vmHash).cache
              agent.adapterConfig msg with
          | error message => exact ih (handling.failed _) _
          | ok req =>
              simp only
              rcases callNode libs (calls.start vmHash).rpc node
                (Grpc.createVm node (calls.start vmHash).pathExists
                  (calls.start vmHash).create req) with ⟨answer, after⟩
              cases answer with
              | error message => exact ih (handling.failed _) after
              | ok info =>
                  exact (forwards_alone libs agent calls handling vmHash
                    toStart _ after).trans (ih handling _)

variable {libs agent calls} in
theorem handleAllocation_unlisted
    {request : AllocationRequest} {allocation : Allocation}
    (haccepted : acceptedAllocation libs agent request = some allocation)
    (message : String) (node : Node cfg)
    (hlist : calls.listRpc = .unreachable message ∨
      calls.listRpc = .lost message) :
    handleAllocation libs agent calls node request =
      (.ok (.unreachable s!"compute node unreachable: {message}"),
        node) := by
  obtain ⟨hauthorized, hparse⟩ :=
    acceptedAllocation_eq_some_iff.mp haccepted
  have hpasses := authorized_iff.mpr hauthorized
  unfold handleAllocation
  rcases hlist with hlist | hlist
  · simp only [hparse, hlist, callNode]
    exact if_neg (ne_of_eq_of_ne hpasses (by decide))
  · simp only [hparse, hlist, callNode]
    exact if_neg (ne_of_eq_of_ne hpasses (by decide))

theorem listing_alone
    (allocation : Allocation) (node : Node cfg) (request : AllocationRequest)
    (haccepted : acceptedAllocation libs agent request = some allocation) :
    Reaches (advanceAlone libs agent) (· = calls)
      (node, .listing allocation)
      ((handleAllocation libs agent calls node request).2,
        .answered (handleAllocation libs agent calls node request).1) := by
  obtain ⟨hauthorized, hparse⟩ :=
    acceptedAllocation_eq_some_iff.mp haccepted
  apply advance_alone
  simp only [advanceAlone, advanceRequest, advanceListing]
  cases hlist : calls.listRpc with
  | unreachable message =>
      rw [handleAllocation_unlisted haccepted message node (.inl hlist)]
      exact .refl _
  | lost message =>
      rw [handleAllocation_unlisted haccepted message node (.inr hlist)]
      exact .refl _
  | answered =>
      rw [handleAllocation_processed ⟨hauthorized, hparse, hlist⟩ node]
      simp only [callNode, applyActions]
      apply (stops_alone libs agent calls _ _ _ node).trans
      apply (starts_alone libs agent calls _ _ _).trans
      exact advance_alone (.refl _)

end Alone

theorem acceptedAllocation_none
    {libs : AgentLibs} {agent : AgentState} {request : AllocationRequest}
    (hnone : acceptedAllocation libs agent request = none)
    (calls : AllocationCalls) (node : Node cfg) :
    (handleAllocation libs agent calls node request).2 = node := by
  unfold handleAllocation
  dsimp only
  split_ifs with hauthorized
  · rfl
  · rw [Bool.not_eq_false] at hauthorized
    cases hparse : libs.parseAllocation request.body with
    | error message => rfl
    | ok allocation =>
        rw [acceptedAllocation_eq_some_iff.mpr
          ⟨authorized_iff.mp hauthorized, hparse⟩] at hnone
        cases hnone

/-- The node, and the stage of the request that arrived last. -/
def Deployment.withLast (state : Deployment cfg)
    (last : Node cfg × RequestStage) : Deployment cfg :=
  { state with
    node := last.1
    requests := state.requests ++ [last.2] }

/-- A request whose steps nothing interrupts leaves the node that the
handler leaves, and ends with its response. -/
theorem request_alone
    (libs : AgentLibs) (calls : AllocationCalls)
    (state : Deployment cfg) (request : AllocationRequest) :
    Reaches (Deployment.step libs)
      (fun event => event = .advance state.requests.length calls)
      (state.step libs (.request request))
      { state with
        node := (handleAllocation libs state.agent calls state.node
          request).2
        requests := state.requests ++
          (acceptedAllocation libs state.agent request).toList.map fun _ =>
            .answered (handleAllocation libs state.agent calls state.node
              request).1 } := by
  cases haccepted : acceptedAllocation libs state.agent request with
  | none =>
      simp only [Deployment.step, haccepted, Option.toList_none,
        List.map_nil, List.append_nil,
        acceptedAllocation_none haccepted calls state.node]
      exact .refl state
  | some allocation =>
      have hlarger : ∀ (alone : Node cfg × RequestStage)
          (other : AllocationCalls), other = calls →
          Deployment.step libs (state.withLast alone)
            (.advance state.requests.length other) =
          state.withLast
            (advanceAlone libs state.agent alone other) := by
        intro alone other _
        simp [Deployment.step, Deployment.withLast, advanceAlone]
      have halone := (listing_alone libs state.agent calls allocation
        state.node request haccepted).embed hlarger
      simp only [Deployment.step, haccepted, Option.toList_some,
        List.map_cons, List.map_nil]
      apply halone.mono
      rintro event ⟨other, rfl, rfl⟩
      rfl

end AlephCvm.Agent
