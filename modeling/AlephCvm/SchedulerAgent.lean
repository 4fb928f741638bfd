import Mathlib.Data.Finset.Sort
import Mathlib.Data.String.Basic
import AlephCvm.MessageAdapter

/-!
# The scheduler agent

Model of `handle_allocation` in `aleph-scheduler-agent/src/main.rs` and of
`aleph/allocations.rs`.  The agent asks the compute node for its machines,
compares their ids with the allocation, and issues one call for each machine
to stop or to start.  Every call goes through a channel that may fail before
or after the node has executed it.

JSON parsing, the HMAC and the text of a gRPC status come from libraries and
are parameters.
-/

namespace AlephCvm.Agent

open ResultContext AlephCvm.Tee AlephCvm.Vm AlephCvm.Grpc

variable {cfg : NodeConfig}

/-! ## Allocations -/

structure Allocation where
  persistentVms : Finset ItemHash
  instances : Finset ItemHash
  deriving DecidableEq

def Allocation.allVms (allocation : Allocation) : Finset ItemHash :=
  allocation.persistentVms ∪ allocation.instances

structure AgentLibs where
  hmacSha256 : Bytes → Bytes → Bytes
  parseAllocation : Bytes → Except String Allocation
  failureText : CallFailure → String

def verifyAllocationSignature (libs : AgentLibs) (body : Bytes)
    (signature : String) (tokenHash : Bytes) : Bool :=
  match hexDecode signature with
  | .error _ => false
  | .ok bytes => bytes == libs.hmacSha256 tokenHash body

structure ReconcileActions where
  toStart : List ItemHash
  toStop : List ItemHash
  unchanged : List ItemHash
  deriving DecidableEq, Repr

/-- The elements of a hash set in some order. -/
def elements (order : IterationOrder) (set : Finset String) : List String :=
  order.arrange (set.sort (· ≤ ·))

def reconcile (desiredOrder runningOrder : IterationOrder)
    (allocation : Allocation) (running : Finset ItemHash) :
    ReconcileActions where
  toStart := (elements desiredOrder allocation.allVms).filter fun hash =>
    decide (hash ∉ running)
  toStop := (elements runningOrder running).filter fun hash =>
    decide (hash ∉ allocation.allVms)
  unchanged := (elements runningOrder running).filter fun hash =>
    decide (hash ∈ allocation.allVms)

/-! ## State of the agent -/

/-- The registered messages, each under its own hash. -/
structure MessageTable where
  entries : AList fun _ : ItemHash => ExecutableMessage
  keyed : ∀ hash msg, entries.lookup hash = some msg → msg.itemHash = hash

/-- `handle_message`. -/
def MessageTable.register (table : MessageTable)
    (msg : ExecutableMessage) : MessageTable where
  entries := table.entries.insert msg.itemHash msg
  keyed := by
    intro hash found hlookup
    rcases TableFolds.lookup_insert_iff.mp hlookup with
      ⟨hhash, hfound⟩ | ⟨_, hold⟩
    · rw [hhash, hfound]
    · exact table.keyed hash found hold

structure AgentState where
  messages : MessageTable
  adapterConfig : AdapterConfig
  allocationTokenHash : Option Bytes

/-! ## Calls to the compute node -/

/-- How a call went through the channel: it may not reach the node, or its
answer may be lost. -/
inductive RpcOutcome where
  | answered
  | unreachable (message : String)
  | lost (message : String)
  deriving DecidableEq, Repr

def callNode {α : Type} (libs : AgentLibs) (outcome : RpcOutcome)
    (node : Node cfg) (call : Except CallFailure α × Node cfg) :
    Except String α × Node cfg :=
  match outcome with
  | .unreachable message => (.error message, node)
  | .lost message => (.error message, call.2)
  | .answered =>
      match call.1 with
      | .error failure => (.error (libs.failureText failure), call.2)
      | .ok value => (.ok value, call.2)

structure StopCalls where
  rpc : RpcOutcome
  delete : DeleteCalls

structure StartCalls where
  cache : CacheAnswers
  rpc : RpcOutcome
  pathExists : String → Bool
  create : CreateCalls
  forwardRpc : ℕ → RpcOutcome
  forward : ℕ → ForwardCalls

/-- What happens outside the agent during one allocation request. -/
structure AllocationCalls where
  listRpc : RpcOutcome
  listOrder : IterationOrder
  now : ℕ
  desiredOrder : IterationOrder
  runningOrder : IterationOrder
  stop : ItemHash → StopCalls
  start : ItemHash → StartCalls

/-! ## Handling an allocation -/

/-- The node and the errors collected so far. -/
abbrev Progress (cfg : NodeConfig) := Node cfg × List String

def stopVm (libs : AgentLibs) (calls : AllocationCalls)
    (progress : Progress cfg) (vmId : ItemHash) : Progress cfg :=
  let (node, errors) := progress
  match callNode libs (calls.stop vmId).rpc node
      (Grpc.deleteVm node (calls.stop vmId).delete vmId) with
  | (.error message, node) => (node, errors ++ [s!"stop {vmId}: {message}"])
  | (.ok (), node) => (node, errors)

/-- The published ports are forwarded one by one; failures are logged. -/
def addForwards (libs : AgentLibs) (calls : StartCalls) (node : Node cfg)
    (requests : List AddPortForwardRequest) : Node cfg :=
  requests.zipIdx.foldl
    (fun node entry => (callNode libs (calls.forwardRpc entry.2) node
      (Grpc.addPortForward node (calls.forward entry.2) entry.1)).2)
    node

def startVm (libs : AgentLibs) (agent : AgentState)
    (calls : AllocationCalls) (progress : Progress cfg)
    (vmHash : ItemHash) : Progress cfg :=
  let (node, errors) := progress
  let calls := calls.start vmHash
  match agent.messages.entries.lookup vmHash with
  | none => (node, errors ++ [s!"start {vmHash}: message not found"])
  | some msg =>
      match translateMessage calls.cache agent.adapterConfig msg with
      | .error message =>
          (node, errors ++ [s!"translate {vmHash}: {message}"])
      | .ok req =>
          match callNode libs calls.rpc node
              (Grpc.createVm node calls.pathExists calls.create req) with
          | (.error message, node) =>
              (node, errors ++ [s!"start {vmHash}: {message}"])
          | (.ok _, node) =>
              (addForwards libs calls node (translatePortForwards msg),
                errors)

inductive AllocationResponse where
  | unauthorized
  | badRequest (message : String)
  | unreachable (message : String)
  | ok (started stopped unchanged : ℕ)
  | multiStatus (started stopped unchanged : ℕ) (errors : List String)
  deriving DecidableEq, Repr

/-- A subtraction of `usize` that overflows is a panic. -/
def checkedSub (total failed : ℕ) : Except Failure ℕ :=
  if failed ≤ total then .ok (total - failed)
  else .error (.panicked "attempt to subtract with overflow")

def countErrors (kind : String) (errors : List String) : ℕ :=
  (errors.filter fun error => error.startsWith kind).length

def allocationResponse (actions : ReconcileActions)
    (errors : List String) : Except Failure AllocationResponse :=
  if errors.isEmpty then
    .ok (.ok actions.toStart.length actions.toStop.length
      actions.unchanged.length)
  else do
    let started ← checkedSub actions.toStart.length
      (countErrors "start" errors)
    let stopped ← checkedSub actions.toStop.length
      (countErrors "stop" errors)
    return .multiStatus started stopped actions.unchanged.length errors

structure AllocationRequest where
  signature : Option String
  body : Bytes

def applyActions (libs : AgentLibs) (agent : AgentState)
    (calls : AllocationCalls) (node : Node cfg)
    (actions : ReconcileActions) : Progress cfg :=
  actions.toStart.foldl (startVm libs agent calls)
    (actions.toStop.foldl (stopVm libs calls) (node, []))

/-- The ids that `ListVms` reports, whatever their status. -/
def listedVms (node : Node cfg) (calls : AllocationCalls) :
    Finset ItemHash :=
  ((Grpc.listVms node calls.listOrder calls.now).map
    ProtoVmInfo.vmId).toFinset

def handleAllocation (libs : AgentLibs) (agent : AgentState)
    (calls : AllocationCalls) (node : Node cfg)
    (request : AllocationRequest) :
    Except Failure AllocationResponse × Node cfg :=
  let authorized :=
    match agent.allocationTokenHash with
    | none => true
    | some tokenHash => verifyAllocationSignature libs request.body
        (request.signature.getD "") tokenHash
  if authorized = false then (.ok .unauthorized, node)
  else
    match libs.parseAllocation request.body with
    | .error message =>
        (.ok (.badRequest s!"invalid allocation JSON: {message}"), node)
    | .ok allocation =>
        match callNode libs calls.listRpc node
            (.ok (listedVms node calls), node) with
        | (.error message, node) =>
            (.ok (.unreachable s!"compute node unreachable: {message}"),
              node)
        | (.ok running, node) =>
            let actions := reconcile calls.desiredOrder calls.runningOrder
              allocation running
            let (node, errors) := applyActions libs agent calls node actions
            (allocationResponse actions errors, node)

end AlephCvm.Agent
