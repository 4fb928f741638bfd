import Mathlib.Data.List.DropRight
import AlephCvm.NodeHashDiscovery
import AlephCvm.RecordFields
import AlephCvm.ResultContext

/-!
# Registrations of a node

Model of `discover_node_hash` and `resolve_initial_hash` in
`aleph-scheduler-agent/src/aleph/node_hash.rs`, and of what `cmd_run` in
`src/main.rs` does with them.  A query of the discovery task is answered with
posts.  The process starts with the flag or with the cache file, and it stops
and starts again between any two steps of the discovery task, the SIGHUP
handler and the `set-node-hash` command.
-/

namespace AlephCvm.Agent

open StepRuns JsonRecords ResultContext AlephCvm.Qemu

variable {Hash : Type}

/-! ## Posts -/

structure CrnDetails where
  name : Option String
  address : Option String
  deriving DecidableEq, Repr

structure CorechanContent where
  action : Option String
  details : Option CrnDetails
  deriving DecidableEq, Repr

structure PostV0 (Hash : Type) where
  content : Json
  originalItemHash : Hash

structure PostFilter where
  addresses : List String
  postTypes : List String
  pagination : ℕ
  deriving DecidableEq, Repr

structure DiscoveredNode (Hash : Type) where
  hash : Hash
  name : String
  address : String

/-- How hashes are written as texts, and the lower-case mapping of
Unicode. -/
structure PostLibs (Hash : Type) where
  text : HashText Hash
  toLowercase : String → String

def CrnDetails.deserialize (json : Json) : Option CrnDetails := do
  let fields ← source 2 json
  let name ← fields.optional "name" 0 readString
  let address ← fields.optional "address" 1 readString
  return ⟨name, address⟩

def CorechanContent.deserialize (json : Json) : Option CorechanContent := do
  let fields ← source 2 json
  let action ← fields.optional "action" 0 readString
  let details ← fields.optional "details" 1 CrnDetails.deserialize
  return ⟨action, details⟩

def CorechanContent.address (content : CorechanContent) : Option String :=
  content.details.bind CrnDetails.address

def parseCrnPost (post : PostV0 Hash) : Option CorechanContent := do
  let content ← CorechanContent.deserialize post.content
  if content.action = some "create-resource-node" then some content else none

def normalizeUrl (toLowercase : String → String) (url : String) : String :=
  toLowercase (String.ofList (url.toList.rdropWhile (· == '/')))

/-- The posts of the owner that the query asks for. -/
def corechanOperations (ownerAddress : String) : PostFilter where
  addresses := [ownerAddress]
  postTypes := ["corechan-operation"]
  pagination := 200

/-- No registration under the URL of the node, or several, is no answer. -/
def discoverNodeHash (toLowercase : String → String)
    (getPostsV0 : PostFilter → Except String (List (PostV0 Hash)))
    (ownerAddress domainName : String) :
    Except String (Option (DiscoveredNode Hash)) := do
  let posts ← context "querying Aleph posts API"
    (getPostsV0 (corechanOperations ownerAddress))
  let expectedUrl := normalizeUrl toLowercase ("https://" ++ domainName)
  let createOps := posts.filterMap fun post =>
    (parseCrnPost post).map fun content => (post, content)
  let found := createOps.filter fun op =>
    op.2.address.any fun address =>
      normalizeUrl toLowercase address == expectedUrl
  match found with
  | [(post, content)] => return some {
      hash := post.originalItemHash
      name := (content.details.bind CrnDetails.name).getD "unnamed"
      address := content.address.getD "" }
  | _ => return none

/-- The post registers a node under the URL of the domain. -/
def PostV0.Registers (toLowercase : String → String) (domainName : String)
    (post : PostV0 Hash) : Prop :=
  ∃ content address, parseCrnPost post = some content ∧
    content.address = some address ∧
    normalizeUrl toLowercase address =
      normalizeUrl toLowercase ("https://" ++ domainName)

/-- One of the posts registers the domain, with this hash, and no other post
does. -/
def SoleRegistration (toLowercase : String → String) (domainName : String)
    (posts : List (PostV0 Hash)) (hash : Hash) : Prop :=
  ∃ before post after, posts = before ++ post :: after ∧
    post.Registers toLowercase domainName ∧
    (∀ other ∈ before ++ after, ¬ other.Registers toLowercase domainName) ∧
    post.originalItemHash = hash

/-- Reads a post as a registration of the domain. -/
def registration (toLowercase : String → String) (domainName : String)
    (post : PostV0 Hash) : Option (PostV0 Hash × CorechanContent) :=
  ((parseCrnPost post).map fun content => (post, content)).filter fun op =>
    op.2.address.any fun address =>
      normalizeUrl toLowercase address ==
        normalizeUrl toLowercase ("https://" ++ domainName)

theorem registration_eq_some {toLowercase : String → String}
    {domainName : String} {post : PostV0 Hash}
    {op : PostV0 Hash × CorechanContent}
    (hop : registration toLowercase domainName post = some op) :
    op.1 = post ∧ post.Registers toLowercase domainName := by
  rw [registration, Option.filter_eq_some_iff, Option.map_eq_some_iff] at hop
  obtain ⟨⟨content, hcontent, rfl⟩, haddress⟩ := hop
  obtain ⟨address, hfound, hsame⟩ := (Option.any_eq_true _ _).mp haddress
  exact ⟨rfl, content, address, hcontent, hfound, beq_iff_eq.mp hsame⟩

theorem registration_eq_none {toLowercase : String → String}
    {domainName : String} {post : PostV0 Hash}
    (hnone : registration toLowercase domainName post = none) :
    ¬ post.Registers toLowercase domainName := by
  rintro ⟨content, address, hcontent, haddress, hsame⟩
  rw [registration, hcontent] at hnone
  simp [haddress, hsame] at hnone

/-- A hash is discovered only from the one post that registers the
domain. -/
theorem discoverNodeHash_eq_some {toLowercase : String → String}
    {getPostsV0 : PostFilter → Except String (List (PostV0 Hash))}
    {ownerAddress domainName : String} {node : DiscoveredNode Hash}
    (hfound : discoverNodeHash toLowercase getPostsV0 ownerAddress
      domainName = .ok (some node)) :
    ∃ posts, getPostsV0 (corechanOperations ownerAddress) = .ok posts ∧
      SoleRegistration toLowercase domainName posts node.hash := by
  unfold discoverNodeHash at hfound
  obtain ⟨posts, hposts, hnode⟩ := bind_eq_ok.mp hfound
  refine ⟨posts, context_eq_ok.mp hposts, ?_⟩
  simp only [List.filter_filterMap] at hnode
  split at hnode
  · rename_i post content hsole
    obtain ⟨before, head, after, hsplit, hbefore, hhead, hafter⟩ :=
      List.filterMap_eq_cons_iff.mp hsole
    obtain ⟨hsame, hregisters⟩ := registration_eq_some hhead
    refine ⟨before, head, after, hsplit, hregisters, ?_, ?_⟩
    · intro other hother
      apply registration_eq_none
      rcases List.mem_append.mp hother with hearlier | hlater
      · exact hbefore other hearlier
      · exact List.filterMap_eq_nil_iff.mp hafter other hlater
    · simp only [pure, Except.pure, Except.ok.injEq, Option.some.injEq]
        at hnode
      rw [← hnode, ← hsame]
  · simp [pure, Except.pure] at hnode

/-! ## The process -/

/-- The arguments that say which node this is. -/
structure RunArgs where
  nodeHash : Option String
  ownerAddress : Option String
  domainName : Option String
  deriving DecidableEq, Repr

/-- The owner and the domain that the discovery task is started with. -/
def RunArgs.discovery (args : RunArgs) : Option (String × String) :=
  match args.nodeHash, args.ownerAddress, args.domainName with
  | none, some owner, some domain => some (owner, domain)
  | _, _, _ => none

/-- The flag comes before the cache file. -/
def resolveInitialHash (text : HashText Hash) (explicitHash : Option String)
    (file : Option (String × HashOrigin)) :
    Except String (Option (Hash × HashOrigin)) :=
  match explicitHash with
  | some hash => (text.parse hash).map fun hash => some (hash, .operator)
  | none => .ok (readCachedHash text file)

/-- The agent with the arguments of the process, while it runs. -/
structure NodeAgent (Hash : Type) where
  args : Option RunArgs
  system : NodeHashSystem Hash

/-- The process is down, and only the cache file is left. -/
def NodeAgent.down (file : Option (String × HashOrigin)) : NodeAgent Hash :=
  ⟨none, none, file, .stopped, .waiting, false⟩

/-- `ready` says that everything else `cmd_run` does at the start succeeds. -/
def NodeAgent.start (text : HashText Hash) (agent : NodeAgent Hash)
    (args : RunArgs) (readable ready : Bool) : NodeAgent Hash :=
  match resolveInitialHash text args.nodeHash
      (if readable then agent.system.file else none), ready with
  | .ok initial, true => {
      args := some args
      system := {
        nodeHash := initial
        file := agent.system.file
        discovery :=
          if args.discovery.isSome then .checking else .stopped
        handler := .waiting
        installed := false } }
  | _, _ => .down agent.system.file

inductive AgentEvent (Hash : Type) where
  | start (args : RunArgs) (readable ready : Bool)
  | stop
  | check
  | answer (getPostsV0 : PostFilter → Except String (List (PostV0 Hash)))
  | cache (outcome : CacheWrite)
  | publish
  | wake
  | signal (readable : Bool)
  | compare
  | replace
  | setNodeHash (hash : String) (outcome : CacheWrite)

/-- What an event is for the three parties.  A process that is down has no
task that takes a step, and no signal reaches it. -/
def AgentEvent.ofTask (toLowercase : String → String)
    (args : Option RunArgs) : AgentEvent Hash → Option (NodeHashEvent Hash)
  | .start .. | .stop => none
  | .check => some .check
  | .answer getPostsV0 =>
      (args.bind RunArgs.discovery).map fun identity =>
        .answer ((discoverNodeHash toLowercase getPostsV0 identity.1
          identity.2).map fun node => node.map DiscoveredNode.hash)
  | .cache outcome => some (.cache outcome)
  | .publish => some .publish
  | .wake => some .wake
  | .signal readable => args.map fun _ => .signal readable
  | .compare => some .compare
  | .replace => some .replace
  | .setNodeHash hash outcome => some (.setNodeHash hash outcome)

def NodeAgent.step [DecidableEq Hash] (libs : PostLibs Hash)
    (agent : NodeAgent Hash) (event : AgentEvent Hash) : NodeAgent Hash :=
  match event with
  | .start args readable ready => agent.start libs.text args readable ready
  | .stop => .down agent.system.file
  | event =>
      match event.ofTask libs.toLowercase agent.args with
      | none => agent
      | some inner => { agent with
          system := agent.system.step libs.text inner }

/-! ## What one step writes -/

/-- The hash that the discovery task has in hand. -/
def Discovery.hash : Discovery Hash → Option Hash
  | .found hash | .cached hash => some hash
  | _ => none

def Handler.hash : Handler Hash → Option Hash
  | .waiting => none
  | .read hash _ | .replacing hash _ => some hash

/-- The text that a write leaves when it changes the file. -/
def CacheWrite.text (text : HashText Hash) (hash : Hash) :
    CacheWrite → Option String
  | .written => some (text.display hash)
  | .truncated kept =>
      some (String.ofList ((text.display hash).toList.take kept))
  | .refused => none

section Steps

variable {text : HashText Hash} {system : NodeHashSystem Hash}

theorem readCachedHash_eq_some
    {file : Option (String × HashOrigin)} {hash : Hash}
    {origin : HashOrigin}
    (hread : readCachedHash text file = some (hash, origin)) :
    ∃ content, file = some (content, origin) ∧
      text.parse (trimText content) = .ok hash := by
  unfold readCachedHash readCachedHashRaw at hread
  cases file with
  | none => simp at hread
  | some entry =>
      obtain ⟨content, source⟩ := entry
      by_cases hempty : (trimText content).isEmpty = true
      · simp [hempty] at hread
      · cases hparse : text.parse (trimText content) with
        | error message => simp [hempty, hparse] at hread
        | ok found =>
            simp only [hempty, Bool.false_eq_true, if_false, hparse,
              Option.some.injEq, Prod.mk.injEq] at hread
            obtain ⟨rfl, rfl⟩ := hread
            exact ⟨content, rfl, hparse⟩

theorem writeCachedHash_eq_some
    {hash : Hash} {source : HashOrigin} {outcome : CacheWrite}
    {file : Option (String × HashOrigin)} {content : String}
    {origin : HashOrigin}
    (hwrite : writeCachedHash text hash source outcome file =
      some (content, origin)) :
    file = some (content, origin) ∨
      outcome.text text hash = some content := by
  cases outcome with
  | written =>
      right
      simp only [writeCachedHash, Option.some.injEq, Prod.mk.injEq] at hwrite
      rw [CacheWrite.text, hwrite.1]
  | truncated kept =>
      right
      simp only [writeCachedHash, Option.some.injEq, Prod.mk.injEq] at hwrite
      rw [CacheWrite.text, hwrite.1]
  | refused => exact .inl hwrite

variable [DecidableEq Hash] {event : NodeHashEvent Hash}

/-- The shared state comes from the task or from the handler. -/
theorem NodeHashSystem.step_nodeHash {hash : Hash} {origin : HashOrigin}
    (hafter : (system.step text event).nodeHash = some (hash, origin)) :
    system.nodeHash = some (hash, origin) ∨
      system.discovery.hash = some hash ∨
      system.handler.hash = some hash := by
  cases event with
  | publish =>
      simp only [step, publish] at hafter
      split at hafter
      · rename_i found hdiscovery
        cases hafter
        exact .inr (.inl (by rw [hdiscovery]; rfl))
      · exact .inl hafter
  | replace =>
      simp only [step, replace] at hafter
      split at hafter
      · rename_i found source hhandler
        cases hafter
        exact .inr (.inr (by rw [hhandler]; rfl))
      · exact .inl hafter
  | signal readable =>
      simp only [step, signal] at hafter
      split at hafter
      · split at hafter <;> exact .inl hafter
      · exact .inl hafter
  | check | answer _ | cache _ | wake | compare | setNodeHash _ _ =>
      simp only [step, check, answer, cache, wake, compare, setNodeHash]
        at hafter
      split at hafter <;> exact .inl hafter

/-- The file comes from the task or from the command. -/
theorem NodeHashSystem.step_file {content : String} {origin : HashOrigin}
    (hafter : (system.step text event).file = some (content, origin)) :
    system.file = some (content, origin) ∨
      ∃ hash outcome, outcome.text text hash = some content ∧
        (event = .cache outcome ∧ system.discovery = .found hash ∨
          ∃ argument, event = .setNodeHash argument outcome ∧
            text.parse argument = .ok hash) := by
  cases event with
  | cache outcome =>
      simp only [step, cache] at hafter
      split at hafter
      · rename_i hash hdiscovery
        refine (writeCachedHash_eq_some hafter).imp id ?_
        intro hwritten
        exact ⟨hash, outcome, hwritten, .inl ⟨rfl, hdiscovery⟩⟩
      · exact .inl hafter
  | setNodeHash argument outcome =>
      simp only [step, setNodeHash] at hafter
      split at hafter
      · exact .inl hafter
      · rename_i hash hparse
        refine (writeCachedHash_eq_some hafter).imp id ?_
        intro hwritten
        exact ⟨hash, outcome, hwritten, .inr ⟨argument, rfl, hparse⟩⟩
  | signal readable =>
      simp only [step, signal] at hafter
      split at hafter
      · split at hafter <;> exact .inl hafter
      · exact .inl hafter
  | check | answer _ | publish | wake | compare | replace =>
      simp only [step, check, answer, publish, wake, compare, replace]
        at hafter
      split at hafter <;> exact .inl hafter

/-- The task has a hash in hand only when a query gave it one. -/
theorem NodeHashSystem.step_discovery {hash : Hash}
    (hafter : (system.step text event).discovery.hash = some hash) :
    system.discovery.hash = some hash ∨
      system.discovery = .querying ∧ event = .answer (.ok (some hash)) := by
  cases event with
  | check =>
      simp only [step, check] at hafter
      split at hafter
      · simp only at hafter
        split at hafter <;> cases hafter
      · exact .inl hafter
  | answer result =>
      simp only [step, answer] at hafter
      split at hafter
      · rename_i found hdiscovery
        cases hafter
        exact .inr ⟨hdiscovery, rfl⟩
      · cases hafter
      · exact .inl hafter
  | cache outcome =>
      simp only [step, cache] at hafter
      split at hafter
      · rename_i found hdiscovery
        cases hafter
        exact .inl (by rw [hdiscovery]; rfl)
      · exact .inl hafter
  | publish | wake =>
      simp only [step, publish, wake] at hafter
      split at hafter
      · cases hafter
      · exact .inl hafter
  | signal readable =>
      simp only [step, signal] at hafter
      split at hafter
      · split at hafter <;> exact .inl hafter
      · exact .inl hafter
  | compare | replace | setNodeHash _ _ =>
      simp only [step, compare, replace, setNodeHash] at hafter
      split at hafter <;> exact .inl hafter

/-- The handler reads its hash from the file. -/
theorem NodeHashSystem.step_handler {hash : Hash}
    (hafter : (system.step text event).handler.hash = some hash) :
    system.handler.hash = some hash ∨
      ∃ origin, readCachedHash text system.file = some (hash, origin) := by
  cases event with
  | signal readable =>
      simp only [step, signal] at hafter
      split at hafter
      · split at hafter
        · exact .inl hafter
        · rename_i found origin hread
          cases hafter
          right
          cases readable with
          | false => cases hread
          | true => exact ⟨origin, hread⟩
      · exact .inl hafter
  | compare =>
      simp only [step, compare] at hafter
      split at hafter
      · rename_i found origin hhandler
        simp only at hafter
        split at hafter
        · cases hafter
        · left
          rw [hhandler]
          exact hafter
      · exact .inl hafter
  | replace =>
      simp only [step, replace] at hafter
      split at hafter
      · cases hafter
      · exact .inl hafter
  | check | answer _ | cache _ | publish | wake | setNodeHash _ _ =>
      simp only [step, check, answer, cache, publish, wake, setNodeHash]
        at hafter
      split at hafter <;> exact .inl hafter

end Steps

section Agents

variable [DecidableEq Hash] (libs : PostLibs Hash) (agent : NodeAgent Hash)
    (event : AgentEvent Hash)

/-- The process starts, is down afterwards, or one of the three parties takes
a step. -/
theorem NodeAgent.step_cases :
    (∃ args readable ready initial,
      event = .start args readable ready ∧
      resolveInitialHash libs.text args.nodeHash
        (if readable then agent.system.file else none) = .ok initial ∧
      agent.step libs event = ⟨some args, initial, agent.system.file,
        if args.discovery.isSome then .checking else .stopped,
        .waiting, false⟩) ∨
      agent.step libs event = .down agent.system.file ∨
      agent.step libs event = agent ∨
      ∃ inner, event.ofTask libs.toLowercase agent.args = some inner ∧
        agent.step libs event =
          ⟨agent.args, agent.system.step libs.text inner⟩ := by
  have hparty : (∀ args readable ready, event ≠ .start args readable ready) →
      event ≠ .stop →
      agent.step libs event = agent ∨
        ∃ inner, event.ofTask libs.toLowercase agent.args = some inner ∧
          agent.step libs event =
            ⟨agent.args, agent.system.step libs.text inner⟩ := by
    intro hstart hstop
    unfold NodeAgent.step
    split
    · exact absurd rfl (hstart _ _ _)
    · exact absurd rfl hstop
    · split
      · exact .inl rfl
      · rename_i inner hinner
        exact .inr ⟨inner, hinner, rfl⟩
  cases event with
  | start args readable ready =>
      simp only [NodeAgent.step, NodeAgent.start]
      split
      · rename_i initial hinitial
        exact .inl ⟨args, readable, true, initial, rfl, hinitial, rfl⟩
      · exact .inr (.inl rfl)
  | stop => exact .inr (.inl rfl)
  | _ => exact .inr (.inr (hparty (by simp) (by simp)))

end Agents

/-! ## Where a hash comes from -/

/-- The operator names the hash, with the flag or with the command. -/
inductive AgentEvent.ByOperator (text : HashText Hash) (hash : Hash) :
    AgentEvent Hash → Prop where
  | flag {args : RunArgs} {readable ready : Bool} {hashText : String}
      (hflag : args.nodeHash = some hashText)
      (hparse : text.parse hashText = .ok hash) :
      ByOperator text hash (.start args readable ready)
  | command {argument : String} {outcome : CacheWrite}
      (hparse : text.parse argument = .ok hash) :
      ByOperator text hash (.setNodeHash argument outcome)

/-- The query of the running process is answered with posts of which only
one registers its domain, and that one has the hash. -/
def NodeAgent.Discovers (toLowercase : String → String) (hash : Hash)
    (agent : NodeAgent Hash) (event : AgentEvent Hash) : Prop :=
  ∃ getPostsV0 owner domain posts, event = .answer getPostsV0 ∧
    agent.args.bind RunArgs.discovery = some (owner, domain) ∧
    getPostsV0 (corechanOperations owner) = .ok posts ∧
    SoleRegistration toLowercase domain posts hash

theorem AgentEvent.ofTask_answer {toLowercase : String → String}
    {agent : NodeAgent Hash} {event : AgentEvent Hash} {hash : Hash}
    (hevent : event.ofTask toLowercase agent.args =
      some (.answer (.ok (some hash)))) :
    agent.Discovers toLowercase hash event := by
  cases event with
  | answer getPostsV0 =>
      obtain ⟨⟨owner, domain⟩, hidentity, hanswer⟩ :=
        Option.map_eq_some_iff.mp hevent
      simp only [NodeHashEvent.answer.injEq] at hanswer
      cases hfound : discoverNodeHash toLowercase getPostsV0 owner domain with
      | error message =>
          rw [hfound] at hanswer
          cases hanswer
      | ok answer =>
          rw [hfound] at hanswer
          cases answer with
          | none => cases hanswer
          | some node =>
              cases hanswer
              obtain ⟨posts, hposts, hsole⟩ := discoverNodeHash_eq_some hfound
              exact ⟨getPostsV0, owner, domain, posts, rfl, hidentity, hposts,
                hsole⟩
  | signal readable =>
      simp only [ofTask, Option.map_eq_some_iff] at hevent
      obtain ⟨args, -, hsignal⟩ := hevent
      cases hsignal
  | _ => simp [ofTask] at hevent

theorem AgentEvent.ofTask_setNodeHash {toLowercase : String → String}
    {args : Option RunArgs} {event : AgentEvent Hash} {argument : String}
    {outcome : CacheWrite}
    (hevent : event.ofTask toLowercase args =
      some (.setNodeHash argument outcome)) :
    event = .setNodeHash argument outcome := by
  cases event with
  | setNodeHash given write =>
      simp only [ofTask, Option.some.injEq, NodeHashEvent.setNodeHash.injEq]
        at hevent
      rw [hevent.1, hevent.2]
  | answer getPostsV0 =>
      simp only [ofTask, Option.map_eq_some_iff] at hevent
      obtain ⟨identity, -, hanswer⟩ := hevent
      cases hanswer
  | signal readable =>
      simp only [ofTask, Option.map_eq_some_iff] at hevent
      obtain ⟨running, -, hsignal⟩ := hevent
      cases hsignal
  | _ => simp [ofTask] at hevent

/-- An initial hash is the flag, or what the cache file says. -/
theorem resolveInitialHash_eq_some {text : HashText Hash}
    {explicitHash : Option String} {file : Option (String × HashOrigin)}
    {hash : Hash} {origin : HashOrigin}
    (hinitial : resolveInitialHash text explicitHash file =
      .ok (some (hash, origin))) :
    (∃ hashText, explicitHash = some hashText ∧
      text.parse hashText = .ok hash) ∨
      explicitHash = none ∧ readCachedHash text file = some (hash, origin) := by
  cases explicitHash with
  | none =>
      right
      exact ⟨rfl, Except.ok.inj hinitial⟩
  | some hashText =>
      left
      cases hparse : text.parse hashText with
      | error message =>
          simp [resolveInitialHash, hparse, Except.map] at hinitial
      | ok found =>
          simp only [resolveInitialHash, hparse, Except.map, Except.ok.injEq,
            Option.some.injEq, Prod.mk.injEq] at hinitial
          exact ⟨hashText, rfl, by rw [hparse, hinitial.1]⟩

section Origins

variable [DecidableEq Hash] (libs : PostLibs Hash)
    (file : Option (String × HashOrigin)) (events : List (AgentEvent Hash))

/-- The agent starts with this file, and in the run so far the operator or an
answer names the hash. -/
def Named (hash : Hash) : Prop :=
  Once (NodeAgent.step libs) (fun agent event =>
    event.ByOperator libs.text hash ∨
      agent.Discovers libs.toLowercase hash event) (.down file) events

/-- The text is the first one of the cache file, or what a write of a named
hash leaves, whole or in part. -/
def CachedText (content : String) : Prop :=
  (∃ origin, file = some (content, origin)) ∨
    ∃ hash outcome, Named libs file events hash ∧
      CacheWrite.text libs.text hash outcome = some content

/-- The hash is named, or read from a text of the cache file. -/
def Traced (hash : Hash) : Prop :=
  Named libs file events hash ∨
    ∃ content, CachedText libs file events content ∧
      libs.text.parse (trimText content) = .ok hash

structure NodeAgent.TracedIn (agent : NodeAgent Hash) : Prop where
  nodeHash : ∀ hash origin, agent.system.nodeHash = some (hash, origin) →
    Traced libs file events hash
  discovery : ∀ hash, agent.system.discovery.hash = some hash →
    Named libs file events hash
  handler : ∀ hash, agent.system.handler.hash = some hash →
    Traced libs file events hash
  cached : ∀ content origin, agent.system.file = some (content, origin) →
    CachedText libs file events content

end Origins

section Tracing

variable [DecidableEq Hash] {libs : PostLibs Hash}
    {file : Option (String × HashOrigin)} {past : List (AgentEvent Hash)}
    {event : AgentEvent Hash}

theorem CachedText.later {content : String}
    (hcached : CachedText libs file past content) :
    CachedText libs file (past ++ [event]) content := by
  refine hcached.imp id ?_
  rintro ⟨hash, outcome, hnamed, hwritten⟩
  exact ⟨hash, outcome, hnamed.later event, hwritten⟩

theorem Traced.later {hash : Hash} (htraced : Traced libs file past hash) :
    Traced libs file (past ++ [event]) hash := by
  refine htraced.imp (fun hnamed => hnamed.later event) ?_
  rintro ⟨content, hcached, hparse⟩
  exact ⟨content, hcached.later, hparse⟩

theorem traced_of_readCachedHash {hash : Hash} {origin : HashOrigin}
    {other : Option (String × HashOrigin)}
    (hcached : ∀ content origin, other = some (content, origin) →
      CachedText libs file past content)
    (hread : readCachedHash libs.text other = some (hash, origin)) :
    Traced libs file past hash := by
  obtain ⟨content, hother, hparse⟩ := readCachedHash_eq_some hread
  exact .inr ⟨content, hcached content origin hother, hparse⟩

theorem NodeAgent.TracedIn.start {agent : NodeAgent Hash} {args : RunArgs}
    {readable ready : Bool} {initial : Option (Hash × HashOrigin)}
    {discovery : Discovery Hash}
    (htraced : agent.TracedIn libs file past)
    (hinitial : resolveInitialHash libs.text args.nodeHash
      (if readable then agent.system.file else none) = .ok initial)
    (hdiscovery : discovery.hash = none) :
    NodeAgent.TracedIn libs file (past ++ [.start args readable ready])
      ⟨some args, initial, agent.system.file, discovery, .waiting,
        false⟩ := by
  constructor
  · rintro hash origin rfl
    rcases resolveInitialHash_eq_some hinitial with
      ⟨hashText, hflag, hparse⟩ | ⟨-, hread⟩
    · exact .inl (once_last (.inl (.flag hflag hparse)))
    · cases readable with
      | false => cases hread
      | true => exact (traced_of_readCachedHash htraced.cached hread).later
  · intro hash hfound
    rw [hdiscovery] at hfound
    cases hfound
  · intro hash hread
    cases hread
  · intro content origin hcontent
    exact (htraced.cached content origin hcontent).later

theorem NodeAgent.TracedIn.party {agent : NodeAgent Hash}
    {inner : NodeHashEvent Hash}
    (htraced : agent.TracedIn libs file past)
    (hagent : agent = run (NodeAgent.step libs) (.down file) past)
    (hinner : event.ofTask libs.toLowercase agent.args = some inner) :
    NodeAgent.TracedIn libs file (past ++ [event])
      ⟨agent.args, agent.system.step libs.text inner⟩ := by
  constructor
  · intro hash origin hafter
    rcases NodeHashSystem.step_nodeHash hafter with hsame | hfound | hread
    · exact (htraced.nodeHash hash origin hsame).later
    · exact .inl ((htraced.discovery hash hfound).later event)
    · exact (htraced.handler hash hread).later
  · intro hash hafter
    rcases NodeHashSystem.step_discovery hafter with hsame | ⟨-, rfl⟩
    · exact (htraced.discovery hash hsame).later event
    · have hdiscovers := AgentEvent.ofTask_answer hinner
      rw [hagent] at hdiscovers
      exact once_last (.inr hdiscovers)
  · intro hash hafter
    rcases NodeHashSystem.step_handler hafter with hsame | ⟨origin, hread⟩
    · exact (htraced.handler hash hsame).later
    · exact (traced_of_readCachedHash htraced.cached hread).later
  · intro content origin hafter
    rcases NodeHashSystem.step_file hafter with
      hsame | ⟨hash, outcome, hwritten, hsource⟩
    · exact (htraced.cached content origin hsame).later
    · refine .inr ⟨hash, outcome, ?_, hwritten⟩
      rcases hsource with ⟨-, hfound⟩ | ⟨argument, rfl, hparse⟩
      · have hhash : agent.system.discovery.hash = some hash := by
          rw [hfound]
          rfl
        exact (htraced.discovery hash hhash).later event
      · rw [AgentEvent.ofTask_setNodeHash hinner]
        exact once_last (.inl (.command hparse))

theorem NodeAgent.TracedIn.step
    (htraced : NodeAgent.TracedIn libs file past
      (run (NodeAgent.step libs) (.down file) past)) :
    NodeAgent.TracedIn libs file (past ++ [event])
      ((run (NodeAgent.step libs) (.down file) past).step libs event) := by
  rcases NodeAgent.step_cases libs
      (run (NodeAgent.step libs) (.down file) past) event with
    ⟨args, readable, ready, initial, rfl, hinitial, hnext⟩ | hnext | hnext |
      ⟨inner, hinner, hnext⟩
  · rw [hnext]
    apply htraced.start hinitial
    split <;> rfl
  · rw [hnext]
    constructor
    · intro hash origin hnone
      cases hnone
    · intro hash hnone
      cases hnone
    · intro hash hnone
      cases hnone
    · intro content origin hcontent
      exact (htraced.cached content origin hcontent).later
  · rw [hnext]
    constructor
    · intro hash origin hsame
      exact (htraced.nodeHash hash origin hsame).later
    · intro hash hsame
      exact (htraced.discovery hash hsame).later event
    · intro hash hsame
      exact (htraced.handler hash hsame).later
    · intro content origin hsame
      exact (htraced.cached content origin hsame).later
  · rw [hnext]
    exact htraced.party rfl hinner

/-- In any order of steps, signals, commands and restarts, the node has a
hash only when the operator or an answer with one registration of its domain
named it, or when it was read from a text that the file had at first or that
a write of such a hash left. -/
theorem node_hash_traced (events : List (AgentEvent Hash)) (hash : Hash)
    (origin : HashOrigin)
    (hreported : (run (NodeAgent.step libs) (.down file)
      events).system.nodeHash = some (hash, origin)) :
    Traced libs file events hash := by
  have hinit : NodeAgent.TracedIn libs file []
      (NodeAgent.down file : NodeAgent Hash) := by
    constructor
    · intro hash origin hnone
      cases hnone
    · intro hash hnone
      cases hnone
    · intro hash hnone
      cases hnone
    · intro content origin hcontent
      exact .inl ⟨origin, hcontent⟩
  have htraced := run_invariant_of_past
    (I := NodeAgent.TracedIn libs file)
    (fun past event hpast => hpast.step) hinit events
  exact htraced.nodeHash hash origin hreported

end Tracing

/-- Two hashes with their texts. -/
def sampleHashes : HashText Bool where
  parse
    | "aa" => .ok true
    | "bb" => .ok false
    | _ => .error "invalid node hash"
  display hash := if hash then "aa" else "bb"

def sampleNodeLibs : PostLibs Bool := ⟨sampleHashes, fun url =>
  String.ofList (url.toList.map Char.toLower)⟩

def crnPost (address : String) (hash : Bool) : PostV0 Bool where
  content := .object [("action", .string "create-resource-node"),
    ("details", .object [("name", .string "node"),
      ("address", .string address)])]
  originalItemHash := hash

def discoveringArgs : RunArgs := ⟨none, some "0x01", some "node.example"⟩

/-- The second of two registrations is the one of the domain. -/
def discoveringRun : List (AgentEvent Bool) :=
  [.start discoveringArgs true true, .check,
    .answer fun _ => .ok [crnPost "https://other.example" false,
      crnPost "https://Node.example/" true],
    .cache .written, .publish]

theorem discovered_hash_traced :
    (run (NodeAgent.step sampleNodeLibs) (.down none)
        discoveringRun).system.nodeHash = some (true, .discovered) ∧
      Traced sampleNodeLibs none discoveringRun true := by
  have hreported : (run (NodeAgent.step sampleNodeLibs) (.down none)
      discoveringRun).system.nodeHash = some (true, .discovered) := by
    decide +kernel
  exact ⟨hreported, node_hash_traced discoveringRun true .discovered
    hreported⟩

/-! ## A hash that is cached -/

/-- A hash that was parsed is read back from the text that its write
leaves. -/
def HashText.RoundTrips (text : HashText Hash) : Prop :=
  ∀ argument hash, text.parse argument = .ok hash →
    (trimText (text.display hash)).isEmpty = false ∧
      text.parse (trimText (text.display hash)) = .ok hash

/-- A start without the flag can read the cache file, and a write of the
command does not stop in the middle. -/
def AgentEvent.KeepsCache : AgentEvent Hash → Prop
  | .start args readable _ => args.nodeHash = none → readable = true
  | .setNodeHash _ outcome => ∀ kept, outcome ≠ .truncated kept
  | _ => True

/-- The task is asking, or has an answer in hand. -/
def Discovery.asks : Discovery Hash → Bool
  | .checking | .stopped => false
  | .querying | .found _ | .cached _ | .sleeping => true

/-- The node has a hash that is allowed whenever the process runs, the file
says an allowed hash, and the discovery task does not ask. -/
structure NodeAgent.Settled (text : HashText Hash) (allowed : Hash → Prop)
    (agent : NodeAgent Hash) : Prop where
  running : agent.args.isSome = true →
    ∃ hash origin, agent.system.nodeHash = some (hash, origin) ∧ allowed hash
  cached : ∃ hash origin,
    readCachedHash text agent.system.file = some (hash, origin) ∧ allowed hash
  quiet : agent.system.discovery.asks = false
  handler : ∀ hash, agent.system.handler.hash = some hash → allowed hash
  idle : agent.args = none → agent.system.discovery = .stopped

section Settled

variable {text : HashText Hash} {allowed : Hash → Prop}
    {agent : NodeAgent Hash}

theorem readCachedHash_displayed
    (hround : text.RoundTrips) {argument : String} {hash : Hash}
    (hparse : text.parse argument = .ok hash) (origin : HashOrigin) :
    readCachedHash text (some (text.display hash, origin)) =
      some (hash, origin) := by
  obtain ⟨hnonempty, hread⟩ := hround argument hash hparse
  simp only [readCachedHash, readCachedHashRaw, hnonempty,
    Bool.false_eq_true, if_false, hread]

/-- A command that does not stop in the middle leaves a hash that is read
back. -/
theorem readCachedHash_setNodeHash
    (hround : text.RoundTrips) {system : NodeHashSystem Hash}
    {argument : String} {outcome : CacheWrite}
    (hwhole : ∀ kept, outcome ≠ .truncated kept)
    (hnamed : ∀ hash, text.parse argument = .ok hash → allowed hash)
    (hcached : ∃ hash origin,
      readCachedHash text system.file = some (hash, origin) ∧ allowed hash) :
    ∃ hash origin,
      readCachedHash text (system.setNodeHash text argument outcome).file =
        some (hash, origin) ∧ allowed hash := by
  unfold NodeHashSystem.setNodeHash
  cases hparse : text.parse argument with
  | error message => exact hcached
  | ok hash =>
      cases outcome with
      | written =>
          exact ⟨hash, .operator, readCachedHash_displayed hround hparse _,
            hnamed hash hparse⟩
      | truncated kept => exact absurd rfl (hwhole kept)
      | refused => exact hcached

theorem NodeAgent.Settled.down
    (hsettled : agent.Settled text allowed) :
    NodeAgent.Settled text allowed (.down agent.system.file) where
  running := by
    intro hrunning
    cases hrunning
  cached := hsettled.cached
  quiet := rfl
  handler := by
    intro hash hnone
    cases hnone
  idle := fun _ => rfl

variable {system : NodeHashSystem Hash}

/-- A task that does not ask does nothing more. -/
theorem NodeHashSystem.answer_of_quiet
    (hquiet : system.discovery.asks = false)
    (result : Except String (Option Hash)) :
    system.answer result = system := by
  unfold NodeHashSystem.answer
  split
  · rename_i hash hquerying
    rw [hquerying] at hquiet
    cases hquiet
  · rename_i hquerying _
    rw [hquerying] at hquiet
    cases hquiet
  · rfl

theorem NodeHashSystem.cache_of_quiet
    (hquiet : system.discovery.asks = false) (outcome : CacheWrite) :
    system.cache text outcome = system := by
  unfold NodeHashSystem.cache
  split
  · rename_i hash hfound
    rw [hfound] at hquiet
    cases hquiet
  · rfl

theorem NodeHashSystem.publish_of_quiet
    (hquiet : system.discovery.asks = false) :
    system.publish = system := by
  unfold NodeHashSystem.publish
  split
  · rename_i hash hcached
    rw [hcached] at hquiet
    cases hquiet
  · rfl

theorem NodeHashSystem.wake_of_quiet
    (hquiet : system.discovery.asks = false) : system.wake = system := by
  unfold NodeHashSystem.wake
  split
  · rename_i hsleeping
    rw [hsleeping] at hquiet
    cases hquiet
  · rfl

theorem NodeAgent.Settled.check (hsettled : agent.Settled text allowed) :
    NodeAgent.Settled text allowed ⟨agent.args, agent.system.check⟩ := by
  unfold NodeHashSystem.check
  split
  · rename_i hchecking
    have hrunning : agent.args.isSome = true := by
      by_contra hnone
      have hidle := hsettled.idle (by simpa using hnone)
      rw [hchecking] at hidle
      cases hidle
    obtain ⟨hash, origin, hhash, hallowed⟩ := hsettled.running hrunning
    constructor
    · exact hsettled.running
    · exact hsettled.cached
    · simp [hhash, Discovery.asks]
    · exact hsettled.handler
    · intro hnone
      simp [hhash]
  · exact hsettled

theorem NodeAgent.Settled.signal (hsettled : agent.Settled text allowed)
    (readable : Bool) :
    NodeAgent.Settled text allowed
      ⟨agent.args, agent.system.signal text readable⟩ := by
  unfold NodeHashSystem.signal
  split
  · split
    · exact hsettled
    · rename_i hash origin hread
      refine ⟨hsettled.running, hsettled.cached, hsettled.quiet, ?_,
        hsettled.idle⟩
      rintro found hfound
      cases hfound
      cases readable with
      | false => cases hread
      | true =>
          obtain ⟨other, source, hother, hallowed⟩ := hsettled.cached
          rw [if_pos rfl, hother] at hread
          cases hread
          exact hallowed
  · exact hsettled

theorem NodeAgent.Settled.compare [DecidableEq Hash]
    (hsettled : agent.Settled text allowed) :
    NodeAgent.Settled text allowed ⟨agent.args, agent.system.compare⟩ := by
  unfold NodeHashSystem.compare
  split
  · rename_i hash origin hread
    refine ⟨hsettled.running, hsettled.cached, hsettled.quiet, ?_,
      hsettled.idle⟩
    intro found hfound
    apply hsettled.handler
    rw [hread]
    simp only at hfound
    split at hfound
    · cases hfound
    · exact hfound
  · exact hsettled

theorem NodeAgent.Settled.replace (hsettled : agent.Settled text allowed) :
    NodeAgent.Settled text allowed ⟨agent.args, agent.system.replace⟩ := by
  unfold NodeHashSystem.replace
  split
  · rename_i hash origin hreplacing
    refine ⟨?_, hsettled.cached, hsettled.quiet, ?_, hsettled.idle⟩
    · intro _
      refine ⟨hash, origin, rfl, hsettled.handler hash ?_⟩
      rw [hreplacing]
      rfl
    · intro found hfound
      cases hfound
  · exact hsettled

theorem NodeAgent.Settled.setNodeHash (hsettled : agent.Settled text allowed)
    (hround : text.RoundTrips) {argument : String} {outcome : CacheWrite}
    (hwhole : ∀ kept, outcome ≠ .truncated kept)
    (hnamed : ∀ hash, text.parse argument = .ok hash → allowed hash) :
    NodeAgent.Settled text allowed
      ⟨agent.args, agent.system.setNodeHash text argument outcome⟩ := by
  have hcached := readCachedHash_setNodeHash hround hwhole hnamed
    hsettled.cached
  unfold NodeHashSystem.setNodeHash at hcached ⊢
  split at hcached
  · exact hsettled
  · exact ⟨hsettled.running, hcached, hsettled.quiet, hsettled.handler,
      hsettled.idle⟩

/-- Each of the three parties keeps an agent settled. -/
theorem NodeAgent.Settled.party [DecidableEq Hash]
    (hsettled : agent.Settled text allowed)
    (hround : text.RoundTrips) {inner : NodeHashEvent Hash}
    (hcommand : ∀ argument outcome, inner = .setNodeHash argument outcome →
      (∀ kept, outcome ≠ .truncated kept) ∧
        ∀ hash, text.parse argument = .ok hash → allowed hash) :
    NodeAgent.Settled text allowed
      ⟨agent.args, agent.system.step text inner⟩ := by
  cases inner with
  | check => exact hsettled.check
  | answer result =>
      simp only [NodeHashSystem.step,
        NodeHashSystem.answer_of_quiet hsettled.quiet]
      exact hsettled
  | cache outcome =>
      simp only [NodeHashSystem.step,
        NodeHashSystem.cache_of_quiet hsettled.quiet]
      exact hsettled
  | publish =>
      simp only [NodeHashSystem.step,
        NodeHashSystem.publish_of_quiet hsettled.quiet]
      exact hsettled
  | wake =>
      simp only [NodeHashSystem.step,
        NodeHashSystem.wake_of_quiet hsettled.quiet]
      exact hsettled
  | signal readable => exact hsettled.signal readable
  | compare => exact hsettled.compare
  | replace => exact hsettled.replace
  | setNodeHash argument outcome =>
      obtain ⟨hwhole, hnamed⟩ := hcommand argument outcome rfl
      exact hsettled.setNodeHash hround hwhole hnamed

/-- A process that starts has the flag, or what the file says, and its task
ends at the first check. -/
theorem NodeAgent.Settled.start (hsettled : agent.Settled text allowed)
    {args : RunArgs} {readable : Bool}
    {initial : Option (Hash × HashOrigin)}
    (hinitial : resolveInitialHash text args.nodeHash
      (if readable then agent.system.file else none) = .ok initial)
    (hreadable : args.nodeHash = none → readable = true)
    (hflag : ∀ hashText hash, args.nodeHash = some hashText →
      text.parse hashText = .ok hash → allowed hash) :
    NodeAgent.Settled text allowed
      ⟨some args, initial, agent.system.file,
        if args.discovery.isSome then .checking else .stopped,
        .waiting, false⟩ := by
  constructor
  · intro _
    cases hnode : args.nodeHash with
    | none =>
        obtain ⟨hash, origin, hread, hallowed⟩ := hsettled.cached
        rw [hnode, hreadable hnode] at hinitial
        refine ⟨hash, origin, ?_, hallowed⟩
        rw [← hread]
        exact (Except.ok.inj hinitial).symm
    | some hashText =>
        rw [hnode] at hinitial
        cases hparse : text.parse hashText with
        | error message =>
            simp [resolveInitialHash, hparse, Except.map] at hinitial
        | ok hash =>
            simp only [resolveInitialHash, hparse, Except.map,
              Except.ok.injEq] at hinitial
            exact ⟨hash, .operator, hinitial.symm,
              hflag hashText hash hnode hparse⟩
  · exact hsettled.cached
  · simp only
    split <;> rfl
  · intro hash hnone
    cases hnone
  · intro hnone
    cases hnone

end Settled

/-- Once the cache file says a hash, the node never asks for its hash again,
whatever stops and starts it: it always has a hash while it runs, and the
file always says one, and these are the first hash or hashes of the
operator. -/
theorem cached_hash_ends_discovery [DecidableEq Hash] (libs : PostLibs Hash)
    (hround : libs.text.RoundTrips) {file : Option (String × HashOrigin)}
    {first : Hash} {origin : HashOrigin}
    (hfirst : readCachedHash libs.text file = some (first, origin))
    (events : List (AgentEvent Hash))
    (hevents : ∀ event ∈ events, event.KeepsCache) :
    (run (NodeAgent.step libs) (.down file) events).Settled libs.text
      fun hash => hash = first ∨
        ∃ event ∈ events, event.ByOperator libs.text hash := by
  have hinit : NodeAgent.Settled libs.text (fun hash => hash = first ∨
      ∃ event ∈ events, event.ByOperator libs.text hash)
      (.down file) := by
    constructor
    · intro hrunning
      cases hrunning
    · exact ⟨first, origin, hfirst, .inl rfl⟩
    · rfl
    · intro hash hnone
      cases hnone
    · intro _
      rfl
  have hnamed : ∀ event ∈ events, ∀ hash,
      event.ByOperator libs.text hash → hash = first ∨
        ∃ event ∈ events, event.ByOperator libs.text hash :=
    fun event hevent hash hoperator => .inr ⟨event, hevent, hoperator⟩
  apply run_invariant_of_along (P := fun _ event => event ∈ events) _ hinit
    (along_of_forall (fun _ hevent => hevent) _)
  intro agent event hsettled hevent
  rcases NodeAgent.step_cases libs agent event with
    ⟨args, readable, ready, initial, rfl, hinitial, hnext⟩ | hnext | hnext |
      ⟨inner, hinner, hnext⟩
  · rw [hnext]
    apply hsettled.start hinitial (hevents _ hevent)
    intro hashText hash hflag hparse
    exact hnamed _ hevent hash (.flag hflag hparse)
  · rw [hnext]
    exact hsettled.down
  · rw [hnext]
    exact hsettled
  · rw [hnext]
    apply hsettled.party hround
    rintro argument outcome rfl
    have hcommand := AgentEvent.ofTask_setNodeHash hinner
    subst hcommand
    refine ⟨hevents _ hevent, ?_⟩
    intro hash hparse
    exact hnamed _ hevent hash (.command hparse)

/-- The operator replaces a cached hash while the node runs, and the node
starts again. -/
theorem cached_hash_of_operator :
    (run (NodeAgent.step sampleNodeLibs) (.down (some ("bb", .operator)))
        ([.start discoveringArgs true true, .setNodeHash "aa" .written,
          .check, .signal true, .compare, .replace, .stop,
          .start discoveringArgs true true])).Settled sampleHashes
      fun hash => hash = false ∨
        ∃ event ∈ ([.start discoveringArgs true true,
          .setNodeHash "aa" .written, .check, .signal true, .compare,
          .replace, .stop, .start discoveringArgs true true] :
            List (AgentEvent Bool)), event.ByOperator sampleHashes hash := by
  have hround : sampleHashes.RoundTrips := by
    intro argument hash _
    cases hash <;> decide +kernel
  have hfirst : readCachedHash sampleHashes (some ("bb", .operator)) =
      some (false, .operator) := by
    decide +kernel
  apply cached_hash_ends_discovery sampleNodeLibs hround hfirst
  simp [AgentEvent.KeepsCache]

end AlephCvm.Agent
