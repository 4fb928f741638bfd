import AlephCvm.AllocationInterleavings

/-!
# What an allocation reports

The response gives the numbers of machines started and stopped.  The handler
computes them from the lengths of its lists and from the errors that begin
with one of two words.  A call that fails is counted by its error, but an
error of the translation begins with a third word, so a machine whose message
cannot be translated is reported as started.  An answer that was lost after
the node had done its work is counted as a failure.

Both loops are summed up in the same way: which machines changed, which errors
were recorded, and an equation between their numbers.
-/

namespace AlephCvm.Agent

open ResultContext AlephCvm.Tee AlephCvm.Vm AlephCvm.Grpc
open scoped symmDiff

variable {cfg : NodeConfig}

/-! ## Truthful responses -/

def createdVms (before after : Node cfg) : Finset ItemHash :=
  nodeVms after \ nodeVms before

def deletedVms (before after : Node cfg) : Finset ItemHash :=
  nodeVms before \ nodeVms after

/-- The numbers in a response are those of the machines that were created and
deleted.  A handler that panicked has not responded. -/
def Truthful (response : Except Failure AllocationResponse)
    (before after : Node cfg) : Prop :=
  match response with
  | .ok (.ok started stopped _) | .ok (.multiStatus started stopped _ _) =>
      started = (createdVms before after).card ∧
        stopped = (deletedVms before after).card
  | .ok .unauthorized | .ok (.badRequest _) | .ok (.unreachable _) => True
  | .error _ => False

def RpcOutcome.isLost : RpcOutcome → Bool
  | .answered | .unreachable _ => false
  | .lost _ => true

/-- The message is registered, but it cannot be translated. -/
def untranslatable (agent : AgentState) (calls : AllocationCalls)
    (vmHash : ItemHash) : Bool :=
  match agent.messages.entries.lookup vmHash with
  | none => false
  | some msg =>
      match translateMessage (calls.start vmHash).cache agent.adapterConfig
          msg with
      | .error _ => true
      | .ok _ => false

/-- The handler goes on to compare this allocation with the listed
machines. -/
structure Processes (libs : AgentLibs) (agent : AgentState)
    (calls : AllocationCalls) (request : AllocationRequest)
    (allocation : Allocation) : Prop where
  authorized : ∀ tokenHash, agent.allocationTokenHash = some tokenHash →
    verifyAllocationSignature libs request.body
      (request.signature.getD "") tokenHash = true
  parsed : libs.parseAllocation request.body = .ok allocation
  listed : calls.listRpc = .answered

/-! ## One call -/

/-- What became of a call that removes a machine that is there, or adds one
that is not. -/
inductive CallChange (outcome : RpcOutcome) (there : Bool) (id : ItemHash)
    (node : Node cfg) {α : Type} : Except String α × Node cfg → Prop
  | done (value : α) (after : Node cfg) (hheard : outcome.isLost = false)
      (hthere : id ∈ nodeVms node ↔ there = true)
      (hvms : nodeVms after = nodeVms node ∆ {id}) :
      CallChange outcome there id node (.ok value, after)
  | unheard (message : String) (after : Node cfg)
      (hlost : outcome.isLost = true)
      (hthere : id ∈ nodeVms node ↔ there = true)
      (hvms : nodeVms after = nodeVms node ∆ {id}) :
      CallChange outcome there id node (.error message, after)
  | failed (message : String) (after : Node cfg)
      (hvms : nodeVms after = nodeVms node) :
      CallChange outcome there id node (.error message, after)

theorem callNode_change
    {α : Type} (libs : AgentLibs) (outcome : RpcOutcome) {there : Bool}
    {id : ItemHash} {node : Node cfg}
    {call : Except CallFailure α × Node cfg}
    (hok : ∀ value, call.1 = .ok value →
      (id ∈ nodeVms node ↔ there = true) ∧
        nodeVms call.2 = nodeVms node ∆ {id})
    (herror : ∀ failure, call.1 = .error failure →
      nodeVms call.2 = nodeVms node) :
    CallChange outcome there id node (callNode libs outcome node call) := by
  obtain ⟨result, called⟩ := call
  cases outcome with
  | unreachable message => exact .failed message node rfl
  | lost message =>
      cases result with
      | error failure => exact .failed message called (herror failure rfl)
      | ok value =>
          obtain ⟨hthere, hvms⟩ := hok value rfl
          exact .unheard message called rfl hthere hvms
  | answered =>
      cases result with
      | error failure =>
          exact .failed (libs.failureText failure) called
            (herror failure rfl)
      | ok value =>
          obtain ⟨hthere, hvms⟩ := hok value rfl
          exact .done value called rfl hthere hvms

theorem deleteVm_change
    (libs : AgentLibs) (calls : StopCalls) (node : Node cfg)
    (vmId : ItemHash) :
    CallChange calls.rpc true vmId node (callNode libs calls.rpc node
      (Grpc.deleteVm node calls.delete vmId)) := by
  apply callNode_change
  · intro value hok
    obtain ⟨hmem, hvms⟩ := grpcDeleteVm_ok (Prod.ext hok rfl)
    have hlisted : vmId ∈ nodeVms node := List.mem_toFinset.mpr hmem
    exact ⟨iff_of_true hlisted rfl, nodeVms_erase hmem hvms⟩
  · intro failure herror
    unfold Grpc.deleteVm Node.deleteVm at herror ⊢
    cases hlookup : node.vms.lookup vmId with
    | none => rfl
    | some handle => simp [hlookup] at herror

theorem createVm_change
    (libs : AgentLibs) (calls : StartCalls) (node : Node cfg)
    (req : CreateVmRequest) :
    CallChange calls.rpc false req.vmId node (callNode libs calls.rpc node
      (Grpc.createVm node calls.pathExists calls.create req)) := by
  apply callNode_change
  · intro info hok
    obtain ⟨hfresh, handle, _, hvms⟩ := grpcCreateVm_ok (Prod.ext hok rfl)
    have hnew : req.vmId ∉ nodeVms node :=
      fun hmem => hfresh (List.mem_toFinset.mp hmem)
    exact ⟨iff_of_false hnew Bool.false_ne_true,
      nodeVms_insert hfresh hvms⟩
  · intro failure herror
    unfold Grpc.createVm at herror ⊢
    cases htranslate : translateRequest calls.pathExists req with
    | error status => rfl
    | ok arguments =>
        simp only [htranslate] at herror ⊢
        have heffect := node.createVm_effect calls.create arguments.config
          arguments.requestedIpv6 arguments.numaHint
        generalize node.createVm calls.create arguments.config
          arguments.requestedIpv6 arguments.numaHint = result
          at heffect herror
        cases heffect with
        | refused failure hrefused => rfl
        | failed failure offset after hfresh hfree hfailed hsame =>
            exact congrArg (fun vms => vms.keys.toFinset) hsame.vms
        | created info offset vmIpv6 launch after hcompletes hcreated =>
            simp at herror

/-! ## Counted errors -/

theorem countErrors_append
    (kind : String) (front back : List String) :
    countErrors kind (front ++ back) =
      countErrors kind front + countErrors kind back := by
  simp only [countErrors, List.filter_append, List.length_append]

theorem countErrors_singleton
    (kind error : String) :
    countErrors kind [error] =
      if kind.toList <+: error.toList then 1 else 0 := by
  unfold countErrors
  split_ifs with hstarts
  · rw [List.filter_cons_of_pos (by simpa using hstarts)]
    rfl
  · rw [List.filter_cons_of_neg (by simpa using hstarts)]
    rfl

/-- An error is counted by the label that it begins with. -/
theorem countErrors_label
    (kind label : String)
    (hlength : kind.toList.length ≤ label.toList.length)
    (id message : String) :
    countErrors kind [label ++ id ++ message] =
      if kind.toList <+: label.toList then 1 else 0 := by
  have hstarts : kind.toList <+: (label ++ id ++ message).toList ↔
      kind.toList <+: label.toList := by
    rw [String.toList_append, String.toList_append, List.append_assoc]
    constructor
    · intro hlong
      exact List.prefix_of_prefix_length_le hlong
        (List.prefix_append label.toList _) hlength
    · intro hshort
      exact hshort.trans (List.prefix_append label.toList _)
  rw [countErrors_singleton]
  simp only [hstarts]

theorem countErrors_labelled
    (kind label : String)
    (hlength : kind.toList.length ≤ label.toList.length)
    (id message : String) :
    countErrors kind [label ++ id ++ ": " ++ message] =
      if kind.toList <+: label.toList then 1 else 0 := by
  have htext : label ++ id ++ ": " ++ message =
      label ++ id ++ (": " ++ message) := String.append_assoc
  rw [htext]
  exact countErrors_label kind label hlength id _

/-- How a loop of calls counts.  Errors with one label are its failures;
`silent` items record an error with another label, and the answers of `lost`
items do not arrive. -/
structure LoopKind where
  label : String
  other : String
  there : Bool
  silent : ItemHash → Bool
  lost : ItemHash → Bool

def stopLoop (calls : AllocationCalls) : LoopKind where
  label := "stop"
  other := "start"
  there := true
  silent := fun _ => false
  lost := fun id => (calls.stop id).rpc.isLost

def startLoop (agent : AgentState) (calls : AllocationCalls) :
    LoopKind where
  label := "start"
  other := "stop"
  there := false
  silent := untranslatable agent calls
  lost := fun id => (calls.start id).rpc.isLost

/-- What a loop did to the machines, and what its errors add up to. -/
structure LoopSummary (loop : LoopKind) (items : List ItemHash)
    (before after : Progress cfg) (changed : Finset ItemHash)
    (failures : List String) : Prop where
  recorded : after.2 = before.2 ++ failures
  there : ∀ id ∈ changed, id ∈ nodeVms before.1 ↔ loop.there = true
  vms : nodeVms after.1 = nodeVms before.1 ∆ changed
  within : changed ⊆ items.toFinset
  counted : countErrors loop.label failures + changed.card +
      (items.filter loop.silent).length =
    items.length + (changed.filter fun id => loop.lost id = true).card
  uncounted : countErrors loop.other failures = 0

section Summaries

variable {loop : LoopKind}

theorem LoopSummary.nil
    (progress : Progress cfg) :
    LoopSummary loop [] progress progress ∅ [] where
  recorded := (List.append_nil _).symm
  there := by simp
  vms := (symmDiff_bot _).symm
  within := Finset.empty_subset _
  counted := rfl
  uncounted := rfl

theorem LoopSummary.done
    {id : ItemHash} {node after : Node cfg} {errors : List String}
    (hsilent : loop.silent id = false) (hheard : loop.lost id = false)
    (hthere : id ∈ nodeVms node ↔ loop.there = true)
    (hvms : nodeVms after = nodeVms node ∆ {id}) :
    LoopSummary loop [id] (node, errors) (after, errors) {id} [] where
  recorded := (List.append_nil _).symm
  there := by simpa using hthere
  vms := hvms
  within := by simp
  counted := by
    simp [hsilent, hheard, countErrors, Finset.filter_singleton]
  uncounted := rfl

theorem LoopSummary.unheard
    {id : ItemHash} {node after : Node cfg} {errors : List String}
    {error : String} (hsilent : loop.silent id = false)
    (hlost : loop.lost id = true)
    (hcounted : countErrors loop.label [error] = 1)
    (huncounted : countErrors loop.other [error] = 0)
    (hthere : id ∈ nodeVms node ↔ loop.there = true)
    (hvms : nodeVms after = nodeVms node ∆ {id}) :
    LoopSummary loop [id] (node, errors) (after, errors ++ [error]) {id}
      [error] where
  recorded := rfl
  there := by simpa using hthere
  vms := hvms
  within := by simp
  counted := by
    rw [hcounted]
    simp [hsilent, hlost, Finset.filter_singleton]
  uncounted := huncounted

theorem LoopSummary.failed
    {id : ItemHash} {node after : Node cfg} {errors : List String}
    {error : String} (hsilent : loop.silent id = false)
    (hcounted : countErrors loop.label [error] = 1)
    (huncounted : countErrors loop.other [error] = 0)
    (hvms : nodeVms after = nodeVms node) :
    LoopSummary loop [id] (node, errors) (after, errors ++ [error]) ∅
      [error] where
  recorded := rfl
  there := by simp
  vms := hvms.trans (symmDiff_bot _).symm
  within := Finset.empty_subset _
  counted := by
    rw [hcounted]
    simp [hsilent]
  uncounted := huncounted

theorem LoopSummary.silent
    {id : ItemHash} {node : Node cfg} {errors : List String}
    {error : String} (hsilent : loop.silent id = true)
    (hignored : countErrors loop.label [error] = 0)
    (huncounted : countErrors loop.other [error] = 0) :
    LoopSummary loop [id] (node, errors) (node, errors ++ [error]) ∅
      [error] where
  recorded := rfl
  there := by simp
  vms := (symmDiff_bot _).symm
  within := Finset.empty_subset _
  counted := by
    rw [hignored]
    simp [hsilent]
  uncounted := huncounted

theorem LoopSummary.append
    {first second : List ItemHash} {before middle after : Progress cfg}
    {changed others : Finset ItemHash} {failures more : List String}
    (hfirst : LoopSummary loop first before middle changed failures)
    (hsecond : LoopSummary loop second middle after others more)
    (hdisjoint : Disjoint first.toFinset second.toFinset) :
    LoopSummary loop (first ++ second) before after (changed ∪ others)
      (failures ++ more) := by
  have hapart : Disjoint changed others :=
    hdisjoint.mono hfirst.within hsecond.within
  constructor
  · rw [hsecond.recorded, hfirst.recorded, List.append_assoc]
  · intro id hid
    rcases Finset.mem_union.mp hid with hchanged | hother
    · exact hfirst.there id hchanged
    · have hkept : id ∉ changed := Finset.disjoint_right.mp hapart hother
      have hsame : id ∈ nodeVms middle.1 ↔ id ∈ nodeVms before.1 := by
        rw [hfirst.vms, Finset.mem_symmDiff]
        simp [hkept]
      exact hsame.symm.trans (hsecond.there id hother)
  · rw [hsecond.vms, hfirst.vms, symmDiff_assoc,
      Finset.symmDiff_eq_union hapart]
  · rw [List.toFinset_append]
    exact Finset.union_subset_union hfirst.within hsecond.within
  · have hcounted := hfirst.counted
    have hmore := hsecond.counted
    rw [countErrors_append, Finset.card_union_of_disjoint hapart,
      Finset.filter_union, Finset.card_union_of_disjoint
        (Finset.disjoint_filter_filter hapart), List.filter_append,
      List.length_append, List.length_append]
    omega
  · rw [countErrors_append, hfirst.uncounted, hsecond.uncounted]

/-- A loop over different items, from what one pass does. -/
theorem LoopSummary.foldl
    {step : Progress cfg → ItemHash → Progress cfg}
    (hstep : ∀ progress id, ∃ changed failures,
      LoopSummary loop [id] progress (step progress id) changed failures)
    {items : List ItemHash} (hnodup : items.Nodup)
    (progress : Progress cfg) :
    ∃ changed failures, LoopSummary loop items progress
      (items.foldl step progress) changed failures := by
  induction items generalizing progress with
  | nil => exact ⟨∅, [], .nil progress⟩
  | cons id rest ih =>
      obtain ⟨hfresh, hrest⟩ := List.nodup_cons.mp hnodup
      obtain ⟨changed, failures, hfirst⟩ := hstep progress id
      obtain ⟨others, more, hlater⟩ := ih hrest (step progress id)
      refine ⟨changed ∪ others, failures ++ more, hfirst.append hlater ?_⟩
      simpa using hfresh

end Summaries

/-! ## The two loops -/

theorem stopVm_summary
    (libs : AgentLibs) (calls : AllocationCalls) (progress : Progress cfg)
    (vmId : ItemHash) :
    ∃ changed failures, LoopSummary (stopLoop calls) [vmId] progress
      (stopVm libs calls progress vmId) changed failures := by
  obtain ⟨node, errors⟩ := progress
  have hcounted : ∀ message : String,
      countErrors "stop" [s!"stop {vmId}: {message}"] = 1 := by
    intro message
    exact (countErrors_labelled "stop" "stop " (by simp) vmId message).trans
      (if_pos (by simp))
  have huncounted : ∀ message : String,
      countErrors "start" [s!"stop {vmId}: {message}"] = 0 := by
    intro message
    exact (countErrors_labelled "start" "stop " (by simp) vmId message).trans
      (if_neg (by simp))
  have hchange := deleteVm_change libs (calls.stop vmId) node vmId
  unfold stopVm
  dsimp only
  generalize callNode libs (calls.stop vmId).rpc node
    (Grpc.deleteVm node (calls.stop vmId).delete vmId) = answer at hchange
  cases hchange with
  | done value after hheard hthere hvms =>
      exact ⟨_, _, .done rfl hheard hthere hvms⟩
  | unheard message after hlost hthere hvms =>
      exact ⟨_, _, .unheard rfl hlost (hcounted message)
        (huncounted message) hthere hvms⟩
  | failed message after hvms =>
      exact ⟨_, _, .failed rfl (hcounted message) (huncounted message)
        hvms⟩

theorem startVm_summary
    (libs : AgentLibs) (agent : AgentState) (calls : AllocationCalls)
    (progress : Progress cfg) (vmHash : ItemHash) :
    ∃ changed failures, LoopSummary (startLoop agent calls) [vmHash]
      progress (startVm libs agent calls progress vmHash) changed
      failures := by
  obtain ⟨node, errors⟩ := progress
  have hcounted : ∀ message : String,
      countErrors "start" [s!"start {vmHash}: {message}"] = 1 := by
    intro message
    exact (countErrors_labelled "start" "start " (by simp) vmHash message).trans
      (if_pos (by simp))
  have huncounted : ∀ message : String,
      countErrors "stop" [s!"start {vmHash}: {message}"] = 0 := by
    intro message
    exact (countErrors_labelled "stop" "start " (by simp) vmHash message).trans
      (if_neg (by simp))
  unfold startVm
  dsimp only
  cases hmsg : agent.messages.entries.lookup vmHash with
  | none =>
      have hsilent : untranslatable agent calls vmHash = false := by
        simp only [untranslatable, hmsg]
      refine ⟨_, _, .failed hsilent ?_ ?_ rfl⟩
      · exact (countErrors_label "start" "start " (by simp) vmHash
          ": message not found").trans (if_pos (by simp))
      · exact (countErrors_label "stop" "start " (by simp) vmHash
          ": message not found").trans (if_neg (by simp))
  | some msg =>
      have hhash := agent.messages.keyed vmHash msg hmsg
      dsimp only
      cases htranslate : translateMessage (calls.start vmHash).cache
          agent.adapterConfig msg with
      | error message =>
          have hsilent : untranslatable agent calls vmHash = true := by
            simp only [untranslatable, hmsg, htranslate]
          have hignored : ∀ kind, kind = "start" ∨ kind = "stop" →
              countErrors kind [s!"translate {vmHash}: {message}"] = 0 := by
            intro kind hkind
            have hlength : kind.toList.length ≤
                "translate ".toList.length := by
              rcases hkind with rfl | rfl <;> simp
            refine (countErrors_labelled kind "translate " hlength vmHash
              message).trans (if_neg ?_)
            rcases hkind with rfl | rfl <;> simp
          exact ⟨_, _, .silent hsilent (hignored "start" (.inl rfl))
            (hignored "stop" (.inr rfl))⟩
      | ok req =>
          have hsilent : untranslatable agent calls vmHash = false := by
            simp only [untranslatable, hmsg, htranslate]
          have hid : req.vmId = vmHash := by
            rw [translateMessage_vmId htranslate, hhash]
          have hchange := createVm_change libs (calls.start vmHash) node req
          rw [hid] at hchange
          dsimp only
          generalize callNode libs (calls.start vmHash).rpc node
            (Grpc.createVm node (calls.start vmHash).pathExists
              (calls.start vmHash).create req) = answer at hchange
          cases hchange with
          | done value after hheard hthere hvms =>
              refine ⟨_, _, .done hsilent hheard hthere ?_⟩
              rw [← hvms]
              exact congrArg (fun vms => vms.keys.toFinset)
                (addForwards_vms _ _ _ _)
          | unheard message after hlost hthere hvms =>
              exact ⟨_, _, .unheard hsilent hlost (hcounted message)
                (huncounted message) hthere hvms⟩
          | failed message after hvms =>
              exact ⟨_, _, .failed hsilent (hcounted message)
                (huncounted message) hvms⟩

/-! ## The response -/

/-- Nothing is subtracted in a response without errors, so both responses
carry the same differences. -/
theorem truthful_allocationResponse_iff
    {actions : ReconcileActions} {errors : List String}
    (hstarts : countErrors "start" errors ≤ actions.toStart.length)
    (hstops : countErrors "stop" errors ≤ actions.toStop.length)
    (before after : Node cfg) :
    (∃ response, allocationResponse actions errors = .ok response) ∧
      (Truthful (allocationResponse actions errors) before after ↔
        actions.toStart.length - countErrors "start" errors =
            (createdVms before after).card ∧
          actions.toStop.length - countErrors "stop" errors =
            (deletedVms before after).card) := by
  unfold allocationResponse
  split_ifs with hempty
  · rw [List.isEmpty_iff.mp hempty]
    exact ⟨⟨_, rfl⟩, Iff.rfl⟩
  · simp only [checkedSub, hstarts, hstops, if_true]
    exact ⟨⟨_, rfl⟩, Iff.rfl⟩

/-- What was there and changed was deleted, and the rest was created. -/
theorem changedVms_of_symmDiff
    {before after : Node cfg} {deleted created : Finset ItemHash}
    (hvms : nodeVms after = nodeVms before ∆ (deleted ∪ created))
    (hold : ∀ id ∈ deleted, id ∈ nodeVms before)
    (hnew : ∀ id ∈ created, id ∉ nodeVms before) :
    deletedVms before after = deleted ∧
      createdVms before after = created := by
  constructor
  · ext id
    rw [deletedVms, hvms, Finset.mem_sdiff, Finset.mem_symmDiff,
      Finset.mem_union]
    grind
  · ext id
    rw [createdVms, hvms, Finset.mem_sdiff, Finset.mem_symmDiff,
      Finset.mem_union]
    grind

theorem applyActions_truthful_iff
    (libs : AgentLibs) (agent : AgentState) (calls : AllocationCalls)
    (node : Node cfg) {actions : ReconcileActions}
    (hnodup : (actions.toStop ++ actions.toStart).Nodup)
    {after : Progress cfg}
    (hafter : applyActions libs agent calls node actions = after) :
    (∃ response, allocationResponse actions after.2 = .ok response) ∧
      (Truthful (allocationResponse actions after.2) node after.1 ↔
        (∀ id ∈ deletedVms node after.1,
          (calls.stop id).rpc.isLost = false) ∧
        (actions.toStart.filter (untranslatable agent calls)).length =
          ((createdVms node after.1).filter fun id =>
            (calls.start id).rpc.isLost = true).card) := by
  obtain ⟨hstops, hstarts, hapart⟩ := List.nodup_append'.mp hnodup
  obtain ⟨deleted, stopped, hstop⟩ := LoopSummary.foldl
    (stopVm_summary libs calls) hstops (node, [])
  obtain ⟨created, started, hstart⟩ := LoopSummary.foldl
    (startVm_summary libs agent calls) hstarts
    (actions.toStop.foldl (stopVm libs calls) (node, []))
  change actions.toStart.foldl (startVm libs agent calls)
    (actions.toStop.foldl (stopVm libs calls) (node, [])) = after at hafter
  rw [hafter] at hstart
  have hdisjoint : Disjoint deleted created := by
    refine Disjoint.mono hstop.within hstart.within ?_
    rw [List.disjoint_toFinset_iff_disjoint]
    exact hapart
  have hvms : nodeVms after.1 = nodeVms node ∆ (deleted ∪ created) := by
    rw [hstart.vms, hstop.vms, symmDiff_assoc,
      Finset.symmDiff_eq_union hdisjoint]
  have hold : ∀ id ∈ deleted, id ∈ nodeVms node := by
    intro id hid
    exact (hstop.there id hid).mpr rfl
  have hnew : ∀ id ∈ created, id ∉ nodeVms node := by
    intro id hid hmem
    have hkept : id ∉ deleted := Finset.disjoint_right.mp hdisjoint hid
    have hthere := (hstart.there id hid).mp (by
      rw [hstop.vms, Finset.mem_symmDiff]
      exact .inl ⟨hmem, hkept⟩)
    cases hthere
  obtain ⟨hdeleted, hcreated⟩ := changedVms_of_symmDiff hvms hold hnew
  have herrors : after.2 = stopped ++ started := by
    rw [hstart.recorded, hstop.recorded]
    rfl
  have hstopErrors : countErrors "stop" after.2 + deleted.card =
      actions.toStop.length +
        (deleted.filter fun id => (calls.stop id).rpc.isLost = true).card := by
    have hcounted := hstop.counted
    have huncounted : countErrors "stop" started = 0 := hstart.uncounted
    have hsilent : actions.toStop.filter (stopLoop calls).silent = [] := by
      simp [stopLoop]
    rw [hsilent] at hcounted
    rw [herrors, countErrors_append, huncounted]
    exact hcounted
  have hstartErrors : countErrors "start" after.2 + created.card +
      (actions.toStart.filter (untranslatable agent calls)).length =
      actions.toStart.length +
        (created.filter fun id =>
          (calls.start id).rpc.isLost = true).card := by
    have hcounted := hstart.counted
    have huncounted : countErrors "start" stopped = 0 := hstop.uncounted
    rw [herrors, countErrors_append, huncounted, Nat.zero_add]
    exact hcounted
  have hunheard := Finset.card_filter_le deleted fun id =>
    (calls.stop id).rpc.isLost = true
  have hunanswered := Finset.card_filter_le created fun id =>
    (calls.start id).rpc.isLost = true
  have hheard : (∀ id ∈ deleted, (calls.stop id).rpc.isLost = false) ↔
      (deleted.filter fun id => (calls.stop id).rpc.isLost = true).card =
        0 := by
    rw [Finset.card_eq_zero, Finset.filter_eq_empty_iff]
    simp
  obtain ⟨hresponse, htruthful⟩ := truthful_allocationResponse_iff
    (by omega : countErrors "start" after.2 ≤ actions.toStart.length)
    (by omega) node after.1
  refine ⟨hresponse, ?_⟩
  rw [htruthful, hdeleted, hcreated, hheard]
  omega

/-! ## The whole request -/

/-- The machines that a request starts: the allocated ones that are not
listed. -/
def machinesToStart (node : Node cfg) (calls : AllocationCalls)
    (allocation : Allocation) : Finset ItemHash :=
  allocation.allVms \ listedVms node calls

/-- No answer to a deletion is lost, and as many messages cannot be
translated as answers to creations are lost. -/
structure CountsMatch (agent : AgentState) (calls : AllocationCalls)
    (allocation : Allocation) (before after : Node cfg) : Prop where
  deletions : ∀ id ∈ deletedVms before after,
    (calls.stop id).rpc.isLost = false
  creations : ((machinesToStart before calls allocation).filter fun hash =>
      untranslatable agent calls hash = true).card =
    ((createdVms before after).filter fun id =>
      (calls.start id).rpc.isLost = true).card

theorem elements_nodup
    (order : IterationOrder) (set : Finset String) :
    (elements order set).Nodup :=
  (order.perm _).nodup_iff.mpr (Finset.sort_nodup set _)

theorem length_filter_toStart
    (node : Node cfg) (calls : AllocationCalls) (allocation : Allocation)
    (test : ItemHash → Bool) :
    ((reconcile calls.desiredOrder calls.runningOrder allocation
        (listedVms node calls)).toStart.filter test).length =
      ((machinesToStart node calls allocation).filter fun hash =>
        test hash = true).card := by
  have hnodup : ((reconcile calls.desiredOrder calls.runningOrder allocation
      (listedVms node calls)).toStart.filter test).Nodup :=
    ((elements_nodup _ _).filter _).filter _
  rw [← List.toFinset_card_of_nodup hnodup]
  congr 1
  ext hash
  simp only [reconcile, machinesToStart, List.mem_toFinset,
    List.mem_filter, mem_elements, decide_eq_true_eq, Finset.mem_filter,
    Finset.mem_sdiff]

theorem authorized_iff
    {libs : AgentLibs} {agent : AgentState} {request : AllocationRequest} :
    (match agent.allocationTokenHash with
      | none => true
      | some tokenHash => verifyAllocationSignature libs request.body
          (request.signature.getD "") tokenHash) = true ↔
      ∀ tokenHash, agent.allocationTokenHash = some tokenHash →
        verifyAllocationSignature libs request.body
          (request.signature.getD "") tokenHash = true := by
  cases agent.allocationTokenHash with
  | none => simp
  | some tokenHash => simp

theorem handleAllocation_processed
    {libs : AgentLibs} {agent : AgentState} {calls : AllocationCalls}
    {request : AllocationRequest} {allocation : Allocation}
    (hprocesses : Processes libs agent calls request allocation)
    (node : Node cfg) :
    handleAllocation libs agent calls node request =
      (allocationResponse (reconcile calls.desiredOrder calls.runningOrder
          allocation (listedVms node calls))
        (applyActions libs agent calls node (reconcile calls.desiredOrder
          calls.runningOrder allocation (listedVms node calls))).2,
      (applyActions libs agent calls node (reconcile calls.desiredOrder
        calls.runningOrder allocation (listedVms node calls))).1) := by
  have hauthorized := authorized_iff.mpr hprocesses.authorized
  unfold handleAllocation
  simp only [hprocesses.parsed, hprocesses.listed, callNode]
  exact if_neg (ne_of_eq_of_ne hauthorized (by decide))

theorem handleAllocation_unprocessed
    {libs : AgentLibs} {agent : AgentState} {calls : AllocationCalls}
    {request : AllocationRequest} {node : Node cfg}
    (hnone : ∀ allocation,
      ¬ Processes libs agent calls request allocation) :
    (∃ response,
      (handleAllocation libs agent calls node request).1 = .ok response) ∧
    Truthful (handleAllocation libs agent calls node request).1 node
      (handleAllocation libs agent calls node request).2 := by
  unfold handleAllocation
  dsimp only
  split_ifs with hauthorized
  · exact ⟨⟨_, rfl⟩, trivial⟩
  · rw [Bool.not_eq_false] at hauthorized
    cases hparse : libs.parseAllocation request.body with
    | error message => exact ⟨⟨_, rfl⟩, trivial⟩
    | ok allocation =>
        cases hlist : calls.listRpc with
        | unreachable message => exact ⟨⟨_, rfl⟩, trivial⟩
        | lost message => exact ⟨⟨_, rfl⟩, trivial⟩
        | answered =>
            exact (hnone allocation
              ⟨authorized_iff.mp hauthorized, hparse, hlist⟩).elim

theorem handleAllocation_truthful_iff
    (libs : AgentLibs) (agent : AgentState) (calls : AllocationCalls)
    (node : Node cfg) (request : AllocationRequest) :
    (∃ response,
      (handleAllocation libs agent calls node request).1 = .ok response) ∧
    (Truthful (handleAllocation libs agent calls node request).1 node
        (handleAllocation libs agent calls node request).2 ↔
      ∀ allocation, Processes libs agent calls request allocation →
        CountsMatch agent calls allocation node
          (handleAllocation libs agent calls node request).2) := by
  by_cases hany : ∃ allocation,
      Processes libs agent calls request allocation
  · obtain ⟨allocation, hprocesses⟩ := hany
    have hunique : ∀ other,
        Processes libs agent calls request other → other = allocation := by
      intro other hother
      exact Except.ok.inj (hother.parsed.symm.trans hprocesses.parsed)
    have hnodup := actions_nodup
      ⟨allocation, calls.desiredOrder, calls.runningOrder⟩
      (listedVms node calls)
    obtain ⟨hresponse, hcounts⟩ := applyActions_truthful_iff libs agent
      calls node hnodup rfl
    rw [AcceptedAllocation.actions, length_filter_toStart] at hcounts
    rw [handleAllocation_processed hprocesses node]
    refine ⟨hresponse, hcounts.trans ?_⟩
    constructor
    · intro hequal other hother
      rw [hunique other hother]
      exact ⟨hequal.1, hequal.2⟩
    · intro hall
      have hmatch := hall allocation hprocesses
      exact ⟨hmatch.deletions, hmatch.creations⟩
  · rw [not_exists] at hany
    obtain ⟨hresponse, htruthful⟩ := handleAllocation_unprocessed hany
    refine ⟨hresponse, iff_of_true htruthful ?_⟩
    intro allocation hprocesses
    exact (hany allocation hprocesses).elim

/-- For every allocation, node, set of messages and pattern of outcomes: no
subtraction overflows, and the numbers are those of the machines created and
deleted if and only if no answer to a deletion is lost and as many messages
cannot be translated as answers to creations are lost.  When every answer
arrives, that is to say that every registered message of a machine to be
started can be translated. -/
theorem allocation_report_truthful_iff
    (libs : AgentLibs) (agent : AgentState) (calls : AllocationCalls)
    (node : Node cfg) (request : AllocationRequest) :
    (∃ response,
      (handleAllocation libs agent calls node request).1 = .ok response) ∧
    (Truthful (handleAllocation libs agent calls node request).1 node
        (handleAllocation libs agent calls node request).2 ↔
      ∀ allocation, Processes libs agent calls request allocation →
        CountsMatch agent calls allocation node
          (handleAllocation libs agent calls node request).2) ∧
    ((∀ id, (calls.stop id).rpc.isLost = false ∧
        (calls.start id).rpc.isLost = false) →
      (Truthful (handleAllocation libs agent calls node request).1 node
          (handleAllocation libs agent calls node request).2 ↔
        ∀ allocation, Processes libs agent calls request allocation →
          ∀ hash ∈ machinesToStart node calls allocation,
            untranslatable agent calls hash = false)) := by
  obtain ⟨hresponse, hexact⟩ :=
    handleAllocation_truthful_iff libs agent calls node request
  refine ⟨hresponse, hexact, ?_⟩
  intro hheard
  rw [hexact]
  refine forall_congr' fun allocation => imp_congr_right fun _ => ?_
  have hcreated : ((createdVms node
      (handleAllocation libs agent calls node request).2).filter fun id =>
        (calls.start id).rpc.isLost = true).card = 0 := by
    rw [Finset.card_eq_zero, Finset.filter_eq_empty_iff]
    intro id _
    simp [(hheard id).2]
  constructor
  · intro hmatch hash hhash
    have hnone := hmatch.creations
    rw [hcreated, Finset.card_eq_zero, Finset.filter_eq_empty_iff] at hnone
    simpa using hnone hhash
  · intro hall
    refine ⟨fun id _ => (hheard id).1, ?_⟩
    rw [hcreated, Finset.card_eq_zero, Finset.filter_eq_empty_iff]
    intro hash hhash
    simp [hall hash hhash]

/-! ## A message that cannot be translated -/

def knowingVmA : AgentState :=
  { sampleAgent with
    messages := sampleAgent.messages.register (instanceNamed "vm-a") }

def cacheUnreachable : AllocationCalls :=
  { allocationSucceeds with
    start := fun vmHash =>
      { allocationSucceeds.start vmHash with
        cache := fun _ _ => .error "connection refused" } }

theorem untranslatable_reported_as_started :
    (handleAllocation sampleLibs knowingVmA cacheUnreachable smallNode
        ⟨none, sampleBody⟩).1 =
      .ok (.multiStatus 1 0 0
        ["translate vm-a: downloading rootfs"]) ∧
      createdVms smallNode (handleAllocation sampleLibs knowingVmA
        cacheUnreachable smallNode ⟨none, sampleBody⟩).2 = ∅ ∧
      ¬ Truthful (handleAllocation sampleLibs knowingVmA cacheUnreachable
          smallNode ⟨none, sampleBody⟩).1 smallNode
        (handleAllocation sampleLibs knowingVmA cacheUnreachable smallNode
          ⟨none, sampleBody⟩).2 := by
  have hresponse : (handleAllocation sampleLibs knowingVmA cacheUnreachable
      smallNode ⟨none, sampleBody⟩).1 =
        .ok (.multiStatus 1 0 0
          ["translate vm-a: downloading rootfs"]) := by
    decide +kernel
  have hnone : createdVms smallNode (handleAllocation sampleLibs knowingVmA
      cacheUnreachable smallNode ⟨none, sampleBody⟩).2 = ∅ := by
    decide +kernel
  refine ⟨hresponse, hnone, ?_⟩
  intro htruthful
  rw [hresponse] at htruthful
  have hstarted := htruthful.1
  rw [hnone] at hstarted
  cases hstarted

end AlephCvm.Agent
