import AlephCvm.CleanupOutcomes
import AlephCvm.ForwardRemovals

/-!
# Port forward calls that fail

An addition enters its forward into the map, calls `nft`, and takes the entry
back when the call fails.  A removal drops its entry first as well, but
nothing puts it back: when `nft` fails, the entry is gone from memory while
the rule and the state file still have it, and a second attempt does not find
it.
-/

namespace AlephCvm.Vm

open StepRuns ResultContext AlephCvm.Tee AlephCvm.Numa AlephCvm.Net
open AlephCvm.Nft AlephCvm.Qemu

variable {cfg : NodeConfig}

/-- The forwards in memory and in the state files are as before. -/
structure ForwardsIntact (node after : Node cfg) : Prop where
  memory : after.portForwards = node.portForwards
  files : after.stateDir = node.stateDir

/-- If the operation is a call about a forward and fails, it leaves the
forwards as they were. -/
def Node.FailsIntact (node : Node cfg) : ManagerOp → Prop
  | .addPortForward calls vmId hostPort vmPort protocol =>
      ∀ message after,
        node.addPortForward calls vmId hostPort vmPort protocol =
          (.error message, after) → ForwardsIntact node after
  | .removePortForward calls hostPort protocol =>
      ∀ message after,
        node.removePortForward calls hostPort protocol =
          (.error message, after) → ForwardsIntact node after
  | _ => True

/-- `nft` can be called for both listings, and for the batch when a family
that was read has a rule to delete. -/
structure Node.NftRemoves (node : Node cfg) (calls : NftCalls)
    (hostPort : UInt16) (protocol : Protocol) : Prop where
  listings : ∀ family message, calls.list family ≠ .notExecuted message
  batch : calls.batch.executed = .ok () ∨
    ∀ rule ∈ node.ruleset.rules, calls.list rule.family = .listed →
      isDnatRuleMatching rule cfg.nftables.supervisorPreroutingChain
        hostPort protocol = false

/-- A removal is of no forward, or `nft` does its part. -/
def Node.RemovalUndisturbed (node : Node cfg) : ManagerOp → Prop
  | .removePortForward calls hostPort protocol =>
      node.portForwards.lookup (hostPort, protocol) = none ∨
        node.NftRemoves calls.nft hostPort protocol
  | _ => True

theorem ForwardsIntact.refl (node : Node cfg) : ForwardsIntact node node :=
  ⟨rfl, rfl⟩

theorem erase_add_of_free
    {forwards : PortForwardState} (forward : PortForward)
    (hfree : forwards.lookup forward.key = none) :
    (PortForwardState.add forwards forward).erase forward.key = forwards := by
  have hfresh := AList.lookup_eq_none.mp hfree
  apply AList.ext
  change ((PortForwardState.add forwards forward).entries.kerase
    forward.key) = forwards.entries
  rw [PortForwardState.add, AList.entries_insert_of_notMem hfresh]
  exact List.kerase_cons_eq rfl

theorem Node.addPortForward_failsIntact
    {node after : Node cfg} {calls : ForwardCalls} {vmId : String}
    {hostPort vmPort : UInt16} {protocol : Protocol} {message : String}
    (hfailed : node.addPortForward calls vmId hostPort vmPort protocol =
      (.error message, after)) : ForwardsIntact node after := by
  have hresult := node.addPortForward_result calls vmId hostPort vmPort
    protocol
  rw [hfailed] at hresult
  cases hresult with
  | refused => exact .refl node
  | rolledBack _ chosen hchosen =>
      exact ⟨erase_add_of_free ⟨vmId, chosen, vmPort, protocol⟩
        (chooseHostPort_free hchosen), rfl⟩

theorem Node.nftRemoves_iff
    {node : Node cfg} {calls : NftCalls} {hostPort : UInt16}
    {protocol : Protocol} :
    node.NftRemoves calls hostPort protocol ↔
      ∃ next, cfg.nftables.removePortForward calls node.ruleset hostPort
        protocol = .ok next := by
  rw [NftablesManager.removePortForward_isOk_iff]
  exact ⟨fun h => ⟨h.listings, h.batch⟩, fun h => ⟨h.1, h.2⟩⟩

/-- A map without the entry is not the one that had it. -/
theorem not_intact_of_erased
    {node after : Node cfg} {key : UInt16 × Protocol} {forward : PortForward}
    (hfound : node.portForwards.lookup key = some forward)
    (herased : after.portForwards = node.portForwards.erase key) :
    ¬ ForwardsIntact node after := by
  intro hintact
  have hlookup := AList.lookup_erase key node.portForwards
  rw [← herased, hintact.memory, hfound] at hlookup
  cases hlookup

theorem Node.removePortForward_failsIntact_iff
    {node : Node cfg} {calls : ForwardCalls} {hostPort : UInt16}
    {protocol : Protocol} :
    (∀ message after,
      node.removePortForward calls hostPort protocol =
        (.error message, after) → ForwardsIntact node after) ↔
      node.portForwards.lookup (hostPort, protocol) = none ∨
        node.NftRemoves calls.nft hostPort protocol := by
  have hresult := node.removePortForward_result calls hostPort protocol
  rw [Node.nftRemoves_iff]
  generalize node.removePortForward calls hostPort protocol = result
    at hresult ⊢
  cases hresult with
  | notFound message hnone =>
      refine iff_of_true ?_ (.inl hnone)
      intro _ after hfailed
      cases hfailed
      exact .refl node
  | unremoved message forward hfound hfailed =>
      refine iff_of_false ?_ ?_
      · intro hintact
        exact not_intact_of_erased hfound rfl (hintact message _ rfl)
      · rintro (hnone | ⟨next, hok⟩)
        · rw [hfound] at hnone
          cases hnone
        · rw [hfailed] at hok
          cases hok
  | removed forward ruleset after hfound hremove hsaved =>
      refine iff_of_true ?_ (.inr ⟨ruleset, hremove⟩)
      intro message _ hfailed
      cases hfailed

/-- Along every run, the forward calls that fail leave the forwards intact
exactly when no removal of an existing forward is disturbed. -/
theorem failed_forward_calls_intact_iff
    (node : Node cfg) (ops : List ManagerOp) :
    Along Node.step Node.FailsIntact node ops ↔
      Along Node.step Node.RemovalUndisturbed node ops := by
  apply along_congr
  intro node op
  cases op with
  | removePortForward calls hostPort protocol =>
      exact Node.removePortForward_failsIntact_iff
  | addPortForward calls vmId hostPort vmPort protocol =>
      refine iff_of_true ?_ trivial
      intro message after hfailed
      exact Node.addPortForward_failsIntact hfailed
  | createVm calls config requestedIpv6 numaHint => exact Iff.rfl
  | deleteVm calls id => exact Iff.rfl
  | restart calls => exact Iff.rfl

/-! ## A removal without nft -/

def nftMissing : ForwardCalls :=
  ⟨⟨fun _ => .notExecuted "No such file or directory (os error 2)",
    ⟨.error "failed to spawn nft", ""⟩⟩, .stored, true⟩

/-- The forward of port 8080 is gone, and a second attempt fails even with
`nft` in place. -/
theorem failed_removal_drops_forward :
    ∃ message after,
      twoOwners.removePortForward nftMissing 8080 .tcp =
        (.error message, after) ∧
      ¬ ForwardsIntact twoOwners after ∧
      (after.removePortForward addSucceeds 8080 .tcp).1 =
        .error "port forward not found" := by
  have hfound : twoOwners.portForwards.lookup (8080, .tcp) =
      some ⟨"vm-a", 8080, 80, .tcp⟩ := by
    decide +kernel
  have hresult := twoOwners.removePortForward_result nftMissing 8080 .tcp
  generalize twoOwners.removePortForward nftMissing 8080 .tcp = result
    at hresult ⊢
  cases hresult with
  | notFound message hnone =>
      rw [hfound] at hnone
      cases hnone
  | unremoved message forward hstored hfailed =>
      refine ⟨message, _, rfl, not_intact_of_erased hfound rfl, ?_⟩
      simp [Node.removePortForward, PortForwardState.remove]
  | removed forward ruleset after hstored hremove hsaved => cases hremove

/-- The redirection to the first machine outlives its entry, and goes when
the second machine, which has got the port since, gives it back. -/
example :
    let node := run Node.step twoOwners
      [.removePortForward nftMissing 8080 .tcp,
        .addPortForward addSucceeds "vm-b" 8080 80 .tcp]
    let redirects := fun rule => isDnatRuleMatching rule
      smallHost.nftables.supervisorPreroutingChain 8080 .tcp
    node.ruleset.rules.countP redirects = 2 ∧
      (Grpc.removePortForward node addSucceeds
        ⟨"vm-b", 8080, "tcp"⟩).2.ruleset.rules.countP redirects = 0 := by
  decide +kernel

end AlephCvm.Vm
