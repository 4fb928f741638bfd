import AlephCvm.CleanupOutcomes
import AlephCvm.NarrowedFields

/-!
# Removals and the owners of forwards

A request to remove a forward names a machine, and the service does not look
at it.  What a removal does to the forwards of the other machines is compared
with what they had: their entries, their rules and their state files.  A rule
belongs to the machine to which it leads, whether or not the entry of its
forward is still in memory.
-/

namespace AlephCvm.Nft

open ResultContext AlephCvm.Net

variable {manager : NftablesManager} {calls : NftCalls}
  {ruleset next : Ruleset} {hostPort : UInt16} {protocol : Protocol}

/-- A successful removal takes the matching rules that it was shown, and
leaves the others. -/
theorem NftablesManager.mem_removePortForward_iff
    (hok : manager.removePortForward calls ruleset hostPort protocol =
      .ok next) {rule : Rule} :
    rule ∈ next.rules ↔ rule ∈ ruleset.rules ∧
      ¬ (calls.list rule.family = .listed ∧
        isDnatRuleMatching rule manager.supervisorPreroutingChain hostPort
          protocol = true) := by
  rw [(removePortForward_rulesKept manager hok).rules, List.mem_filter,
    Bool.not_eq_true', ← Bool.not_eq_true, Bool.and_eq_true, beq_iff_eq]

/-- The two rules that stand for a forward at this port. -/
def ForwardsRule (key : UInt16 × Protocol) (forward : PortForward)
    (rule : Rule) : Prop :=
  (∃ guestIp, rule.expr = forwardExpr guestIp
    ⟨forward.vmId, key.1, forward.vmPort, key.2⟩) ∨
  rule.expr = portAcceptExpr forward.vmPort key.2

end AlephCvm.Nft

namespace AlephCvm.Vm

open ResultContext StepRuns TableFolds AlephCvm.Net AlephCvm.Nft
open AlephCvm.Grpc

variable {cfg : NodeConfig}

/-- The address that the machine has in memory, or in its state file. -/
def HasAddress (node : Node cfg) (vmId : String) (ip : Ipv4Addr) : Prop :=
  (∃ handle, node.vms.lookup vmId = some handle ∧ handle.ip = ip) ∨
    ∃ persisted, node.stateDir.lookup (stateFile vmId) = some persisted ∧
      persisted.ip = ip

/-- The rules of a machine: those that redirect to it, those of its own
filter chain, and those that a forward in memory stands for. -/
inductive OwnsRule (node : Node cfg) (vmId : String) (rule : Rule) : Prop
  where
  | redirects {ip : Ipv4Addr} {port : ℕ}
      (hip : HasAddress node vmId ip)
      (hdnat : .dnat (ipv4Text ip) port ∈ rule.expr) :
      OwnsRule node vmId rule
  | accepts (hchain : rule.chain = cfg.nftables.vmFilterChain vmId) :
      OwnsRule node vmId rule
  | remembered {key : UInt16 × Protocol} {forward : PortForward}
      (hlookup : node.portForwards.lookup key = some forward)
      (howner : forward.vmId = vmId)
      (hrule : ForwardsRule key forward rule) : OwnsRule node vmId rule

/-- The forwards of all other machines, with their rules and state files. -/
structure OtherForwardsKept (node : Node cfg) (vmId : String)
    (after : Node cfg) : Prop where
  memory : ∀ key forward, forward.vmId ≠ vmId →
    (after.portForwards.lookup key = some forward ↔
      node.portForwards.lookup key = some forward)
  rules : ∀ other rule, other ≠ vmId → OwnsRule node other rule →
    (rule ∈ after.ruleset.rules ↔ rule ∈ node.ruleset.rules)
  files : ∀ other, other ≠ vmId →
    after.stateDir.lookup (stateFile other) =
      node.stateDir.lookup (stateFile other)

/-- The request hits an entry, and a DNAT rule that leads to another machine
lies at its port where nft is shown it and can delete it. -/
structure HitsRedirect (node : Node cfg) (calls : NftCalls)
    (req : RemovePortForwardRequest) (protocol : Protocol)
    (forward : PortForward) (other : String) (rule : Rule) : Prop where
  parsed : parseProtocol req.protocol = .ok protocol
  found : node.portForwards.lookup (req.hostPort.toUInt16, protocol) =
    some forward
  foreign : other ≠ req.vmId
  leads : ∃ ip port, HasAddress node other ip ∧
    .dnat (ipv4Text ip) port ∈ rule.expr
  installed : rule ∈ node.ruleset.rules
  matching : isDnatRuleMatching rule
    cfg.nftables.supervisorPreroutingChain req.hostPort.toUInt16 protocol =
      true
  listed : calls.list rule.family = .listed
  lists : ∀ family message, calls.list family ≠ .notExecuted message
  runs : calls.batch.executed = .ok ()

theorem OtherForwardsKept.refl (node : Node cfg) (vmId : String) :
    OtherForwardsKept node vmId node :=
  ⟨fun _ _ _ => Iff.rfl, fun _ _ _ _ => Iff.rfl, fun _ _ => rfl⟩

theorem ForwardsSaved.files
    {node after : Node cfg} {calls : ForwardCalls} {vmId other : String}
    (hsaved : ForwardsSaved node calls vmId after) (hother : other ≠ vmId) :
    after.stateDir.lookup (stateFile other) =
      node.stateDir.lookup (stateFile other) := by
  cases hsaved with
  | unsaved hunsaved => rfl
  | saved persisted hfile =>
      apply AList.lookup_insert_ne
      intro hsame
      exact hother (stateFile_injective hsame)

/-- The redirection to another machine is gone. -/
theorem HitsRedirect.removed
    {node : Node cfg} {calls : ForwardCalls}
    {req : RemovePortForwardRequest} {protocol : Protocol}
    {forward : PortForward} {other : String} {rule : Rule}
    (hhits : HitsRedirect node calls.nft req protocol forward other rule) :
    rule ∉ (node.removePortForward calls req.hostPort.toUInt16
      protocol).2.ruleset.rules := by
  obtain ⟨next, hnext⟩ :=
    (cfg.nftables.removePortForward_isOk_iff).mpr
      ⟨hhits.lists, .inl hhits.runs⟩
  have hresult :=
    node.removePortForward_result calls req.hostPort.toUInt16 protocol
  generalize node.removePortForward calls req.hostPort.toUInt16 protocol =
    result at hresult
  cases hresult with
  | notFound message hnone =>
      rw [hhits.found] at hnone
      cases hnone
  | unremoved message found hentry hfailed =>
      rw [hnext] at hfailed
      cases hfailed
  | removed found ruleset after hentry hremove hsaved =>
      rw [hsaved.ruleset, NftablesManager.mem_removePortForward_iff hremove]
      exact fun hkept => hkept.2 ⟨hhits.listed, hhits.matching⟩

/-- Two machines, the first with the host port 8080. -/
def twoOwners : Node smallHost :=
  run Node.step smallNode
    [.createVm createSucceeds (smallConfig "vm-a" .none) none none,
      .createVm createSucceeds (smallConfig "vm-b" .none) none none,
      .addPortForward addSucceeds "vm-a" 8080 80 .tcp]

end AlephCvm.Vm
