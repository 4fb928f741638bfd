import AlephCvm.Installations

/-!
# Ports that forwards open

All filter chains of machines hang off one chain by jumps without conditions,
and a rule that accepts a forwarded port does not say to whom.  A new
connection is accepted for its port if and only if any machine forwards the
port, so machines are kept apart exactly where every open port is their own.
-/

namespace AlephCvm.Nft

open PacketFilter StepRuns AlephCvm.Net

/-- The first packet of a connection to the port. -/
structure Packet.Opens (packet : Packet) (address : Ipv4Addr)
    (port : UInt16) (protocol : Protocol) : Prop where
  state : packet.ctState = "new"
  daddr : packet.daddr = address
  heads : packet.headsFor port protocol = true

def Installed.Forwards (installed : Installed) (vmId : String)
    (port : UInt16) (protocol : Protocol) : Prop :=
  ∃ forward ∈ installed.forwards, forward.vmId = vmId ∧
    forward.vmPort = port ∧ forward.protocol = protocol

theorem headsFor_unique {packet : Packet} {port found : UInt16}
    {protocol other : Protocol}
    (hfirst : packet.headsFor port protocol = true)
    (hsecond : packet.headsFor found other = true) :
    found = port ∧ other = protocol := by
  simp only [Packet.headsFor, Bool.and_eq_true, beq_iff_eq]
    at hfirst hsecond
  refine ⟨hsecond.2.symm.trans hfirst.2, ?_⟩
  have htext := hsecond.1.symm.trans hfirst.1
  revert htext
  cases other <;> cases protocol <;> decide

namespace NftablesManager

variable (manager : NftablesManager)

/-- The supervisor's filter chain accepts the packet by a rule for a
forwarded port. -/
def AcceptedByPort (ruleset : Ruleset) (foreign : ForeignRules)
    (packet : Packet) : Prop :=
  ∃ rule port protocol, rule.expr = portAcceptExpr port protocol ∧
    ruleset.evaluateNamed foreign packet manager.supervisorFilterChain =
      some (rule, .accept)

/-- New connections to the port of the machine are only accepted for a
forward of the machine itself. -/
def PortIsOwn (installed : Installed) (foreign : ForeignRules)
    (addressOf : String → Ipv4Addr) (vmId : String) (port : UInt16)
    (protocol : Protocol) : Prop :=
  ∀ packet : Packet, packet.Opens (addressOf vmId) port protocol →
    manager.AcceptedByPort installed.ruleset foreign packet →
      installed.Forwards vmId port protocol

variable {manager} {table : String} {installed : Installed}
  {foreign : ForeignRules} {packet : Packet} {rule : Rule}

/-! ## What a packet meets -/

theorem FilterLayout.not_jump_of_machine {vmId : String}
    (hlayout : manager.FilterLayout table installed)
    (hmem : rule ∈ installed.ruleset.rulesOf
      (.ip, table, manager.vmFilterChain vmId)) (target : ChainKey) :
    packet.ruleAction foreign rule ≠ .jump target := by
  intro hjump
  rw [Ruleset.mem_rulesOf] at hmem
  rcases hlayout.machine rule hmem.1 vmId hmem.2 with
    ⟨tap, hexpr⟩ | ⟨forward, _, _, hexpr⟩
  · rw [ruleAction_forwardAcceptExpr hexpr] at hjump
    split at hjump <;> cases hjump
  · rw [ruleAction_portAcceptExpr hexpr] at hjump
    split at hjump <;> cases hjump

/-- The rules with a verdict are of three kinds. -/
theorem FilterLayout.expr_of_stop
    (hlayout : manager.FilterLayout table installed) {depth : ℕ}
    {verdict : Verdict}
    (hreaches : Reaches installed.ruleset.rulesOf
      (packet.ruleAction foreign) depth
      (.ip, table, manager.supervisorFilterChain) rule)
    (hstop : packet.ruleAction foreign rule = .stop verdict) :
    rule.expr = conntrackExpr ∨
      (∃ tap, rule.expr =
        forwardAcceptExpr tap manager.externalInterface) ∨
      ∃ forward ∈ installed.forwards, rule.expr = forward.acceptExpr := by
  cases hreaches with
  | here hmem =>
      rw [Ruleset.mem_rulesOf] at hmem
      rcases hlayout.supervisor rule hmem.1 hmem.2 with
        hexpr | ⟨vmId, hexpr⟩
      · exact .inl hexpr
      · rw [ruleAction_jump hmem.2 hexpr] at hstop
        cases hstop
  | jump hmem hjump hreached =>
      rename_i first
      rw [Ruleset.mem_rulesOf] at hmem
      rcases hlayout.supervisor first hmem.1 hmem.2 with
        hexpr | ⟨vmId, hexpr⟩
      · rw [ruleAction_conntrackExpr hexpr] at hjump
        split at hjump <;> cases hjump
      · rw [ruleAction_jump hmem.2 hexpr, Action.jump.injEq] at hjump
        rw [← hjump] at hreached
        cases hreached with
        | here hinner =>
            rw [Ruleset.mem_rulesOf] at hinner
            rcases hlayout.machine rule hinner.1 vmId hinner.2 with
              haccept | ⟨forward, hforward, _, haccept⟩
            · exact .inr (.inl haccept)
            · exact .inr (.inr ⟨forward, hforward, haccept⟩)
        | jump hinner hagain _ =>
            exact absurd hagain (hlayout.not_jump_of_machine hinner _)

/-- A rule that accepts a forwarded port was written for a forward to it. -/
theorem FilterLayout.forward_of_accepted
    (hlayout : manager.FilterLayout table installed)
    (haccepted : manager.AcceptedByPort installed.ruleset foreign packet) :
    ∃ forward ∈ installed.forwards,
      packet.headsFor forward.vmPort forward.protocol = true := by
  obtain ⟨rule, port, protocol, hexpr, heval⟩ := haccepted
  rw [Ruleset.evaluateNamed_eq hlayout.found] at heval
  obtain ⟨hreaches, hstop⟩ := reaches_of_evaluate heval
  rcases hlayout.expr_of_stop hreaches hstop with
    hconntrack | ⟨tap, haccept⟩ | ⟨forward, hmem, hforward⟩
  · simp [hexpr, portAcceptExpr, conntrackExpr] at hconntrack
  · simp [hexpr, portAcceptExpr, forwardAcceptExpr] at haccept
  · refine ⟨forward, hmem, ?_⟩
    rw [InstalledForward.acceptExpr] at hforward
    rw [ruleAction_portAcceptExpr hforward] at hstop
    by_contra hheads
    rw [if_neg hheads] at hstop
    cases hstop

/-- Whoever the forward belongs to, a new connection into the host's network
is accepted for its port. -/
theorem FilterLayout.accepted_of_forward
    (hlayout : manager.FilterLayout table installed)
    (hstate : packet.ctState = "new")
    (hinside : packet.oifname ≠ manager.externalInterface)
    {forward : InstalledForward} (hmem : forward ∈ installed.forwards)
    (hheads : packet.headsFor forward.vmPort forward.protocol = true) :
    manager.AcceptedByPort installed.ruleset foreign packet := by
  obtain ⟨⟨tap, hmachine⟩, rule, hrule, hkey, hexpr⟩ :=
    hlayout.accepts forward hmem
  obtain ⟨jump, hjump, hjumpKey, hjumps⟩ :=
    hlayout.jumps (forward.vmId, tap) hmachine
  have hjumpExpr : jump.expr =
      [.jump (manager.vmFilterChain forward.vmId)] := by
    rcases hlayout.supervisor jump hjump hjumpKey with hno | ⟨vmId, hyes⟩
    · simp [ruleJumpsTo, hno, conntrackExpr, exprJumpsTo] at hjumps
    · simp only [ruleJumpsTo, hyes, List.any_cons, exprJumpsTo,
        List.any_nil, Bool.or_false, beq_iff_eq] at hjumps
      rw [hyes, hjumps]
  have hstop : packet.ruleAction foreign rule = .stop .accept := by
    rw [ruleAction_portAcceptExpr hexpr, if_pos hheads]
  have hfollow : packet.ruleAction foreign jump =
      .jump (.ip, table, manager.vmFilterChain forward.vmId) :=
    ruleAction_jump hjumpKey hjumpExpr
  have hreaches : Reaches installed.ruleset.rulesOf
      (packet.ruleAction foreign) jumpStackSize
      (.ip, table, manager.supervisorFilterChain) rule :=
    .jump (Ruleset.mem_rulesOf.mpr ⟨hjump, hjumpKey⟩) hfollow
      (.here (Ruleset.mem_rulesOf.mpr ⟨hrule, hkey⟩))
  obtain ⟨⟨found, verdict⟩, heval⟩ := Option.isSome_iff_exists.mp
    (evaluate_isSome_of_reaches hreaches hstop)
  obtain ⟨hfoundReaches, hfoundStop⟩ := reaches_of_evaluate heval
  unfold AcceptedByPort
  rw [Ruleset.evaluateNamed_eq hlayout.found]
  -- The rule that comes first is not one of the other two kinds.
  rcases hlayout.expr_of_stop hfoundReaches hfoundStop with
    hconntrack | ⟨other, haccept⟩ | ⟨other, _, hother⟩
  · rw [ruleAction_conntrackExpr hconntrack, hstate] at hfoundStop
    simp at hfoundStop
  · rw [ruleAction_forwardAcceptExpr haccept, if_neg] at hfoundStop
    · cases hfoundStop
    · exact fun hboth => hinside hboth.2
  · rw [InstalledForward.acceptExpr] at hother
    rw [ruleAction_portAcceptExpr hother] at hfoundStop
    split at hfoundStop
    · cases hfoundStop
      exact ⟨found, other.vmPort, other.protocol, hother, heval⟩
    · cases hfoundStop

/-- The port of a machine is its own exactly when it forwards the port
itself or no machine does. -/
theorem port_is_own_iff (manager : NftablesManager)
    (calls : InitializeCalls) {host ruleset : Ruleset}
    (hunused : manager.Unused host)
    (hstarted : manager.initializeChains calls host = (.ok (), ruleset))
    (ops : List InstallOp) (foreign : ForeignRules)
    (addressOf : String → Ipv4Addr) (vmId : String) (port : UInt16)
    (protocol : Protocol) :
    manager.PortIsOwn (run manager.install (.start ruleset) ops) foreign
        addressOf vmId port protocol ↔
      ((run manager.install (.start ruleset) ops).Forwards vmId port
          protocol ∨
        ∀ other, ¬(run manager.install (.start ruleset) ops).Forwards other
          port protocol) := by
  obtain ⟨table, hstart⟩ :=
    (initializeChains_clean hunused hstarted).filterLayout
  have hlayout := filterLayout_run ops hstart
  generalize run manager.install (.start ruleset) ops = installed at hlayout
  constructor
  · intro hown
    by_cases hany : ∃ other, installed.Forwards other port protocol
    · left
      obtain ⟨other, forward, hmem, _, rfl, rfl⟩ := hany
      have hinside : manager.externalInterface ++ "-" ≠
          manager.externalInterface := by
        intro heq
        have hlength := congrArg String.length heq
        simp at hlength
      have hopens : Packet.Opens
          ⟨"", manager.externalInterface ++ "-", addressOf vmId,
            forward.protocol.text, forward.vmPort, "new"⟩
          (addressOf vmId) forward.vmPort forward.protocol :=
        ⟨rfl, rfl, by simp [Packet.headsFor]⟩
      exact hown _ hopens
        (hlayout.accepted_of_forward rfl hinside hmem hopens.heads)
    · exact .inr (not_exists.mp hany)
  · rintro (hforwards | hnone) packet hopens haccepted
    · exact hforwards
    · obtain ⟨forward, hmem, hheads⟩ :=
        hlayout.forward_of_accepted haccepted
      obtain ⟨hport, hprotocol⟩ := headsFor_unique hopens.heads hheads
      exact absurd ⟨forward, hmem, rfl, hport, hprotocol⟩
        (hnone forward.vmId)

end NftablesManager

/-! ## A port that another machine forwards -/

def sampleAddressOf (vmId : String) : Ipv4Addr :=
  if vmId = "vm-a" then 0x0A006402 else 0x0A006403

/-- A connection to the machine without forwards. -/
def insidePacket : Packet :=
  ⟨"eth0", "br-aleph", sampleAddressOf "vm-b", "tcp", 80, "new"⟩

theorem port_is_own_beside_forward_iff :
    sampleManager.PortIsOwn oneForward noForeignRules sampleAddressOf "vm-b"
        80 .tcp ↔
      (oneForward.Forwards "vm-b" 80 .tcp ∨
        ∀ other, ¬oneForward.Forwards other 80 .tcp) :=
  NftablesManager.port_is_own_iff sampleManager
    (initializeWith batchApplied) unused_empty initialize_sample
    oneForwardOps noForeignRules sampleAddressOf "vm-b" 80 .tcp

theorem forward_opens_other_machine :
    oneForward.machines = [("vm-a", "tap-a"), ("vm-b", "tap-b")] ∧
      ((oneForward.ruleset.evaluateNamed noForeignRules insidePacket
          sampleManager.supervisorFilterChain).map fun decision =>
        (decision.1.chain, decision.1.expr, decision.2)) =
        some ("aleph-vm-filter-vm-a", portAcceptExpr 80 .tcp, .accept) ∧
      ¬sampleManager.PortIsOwn oneForward noForeignRules sampleAddressOf
        "vm-b" 80 .tcp := by
  have heval : ((oneForward.ruleset.evaluateNamed noForeignRules
      insidePacket sampleManager.supervisorFilterChain).map fun decision =>
        (decision.1.chain, decision.1.expr, decision.2)) =
      some ("aleph-vm-filter-vm-a", portAcceptExpr 80 .tcp, .accept) := by
    decide +kernel
  refine ⟨by decide +kernel, heval, ?_⟩
  intro hown
  obtain ⟨⟨rule, verdict⟩, hfound, hdecision⟩ :=
    Option.map_eq_some_iff.mp heval
  simp only [Prod.mk.injEq] at hdecision
  obtain ⟨_, hexpr, rfl⟩ := hdecision
  have hopens : insidePacket.Opens (sampleAddressOf "vm-b") 80 .tcp :=
    ⟨rfl, rfl, by decide⟩
  obtain ⟨forward, hmem, howner, _⟩ :=
    hown insidePacket hopens ⟨rule, 80, .tcp, hexpr, hfound⟩
  have hall : oneForward.forwards.all (fun forward =>
      forward.vmId == "vm-a") = true := by
    decide +kernel
  have hother := List.all_eq_true.mp hall forward hmem
  rw [howner] at hother
  revert hother
  decide

end AlephCvm.Nft
