import AlephCvm.Installations

/-!
# Traffic that forwards capture

The rules of the forwards look at the destination port alone.  A packet is
sent to a machine if and only if some forward has its port, wherever the packet
is addressed to; so what is captured is traffic for the host exactly as long
as no other packet has the port of a forward.
-/

namespace AlephCvm.Nft

open PacketFilter StepRuns AlephCvm.Net

/-- The destination that the verdict puts into the packet. -/
def Verdict.destination : Verdict → Option (String × ℕ)
  | .dnat addr port => some (addr, port)
  | _ => none

def InstalledForward.destination (forward : InstalledForward) :
    String × ℕ :=
  (ipv4Text forward.guestIp, forward.vmPort.toNat)

def InstalledForward.verdict (forward : InstalledForward) : Verdict :=
  .dnat (ipv4Text forward.guestIp) forward.vmPort.toNat

def Packet.headsForForward (packet : Packet) (forward : InstalledForward) :
    Bool :=
  packet.headsFor forward.hostPort forward.protocol

namespace NftablesManager

variable (manager : NftablesManager)

/-- The new destination that the prerouting chain gives the packet. -/
def redirection (ruleset : Ruleset) (foreign : ForeignRules)
    (packet : Packet) : Option (String × ℕ) :=
  (ruleset.evaluateNamed foreign packet
    manager.supervisorPreroutingChain).bind fun decision =>
      decision.2.destination

/-- The packet is only rewritten if it is addressed to the host, and what a
machine sends elsewhere does not end up at another machine. -/
structure OnlyHostTraffic (installed : Installed) (foreign : ForeignRules)
    (isHost : Ipv4Addr → Prop) (packet : Packet) : Prop where
  host : (manager.redirection installed.ruleset foreign packet).isSome =
    true → isHost packet.daddr
  outbound : ∀ machine ∈ installed.machines, packet.iifname = machine.2 →
    ¬isHost packet.daddr →
      ∀ forward ∈ installed.forwards, forward.vmId ≠ machine.1 →
        manager.redirection installed.ruleset foreign packet ≠
          some forward.destination

variable {manager} {table : String} {installed : Installed}

/-- The first forward with the port of the packet decides. -/
theorem PreroutingLayout.redirection_eq
    (hlayout : manager.PreroutingLayout table installed)
    (foreign : ForeignRules) (packet : Packet) :
    manager.redirection installed.ruleset foreign packet =
      (installed.forwards.find? packet.headsForForward).map
        InstalledForward.destination := by
  have hrules : List.Forall₂ (fun (rule : Rule) forward =>
      packet.ruleAction foreign rule =
        ((Option.map InstalledForward.verdict ∘
          Option.guard packet.headsForForward) forward).elim .pass .stop)
      (installed.ruleset.rulesOf
        (.ip, table, manager.supervisorPreroutingChain))
      installed.forwards := by
    have hexprs := hlayout.rules
    rw [← List.forall₂_eq_eq_eq, List.forall₂_map_left_iff,
      List.forall₂_map_right_iff] at hexprs
    apply hexprs.imp
    intro rule forward hexpr
    rw [ruleAction_forwardExpr hexpr, ← Packet.headsForForward]
    cases hheads : packet.headsForForward forward <;>
      simp [Option.guard, hheads, InstalledForward.verdict]
  have hfirst := evaluate_of_entries 15 hrules
  rw [← List.map_findSome?, List.findSome?_guard] at hfirst
  have hdecision : (installed.ruleset.evaluate foreign packet
      (.ip, table, manager.supervisorPreroutingChain)).map Prod.snd =
        (installed.forwards.find? packet.headsForForward).map
          InstalledForward.verdict := hfirst
  rw [redirection, Ruleset.evaluateNamed_eq hlayout.found]
  have hmap : ∀ decision : Option (Rule × Verdict),
      (decision.bind fun found => found.2.destination) =
        (decision.map Prod.snd).bind Verdict.destination := by
    intro decision
    cases decision <;> rfl
  rw [hmap, hdecision]
  cases installed.forwards.find? packet.headsForForward <;> rfl

/-- What the chain captures is traffic for the host exactly when the packet
is, or has the port of no forward. -/
theorem only_host_traffic_iff (manager : NftablesManager)
    (calls : InitializeCalls) {host ruleset : Ruleset}
    (hunused : manager.Unused host)
    (hstarted : manager.initializeChains calls host = (.ok (), ruleset))
    (ops : List InstallOp) (foreign : ForeignRules)
    (isHost : Ipv4Addr → Prop) (packet : Packet) :
    manager.OnlyHostTraffic
        (run manager.install (.start ruleset) ops) foreign isHost packet ↔
      isHost packet.daddr ∨
        ∀ forward ∈ (run manager.install (.start ruleset) ops).forwards,
          packet.headsForForward forward = false := by
  obtain ⟨table, hstart⟩ :=
    (initializeChains_clean hunused hstarted).preroutingLayout
  have hlayout := preroutingLayout_run ops hstart
  have hredirection := hlayout.redirection_eq foreign packet
  generalize run manager.install (.start ruleset) ops = installed
    at hlayout hredirection
  constructor
  · intro honly
    by_cases hhost : isHost packet.daddr
    · exact .inl hhost
    · right
      intro forward hmem
      by_contra hheads
      apply hhost
      apply honly.host
      rw [hredirection, Option.isSome_map, List.find?_isSome]
      exact ⟨forward, hmem, by simpa using hheads⟩
  · rintro (hhost | hnone)
    · exact ⟨fun _ => hhost, fun _ _ _ hforeign => absurd hhost hforeign⟩
    · have hkept : manager.redirection installed.ruleset foreign packet =
          none := by
        rw [hredirection, List.find?_eq_none.mpr]
        · rfl
        · intro forward hmem
          rw [hnone forward hmem]
          exact Bool.false_ne_true
      constructor
      · intro hsome
        rw [hkept] at hsome
        cases hsome
      · intro machine _ _ _ forward _ _
        rw [hkept]
        exact (Option.some_ne_none _).symm

end NftablesManager

/-! ## A connection to the outside -/

/-- The other machine connects to port 8080 of some server. -/
def outboundPacket : Packet :=
  ⟨"tap-b", "", 0xC0000207, "tcp", 8080, "new"⟩

def isGateway (ip : Ipv4Addr) : Prop := ip = 0x0A006401

theorem only_host_traffic_outbound_iff :
    sampleManager.OnlyHostTraffic oneForward noForeignRules isGateway
        outboundPacket ↔
      isGateway outboundPacket.daddr ∨ ∀ forward ∈ oneForward.forwards,
        outboundPacket.headsForForward forward = false :=
  NftablesManager.only_host_traffic_iff sampleManager
    (initializeWith batchApplied) unused_empty initialize_sample
    oneForwardOps noForeignRules isGateway outboundPacket

theorem outbound_packet_captured :
    oneForward.machines = [("vm-a", "tap-a"), ("vm-b", "tap-b")] ∧
      sampleManager.redirection oneForward.ruleset noForeignRules
        outboundPacket = some ("10.0.100.2", 80) ∧
      ¬sampleManager.OnlyHostTraffic oneForward noForeignRules isGateway
        outboundPacket := by
  have hredirection : sampleManager.redirection oneForward.ruleset
      noForeignRules outboundPacket = some ("10.0.100.2", 80) := by
    decide +kernel
  refine ⟨by decide +kernel, hredirection, ?_⟩
  intro honly
  have hhost := honly.host (by rw [hredirection]; rfl)
  revert hhost
  unfold isGateway outboundPacket
  decide

end AlephCvm.Nft
