import AlephCvm.ForwardRules
import AlephCvm.GuestAddresses
import AlephCvm.PacketFilter

/-!
# What the rules do to packets

The meaning of the rules that the manager writes.  The expressions of a rule
are taken from left to right: a match that fails ends the rule without an
effect, and the first statement that the packet gets to decides.  Matches and
statements that the manager never writes are left to a parameter.
-/

namespace AlephCvm.Nft

open PacketFilter AlephCvm.Net

/-- What the rules of the manager see of an IPv4 packet, and where it is
addressed to. -/
structure Packet where
  iifname : String
  oifname : String
  daddr : Ipv4Addr
  protocol : String
  dport : UInt16
  ctState : String

inductive Verdict where
  | accept
  | masquerade
  | dnat (addr : String) (port : ℕ)
  | other (text : String)
  deriving DecidableEq, Repr

/-- Matches and statements of rules that the manager does not write. -/
structure ForeignRules where
  holds : Packet → String → MatchLeft → MatchRight → Bool
  stops : Packet → String → Bool

/-- The kernel follows jumps to this depth. -/
def jumpStackSize : ℕ := 16

namespace Packet

variable (foreign : ForeignRules) (packet : Packet)

def satisfies : String → MatchLeft → MatchRight → Bool
  | "==", .metaKey "iifname", .text name => packet.iifname == name
  | "==", .metaKey "oifname", .text name => packet.oifname == name
  | "==", .payload protocol "dport", .number port =>
      packet.protocol == protocol && packet.dport.toNat == port
  | "in", .ct "state", .list states => states.contains packet.ctState
  | op, left, right => foreign.holds packet op left right

def action (key : ChainKey) : List RuleExpr → Action ChainKey Verdict
  | [] => .pass
  | .matching op left right :: rest =>
      if packet.satisfies foreign op left right then action key rest
      else .pass
  | .jump target :: _ => .jump (key.1, key.2.1, target)
  | .accept :: _ => .stop .accept
  | .masquerade :: _ => .stop .masquerade
  | .dnat addr port :: _ => .stop (.dnat addr port)
  | .other text :: rest =>
      if foreign.stops packet text then .stop (.other text)
      else action key rest

def ruleAction (rule : Rule) : Action ChainKey Verdict :=
  packet.action foreign rule.chainKey rule.expr

/-- The packet goes to the port that is forwarded. -/
def headsFor (port : UInt16) (protocol : Protocol) : Bool :=
  packet.protocol == protocol.text && packet.dport == port

end Packet

def Ruleset.rulesOf (ruleset : Ruleset) (key : ChainKey) : List Rule :=
  ruleset.rules.filter fun rule => rule.chainKey == key

@[simp] theorem Ruleset.mem_rulesOf {ruleset : Ruleset} {key : ChainKey}
    {rule : Rule} :
    rule ∈ ruleset.rulesOf key ↔
      rule ∈ ruleset.rules ∧ rule.chainKey = key := by
  simp [rulesOf]

/-- The rule that decides about a packet in a chain, with its verdict. -/
def Ruleset.evaluate (ruleset : Ruleset) (foreign : ForeignRules)
    (packet : Packet) (key : ChainKey) : Option (Rule × Verdict) :=
  PacketFilter.evaluate ruleset.rulesOf (packet.ruleAction foreign)
    jumpStackSize key

/-- The same in the chain that a listing shows first for the name. -/
def Ruleset.evaluateNamed (ruleset : Ruleset) (foreign : ForeignRules)
    (packet : Packet) (name : String) : Option (Rule × Verdict) :=
  (getTableForChain ruleset.listing .ip name).bind fun table =>
    ruleset.evaluate foreign packet (.ip, table, name)

theorem Ruleset.evaluateNamed_eq {ruleset : Ruleset} {name table : String}
    (htable : getTableForChain ruleset.listing .ip name = some table)
    (foreign : ForeignRules) (packet : Packet) :
    ruleset.evaluateNamed foreign packet name =
      ruleset.evaluate foreign packet (.ip, table, name) := by
  rw [evaluateNamed, htable, Option.bind_some]

/-! ## The rules of the manager -/

def conntrackExpr : List RuleExpr :=
  [.matching "in" (.ct "state") (.list ["established", "related"]),
    .accept]

def forwardAcceptExpr (iifname oifname : String) : List RuleExpr :=
  [.matching "==" (.metaKey "iifname") (.text iifname),
    .matching "==" (.metaKey "oifname") (.text oifname), .accept]

section Actions

variable {foreign : ForeignRules} {packet : Packet} {rule : Rule}

theorem ruleAction_forwardExpr {guestIp : String} {forward : PortForward}
    (hexpr : rule.expr = forwardExpr guestIp forward) :
    packet.ruleAction foreign rule =
      if packet.headsFor forward.hostPort forward.protocol then
        .stop (.dnat guestIp forward.vmPort.toNat)
      else .pass := by
  simp only [Packet.ruleAction, hexpr, forwardExpr, Packet.action,
    Packet.satisfies, Packet.headsFor, UInt16.toNat_inj, Bool.beq_eq_decide_eq]

theorem ruleAction_portAcceptExpr {port : UInt16} {protocol : Protocol}
    (hexpr : rule.expr = portAcceptExpr port protocol) :
    packet.ruleAction foreign rule =
      if packet.headsFor port protocol then .stop .accept else .pass := by
  simp only [Packet.ruleAction, hexpr, portAcceptExpr, Packet.action,
    Packet.satisfies, Packet.headsFor, UInt16.toNat_inj, Bool.beq_eq_decide_eq]

theorem ruleAction_jump {family : Family} {table name target : String}
    (hkey : rule.chainKey = (family, table, name))
    (hexpr : rule.expr = [.jump target]) :
    packet.ruleAction foreign rule = .jump (family, table, target) := by
  rw [Packet.ruleAction, hexpr, hkey]
  rfl

theorem ruleAction_conntrackExpr (hexpr : rule.expr = conntrackExpr) :
    packet.ruleAction foreign rule =
      if packet.ctState = "established" ∨ packet.ctState = "related" then
        .stop .accept
      else .pass := by
  simp [Packet.ruleAction, hexpr, conntrackExpr, Packet.action,
    Packet.satisfies]

theorem ruleAction_forwardAcceptExpr {iifname oifname : String}
    (hexpr : rule.expr = forwardAcceptExpr iifname oifname) :
    packet.ruleAction foreign rule =
      if packet.iifname = iifname ∧ packet.oifname = oifname then
        .stop .accept
      else .pass := by
  simp only [Packet.ruleAction, hexpr, forwardAcceptExpr, Packet.action,
    Packet.satisfies]
  grind

end Actions

end AlephCvm.Nft
