import AlephCvm.NftablesRuleset
import AlephCvm.PortForwardState
import AlephCvm.ResultContext

/-!
# The nftables manager

Model of `aleph-network/src/nftables`.  Every operation lists the ruleset,
derives a batch of commands from the listing and runs the batch.  Listing and
running are calls of the `nft` program; their outcomes are parameters.  An
operation with one batch returns the new ruleset when it succeeds and changes
nothing when it fails.
-/

namespace AlephCvm.Nft

open ResultContext AlephCvm.Net

structure NftablesManager where
  chainPrefix : String
  externalInterface : String
  ipv6Enabled : Bool

namespace NftablesManager

variable (manager : NftablesManager)

def supervisorNatChain : String := s!"{manager.chainPrefix}-supervisor-nat"

def supervisorFilterChain : String :=
  s!"{manager.chainPrefix}-supervisor-filter"

def supervisorPreroutingChain : String :=
  s!"{manager.chainPrefix}-supervisor-prerouting"

def vmNatChain (vmId : String) : String :=
  s!"{manager.chainPrefix}-vm-nat-{vmId}"

def vmFilterChain (vmId : String) : String :=
  s!"{manager.chainPrefix}-vm-filter-{vmId}"

theorem supervisorNatChain_ne_filter :
    manager.supervisorNatChain ≠ manager.supervisorFilterChain := by
  intro heq
  unfold supervisorNatChain supervisorFilterChain at heq
  simp [String.ext_iff, toString] at heq

theorem supervisorNatChain_ne_prerouting :
    manager.supervisorNatChain ≠ manager.supervisorPreroutingChain := by
  intro heq
  unfold supervisorNatChain supervisorPreroutingChain at heq
  simp [String.ext_iff, toString] at heq

theorem supervisorFilterChain_ne_prerouting :
    manager.supervisorFilterChain ≠ manager.supervisorPreroutingChain := by
  intro heq
  unfold supervisorFilterChain supervisorPreroutingChain at heq
  simp [String.ext_iff, toString] at heq

theorem vmNatChain_ne_vmFilterChain (vmId other : String) :
    manager.vmNatChain vmId ≠ manager.vmFilterChain other := by
  intro heq
  unfold vmNatChain vmFilterChain at heq
  simp [String.ext_iff, toString] at heq

theorem vmNatChain_ne_supervisor (vmId : String) :
    manager.vmNatChain vmId ≠ manager.supervisorNatChain ∧
      manager.vmNatChain vmId ≠ manager.supervisorFilterChain ∧
      manager.vmNatChain vmId ≠ manager.supervisorPreroutingChain := by
  unfold vmNatChain supervisorNatChain supervisorFilterChain
    supervisorPreroutingChain
  simp [String.ext_iff, toString]

theorem vmFilterChain_ne_supervisor (vmId : String) :
    manager.vmFilterChain vmId ≠ manager.supervisorNatChain ∧
      manager.vmFilterChain vmId ≠ manager.supervisorFilterChain ∧
      manager.vmFilterChain vmId ≠ manager.supervisorPreroutingChain := by
  unfold vmFilterChain supervisorNatChain supervisorFilterChain
    supervisorPreroutingChain
  simp [String.ext_iff, toString]

theorem vmFilterChain_injective {vmId other : String}
    (heq : manager.vmFilterChain vmId = manager.vmFilterChain other) :
    vmId = other := by
  unfold vmFilterChain at heq
  simpa [String.ext_iff, toString] using heq

end NftablesManager

/-! ## Calling nft -/

/-- How `nft -j list ruleset` ended for one family.  A listing that exits
with an error or cannot be parsed contributes no entries. -/
inductive ListOutcome where
  | listed
  | unusable
  | notExecuted (message : String)
  deriving DecidableEq, Repr

/-- How `nft -j -f -` ended; the kernel may still reject the batch. -/
structure BatchOutcome where
  executed : Except String Unit
  stderr : String

/-- The outcomes of the calls of one operation. -/
structure NftCalls where
  list : Family → ListOutcome
  batch : BatchOutcome

/-- All calls go through. -/
def NftCalls.Succeed (calls : NftCalls) : Prop :=
  (∀ family, calls.list family = .listed) ∧ calls.batch.executed = .ok ()

/-- The chain and rule entries of a listing. -/
structure Listing where
  chains : List Chain
  rules : List Rule

def listFamily (ruleset : Ruleset) (family : Family) :
    ListOutcome → Except String Listing
  | .listed => .ok
      ⟨ruleset.chains.filter fun chain => chain.family == family,
        ruleset.rules.filter fun rule => rule.family == family⟩
  | .unusable => .ok ⟨[], []⟩
  | .notExecuted _ => .error "failed to execute nft"

def executeListRuleset (list : Family → ListOutcome) (ruleset : Ruleset) :
    Except String Listing := do
  let ip ← listFamily ruleset .ip (list .ip)
  let ip6 ← listFamily ruleset .ip6 (list .ip6)
  return ⟨ip.chains ++ ip6.chains, ip.rules ++ ip6.rules⟩

def executeNftCommands (outcome : BatchOutcome) (ruleset : Ruleset)
    (commands : List NftCommand) : Except String Ruleset :=
  if commands.isEmpty then .ok ruleset
  else
    match outcome.executed with
    | .error message => .error message
    | .ok () =>
        match ruleset.applyBatch commands with
        | some next => .ok next
        | none => .error ("nft command failed: " ++ outcome.stderr)

/-! ## Commands derived from a listing -/

def chainExists (listing : Listing) (key : ChainKey) : Bool :=
  listing.chains.any fun chain => chain.key == key

def addChainIfNotPresent (listing : Listing) (key : ChainKey) :
    List NftCommand :=
  if chainExists listing key then []
  else [.addChain ⟨key.1, key.2.1, key.2.2, none⟩]

def exprJumpsTo (target : String) : RuleExpr → Bool
  | .jump name => name == target
  | _ => false

def ruleJumpsTo (rule : Rule) (target : String) : Bool :=
  rule.expr.any (exprJumpsTo target)

def isMasquerade : RuleExpr → Bool
  | .masquerade => true
  | _ => false

def isAccept : RuleExpr → Bool
  | .accept => true
  | _ => false

def isDnat : RuleExpr → Bool
  | .dnat _ _ => true
  | _ => false

/-- A match of an interface name; the operator is not looked at. -/
def matchesMeta (key value : String) : RuleExpr → Bool
  | .matching _ (.metaKey found) (.text right) =>
      found == key && right == value
  | _ => false

def hasMasquerade (rule : Rule) : Bool := rule.expr.any isMasquerade

def hasIifnameOifnameAccept (rule : Rule) (iifname oifname : String) :
    Bool :=
  rule.expr.any (matchesMeta "iifname" iifname) &&
    rule.expr.any (matchesMeta "oifname" oifname) && rule.expr.any isAccept

/-- An `add rule` command unless the chain already has a rule that
satisfies the check. -/
def addRuleIfNotPresent (listing : Listing) (key : ChainKey)
    (present : Rule → Bool) (expr : List RuleExpr) : List NftCommand :=
  if listing.rules.any fun rule => rule.chainKey == key && present rule then
    []
  else [.addRule key expr]

def addJumpIfNotPresent (listing : Listing) (fromChain : ChainKey)
    (toChain : String) : List NftCommand :=
  addRuleIfNotPresent listing fromChain
    (fun rule => ruleJumpsTo rule toChain) [.jump toChain]

def addMasqueradeIfNotPresent (listing : Listing) (chain : ChainKey)
    (iifname oifname : String) : List NftCommand :=
  addRuleIfNotPresent listing chain hasMasquerade
    [.matching "==" (.metaKey "iifname") (.text iifname),
      .matching "==" (.metaKey "oifname") (.text oifname), .masquerade]

def addForwardAcceptIfNotPresent (listing : Listing) (chain : ChainKey)
    (iifname oifname : String) : List NftCommand :=
  addRuleIfNotPresent listing chain
    (fun rule => hasIifnameOifnameAccept rule iifname oifname)
    [.matching "==" (.metaKey "iifname") (.text iifname),
      .matching "==" (.metaKey "oifname") (.text oifname), .accept]

def dnatRule (chain : ChainKey) (hostPort : UInt16) (destIp : String)
    (destPort : UInt16) (protocol : Protocol) : NftCommand :=
  .addRule chain
    [.matching "==" (.payload protocol.text "dport")
        (.number hostPort.toNat),
      .dnat destIp destPort.toNat]

def portAcceptRule (chain : ChainKey) (port : UInt16)
    (protocol : Protocol) : NftCommand :=
  .addRule chain
    [.matching "==" (.payload protocol.text "dport") (.number port.toNat),
      .accept]

def matchesDport (port : UInt16) (protocol : Protocol) : RuleExpr → Bool
  | .matching _ (.payload found field) (.number right) =>
      field == "dport" && found == protocol.text && right == port.toNat
  | _ => false

def isDnatRuleMatching (rule : Rule) (chain : String) (hostPort : UInt16)
    (protocol : Protocol) : Bool :=
  rule.chain == chain && rule.expr.any (matchesDport hostPort protocol) &&
    rule.expr.any isDnat

/-- The table of the first listed chain with the name. -/
def getTableForChain (listing : Listing) (family : Family)
    (chainName : String) : Option String :=
  (listing.chains.find? fun chain =>
    chain.family == family && chain.name == chainName).map Chain.table

/-! ## Chains of one machine -/

namespace NftablesManager

variable (manager : NftablesManager)

/-- The filter chain, the jump to it and the rule that lets the machine
reach the outside, in one family. -/
def filterCommands (listing : Listing) (family : Family) (table : String)
    (vmId tapDevice : String) : List NftCommand :=
  let vmFilter := manager.vmFilterChain vmId
  addChainIfNotPresent listing (family, table, vmFilter) ++
    addJumpIfNotPresent listing
      (family, table, manager.supervisorFilterChain) vmFilter ++
    addForwardAcceptIfNotPresent listing (family, table, vmFilter) tapDevice
      manager.externalInterface

def natCommands (listing : Listing) (table : String)
    (vmId tapDevice : String) : List NftCommand :=
  let vmNat := manager.vmNatChain vmId
  addChainIfNotPresent listing (.ip, table, vmNat) ++
    addJumpIfNotPresent listing (.ip, table, manager.supervisorNatChain)
      vmNat ++
    addMasqueradeIfNotPresent listing (.ip, table, vmNat) tapDevice
      manager.externalInterface

def ip6Commands (listing : Listing) (vmId tapDevice : String) :
    List NftCommand :=
  if manager.ipv6Enabled then
    match getTableForChain listing .ip6 manager.supervisorFilterChain with
    | some table =>
        manager.filterCommands listing .ip6 table vmId tapDevice
    | none => []
  else []

def setupCommands (listing : Listing) (vmId tapDevice : String) :
    Except String (List NftCommand) := do
  let natTable ← optionContext
    "supervisor nat chain not found — call initialize() first"
    (getTableForChain listing .ip manager.supervisorNatChain)
  let filterTable ← optionContext
    "supervisor filter chain not found — call initialize() first"
    (getTableForChain listing .ip manager.supervisorFilterChain)
  return manager.natCommands listing natTable vmId tapDevice ++
    manager.filterCommands listing .ip filterTable vmId tapDevice ++
    manager.ip6Commands listing vmId tapDevice

def setupVm (calls : NftCalls) (ruleset : Ruleset)
    (vmId tapDevice : String) : Except String Ruleset := do
  let listing ← executeListRuleset calls.list ruleset
  let commands ← manager.setupCommands listing vmId tapDevice
  executeNftCommands calls.batch ruleset commands

/-- Delete the jumps to a chain, then the chain, in all families. -/
def removeChainCommands (listing : Listing) (chainName : String) :
    List NftCommand :=
  (listing.rules.filter fun rule => ruleJumpsTo rule chainName).map
      (fun rule => .deleteRule rule.chainKey rule.handle) ++
    (listing.chains.filter fun chain => chain.name == chainName).map
      (fun chain => .deleteChain chain.key)

def removeChainEverywhere (calls : NftCalls) (ruleset : Ruleset)
    (chainName : String) : Except String Ruleset := do
  let listing ← executeListRuleset calls.list ruleset
  executeNftCommands calls.batch ruleset
    (removeChainCommands listing chainName)

/-- The NAT chain goes first; when its removal fails the filter chain is
not tried. -/
def teardownVm (natCalls filterCalls : NftCalls) (ruleset : Ruleset)
    (vmId : String) : Except String Unit × Ruleset :=
  match removeChainEverywhere natCalls ruleset (manager.vmNatChain vmId) with
  | .error message => (.error message, ruleset)
  | .ok ruleset =>
      match removeChainEverywhere filterCalls ruleset
          (manager.vmFilterChain vmId) with
      | .error message => (.error message, ruleset)
      | .ok ruleset => (.ok (), ruleset)

/-! ## Port forwards -/

def addPortForward (calls : NftCalls) (ruleset : Ruleset) (vmId : String)
    (guestIp : String) (hostPort vmPort : UInt16) (protocol : Protocol) :
    Except String Ruleset := do
  let listing ← executeListRuleset calls.list ruleset
  let preroutingTable ← optionContext
    "supervisor prerouting chain not found"
    (getTableForChain listing .ip manager.supervisorPreroutingChain)
  let filterTable ← optionContext
    "VM filter chain not found — set up VM first"
    (getTableForChain listing .ip (manager.vmFilterChain vmId))
  executeNftCommands calls.batch ruleset
    [dnatRule (.ip, preroutingTable, manager.supervisorPreroutingChain)
        hostPort guestIp vmPort protocol,
      portAcceptRule (.ip, filterTable, manager.vmFilterChain vmId) vmPort
        protocol]

def removePortForwardCommands (listing : Listing) (hostPort : UInt16)
    (protocol : Protocol) : List NftCommand :=
  (listing.rules.filter fun rule =>
    isDnatRuleMatching rule manager.supervisorPreroutingChain hostPort
      protocol).map fun rule => .deleteRule rule.chainKey rule.handle

def removePortForward (calls : NftCalls) (ruleset : Ruleset)
    (hostPort : UInt16) (protocol : Protocol) : Except String Ruleset := do
  let listing ← executeListRuleset calls.list ruleset
  executeNftCommands calls.batch ruleset
    (manager.removePortForwardCommands listing hostPort protocol)

end NftablesManager

end AlephCvm.Nft
