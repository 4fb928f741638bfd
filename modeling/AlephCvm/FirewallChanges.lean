import AlephCvm.FirewallEffects
import AlephCvm.RecoveryReplay
import Mathlib.Logic.Relation

/-!
# The calls that change the firewall

Whatever fails on the way, an operation of the machine manager changes the
ruleset by calls of the nftables manager that go through and by nothing else.
So what every such call keeps, the server keeps over all its operations and
restarts.
-/

namespace AlephCvm.Vm

open ResultContext AlephCvm.Tee AlephCvm.Net AlephCvm.Nft AlephCvm.Qemu
open StepRuns Relation

/-- One call of the nftables manager that goes through. -/
inductive NftChange (manager : NftablesManager) (before : Ruleset) :
    Ruleset → Prop
  | setUp (calls : NftCalls) (vmId tap : String) (after : Ruleset)
      (hok : manager.setupVm calls before vmId tap = .ok after) :
      NftChange manager before after
  | removeChain (calls : NftCalls) (vmId name : String) (after : Ruleset)
      (hname : manager.vmChain vmId name = true)
      (hok : NftablesManager.removeChainEverywhere calls before name =
        .ok after) :
      NftChange manager before after
  | addForward (calls : NftCalls) (vmId guestIp : String)
      (hostPort vmPort : UInt16) (protocol : Protocol) (after : Ruleset)
      (hok : manager.addPortForward calls before vmId guestIp hostPort
        vmPort protocol = .ok after) :
      NftChange manager before after
  | removeForward (calls : NftCalls) (hostPort : UInt16)
      (protocol : Protocol) (after : Ruleset)
      (hok : manager.removePortForward calls before hostPort protocol =
        .ok after) :
      NftChange manager before after

def NftChanges (manager : NftablesManager) : Ruleset → Ruleset → Prop :=
  ReflTransGen (NftChange manager)

/-! ## Calls that may fail in the middle -/

variable {manager : NftablesManager}

theorem teardownVm_changes
    (natCalls filterCalls : NftCalls) (ruleset : Ruleset) (vmId : String) :
    NftChanges manager ruleset
      (manager.teardownVm natCalls filterCalls ruleset vmId).2 := by
  unfold NftablesManager.teardownVm
  cases hnat : NftablesManager.removeChainEverywhere natCalls ruleset
      (manager.vmNatChain vmId) with
  | error message => exact .refl
  | ok middle =>
      have hfirst : NftChanges manager ruleset middle :=
        .single (.removeChain natCalls vmId _ middle
          (manager.vmChain_vmNatChain vmId) hnat)
      cases hfilter : NftablesManager.removeChainEverywhere filterCalls
          middle (manager.vmFilterChain vmId) with
      | error message =>
          simp only [hfilter]
          exact hfirst
      | ok after =>
          simp only [hfilter]
          exact hfirst.tail (.removeChain filterCalls vmId _ after
            (manager.vmChain_vmFilterChain vmId) hfilter)

/-- A loop whose rounds call the manager once and ignore failures. -/
theorem foldl_changes
    {α : Type} (call : Ruleset → α → Except String Ruleset)
    (hcall : ∀ before item after, call before item = .ok after →
      NftChange manager before after) (items : List α)
    (ruleset : Ruleset) :
    NftChanges manager ruleset (items.foldl (fun ruleset item =>
      match call ruleset item with
      | .ok next => next
      | .error _ => ruleset) ruleset) := by
  induction items generalizing ruleset with
  | nil => exact .refl
  | cons item rest ih =>
      rw [List.foldl_cons]
      cases hitem : call ruleset item with
      | ok next => exact .head (hcall ruleset item next hitem) (ih next)
      | error message => exact ih ruleset

theorem removeForwardRules_changes
    (calls : ℕ → NftCalls) (ruleset : Ruleset)
    (forwards : List PortForward) :
    NftChanges manager ruleset
      (removeForwardRules manager calls ruleset forwards) :=
  foldl_changes
    (fun ruleset (entry : PortForward × ℕ) =>
      manager.removePortForward (calls entry.2) ruleset entry.1.hostPort
        entry.1.protocol)
    (fun _ entry after hok => .removeForward (calls entry.2) _ _ after hok)
    forwards.zipIdx ruleset

theorem replayRules_changes
    (calls : RestartCalls) (ruleset : Ruleset) (persisted : PersistedVm) :
    NftChanges manager ruleset
      (replayRules manager calls ruleset persisted) := by
  have hforwards : ∀ next, NftChanges manager next
      (replayForwardRules manager
        (calls.nftForward persisted.config.vmId) next persisted) := by
    intro next
    exact foldl_changes
      (fun ruleset (entry : PortForward × ℕ) =>
        manager.addPortForward
          (calls.nftForward persisted.config.vmId entry.2) ruleset
          persisted.config.vmId (ipv4Text persisted.ip) entry.1.hostPort
          entry.1.vmPort entry.1.protocol)
      (fun _ entry after hok => .addForward _ _ _ _ _ _ after hok)
      persisted.portForwards.zipIdx next
  unfold replayRules
  cases hsetup : manager.setupVm (calls.nftSetup persisted.config.vmId)
      ruleset persisted.config.vmId persisted.tapName with
  | ok next =>
      simp only [hsetup]
      exact .head (.setUp _ _ _ next hsetup) (hforwards next)
  | error message =>
      simp only [hsetup]
      exact hforwards ruleset

/-! ## Operations of the machine manager -/

variable {cfg : NodeConfig}

theorem Node.createVm_changes
    (node : Node cfg) (calls : CreateCalls) (config : VmConfig)
    (requestedIpv6 : Option Ipv6Net) (numaHint : Option UInt32) :
    NftChanges cfg.nftables node.ruleset
      (node.createVm calls config requestedIpv6 numaHint).2.ruleset := by
  have houtcome := node.createVm_outcome calls config requestedIpv6 numaHint
  generalize node.createVm calls config requestedIpv6 numaHint = result
    at houtcome
  have hsetup : ∀ {offset : UInt8} {vmIpv6 : Option Ipv6Net}
      {reserved connected : Node cfg},
      ReservationResult (node.started config.vmId offset vmIpv6) calls
        config.vmId (allocateVmIp cfg.gatewayIp offset) vmIpv6
        (.ok (), reserved) →
      NetworkResult reserved calls config.vmId vmIpv6 (.ok (), connected) →
      NftChanges cfg.nftables node.ruleset connected.ruleset := by
    intro offset vmIpv6 reserved connected hreserved hconnected
    have hsame : reserved.ruleset = node.ruleset := hreserved.ruleset
    have hok := hconnected.setupVm_of_ok
    rw [hsame] at hok
    exact .single (.setUp _ _ _ _ hok)
  cases houtcome with
  | duplicate message hknown => exact .refl
  | poolExhausted message hfresh hfull => exact .refl
  | ipv6Refused offset failure hfresh hfree hrefused => exact .refl
  | notReserved offset vmIpv6 failure after hstarted hreserved =>
      have hsame : after.ruleset = node.ruleset := hreserved.ruleset
      rw [hsame]
      exact .refl
  | notConnected offset vmIpv6 reserved failure after hstarted hreserved
      hconnected =>
      have hsame : reserved.ruleset = node.ruleset := hreserved.ruleset
      rw [hconnected.ruleset_of_error, hsame]
      exact .refl
  | notPrepared offset vmIpv6 reserved connected failure after hstarted
      hreserved hconnected hprepared =>
      rw [hprepared.ruleset]
      exact hsetup hreserved hconnected
  | launched offset vmIpv6 reserved connected launch prepared hstarted
      hreserved hconnected hprepared =>
      have hready := hsetup hreserved hconnected
      rw [← hprepared.ruleset] at hready
      apply hready.trans
      unfold Node.launchVm
      cases calls.spawn with
      | ok value =>
          rw [Node.saveVm_ruleset]
      | error message =>
          have hclean := (prepared.undoHost calls.cleanup launch
            launch.config.vmId vmIpv6).cleanupReservations_sameHost
              calls.cleanup launch.config.vmId vmIpv6.isSome
          simp only [Node.undoLaunch, hclean.ruleset]
          exact teardownVm_changes _ _ _ _

theorem Node.deleteVm_changes
    (node : Node cfg) (calls : DeleteCalls) (id : String) :
    NftChanges cfg.nftables node.ruleset
      (node.deleteVm calls id).2.ruleset := by
  unfold Node.deleteVm
  cases node.vms.lookup id with
  | none => exact .refl
  | some handle =>
      simp only [Node.deleteHandle_ruleset]
      exact (removeForwardRules_changes _ _ _).trans
        (teardownVm_changes _ _ _ _)

theorem Node.updatePersistedPortForwards_ruleset
    (node : Node cfg) (calls : ForwardCalls) (vmId : String) :
    (node.updatePersistedPortForwards calls vmId).ruleset =
      node.ruleset := by
  unfold Node.updatePersistedPortForwards
  cases node.stateDir.lookup (stateFile vmId) with
  | none => rfl
  | some persisted => exact node.saveVm_ruleset _ _ _

theorem Node.addPortForward_changes
    (node : Node cfg) (calls : ForwardCalls) (vmId : String)
    (hostPort vmPort : UInt16) (protocol : Protocol) :
    NftChanges cfg.nftables node.ruleset
      (node.addPortForward calls vmId hostPort vmPort
        protocol).2.ruleset := by
  unfold Node.addPortForward
  cases node.vms.lookup vmId with
  | none => exact .refl
  | some handle =>
      cases chooseHostPort node.portForwards hostPort protocol with
      | error message => exact .refl
      | ok port =>
          cases hadd : cfg.nftables.addPortForward calls.nft node.ruleset
              vmId (ipv4Text handle.ip) port vmPort protocol with
          | error message =>
              simp only [hadd]
              exact .refl
          | ok ruleset =>
              simp only [hadd, Node.updatePersistedPortForwards_ruleset]
              exact .single (.addForward _ _ _ _ _ _ _ hadd)

theorem Node.removePortForward_changes
    (node : Node cfg) (calls : ForwardCalls) (hostPort : UInt16)
    (protocol : Protocol) :
    NftChanges cfg.nftables node.ruleset
      (node.removePortForward calls hostPort protocol).2.ruleset := by
  unfold Node.removePortForward
  split
  · exact .refl
  · cases hremove : cfg.nftables.removePortForward calls.nft node.ruleset
        hostPort protocol with
    | error message =>
        simp only [hremove]
        exact .refl
    | ok ruleset =>
        simp only [hremove, Node.updatePersistedPortForwards_ruleset]
        exact .single (.removeForward _ _ _ _ hremove)

/-- The recovery starts from the ruleset that the kernel has. -/
theorem Node.restart_changes
    (node : Node cfg) (calls : RestartCalls) :
    NftChanges cfg.nftables calls.ruleset
      (node.restart calls).ruleset := by
  unfold Node.restart Node.recoverVms
  cases loadAllVms calls (Node.fresh cfg calls.taps calls.ruleset
      calls.hostsdir node.stateDir).stateDir with
  | error message => exact .refl
  | ok machines =>
      rw [recoverVms_ruleset]
      have hreplay : ∀ (machines : List PersistedVm) (ruleset : Ruleset),
          NftChanges cfg.nftables ruleset
            (machines.foldl (replayRules cfg.nftables calls) ruleset) := by
        intro machines
        induction machines with
        | nil =>
            intro ruleset
            exact .refl
        | cons persisted rest ih =>
            intro ruleset
            exact (replayRules_changes calls ruleset persisted).trans
              (ih _)
      exact hreplay _ _

/-! ## Runs of the server -/

/-- What happens to a host: the server is started, anew or for the first
time, or it takes one of its operations. -/
inductive ServerEvent where
  | start (calls : StartCalls)
  | createVm (calls : CreateCalls) (config : VmConfig)
      (requestedIpv6 : Option Ipv6Net) (numaHint : Option UInt32)
  | deleteVm (calls : DeleteCalls) (id : String)
  | addPortForward (calls : ForwardCalls) (vmId : String)
      (hostPort vmPort : UInt16) (protocol : Protocol)
  | removePortForward (calls : ForwardCalls) (hostPort : UInt16)
      (protocol : Protocol)

def Node.serverStep (node : Node cfg) : ServerEvent → Node cfg
  | .start calls => node.startServer calls
  | .createVm calls config requestedIpv6 numaHint =>
      (node.createVm calls config requestedIpv6 numaHint).2
  | .deleteVm calls id => (node.deleteVm calls id).2
  | .addPortForward calls vmId hostPort vmPort protocol =>
      (node.addPortForward calls vmId hostPort vmPort protocol).2
  | .removePortForward calls hostPort protocol =>
      (node.removePortForward calls hostPort protocol).2

section Relates

variable {R : Ruleset → Ruleset → Prop}

theorem NftChanges.relates
    {manager : NftablesManager} (hrefl : ∀ ruleset, R ruleset ruleset)
    (htrans : ∀ first second third, R first second → R second third →
      R first third)
    (hchange : ∀ before after, NftChange manager before after →
      R before after)
    {before after : Ruleset} (hall : NftChanges manager before after) :
    R before after := by
  have : Std.Refl R := ⟨hrefl⟩
  have : IsTrans Ruleset R := ⟨htrans⟩
  exact Relation.reflTransGen_le_of_le hchange before after hall

theorem Node.serverStep_relates
    (hrefl : ∀ ruleset, R ruleset ruleset)
    (htrans : ∀ first second third, R first second → R second third →
      R first third)
    (hchange : ∀ before after, NftChange cfg.nftables before after →
      R before after)
    {event : ServerEvent}
    (hinit : ∀ calls, event = .start calls → ∀ ruleset,
      R ruleset (cfg.nftables.initializeChains calls.nft ruleset).2)
    (node : Node cfg) :
    R node.ruleset (node.serverStep event).ruleset := by
  have hchanges : ∀ {before after : Ruleset},
      NftChanges cfg.nftables before after → R before after :=
    fun hall => hall.relates hrefl htrans hchange
  cases event with
  | start calls =>
      have hfirst := hinit calls rfl node.ruleset
      simp only [Node.serverStep, Node.startServer]
      split
      · rename_i message ruleset hstopped
        rw [hstopped] at hfirst
        exact hfirst
      · rename_i ruleset hstarted
        rw [hstarted] at hfirst
        have hrecovered := hchanges (node.restart_changes
          { calls.restart with ruleset := ruleset })
        exact htrans _ _ _ hfirst hrecovered
  | createVm calls config requestedIpv6 numaHint =>
      exact hchanges (node.createVm_changes _ _ _ _)
  | deleteVm calls id => exact hchanges (node.deleteVm_changes _ _)
  | addPortForward calls vmId hostPort vmPort protocol =>
      exact hchanges (node.addPortForward_changes _ _ _ _ _)
  | removePortForward calls hostPort protocol =>
      exact hchanges (node.removePortForward_changes _ _ _)

/-- What the calls of the nftables manager keep, the server keeps. -/
theorem Node.serverRun_relates
    (hrefl : ∀ ruleset, R ruleset ruleset)
    (htrans : ∀ first second third, R first second → R second third →
      R first third)
    {events : List ServerEvent}
    (hinit : ∀ calls, ServerEvent.start calls ∈ events → ∀ ruleset,
      R ruleset (cfg.nftables.initializeChains calls.nft ruleset).2)
    (hchange : ∀ before after, NftChange cfg.nftables before after →
      R before after)
    (node : Node cfg) :
    R node.ruleset (run Node.serverStep node events).ruleset := by
  have hstep : ∀ (current : Node cfg) (event : ServerEvent),
      R node.ruleset current.ruleset → event ∈ events →
        R node.ruleset (current.serverStep event).ruleset := by
    intro current event hsofar hevent
    apply htrans _ _ _ hsofar
    apply Node.serverStep_relates hrefl htrans hchange
    intro calls hstart
    exact hinit calls (hstart ▸ hevent)
  exact run_invariant_of_along hstep (hrefl node.ruleset)
    (along_of_forall (Q := fun event => event ∈ events)
      (fun _ hevent => hevent) node)

end Relates

end AlephCvm.Vm
