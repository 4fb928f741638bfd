import AlephCvm.VmConcurrency

/-!
# The calls of the manager as programs

`create_vm`, `delete_vm`, `add_port_forward` and `remove_port_forward` in the
order of `manager.rs`, with the helpers that they share.  The system is a
pool of such calls; besides the steps of the calls, units change their state
and the process dies and recovers.
-/

namespace AlephCvm.Vm.Concurrent

open ResultContext AtomicPrograms AlephCvm.Tee AlephCvm.Numa AlephCvm.Net
open AlephCvm.Nft AlephCvm.Qemu

abbrev VmProgram (α : Type) := Program Action Response α

def perform (action : Action) : VmProgram (Response action) :=
  .action action

def onlyIf (condition : Bool) (program : VmProgram Unit) :
    VmProgram Unit :=
  if condition then program else return ()

/-! ## Calls of nft -/

/-- List the ruleset, derive the commands, run them. -/
def nftOperation (purpose : NftUse)
    (commands : Listing → Except String (List NftCommand)) :
    VmProgram (Except String Unit) := do
  match ← perform (.listRuleset purpose) with
  | .error message => return .error message
  | .ok listing =>
      match commands listing with
      | .error message => return .error message
      | .ok batch => perform (.runNft purpose batch)

def forwardCommands (manager : NftablesManager) (listing : Listing)
    (vmId guestIp : String) (hostPort vmPort : UInt16)
    (protocol : Protocol) : Except String (List NftCommand) := do
  let preroutingTable ← optionContext
    "supervisor prerouting chain not found"
    (getTableForChain listing .ip manager.supervisorPreroutingChain)
  let filterTable ← optionContext
    "VM filter chain not found — set up VM first"
    (getTableForChain listing .ip (manager.vmFilterChain vmId))
  return [dnatRule (.ip, preroutingTable, manager.supervisorPreroutingChain)
      hostPort guestIp vmPort protocol,
    portAcceptRule (.ip, filterTable, manager.vmFilterChain vmId) vmPort
      protocol]

variable (cfg : NodeConfig)

def setupVm (vmId : String) : VmProgram (Except String Unit) :=
  nftOperation (.setup vmId) fun listing =>
    cfg.nftables.setupCommands listing vmId (tapName vmId)

/-- The result is ignored by both callers. -/
def teardownVm (vmId : String) : VmProgram Unit := do
  match ← nftOperation (.natTeardown vmId) fun listing =>
      .ok (NftablesManager.removeChainCommands listing
        (cfg.nftables.vmNatChain vmId)) with
  | .error _ => return ()
  | .ok () =>
      let _ ← nftOperation (.filterTeardown vmId) fun listing =>
        .ok (NftablesManager.removeChainCommands listing
          (cfg.nftables.vmFilterChain vmId))
      return ()

def addForwardRule (vmId : String) (guestIp : Ipv4Addr)
    (hostPort vmPort : UInt16) (protocol : Protocol) :
    VmProgram (Except String Unit) :=
  nftOperation (.addForward vmId hostPort protocol) fun listing =>
    forwardCommands cfg.nftables listing vmId (ipv4Text guestIp) hostPort
      vmPort protocol

def removeForwardRule (index : ℕ) (hostPort : UInt16)
    (protocol : Protocol) : VmProgram (Except String Unit) :=
  nftOperation (.removeForward index hostPort protocol) fun listing =>
    .ok (cfg.nftables.removePortForwardCommands listing hostPort protocol)

/-! ## State files -/

/-- Write the temporary file, then rename it. -/
def saveVm (vmId : String) (persisted : PersistedVm) : VmProgram Bool := do
  if ← perform (.writeTemp vmId persisted) then
    perform (.renameTemp vmId)
  else return false

def updatePersistedPortForwards (vmId : String) : VmProgram Unit := do
  match ← perform (.readState vmId) with
  | none => return ()
  | some persisted =>
      let forwards ← perform (.listForwards vmId)
      let _ ← saveVm vmId { persisted with portForwards := forwards }
      return ()

/-! ## Creating a machine -/

def removeReservations (vmId : String) (hasIpv6 : Bool) :
    VmProgram Unit :=
  match cfg.dhcpHostsdir with
  | none => return ()
  | some _ => do
      perform (.removeHosts vmId)
      onlyIf hasIpv6 (perform (.removeHosts (dhcpv6File vmId)))

/-- The allocator is released only if its lock is free. -/
def cleanupReservations (vmId : String) (hasIpv6 : Bool) :
    VmProgram Unit := do
  removeReservations cfg vmId hasIpv6
  onlyIf hasIpv6 (perform (.tryReleaseIpv6 vmId))

def writeReservations (vmId macAddr : String) (vmIp : Ipv4Addr)
    (vmIpv6 : Option Ipv6Net) : VmProgram (Except Failure Unit) :=
  match cfg.dhcpHostsdir with
  | none => return .ok ()
  | some _ => do
      match ← perform (.writeHosts vmId (dhcpLine macAddr vmIp)) with
      | .error _ =>
          return .error (.error "failed to write DHCP reservation")
      | .ok () =>
          match vmIpv6 with
          | none => return .ok ()
          | some net =>
              match ← perform (.writeHosts (dhcpv6File vmId)
                  (dhcpv6Line macAddr net.addr)) with
              | .error _ =>
                  perform (.removeHosts vmId)
                  perform (.releaseIpv6 vmId)
                  return .error (.error "failed to write DHCPv6 reservation")
              | .ok () => return .ok ()

def addTapAddress (vmId : String) (vmIpv6 : Option Ipv6Net) :
    VmProgram (Except String Unit) :=
  match vmIpv6 with
  | none => return .ok ()
  | some net => do
      match ← perform (.addTapAddress (tapName vmId) net) with
      | .error _ =>
          return .error
            s!"failed to add IPv6 {ipv6NetText net} to {tapName vmId}"
      | .ok () => return .ok ()

def undoTap (vmId : String) (hasIpv6 : Bool) : VmProgram Unit := do
  perform (.deleteTap (tapName vmId))
  cleanupReservations cfg vmId hasIpv6

def setUpNetwork (vmId : String) (vmIpv6 : Option Ipv6Net) :
    VmProgram (Except Failure Unit) := do
  match ← perform (.createTap (tapName vmId)) with
  | .error message =>
      cleanupReservations cfg vmId vmIpv6.isSome
      return .error (.error message)
  | .ok () =>
      match ← addTapAddress vmId vmIpv6 with
      | .error message =>
          undoTap cfg vmId vmIpv6.isSome
          return .error (.error message)
      | .ok () =>
          match ← setupVm cfg vmId with
          | .error message =>
              undoTap cfg vmId vmIpv6.isSome
              return .error (.error message)
          | .ok () => return .ok ()

def addNdpRange (tap : String) (vmIpv6 : Option Ipv6Net) :
    VmProgram Unit :=
  match vmIpv6, cfg.hasNdpProxy with
  | some net, true => perform (.addNdpRange tap net)
  | _, _ => return ()

def prepareLaunch (config : VmConfig) (numaHint : Option UInt32)
    (macAddr : String) : VmProgram (Except Failure Launch) :=
  match cfg.backends config.tee.backend with
  | none =>
      return .error (.error ("no backend registered for TEE type: " ++
        teeTypeText config.tee.backend))
  | some backend => do
      match ← perform (.prepareBoot config) with
      | .error message => return .error (.error message)
      | .ok (kernelCmdline, disks) =>
          match ← perform (.allocateNuma config.vcpus config.memoryMb
              numaHint (isConfidential config)) with
          | .error message => return .error (.error message)
          | .ok placement =>
              let config := placedConfig config disks
                cfg.topology.nodes.length placement
              match buildQemuCommand config
                  (.forVm cfg.runDir config.vmId) (tapName config.vmId)
                  backend macAddr kernelCmdline with
              | .error failure => return .error failure
              | .ok args =>
                  return .ok ⟨config, placement,
                    "qemu-system-x86_64" :: args⟩

/-- The cleanup after a failed spawn. -/
def undoLaunch (launch : Launch) (vmId : String)
    (vmIpv6 : Option Ipv6Net) : VmProgram Unit := do
  perform (.releaseNuma launch.placement.node launch.config.vcpus
    launch.config.memoryMb launch.placement.hugepageSize)
  onlyIf (vmIpv6.isSome && cfg.hasNdpProxy)
    (perform (.deleteNdpRange (tapName vmId)))
  teardownVm cfg vmId
  undoTap cfg vmId vmIpv6.isSome

def launchVm (launch : Launch) (vmIp : Ipv4Addr) (macAddr : String)
    (vmIpv6 : Option Ipv6Net) : VmProgram (Except Failure VmInfo) := do
  let vmId := launch.config.vmId
  match ← perform (.startUnit vmId launch.command) with
  | .error message =>
      undoLaunch cfg launch vmId vmIpv6
      return .error (.error message)
  | .ok () =>
      let now ← perform .readClock
      let handle := createdHandle cfg launch vmIp vmIpv6 now
      let _ ← saveVm vmId (persistedOf handle macAddr [])
      let current ← perform .readClock
      perform (.insertVm vmId handle)
      return .ok (VmInfo.fromHandle current handle)

def createVm (config : VmConfig) (requestedIpv6 : Option Ipv6Net)
    (numaHint : Option UInt32) : VmProgram (Except Failure VmInfo) := do
  let vmId := config.vmId
  if ← perform (.containsVm vmId) then
    return .error (.error s!"VM {vmId} already exists")
  else
    match ← perform .takeOffset with
    | none =>
        return .error (.error "IPv4 address pool exhausted (254 VMs max)")
    | some offset =>
        let vmIp := allocateVmIp cfg.gatewayIp offset
        let macAddr := macForVmIp vmIp
        match ← perform (.allocateIpv6 vmId requestedIpv6) with
        | .error failure => return .error failure
        | .ok vmIpv6 =>
            match ← writeReservations cfg vmId macAddr vmIp vmIpv6 with
            | .error failure => return .error failure
            | .ok () =>
                match ← setUpNetwork cfg vmId vmIpv6 with
                | .error failure => return .error failure
                | .ok () =>
                    addNdpRange cfg (tapName vmId) vmIpv6
                    match ← prepareLaunch cfg config numaHint macAddr with
                    | .error failure => return .error failure
                    | .ok launch =>
                        launchVm cfg launch vmIp macAddr vmIpv6

/-! ## Deleting a machine -/

def stopProcess (process : Option QemuProcess) : VmProgram Unit :=
  match process with
  | none => return ()
  | some process => perform (.stopUnit process.vmId)

def releaseNuma (handle : VmHandle) : VmProgram Unit :=
  match handle.numaNode with
  | none => return ()
  | some node => perform (.releaseNuma node handle.config.vcpus
      handle.config.memoryMb (handle.config.hugepageSize.getD .size2M))

/-- The rules of the forwards, one call of nft after the other. -/
def removeForwardRules : ℕ → List PortForward → VmProgram Unit
  | _, [] => return ()
  | index, forward :: rest => do
      let _ ← removeForwardRule cfg index forward.hostPort forward.protocol
      removeForwardRules (index + 1) rest

def dropIpv6 (id : String) (handle : VmHandle) : VmProgram Unit := do
  onlyIf cfg.hasNdpProxy (perform (.deleteNdpRange handle.tapName))
  onlyIf handle.ipv6.isSome (perform (.releaseIpv6 id))

/-- The deletion after its first section; the lock is held to the end. -/
def deleteHandle (id : String) (handle : VmHandle) : VmProgram Unit := do
  stopProcess handle.process
  releaseNuma handle
  let removed ← perform (.takeForwards id)
  removeForwardRules cfg 0 removed
  dropIpv6 cfg id handle
  teardownVm cfg id
  perform (.deleteTap handle.tapName)
  removeReservations cfg handle.config.vmId handle.ipv6.isSome
  perform (.returnOffset (ipOffset cfg.gatewayIp handle.ip))
  perform (.deleteState id)
  perform .unlockVms

def deleteVm (id : String) : VmProgram (Except String Unit) := do
  match ← perform (.removeVm id) with
  | none => return .error s!"VM {id} not found"
  | some handle =>
      deleteHandle cfg id handle
      return .ok ()

/-! ## Port forwards -/

def addPortForward (vmId : String) (hostPort vmPort : UInt16)
    (protocol : Protocol) : VmProgram (Except String PortForward) := do
  match ← perform (.findIp vmId) with
  | none => return .error s!"VM {vmId} not found"
  | some guestIp =>
      match ← perform (.reserveForward vmId hostPort vmPort protocol) with
      | .error message => return .error message
      | .ok forward =>
          match ← addForwardRule cfg vmId guestIp forward.hostPort vmPort
              protocol with
          | .error _ =>
              let _ ← perform (.takeForward forward.hostPort
                forward.protocol)
              return .error "failed to add nftables port forward"
          | .ok () =>
              updatePersistedPortForwards vmId
              return .ok forward

def removePortForward (hostPort : UInt16) (protocol : Protocol) :
    VmProgram (Except String Unit) := do
  match ← perform (.takeForward hostPort protocol) with
  | none => return .error "port forward not found"
  | some forward =>
      match ← removeForwardRule cfg 0 hostPort protocol with
      | .error message => return .error message
      | .ok () =>
          updatePersistedPortForwards forward.vmId
          return .ok ()

/-! ## The system -/

inductive Call where
  | createVm (config : VmConfig) (requestedIpv6 : Option Ipv6Net)
      (numaHint : Option UInt32)
  | deleteVm (id : String)
  | addPortForward (vmId : String) (hostPort vmPort : UInt16)
      (protocol : Protocol)
  | removePortForward (hostPort : UInt16) (protocol : Protocol)
  deriving DecidableEq, Repr

inductive Reply where
  | created (result : Except Failure VmInfo)
  | deleted (result : Except String Unit)
  | added (result : Except String PortForward)
  | removed (result : Except String Unit)

def program : Call → VmProgram Reply
  | .createVm config requestedIpv6 numaHint => do
      return .created (← createVm cfg config requestedIpv6 numaHint)
  | .deleteVm id => do return .deleted (← deleteVm cfg id)
  | .addPortForward vmId hostPort vmPort protocol => do
      return .added (← addPortForward cfg vmId hostPort vmPort protocol)
  | .removePortForward hostPort protocol => do
      return .removed (← removePortForward cfg hostPort protocol)

abbrev VmTask := Task Call Action Response Reply

abbrev System := Pool (Shared cfg) Call Action Response Reply

inductive Event where
  | call (call : Call)
  | advance (index : ℕ) (outcome : Outcome)
  | unit (id : String) (state : UnitState)
  | crash (calls : RestartCalls)

def Event.isCrash : Event → Bool
  | .crash _ => true
  | _ => false

variable {cfg}

def Shared.evolveUnit (shared : Shared cfg) (id : String)
    (state : UnitState) : Shared cfg :=
  if (shared.units id).evolves state then
    { shared with units := setUnit shared.units id state }
  else shared

/-- A unit counts as running when `systemctl is-active` could be executed and
the unit is active. -/
def Shared.restartCalls (shared : Shared cfg) (calls : RestartCalls) :
    RestartCalls :=
  { calls with
    unitActive := fun id =>
      calls.unitActive id && shared.units id == .active }

/-- The calls are gone; files and units stay. -/
def Shared.restart (shared : Shared cfg) (calls : RestartCalls) :
    Shared cfg :=
  { shared with
    node := shared.node.restart (shared.restartCalls calls)
    vmsLocked := false }

def step (system : System cfg) : Event → System cfg
  | .call call => system.call (program cfg) call
  | .advance index outcome => system.advance exec index outcome
  | .unit id state =>
      { system with shared := system.shared.evolveUnit id state }
  | .crash calls => ⟨system.shared.restart calls, []⟩

/-- A condition on the steps of the calls, a guard between two calls, and a
condition on the crashes. -/
def EventMeets {Γ : Type} (protocol : Protocol Call Action Response Reply Γ)
    (cond : Shared cfg → Outcome → Γ → (action : Action) →
      Response action → Prop)
    (guard : Shared cfg → Outcome → Γ → (action : Action) →
      Response action → Γ → Prop)
    (crash : System cfg → RestartCalls → Prop) (system : System cfg) :
    Event → Prop
  | .advance index outcome =>
      system.Meets exec protocol cond guard index outcome
  | .crash calls => crash system calls
  | .call _ => True
  | .unit _ _ => True

instance EventMeets.decidable {Γ : Type}
    (protocol : Protocol Call Action Response Reply Γ)
    (cond : Shared cfg → Outcome → Γ → (action : Action) →
      Response action → Prop)
    (guard : Shared cfg → Outcome → Γ → (action : Action) →
      Response action → Γ → Prop)
    (crash : System cfg → RestartCalls → Prop)
    [∀ shared outcome ghost action response,
      Decidable (cond shared outcome ghost action response)]
    [∀ shared outcome ghost action response other,
      Decidable (guard shared outcome ghost action response other)]
    [∀ system calls, Decidable (crash system calls)]
    (system : System cfg) (event : Event) :
    Decidable (EventMeets protocol cond guard crash system event) :=
  match event with
  | .advance index outcome =>
      inferInstanceAs
        (Decidable (system.Meets exec protocol cond guard index outcome))
  | .crash calls => inferInstanceAs (Decidable (crash system calls))
  | .call _ => inferInstanceAs (Decidable True)
  | .unit _ _ => inferInstanceAs (Decidable True)

theorem EventMeets.meets {Γ : Type}
    {protocol : Protocol Call Action Response Reply Γ}
    {cond : Shared cfg → Outcome → Γ → (action : Action) →
      Response action → Prop}
    {guard : Shared cfg → Outcome → Γ → (action : Action) →
      Response action → Γ → Prop}
    {crash : System cfg → RestartCalls → Prop} {system : System cfg}
    {index : ℕ} {outcome : Outcome}
    (hmeets : EventMeets protocol cond guard crash system
      (.advance index outcome)) :
    system.Meets exec protocol cond guard index outcome := hmeets

theorem Shared.evolveUnit_eq (shared : Shared cfg) (id : String)
    (state : UnitState) :
    shared.evolveUnit id state =
      { shared with units := (shared.evolveUnit id state).units } := by
  unfold Shared.evolveUnit
  split <;> rfl

theorem Shared.evolveUnit_inactive
    {shared : Shared cfg} {other : String}
    (hdead : shared.units other = .inactive) (id : String)
    (state : UnitState) :
    (shared.evolveUnit id state).units other = .inactive := by
  unfold Shared.evolveUnit
  split
  · rename_i hevolves
    by_cases hother : other = id
    · subst hother
      rw [hdead] at hevolves
      cases state <;> cases hevolves
    · simp only [setUnit, if_neg hother]
      exact hdead
  · exact hdead

/-- A manager between calls. -/
def idle (node : Node cfg) (units : String → UnitState) : System cfg :=
  ⟨⟨node, false, ∅, units⟩, []⟩

/-- Every external step succeeds. -/
def succeeds : Outcome where
  done := true
  command := .ok ()
  draws := fun _ => 0
  write := .written
  tap := ⟨.ok (), .ok (), .ok ()⟩
  nft := nftSucceeds
  verity := ⟨noVerityFiles, noVerityFiles⟩
  order := .stored
  now := 0

/-- Steps of one call without interruption. -/
def advances (index count : ℕ) : List Event :=
  List.replicate count (.advance index succeeds)

def noUnits : String → UnitState := fun _ => .inactive

/-- The directory and its files can be read. -/
def restartSucceeds : RestartCalls where
  taps := ∅
  ruleset := supervisorRuleset
  hostsdir := ∅
  readDir := .ok ()
  order := .stored
  readable := fun _ => true
  unitActive := fun _ => true
  nftSetup := fun _ => nftSucceeds
  nftForward := fun _ _ => nftSucceeds

/-! ## Footprints -/

/-- The program uses the listed resources only, and its results have the
property. -/
def Uses {α : Type} (resources : List Resource) (R : α → Prop)
    (program : VmProgram α) : Prop :=
  program.Within
    (fun action => resources.contains action.resource = true) R

def anything {α : Type} : α → Prop := fun _ => True

theorem Uses.mono {α : Type}
    {resources larger : List Resource} {R S : α → Prop}
    {program : VmProgram α} (huses : Uses resources R program)
    (hresources : resources ⊆ larger)
    (hvalues : ∀ value, R value → S value) : Uses larger S program :=
  Program.Within.mono huses
    (fun action hmem => by
      rw [List.contains_iff_mem] at hmem ⊢
      exact hresources hmem) hvalues

theorem Uses.bind {α β : Type}
    {resources : List Resource} {R : α → Prop} {S : β → Prop}
    {program : VmProgram α} {next : α → VmProgram β}
    (hprogram : Uses resources R program)
    (hnext : ∀ value, R value → Uses resources S (next value)) :
    Uses resources S (program >>= next) :=
  Program.within_bind hprogram hnext

theorem uses_pure {α : Type} {resources : List Resource} {R : α → Prop}
    {value : α} (hvalue : R value) :
    Uses resources R (pure value : VmProgram α) := hvalue

theorem uses_perform {resources : List Resource} {action : Action}
    (hmem : resources.contains action.resource = true) :
    Uses resources anything (perform action) :=
  ⟨hmem, fun _ => trivial⟩

section Neutral

variable {α β Γ : Type} {protocol : Protocol Call Action Response Reply Γ}
  {ghost : Γ} {relevant resources : List Resource} {R : α → Prop}
  {program : VmProgram α}

/-- A part of a call that avoids the resources that a protocol looks at
follows the protocol without changing the ghost. -/
theorem Uses.follows
    {post : Γ → α → Prop} (huses : Uses resources R program)
    (hneutral : protocol.Neutral
      (fun action => relevant.contains action.resource = false) ghost)
    (havoids : resources.any relevant.contains = false)
    (hpost : ∀ value, R value → post ghost value) :
    program.Follows protocol post ghost := by
  apply Program.Follows.of_within huses _ hpost
  intro action hmem
  apply hneutral action
  rw [List.any_eq_false] at havoids
  have hnot := havoids action.resource (List.contains_iff_mem.mp hmem)
  exact Bool.eq_false_iff.mpr hnot

theorem Uses.skip
    {post : Γ → β → Prop} {next : α → VmProgram β}
    (huses : Uses resources R program)
    (hneutral : protocol.Neutral
      (fun action => relevant.contains action.resource = false) ghost)
    (havoids : resources.any relevant.contains = false)
    (hnext : ∀ value, R value → (next value).Follows protocol post ghost) :
    (program >>= next).Follows protocol post ghost :=
  Program.follows_bind.mpr (huses.follows hneutral havoids hnext)

/-- A property of the ghost that every action on the resources keeps. -/
theorem Uses.keeps
    {J : Γ → Prop} (huses : Uses resources R program)
    (hkeeps : ∀ reached action, J reached →
      resources.contains action.resource = true →
      protocol.allowed reached action ∧
        ∀ response, protocol.admits action response →
          J (protocol.next reached action response))
    (hghost : J ghost) :
    program.Follows protocol (fun reached value => J reached ∧ R value)
      ghost :=
  Program.Follows.of_invariant huses hkeeps hghost

/-- An address that is no concern of the protocol. -/
theorem addTapAddress_follows
    {vmId : String} (haddress : ∀ net,
      protocol.allowed ghost (.addTapAddress (tapName vmId) net) ∧
        ∀ response, protocol.next ghost
          (.addTapAddress (tapName vmId) net) response = ghost)
    (vmIpv6 : Option Ipv6Net) :
    (addTapAddress vmId vmIpv6).Follows protocol
      (fun reached _ => reached = ghost) ghost := by
  unfold addTapAddress
  cases vmIpv6 with
  | none => rfl
  | some net =>
      refine Program.follows_action_bind.mpr
        ⟨(haddress net).1, fun added _ => ?_⟩
      rw [(haddress net).2 added]
      cases added with
      | error message => rfl
      | ok done => rfl

end Neutral

theorem onlyIf_uses {resources : List Resource} {program : VmProgram Unit}
    (condition : Bool) (huses : Uses resources anything program) :
    Uses resources anything (onlyIf condition program) := by
  unfold onlyIf
  split
  · exact huses
  · exact uses_pure trivial

theorem nftOperation_uses (purpose : NftUse)
    (commands : Listing → Except String (List NftCommand)) :
    Uses [.firewall] anything (nftOperation purpose commands) := by
  unfold nftOperation
  refine Uses.bind (uses_perform rfl) fun listed _ => ?_
  split
  · exact uses_pure trivial
  · split
    · exact uses_pure trivial
    · exact uses_perform rfl

variable (cfg)

theorem teardownVm_uses (vmId : String) :
    Uses [.firewall] anything (teardownVm cfg vmId) := by
  unfold teardownVm
  refine Uses.bind (nftOperation_uses _ _) fun result _ => ?_
  split
  · exact uses_pure trivial
  · refine Uses.bind (nftOperation_uses _ _) fun ignored _ => ?_
    exact uses_pure trivial

theorem removeForwardRules_uses (index : ℕ) (forwards : List PortForward) :
    Uses [.firewall] anything (removeForwardRules cfg index forwards) := by
  induction forwards generalizing index with
  | nil => exact uses_pure trivial
  | cons forward rest ih =>
      unfold removeForwardRules
      refine Uses.bind (nftOperation_uses _ _) fun ignored _ => ?_
      exact ih (index + 1)

theorem saveVm_uses (vmId : String) (persisted : PersistedVm) :
    Uses [.files] anything (saveVm vmId persisted) := by
  unfold saveVm
  refine Uses.bind (uses_perform rfl) fun written _ => ?_
  split
  · exact uses_perform rfl
  · exact uses_pure trivial

theorem updatePersistedPortForwards_uses (vmId : String) :
    Uses [.files, .forwards] anything
      (updatePersistedPortForwards vmId) := by
  unfold updatePersistedPortForwards
  refine Uses.bind (uses_perform rfl) fun found _ => ?_
  split
  · exact uses_pure trivial
  · refine Uses.bind (uses_perform rfl) fun forwards _ => ?_
    refine Uses.bind ((saveVm_uses _ _).mono (by decide) fun _ h => h)
      fun ignored _ => ?_
    exact uses_pure trivial

theorem removeReservations_uses (vmId : String) (hasIpv6 : Bool) :
    Uses [.reservations] anything
      (removeReservations cfg vmId hasIpv6) := by
  unfold removeReservations
  split
  · exact uses_pure trivial
  · refine Uses.bind (uses_perform rfl) fun ignored _ => ?_
    exact onlyIf_uses _ (uses_perform rfl)

theorem cleanupReservations_uses (vmId : String) (hasIpv6 : Bool) :
    Uses [.reservations, .ranges] anything
      (cleanupReservations cfg vmId hasIpv6) := by
  unfold cleanupReservations
  refine Uses.bind ((removeReservations_uses cfg vmId hasIpv6).mono
    (by decide) fun _ h => h) fun ignored _ => ?_
  exact onlyIf_uses _ (uses_perform rfl)

theorem writeReservations_uses (vmId macAddr : String) (vmIp : Ipv4Addr)
    (vmIpv6 : Option Ipv6Net) :
    Uses [.reservations, .ranges] anything
      (writeReservations cfg vmId macAddr vmIp vmIpv6) := by
  unfold writeReservations
  split
  · exact uses_pure trivial
  · refine Uses.bind (uses_perform rfl) fun written _ => ?_
    split
    · exact uses_pure trivial
    · split
      · exact uses_pure trivial
      · refine Uses.bind (uses_perform rfl) fun written _ => ?_
        split
        · refine Uses.bind (uses_perform rfl) fun ignored _ => ?_
          refine Uses.bind (uses_perform rfl) fun ignored _ => ?_
          exact uses_pure trivial
        · exact uses_pure trivial

theorem allocateIpv6_uses (vmId : String) (requested : Option Ipv6Net) :
    Uses [.ranges] anything (perform (.allocateIpv6 vmId requested)) :=
  uses_perform rfl

theorem undoTap_uses (vmId : String) (hasIpv6 : Bool) :
    Uses [.taps, .reservations, .ranges] anything
      (undoTap cfg vmId hasIpv6) := by
  unfold undoTap
  refine Uses.bind (uses_perform rfl) fun ignored _ => ?_
  exact (cleanupReservations_uses cfg vmId hasIpv6).mono (by decide)
    fun _ h => h

theorem addTapAddress_uses (vmId : String) (vmIpv6 : Option Ipv6Net) :
    Uses [.taps] anything (addTapAddress vmId vmIpv6) := by
  unfold addTapAddress
  split
  · exact uses_pure trivial
  · refine Uses.bind (uses_perform rfl) fun added _ => ?_
    split
    · exact uses_pure trivial
    · exact uses_pure trivial

theorem setUpNetwork_uses (vmId : String) (vmIpv6 : Option Ipv6Net) :
    Uses [.taps, .firewall, .reservations, .ranges] anything
      (setUpNetwork cfg vmId vmIpv6) := by
  unfold setUpNetwork
  refine Uses.bind (uses_perform rfl) fun created _ => ?_
  split
  · refine Uses.bind ((cleanupReservations_uses cfg vmId _).mono
      (by decide) fun _ h => h)
      fun ignored _ => ?_
    exact uses_pure trivial
  · refine Uses.bind ((addTapAddress_uses vmId vmIpv6).mono (by decide)
      fun _ h => h)
      fun added _ => ?_
    split
    · refine Uses.bind ((undoTap_uses cfg vmId _).mono (by decide)
        fun _ h => h)
        fun ignored _ => ?_
      exact uses_pure trivial
    · refine Uses.bind ((nftOperation_uses _ _).mono (by decide)
        fun _ h => h)
        fun done _ => ?_
      split
      · refine Uses.bind ((undoTap_uses cfg vmId _).mono (by decide)
          fun _ h => h)
          fun ignored _ => ?_
        exact uses_pure trivial
      · exact uses_pure trivial

theorem addNdpRange_uses (tap : String) (vmIpv6 : Option Ipv6Net) :
    Uses [.neighbours] anything (addNdpRange cfg tap vmIpv6) := by
  unfold addNdpRange
  split
  · exact uses_perform rfl
  · exact uses_pure trivial

/-- The machine that is launched is the one that was asked for. -/
theorem prepareLaunch_uses (config : VmConfig) (numaHint : Option UInt32)
    (macAddr : String) :
    Uses [.images, .numa]
      (fun result => ∀ launch, result = .ok launch →
        launch.config.vmId = config.vmId)
      (prepareLaunch cfg config numaHint macAddr) := by
  have herror : ∀ failure : Failure, ∀ launch : Launch,
      (Except.error failure : Except Failure Launch) = .ok launch →
        launch.config.vmId = config.vmId := by
    intro failure launch heq
    cases heq
  unfold prepareLaunch
  split
  · exact uses_pure (herror _)
  · refine Uses.bind (uses_perform rfl) fun booted _ => ?_
    split
    · exact uses_pure (herror _)
    · refine Uses.bind (uses_perform rfl) fun placed _ => ?_
      split
      · exact uses_pure (herror _)
      · dsimp only
        split
        · exact uses_pure (herror _)
        · apply uses_pure
          intro launch heq
          cases heq
          rfl

theorem undoLaunch_uses (launch : Launch) (vmId : String)
    (vmIpv6 : Option Ipv6Net) :
    Uses [.numa, .neighbours, .firewall, .taps, .reservations, .ranges]
      anything (undoLaunch cfg launch vmId vmIpv6) := by
  unfold undoLaunch
  refine Uses.bind (uses_perform rfl) fun ignored _ => ?_
  refine Uses.bind (onlyIf_uses _ (uses_perform rfl)) fun ignored _ => ?_
  refine Uses.bind ((teardownVm_uses cfg vmId).mono (by decide)
    fun _ h => h) fun ignored _ => ?_
  exact (undoTap_uses cfg vmId _).mono (by decide) fun _ h => h

theorem dropIpv6_uses (id : String) (handle : VmHandle) :
    Uses [.neighbours, .ranges] anything (dropIpv6 cfg id handle) := by
  unfold dropIpv6
  refine Uses.bind (onlyIf_uses _ (uses_perform rfl)) fun ignored _ => ?_
  exact onlyIf_uses _ (uses_perform rfl)

theorem stopProcess_uses (process : Option QemuProcess) :
    Uses [.units] anything (stopProcess process) := by
  unfold stopProcess
  split
  · exact uses_pure trivial
  · exact uses_perform rfl

theorem releaseNuma_uses (handle : VmHandle) :
    Uses [.numa] anything (releaseNuma handle) := by
  unfold releaseNuma
  split
  · exact uses_pure trivial
  · exact uses_perform rfl

/-- A protocol that looks at nothing that is acquired between the offset and
the launch: it is enough to follow it from the launch on. -/
theorem createVm_follows {Γ : Type}
    {protocol : Protocol Call Action Response Reply Γ}
    (relevant : List Resource) (held : UInt8 → Γ)
    {post : Γ → Except Failure VmInfo → Prop} {ghost : Γ}
    {config : VmConfig}
    {requestedIpv6 : Option Ipv6Net} {numaHint : Option UInt32}
    (hcheck : protocol.allowed ghost (.containsVm config.vmId) ∧
      ∀ present, protocol.admits (.containsVm config.vmId) present →
        protocol.next ghost (.containsVm config.vmId) present = ghost)
    (htake : protocol.allowed ghost .takeOffset)
    (hnone : protocol.next ghost .takeOffset none = ghost)
    (hsome : ∀ offset : UInt8,
      protocol.next ghost .takeOffset (some offset) = held offset)
    (hneutral : ∀ offset, protocol.Neutral
      (fun action => relevant.contains action.resource = false)
      (held offset))
    (havoids : [Resource.ranges, .reservations, .taps, .firewall,
      .neighbours, .images, .numa].any relevant.contains = false)
    (hrefused : ∀ failure, post ghost (.error failure))
    (hfailed : ∀ offset failure, post (held offset) (.error failure))
    (hlaunch : ∀ offset launch macAddr vmIpv6,
      launch.config.vmId = config.vmId →
      (launchVm cfg launch (allocateVmIp cfg.gatewayIp offset) macAddr
        vmIpv6).Follows protocol post (held offset)) :
    (createVm cfg config requestedIpv6 numaHint).Follows protocol post
      ghost := by
  have hpart : ∀ resources : List Resource,
      resources ⊆ [.ranges, .reservations, .taps, .firewall, .neighbours,
        .images, .numa] → resources.any relevant.contains = false := by
    intro resources hsubset
    rw [List.any_eq_false] at havoids ⊢
    exact fun resource hmem => havoids resource (hsubset hmem)
  unfold createVm
  refine Program.follows_action_bind.mpr
    ⟨hcheck.1, fun present hpresent => ?_⟩
  rw [hcheck.2 present hpresent]
  cases present with
  | true => exact hrefused _
  | false =>
      refine Program.follows_action_bind.mpr ⟨htake, fun taken _ => ?_⟩
      cases taken with
      | none =>
          rw [hnone]
          exact hrefused _
      | some offset =>
          rw [hsome]
          refine Uses.skip (allocateIpv6_uses config.vmId
            requestedIpv6) (hneutral offset) (hpart _ (by decide))
            fun allocated _ => ?_
          cases allocated with
          | error failure => exact hfailed offset failure
          | ok vmIpv6 =>
              refine Uses.skip (writeReservations_uses cfg _ _ _ vmIpv6)
                (hneutral offset) (hpart _ (by decide))
                fun written _ => ?_
              cases written with
              | error failure => exact hfailed offset failure
              | ok done =>
                  refine Uses.skip (setUpNetwork_uses cfg _ vmIpv6)
                    (hneutral offset) (hpart _ (by decide))
                    fun ready _ => ?_
                  cases ready with
                  | error failure => exact hfailed offset failure
                  | ok done =>
                      refine Uses.skip (addNdpRange_uses cfg _ vmIpv6)
                        (hneutral offset) (hpart _ (by decide))
                        fun _ _ => ?_
                      refine Uses.skip
                        (prepareLaunch_uses cfg config numaHint _)
                        (hneutral offset) (hpart _ (by decide))
                        fun prepared hprepared => ?_
                      cases prepared with
                      | error failure => exact hfailed offset failure
                      | ok launch =>
                          exact hlaunch offset launch _ vmIpv6
                            (hprepared launch rfl)

theorem addPortForward_uses
    (vmId : String) (hostPort vmPort : UInt16) (protocol : Protocol) :
    Uses [.lookups, .forwards, .firewall, .files] anything
      (addPortForward cfg vmId hostPort vmPort protocol) := by
  unfold addPortForward
  refine Uses.bind (uses_perform rfl) fun found _ => ?_
  split
  · exact uses_pure trivial
  · refine Uses.bind (uses_perform rfl) fun reserved _ => ?_
    split
    · exact uses_pure trivial
    · refine Uses.bind ((nftOperation_uses _ _).mono (by decide)
        fun _ h => h) fun installed _ => ?_
      split
      · refine Uses.bind (uses_perform rfl) fun ignored _ => ?_
        exact uses_pure trivial
      · refine Uses.bind ((updatePersistedPortForwards_uses vmId).mono
          (by decide) fun _ h => h) fun ignored _ => ?_
        exact uses_pure trivial

theorem removePortForward_uses
    (hostPort : UInt16) (protocol : Protocol) :
    Uses [.forwards, .firewall, .files] anything
      (removePortForward cfg hostPort protocol) := by
  unfold removePortForward
  refine Uses.bind (uses_perform rfl) fun taken _ => ?_
  split
  · exact uses_pure trivial
  · refine Uses.bind ((nftOperation_uses _ _).mono (by decide)
      fun _ h => h) fun removed _ => ?_
    split
    · exact uses_pure trivial
    · refine Uses.bind ((updatePersistedPortForwards_uses _).mono
        (by decide) fun _ h => h) fun ignored _ => ?_
      exact uses_pure trivial

end AlephCvm.Vm.Concurrent
