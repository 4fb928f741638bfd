import AlephCvm.StepRuns
import AlephCvm.VmManager

/-!
# The life of a machine after its creation

The rest of `VmManager`: deletion, port forwards, and recovery of the state
directory after a restart.  `ManagerOp` lists the operations of the manager
with the outcomes of their external steps, and `Node.step` executes one of
them; runs of the manager are runs of this step function.
-/

namespace AlephCvm.Vm

open ResultContext AlephCvm.Tee AlephCvm.Numa AlephCvm.Net AlephCvm.Nft
open AlephCvm.Qemu

variable {cfg : NodeConfig}

/-! ## Deleting a machine -/

structure DeleteCalls where
  order : IterationOrder
  removeForward : ℕ → NftCalls
  cleanup : CleanupCalls
  removeState : Bool

/-- The removals of the forwards' rules; failures are ignored. -/
def removeForwardRules (manager : NftablesManager)
    (calls : ℕ → NftCalls) (ruleset : Ruleset)
    (forwards : List PortForward) : Ruleset :=
  forwards.zipIdx.foldl
    (fun ruleset entry =>
      match manager.removePortForward (calls entry.2) ruleset
          entry.1.hostPort entry.1.protocol with
      | .ok next => next
      | .error _ => ruleset)
    ruleset

def releaseNuma (numa : NumaAllocator cfg.topology) (handle : VmHandle) :
    NumaAllocator cfg.topology :=
  match handle.numaNode with
  | none => numa
  | some node =>
      numa.release node handle.config.vcpus handle.config.memoryMb
        (handle.config.hugepageSize.getD .size2M)

/-- The deletion but for the IPv6 range and the reservation files. -/
def Node.dropHandle (node : Node cfg) (calls : DeleteCalls)
    (id : String) (handle : VmHandle) : Node cfg :=
  let (removed, forwards) :=
    PortForwardState.removeAllForVm node.portForwards calls.order id
  let ruleset :=
    removeForwardRules cfg.nftables calls.removeForward node.ruleset removed
  { node with
    vms := node.vms.erase id
    numa := releaseNuma node.numa handle
    portForwards := forwards
    ndpRanges := if cfg.hasNdpProxy then
        node.ndpRanges.erase handle.tapName
      else node.ndpRanges
    ruleset := (cfg.nftables.teardownVm calls.cleanup.natTeardown
      calls.cleanup.filterTeardown ruleset id).2
    taps := deleteTap calls.cleanup.deleteTap node.taps handle.tapName
    usedIpOffsets := node.usedIpOffsets.erase
      (ipOffset cfg.gatewayIp handle.ip)
    stateDir := if calls.removeState then
        node.stateDir.erase (stateFile id)
      else node.stateDir }

def Node.deleteHandle (node : Node cfg) (calls : DeleteCalls)
    (id : String) (handle : VmHandle) : Node cfg :=
  let node := node.dropHandle calls id handle
  let node := if handle.ipv6.isSome then node.releaseIpv6 id else node
  node.removeReservations calls.cleanup handle.config.vmId
    handle.ipv6.isSome

def Node.deleteVm (node : Node cfg) (calls : DeleteCalls) (id : String) :
    Except String Unit × Node cfg :=
  match node.vms.lookup id with
  | none => (.error s!"VM {id} not found", node)
  | some handle => (.ok (), node.deleteHandle calls id handle)

/-! ## Port forwards -/

structure ForwardCalls where
  nft : NftCalls
  order : IterationOrder
  save : Bool

/-- Rewrite the list of forwards in the state file of a machine, if the file
is there. -/
def Node.updatePersistedPortForwards (node : Node cfg)
    (calls : ForwardCalls) (vmId : String) : Node cfg :=
  match node.stateDir.lookup (stateFile vmId) with
  | none => node
  | some persisted =>
      node.saveVm calls.save vmId { persisted with
        portForwards :=
          PortForwardState.listForVm node.portForwards calls.order vmId }

def chooseHostPort (forwards : PortForwardState) (hostPort : UInt16)
    (protocol : Protocol) : Except String UInt16 :=
  if hostPort = 0 then
    optionContext "no available ports for auto-allocation"
      (PortForwardState.autoAllocate forwards protocol 10000)
  else if PortForwardState.isAvailable forwards hostPort protocol then
    .ok hostPort
  else
    .error s!"port {hostPort} ({protocol.text}) is already in use"

def Node.addPortForward (node : Node cfg) (calls : ForwardCalls)
    (vmId : String) (hostPort vmPort : UInt16) (protocol : Protocol) :
    Except String PortForward × Node cfg :=
  match node.vms.lookup vmId with
  | none => (.error s!"VM {vmId} not found", node)
  | some handle =>
      match chooseHostPort node.portForwards hostPort protocol with
      | .error message => (.error message, node)
      | .ok actualHostPort =>
          let forward : PortForward :=
            ⟨vmId, actualHostPort, vmPort, protocol⟩
          let node := { node with
            portForwards :=
              PortForwardState.add node.portForwards forward }
          match cfg.nftables.addPortForward calls.nft node.ruleset vmId
              (ipv4Text handle.ip) actualHostPort vmPort protocol with
          | .error _ =>
              (.error "failed to add nftables port forward",
                { node with
                  portForwards := (PortForwardState.remove
                    node.portForwards actualHostPort protocol).2 })
          | .ok ruleset =>
              (.ok forward, { node with ruleset := ruleset }
                |>.updatePersistedPortForwards calls vmId)

/-- The entry is dropped first; when its rule cannot be removed the call
fails and the state file keeps the entry. -/
def Node.removePortForward (node : Node cfg) (calls : ForwardCalls)
    (hostPort : UInt16) (protocol : Protocol) :
    Except String Unit × Node cfg :=
  match PortForwardState.remove node.portForwards hostPort protocol with
  | (none, _) => (.error "port forward not found", node)
  | (some forward, forwards) =>
      let node := { node with portForwards := forwards }
      match cfg.nftables.removePortForward calls.nft node.ruleset hostPort
          protocol with
      | .error message => (.error message, node)
      | .ok ruleset =>
          (.ok (), { node with ruleset := ruleset }
            |>.updatePersistedPortForwards calls forward.vmId)

/-! ## Recovery -/

/-- The host that a restarted manager finds, and the outcomes of its
recovery. -/
structure RestartCalls where
  taps : Finset String
  ruleset : Ruleset
  hostsdir : AList fun _ : String => String
  readDir : Except String Unit
  order : IterationOrder
  readable : String → Bool
  unitActive : String → Bool
  nftSetup : String → NftCalls
  nftForward : String → ℕ → NftCalls

/-- `path.extension() == Some("json")`. -/
def hasJsonExtension (name : String) : Bool :=
  ".json".toList.isSuffixOf name.toList && name != ".json"

/-- The parsed content of the readable state files, in directory order. -/
def loadAllVms (calls : RestartCalls)
    (stateDir : AList fun _ : String => PersistedVm) :
    Except String (List PersistedVm) :=
  match calls.readDir with
  | .error _ => .error "failed to read state dir"
  | .ok () => .ok ((calls.order.arrange (stateDir.entries.filter fun entry =>
      hasJsonExtension entry.1 && calls.readable entry.1)).map
        fun entry => entry.2)

/-- The replay of the forwards' rules; failures are ignored. -/
def replayForwardRules (manager : NftablesManager)
    (calls : ℕ → NftCalls) (ruleset : Ruleset) (persisted : PersistedVm) :
    Ruleset :=
  persisted.portForwards.zipIdx.foldl
    (fun ruleset entry =>
      match manager.addPortForward (calls entry.2) ruleset
          persisted.config.vmId (ipv4Text persisted.ip) entry.1.hostPort
          entry.1.vmPort entry.1.protocol with
      | .ok next => next
      | .error _ => ruleset)
    ruleset

def replayRules (manager : NftablesManager) (calls : RestartCalls)
    (ruleset : Ruleset) (persisted : PersistedVm) : Ruleset :=
  let vmId := persisted.config.vmId
  let ruleset :=
    match manager.setupVm (calls.nftSetup vmId) ruleset vmId
        persisted.tapName with
    | .ok next => next
    | .error _ => ruleset
  replayForwardRules manager (calls.nftForward vmId) ruleset persisted

def restoreNuma (numa : NumaAllocator cfg.topology)
    (persisted : PersistedVm) : NumaAllocator cfg.topology :=
  match persisted.numaNode with
  | none => numa
  | some node =>
      match numa.allocate persisted.config.vcpus persisted.config.memoryMb
          (some node) (isConfidential persisted.config) with
      | .ok (_, next) => next
      | .error _ => numa

/-- `alloc.allocate(&vm_id, Some(*ipv6))` with a failure ignored. -/
def restoreIpv6 (cfg : NodeConfig)
    (allocations : AList fun _ : String => Ipv6Net)
    (persisted : PersistedVm) : AList fun _ : String => Ipv6Net :=
  match persisted.ipv6, cfg.ipv6Pool with
  | some net, some pool =>
      match Ipv6RangeAllocator.allocate ⟨pool, vmPrefix, allocations⟩
          persisted.config.vmId (some net) (fun _ => 0) with
      | .ok (_, alloc) => alloc.allocations
      | .error _ => allocations
  | _, _ => allocations

def recoveredHandle (cfg : NodeConfig) (calls : RestartCalls)
    (persisted : PersistedVm) : VmHandle :=
  let vmId := persisted.config.vmId
  let active := calls.unitActive vmId
  { config := persisted.config
    state := if active then .running else .stopped
    ip := persisted.ip
    ipv6 := persisted.ipv6
    process := if active then some ⟨.forVm cfg.runDir vmId, vmId⟩ else none
    tapName := persisted.tapName
    createdAtEpoch := persisted.createdAtEpoch
    numaNode := persisted.numaNode }

/-- One round of the recovery loop. -/
def Node.recoverVm (calls : RestartCalls) (node : Node cfg)
    (persisted : PersistedVm) : Node cfg :=
  let vmId := persisted.config.vmId
  let active := calls.unitActive vmId
  { node with
    usedIpOffsets := insert (ipOffset cfg.gatewayIp persisted.ip)
      node.usedIpOffsets
    numa := if active then restoreNuma node.numa persisted else node.numa
    ipv6Allocations := restoreIpv6 cfg node.ipv6Allocations persisted
    portForwards :=
      persisted.portForwards.foldl PortForwardState.add node.portForwards
    ruleset := if active then
        replayRules cfg.nftables calls node.ruleset persisted
      else node.ruleset
    ndpRanges := if active then
        (node.addNdpRange persisted.tapName persisted.ipv6).ndpRanges
      else node.ndpRanges
    vms := node.vms.insert vmId (recoveredHandle cfg calls persisted) }

def Node.recoverVms (node : Node cfg) (calls : RestartCalls) :
    Except String Unit × Node cfg :=
  match loadAllVms calls node.stateDir with
  | .error message => (.error message, node)
  | .ok persistedVms =>
      (.ok (), persistedVms.foldl (Node.recoverVm calls) node)

/-- The process ends and a new one recovers; the state directory is all that
is carried over.  A failed recovery is logged and the server starts
nevertheless. -/
def Node.restart (node : Node cfg) (calls : RestartCalls) : Node cfg :=
  ((Node.fresh cfg calls.taps calls.ruleset calls.hostsdir
    node.stateDir).recoverVms calls).2

/-! ## Operations -/

inductive ManagerOp where
  | createVm (calls : CreateCalls) (config : VmConfig)
      (requestedIpv6 : Option Ipv6Net) (numaHint : Option UInt32)
  | deleteVm (calls : DeleteCalls) (id : String)
  | addPortForward (calls : ForwardCalls) (vmId : String)
      (hostPort vmPort : UInt16) (protocol : Protocol)
  | removePortForward (calls : ForwardCalls) (hostPort : UInt16)
      (protocol : Protocol)
  | restart (calls : RestartCalls)

def Node.step (node : Node cfg) : ManagerOp → Node cfg
  | .createVm calls config requestedIpv6 numaHint =>
      (node.createVm calls config requestedIpv6 numaHint).2
  | .deleteVm calls id => (node.deleteVm calls id).2
  | .addPortForward calls vmId hostPort vmPort protocol =>
      (node.addPortForward calls vmId hostPort vmPort protocol).2
  | .removePortForward calls hostPort protocol =>
      (node.removePortForward calls hostPort protocol).2
  | .restart calls => node.restart calls

/-! ## A small host -/

/-- A node with the backends that the server registers, one NUMA node and
neither DHCP reservations nor IPv6. -/
def smallHost : NodeConfig where
  runDir := "/run/aleph-cvm"
  bridge := "br-aleph"
  gatewayIp := 0x0A006401
  backends
    | .sevSnp => some (.sevSnp "/usr/share/OVMF/OVMF.fd")
    | .none => some .noTee
    | _ => none
  dhcpHostsdir := none
  externalInterface := "eth0"
  ipv6Pool := none
  useNdpProxy := false
  topology := ⟨[{
    id := 0
    cpus := ⟨[0, 1], by decide⟩
    total2mHugepages := 0
    total1gHugepages := 0
    totalRamMb := 4096 }]⟩
  distinct_ids := by decide

/-- The chains of the supervisor, as the start of the server leaves them. -/
def supervisorRuleset : Ruleset where
  tables := [(.ip, "aleph")]
  chains := [⟨.ip, "aleph", "aleph-supervisor-nat", none⟩,
    ⟨.ip, "aleph", "aleph-supervisor-filter", none⟩,
    ⟨.ip, "aleph", "aleph-supervisor-prerouting", none⟩]
  rules := []
  nextHandle := 1
  chain_table := by decide
  chains_nodup := by decide
  rule_chain := by simp
  jump_chain := by simp
  handles_nodup := Ruleset.empty.handles_nodup
  handle_lt := Ruleset.empty.handle_lt

def smallNode : Node smallHost :=
  .fresh smallHost ∅ supervisorRuleset ∅ ∅

def nftSucceeds : NftCalls := ⟨fun _ => .listed, ⟨.ok (), ""⟩⟩

def cleanupSucceeds : CleanupCalls :=
  ⟨true, true, true, nftSucceeds, nftSucceeds⟩

def noVerityFiles : VerityFiles :=
  ⟨false, false, none, none, .error "", .error "", .error ""⟩

/-- Every external step succeeds. -/
def createSucceeds : CreateCalls where
  draws := fun _ => 0
  dhcpWrite := .written
  dhcpv6Write := .written
  tap := ⟨.ok (), .ok (), .ok ()⟩
  addIpv6 := .ok ()
  nftSetup := nftSucceeds
  verity := ⟨noVerityFiles, noVerityFiles⟩
  spawn := .ok ()
  now := 0
  save := true
  cleanup := cleanupSucceeds

def deleteSucceeds : DeleteCalls where
  order := .stored
  removeForward := fun _ => nftSucceeds
  cleanup := cleanupSucceeds
  removeState := true

def smallConfig (vmId : String) (backend : TeeType) : VmConfig where
  vmId := vmId
  kernel := some "/boot/vmlinuz"
  initrd := some "/boot/initrd.img"
  disks := [⟨"/var/lib/images/rootfs.raw", false, "raw"⟩]
  vcpus := 1
  memoryMb := 512
  tee := ⟨backend, none⟩
  encrypted := false
  numaNode := none
  hugepageSize := none

end AlephCvm.Vm
