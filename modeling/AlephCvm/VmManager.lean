import AlephCvm.Ipv6RangeAllocator
import AlephCvm.NftablesManager
import AlephCvm.QemuCommand

/-!
# The VM manager

Model of `aleph-compute-node/src/vm/manager.rs` with the parts of
`persistence.rs`, `qemu/process.rs` and `network/tap.rs` that it drives.  A
`Node` is the manager's memory together with the host resources it acquires:
TAP interfaces, the nftables ruleset, the DHCP reservation files and the state
directory.  Every external command and file operation has an outcome; the
outcomes of one call are collected in a structure and passed to it.

The manager is modelled between calls and call by call: the locks of the
source are taken and released inside one call.
-/

namespace AlephCvm.Vm

open ResultContext AlephCvm.Tee AlephCvm.Numa AlephCvm.Net AlephCvm.Nft
open AlephCvm.Qemu

/-! ## State -/

structure NodeConfig where
  runDir : String
  bridge : String
  gatewayIp : Ipv4Addr
  backends : TeeType → Option TeeBackend
  dhcpHostsdir : Option String
  externalInterface : String
  ipv6Pool : Option Ipv6Net
  useNdpProxy : Bool
  topology : NumaTopology
  distinct_ids : topology.DistinctIds

def NodeConfig.nftables (cfg : NodeConfig) : NftablesManager where
  chainPrefix := "aleph"
  externalInterface := cfg.externalInterface
  ipv6Enabled := cfg.ipv6Pool.isSome

/-- The NDP proxy is there only together with an IPv6 pool. -/
def NodeConfig.hasNdpProxy (cfg : NodeConfig) : Bool :=
  cfg.ipv6Pool.isSome && cfg.useNdpProxy

inductive VmState where
  | running
  | stopped
  deriving DecidableEq, Repr

def VmState.text : VmState → String
  | .running => "running"
  | .stopped => "stopped"

structure QemuProcess where
  paths : QemuPaths
  vmId : String
  deriving DecidableEq, Repr

structure VmHandle where
  config : VmConfig
  state : VmState
  ip : Ipv4Addr
  ipv6 : Option Ipv6Net
  process : Option QemuProcess
  tapName : String
  createdAtEpoch : ℕ
  numaNode : Option UInt32
  deriving DecidableEq, Repr

structure PersistedVm where
  config : VmConfig
  ip : Ipv4Addr
  ipv6 : Option Ipv6Net
  tapName : String
  macAddr : String
  portForwards : List PortForward
  createdAtEpoch : ℕ
  numaNode : Option UInt32
  deriving DecidableEq, Repr

structure Node (cfg : NodeConfig) where
  taps : Finset String
  ruleset : Ruleset
  hostsdir : AList fun _ : String => String
  stateDir : AList fun _ : String => PersistedVm
  vms : AList fun _ : String => VmHandle
  usedIpOffsets : Finset UInt8
  portForwards : PortForwardState
  ipv6Allocations : AList fun _ : String => Ipv6Net
  ndpRanges : AList fun _ : String => Ipv6Net
  numa : NumaAllocator cfg.topology

variable {cfg : NodeConfig}

/-- A new manager on a host. -/
def Node.fresh (cfg : NodeConfig) (taps : Finset String)
    (ruleset : Ruleset) (hostsdir : AList fun _ : String => String)
    (stateDir : AList fun _ : String => PersistedVm) : Node cfg where
  taps := taps
  ruleset := ruleset
  hostsdir := hostsdir
  stateDir := stateDir
  vms := ∅
  usedIpOffsets := ∅
  portForwards := ∅
  ipv6Allocations := ∅
  ndpRanges := ∅
  numa := .new cfg.topology

/-- Machines get single addresses unless they ask for a range. -/
def vmPrefix : UInt8 := 128

def Node.ipv6Allocator (node : Node cfg) : Option Ipv6RangeAllocator :=
  cfg.ipv6Pool.map fun pool => ⟨pool, vmPrefix, node.ipv6Allocations⟩

/-! ## Information about a machine -/

structure VmInfo where
  vmId : String
  status : String
  ip : String
  ipv6 : String
  tee : String
  uptimeSecs : ℕ
  numaNode : Option UInt32
  deriving DecidableEq, Repr

/-- The variant's name, as the derived `Debug` prints it. -/
def teeTypeText : TeeType → String
  | .sevSnp => "SevSnp"
  | .tdx => "Tdx"
  | .nvidiaCc => "NvidiaCc"
  | .none => "None"

def VmInfo.fromHandle (now : ℕ) (handle : VmHandle) : VmInfo where
  vmId := handle.config.vmId
  status := handle.state.text
  ip := ipv4Text handle.ip
  ipv6 := (handle.ipv6.map ipv6NetText).getD ""
  tee := teeTypeText handle.config.tee.backend
  uptimeSecs := now - handle.createdAtEpoch
  numaNode := handle.numaNode

def Node.listVms (node : Node cfg) (order : IterationOrder) (now : ℕ) :
    List VmInfo :=
  order.arrange
    (node.vms.entries.map fun entry => VmInfo.fromHandle now entry.2)

/-! ## Outcomes of external steps -/

/-- How `std::fs::write` ended: a failed write may leave the file as it was
or cut off. -/
inductive WriteOutcome where
  | written
  | refused (message : String)
  | cut (length : ℕ) (message : String)
  deriving DecidableEq, Repr

structure TapCalls where
  add : Except String Unit
  up : Except String Unit
  master : Except String Unit

/-- The commands that undo a creation, each done or not. -/
structure CleanupCalls where
  deleteTap : Bool
  removeDhcp : Bool
  removeDhcpv6 : Bool
  natTeardown : NftCalls
  filterTeardown : NftCalls

def CleanupCalls.Succeed (calls : CleanupCalls) : Prop :=
  calls.deleteTap = true ∧ calls.removeDhcp = true ∧
    calls.removeDhcpv6 = true ∧ calls.natTeardown.Succeed ∧
    calls.filterTeardown.Succeed

structure CreateCalls where
  draws : ℕ → ℕ
  dhcpWrite : WriteOutcome
  dhcpv6Write : WriteOutcome
  tap : TapCalls
  addIpv6 : Except String Unit
  nftSetup : NftCalls
  verity : VerityCalls
  spawn : Except String Unit
  now : ℕ
  save : Bool
  cleanup : CleanupCalls

/-! ## Files and interfaces -/

def writeFile (outcome : WriteOutcome)
    (files : AList fun _ : String => String) (name content : String) :
    Except String Unit × AList fun _ : String => String :=
  match outcome with
  | .written => (.ok (), files.insert name content)
  | .refused message => (.error message, files)
  | .cut length message =>
      (.error message,
        files.insert name (String.ofList (content.toList.take length)))

def removeFile (done : Bool) (files : AList fun _ : String => String)
    (name : String) : AList fun _ : String => String :=
  if done then files.erase name else files

def deleteTap (done : Bool) (taps : Finset String) (tap : String) :
    Finset String :=
  if done then taps.erase tap else taps

/-- `ip tuntap add`, `ip link set up` and `ip link set master`.  The kernel
refuses to add an interface that exists. -/
def createTap (calls : TapCalls) (taps : Finset String)
    (tap bridge : String) : Except String Unit × Finset String :=
  if tap ∈ taps then
    (.error s!"failed to create TAP device {tap}", taps)
  else
    match calls.add with
    | .error _ => (.error s!"failed to create TAP device {tap}", taps)
    | .ok () =>
        match calls.up with
        | .error _ =>
            (.error s!"failed to bring up TAP device {tap}", insert tap taps)
        | .ok () =>
            match calls.master with
            | .error _ =>
                (.error s!"failed to attach {tap} to bridge {bridge}",
                  insert tap taps)
            | .ok () => (.ok (), insert tap taps)

/-! ## Creating a machine -/

def Node.takeOffset (node : Node cfg) (offset : UInt8) : Node cfg :=
  { node with usedIpOffsets := insert offset node.usedIpOffsets }

def Node.allocateIpv6 (node : Node cfg) (draws : ℕ → ℕ) (vmId : String)
    (requested : Option Ipv6Net) :
    Except Failure (Option Ipv6Net × Node cfg) :=
  match node.ipv6Allocator with
  | none => .ok (none, node)
  | some alloc =>
      match alloc.allocate vmId requested draws with
      | .error failure => .error failure
      | .ok (net, alloc) =>
          .ok (some net, { node with ipv6Allocations := alloc.allocations })

def Node.releaseIpv6 (node : Node cfg) (vmId : String) : Node cfg :=
  match node.ipv6Allocator with
  | none => node
  | some alloc =>
      { node with ipv6Allocations := (alloc.release vmId).allocations }

/-- The DHCP reservation and, for a machine with IPv6, the DHCPv6 one.  Only
the failure of the second undoes what came before. -/
def Node.writeReservations (node : Node cfg) (calls : CreateCalls)
    (vmId macAddr : String) (vmIp : Ipv4Addr) (vmIpv6 : Option Ipv6Net) :
    Except Failure Unit × Node cfg :=
  match cfg.dhcpHostsdir with
  | none => (.ok (), node)
  | some _ =>
      match writeFile calls.dhcpWrite node.hostsdir vmId
          (dhcpLine macAddr vmIp) with
      | (.error _, files) =>
          (.error (.error "failed to write DHCP reservation"),
            { node with hostsdir := files })
      | (.ok (), files) =>
          match vmIpv6 with
          | none => (.ok (), { node with hostsdir := files })
          | some net =>
              match writeFile calls.dhcpv6Write files (dhcpv6File vmId)
                  (dhcpv6Line macAddr net.addr) with
              | (.error _, files) =>
                  let node := { node with
                    hostsdir :=
                      removeFile calls.cleanup.removeDhcp files vmId }
                  (.error (.error "failed to write DHCPv6 reservation"),
                    node.releaseIpv6 vmId)
              | (.ok (), files) => (.ok (), { node with hostsdir := files })

def Node.removeReservations (node : Node cfg) (calls : CleanupCalls)
    (vmId : String) (hasIpv6 : Bool) : Node cfg :=
  match cfg.dhcpHostsdir with
  | none => node
  | some _ =>
      let files := removeFile calls.removeDhcp node.hostsdir vmId
      { node with
        hostsdir :=
          if hasIpv6 then
            removeFile calls.removeDhcpv6 files (dhcpv6File vmId)
          else files }

def Node.cleanupReservations (node : Node cfg) (calls : CleanupCalls)
    (vmId : String) (hasIpv6 : Bool) : Node cfg :=
  let node := node.removeReservations calls vmId hasIpv6
  if hasIpv6 then node.releaseIpv6 vmId else node

/-- The interface, its IPv6 address and the firewall chains, each undone when
it or a later one fails. -/
def Node.setUpNetwork (node : Node cfg) (calls : CreateCalls)
    (vmId : String) (vmIpv6 : Option Ipv6Net) :
    Except Failure Unit × Node cfg :=
  match createTap calls.tap node.taps (tapName vmId) cfg.bridge with
  | (.error message, taps) =>
      (.error (.error message), { node with taps := taps }
        |>.cleanupReservations calls.cleanup vmId vmIpv6.isSome)
  | (.ok (), taps) =>
      let undone := { node with
          taps := deleteTap calls.cleanup.deleteTap taps (tapName vmId) }
        |>.cleanupReservations calls.cleanup vmId vmIpv6.isSome
      match vmIpv6, calls.addIpv6 with
      | some net, .error _ =>
          (.error (.error
            s!"failed to add IPv6 {ipv6NetText net} to {tapName vmId}"),
            undone)
      | _, _ =>
          match cfg.nftables.setupVm calls.nftSetup node.ruleset vmId
              (tapName vmId) with
          | .error message => (.error (.error message), undone)
          | .ok ruleset =>
              (.ok (), { node with taps := taps, ruleset := ruleset })

def Node.addNdpRange (node : Node cfg) (tap : String)
    (vmIpv6 : Option Ipv6Net) : Node cfg :=
  match vmIpv6, cfg.hasNdpProxy with
  | some net, true =>
      { node with ndpRanges := node.ndpRanges.insert tap net }
  | _, _ => node

/-- What is handed to `QemuProcess::spawn`. -/
structure Launch where
  config : VmConfig
  placement : NumaPlacement
  command : List String

/-- The configuration with the hash trees and the placement filled in. -/
def placedConfig (config : VmConfig) (disks : List DiskConfig)
    (numNodes : ℕ) (placement : NumaPlacement) : VmConfig :=
  { config with
    disks := disks
    numaNode := if 1 < numNodes then some placement.node
      else config.numaNode
    hugepageSize := some placement.hugepageSize }

/-- Backend lookup, dm-verity, NUMA placement and command line.  None of the
failures undoes anything. -/
def Node.prepareLaunch (node : Node cfg) (calls : CreateCalls)
    (config : VmConfig) (numaHint : Option UInt32) (macAddr : String) :
    Except Failure Launch × Node cfg :=
  match cfg.backends config.tee.backend with
  | none =>
      (.error (.error ("no backend registered for TEE type: " ++
        teeTypeText config.tee.backend)), node)
  | some backend =>
      match prepareBoot calls.verity config with
      | .error message => (.error (.error message), node)
      | .ok (kernelCmdline, disks) =>
          match node.numa.allocate config.vcpus config.memoryMb numaHint
              (isConfidential config) with
          | .error message => (.error (.error message), node)
          | .ok (placement, numa) =>
              let node := { node with numa := numa }
              let config := placedConfig config disks
                cfg.topology.nodes.length placement
              match buildQemuCommand config
                  (.forVm cfg.runDir config.vmId) (tapName config.vmId)
                  backend macAddr kernelCmdline with
              | .error failure => (.error failure, node)
              | .ok args =>
                  (.ok ⟨config, placement, "qemu-system-x86_64" :: args⟩,
                    node)

def Node.undoHost (node : Node cfg) (calls : CleanupCalls)
    (launch : Launch) (vmId : String) (vmIpv6 : Option Ipv6Net) :
    Node cfg :=
  { node with
    numa := node.numa.release launch.placement.node launch.config.vcpus
      launch.config.memoryMb launch.placement.hugepageSize
    ndpRanges := if vmIpv6.isSome && cfg.hasNdpProxy then
        node.ndpRanges.erase (tapName vmId)
      else node.ndpRanges
    ruleset := (cfg.nftables.teardownVm calls.natTeardown
      calls.filterTeardown node.ruleset vmId).2
    taps := deleteTap calls.deleteTap node.taps (tapName vmId) }

/-- The cleanup after a failed spawn. -/
def Node.undoLaunch (node : Node cfg) (calls : CleanupCalls)
    (launch : Launch) (vmId : String) (vmIpv6 : Option Ipv6Net) :
    Node cfg :=
  (node.undoHost calls launch vmId vmIpv6).cleanupReservations calls vmId
    vmIpv6.isSome

def stateFile (vmId : String) : String := s!"{vmId}.json"

def Node.saveVm (node : Node cfg) (done : Bool) (vmId : String)
    (persisted : PersistedVm) : Node cfg :=
  if done then
    { node with stateDir := node.stateDir.insert (stateFile vmId) persisted }
  else node

def createdHandle (cfg : NodeConfig) (launch : Launch) (vmIp : Ipv4Addr)
    (vmIpv6 : Option Ipv6Net) (now : ℕ) : VmHandle where
  config := launch.config
  state := .running
  ip := vmIp
  ipv6 := vmIpv6
  process := some ⟨.forVm cfg.runDir launch.config.vmId, launch.config.vmId⟩
  tapName := tapName launch.config.vmId
  createdAtEpoch := now
  numaNode := some launch.placement.node

def persistedOf (handle : VmHandle) (macAddr : String)
    (portForwards : List PortForward) : PersistedVm where
  config := handle.config
  ip := handle.ip
  ipv6 := handle.ipv6
  tapName := handle.tapName
  macAddr := macAddr
  portForwards := portForwards
  createdAtEpoch := handle.createdAtEpoch
  numaNode := handle.numaNode

/-- Spawn QEMU, then persist and register the machine. -/
def Node.launchVm (node : Node cfg) (calls : CreateCalls)
    (launch : Launch) (vmIp : Ipv4Addr) (macAddr : String)
    (vmIpv6 : Option Ipv6Net) : Except Failure VmInfo × Node cfg :=
  let vmId := launch.config.vmId
  match calls.spawn with
  | .error message =>
      (.error (.error message),
        node.undoLaunch calls.cleanup launch vmId vmIpv6)
  | .ok () =>
      let handle := createdHandle cfg launch vmIp vmIpv6 calls.now
      let node := node.saveVm calls.save vmId (persistedOf handle macAddr [])
      (.ok (VmInfo.fromHandle calls.now handle),
        { node with vms := node.vms.insert vmId handle })

def Node.createVm (node : Node cfg) (calls : CreateCalls)
    (config : VmConfig) (requestedIpv6 : Option Ipv6Net)
    (numaHint : Option UInt32) : Except Failure VmInfo × Node cfg :=
  let vmId := config.vmId
  if vmId ∈ node.vms then
    (.error (.error s!"VM {vmId} already exists"), node)
  else
    match freeOffset node.usedIpOffsets with
    | none =>
        (.error (.error "IPv4 address pool exhausted (254 VMs max)"), node)
    | some offset =>
        let node := node.takeOffset offset
        let vmIp := allocateVmIp cfg.gatewayIp offset
        let macAddr := macForVmIp vmIp
        match node.allocateIpv6 calls.draws vmId requestedIpv6 with
        | .error failure => (.error failure, node)
        | .ok (vmIpv6, node) =>
            match node.writeReservations calls vmId macAddr vmIp vmIpv6 with
            | (.error failure, node) => (.error failure, node)
            | (.ok (), node) =>
                match node.setUpNetwork calls vmId vmIpv6 with
                | (.error failure, node) => (.error failure, node)
                | (.ok (), node) =>
                    let node := node.addNdpRange (tapName vmId) vmIpv6
                    match node.prepareLaunch calls config numaHint
                        macAddr with
                    | (.error failure, node) => (.error failure, node)
                    | (.ok launch, node) =>
                        node.launchVm calls launch vmIp macAddr vmIpv6

end AlephCvm.Vm
