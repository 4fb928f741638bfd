import AlephCvm.GrpcService

/-!
# From messages to requests

Model of `aleph-scheduler-agent/src/adapter.rs` and of the parts of
`aleph/messages.rs` that it reads.  A volume is resolved by the cache, which
may have to download it; what the cache answers is a parameter.
-/

namespace AlephCvm.Agent

open ResultContext AlephCvm.Net AlephCvm.Grpc

/-! ## Messages -/

abbrev ItemHash := String

structure PublishedPort where
  protocol : String
  port : UInt16
  deriving DecidableEq, Repr

structure MachineResources where
  vcpus : UInt32
  memory : UInt32
  publishedPorts : List PublishedPort
  deriving DecidableEq, Repr

inductive MachineVolume where
  | immutable (itemRef : ItemHash)
  | persistent (parent : Option ItemHash)
  | ephemeral
  deriving DecidableEq, Repr

inductive Encoding where
  | plain
  | zip
  | squashfs
  deriving DecidableEq, Repr

/-- The lower-cased name of the variant. -/
def Encoding.text : Encoding → String
  | .plain => "plain"
  | .zip => "zip"
  | .squashfs => "squashfs"

structure CodeContent where
  encoding : Encoding
  itemRef : ItemHash
  deriving DecidableEq, Repr

structure TrustedExecution where
  policy : UInt64
  encrypted : Bool
  deriving DecidableEq, Repr

/-- The fields of a message that the agent reads.  An environment without
trusted execution is read as no environment. -/
structure ExecutableMessage where
  itemHash : ItemHash
  resources : MachineResources
  volumes : List MachineVolume
  trustedExecution : Option TrustedExecution
  rootfs : Option ItemHash
  code : Option CodeContent
  runtime : Option ItemHash
  deriving DecidableEq, Repr

namespace ExecutableMessage

variable (msg : ExecutableMessage)

def isConfidential : Bool := msg.trustedExecution.isSome

def sevPolicy : Option UInt64 :=
  msg.trustedExecution.map TrustedExecution.policy

def isEncrypted : Bool :=
  (msg.trustedExecution.map TrustedExecution.encrypted).getD false

end ExecutableMessage

/-! ## Translation -/

inductive VolumeCategory where
  | code
  | runtime
  | data
  deriving DecidableEq, Repr

/-- The answers of `VolumeCache::ensure_cached`. -/
abbrev CacheAnswers := ItemHash → VolumeCategory → Except String String

structure AdapterConfig where
  kernelPath : String
  initrdPath : String

def cachedDisk (cache : CacheAnswers) (item : ItemHash)
    (category : VolumeCategory) (what : String) (readonly : Bool)
    (format : String) : Except String ProtoDiskConfig := do
  let path ← context what (cache item category)
  return ⟨path, readonly, format⟩

def optionalDisk (item : Option α)
    (disk : α → Except String ProtoDiskConfig) :
    Except String (List ProtoDiskConfig) :=
  match item with
  | none => .ok []
  | some item => do
      let disk ← disk item
      return [disk]

/-- Persistent volumes without a parent and ephemeral volumes add no disk. -/
def volumeDisk (cache : CacheAnswers) :
    MachineVolume → Except String (List ProtoDiskConfig)
  | .immutable item => optionalDisk (some item) fun item =>
      cachedDisk cache item .data s!"downloading volume {item}" true "raw"
  | .persistent parent => optionalDisk parent fun item =>
      cachedDisk cache item .data s!"downloading parent volume {item}" false
        "qcow2"
  | .ephemeral => .ok []

/-- Without trusted execution the TEE configuration is left out. -/
def translateTee (msg : ExecutableMessage) : Option ProtoTeeConfig :=
  if msg.isConfidential then
    let policy := msg.sevPolicy.getD 0
    some ⟨"sev-snp",
      if 0 < policy then "0x" ++ hexNat policy.toNat else ""⟩
  else none

def translateMessage (cache : CacheAnswers) (config : AdapterConfig)
    (msg : ExecutableMessage) : Except String CreateVmRequest := do
  let rootfs ← optionalDisk msg.rootfs fun item =>
    cachedDisk cache item .runtime "downloading rootfs" false "raw"
  let runtime ← optionalDisk msg.runtime fun item =>
    cachedDisk cache item .runtime "downloading runtime" true "squashfs"
  let code ← optionalDisk msg.code fun code =>
    cachedDisk cache code.itemRef .code "downloading code" true
      code.encoding.text
  let volumes ← msg.volumes.mapM (volumeDisk cache)
  return {
    vmId := msg.itemHash
    kernel := config.kernelPath
    initrd := config.initrdPath
    disks := rootfs ++ runtime ++ code ++ volumes.flatten
    vcpus := msg.resources.vcpus
    memoryMb := msg.resources.memory
    tee := translateTee msg
    ipv6Address := ""
    ipv6PrefixLen := 0
    encrypted := msg.isEncrypted
    numaNode := 0 }

def translatePortForwards (msg : ExecutableMessage) :
    List AddPortForwardRequest :=
  msg.resources.publishedPorts.map fun published =>
    ⟨msg.itemHash, 0, published.port.toUInt32, published.protocol⟩

theorem translateMessage_vmId
    {cache : CacheAnswers} {config : AdapterConfig}
    {msg : ExecutableMessage} {req : CreateVmRequest}
    (hok : translateMessage cache config msg = .ok req) :
    req.vmId = msg.itemHash := by
  simp only [translateMessage, bind_eq_ok, pure_eq_ok] at hok
  obtain ⟨rootfs, _, runtime, _, code, _, volumes, _, rfl⟩ := hok
  rfl

end AlephCvm.Agent
