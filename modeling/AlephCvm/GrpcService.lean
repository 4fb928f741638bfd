import AlephCvm.VmLifecycle

/-!
# The gRPC service of the compute node

Model of `aleph-compute-node/src/grpc/service.rs`: the checks on a
`CreateVmRequest`, its translation into the arguments of the manager, and the
handlers around the manager's operations.  The texts of `std::net` addresses
are parsed as the standard library does.

An internal error carries the text of the manager's error; the model of the
manager keeps the whole chain of contexts there.
-/

namespace AlephCvm.Grpc

open ResultContext AlephCvm.Tee AlephCvm.Net AlephCvm.Vm

/-! ## IPv6 addresses as texts -/

/-- `char::to_digit`. -/
def digitValue (radix : ℕ) (char : Char) : Option ℕ :=
  let value :=
    if '0' ≤ char ∧ char ≤ '9' then some (char.toNat - 48)
    else if 'a' ≤ char ∧ char ≤ 'z' then some (char.toNat - 87)
    else if 'A' ≤ char ∧ char ≤ 'Z' then some (char.toNat - 55)
    else none
  value.filter fun digit => decide (digit < radix)

/-- All digits are read; too many of them, or a leading zero where none is
allowed, make the number invalid. -/
def readNumber (radix maxDigits bound : ℕ) (allowZeroPrefix : Bool)
    (chars : List Char) : Option (ℕ × List Char) :=
  let digits := (chars.takeWhile fun char =>
    (digitValue radix char).isSome).filterMap (digitValue radix)
  let value := digits.foldl (fun value digit => value * radix + digit) 0
  if digits.length = 0 ∨ maxDigits < digits.length then none
  else if allowZeroPrefix = false ∧ chars.head? = some '0' ∧
      1 < digits.length then none
  else if bound < value then none
  else some (value, chars.drop digits.length)

def readSeparated {α : Type} (separator : Char) (first : Bool)
    (inner : List Char → Option (α × List Char)) (chars : List Char) :
    Option (α × List Char) :=
  if first then inner chars
  else
    match chars with
    | char :: rest => if char = separator then inner rest else none
    | [] => none

def readIpv4Addr (chars : List Char) : Option (List ℕ × List Char) := do
  let octet := readNumber 10 3 255 false
  let (first, chars) ← octet chars
  let (second, chars) ← readSeparated '.' false octet chars
  let (third, chars) ← readSeparated '.' false octet chars
  let (last, chars) ← readSeparated '.' false octet chars
  return ([first * 256 + second, third * 256 + last], chars)

/-- Groups up to a limit, and whether the last two came from an embedded
IPv4 address. -/
def readGroups : ℕ → Bool → List Char → List ℕ × Bool × List Char
  | 0, _, chars => ([], false, chars)
  | left + 1, first, chars =>
      let embedded :=
        if left = 0 then none
        else readSeparated ':' first readIpv4Addr chars
      match embedded with
      | some (groups, rest) => (groups, true, rest)
      | none =>
          match readSeparated ':' first (readNumber 16 4 65535 true)
              chars with
          | none => ([], false, chars)
          | some (group, rest) =>
              let (groups, ipv4, rest) := readGroups left false rest
              (group :: groups, ipv4, rest)

def groupsToAddr (groups : List ℕ) : BitVec 128 :=
  BitVec.ofNat 128
    (groups.foldl (fun value group => value * 65536 + group) 0)

/-- `Ipv6Addr::from_str`. -/
def parseIpv6Addr (text : String) : Option (BitVec 128) :=
  let (head, headIpv4, rest) := readGroups 8 true text.toList
  if head.length = 8 then
    if rest.isEmpty then some (groupsToAddr head) else none
  else if headIpv4 then none
  else
    match rest with
    | ':' :: ':' :: rest =>
        let (tail, _, rest) := readGroups (7 - head.length) true rest
        if rest.isEmpty then
          some (groupsToAddr (head ++
            List.replicate (8 - head.length - tail.length) 0 ++ tail))
        else none
    | _ => none

/-! ## Requests -/

inductive StatusCode where
  | invalidArgument
  | notFound
  | internal
  deriving DecidableEq, Repr

structure Status where
  code : StatusCode
  message : String
  deriving DecidableEq, Repr

/-- What the client of a failed call sees: a status, or a broken call when
the handler panicked. -/
inductive CallFailure where
  | status (status : Status)
  | panicked (message : String)
  deriving DecidableEq, Repr

structure ProtoDiskConfig where
  path : String
  readonly : Bool
  format : String
  deriving DecidableEq, Repr

structure ProtoTeeConfig where
  backend : String
  policy : String
  deriving DecidableEq, Repr

structure CreateVmRequest where
  vmId : String
  kernel : String
  initrd : String
  disks : List ProtoDiskConfig
  vcpus : UInt32
  memoryMb : UInt32
  tee : Option ProtoTeeConfig
  ipv6Address : String
  ipv6PrefixLen : UInt32
  encrypted : Bool
  numaNode : UInt32
  deriving DecidableEq, Repr

structure ProtoVmInfo where
  vmId : String
  status : String
  ipv4 : String
  ipv6 : String
  teeBackend : String
  uptimeSecs : ℕ
  numaNode : UInt32
  deriving DecidableEq, Repr

structure AddPortForwardRequest where
  vmId : String
  hostPort : UInt32
  vmPort : UInt32
  protocol : String
  deriving DecidableEq, Repr

structure RemovePortForwardRequest where
  vmId : String
  hostPort : UInt32
  protocol : String
  deriving DecidableEq, Repr

def invalidArgument {α : Type} (message : String) : Except Status α :=
  .error ⟨.invalidArgument, message⟩

/-- The request is refused when the condition holds. -/
def refuseIf (condition : Bool) (message : String) : Except Status Unit :=
  if condition then invalidArgument message else .ok ()

/-! ## Checks -/

def maxVmIdLen : ℕ := 11

def vmIdChar (char : Char) : Bool :=
  decide ('a' ≤ char ∧ char ≤ 'z') || decide ('0' ≤ char ∧ char ≤ '9') ||
    char == '-'

def validateVmId (vmId : String) : Except Status Unit :=
  if vmId.isEmpty then invalidArgument "vm_id must not be empty"
  else if maxVmIdLen < vmId.utf8ByteSize then
    invalidArgument (s!"vm_id too long: max {maxVmIdLen} chars " ++
      s!"(TAP name limit), got {vmId.utf8ByteSize}")
  else if vmId.toList.all vmIdChar = false then
    invalidArgument ("vm_id must contain only lowercase alphanumeric " ++
      "characters and hyphens")
  else if vmId.toList.head? = some '-' ∨ vmId.toList.getLast? = some '-' then
    invalidArgument "vm_id must not start or end with a hyphen"
  else .ok ()

theorem validateVmId_chars
    {vmId : String} (hok : validateVmId vmId = .ok ()) :
    vmId.toList ≠ [] ∧ ∀ symbol ∈ vmId.toList, vmIdChar symbol = true := by
  unfold validateVmId at hok
  split_ifs at hok with hempty hlong hchars hhyphen
  · cases hok
  · cases hok
  · cases hok
  · cases hok
  · refine ⟨?_, ?_⟩
    · simpa using hempty
    · simpa using hchars

def validateFilePath (pathExists : String → Bool) (path fieldName : String) :
    Except Status Unit :=
  if path.isEmpty then invalidArgument s!"{fieldName} must not be empty"
  else if path.toList.head? ≠ some '/' then
    invalidArgument s!"{fieldName} must be an absolute path"
  else if pathExists path = false then
    invalidArgument s!"{fieldName} does not exist: {path}"
  else .ok ()

def validateVmResources (vcpus memoryMb : UInt32) : Except Status Unit :=
  if vcpus = 0 then invalidArgument "vcpus must be > 0"
  else if memoryMb = 0 then invalidArgument "memory_mb must be > 0"
  else .ok ()

/-- A request without TEE configuration reads as one with empty fields. -/
def parseTeeConfig (proto : Option ProtoTeeConfig) :
    Except Status TeeConfig := do
  let proto := proto.getD ⟨"", ""⟩
  let backend ← match proto.backend with
    | "sev-snp" | "" => .ok TeeType.sevSnp
    | "tdx" => .ok .tdx
    | "nvidia-cc" => .ok .nvidiaCc
    | "none" => .ok .none
    | other => invalidArgument s!"unknown TEE backend: {other}"
  return ⟨backend, if proto.policy.isEmpty then none else some proto.policy⟩

/-- Kernel and initrd: required for confidential machines only. -/
def bootFile (pathExists : String → Bool) (tee : TeeConfig)
    (path fieldName : String) : Except Status (Option String) :=
  if path.isEmpty then
    if tee.backend ≠ .none then
      invalidArgument s!"{fieldName} is required for confidential VMs"
    else .ok none
  else do
    validateFilePath pathExists path fieldName
    return some path

def diskFormat (disk : ProtoDiskConfig) : String :=
  if disk.format.isEmpty then "raw" else disk.format

def validateDisk (pathExists : String → Bool) (disk : ProtoDiskConfig) :
    Except Status Unit := do
  validateFilePath pathExists disk.path "disk path"
  let format := diskFormat disk
  refuseIf (format != "raw" && format != "qcow2")
    s!"unsupported disk format: {format} (allowed: raw, qcow2)"
  refuseIf (disk.path.toList.contains ',')
    "disk path must not contain commas"

theorem refuseIf_eq_ok {condition : Bool} {message : String} {value : Unit} :
    refuseIf condition message = .ok value ↔ condition = false := by
  cases condition with
  | true => simp [refuseIf, invalidArgument]
  | false => simp [refuseIf]

theorem validateDisk_eq_ok
    {pathExists : String → Bool} {disk : ProtoDiskConfig} {value : Unit} :
    validateDisk pathExists disk = .ok value ↔
      validateFilePath pathExists disk.path "disk path" = .ok () ∧
        (diskFormat disk = "raw" ∨ diskFormat disk = "qcow2") ∧
        ',' ∉ disk.path.toList := by
  simp only [validateDisk, bind_eq_ok, refuseIf_eq_ok, exists_and_left,
    List.contains_eq_mem, decide_eq_false_iff_not, Bool.and_eq_false_iff,
    bne_eq_false_iff_eq]
  constructor
  · intro ⟨_, hpath, hformat, _, hcomma⟩
    exact ⟨hpath, hformat, hcomma⟩
  · intro ⟨hpath, hformat, hcomma⟩
    exact ⟨(), hpath, hformat, (), hcomma⟩

/-- The prefix length is cut to eight bits before it is checked. -/
def requestedIpv6 (req : CreateVmRequest) :
    Except Status (Option Ipv6Net) :=
  if req.ipv6Address.isEmpty then .ok none
  else
    match parseIpv6Addr req.ipv6Address with
    | none => invalidArgument
        "invalid ipv6_address: invalid IPv6 address syntax"
    | some addr =>
        let prefixLen := if req.ipv6PrefixLen = 0 then 128
          else req.ipv6PrefixLen.toUInt8
        if hlen : prefixLen.toNat < 129 then
          .ok (some ⟨addr, ⟨prefixLen.toNat, hlen⟩⟩)
        else invalidArgument "invalid IPv6 prefix: invalid IP prefix length"

/-- Nodes count from one in a request, and zero leaves the choice open. -/
def numaHint (req : CreateVmRequest) : Option UInt32 :=
  if req.numaNode = 0 then none else some (req.numaNode - 1)

/-- The arguments of the manager's `create_vm`. -/
structure CreateArguments where
  config : VmConfig
  requestedIpv6 : Option Ipv6Net
  numaHint : Option UInt32
  deriving DecidableEq, Repr

def translateRequest (pathExists : String → Bool) (req : CreateVmRequest) :
    Except Status CreateArguments := do
  validateVmId req.vmId
  let tee ← parseTeeConfig req.tee
  let kernel ← bootFile pathExists tee req.kernel "kernel"
  let initrd ← bootFile pathExists tee req.initrd "initrd"
  validateVmResources req.vcpus req.memoryMb
  refuseIf (tee.backend == .none && req.encrypted)
    "encrypted mode is not supported for non-confidential VMs"
  req.disks.forM (validateDisk pathExists)
  refuseIf (kernel.isNone && req.disks.isEmpty)
    ("at least one disk is required for disk-boot VMs " ++
      "(no kernel specified)")
  let ipv6 ← requestedIpv6 req
  return {
    config := {
      vmId := req.vmId
      kernel := kernel
      initrd := initrd
      disks := req.disks.map fun disk =>
        ⟨disk.path, disk.readonly, diskFormat disk⟩
      vcpus := req.vcpus
      memoryMb := req.memoryMb
      tee := tee
      encrypted := req.encrypted
      numaNode := none
      hugepageSize := none }
    requestedIpv6 := ipv6
    numaHint := numaHint req }

/-! ## Handlers -/

variable {cfg : NodeConfig}

def vmInfoToProto (info : VmInfo) : ProtoVmInfo where
  vmId := info.vmId
  status := info.status
  ipv4 := info.ip
  ipv6 := info.ipv6
  teeBackend := info.tee
  uptimeSecs := info.uptimeSecs
  numaNode := info.numaNode.getD 0

def internalFailure : Failure → CallFailure
  | .error message => .status ⟨.internal, message⟩
  | .panicked message => .panicked message

def createVm (node : Node cfg) (pathExists : String → Bool)
    (calls : CreateCalls) (req : CreateVmRequest) :
    Except CallFailure ProtoVmInfo × Node cfg :=
  match translateRequest pathExists req with
  | .error status => (.error (.status status), node)
  | .ok arguments =>
      match node.createVm calls arguments.config arguments.requestedIpv6
          arguments.numaHint with
      | (.error failure, node) => (.error (internalFailure failure), node)
      | (.ok info, node) => (.ok (vmInfoToProto info), node)

def deleteVm (node : Node cfg) (calls : DeleteCalls) (vmId : String) :
    Except CallFailure Unit × Node cfg :=
  match node.deleteVm calls vmId with
  | (.error message, node) => (.error (.status ⟨.notFound, message⟩), node)
  | (.ok (), node) => (.ok (), node)

def listVms (node : Node cfg) (order : IterationOrder) (now : ℕ) :
    List ProtoVmInfo :=
  (node.listVms order now).map vmInfoToProto

/-- `Protocol::from_str`, which ignores case; only ASCII letters have the
lower-case letters of the two names. -/
def parseProtocol (text : String) : Except String Protocol :=
  match text.toLower with
  | "tcp" => .ok .tcp
  | "udp" => .ok .udp
  | _ => .error s!"unknown protocol: {text}"

/-- The ports are cut to sixteen bits. -/
def addPortForward (node : Node cfg) (calls : ForwardCalls)
    (req : AddPortForwardRequest) :
    Except CallFailure PortForward × Node cfg :=
  match parseProtocol req.protocol with
  | .error message =>
      (.error (.status ⟨.invalidArgument, message⟩), node)
  | .ok protocol =>
      match node.addPortForward calls req.vmId req.hostPort.toUInt16
          req.vmPort.toUInt16 protocol with
      | (.error message, node) =>
          (.error (.status ⟨.internal, message⟩), node)
      | (.ok forward, node) => (.ok forward, node)

/-- The machine named in the request is not looked at. -/
def removePortForward (node : Node cfg) (calls : ForwardCalls)
    (req : RemovePortForwardRequest) : Except CallFailure Unit × Node cfg :=
  match parseProtocol req.protocol with
  | .error message =>
      (.error (.status ⟨.invalidArgument, message⟩), node)
  | .ok protocol =>
      match node.removePortForward calls req.hostPort.toUInt16 protocol with
      | (.error message, node) =>
          (.error (.status ⟨.internal, message⟩), node)
      | (.ok (), node) => (.ok (), node)

end AlephCvm.Grpc
