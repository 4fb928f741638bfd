import AlephCvm.GuestAddresses
import AlephCvm.ResultContext
import AlephCvm.SplitText

/-!
# The command line of a virtual machine

Model of `aleph-compute-node/src/verity.rs`, of the disk handling of
`VmManager::create_vm`, of `qemu/args.rs` and of the QEMU arguments of the two
TEE backends.  `ensureVerity` reads files and may run `veritysetup`; what it
finds is a parameter.
-/

namespace AlephCvm.Qemu

open ResultContext SplitText AlephCvm.Tee AlephCvm.Numa

/-! ## dm-verity -/

structure CommandOutput where
  success : Bool
  stdout : String
  stderr : String

/-- What one call of `ensure_verity` finds. -/
structure VerityFiles where
  hashtreeExists : Bool
  roothashExists : Bool
  rootfsMtime : Option ℕ
  cacheMtime : Option ℕ
  cachedRoothash : Except String String
  veritysetup : Except String CommandOutput
  writeRoothash : Except String Unit

structure VerityInfo where
  rootHash : String
  hashtreePath : String
  deriving DecidableEq, Repr

def trimText (text : String) : String :=
  String.ofList
    (((text.toList.dropWhile isWhiteSpace).reverse.dropWhile
      isWhiteSpace).reverse)

/-- The lower case of a character, as far as ASCII goes: that of its capitals,
of the Kelvin sign and of the dotted capital `I`.  No other character has a
letter of ASCII in its lower case, and they are kept as they are. -/
def lowerCase (symbol : Char) : List Char :=
  if symbol.toNat = 0x212A then ['k']
  else if symbol.toNat = 0x130 then ['i', Char.ofNat 0x307]
  else [symbol.toLower]

def toLowercase (text : String) : String :=
  String.ofList (text.toList.flatMap lowerCase)

def textLines (text : String) : List String :=
  (text.toList.splitOn '\n').map String.ofList

def splitWhitespace (text : String) : List String :=
  ((text.toList.splitOnP isWhiteSpace).filter fun word =>
    !word.isEmpty).map String.ofList

/-- The last word of the first line that starts with `Root hash:`. -/
def parseRootHash (stdout : String) : Option String := do
  let line ← (textLines stdout).find? fun line =>
    line.startsWith "Root hash:"
  let word ← (splitWhitespace line).getLast?
  return toLowercase (trimText word)

def cacheIsFresh (files : VerityFiles) : Bool :=
  files.hashtreeExists && files.roothashExists &&
    match files.rootfsMtime, files.cacheMtime with
    | some rootfs, some cache => decide (rootfs ≤ cache)
    | _, _ => false

def ensureVerity (files : VerityFiles) (rootfsPath : String) :
    Except String VerityInfo :=
  let hashtreePath := s!"{rootfsPath}.verity"
  let roothashPath := s!"{rootfsPath}.roothash"
  if cacheIsFresh files then do
    let cached ← context "failed to read cached roothash"
      files.cachedRoothash
    return ⟨trimText cached, hashtreePath⟩
  else do
    let output ← context "failed to execute veritysetup format"
      files.veritysetup
    ensure output.success s!"veritysetup format failed: {output.stderr}"
    let rootHash ← optionContext
      "failed to parse root hash from veritysetup output"
      (parseRootHash output.stdout)
    context s!"failed to write {roothashPath}" files.writeRoothash
    return ⟨rootHash, hashtreePath⟩

def buildKernelCmdline (roothash workloadRoothash : Option String)
    (encrypted : Bool) : String :=
  if encrypted then "console=ttyS0 luks=1"
  else
    (match roothash with
    | some hash =>
        s!"console=ttyS0 root=/dev/mapper/verity-root ro roothash={hash}"
    | none => "console=ttyS0 root=/dev/vda ro") ++
      (match workloadRoothash with
      | some hash => s!" workload_roothash={hash}"
      | none => "")

def isConfidential (config : VmConfig) : Bool :=
  config.tee.backend != .none

def hashtreeDisk (info : VerityInfo) : DiskConfig :=
  ⟨info.hashtreePath, true, "raw"⟩

structure VerityCalls where
  rootfs : VerityFiles
  workload : VerityFiles

/-- The kernel command line, and the disks with the hash trees inserted after
the first and, when there is one, the second disk. -/
def prepareBoot (calls : VerityCalls) (config : VmConfig) :
    Except String (Option String × List DiskConfig) :=
  if isConfidential config = false then .ok (none, config.disks)
  else if config.encrypted then
    .ok (some (buildKernelCmdline none none true), config.disks)
  else
    match config.disks with
    | [] => .ok (some (buildKernelCmdline none none false), [])
    | rootfs :: rest => do
        let info ← context
          ("dm-verity setup failed — refusing to boot without integrity " ++
            "verification")
          (ensureVerity calls.rootfs rootfs.path)
        match rest with
        | [] =>
            return (some (buildKernelCmdline (some info.rootHash) none false),
              [rootfs, hashtreeDisk info])
        | workload :: others => do
            let workloadInfo ← context
              "dm-verity setup failed for workload volume"
              (ensureVerity calls.workload workload.path)
            return (some (buildKernelCmdline (some info.rootHash)
                (some workloadInfo.rootHash) false),
              rootfs :: hashtreeDisk info :: workload ::
                hashtreeDisk workloadInfo :: others)

/-! ## TEE backends -/

inductive TeeBackend where
  | sevSnp (ovmfPath : String)
  | noTee
  deriving DecidableEq, Repr

def defaultPolicy : String := "0x30000"

def sevSnpQemuArgs (config : VmConfig) (ovmfPath : String) : List String :=
  let policy := config.tee.policy.getD defaultPolicy
  let hugetlbOpts :=
    match config.hugepageSize with
    | some .size1G => ",hugetlb=on,hugetlbsize=1G"
    | some .size2M => ",hugetlb=on,hugetlbsize=2M"
    | none => ""
  let numaOpts :=
    match config.numaNode with
    | some node => s!",host-nodes={node},policy=bind"
    | none => ""
  ["-cpu", "EPYC-v4", "-machine",
    "q35,confidential-guest-support=sev0,memory-backend=ram1,vmport=off",
    "-object",
    s!"memory-backend-memfd,id=ram1,size={config.memoryMb}M,share=true" ++
      hugetlbOpts ++ numaOpts,
    "-object",
    "sev-snp-guest,id=sev0,cbitpos=51,reduced-phys-bits=1," ++
      s!"kernel-hashes=on,policy={policy}",
    "-nodefaults", "-bios", ovmfPath]

def TeeBackend.qemuArgs (config : VmConfig) : TeeBackend → List String
  | .sevSnp ovmfPath => sevSnpQemuArgs config ovmfPath
  | .noTee => ["-cpu", "host"]

/-! ## The command -/

structure QemuPaths where
  qmpSocket : String
  deriving DecidableEq, Repr

def QemuPaths.forVm (runDir vmId : String) : QemuPaths :=
  ⟨s!"{runDir}/{vmId}/qmp.sock"⟩

def bootArgs (config : VmConfig) (kernelCmdline : Option String) :
    List String :=
  match config.kernel, config.initrd with
  | some kernel, some initrd =>
      ["-kernel", kernel, "-initrd", initrd] ++
        (match kernelCmdline with
        | some cmdline => ["-append", cmdline]
        | none => [])
  | _, _ => ["-boot", "order=c"]

/-- An unknown disk format and a comma in a path are panics. -/
def driveArgs (disk : DiskConfig) : Except Failure (List String) :=
  if disk.format ≠ "raw" ∧ disk.format ≠ "qcow2" then
    .error (.panicked
      s!"unsupported disk format: {disk.format} (allowed: raw, qcow2)")
  else if disk.path.toList.contains ',' then
    .error (.panicked s!"disk path must not contain commas: {disk.path}")
  else
    let readonly := if disk.readonly then "on" else "off"
    .ok ["-drive",
      s!"file={disk.path},format={disk.format},if=virtio," ++
        s!"readonly={readonly}"]

def buildQemuCommand (config : VmConfig) (paths : QemuPaths)
    (tapName : String) (teeBackend : TeeBackend) (macAddr : String)
    (kernelCmdline : Option String) : Except Failure (List String) := do
  let drives ← config.disks.mapM driveArgs
  return ["-enable-kvm", "-smp", toString config.vcpus, "-m",
      s!"{config.memoryMb}M", "-nographic", "-no-reboot"] ++
    bootArgs config kernelCmdline ++
    ["-serial", "stdio", "-qmp",
      s!"unix:{paths.qmpSocket},server,nowait",
      "-netdev",
      s!"tap,id=net0,ifname={tapName},script=no,downscript=no",
      "-device", s!"virtio-net-pci,netdev=net0,mac={macAddr}"] ++
    drives.flatten ++ teeBackend.qemuArgs config

end AlephCvm.Qemu
