import AlephCvm.BootLayout
import AlephCvm.DecimalText
import AlephCvm.GrpcService
import AlephCvm.OptionLists

/-!
# The command line of an accepted request

What the checks of the gRPC service on a request say about the command that
is built for it: how the objects of a confidential guest read, how the drives
read, and what is booted.
-/

namespace AlephCvm.Grpc

open ResultContext AlephCvm.Tee AlephCvm.Qemu AlephCvm.Net

/-- The checks that an accepted request has passed, and what was read from
its fields. -/
structure Accepted (pathExists : String → Bool) (req : CreateVmRequest)
    (arguments : CreateArguments) : Prop where
  vmId : arguments.config.vmId = req.vmId
  tee : parseTeeConfig req.tee = .ok arguments.config.tee
  kernel : bootFile pathExists arguments.config.tee req.kernel "kernel" =
    .ok arguments.config.kernel
  initrd : bootFile pathExists arguments.config.tee req.initrd "initrd" =
    .ok arguments.config.initrd
  disks : ∀ disk ∈ req.disks, validateDisk pathExists disk = .ok ()
  bootable : arguments.config.kernel = none → req.disks ≠ []
  requestedIpv6 : requestedIpv6 req = .ok arguments.requestedIpv6
  configDisks : arguments.config.disks = req.disks.map fun disk =>
    ⟨disk.path, disk.readonly, diskFormat disk⟩
  memoryMb : arguments.config.memoryMb = req.memoryMb

theorem forM_ok {α ε : Type} {check : α → Except ε Unit} {items : List α}
    (hok : items.forM check = .ok ()) :
    ∀ item ∈ items, check item = .ok () := by
  induction items with
  | nil => simp
  | cons item rest ih =>
      rw [List.forM_eq_forM, List.forM_cons, bind_eq_ok] at hok
      obtain ⟨_, hitem, hrest⟩ := hok
      intro other hother
      rcases List.mem_cons.mp hother with hsame | hlater
      · rw [hsame]
        exact hitem
      · exact ih hrest other hlater

theorem translateRequest_accepted
    {pathExists : String → Bool} {req : CreateVmRequest}
    {arguments : CreateArguments}
    (hok : translateRequest pathExists req = .ok arguments) :
    Accepted pathExists req arguments := by
  simp only [translateRequest, bind_eq_ok, pure_eq_ok] at hok
  obtain ⟨-, -, tee, htee, kernel, hkernel, initrd, hinitrd, -, -, -, -, _,
    hdisks, _, hbootable, ipv6, hipv6, hequal⟩ := hok
  rw [refuseIf_eq_ok] at hbootable
  subst hequal
  refine ⟨rfl, htee, hkernel, hinitrd, forM_ok hdisks, ?_, hipv6, rfl, rfl⟩
  intro hnone hempty
  simp only at hnone
  simp [hnone, hempty] at hbootable

/-- The policy that the request asks for, or the default one. -/
def requestedPolicy (req : CreateVmRequest) : String :=
  match req.tee with
  | none => defaultPolicy
  | some proto =>
      if proto.policy.isEmpty then defaultPolicy else proto.policy

theorem parseTeeConfig_policy
    {proto : Option ProtoTeeConfig} {tee : TeeConfig}
    (hok : parseTeeConfig proto = .ok tee) :
    tee.policy = if (proto.getD ⟨"", ""⟩).policy.isEmpty then none
      else some (proto.getD ⟨"", ""⟩).policy := by
  unfold parseTeeConfig at hok
  generalize proto.getD ⟨"", ""⟩ = found at hok ⊢
  dsimp only at hok
  split at hok <;> cases hok <;> rfl

theorem Accepted.policy
    {pathExists : String → Bool} {req : CreateVmRequest}
    {arguments : CreateArguments}
    (haccepted : Accepted pathExists req arguments) :
    arguments.config.tee.policy.getD defaultPolicy = requestedPolicy req := by
  rw [parseTeeConfig_policy haccepted.tee, requestedPolicy]
  cases req.tee with
  | none => rfl
  | some proto =>
      simp only [Option.getD_some]
      split_ifs <;> rfl

end AlephCvm.Grpc

namespace AlephCvm.Qemu

open ResultContext OptionLists AlephCvm.Tee

/-! ## The objects of a confidential guest -/

def hugepageOptions : Option Numa.HugePageSize → Options
  | some .size1G => [("hugetlb", "on"), ("hugetlbsize", "1G")]
  | some .size2M => [("hugetlb", "on"), ("hugetlbsize", "2M")]
  | none => []

def numaOptions : Option UInt32 → Options
  | some node => [("host-nodes", toString node), ("policy", "bind")]
  | none => []

/-- The options that the memory backend is meant to have behind its type. -/
def memoryBackendOptions (config : VmConfig) : Options :=
  [("id", "ram1"), ("size", s!"{config.memoryMb}M"), ("share", "true")] ++
    (hugepageOptions config.hugepageSize ++ numaOptions config.numaNode)

/-- The options that the guest object is meant to have. -/
def sevGuestOptions (policy : String) : Options :=
  [("qom-type", "sev-snp-guest"), ("id", "sev0"), ("cbitpos", "51"),
    ("reduced-phys-bits", "1"), ("kernel-hashes", "on"), ("policy", policy)]

/-- The value of an `-object` option reads as these options, none of which
it has twice. -/
def ObjectReads (value : String) (options : Options) : Prop :=
  readWithImplied "qom-type" value = some options ∧
    (options.map Prod.fst).Nodup

def hugepageText : Option Numa.HugePageSize → String
  | some .size1G => ",hugetlb=on,hugetlbsize=1G"
  | some .size2M => ",hugetlb=on,hugetlbsize=2M"
  | none => ""

def numaText : Option UInt32 → String
  | some node => s!",host-nodes={node},policy=bind"
  | none => ""

def memoryBackendObject (config : VmConfig) : String :=
  s!"memory-backend-memfd,id=ram1,size={config.memoryMb}M,share=true" ++
    hugepageText config.hugepageSize ++ numaText config.numaNode

def sevGuestObject (policy : String) : String :=
  "sev-snp-guest,id=sev0,cbitpos=51,reduced-phys-bits=1," ++
    s!"kernel-hashes=on,policy={policy}"

theorem readOptions_sevSnp (config : VmConfig) (ovmfPath : String) :
    readOptions (sevSnpQemuArgs config ovmfPath) =
      [("-cpu", "EPYC-v4"),
        ("-machine", "q35,confidential-guest-support=sev0," ++
          "memory-backend=ram1,vmport=off"),
        ("-object", memoryBackendObject config),
        ("-object", sevGuestObject
          (config.tee.policy.getD defaultPolicy)),
        ("-nodefaults", ""), ("-bios", ovmfPath)] := by
  simp only [sevSnpQemuArgs, readOptions, switches]
  rfl

theorem comma_notMem_repr (number : ℕ) : ',' ∉ number.repr.toList :=
  DecimalText.not_mem_toString rfl number

theorem sevGuestOptions_nodup (policy : String) :
    ((sevGuestOptions policy).map Prod.fst).Nodup := by
  simp [sevGuestOptions]

theorem memoryBackendOptions_nodup (config : VmConfig) (value : String) :
    ((("qom-type", value) :: memoryBackendOptions config).map
      Prod.fst).Nodup := by
  unfold memoryBackendOptions hugepageOptions numaOptions
  cases config.numaNode <;> cases config.hugepageSize with
  | none => simp
  | some size => cases size <;> simp

theorem memoryBackendOptions_clean (config : VmConfig) :
    ∀ option ∈ memoryBackendOptions config, CleanOption option := by
  have hnumber : ∀ number : UInt32,
      ',' ∉ (toString number).toList := by
    intro number
    exact comma_notMem_repr number.toNat
  have hsize : CleanOption ("size", s!"{config.memoryMb}M") := by
    apply CleanOption.of_key (by decide)
    intro hcomma
    rcases List.mem_append.mp (String.toList_append ▸ hcomma) with
      hnumeric | hunit
    · exact hnumber config.memoryMb hnumeric
    · revert hunit
      decide
  have hhugepages : ∀ option ∈ hugepageOptions config.hugepageSize,
      CleanOption option := by
    cases config.hugepageSize with
    | none => simp [hugepageOptions]
    | some size => cases size <;> decide
  have hnuma : ∀ option ∈ numaOptions config.numaNode,
      CleanOption option := by
    cases config.numaNode with
    | none => simp [numaOptions]
    | some node =>
        intro option hoption
        rcases List.mem_pair.mp hoption with hsame | hsame <;> subst hsame
        · exact CleanOption.of_key (by decide) (hnumber node)
        · decide
  intro option hoption
  rcases List.mem_append.mp hoption with hfixed | hchosen
  · simp only [List.mem_cons, List.not_mem_nil, or_false] at hfixed
    rcases hfixed with hsame | hsame | hsame <;> subst hsame
    · decide
    · exact hsize
    · decide
  · rcases List.mem_append.mp hchosen with hchosen | hchosen
    · exact hhugepages option hchosen
    · exact hnuma option hchosen

theorem toList_hugepageText (size : Option Numa.HugePageSize) :
    (hugepageText size).toList =
      (hugepageOptions size).flatMap fun option =>
        ',' :: printOption option := by
  cases size with
  | none => rfl
  | some size => cases size <;> decide

theorem toList_numaText (node : Option UInt32) :
    (numaText node).toList =
      (numaOptions node).flatMap fun option => ',' :: printOption option := by
  cases node with
  | none => rfl
  | some node =>
      have hfront : ",host-nodes=".toList =
          ',' :: ("host-nodes".toList ++ ['=']) := by decide
      have hback : ",policy=bind".toList =
          ',' :: printOption ("policy", "bind") := by decide
      have htext : (numaText (some node)).toList =
          ",host-nodes=".toList ++ (toString node).toList ++
            ",policy=bind".toList := by
        simp only [numaText, String.toList_append]
        rfl
      rw [htext, hfront, hback]
      simp [numaOptions, printOption]

/-- The memory backend always reads as it is meant to. -/
theorem memoryBackendObject_reads (config : VmConfig) :
    readWithImplied "qom-type" (memoryBackendObject config) =
      some (("qom-type", "memory-backend-memfd") ::
        memoryBackendOptions config) := by
  have hfront : "memory-backend-memfd,id=ram1,size=".toList =
      "memory-backend-memfd".toList ++ (',' :: printOption ("id", "ram1") ++
        ',' :: ("size".toList ++ ['='])) := by
    decide
  have hshare : "M,share=true".toList =
      "M".toList ++ ',' :: printOption ("share", "true") := by
    decide
  have hsize : printOption ("size", s!"{config.memoryMb}M") =
      "size".toList ++ '=' :: ((toString config.memoryMb).toList ++
        "M".toList) := by
    rw [printOption, String.toList_append]
    rfl
  have hobject : memoryBackendObject config =
      "memory-backend-memfd,id=ram1,size=" ++ (toString config.memoryMb ++
        ("M,share=true" ++ (hugepageText config.hugepageSize ++
          numaText config.numaNode))) := by
    unfold memoryBackendObject
    rw [String.append_assoc, String.append_assoc, String.append_assoc]
    rfl
  have htext : (memoryBackendObject config).toList =
      "memory-backend-memfd".toList ++
        ',' :: printOptions (memoryBackendOptions config) := by
    rw [hobject, String.toList_append, String.toList_append,
      String.toList_append, String.toList_append, hfront, hshare,
      toList_hugepageText, toList_numaText]
    simp only [memoryBackendOptions, List.cons_append, comma_printOptions,
      List.flatMap_cons, List.nil_append, List.flatMap_append, hsize,
      List.append_assoc]
  rw [readWithImplied_of_printed htext (by decide) (by decide)
    (memoryBackendOptions_clean config)]
  rfl

def sevGuestFront : String :=
  "sev-snp-guest,id=sev0,cbitpos=51,reduced-phys-bits=1," ++
    "kernel-hashes=on,policy="

theorem sevGuestObject_eq (policy : String) :
    sevGuestObject policy = sevGuestFront ++ policy := by
  unfold sevGuestObject sevGuestFront
  rw [String.append_assoc]
  rfl

theorem toList_sevGuestFront :
    sevGuestFront.toList = "sev-snp-guest".toList ++ ',' ::
      ("id=sev0,cbitpos=51,reduced-phys-bits=1," ++
        "kernel-hashes=on,policy=").toList := by
  decide +kernel

def fixedSevOptions : Options :=
  [("qom-type", "sev-snp-guest"), ("id", "sev0"), ("cbitpos", "51"),
    ("reduced-phys-bits", "1"), ("kernel-hashes", "on")]

theorem read_sevGuestFront :
    Reader.read ⟨[], .value "qom-type".toList []⟩ sevGuestFront.toList =
      ⟨fixedSevOptions, .value "policy".toList []⟩ := by
  decide +kernel

/-- The guest object reads as it is meant to exactly when the policy has no
comma. -/
theorem sevGuestObject_reads_iff (policy : String) :
    readWithImplied "qom-type" (sevGuestObject policy) =
        some (sevGuestOptions policy) ↔
      ',' ∉ policy.toList := by
  have htext : (sevGuestFront ++ policy).toList =
      sevGuestFront.toList ++ policy.toList := String.toList_append
  have himplied := htext
  rw [toList_sevGuestFront, List.append_assoc, List.cons_append] at himplied
  rw [sevGuestObject_eq,
    readWithImplied_of_front himplied (by decide) (by decide), htext,
    Reader.read_append, read_sevGuestFront]
  have hintact := @Reader.value_intact_iff fixedSevOptions
    "policy".toList policy.toList
  rw [String.ofList_toList, String.ofList_toList] at hintact
  have hoptions : sevGuestOptions policy =
      fixedSevOptions ++ [("policy", policy)] := rfl
  rw [hoptions]
  exact hintact

end AlephCvm.Qemu

/-! ## Drives -/

namespace AlephCvm.Qemu

open ResultContext OptionLists AlephCvm.Tee AlephCvm.Grpc

/-- A disk that the command line takes as it is. -/
structure SafeDisk (disk : DiskConfig) : Prop where
  format : disk.format = "raw" ∨ disk.format = "qcow2"
  path : ',' ∉ disk.path.toList

/-- The options that a drive is meant to have. -/
def driveOptions (disk : DiskConfig) : Options :=
  [("file", disk.path), ("format", disk.format), ("if", "virtio"),
    ("readonly", if disk.readonly then "on" else "off")]

theorem driveOption_reads {disk : DiskConfig} (hsafe : SafeDisk disk) :
    readOptionList (driveOption disk) = some (driveOptions disk) := by
  have hfile : "file=".toList = "file".toList ++ ['='] := by decide
  have hformat : ",format=".toList = ',' :: ("format".toList ++ ['=']) := by
    decide
  have hvirtio : ",if=virtio,".toList =
      ',' :: (printOption ("if", "virtio") ++ [',']) := by
    decide
  have hreadonly : "readonly=".toList = "readonly".toList ++ ['='] := by
    decide
  have hoption : driveOption disk =
      "file=" ++ (disk.path ++ (",format=" ++ (disk.format ++
        (",if=virtio," ++ ("readonly=" ++
          if disk.readonly then "on" else "off"))))) := by
    unfold driveOption
    simp only [String.append_assoc]
    rfl
  have htext : (driveOption disk).toList =
      printOptions (driveOptions disk) := by
    rw [hoption, String.toList_append, String.toList_append,
      String.toList_append, String.toList_append, String.toList_append,
      String.toList_append, hfile, hformat, hvirtio, hreadonly]
    simp [driveOptions, printOptions, printOption]
  apply readOptionList_of_printed htext
  intro option hoption
  simp only [driveOptions, List.mem_cons, List.not_mem_nil, or_false]
    at hoption
  rcases hoption with hsame | hsame | hsame | hsame <;> subst hsame
  · exact CleanOption.of_key (by decide) hsafe.path
  · rcases hsafe.format with hraw | hqcow
    · rw [hraw]
      decide
    · rw [hqcow]
      decide
  · decide
  · cases disk.readonly <;> decide

theorem driveArgs_of_safe {disk : DiskConfig} (hsafe : SafeDisk disk) :
    driveArgs disk = .ok ["-drive", driveOption disk] := by
  have hformat : ¬ (disk.format ≠ "raw" ∧ disk.format ≠ "qcow2") := by
    intro hneither
    rcases hsafe.format with hraw | hqcow
    · exact hneither.1 hraw
    · exact hneither.2 hqcow
  unfold driveArgs
  rw [if_neg hformat, if_neg (by simpa using hsafe.path)]
  rfl

theorem mapM_driveArgs_of_safe
    {disks : List DiskConfig} (hsafe : ∀ disk ∈ disks, SafeDisk disk) :
    (disks.mapM driveArgs).isOk = true := by
  have hdrives : ∃ drives, disks.mapM driveArgs = .ok drives := by
    induction disks with
    | nil => exact ⟨[], rfl⟩
    | cons disk rest ih =>
        obtain ⟨others, hothers⟩ := ih fun other hother =>
          hsafe other (List.mem_cons_of_mem _ hother)
        exact ⟨_, mapM_cons_eq_ok.mpr ⟨_, others,
          driveArgs_of_safe (hsafe disk List.mem_cons_self), hothers, rfl⟩⟩
  obtain ⟨drives, hdrives⟩ := hdrives
  rw [hdrives]
  rfl

theorem hashtreePath_eq
    {files : VerityFiles} {rootfsPath : String} {info : VerityInfo}
    (hok : ensureVerity files rootfsPath = .ok info) :
    info.hashtreePath = s!"{rootfsPath}.verity" := by
  unfold ensureVerity at hok
  dsimp only at hok
  split_ifs at hok
  · simp only [bind_eq_ok, pure_eq_ok] at hok
    obtain ⟨cached, -, hinfo⟩ := hok
    rw [← hinfo]
  · simp only [bind_eq_ok, pure_eq_ok] at hok
    obtain ⟨output, -, _, -, rootHash, -, _, -, hinfo⟩ := hok
    rw [← hinfo]

/-- A hash tree is as safe as the image that it belongs to. -/
theorem SafeDisk.hashtree
    {disk : DiskConfig} (hsafe : SafeDisk disk) {files : VerityFiles}
    {info : VerityInfo} (hok : ensureVerity files disk.path = .ok info) :
    SafeDisk (hashtreeDisk info) := by
  refine ⟨.inl rfl, ?_⟩
  show ',' ∉ info.hashtreePath.toList
  rw [hashtreePath_eq hok]
  intro hcomma
  rcases List.mem_append.mp (String.toList_append ▸ hcomma) with
    hpath | hsuffix
  · exact hsafe.path hpath
  · revert hsuffix
    decide

/-- The disks of a request, and those that are booted with their hash
trees. -/
inductive HashTreesAdded (calls : VerityCalls) :
    List DiskConfig → List DiskConfig → Prop
  | unchanged (disks : List DiskConfig) : HashTreesAdded calls disks disks
  | rootfs (rootfs : DiskConfig) (info : VerityInfo)
      (hinfo : ensureVerity calls.rootfs rootfs.path = .ok info) :
      HashTreesAdded calls [rootfs] [rootfs, hashtreeDisk info]
  | workload (rootfs workload : DiskConfig) (others : List DiskConfig)
      (info workloadInfo : VerityInfo)
      (hinfo : ensureVerity calls.rootfs rootfs.path = .ok info)
      (hworkload : ensureVerity calls.workload workload.path =
        .ok workloadInfo) :
      HashTreesAdded calls (rootfs :: workload :: others)
        (rootfs :: hashtreeDisk info :: workload ::
          hashtreeDisk workloadInfo :: others)

theorem prepareBoot_adds
    {calls : VerityCalls} {config : VmConfig} {cmdline : Option String}
    {disks : List DiskConfig}
    (hok : prepareBoot calls config = .ok (cmdline, disks)) :
    HashTreesAdded calls config.disks disks := by
  unfold prepareBoot at hok
  split_ifs at hok
  · cases hok
    exact .unchanged _
  · cases hok
    exact .unchanged _
  · cases hconfig : config.disks with
    | nil =>
        rw [hconfig] at hok
        cases hok
        exact .unchanged []
    | cons rootfs rest =>
        rw [hconfig] at hok
        cases rest with
        | nil =>
            simp only [bind_eq_ok, context_eq_ok, pure_eq_ok,
              Prod.mk.injEq] at hok
            obtain ⟨info, hinfo, -, hdisks⟩ := hok
            rw [← hdisks]
            exact .rootfs rootfs info hinfo
        | cons workload others =>
            simp only [bind_eq_ok, context_eq_ok, pure_eq_ok,
              Prod.mk.injEq] at hok
            obtain ⟨info, hinfo, workloadInfo, hworkload, -, hdisks⟩ := hok
            rw [← hdisks]
            exact .workload rootfs workload others info workloadInfo hinfo
              hworkload

theorem HashTreesAdded.safe
    {calls : VerityCalls} {disks booted : List DiskConfig}
    (hadded : HashTreesAdded calls disks booted)
    (hsafe : ∀ disk ∈ disks, SafeDisk disk) :
    ∀ disk ∈ booted, SafeDisk disk := by
  cases hadded with
  | unchanged => exact hsafe
  | rootfs rootfs info hinfo =>
      simp only [List.forall_mem_cons] at hsafe ⊢
      exact ⟨hsafe.1, hsafe.1.hashtree hinfo, hsafe.2⟩
  | workload rootfs workload others info workloadInfo hinfo hworkload =>
      simp only [List.forall_mem_cons] at hsafe ⊢
      exact ⟨hsafe.1, hsafe.1.hashtree hinfo, hsafe.2.1,
        hsafe.2.1.hashtree hworkload, hsafe.2.2⟩

/-- No disk is taken away. -/
theorem HashTreesAdded.ne_nil
    {calls : VerityCalls} {disks booted : List DiskConfig}
    (hadded : HashTreesAdded calls disks booted) (hdisks : disks ≠ []) :
    booted ≠ [] := by
  cases hadded with
  | unchanged => exact hdisks
  | rootfs => simp
  | workload => simp

end AlephCvm.Qemu

namespace AlephCvm.Grpc

open ResultContext AlephCvm.Tee AlephCvm.Qemu

theorem bootFile_eq_ok
    {pathExists : String → Bool} {tee : TeeConfig} {path name : String}
    {found : Option String}
    (hok : bootFile pathExists tee path name = .ok found) :
    found = if path = "" then none else some path := by
  unfold bootFile at hok
  by_cases hempty : path = ""
  · rw [if_pos (by simp [hempty])] at hok
    rw [if_pos hempty]
    split_ifs at hok
    · cases hok
    · cases hok
      rfl
  · rw [if_neg (by simpa using hempty)] at hok
    rw [if_neg hempty]
    simp only [bind_eq_ok, pure_eq_ok] at hok
    obtain ⟨_, -, hfound⟩ := hok
    exact hfound.symm

theorem Accepted.safe
    {pathExists : String → Bool} {req : CreateVmRequest}
    {arguments : CreateArguments}
    (haccepted : Accepted pathExists req arguments) :
    ∀ disk ∈ arguments.config.disks, SafeDisk disk := by
  rw [haccepted.configDisks]
  intro disk hdisk
  obtain ⟨proto, hproto, hsame⟩ := List.mem_map.mp hdisk
  obtain ⟨-, hformat, hpath⟩ :=
    validateDisk_eq_ok.mp (haccepted.disks proto hproto)
  subst hsame
  exact ⟨hformat, hpath⟩

end AlephCvm.Grpc

/-! ## The commands of accepted requests -/

namespace AlephCvm.Vm

open ResultContext OptionLists AlephCvm.Tee AlephCvm.Qemu AlephCvm.Grpc
open AlephCvm.Net

variable {cfg : NodeConfig}

/-- A small confidential machine with this policy. -/
def policyRequest (policy : String) : CreateVmRequest where
  vmId := "vm-a"
  kernel := "/boot/vmlinuz"
  initrd := "/boot/initrd.img"
  disks := []
  vcpus := 1
  memoryMb := 4
  tee := some ⟨"sev-snp", policy⟩
  ipv6Address := ""
  ipv6PrefixLen := 0
  encrypted := false
  numaNode := 0

def policyArguments (policy : String) : CreateArguments where
  config :=
    { smallConfig "vm-a" .sevSnp with
      disks := []
      memoryMb := 4
      tee := ⟨.sevSnp, some policy⟩ }
  requestedIpv6 := none
  numaHint := none

/-- The two objects of the command are the memory backend and the guest, and
both read as they are meant to, with the memory and the policy of the
request. -/
def SevObjectsRead (req : CreateVmRequest) (launch : Launch) : Prop :=
  ∃ memory guest,
    optionValues "-object" launch.command = [memory, guest] ∧
      ObjectReads memory (("qom-type", "memory-backend-memfd") ::
        memoryBackendOptions launch.config) ∧
      launch.config.memoryMb = req.memoryMb ∧
      ObjectReads guest (sevGuestOptions (requestedPolicy req))

theorem optionValues_object
    (program : String) {config : VmConfig} {paths : QemuPaths}
    {tap mac ovmfPath : String} {kernelCmdline : Option String}
    {args : List String}
    (hargs : buildQemuCommand config paths tap (.sevSnp ovmfPath) mac
      kernelCmdline = .ok args) :
    optionValues "-object" (program :: args) =
      [memoryBackendObject config,
        sevGuestObject (config.tee.policy.getD defaultPolicy)] := by
  have hboot : (bootOptions config kernelCmdline).filter
      (fun option => option.1 == "-object") = [] := by
    unfold bootOptions
    cases config.kernel <;> cases config.initrd <;>
      cases kernelCmdline <;> simp
  simp [optionValues, readOptions_of_command hargs, TeeBackend.qemuArgs,
    readOptions_sevSnp, hboot, List.filter_map, Function.comp_def]

/-- The objects of an SEV-SNP machine are read as they are meant to exactly
when the policy of its request has no comma. -/
theorem sev_objects_read_iff
    (node : Node cfg) (calls : CreateCalls) (pathExists : String → Bool)
    (req : CreateVmRequest) (arguments : CreateArguments)
    (macAddr ovmfPath : String) (launch : Launch)
    (hok : translateRequest pathExists req = .ok arguments)
    (hsevSnp : arguments.config.tee.backend = .sevSnp)
    (hbackend : cfg.backends .sevSnp = some (.sevSnp ovmfPath))
    (hlaunch : (node.prepareLaunch calls arguments.config
      arguments.numaHint macAddr).1 = .ok launch) :
    SevObjectsRead req launch ↔ ',' ∉ (requestedPolicy req).toList := by
  have haccepted := translateRequest_accepted hok
  obtain ⟨backend, cmdline, disks, args, hfound, -, hconfig, hargs,
    hcommand⟩ := Node.prepareLaunch_built hlaunch
  rw [hsevSnp, hbackend, Option.some.injEq] at hfound
  subst hfound
  have hmemory : launch.config.memoryMb = req.memoryMb := by
    rw [hconfig]
    exact haccepted.memoryMb
  have hpolicy : launch.config.tee.policy.getD defaultPolicy =
      requestedPolicy req := by
    rw [hconfig]
    exact haccepted.policy
  have hobjects := optionValues_object "qemu-system-x86_64" hargs
  rw [← hcommand, hpolicy] at hobjects
  rw [← sevGuestObject_reads_iff]
  constructor
  · intro hread
    obtain ⟨memory, guest, hvalues, -, -, hguest⟩ := hread
    rw [hobjects] at hvalues
    simp only [List.cons.injEq, and_true] at hvalues
    rw [hvalues.2]
    exact hguest.1
  · intro hguest
    exact ⟨_, _, hobjects, ⟨memoryBackendObject_reads _,
      memoryBackendOptions_nodup _ _⟩, hmemory, hguest,
      sevGuestOptions_nodup _⟩

theorem sev_objects_read_plain_policy :
    ∃ launch,
      (hugepageNode.prepareLaunch createSucceeds
        (policyArguments "0x30000").config none "52:54:00:00:64:02").1 =
          .ok launch ∧
      (SevObjectsRead (policyRequest "0x30000") launch ↔
        ',' ∉ (requestedPolicy (policyRequest "0x30000")).toList) := by
  have hok : (hugepageNode.prepareLaunch createSucceeds
      (policyArguments "0x30000").config none
      "52:54:00:00:64:02").1.isOk = true := by
    decide
  obtain ⟨launch, hlaunch⟩ := exists_of_isOk hok
  exact ⟨launch, hlaunch, sev_objects_read_iff hugepageNode createSucceeds
    (fun _ => true) (policyRequest "0x30000") (policyArguments "0x30000")
    "52:54:00:00:64:02" "/usr/share/OVMF/OVMF.fd" launch (by decide) rfl rfl
    hlaunch⟩

/-- With a comma in it, the policy switches the kernel hashes off. -/
theorem sev_objects_injected :
    translateRequest (fun _ => true)
        (policyRequest "0x30000,kernel-hashes=off") =
      .ok (policyArguments "0x30000,kernel-hashes=off") ∧
    ∃ launch,
      (hugepageNode.prepareLaunch createSucceeds
        (policyArguments "0x30000,kernel-hashes=off").config none
        "52:54:00:00:64:02").1 = .ok launch ∧
      (optionValues "-object" launch.command).map
          (readWithImplied "qom-type") =
        [some [("qom-type", "memory-backend-memfd"), ("id", "ram1"),
            ("size", "4M"), ("share", "true"), ("hugetlb", "on"),
            ("hugetlbsize", "2M")],
          some [("qom-type", "sev-snp-guest"), ("id", "sev0"),
            ("cbitpos", "51"), ("reduced-phys-bits", "1"),
            ("kernel-hashes", "on"), ("policy", "0x30000"),
            ("kernel-hashes", "off")]] ∧
      ¬ SevObjectsRead (policyRequest "0x30000,kernel-hashes=off")
        launch := by
  refine ⟨by decide, ?_⟩
  have hok : (hugepageNode.prepareLaunch createSucceeds
      (policyArguments "0x30000,kernel-hashes=off").config none
      "52:54:00:00:64:02").1.isOk = true := by
    decide
  obtain ⟨launch, hlaunch⟩ := exists_of_isOk hok
  have hreads : ((hugepageNode.prepareLaunch createSucceeds
      (policyArguments "0x30000,kernel-hashes=off").config none
      "52:54:00:00:64:02").1.map fun launch =>
        (optionValues "-object" launch.command).map
          (readWithImplied "qom-type")) =
      .ok [some [("qom-type", "memory-backend-memfd"), ("id", "ram1"),
            ("size", "4M"), ("share", "true"), ("hugetlb", "on"),
            ("hugetlbsize", "2M")],
          some [("qom-type", "sev-snp-guest"), ("id", "sev0"),
            ("cbitpos", "51"), ("reduced-phys-bits", "1"),
            ("kernel-hashes", "on"), ("policy", "0x30000"),
            ("kernel-hashes", "off")]] := by
    decide +kernel
  rw [hlaunch, Except.map, Except.ok.injEq] at hreads
  refine ⟨launch, hlaunch, hreads, ?_⟩
  intro hread
  obtain ⟨memory, guest, hvalues, -, -, hguest, -⟩ := hread
  rw [hvalues, List.map_cons, List.map_cons, hguest] at hreads
  have hguests := (List.cons.inj (List.cons.inj hreads).2).1
  revert hguests
  decide

/-- The same machine with two images. -/
def imagesRequest : CreateVmRequest :=
  { policyRequest "0x30000" with
    disks := [⟨"/images/rootfs", true, ""⟩, ⟨"/images/app", true, "raw"⟩] }

def imagesArguments : CreateArguments :=
  { policyArguments "0x30000" with
    config := { (policyArguments "0x30000").config with
      disks := twoImages } }

/-- The checked disks build safely: the command is never a panic, and its
drives, the hash trees among them, read as they are meant to. -/
theorem accepted_drives_read
    (node : Node cfg) (calls : CreateCalls) (pathExists : String → Bool)
    (req : CreateVmRequest) (arguments : CreateArguments)
    (macAddr : String)
    (hok : translateRequest pathExists req = .ok arguments) :
    (∀ message, (node.prepareLaunch calls arguments.config
      arguments.numaHint macAddr).1 ≠ .error (.panicked message)) ∧
    ∀ launch, (node.prepareLaunch calls arguments.config
      arguments.numaHint macAddr).1 = .ok launch →
        ∃ cmdline disks,
          prepareBoot calls.verity arguments.config = .ok (cmdline, disks) ∧
          (optionValues "-drive" launch.command).map readOptionList =
            disks.map fun disk => some (driveOptions disk) := by
  have hsafe := (translateRequest_accepted hok).safe
  constructor
  · intro message hpanicked
    have haccepted : drivesAccepted calls arguments.config = true := by
      unfold drivesAccepted
      cases hboot : prepareBoot calls.verity arguments.config with
      | error message => rfl
      | ok boot =>
          obtain ⟨cmdline, disks⟩ := boot
          exact mapM_driveArgs_of_safe ((prepareBoot_adds hboot).safe hsafe)
    have hresult := node.prepareLaunch_result calls arguments.config
      arguments.numaHint macAddr
    generalize node.prepareLaunch calls arguments.config arguments.numaHint
      macAddr = result at hresult hpanicked
    cases hresult with
    | ready => cases hpanicked
    | refused => cases hpanicked
    | panicked message next hlaunchable hdrives =>
        rw [haccepted] at hdrives
        cases hdrives
  · intro launch hlaunch
    obtain ⟨cmdline, disks, hboot, hdrives, -⟩ :=
      Node.prepareLaunch_ok hlaunch
    refine ⟨cmdline, disks, hboot, ?_⟩
    rw [hdrives, List.map_map]
    apply List.map_congr_left
    intro disk hdisk
    exact driveOption_reads ((prepareBoot_adds hboot).safe hsafe disk hdisk)

theorem accepted_drives_read_images :
    ∃ launch,
      (hugepageNode.prepareLaunch (cachedCalls "00ff" "a1")
        imagesArguments.config none "52:54:00:00:64:02").1 =
          .ok launch ∧
      ∃ cmdline disks,
        prepareBoot (cachedCalls "00ff" "a1").verity imagesArguments.config =
          .ok (cmdline, disks) ∧
        (optionValues "-drive" launch.command).map readOptionList =
          disks.map fun disk => some (driveOptions disk) := by
  have hok : (hugepageNode.prepareLaunch (cachedCalls "00ff" "a1")
      imagesArguments.config none "52:54:00:00:64:02").1.isOk = true := by
    decide
  obtain ⟨launch, hlaunch⟩ := exists_of_isOk hok
  exact ⟨launch, hlaunch, (accepted_drives_read hugepageNode
    (cachedCalls "00ff" "a1") (fun _ => true) imagesRequest imagesArguments
    "52:54:00:00:64:02" (by decide)).2 launch hlaunch⟩

/-- A request with these paths for the kernel and the initrd, without
confidentiality. -/
def bootRequest (kernel initrd : String) (disks : List ProtoDiskConfig) :
    CreateVmRequest :=
  { policyRequest "" with
    kernel := kernel
    initrd := initrd
    disks := disks
    tee := some ⟨"none", ""⟩ }

/-- The requested files are booted directly, or a disk is booted. -/
structure BootsAsRequested (req : CreateVmRequest) (command : List String) :
    Prop where
  bootable : (optionValues "-kernel" command = [req.kernel] ∧
      optionValues "-initrd" command = [req.initrd]) ∨
    (optionValues "-boot" command = ["order=c"] ∧
      optionValues "-drive" command ≠ [])
  kernel : req.kernel ≠ "" → optionValues "-kernel" command = [req.kernel]

theorem optionValues_boot
    (program : String) {config : VmConfig} {paths : QemuPaths}
    {tap mac : String} {backend : TeeBackend}
    {kernelCmdline : Option String} {args : List String} {name : String}
    (hname : name = "-kernel" ∨ name = "-initrd" ∨ name = "-boot")
    (hargs : buildQemuCommand config paths tap backend mac kernelCmdline =
      .ok args) :
    optionValues name (program :: args) =
      ((bootOptions config kernelCmdline).filter fun option =>
        option.1 == name).map Prod.snd := by
  have hbackend : (readOptions (backend.qemuArgs config)).filter
      (fun option => option.1 == name) = [] := by
    cases backend with
    | sevSnp ovmfPath =>
        rw [TeeBackend.qemuArgs, readOptions_sevSnp]
        rcases hname with hname | hname | hname <;> simp [hname]
    | noTee =>
        rcases hname with hname | hname | hname <;>
          simp [hname, TeeBackend.qemuArgs, readOptions, switches]
  rcases hname with hname | hname | hname <;> subst hname <;>
    simp [optionValues, readOptions_of_command hargs, hbackend,
      List.filter_map, Function.comp_def]

/-- An accepted request boots what it asks for unless it has a kernel and no
initrd. -/
theorem boots_as_requested_iff
    (node : Node cfg) (calls : CreateCalls) (pathExists : String → Bool)
    (req : CreateVmRequest) (arguments : CreateArguments)
    (macAddr : String) (launch : Launch)
    (hok : translateRequest pathExists req = .ok arguments)
    (hlaunch : (node.prepareLaunch calls arguments.config
      arguments.numaHint macAddr).1 = .ok launch) :
    BootsAsRequested req launch.command ↔
      ¬ (req.kernel ≠ "" ∧ req.initrd = "") := by
  have haccepted := translateRequest_accepted hok
  obtain ⟨backend, cmdline, disks, args, -, hboot, hconfig, hargs,
    hcommand⟩ := Node.prepareLaunch_built hlaunch
  have hkernel : launch.config.kernel =
      if req.kernel = "" then none else some req.kernel := by
    rw [hconfig]
    exact bootFile_eq_ok haccepted.kernel
  have hinitrd : launch.config.initrd =
      if req.initrd = "" then none else some req.initrd := by
    rw [hconfig]
    exact bootFile_eq_ok haccepted.initrd
  have hvalues : ∀ name, name = "-kernel" ∨ name = "-initrd" ∨
      name = "-boot" → optionValues name launch.command =
        ((bootOptions launch.config cmdline).filter fun option =>
          option.1 == name).map Prod.snd := by
    intro name hname
    rw [hcommand]
    exact optionValues_boot "qemu-system-x86_64" hname hargs
  have hbootKernel := hvalues "-kernel" (by simp)
  have hbootInitrd := hvalues "-initrd" (by simp)
  have hbootOrder := hvalues "-boot" (by simp)
  by_cases hnokernel : req.kernel = ""
  · rw [if_pos hnokernel] at hkernel
    simp only [bootOptions, hkernel] at hbootOrder
    have hdisks : req.disks ≠ [] := by
      apply haccepted.bootable
      rw [bootFile_eq_ok haccepted.kernel, if_pos hnokernel]
    have hdrives : optionValues "-drive" launch.command ≠ [] := by
      obtain ⟨_, booted, hbooted, hdrives, -⟩ :=
        Node.prepareLaunch_ok hlaunch
      have hconfigured : arguments.config.disks ≠ [] := by
        simpa [haccepted.configDisks] using hdisks
      have hnonempty := (prepareBoot_adds hbooted).ne_nil hconfigured
      simpa [hdrives] using hnonempty
    constructor
    · intro _ hboth
      exact hboth.1 hnokernel
    · intro _
      refine ⟨.inr ⟨by simpa using hbootOrder, hdrives⟩, ?_⟩
      intro hrequested
      exact absurd hnokernel hrequested
  · rw [if_neg hnokernel] at hkernel
    by_cases hnoinitrd : req.initrd = ""
    · rw [if_pos hnoinitrd] at hinitrd
      simp only [bootOptions, hkernel, hinitrd] at hbootKernel
      constructor
      · intro hboots
        have hignored := hboots.kernel hnokernel
        simp [hbootKernel] at hignored
      · intro hneither
        exact absurd ⟨hnokernel, hnoinitrd⟩ hneither
    · rw [if_neg hnoinitrd] at hinitrd
      simp only [bootOptions, hkernel, hinitrd] at hbootKernel hbootInitrd
      have hvalue : optionValues "-kernel" launch.command =
          [req.kernel] := by
        rw [hbootKernel]
        cases cmdline <;> simp
      have hinitrdValue : optionValues "-initrd" launch.command =
          [req.initrd] := by
        rw [hbootInitrd]
        cases cmdline <;> simp
      constructor
      · intro _ hboth
        exact hnoinitrd hboth.2
      · intro _
        exact ⟨.inl ⟨hvalue, hinitrdValue⟩, fun _ => hvalue⟩

def bootArguments (kernel initrd : Option String)
    (disks : List DiskConfig) : CreateArguments where
  config :=
    { smallConfig "vm-a" .none with
      kernel := kernel
      initrd := initrd
      disks := disks
      memoryMb := 4 }
  requestedIpv6 := none
  numaHint := none

theorem boots_as_requested_from_kernel :
    ∃ launch,
      (hugepageNode.prepareLaunch createSucceeds
        (bootArguments (some "/boot/vmlinuz") (some "/boot/initrd.img")
          []).config none "52:54:00:00:64:02").1 = .ok launch ∧
      (BootsAsRequested (bootRequest "/boot/vmlinuz" "/boot/initrd.img" [])
          launch.command ↔
        ¬ (("/boot/vmlinuz" : String) ≠ "" ∧
          ("/boot/initrd.img" : String) = "")) := by
  have hok : (hugepageNode.prepareLaunch createSucceeds
      (bootArguments (some "/boot/vmlinuz") (some "/boot/initrd.img")
        []).config none "52:54:00:00:64:02").1.isOk = true := by
    decide
  obtain ⟨launch, hlaunch⟩ := exists_of_isOk hok
  exact ⟨launch, hlaunch, boots_as_requested_iff hugepageNode
    createSucceeds (fun _ => true)
    (bootRequest "/boot/vmlinuz" "/boot/initrd.img" [])
    (bootArguments (some "/boot/vmlinuz") (some "/boot/initrd.img") [])
    "52:54:00:00:64:02" launch (by decide) hlaunch⟩

/-- With a kernel but neither an initrd nor a disk, the kernel is ignored and
there is nothing to boot. -/
theorem kernel_without_initrd_ignored :
    translateRequest (fun _ => true) (bootRequest "/boot/vmlinuz" "" []) =
      .ok (bootArguments (some "/boot/vmlinuz") none []) ∧
    ∃ launch,
      (hugepageNode.prepareLaunch createSucceeds
        (bootArguments (some "/boot/vmlinuz") none []).config none
        "52:54:00:00:64:02").1 = .ok launch ∧
      optionValues "-kernel" launch.command = [] ∧
      optionValues "-boot" launch.command = ["order=c"] ∧
      optionValues "-drive" launch.command = [] ∧
      ¬ BootsAsRequested (bootRequest "/boot/vmlinuz" "" [])
        launch.command := by
  refine ⟨by decide, ?_⟩
  have hok : (hugepageNode.prepareLaunch createSucceeds
      (bootArguments (some "/boot/vmlinuz") none []).config none
      "52:54:00:00:64:02").1.isOk = true := by
    decide
  obtain ⟨launch, hlaunch⟩ := exists_of_isOk hok
  have hvalues : ((hugepageNode.prepareLaunch createSucceeds
      (bootArguments (some "/boot/vmlinuz") none []).config none
      "52:54:00:00:64:02").1.map fun launch =>
        (optionValues "-kernel" launch.command,
          optionValues "-boot" launch.command,
          optionValues "-drive" launch.command)) =
      .ok ([], ["order=c"], []) := by
    decide
  rw [hlaunch, Except.map, Except.ok.injEq, Prod.mk.injEq,
    Prod.mk.injEq] at hvalues
  obtain ⟨hkernel, hboot, hdrives⟩ := hvalues
  refine ⟨launch, hlaunch, hkernel, hboot, hdrives, ?_⟩
  intro hboots
  have hignored := hboots.kernel (by decide)
  rw [hkernel] at hignored
  cases hignored

end AlephCvm.Vm
