import AlephCvm.AcceptedCommands
import AlephCvm.UnixPaths

/-!
# The write paths of a machine's unit

Model of `start_vm_unit` in `aleph-compute-node/src/systemd.rs` and of what
`QemuProcess::spawn` and the manager hand to it.  QEMU runs in a unit that may
write to the directories named in one property: the machine's run directory
and the parents of its writable disks.  The directories are joined with blanks
and the property is split at blanks, so a directory with a blank in its name
is read as several others.
-/

namespace AlephCvm.Vm

open ResultContext SplitText UnixPaths AlephCvm.Tee AlephCvm.Qemu
open AlephCvm.Grpc

variable {cfg : NodeConfig}

/-! ## Starting the unit -/

def unitName (vmId : String) : String := s!"aleph-cvm-vm-{vmId}.service"

/-- The parent directories of the writable disks. -/
def rwDirs (config : VmConfig) : List Path :=
  (config.disks.filter fun disk => !disk.readonly).filterMap fun disk =>
    parent disk.path.toList

def rwPaths (runDir : Path) (rwDirs : List Path) : String :=
  String.ofList ([' '].intercalate (runDir :: rwDirs))

def unitProperties (unit : String) (runDir : Path) (rwDirs : List Path)
    (numaCpuset : Option String) (needsSevDevices : Bool) :
    List (String × String) :=
  [("Type", "simple"), ("Restart", "on-failure"), ("RestartSec", "5s"),
    ("KillMode", "mixed"), ("TimeoutStopSec", "30"),
    ("SyslogIdentifier", unit), ("StandardOutput", "journal"),
    ("StandardError", "journal"), ("NoNewPrivileges", "true"),
    ("ProtectSystem", "strict"), ("ReadWritePaths", rwPaths runDir rwDirs),
    ("ProtectHome", "true"), ("ProtectKernelTunables", "true"),
    ("ProtectKernelModules", "true"), ("ProtectControlGroups", "true"),
    ("DevicePolicy", "closed"), ("DeviceAllow", "/dev/kvm rw"),
    ("DeviceAllow", "/dev/null rw"), ("DeviceAllow", "/dev/urandom r"),
    ("DeviceAllow", "/dev/net/tun rw")] ++
    (if needsSevDevices then
      [("DeviceAllow", "/dev/sev-guest rw"), ("DeviceAllow", "/dev/sev rw")]
    else []) ++
    (match numaCpuset with
    | some cpuset => [("AllowedCPUs", cpuset)]
    | none => [])

def propertyText (property : String × String) : String :=
  property.1 ++ "=" ++ property.2

/-- The arguments of `systemd-run`. -/
def startVmUnit (vmId : String) (qemuArgs : List String) (runDir : Path)
    (rwDirs : List Path) (numaCpuset : Option String)
    (needsSevDevices : Bool) : Except String (List String) :=
  match qemuArgs with
  | [] => .error "empty qemu args"
  | program :: args =>
      .ok (["--unit", unitName vmId] ++
        (unitProperties (unitName vmId) runDir rwDirs numaCpuset
          needsSevDevices).flatMap (fun property =>
            ["--property", propertyText property]) ++
        "--" :: program :: args)

/-- `QemuProcess::spawn`, up to the call of `systemd-run`. -/
def QemuProcess.spawn (args : List String) (paths : QemuPaths)
    (vmId : String) (rwDirs : List Path) (numaCpuset : Option String)
    (needsSevDevices : Bool) : Except String (List String) := do
  let vmDir ← optionContext "qmp_socket path has no parent"
    (parent paths.qmpSocket.toList)
  startVmUnit vmId args vmDir rwDirs numaCpuset needsSevDevices

/-- The unit that `create_vm` starts. -/
def Launch.unit (cfg : NodeConfig) (launch : Launch) :
    Except String (List String) :=
  QemuProcess.spawn launch.command (.forVm cfg.runDir launch.config.vmId)
    launch.config.vmId (rwDirs launch.config)
    (some launch.placement.cpuset) (isConfidential launch.config)

/-! ## What systemd reads -/

/-- The separators of a list in a property. -/
def isBlank (symbol : Char) : Bool :=
  symbol == ' ' || symbol == '\t' || symbol == '\n' || symbol == '\r'

/-- The properties on the command line, up to the mark in front of the
program. -/
def readProperties : List String → List String
  | [] => []
  | "--" :: _ => []
  | "--property" :: text :: rest => text :: readProperties rest
  | _ :: rest => readProperties rest

/-- Name and value around the first equals sign. -/
def readProperty (text : String) : List Char × List Char :=
  (text.toList.takeWhile (· != '='),
    (text.toList.dropWhile (· != '=')).drop 1)

/-- The paths that the unit may write to. -/
def writePaths (command : List String) : List Path :=
  let properties := (readProperties command).map readProperty
  (properties.filter fun property =>
    property.1 == "ReadWritePaths".toList).flatMap fun property =>
      words isBlank property.2

/-- The directories that the unit may write to. -/
def Granted (command : List String) (dir : List Component) : Prop :=
  ∃ path ∈ writePaths command, components path = dir

/-- The machine's run directory and the parents of its writable disks. -/
def Needed (cfg : NodeConfig) (req : CreateVmRequest)
    (dir : List Component) : Prop :=
  IsParent dir (QemuPaths.forVm cfg.runDir req.vmId).qmpSocket.toList ∨
    ∃ disk ∈ req.disks, disk.readonly = false ∧
      IsParent dir disk.path.toList

def Blankless (text : List Char) : Prop :=
  ∀ symbol ∈ text, isBlank symbol = false

/-! ## The property on the command line -/

theorem readProperties_rendered
    (properties : List (String × String)) (rest : List String) :
    readProperties (properties.flatMap (fun property =>
      ["--property", propertyText property]) ++ "--" :: rest) =
      properties.map propertyText := by
  induction properties with
  | nil => rfl
  | cons property others ih =>
      rw [List.flatMap_cons, List.append_assoc, List.map_cons, ← ih]
      rfl

theorem readProperty_text
    {property : String × String} (hname : '=' ∉ property.1.toList) :
    readProperty (propertyText property) =
      (property.1.toList, property.2.toList) := by
  have htext : (propertyText property).toList =
      property.1.toList ++ '=' :: property.2.toList := by
    simp [propertyText]
  have hkept : ∀ symbol ∈ property.1.toList, (symbol != '=') = true := by
    intro symbol hsymbol
    simp only [bne_iff_ne, ne_eq]
    rintro rfl
    exact hname hsymbol
  rw [readProperty, htext, List.takeWhile_append_of_pos hkept,
    List.dropWhile_append_of_pos hkept, List.takeWhile_cons_of_neg (by simp),
    List.dropWhile_cons_of_neg (by simp)]
  simp

theorem readProperties_of_other
    {text : String} (hmark : text ≠ "--") (hproperty : text ≠ "--property")
    (rest : List String) :
    readProperties (text :: rest) = readProperties rest := by
  rw [readProperties.eq_def]
  split <;> simp_all

theorem unitName_ne
    {vmId text : String} (htext : text.toList.head? = some '-') :
    unitName vmId ≠ text := by
  intro hsame
  have hhead : (unitName vmId).toList.head? = some 'a' := by
    unfold unitName
    rw [String.toList_append, String.toList_append]
    rfl
  rw [hsame, htext] at hhead
  exact absurd hhead (by decide)

theorem unitProperties_names
    (unit : String) (runDir : Path) (rwDirs : List Path)
    (numaCpuset : Option String) (needsSevDevices : Bool) :
    ∀ property ∈ unitProperties unit runDir rwDirs numaCpuset
      needsSevDevices, '=' ∉ property.1.toList := by
  unfold unitProperties
  cases numaCpuset <;> cases needsSevDevices <;> simp

theorem unitProperties_readWritePaths
    (unit : String) (runDir : Path) (rwDirs : List Path)
    (numaCpuset : Option String) (needsSevDevices : Bool) :
    (unitProperties unit runDir rwDirs numaCpuset needsSevDevices).filter
        (fun property => property.1 == "ReadWritePaths") =
      [("ReadWritePaths", rwPaths runDir rwDirs)] := by
  cases numaCpuset <;> cases needsSevDevices <;> rfl

/-- Of the rendered properties, one is read under this name. -/
theorem readProperty_readWritePaths
    (unit : String) (runDir : Path) (rwDirs : List Path)
    (numaCpuset : Option String) (needsSevDevices : Bool) :
    (((unitProperties unit runDir rwDirs numaCpuset needsSevDevices).map
        propertyText).map readProperty).filter
        (fun property => property.1 == "ReadWritePaths".toList) =
      [("ReadWritePaths".toList, (rwPaths runDir rwDirs).toList)] := by
  have hone := unitProperties_readWritePaths unit runDir rwDirs numaCpuset
    needsSevDevices
  have hnames := unitProperties_names unit runDir rwDirs numaCpuset
    needsSevDevices
  generalize unitProperties unit runDir rwDirs numaCpuset needsSevDevices =
    properties at hone hnames
  have hread : ∀ property ∈ properties,
      (readProperty ∘ propertyText) property =
        (property.1.toList, property.2.toList) := by
    intro property hproperty
    exact readProperty_text (hnames property hproperty)
  have hsame : ∀ property : String × String,
      (property.1.toList == "ReadWritePaths".toList) =
        (property.1 == "ReadWritePaths") := by
    intro property
    rw [Bool.eq_iff_iff, beq_iff_eq, beq_iff_eq]
    exact String.toList_inj
  rw [List.map_map, List.map_congr_left hread, List.filter_map]
  simp only [Function.comp_def, hsame, hone, List.map_singleton]

theorem writePaths_startVmUnit
    {vmId : String} {qemuArgs command : List String} {runDir : Path}
    {rwDirs : List Path} {numaCpuset : Option String}
    {needsSevDevices : Bool}
    (hok : startVmUnit vmId qemuArgs runDir rwDirs numaCpuset
      needsSevDevices = .ok command) :
    writePaths command = (runDir :: rwDirs).flatMap (words isBlank) := by
  cases qemuArgs with
  | nil => cases hok
  | cons program args =>
      obtain rfl := Except.ok.inj hok
      have hrendered := readProperties_rendered (unitProperties
        (unitName vmId) runDir rwDirs numaCpuset needsSevDevices)
        (program :: args)
      have hblank : isBlank ' ' = true := by decide
      rw [writePaths, List.append_assoc, List.cons_append, List.cons_append,
        List.nil_append, readProperties_of_other (by decide) (by decide),
        readProperties_of_other (unitName_ne rfl) (unitName_ne rfl),
        hrendered, readProperty_readWritePaths, List.flatMap_singleton,
        rwPaths]
      dsimp only
      rw [String.toList_ofList, words_intercalate hblank]

/-! ## Words as directories -/

theorem blankless_iff_names {path : Path} :
    (∀ name, .normal name ∈ components path → Blankless name) ↔
      Blankless path :=
  forall_names_iff (fun symbol => isBlank symbol = false) rfl rfl

/-- A word has no blank in it, so a directory is among the words when its
names have none. -/
theorem words_denote_iff
    {dirs : List Path} (hnonempty : ∀ text ∈ dirs, text ≠ []) :
    (∀ dir, (∃ path ∈ dirs.flatMap (words isBlank),
        components path = dir) ↔
      ∃ text ∈ dirs, components text = dir) ↔
      ∀ text ∈ dirs, Blankless text := by
  constructor
  · intro hsame text htext
    obtain ⟨path, hpath, hcomponents⟩ :=
      (hsame (components text)).mpr ⟨text, htext, rfl⟩
    obtain ⟨origin, _, hword⟩ := List.mem_flatMap.mp hpath
    have hblankless : Blankless path :=
      separates_eq_false_of_mem_words hword
    have hnames := blankless_iff_names.mpr hblankless
    rw [hcomponents] at hnames
    exact blankless_iff_names.mp hnames
  · intro hblankless dir
    have hwords : dirs.flatMap (words isBlank) = dirs := by
      induction dirs with
      | nil => rfl
      | cons text rest ih =>
          rw [List.forall_mem_cons] at hnonempty hblankless
          rw [List.flatMap_cons,
            words_of_no_separator hnonempty.1 hblankless.1,
            ih hnonempty.2 hblankless.2, List.singleton_append]
    rw [hwords]

/-! ## The directories of an accepted request -/

theorem vmIdChar_plain
    {symbol : Char} (hchar : vmIdChar symbol = true) :
    symbol ≠ '.' ∧ symbol ≠ '/' ∧ isBlank symbol = false := by
  refine ⟨?_, ?_, ?_⟩
  · rintro rfl
    exact absurd hchar (by decide)
  · rintro rfl
    exact absurd hchar (by decide)
  · by_contra hblank
    rw [Bool.not_eq_false] at hblank
    simp only [isBlank, Bool.or_eq_true, beq_iff_eq] at hblank
    rcases hblank with ((rfl | rfl) | rfl) | rfl <;>
      exact absurd hchar (by decide)

/-- The run directory of a machine with a valid id. -/
theorem parent_qmpSocket
    (runDir : String) {vmId : String} (hok : validateVmId vmId = .ok ()) :
    parent (QemuPaths.forVm runDir vmId).qmpSocket.toList =
      some (runDir.toList ++ '/' :: vmId.toList) := by
  obtain ⟨hnonempty, hchars⟩ := validateVmId_chars hok
  have hsocket : (QemuPaths.forVm runDir vmId).qmpSocket.toList =
      runDir.toList ++ '/' :: vmId.toList ++ '/' :: "qmp.sock".toList := by
    simp only [QemuPaths.forVm, String.toList_append, List.append_assoc]
    rfl
  have hslash : '/' ∉ vmId.toList := by
    intro hmem
    exact (vmIdChar_plain (hchars _ hmem)).2.1 rfl
  have hname : (component vmId.toList).isNone = false := by
    have hdot : '.' ∉ vmId.toList := by
      intro hmem
      exact (vmIdChar_plain (hchars _ hmem)).1 rfl
    have hnormal : component vmId.toList =
        some (.normal vmId.toList) := by
      refine component_eq_normal.mpr ⟨rfl, hnonempty, ?_, ?_⟩
      · intro hsingle
        rw [hsingle] at hdot
        simp at hdot
      · intro hdouble
        rw [hdouble] at hdot
        simp at hdot
    rw [hnormal]
    rfl
  rw [hsocket]
  exact parent_of_entry hname hslash (by decide) (by decide)

theorem blankless_runDir_iff
    (runDir : String) {vmId : String} (hok : validateVmId vmId = .ok ()) :
    Blankless (runDir.toList ++ '/' :: vmId.toList) ↔
      Blankless runDir.toList := by
  have hchars := (validateVmId_chars hok).2
  constructor
  · intro hboth symbol hsymbol
    exact hboth symbol (List.mem_append_left _ hsymbol)
  · intro hrunDir symbol hsymbol
    rcases List.mem_append.mp hsymbol with hmem | hmem
    · exact hrunDir symbol hmem
    · rcases List.mem_cons.mp hmem with rfl | hid
      · rfl
      · exact (vmIdChar_plain (hchars symbol hid)).2.2

/-- The hash trees are read-only. -/
theorem rwDirs_of_added
    {calls : VerityCalls} {disks booted : List DiskConfig}
    (hadded : HashTreesAdded calls disks booted) :
    booted.filter (fun disk => !disk.readonly) =
      disks.filter fun disk => !disk.readonly := by
  cases hadded with
  | unchanged => rfl
  | rootfs rootfs info hinfo => rfl
  | workload rootfs workload others info workloadInfo hinfo hworkload =>
      simp [hashtreeDisk, List.filter_cons]

/-- The directories in the unit's property are the needed ones, and so is
nothing else. -/
def WritePathsExact (cfg : NodeConfig) (req : CreateVmRequest)
    (command : List String) : Prop :=
  ∀ dir, Granted command dir ↔ Needed cfg req dir

theorem Launch.unit_eq_ok
    {node : Node cfg} {calls : CreateCalls} {config : VmConfig}
    {numaHint : Option UInt32} {macAddr : String} {launch : Launch}
    (hid : validateVmId config.vmId = .ok ())
    (hlaunch : (node.prepareLaunch calls config numaHint macAddr).1 =
      .ok launch) :
    ∃ command, launch.unit cfg = .ok command ∧
      writePaths command =
        ((cfg.runDir.toList ++ '/' :: config.vmId.toList) ::
          rwDirs config).flatMap (words isBlank) := by
  obtain ⟨backend, cmdline, disks, args, -, hboot, hconfig, -, hcommand⟩ :=
    Node.prepareLaunch_built hlaunch
  have hsame : launch.config.vmId = config.vmId := by
    rw [hconfig]
    rfl
  have hdirs : rwDirs launch.config = rwDirs config := by
    rw [hconfig, rwDirs, rwDirs]
    exact congrArg _ (rwDirs_of_added (prepareBoot_adds hboot))
  obtain ⟨command, hunit⟩ : ∃ command, startVmUnit launch.config.vmId
      launch.command (cfg.runDir.toList ++ '/' :: config.vmId.toList)
      (rwDirs config) (some launch.placement.cpuset)
      (isConfidential launch.config) = .ok command := by
    rw [hcommand]
    exact ⟨_, rfl⟩
  refine ⟨command, ?_, writePaths_startVmUnit hunit⟩
  rw [← hunit, ← hdirs, ← hsame, Launch.unit, QemuProcess.spawn,
    parent_qmpSocket cfg.runDir (hsame ▸ hid)]
  rfl

theorem mem_rwDirs
    {pathExists : String → Bool} {req : CreateVmRequest}
    {arguments : CreateArguments}
    (haccepted : Accepted pathExists req arguments) {text : Path} :
    text ∈ rwDirs arguments.config ↔
      ∃ disk ∈ req.disks, disk.readonly = false ∧
        parent disk.path.toList = some text := by
  rw [rwDirs, haccepted.configDisks, List.filter_map, List.filterMap_map]
  simp [and_assoc]

theorem isAbsolute_of_validateDisk
    {pathExists : String → Bool} {disk : ProtoDiskConfig}
    (hok : validateDisk pathExists disk = .ok ()) :
    isAbsolute disk.path.toList = true := by
  have hpath := (validateDisk_eq_ok.mp hok).1
  unfold validateFilePath at hpath
  split_ifs at hpath with hempty hrelative hmissing
  · cases hpath
  · cases hpath
  · cases hpath
  · rw [ne_eq, not_not] at hrelative
    simp [isAbsolute, hrelative]

theorem needed_iff
    {pathExists : String → Bool} {req : CreateVmRequest}
    {arguments : CreateArguments}
    (haccepted : Accepted pathExists req arguments)
    (hid : validateVmId req.vmId = .ok ()) {dir : List Component} :
    Needed cfg req dir ↔
      ∃ text ∈ (cfg.runDir.toList ++ '/' :: req.vmId.toList) ::
        rwDirs arguments.config, components text = dir := by
  rw [Needed, isParent_iff, parent_qmpSocket _ hid]
  simp only [List.mem_cons, exists_eq_or_imp, mem_rwDirs haccepted,
    isParent_iff, Option.some.injEq, exists_eq_left']
  constructor
  · rintro (hrunDir | ⟨disk, hdisk, hwritable, text, hparent, htext⟩)
    · exact .inl hrunDir
    · exact .inr ⟨text, ⟨disk, hdisk, hwritable, hparent⟩, htext⟩
  · rintro (hrunDir | ⟨text, ⟨disk, hdisk, hwritable, hparent⟩, htext⟩)
    · exact .inl hrunDir
    · exact .inr ⟨disk, hdisk, hwritable, text, hparent, htext⟩

theorem validateVmId_of_translateRequest
    {pathExists : String → Bool} {req : CreateVmRequest}
    {arguments : CreateArguments}
    (hok : translateRequest pathExists req = .ok arguments) :
    validateVmId req.vmId = .ok () := by
  simp only [translateRequest, bind_eq_ok] at hok
  obtain ⟨_, hid, -⟩ := hok
  exact hid

/-- For every accepted request whose launch is prepared: the unit is started,
and its property names exactly the run directory and the parents of the
writable disks if and only if there is no blank in the node's run directory
and none in a directory on the way to a writable disk. -/
theorem write_paths_exact_iff
    (node : Node cfg) (calls : CreateCalls) (pathExists : String → Bool)
    (req : CreateVmRequest) (arguments : CreateArguments)
    (macAddr : String) (launch : Launch)
    (hok : translateRequest pathExists req = .ok arguments)
    (hlaunch : (node.prepareLaunch calls arguments.config
      arguments.numaHint macAddr).1 = .ok launch) :
    ∃ command, launch.unit cfg = .ok command ∧
      (WritePathsExact cfg req command ↔
        Blankless cfg.runDir.toList ∧
          ∀ disk ∈ req.disks, disk.readonly = false →
            ∀ dir, IsParent dir disk.path.toList →
              ∀ name, .normal name ∈ dir → Blankless name) := by
  have haccepted := translateRequest_accepted hok
  have hid := validateVmId_of_translateRequest hok
  have hconfigId : validateVmId arguments.config.vmId = .ok () := by
    rw [haccepted.vmId]
    exact hid
  obtain ⟨command, hunit, hpaths⟩ := Launch.unit_eq_ok hconfigId hlaunch
  rw [haccepted.vmId] at hpaths
  refine ⟨command, hunit, ?_⟩
  have hnonempty : ∀ text ∈ (cfg.runDir.toList ++ '/' ::
      req.vmId.toList) :: rwDirs arguments.config, text ≠ [] := by
    rw [List.forall_mem_cons]
    refine ⟨by simp, ?_⟩
    intro text htext
    obtain ⟨disk, hdisk, -, hparent⟩ := (mem_rwDirs haccepted).mp htext
    exact parent_ne_nil
      (isAbsolute_of_validateDisk (haccepted.disks disk hdisk)) hparent
  have hdenote := words_denote_iff hnonempty
  unfold WritePathsExact Granted
  simp only [hpaths, needed_iff haccepted hid]
  rw [hdenote, List.forall_mem_cons, blankless_runDir_iff _ hid]
  refine and_congr_right fun _ => ?_
  constructor
  · intro hdirs disk hdisk hwritable dir hdir
    obtain ⟨text, hparent, rfl⟩ := isParent_iff.mp hdir
    exact blankless_iff_names.mpr (hdirs text
      ((mem_rwDirs haccepted).mpr ⟨disk, hdisk, hwritable, hparent⟩))
  · intro hnames text htext
    obtain ⟨disk, hdisk, hwritable, hparent⟩ :=
      (mem_rwDirs haccepted).mp htext
    exact blankless_iff_names.mp (hnames disk hdisk hwritable
      (components text) (isParent_of_parent hparent))

/-! ## A plain directory, and one with a blank in its name -/

def writableRequest (path : String) : CreateVmRequest :=
  bootRequest "" "" [⟨path, false, "raw"⟩]

def writableArguments (path : String) : CreateArguments :=
  bootArguments none none [⟨path, false, "raw"⟩]

theorem write_paths_exact_in_plain_directory :
    ∃ launch, (hugepageNode.prepareLaunch createSucceeds
        (writableArguments "/var/lib/vms/disk.img").config none
        "52:54:00:00:64:02").1 = .ok launch ∧
      ∃ command, launch.unit hugepageHost = .ok command ∧
        (WritePathsExact hugepageHost
            (writableRequest "/var/lib/vms/disk.img") command ↔
          Blankless hugepageHost.runDir.toList ∧
            ∀ disk ∈ (writableRequest "/var/lib/vms/disk.img").disks,
              disk.readonly = false →
                ∀ dir, IsParent dir disk.path.toList →
                  ∀ name, .normal name ∈ dir → Blankless name) := by
  have hok : (hugepageNode.prepareLaunch createSucceeds
      (writableArguments "/var/lib/vms/disk.img").config none
      "52:54:00:00:64:02").1.isOk = true := by
    decide
  obtain ⟨launch, hlaunch⟩ := exists_of_isOk hok
  exact ⟨launch, hlaunch, write_paths_exact_iff hugepageNode
    createSucceeds (fun _ => true)
    (writableRequest "/var/lib/vms/disk.img")
    (writableArguments "/var/lib/vms/disk.img") "52:54:00:00:64:02" launch
    (by decide) hlaunch⟩

/-- The unit of a machine whose disk lies in such a directory may write to
`/etc`. -/
theorem write_paths_widened :
    translateRequest (fun _ => true)
        (writableRequest "/var/lib/vms/x /etc/disk.img") =
      .ok (writableArguments "/var/lib/vms/x /etc/disk.img") ∧
    ∃ launch, (hugepageNode.prepareLaunch createSucceeds
        (writableArguments "/var/lib/vms/x /etc/disk.img").config none
        "52:54:00:00:64:02").1 = .ok launch ∧
      ∃ command, launch.unit hugepageHost = .ok command ∧
        Granted command [.rootDir, .normal "etc".toList] ∧
        ¬ Needed hugepageHost
          (writableRequest "/var/lib/vms/x /etc/disk.img")
          [.rootDir, .normal "etc".toList] ∧
        ¬ WritePathsExact hugepageHost
          (writableRequest "/var/lib/vms/x /etc/disk.img") command := by
  have htranslated : translateRequest (fun _ => true)
        (writableRequest "/var/lib/vms/x /etc/disk.img") =
      .ok (writableArguments "/var/lib/vms/x /etc/disk.img") := by
    decide
  have hok : (hugepageNode.prepareLaunch createSucceeds
      (writableArguments "/var/lib/vms/x /etc/disk.img").config none
      "52:54:00:00:64:02").1.isOk = true := by
    decide
  obtain ⟨launch, hlaunch⟩ := exists_of_isOk hok
  have hid := validateVmId_of_translateRequest htranslated
  obtain ⟨command, hunit, hpaths⟩ := Launch.unit_eq_ok hid hlaunch
  have hgranted : Granted command [.rootDir, .normal "etc".toList] := by
    refine ⟨"/etc".toList, ?_, by decide⟩
    rw [hpaths]
    decide
  have hneedless : ¬ Needed hugepageHost
      (writableRequest "/var/lib/vms/x /etc/disk.img")
      [.rootDir, .normal "etc".toList] := by
    rw [needed_iff (translateRequest_accepted htranslated) hid]
    decide
  refine ⟨htranslated, launch, hlaunch, command, hunit, hgranted,
    hneedless, ?_⟩
  intro hexact
  exact hneedless ((hexact _).mp hgranted)

end AlephCvm.Vm
