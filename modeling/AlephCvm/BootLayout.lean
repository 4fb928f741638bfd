import AlephCvm.GuestInit
import AlephCvm.NumaRecovery

/-!
# The disks of a machine and the devices its guest opens

The command that `create_vm` hands to QEMU is read back option by option, and
the init script is run on the kernel command line and the devices that come
out.  The hash trees are inserted where the script looks for them, and the
values that it extracts are the root hashes that were written.
-/

namespace AlephCvm.Qemu

open ResultContext GreedyMatch AlephCvm.Tee AlephCvm.GuestInit

/-! ## Reading a command -/

/-- The options without a value that occur in the commands. -/
def switches : List String :=
  ["-enable-kvm", "-nographic", "-no-reboot", "-nodefaults"]

/-- The options of a command with their values. -/
def readOptions : List String → List (String × String)
  | [] => []
  | [name] => [(name, "")]
  | name :: value :: rest =>
      if name ∈ switches then (name, "") :: readOptions (value :: rest)
      else (name, value) :: readOptions rest

def optionValues (name : String) (command : List String) : List String :=
  ((readOptions command.tail).filter fun option => option.1 == name).map
    Prod.snd

/-- The value of the `-drive` option of a disk. -/
def driveOption (disk : DiskConfig) : String :=
  let readonly := if disk.readonly then "on" else "off"
  s!"file={disk.path},format={disk.format},if=virtio," ++
    s!"readonly={readonly}"

theorem driveArgs_eq_ok
    {disk : DiskConfig} {args : List String}
    (hargs : driveArgs disk = .ok args) :
    args = ["-drive", driveOption disk] := by
  unfold driveArgs at hargs
  split at hargs
  · cases hargs
  · split at hargs
    · cases hargs
    · simpa [driveOption] using hargs.symm

theorem drives_eq
    {disks : List DiskConfig} {drives : List (List String)}
    (hdrives : disks.mapM driveArgs = .ok drives) :
    drives = disks.map fun disk => ["-drive", driveOption disk] := by
  induction disks generalizing drives with
  | nil =>
      simpa [pure, Except.pure] using hdrives.symm
  | cons disk rest ih =>
      obtain ⟨args, others, hargs, hothers, hequal⟩ :=
        mapM_cons_eq_ok.1 hdrives
      rw [hequal, driveArgs_eq_ok hargs, ih hothers]
      rfl

theorem readOptions_drives (disks : List DiskConfig) (rest : List String) :
    readOptions
        ((disks.map fun disk => ["-drive", driveOption disk]).flatten ++
          rest) =
      (disks.map fun disk => ("-drive", driveOption disk)) ++
        readOptions rest := by
  induction disks with
  | nil => rfl
  | cons disk disks ih =>
      simp [readOptions, ih, switches]

theorem readOptions_backend (backend : TeeBackend) (config : VmConfig) :
    ∀ option ∈ readOptions (backend.qemuArgs config),
      option.1 ≠ "-drive" ∧ option.1 ≠ "-append" := by
  cases backend with
  | sevSnp ovmfPath =>
      simp [TeeBackend.qemuArgs, sevSnpQemuArgs, readOptions, switches]
  | noTee =>
      simp [TeeBackend.qemuArgs, readOptions, switches]

def appendOptions (config : VmConfig) (kernelCmdline : Option String) :
    List String :=
  if config.kernel.isSome ∧ config.initrd.isSome then kernelCmdline.toList
  else []

/-- The options that say what is booted. -/
def bootOptions (config : VmConfig) (kernelCmdline : Option String) :
    List (String × String) :=
  match config.kernel, config.initrd with
  | some kernel, some initrd =>
      ("-kernel", kernel) :: ("-initrd", initrd) ::
        kernelCmdline.toList.map fun cmdline => ("-append", cmdline)
  | _, _ => [("-boot", "order=c")]

theorem readOptions_switch
    {name : String} (hname : name ∈ switches) (rest : List String) :
    readOptions (name :: rest) = (name, "") :: readOptions rest := by
  cases rest with
  | nil => rfl
  | cons value rest => simp [readOptions, hname]

theorem readOptions_boot
    (config : VmConfig) (kernelCmdline : Option String)
    (rest : List String) :
    readOptions (bootArgs config kernelCmdline ++ rest) =
      bootOptions config kernelCmdline ++ readOptions rest := by
  unfold bootArgs bootOptions
  cases config.kernel with
  | none => simp [readOptions, switches]
  | some kernel =>
      cases config.initrd with
      | none => simp [readOptions, switches]
      | some initrd =>
          cases kernelCmdline <;> simp [readOptions, switches]

/-- All options of a command, in their order. -/
theorem readOptions_of_command
    {config : VmConfig} {paths : QemuPaths} {tap mac : String}
    {backend : TeeBackend} {kernelCmdline : Option String}
    {args : List String}
    (hargs : buildQemuCommand config paths tap backend mac kernelCmdline =
      .ok args) :
    readOptions args =
      [("-enable-kvm", ""), ("-smp", toString config.vcpus),
          ("-m", s!"{config.memoryMb}M"), ("-nographic", ""),
          ("-no-reboot", "")] ++
        bootOptions config kernelCmdline ++
        [("-serial", "stdio"),
          ("-qmp", s!"unix:{paths.qmpSocket},server,nowait"),
          ("-netdev", s!"tap,id=net0,ifname={tap},script=no,downscript=no"),
          ("-device", s!"virtio-net-pci,netdev=net0,mac={mac}")] ++
        (config.disks.map fun disk => ("-drive", driveOption disk)) ++
        readOptions (backend.qemuArgs config) := by
  unfold buildQemuCommand at hargs
  simp only [bind_eq_ok, pure_eq_ok] at hargs
  obtain ⟨drives, hdrives, hequal⟩ := hargs
  have hfront : ∀ rest, readOptions ("-no-reboot" :: rest) =
      ("-no-reboot", "") :: readOptions rest :=
    readOptions_switch (by decide)
  rw [← hequal, drives_eq hdrives]
  simp only [List.append_assoc, List.cons_append, List.nil_append]
  simp [readOptions, switches, hfront, readOptions_boot, readOptions_drives]

/-- The command has one `-drive` option for each disk, in the same order, and
the kernel command line when a kernel is booted directly. -/
theorem options_of_command
    (program : String)
    {config : VmConfig} {paths : QemuPaths} {tap mac : String}
    {backend : TeeBackend} {kernelCmdline : Option String}
    {args : List String}
    (hargs : buildQemuCommand config paths tap backend mac kernelCmdline =
      .ok args) :
    optionValues "-drive" (program :: args) =
        config.disks.map driveOption ∧
      optionValues "-append" (program :: args) =
        appendOptions config kernelCmdline := by
  have hbackend := readOptions_backend backend config
  have hnoDrive : (readOptions (backend.qemuArgs config)).filter
      (fun option => option.1 == "-drive") = [] := by
    rw [List.filter_eq_nil_iff]
    intro option hoption
    simpa using (hbackend option hoption).1
  have hnoAppend : (readOptions (backend.qemuArgs config)).filter
      (fun option => option.1 == "-append") = [] := by
    rw [List.filter_eq_nil_iff]
    intro option hoption
    simpa using (hbackend option hoption).2
  rw [optionValues, optionValues, List.tail_cons,
    readOptions_of_command hargs]
  cases hkernel : config.kernel with
  | none =>
      simp [bootOptions, appendOptions, hkernel, hnoDrive, hnoAppend,
        List.filter_map, Function.comp_def]
  | some kernel =>
      cases hinitrd : config.initrd with
      | none =>
          simp [bootOptions, appendOptions, hkernel, hinitrd, hnoDrive,
            hnoAppend, List.filter_map, Function.comp_def]
      | some initrd =>
          cases kernelCmdline <;>
            simp [bootOptions, appendOptions, hkernel, hinitrd, hnoDrive,
              hnoAppend, List.filter_map, Function.comp_def]

/-! ## The values that the script extracts -/

/-- A root hash as `veritysetup` prints it. -/
def HexHash (hash : String) : Prop :=
  hash.toList ≠ [] ∧ ∀ digit ∈ hash.toList, isHexDigit digit = true

theorem HexHash.not_mem
    {hash : String} (hhash : HexHash hash) {symbol : Char}
    (hsymbol : isHexDigit symbol = false) : symbol ∉ hash.toList := by
  intro hmem
  rw [hhash.2 symbol hmem] at hsymbol
  cases hsymbol

theorem HexHash.takeWhile
    {hash : String} (hhash : HexHash hash) {rest : List Char}
    (hrest : rest.head?.all fun symbol => !isHexDigit symbol) :
    (hash.toList ++ rest).takeWhile isHexDigit = hash.toList := by
  rw [List.takeWhile_append_of_pos hhash.2]
  cases rest with
  | nil => simp
  | cons symbol rest => simp_all

def workloadKey : List Char := " workload_roothash=".toList

def workloadSuffix : Option String → List Char
  | none => []
  | some hash => workloadKey ++ hash.toList

def verityFront : List Char :=
  "console=ttyS0 root=/dev/mapper/verity-root ro ".toList

theorem verityFront_roothash :
    "console=ttyS0 root=/dev/mapper/verity-root ro roothash=".toList =
      verityFront ++ roothashPattern.key := by
  decide

theorem verityCmdline_toList
    (hash : String) (workloadHash : Option String) :
    (buildKernelCmdline (some hash) workloadHash false).toList =
      verityFront ++
        (roothashPattern.key ++
          (hash.toList ++ workloadSuffix workloadHash)) := by
  unfold buildKernelCmdline
  rw [if_neg Bool.false_ne_true, String.toList_append,
    String.toList_append, ← List.append_assoc, ← verityFront_roothash]
  generalize
    "console=ttyS0 root=/dev/mapper/verity-root ro roothash=".toList = front
  cases workloadHash with
  | none =>
      dsimp only [workloadSuffix]
      rw [String.toList_empty, List.append_assoc]
      rfl
  | some workloadHash =>
      dsimp only [workloadSuffix]
      rw [String.toList_append, List.append_assoc]
      rfl

/-! A root hash has no symbol that starts a key, and neither key starts in
the fixed parts of the command line. -/

theorem lastMatch_hash
    {pattern : Pattern Char} {first : Char} {others : List Char}
    (hkey : pattern.key = first :: others)
    (hfirst : isHexDigit first = false) {hash : String}
    (hhash : HexHash hash) (previous : Option Char) :
    pattern.lastMatch previous hash.toList = none :=
  pattern.lastMatch_eq_none_of_absent hkey (hhash.not_mem hfirst) previous

theorem roothash_key : roothashPattern.key = 'r' :: "oothash=".toList := by
  decide

theorem roothash_further :
    roothashPattern.missesIn "oothash=".toList = true := by
  decide

theorem workloadSuffix_some (hash : String) :
    workloadSuffix (some hash) =
      " workload_".toList ++ ('r' :: ("oothash=".toList ++ hash.toList)) := by
  have hfront : workloadKey =
      " workload_".toList ++ ('r' :: "oothash=".toList) := by
    decide
  dsimp only [workloadSuffix]
  rw [hfront, List.append_assoc, List.cons_append]

theorem roothash_workloadSuffix
    {workloadHash : Option String}
    (hworkload : ∀ hash, workloadHash = some hash → HexHash hash)
    (previous : Option Char) :
    roothashPattern.lastMatch previous (workloadSuffix workloadHash) =
      none := by
  cases workloadHash with
  | none =>
      cases previous <;> rfl
  | some hash =>
      have hfront : roothashPattern.missesIn " workload_".toList = true := by
        decide
      have hlast : lastSymbol previous " workload_".toList = some '_' :=
        lastSymbol_of_getLast? (by decide) previous
      have hblocked : roothashPattern.allowedAfter (some '_') = false := by
        decide
      rw [workloadSuffix_some, Pattern.lastMatch_append_of_misses hfront,
        hlast, Pattern.lastMatch_cons_of_not_here (by simp [hblocked]),
        Pattern.lastMatch_append_of_misses roothash_further,
        lastMatch_hash roothash_key (by decide) (hworkload hash rfl)]

theorem roothash_verityCmdline
    {hash : String} {workloadHash : Option String} (hhash : HexHash hash)
    (hworkload : ∀ other, workloadHash = some other → HexHash other) :
    roothashPattern.lastMatch none
        (buildKernelCmdline (some hash) workloadHash false).toList =
      some hash.toList := by
  have hrest : ∀ previous, roothashPattern.lastMatch previous
      (hash.toList ++ workloadSuffix workloadHash) = none := by
    intro previous
    rw [Pattern.lastMatch_append_of_absent roothash_key
      (hhash.not_mem (by decide))]
    exact roothash_workloadSuffix hworkload _
  have hcaptured : (hash.toList ++ workloadSuffix workloadHash).takeWhile
      roothashPattern.captures = hash.toList := by
    apply hhash.takeWhile
    cases workloadHash with
    | none => rfl
    | some other => rfl
  rw [verityCmdline_toList]
  apply Pattern.lastMatch_append_of_some
  rw [Pattern.lastMatch_key roothash_key, hcaptured]
  · decide
  · rw [Pattern.lastMatch_append_of_misses roothash_further]
    exact hrest _

theorem workloadRoothash_key :
    workloadRoothashPattern.key = 'w' :: "orkload_roothash=".toList := by
  decide

/-- The part of the command line before the workload's hash. -/
theorem workloadRoothash_front
    {hash : String} (hhash : HexHash hash) (previous : Option Char)
    (rest : List Char) :
    workloadRoothashPattern.lastMatch previous
        (verityFront ++ (roothashPattern.key ++ (hash.toList ++ rest))) =
      workloadRoothashPattern.lastMatch
        (lastSymbol (some '=') hash.toList) rest := by
  have hfront : 'w' ∉ verityFront ++ roothashPattern.key := by
    decide
  have hlast : lastSymbol previous (verityFront ++ roothashPattern.key) =
      some '=' :=
    lastSymbol_of_getLast? (by decide) previous
  rw [← List.append_assoc,
    Pattern.lastMatch_append_of_absent workloadRoothash_key hfront, hlast,
    Pattern.lastMatch_append_of_absent workloadRoothash_key
      (hhash.not_mem (by decide))]

theorem workloadRoothash_verityCmdline
    {hash : String} {workloadHash : Option String} (hhash : HexHash hash)
    (hworkload : ∀ other, workloadHash = some other → HexHash other) :
    workloadRoothashPattern.lastMatch none
        (buildKernelCmdline (some hash) workloadHash false).toList =
      workloadHash.map String.toList := by
  rw [verityCmdline_toList, workloadRoothash_front hhash]
  cases workloadHash with
  | none => rfl
  | some other =>
      have hother := hworkload other rfl
      have hsuffix : workloadSuffix (some other) =
          [' '] ++ (workloadRoothashPattern.key ++ other.toList) := by
        have hkey : workloadKey =
            [' '] ++ workloadRoothashPattern.key := by
          decide
        dsimp only [workloadSuffix]
        rw [hkey, List.append_assoc]
      have hcaptured : other.toList.takeWhile
          workloadRoothashPattern.captures = other.toList :=
        List.takeWhile_eq_self_iff.2 hother.2
      have hfurther : workloadRoothashPattern.missesIn
          "orkload_roothash=".toList = true := by
        decide
      rw [hsuffix]
      apply Pattern.lastMatch_append_of_some
      rw [Pattern.lastMatch_key workloadRoothash_key rfl, hcaptured]
      rw [Pattern.lastMatch_append_of_misses hfurther]
      exact lastMatch_hash workloadRoothash_key (by decide) hother _

theorem luks_key : luksPattern.key = 'l' :: "uks=".toList := by
  decide

theorem luks_verityCmdline
    {hash : String} {workloadHash : Option String} (hhash : HexHash hash)
    (hworkload : ∀ other, workloadHash = some other → HexHash other) :
    luksPattern.lastMatch none
        (buildKernelCmdline (some hash) workloadHash false).toList =
      none := by
  have hfront : luksPattern.missesIn (verityFront ++ roothashPattern.key) =
      true := by
    decide
  rw [verityCmdline_toList, ← List.append_assoc,
    Pattern.lastMatch_append_of_misses hfront,
    Pattern.lastMatch_append_of_absent luks_key
      (hhash.not_mem (by decide))]
  cases workloadHash with
  | none => rfl
  | some other =>
      have hsuffix : luksPattern.missesIn workloadKey = true := by
        decide
      dsimp only [workloadSuffix]
      rw [Pattern.lastMatch_append_of_misses hsuffix]
      exact lastMatch_hash luks_key (by decide) (hworkload other rfl) _

theorem verityCmdline_oneLine
    {hash : String} {workloadHash : Option String} (hhash : HexHash hash)
    (hworkload : ∀ other, workloadHash = some other → HexHash other) :
    '\n' ∉ (buildKernelCmdline (some hash) workloadHash false).toList := by
  have hfront : '\n' ∉ verityFront ++ roothashPattern.key := by
    decide
  have hbreak : '\n' ∉ hash.toList := hhash.not_mem (by decide)
  have hsuffix : '\n' ∉ workloadSuffix workloadHash := by
    cases workloadHash with
    | none =>
        simp [workloadSuffix]
    | some other =>
        have hkey : '\n' ∉ workloadKey := by
          decide
        have hother : '\n' ∉ other.toList :=
          (hworkload other rfl).not_mem (by decide)
        simp only [workloadSuffix, List.mem_append, not_or]
        exact ⟨hkey, hother⟩
  rw [verityCmdline_toList, ← List.append_assoc]
  simp only [List.mem_append, not_or] at hfront ⊢
  exact ⟨hfront, hbreak, hsuffix⟩

theorem bootMode_verityCmdline
    {hash : String} {workloadHash : Option String} (hhash : HexHash hash)
    (hworkload : ∀ other, workloadHash = some other → HexHash other) :
    bootMode (buildKernelCmdline (some hash) workloadHash false) =
        .verity hash ∧
      workloadRoothash (buildKernelCmdline (some hash) workloadHash false) =
        workloadHash.getD "" := by
  have hline := verityCmdline_oneLine hhash hworkload
  have hluks := luks_verityCmdline hhash hworkload
  have hroothash := roothash_verityCmdline hhash hworkload
  have hworkloadHash := workloadRoothash_verityCmdline hhash hworkload
  have hnonempty : hash ≠ "" := by
    intro hempty
    exact hhash.1 (by simp [hempty])
  generalize buildKernelCmdline (some hash) workloadHash false = cmdline
    at *
  have hluksValue : luks cmdline = "" := by
    rw [luks, sed_of_lastMatch (by simp [luks_key]) hline, hluks]
    rfl
  have hroothashValue : roothash cmdline = hash := by
    rw [roothash, sed_of_lastMatch (by simp [roothash_key]) hline,
      hroothash]
    simp
  have hworkloadValue : workloadRoothash cmdline =
      workloadHash.getD "" := by
    rw [workloadRoothash,
      sed_of_lastMatch (by simp [workloadRoothash_key]) hline,
      hworkloadHash]
    cases workloadHash <;> simp
  exact ⟨by simp [bootMode, hluksValue, hroothashValue, hnonempty],
    hworkloadValue⟩

/-- An encrypted machine is told so and nothing else. -/
theorem bootMode_luksCmdline (hash workloadHash : Option String) :
    bootMode (buildKernelCmdline hash workloadHash true) = .luks := by
  have hcmdline :
      buildKernelCmdline hash workloadHash true = "console=ttyS0 luks=1" :=
    rfl
  rw [hcmdline]
  decide

end AlephCvm.Qemu

/-! ## The machine and its guest -/

namespace AlephCvm.Vm

open ResultContext AlephCvm.Tee AlephCvm.Qemu AlephCvm.GuestInit
open AlephCvm.Net

variable {cfg : NodeConfig}

/-- Everything that went into a command. -/
theorem Node.prepareLaunch_built
    {node : Node cfg} {calls : CreateCalls} {config : VmConfig}
    {numaHint : Option UInt32} {macAddr : String} {launch : Launch}
    (hlaunch : (node.prepareLaunch calls config numaHint macAddr).1 =
      .ok launch) :
    ∃ backend cmdline disks args,
      cfg.backends config.tee.backend = some backend ∧
        prepareBoot calls.verity config = .ok (cmdline, disks) ∧
        launch.config = placedConfig config disks
          cfg.topology.nodes.length launch.placement ∧
        buildQemuCommand launch.config (.forVm cfg.runDir config.vmId)
          (tapName config.vmId) backend macAddr cmdline = .ok args ∧
        launch.command = "qemu-system-x86_64" :: args := by
  unfold Node.prepareLaunch at hlaunch
  cases hbackend : cfg.backends config.tee.backend with
  | none =>
      simp [hbackend] at hlaunch
  | some backend =>
      cases hboot : prepareBoot calls.verity config with
      | error message =>
          simp [hbackend, hboot] at hlaunch
      | ok boot =>
          obtain ⟨cmdline, disks⟩ := boot
          cases hallocate : node.numa.allocate config.vcpus config.memoryMb
              numaHint (isConfidential config) with
          | error message =>
              simp [hbackend, hboot, hallocate] at hlaunch
          | ok placed =>
              obtain ⟨placement, numa⟩ := placed
              simp only [hbackend, hboot, hallocate] at hlaunch
              split at hlaunch
              · cases hlaunch
              · rename_i args hargs
                cases hlaunch
                exact ⟨backend, cmdline, disks, args, rfl, rfl, rfl, hargs,
                  rfl⟩

theorem Node.prepareLaunch_ok
    {node : Node cfg} {calls : CreateCalls} {config : VmConfig}
    {numaHint : Option UInt32} {macAddr : String} {launch : Launch}
    (hlaunch : (node.prepareLaunch calls config numaHint macAddr).1 =
      .ok launch) :
    ∃ cmdline disks,
      prepareBoot calls.verity config = .ok (cmdline, disks) ∧
        optionValues "-drive" launch.command = disks.map driveOption ∧
        optionValues "-append" launch.command =
          appendOptions config cmdline := by
  obtain ⟨backend, cmdline, disks, args, -, hboot, hconfig, hargs,
    hcommand⟩ := Node.prepareLaunch_built hlaunch
  obtain ⟨hdrives, happend⟩ := options_of_command "qemu-system-x86_64" hargs
  rw [← hcommand, hconfig] at hdrives happend
  exact ⟨cmdline, disks, hboot, hdrives, happend⟩

/-- The command carries these disks and this kernel command line, and a guest
with both opens these volumes and reads the disks in no other way. -/
structure BootAgrees (command : List String) (config : VmConfig)
    (cmdline : String) (disks : List DiskConfig)
    (openings : List GuestInit.Command) : Prop where
  drives : optionValues "-drive" command = disks.map driveOption
  append : optionValues "-append" command =
    appendOptions config (some cmdline)
  reads : ∀ guest : Guest,
    guest.Attached cmdline (optionValues "-drive" command) →
      guest.diskReads <+: openings
  opens : ∀ guest : Guest,
    guest.Attached cmdline (optionValues "-drive" command) →
      guest.passphraseInjected = true →
      (∀ action, guest.succeeds action = true) →
        guest.diskReads = openings

theorem BootAgrees.of_verity
    {command : List String} {config : VmConfig} {hash : String}
    {workloadHash : Option String} {disks : List DiskConfig}
    (hhash : HexHash hash)
    (hworkload : ∀ other, workloadHash = some other → HexHash other)
    (hdrives : optionValues "-drive" command = disks.map driveOption)
    (happend : optionValues "-append" command = appendOptions config
      (some (buildKernelCmdline (some hash) workloadHash false)))
    (htwo : 2 ≤ disks.length)
    (hfour : workloadHash.isSome = true → 4 ≤ disks.length) :
    BootAgrees command config
      (buildKernelCmdline (some hash) workloadHash false) disks
      (verityOpenings hash (workloadHash.getD "")) := by
  obtain ⟨hmode, hvalue⟩ := bootMode_verityCmdline hhash hworkload
  have hreads : ∀ guest : Guest, guest.Attached
      (buildKernelCmdline (some hash) workloadHash false)
      (optionValues "-drive" command) →
        guest.diskReads <+: verityOpenings hash (workloadHash.getD "") ∧
          ((∀ action, guest.succeeds action = true) →
            guest.diskReads =
              verityOpenings hash (workloadHash.getD "")) := by
    intro guest hattached
    have hlength : (optionValues "-drive" command).length =
        disks.length := by
      rw [hdrives, List.length_map]
    have hdevices : guest.HasDevices (workloadHash.getD "") := by
      apply hattached.hasDevices (by omega)
      intro hnonempty
      rw [hlength]
      apply hfour
      cases workloadHash with
      | none => simp at hnonempty
      | some other => rfl
    rw [← hattached.cmdline_eq] at hmode hvalue
    rw [← hvalue] at hdevices ⊢
    exact guest.diskReads_verity hmode hdevices
  exact ⟨hdrives, happend, fun guest hattached =>
    (hreads guest hattached).1, fun guest hattached _ =>
    (hreads guest hattached).2⟩

theorem BootAgrees.of_luks
    {command : List String} {config : VmConfig} {disks : List DiskConfig}
    (hdrives : optionValues "-drive" command = disks.map driveOption)
    (happend : optionValues "-append" command = appendOptions config
      (some (buildKernelCmdline none none true)))
    (hone : 1 ≤ disks.length) :
    BootAgrees command config (buildKernelCmdline none none true) disks
      [.luksOpen "/dev/vda" "cryptroot"] := by
  have hreads : ∀ guest : Guest, guest.Attached
      (buildKernelCmdline none none true) (optionValues "-drive" command) →
        guest.diskReads =
          if guest.passphraseInjected then
            [.luksOpen "/dev/vda" "cryptroot"]
          else [] := by
    intro guest hattached
    have hlength : (optionValues "-drive" command).length =
        disks.length := by
      rw [hdrives, List.length_map]
    have hmode : bootMode guest.cmdline = .luks := by
      rw [hattached.cmdline_eq]
      exact bootMode_luksCmdline none none
    have hfirst : (List.range 1).map virtioDevice = ["/dev/vda"] := by
      simp [virtioDevice, diskLetters, List.range_succ]
    have hdevice : "/dev/vda" ∈ guest.blockDevices := by
      apply hattached.mem_devices (by omega : 1 ≤ _)
      rw [hfirst]
      simp
    exact Guest.diskReads_luks hmode (Guest.blkdev_eq hdevice)
  refine ⟨hdrives, happend, ?_, ?_⟩
  · intro guest hattached
    rw [hreads guest hattached]
    split
    · exact List.prefix_rfl
    · exact List.nil_prefix
  · intro guest hattached hinjected _
    rw [hreads guest hattached, if_pos hinjected]

/-- Disk layout, kernel command line and init script agree.  An encrypted
machine keeps its disks and is unlocked with LUKS; any other confidential
machine has the hash tree of its first disk behind it, and that of its second
disk behind the second, and the script opens these pairs with the root hashes
that were computed for them. -/
theorem boot_layout_agrees
    (node : Node cfg) (calls : CreateCalls) (config : VmConfig)
    (numaHint : Option UInt32) (macAddr : String) (launch : Launch)
    (hconfidential : isConfidential config = true)
    (hdisks : config.disks ≠ [])
    (hlaunch : (node.prepareLaunch calls config numaHint macAddr).1 =
      .ok launch) :
    (config.encrypted = true →
      BootAgrees launch.command config (buildKernelCmdline none none true)
        config.disks [.luksOpen "/dev/vda" "cryptroot"]) ∧
    (config.encrypted = false →
      ∀ rootfs info, config.disks = [rootfs] →
        ensureVerity calls.verity.rootfs rootfs.path = .ok info →
        HexHash info.rootHash →
          BootAgrees launch.command config
            (buildKernelCmdline (some info.rootHash) none false)
            [rootfs, hashtreeDisk info]
            [.verityOpen "/dev/vda" "verity-root" "/dev/vdb"
              info.rootHash]) ∧
    (config.encrypted = false →
      ∀ rootfs workload others info workloadInfo,
        config.disks = rootfs :: workload :: others →
        ensureVerity calls.verity.rootfs rootfs.path = .ok info →
        ensureVerity calls.verity.workload workload.path =
          .ok workloadInfo →
        HexHash info.rootHash → HexHash workloadInfo.rootHash →
          BootAgrees launch.command config
            (buildKernelCmdline (some info.rootHash)
              (some workloadInfo.rootHash) false)
            (rootfs :: hashtreeDisk info :: workload ::
              hashtreeDisk workloadInfo :: others)
            [.verityOpen "/dev/vda" "verity-root" "/dev/vdb"
                info.rootHash,
              .verityOpen "/dev/vdc" "verity-workload" "/dev/vdd"
                workloadInfo.rootHash]) := by
  obtain ⟨cmdline, disks, hboot, hdrives, happend⟩ :=
    Node.prepareLaunch_ok hlaunch
  unfold prepareBoot at hboot
  rw [if_neg (by simp [hconfidential])] at hboot
  refine ⟨?_, ?_, ?_⟩
  · intro hencrypted
    rw [if_pos hencrypted] at hboot
    cases hboot
    exact .of_luks hdrives happend
      (List.length_pos_iff.2 hdisks)
  · intro hencrypted rootfs info hone hinfo hhash
    rw [if_neg (by simp [hencrypted]), hone] at hboot
    simp only [hinfo, context, bind, Except.bind, pure, Except.pure]
      at hboot
    cases hboot
    have hagrees := BootAgrees.of_verity hhash (by simp) hdrives happend
      (by simp) (by simp)
    simpa [verityOpenings] using hagrees
  · intro hencrypted rootfs workload others info workloadInfo hmany hinfo
      hworkloadInfo hhash hworkloadHash
    rw [if_neg (by simp [hencrypted]), hmany] at hboot
    simp only [hinfo, hworkloadInfo, context, bind, Except.bind, pure,
      Except.pure] at hboot
    cases hboot
    have hnonempty : workloadInfo.rootHash ≠ "" := by
      intro hempty
      exact hworkloadHash.1 (by simp [hempty])
    have hworkload : ∀ other, some workloadInfo.rootHash = some other →
        HexHash other := by
      intro other hother
      cases hother
      exact hworkloadHash
    have hagrees := BootAgrees.of_verity hhash hworkload hdrives happend
      (by simp) (by simp)
    simpa [verityOpenings, hnonempty] using hagrees

/-- A file that was written after the image. -/
def cachedVerity (content : String) : VerityFiles where
  hashtreeExists := true
  roothashExists := true
  rootfsMtime := some 0
  cacheMtime := some 1
  cachedRoothash := .ok content
  veritysetup := .error ""
  writeRoothash := .error ""

def hugepageNode : Node hugepageHost :=
  .fresh hugepageHost ∅ supervisorRuleset ∅ ∅

def imageDisk (path : String) : DiskConfig := ⟨path, true, "raw"⟩

/-- A confidential machine that fits the host. -/
def confidentialConfig (disks : List DiskConfig) : VmConfig :=
  { smallConfig "vm-a" .sevSnp with memoryMb := 4, disks := disks }

def cachedCalls (rootfs workload : String) : CreateCalls :=
  { createSucceeds with
    verity := ⟨cachedVerity rootfs, cachedVerity workload⟩ }

def twoImages : List DiskConfig :=
  [imageDisk "/images/rootfs", imageDisk "/images/app"]

theorem boot_layout_agrees_two_disks :
    ∃ launch,
      (hugepageNode.prepareLaunch (cachedCalls "00ff\n" "a1")
        (confidentialConfig twoImages) none "52:54:00:00:64:02").1 =
          .ok launch ∧
      BootAgrees launch.command (confidentialConfig twoImages)
        (buildKernelCmdline (some "00ff") (some "a1") false)
        [imageDisk "/images/rootfs", imageDisk "/images/rootfs.verity",
          imageDisk "/images/app", imageDisk "/images/app.verity"]
        [.verityOpen "/dev/vda" "verity-root" "/dev/vdb" "00ff",
          .verityOpen "/dev/vdc" "verity-workload" "/dev/vdd" "a1"] := by
  have hok : (hugepageNode.prepareLaunch (cachedCalls "00ff\n" "a1")
      (confidentialConfig twoImages) none "52:54:00:00:64:02").1.isOk =
        true := by
    decide
  have hhash : HexHash "00ff" :=
    ⟨by decide, List.all_eq_true.mp (by decide)⟩
  have hworkload : HexHash "a1" :=
    ⟨by decide, List.all_eq_true.mp (by decide)⟩
  obtain ⟨launch, hlaunch⟩ := exists_of_isOk hok
  have hagrees := boot_layout_agrees hugepageNode
    (cachedCalls "00ff\n" "a1") (confidentialConfig twoImages) none
    "52:54:00:00:64:02" launch (by decide) (by decide) hlaunch
  exact ⟨launch, hlaunch, hagrees.2.2 rfl _ _ []
    ⟨"00ff", "/images/rootfs.verity"⟩ ⟨"a1", "/images/app.verity"⟩ rfl
    (by decide) (by decide) hhash hworkload⟩

end AlephCvm.Vm
