import AlephCvm.GreedyMatch

/-!
# The init script of the guest

Model of the boot part of `nix/init.sh`.  The script reads three values from
the kernel command line and then unlocks a LUKS volume, opens the disks with
dm-verity, or mounts the first disk as it is.  What is recorded are the
commands that open, mount and start something, in the order of the script; how
a command ends is a property of the guest.
-/

namespace AlephCvm.GuestInit

open GreedyMatch

/-! ## Values of the kernel command line -/

def isWordChar (c : Char) : Bool :=
  c.isAlphanum || c == '_'

/-- `[0-9a-fA-F]` -/
def isHexDigit (c : Char) : Bool :=
  c.isDigit || ('a' ≤ c && c ≤ 'f') || ('A' ≤ c && c ≤ 'F')

/-- `s/.*\broothash=\([0-9a-fA-F]*\).*/\1/p` -/
def roothashPattern : Pattern Char where
  allowedAfter previous := !previous.any isWordChar
  key := "roothash=".toList
  captures := isHexDigit

/-- `s/.*workload_roothash=\([0-9a-fA-F]*\).*/\1/p` -/
def workloadRoothashPattern : Pattern Char where
  allowedAfter _ := true
  key := "workload_roothash=".toList
  captures := isHexDigit

/-- `s/.*luks=\([^ ]*\).*/\1/p` -/
def luksPattern : Pattern Char where
  allowedAfter _ := true
  key := "luks=".toList
  captures c := c != ' '

def sed (pattern : Pattern Char) (cmdline : String) : String :=
  String.ofList (substitution (pattern.print cmdline.toList))

/-- What is extracted from a command line without line breaks. -/
theorem sed_of_lastMatch
    {pattern : Pattern Char} (hkey : pattern.key ≠ []) {cmdline : String}
    (hline : '\n' ∉ cmdline.toList) :
    sed pattern cmdline =
      String.ofList ((pattern.lastMatch none cmdline.toList).getD []) := by
  rw [sed, pattern.substitution_print hkey hline]

def roothash (cmdline : String) : String := sed roothashPattern cmdline

def workloadRoothash (cmdline : String) : String :=
  sed workloadRoothashPattern cmdline

def luks (cmdline : String) : String := sed luksPattern cmdline

/-! ## Booting -/

inductive Command where
  | luksOpen (device name : String)
  | verityOpen (data name hashTree rootHash : String)
  | mount (source target : String) (readonly : Bool)
  | bindMount (source target : String)
  | startAgent
  | startRootfs
  | powerOff
  deriving DecidableEq, Repr

def mapperDevice (name : String) : String := s!"/dev/mapper/{name}"

/-- `blockDevices` are the devices that appear while the script waits. -/
structure Guest where
  cmdline : String
  blockDevices : List String
  passphraseInjected : Bool
  rootfsHasInit : Bool
  succeeds : Command → Bool

/-- The device that the script settles on. -/
def Guest.blkdev (guest : Guest) : Option String :=
  ["/dev/vda", "/dev/sda"].find? fun dev => guest.blockDevices.contains dev

def prepareChroot : List Command :=
  [.bindMount "/proc" "/mnt/root/proc", .bindMount "/sys" "/mnt/root/sys",
    .bindMount "/dev" "/mnt/root/dev"]

def Guest.enterRootfs (guest : Guest) : List Command :=
  prepareChroot ++ if guest.rootfsHasInit then [.startRootfs] else []

def Guest.luksBoot (guest : Guest) (blkdev : String) : List Command :=
  let opening := Command.luksOpen blkdev "cryptroot"
  let mounting := Command.mount (mapperDevice "cryptroot") "/mnt/root" false
  .startAgent ::
    if !guest.passphraseInjected then [.powerOff]
    else if !guest.succeeds opening then [opening, .powerOff]
    else if !guest.succeeds mounting then [opening, mounting, .powerOff]
    else [opening, mounting] ++ guest.enterRootfs

/-- Open a verity volume and mount it; anything that fails powers the machine
off, otherwise the script goes on. -/
def Guest.mountVerity (guest : Guest)
    (data name hashTree rootHash target : String)
    (further : List Command) : List Command :=
  let opening := Command.verityOpen data name hashTree rootHash
  let mounting := Command.mount (mapperDevice name) target true
  if !guest.succeeds opening then [opening, .powerOff]
  else if !guest.succeeds mounting then [opening, mounting, .powerOff]
  else opening :: mounting :: further

def Guest.mountPlain (guest : Guest) (blkdev : String)
    (further : List Command) : List Command :=
  let mounting := Command.mount blkdev "/mnt/root" true
  if guest.succeeds mounting then mounting :: further
  else mounting :: .mount blkdev "/mnt/root" false :: further

def Guest.mountWorkload (guest : Guest) (further : List Command) :
    List Command :=
  if workloadRoothash guest.cmdline = "" then further
  else if !guest.blockDevices.contains "/dev/vdc" then [.powerOff]
  else if !guest.blockDevices.contains "/dev/vdd" then [.powerOff]
  else
    guest.mountVerity "/dev/vdc" "verity-workload" "/dev/vdd"
      (workloadRoothash guest.cmdline) "/mnt/workload"
      (.bindMount "/mnt/workload" "/mnt/root/mnt/workload" :: further)

/-- How the script treats the root file system. -/
inductive BootMode where
  | luks
  | verity (rootHash : String)
  | plain
  deriving DecidableEq, Repr

def bootMode (cmdline : String) : BootMode :=
  if luks cmdline = "1" then .luks
  else if roothash cmdline = "" then .plain
  else .verity (roothash cmdline)

def Guest.boot (guest : Guest) : List Command :=
  match guest.blkdev with
  | none => [.powerOff]
  | some blkdev =>
      let further :=
        guest.mountWorkload (guest.enterRootfs ++ [.startAgent])
      match bootMode guest.cmdline with
      | .luks => guest.luksBoot blkdev
      | .plain => guest.mountPlain blkdev further
      | .verity rootHash =>
          if !guest.blockDevices.contains "/dev/vdb" then [.powerOff]
          else
            guest.mountVerity blkdev "verity-root" "/dev/vdb" rootHash
              "/mnt/root" further

/-! ## What is read from the disks -/

/-- The command works on a disk, not on what was opened from one. -/
def Command.readsDisk : Command → Bool
  | .luksOpen _ _ | .verityOpen _ _ _ _ => true
  | .mount source _ _ => !"/dev/mapper/".toList.isPrefixOf source.toList
  | .bindMount _ _ | .startAgent | .startRootfs | .powerOff => false

def Guest.diskReads (guest : Guest) : List Command :=
  guest.boot.filter Command.readsDisk

/-- The letters that the kernel gives to a virtio disk. -/
def diskLetters (index : ℕ) : List Char :=
  let letter := Char.ofNat (97 + index % 26)
  if index < 26 then [letter]
  else diskLetters (index / 26 - 1) ++ [letter]

def virtioDevice (index : ℕ) : String :=
  "/dev/vd" ++ String.ofList (diskLetters index)

/-- The guest of a machine with this command line and these disks. -/
structure Guest.Attached (guest : Guest) (cmdline : String)
    (drives : List String) : Prop where
  cmdline_eq : guest.cmdline = cmdline
  devices_eq :
    guest.blockDevices = (List.range drives.length).map virtioDevice

theorem virtioDevice_names :
    (List.range 4).map virtioDevice =
      ["/dev/vda", "/dev/vdb", "/dev/vdc", "/dev/vdd"] := by
  simp [virtioDevice, diskLetters, List.range_succ]

@[simp] theorem luksOpen_read (device name : String) :
    (Command.luksOpen device name).readsDisk = true := rfl

@[simp] theorem verityOpen_read (data name hashTree rootHash : String) :
    (Command.verityOpen data name hashTree rootHash).readsDisk = true := rfl

@[simp] theorem bindMount_not_read (source target : String) :
    (Command.bindMount source target).readsDisk = false := rfl

@[simp] theorem startAgent_not_read :
    Command.startAgent.readsDisk = false := rfl

@[simp] theorem startRootfs_not_read :
    Command.startRootfs.readsDisk = false := rfl

@[simp] theorem powerOff_not_read :
    Command.powerOff.readsDisk = false := rfl

theorem Guest.blkdev_eq
    {guest : Guest} (hdevice : "/dev/vda" ∈ guest.blockDevices) :
    guest.blkdev = some "/dev/vda" := by
  simp [Guest.blkdev, hdevice]

theorem enterRootfs_reads (guest : Guest) :
    guest.enterRootfs.filter Command.readsDisk = [] := by
  cases hinit : guest.rootfsHasInit <;>
    simp [Guest.enterRootfs, prepareChroot, hinit]

@[simp] theorem mapper_not_read (name target : String) (readonly : Bool) :
    (Command.mount (mapperDevice name) target readonly).readsDisk =
      false := by
  have hstart : "/dev/mapper/".toList <+: (mapperDevice name).toList := by
    unfold mapperDevice
    rw [String.toList_append]
    exact List.prefix_append _ _
  simp only [Command.readsDisk, List.isPrefixOf_iff_prefix.2 hstart,
    Bool.not_true]

theorem mountVerity_reads
    (guest : Guest) (data name hashTree rootHash target : String)
    (further : List Command) :
    (guest.mountVerity data name hashTree rootHash target
        further).filter Command.readsDisk =
      .verityOpen data name hashTree rootHash ::
        if guest.succeeds (.verityOpen data name hashTree rootHash) &&
            guest.succeeds (.mount (mapperDevice name) target true) then
          further.filter Command.readsDisk
        else [] := by
  unfold Guest.mountVerity
  cases hopening :
      guest.succeeds (.verityOpen data name hashTree rootHash) with
  | false =>
      simp [hopening, List.filter_cons]
  | true =>
      cases hmounting : guest.succeeds
          (.mount (mapperDevice name) target true) with
      | false =>
          simp [hopening, hmounting, List.filter_cons]
      | true =>
          simp [hopening, hmounting, List.filter_cons]

theorem luksBoot_reads (guest : Guest) (blkdev : String) :
    (guest.luksBoot blkdev).filter Command.readsDisk =
      if guest.passphraseInjected then [.luksOpen blkdev "cryptroot"]
      else [] := by
  unfold Guest.luksBoot
  cases hinjected : guest.passphraseInjected with
  | false =>
      simp
  | true =>
      cases hopening :
          guest.succeeds (.luksOpen blkdev "cryptroot") with
      | false =>
          simp [hopening, List.filter_cons]
      | true =>
          cases hmounting : guest.succeeds
              (.mount (mapperDevice "cryptroot") "/mnt/root" false) with
          | false =>
              simp [hopening, hmounting, List.filter_cons]
          | true =>
              simp [hopening, hmounting, List.filter_cons,
                enterRootfs_reads]

/-- In LUKS mode the only thing done with a disk is to unlock the first. -/
theorem Guest.diskReads_luks
    {guest : Guest} (hmode : bootMode guest.cmdline = .luks)
    (hdevice : guest.blkdev = some "/dev/vda") :
    guest.diskReads =
      if guest.passphraseInjected then [.luksOpen "/dev/vda" "cryptroot"]
      else [] := by
  unfold Guest.diskReads Guest.boot
  rw [hdevice, hmode]
  exact luksBoot_reads guest "/dev/vda"

/-- The verity volumes that a root hash and an optional workload hash stand
for. -/
def verityOpenings (rootHash workloadHash : String) : List Command :=
  .verityOpen "/dev/vda" "verity-root" "/dev/vdb" rootHash ::
    if workloadHash = "" then []
    else [.verityOpen "/dev/vdc" "verity-workload" "/dev/vdd" workloadHash]

/-- The devices that the volumes need are there. -/
def Guest.HasDevices (guest : Guest) (workloadHash : String) : Prop :=
  (∀ device ∈ ["/dev/vda", "/dev/vdb"], device ∈ guest.blockDevices) ∧
    (workloadHash ≠ "" →
      ∀ device ∈ ["/dev/vdc", "/dev/vdd"], device ∈ guest.blockDevices)

theorem mountWorkload_reads
    {guest : Guest}
    (hdevices : guest.HasDevices (workloadRoothash guest.cmdline))
    {further : List Command}
    (hfurther : further.filter Command.readsDisk = []) :
    (guest.mountWorkload further).filter Command.readsDisk =
      (verityOpenings "" (workloadRoothash guest.cmdline)).tail := by
  unfold Guest.mountWorkload verityOpenings
  rcases eq_or_ne (workloadRoothash guest.cmdline) "" with hnone | hnone
  · simp [hnone, hfurther]
  · have hworkload := hdevices.2 hnone
    simp only [List.mem_cons, List.not_mem_nil, or_false, forall_eq_or_imp,
      forall_eq] at hworkload
    obtain ⟨hdata, htree⟩ := hworkload
    simp [hnone, hdata, htree, mountVerity_reads, hfurther]

theorem Guest.Attached.mem_devices
    {guest : Guest} {cmdline : String} {drives : List String}
    (hattached : guest.Attached cmdline drives) {count : ℕ}
    (hcount : count ≤ drives.length) {device : String}
    (hdevice : device ∈ (List.range count).map virtioDevice) :
    device ∈ guest.blockDevices := by
  rw [hattached.devices_eq]
  simp only [List.mem_map, List.mem_range] at hdevice ⊢
  obtain ⟨index, hindex, hname⟩ := hdevice
  exact ⟨index, by omega, hname⟩

theorem Guest.Attached.hasDevices
    {guest : Guest} {cmdline : String} {drives : List String}
    (hattached : guest.Attached cmdline drives)
    (hroot : 2 ≤ drives.length) {workloadHash : String}
    (hworkload : workloadHash ≠ "" → 4 ≤ drives.length) :
    guest.HasDevices workloadHash := by
  have htwo : (List.range 2).map virtioDevice =
      ["/dev/vda", "/dev/vdb"] := by
    simp [virtioDevice, diskLetters, List.range_succ]
  constructor
  · intro device hdevice
    exact hattached.mem_devices hroot (by rw [htwo]; exact hdevice)
  · intro hhash device hdevice
    apply hattached.mem_devices (hworkload hhash)
    rw [virtioDevice_names]
    simp only [List.mem_cons, List.not_mem_nil, or_false] at hdevice ⊢
    exact .inr (.inr hdevice)

/-- In verity mode the script opens the volumes one after the other, as long
as nothing fails, and reads the disks in no other way. -/
theorem Guest.diskReads_verity
    {guest : Guest} {rootHash : String}
    (hmode : bootMode guest.cmdline = .verity rootHash)
    (hdevices : guest.HasDevices (workloadRoothash guest.cmdline)) :
    guest.diskReads <+:
        verityOpenings rootHash (workloadRoothash guest.cmdline) ∧
      ((∀ command, guest.succeeds command = true) →
        guest.diskReads =
          verityOpenings rootHash (workloadRoothash guest.cmdline)) := by
  have hroot := hdevices.1
  simp only [List.mem_cons, List.not_mem_nil, or_false, forall_eq_or_imp,
    forall_eq] at hroot
  obtain ⟨hdata, htree⟩ := hroot
  have hfurther : (guest.enterRootfs ++ [Command.startAgent]).filter
      Command.readsDisk = [] := by
    simp [enterRootfs_reads]
  have hworkload := mountWorkload_reads hdevices hfurther
  have htail : verityOpenings rootHash (workloadRoothash guest.cmdline) =
      .verityOpen "/dev/vda" "verity-root" "/dev/vdb" rootHash ::
        (verityOpenings "" (workloadRoothash guest.cmdline)).tail := by
    simp only [verityOpenings, List.tail_cons]
  have hreads : guest.diskReads =
      .verityOpen "/dev/vda" "verity-root" "/dev/vdb" rootHash ::
        if guest.succeeds
              (.verityOpen "/dev/vda" "verity-root" "/dev/vdb" rootHash) &&
            guest.succeeds
              (.mount (mapperDevice "verity-root") "/mnt/root" true) then
          (verityOpenings "" (workloadRoothash guest.cmdline)).tail
        else [] := by
    unfold Guest.diskReads Guest.boot
    rw [Guest.blkdev_eq hdata, hmode]
    simp [htree, mountVerity_reads, hworkload]
  rw [hreads, htail]
  constructor
  · simp only [List.cons_prefix_cons, true_and]
    split
    · exact List.prefix_rfl
    · exact List.nil_prefix
  · intro hsucceeds
    simp [hsucceeds]

end AlephCvm.GuestInit
