import AlephCvm.AddressTexts
import AlephCvm.RecordFields
import AlephCvm.ReportRecords

/-!
# State files in JSON

Model of what serde derives for `PersistedVm` in
`aleph-compute-node/src/persistence.rs` and for the types in it.  The
addresses travel as texts, and the fields that were added to the format over
time have defaults, so that a file without them can still be read.  The text
of an IPv6 network is read by a library; all that is asked of it is that it
reads the text that a network is displayed as.
-/

namespace AlephCvm.Vm

open JsonRecords AlephCvm.Tee AlephCvm.Numa AlephCvm.Net

/-! ## Parts of a configuration -/

def hugePageSizeJson : HugePageSize → Json
  | .size2M => .string "2m"
  | .size1G => .string "1g"

def readHugePageSize : Json → Option HugePageSize :=
  readUnitVariant fun
    | "2m" => some .size2M
    | "1g" => some .size1G
    | _ => none

def protocolJson : Protocol → Json
  | .tcp => .string "tcp"
  | .udp => .string "udp"

def readProtocol : Json → Option Protocol :=
  readUnitVariant fun
    | "tcp" => some .tcp
    | "udp" => some .udp
    | _ => none

def diskJson (disk : DiskConfig) : Json :=
  .object [("path", .string disk.path), ("readonly", .bool disk.readonly),
    ("format", .string disk.format)]

def readDisk (json : Json) : Option DiskConfig := do
  let fields ← source 3 json
  let path ← fields.required "path" 0 readString
  let readonly ← fields.withDefault "readonly" 1 readBool true
  let format ← fields.withDefault "format" 2 readString "raw"
  return ⟨path, readonly, format⟩

def teeFields (tee : TeeConfig) : List (String × Json) :=
  [("backend", tee.backend.serialize),
    ("policy", writeOption .string tee.policy)]

def readTee (json : Json) : Option TeeConfig := do
  let fields ← source 2 json
  let backend ← fields.required "backend" 0 TeeType.deserialize
  let policy ← fields.optional "policy" 1 readString
  return ⟨backend, policy⟩

def configFields (config : VmConfig) : List (String × Json) :=
  [("vm_id", .string config.vmId),
    ("kernel", writeOption .string config.kernel),
    ("initrd", writeOption .string config.initrd),
    ("disks", writeList diskJson config.disks),
    ("vcpus", writeNumber config.vcpus.toNat),
    ("memory_mb", writeNumber config.memoryMb.toNat),
    ("tee", .object (teeFields config.tee)),
    ("encrypted", .bool config.encrypted),
    ("numa_node", writeOption (fun node => writeNumber node.toNat)
      config.numaNode),
    ("hugepage_size", writeOption hugePageSizeJson config.hugepageSize)]

def readConfig (json : Json) : Option VmConfig := do
  let fields ← source 10 json
  let vmId ← fields.required "vm_id" 0 readString
  let kernel ← fields.withDefault "kernel" 1 (readOption readString) none
  let initrd ← fields.withDefault "initrd" 2 (readOption readString) none
  let disks ← fields.withDefault "disks" 3 (readList readDisk) []
  let vcpus ← fields.required "vcpus" 4 readU32
  let memoryMb ← fields.required "memory_mb" 5 readU32
  let tee ← fields.required "tee" 6 readTee
  let encrypted ← fields.withDefault "encrypted" 7 readBool false
  let numaNode ← fields.withDefault "numa_node" 8 (readOption readU32) none
  let hugepageSize ← fields.withDefault "hugepage_size" 9
    (readOption readHugePageSize) none
  return ⟨vmId, kernel, initrd, disks, vcpus, memoryMb, tee, encrypted,
    numaNode, hugepageSize⟩

def forwardFields (forward : PortForward) : List (String × Json) :=
  [("vm_id", .string forward.vmId),
    ("host_port", writeNumber forward.hostPort.toNat),
    ("vm_port", writeNumber forward.vmPort.toNat),
    ("protocol", protocolJson forward.protocol)]

def forwardJson (forward : PortForward) : Json :=
  .object (forwardFields forward)

def readForward (json : Json) : Option PortForward := do
  let fields ← source 4 json
  let vmId ← fields.required "vm_id" 0 readString
  let hostPort ← fields.required "host_port" 1 readU16
  let vmPort ← fields.required "vm_port" 2 readU16
  let protocol ← fields.required "protocol" 3 readProtocol
  return ⟨vmId, hostPort, vmPort, protocol⟩

/-! ## Whole records -/

/-- `Ipv6Net::from_str`. -/
structure Ipv6NetTexts where
  parse : String → Option Ipv6Net
  parse_text : ∀ net, parse (ipv6NetText net) = some net

def readIpv4 (json : Json) : Option Ipv4Addr := do
  let text ← readString json
  parseIpv4Addr text

def Ipv6NetTexts.read (texts : Ipv6NetTexts) (json : Json) :
    Option Ipv6Net := do
  let text ← readString json
  texts.parse text

/-- The fields of a record, with this tree for its configuration. -/
def persistedFields (config : Json) (persisted : PersistedVm) :
    List (String × Json) :=
  [("config", config),
    ("ip", .string (ipv4Text persisted.ip)),
    ("ipv6", writeOption (fun net => .string (ipv6NetText net))
      persisted.ipv6),
    ("tap_name", .string persisted.tapName),
    ("mac_addr", .string persisted.macAddr),
    ("port_forwards", writeList forwardJson persisted.portForwards),
    ("created_at_epoch", writeNumber persisted.createdAtEpoch),
    ("numa_node", writeOption (fun node => writeNumber node.toNat)
      persisted.numaNode)]

def persistedJson (persisted : PersistedVm) : Json :=
  .object (persistedFields (.object (configFields persisted.config))
    persisted)

/-- The time of creation is a number of 64 bits. -/
structure StoredVm where
  vm : PersistedVm
  epoch_lt : vm.createdAtEpoch < 2 ^ 64

def readEpoch (json : Json) : Option {epoch : ℕ // epoch < 2 ^ 64} :=
  (readUnsigned json).map fun value => ⟨value.toNat, value.toNat_lt⟩

def readPersisted (texts : Ipv6NetTexts) (json : Json) :
    Option StoredVm := do
  let fields ← source 8 json
  let config ← fields.required "config" 0 readConfig
  let ip ← fields.required "ip" 1 readIpv4
  let ipv6 ← fields.optional "ipv6" 2 texts.read
  let tapName ← fields.required "tap_name" 3 readString
  let macAddr ← fields.required "mac_addr" 4 readString
  let portForwards ← fields.required "port_forwards" 5
    (readList readForward)
  let epoch ← fields.required "created_at_epoch" 6 readEpoch
  let numaNode ← fields.withDefault "numa_node" 7 (readOption readU32) none
  return ⟨⟨config, ip, ipv6, tapName, macAddr, portForwards, epoch.val,
    numaNode⟩, epoch.property⟩

/-! ## Round trips -/

theorem readHugePageSize_json (size : HugePageSize) :
    readHugePageSize (hugePageSizeJson size) = some size := by
  cases size <;> rfl

theorem readProtocol_json (protocol : Protocol) :
    readProtocol (protocolJson protocol) = some protocol := by
  cases protocol <;> rfl

theorem readDisk_json (disk : DiskConfig) :
    readDisk (diskJson disk) = some disk := rfl

theorem readForward_json (forward : PortForward) :
    readForward (forwardJson forward) = some forward := by
  have hfields : ∀ entry ∈ forwardFields forward,
      valuesOf entry.1 (forwardFields forward) = [entry.2] :=
    valuesOf_of_nodup (by simp [forwardFields])
  simp only [forwardFields, List.forall_mem_cons] at hfields
  simp only [readForward, forwardJson, forwardFields, source,
    Source.required, Source.field, hfields, readString,
    readU16_writeNumber, readProtocol_json, Option.bind_eq_bind,
    Option.bind_some, Option.pure_def]

theorem readOption_hugePageSize (size : Option HugePageSize) :
    readOption readHugePageSize (writeOption hugePageSizeJson size) =
      some size := by
  apply readOption_writeOption readHugePageSize_json
  intro size
  cases size <;> simp [hugePageSizeJson]

theorem readOption_ipv6 (texts : Ipv6NetTexts) (net : Option Ipv6Net) :
    readOption texts.read
      (writeOption (fun net => .string (ipv6NetText net)) net) =
        some net := by
  apply readOption_writeOption texts.parse_text
  intro value
  simp

theorem readTee_fields (tee : TeeConfig) :
    readTee (.object (teeFields tee)) = some tee := by
  have hfields : ∀ entry ∈ teeFields tee,
      valuesOf entry.1 (teeFields tee) = [entry.2] :=
    valuesOf_of_nodup (by simp [teeFields])
  simp only [teeFields, List.forall_mem_cons] at hfields
  simp only [readTee, teeFields, source, Source.required, Source.optional,
    Source.field, hfields, TeeType.deserialize_serialize,
    readOption_string, Option.bind_eq_bind, Option.bind_some,
    Option.pure_def]

theorem readIpv4_text (ip : Ipv4Addr) :
    readIpv4 (.string (ipv4Text ip)) = some ip := by
  simp [readIpv4, readString]

theorem readEpoch_writeNumber {epoch : ℕ} (hepoch : epoch < 2 ^ 64) :
    readEpoch (writeNumber epoch) = some ⟨epoch, hepoch⟩ := by
  have hnat : (UInt64.ofNat epoch).toNat = epoch := by
    rw [UInt64.toNat_ofNat']
    omega
  simp only [readEpoch, writeNumber, readUnsigned, Option.map_some, hnat]

/-- The configuration with the defaults of these fields. -/
def configWithout (names : List String) (config : VmConfig) : VmConfig :=
  { config with
    kernel := if "kernel" ∈ names then none else config.kernel
    initrd := if "initrd" ∈ names then none else config.initrd
    disks := if "disks" ∈ names then [] else config.disks
    encrypted := if "encrypted" ∈ names then false else config.encrypted
    numaNode := if "numa_node" ∈ names then none else config.numaNode
    hugepageSize := if "hugepage_size" ∈ names then none
      else config.hugepageSize }

def persistedWithout (names configNames : List String)
    (persisted : PersistedVm) : PersistedVm :=
  { persisted with
    config := configWithout configNames persisted.config
    ipv6 := if "ipv6" ∈ names then none else persisted.ipv6
    numaNode := if "numa_node" ∈ names then none else persisted.numaNode }

/-- The fields of a configuration that have no default. -/
def neededOfConfig : List String := ["vm_id", "vcpus", "memory_mb", "tee"]

def neededOfRecord : List String :=
  ["config", "ip", "tap_name", "mac_addr", "port_forwards",
    "created_at_epoch"]

theorem readConfig_without
    (names : List String) (config : VmConfig) :
    readConfig (.object (without names (configFields config))) =
      if ∃ name ∈ neededOfConfig, name ∈ names then none
      else some (configWithout names config) := by
  have hdisks : readList readDisk (writeList diskJson config.disks) =
      some config.disks :=
    readList_writeList_iff.mpr fun disk _ => readDisk_json disk
  simp only [readConfig, source, Option.bind_eq_bind, Option.bind_some,
    required_without, withDefault_without, Option.pure_def]
  have hfields : ∀ entry ∈ configFields config,
      valuesOf entry.1 (configFields config) = [entry.2] :=
    valuesOf_of_nodup (by simp [configFields])
  simp only [configFields, List.forall_mem_cons] at hfields
  simp only [Source.required, Source.withDefault, Source.field, hfields,
    configFields, readString, readOption_string, hdisks,
    readU32_writeNumber, readTee_fields, readBool, readOption_u32,
    readOption_hugePageSize]
  simp only [← apply_ite some, Option.bind_some]
  by_cases hid : "vm_id" ∈ names
  · simp [neededOfConfig, hid]
  by_cases hvcpus : "vcpus" ∈ names
  · simp [neededOfConfig, hvcpus]
  by_cases hmemory : "memory_mb" ∈ names
  · simp [neededOfConfig, hmemory]
  by_cases htee : "tee" ∈ names
  · simp [neededOfConfig, htee]
  simp [neededOfConfig, hid, hvcpus, hmemory, htee, configWithout]

/-- What is read of a file from which some fields are missing, in the record
or in its configuration: nothing when one of them has no default, and
otherwise the record with the defaults. -/
theorem readPersisted_without
    (texts : Ipv6NetTexts) (names configNames : List String)
    (stored : StoredVm) :
    (readPersisted texts (.object (without names (persistedFields
        (.object (without configNames (configFields stored.vm.config)))
        stored.vm)))).map StoredVm.vm =
      if (∃ name ∈ neededOfRecord, name ∈ names) ∨
          ∃ name ∈ neededOfConfig, name ∈ configNames then none
      else some (persistedWithout names configNames stored.vm) := by
  obtain ⟨vm, hepoch⟩ := stored
  have hforwards : readList readForward
      (writeList forwardJson vm.portForwards) = some vm.portForwards :=
    readList_writeList_iff.mpr fun forward _ => readForward_json forward
  generalize hconfig : Json.object (without configNames
    (configFields vm.config)) = configJson
  have hread := readConfig_without configNames vm.config
  rw [hconfig] at hread
  have hfields : ∀ entry ∈ persistedFields configJson vm,
      valuesOf entry.1 (persistedFields configJson vm) = [entry.2] :=
    valuesOf_of_nodup (by simp [persistedFields])
  simp only [persistedFields, List.forall_mem_cons] at hfields
  simp only [readPersisted, source, Option.bind_eq_bind, Option.bind_some,
    required_without, optional_without, withDefault_without,
    Option.pure_def]
  simp only [Source.required, Source.optional, Source.withDefault,
    Source.field, hfields, persistedFields, readString, readIpv4_text,
    readOption_ipv6, hforwards, readEpoch_writeNumber hepoch,
    readOption_u32, hread]
  simp only [← apply_ite some, Option.bind_some]
  by_cases hmissing : ∃ name ∈ neededOfConfig, name ∈ configNames
  · by_cases hwhole : "config" ∈ names
    · simp [hmissing, hwhole]
    · simp [hmissing, hwhole]
  by_cases hwhole : "config" ∈ names
  · simp [neededOfRecord, hwhole]
  by_cases hip : "ip" ∈ names
  · simp [neededOfRecord, hip, hmissing, hwhole]
  by_cases htap : "tap_name" ∈ names
  · simp [neededOfRecord, htap, hmissing, hwhole, hip]
  by_cases hmac : "mac_addr" ∈ names
  · simp [neededOfRecord, hmac, hmissing, hwhole, hip, htap]
  by_cases hlist : "port_forwards" ∈ names
  · simp [neededOfRecord, hlist, hmissing, hwhole, hip, htap, hmac]
  by_cases htime : "created_at_epoch" ∈ names
  · simp [neededOfRecord, htime, hmissing, hwhole, hip, htap, hmac, hlist]
  simp [neededOfRecord, persistedWithout, hmissing, hwhole, hip, htap,
    hmac, hlist, htime]

/-! ## The format -/

theorem readPersisted_json (texts : Ipv6NetTexts) (stored : StoredVm) :
    readPersisted texts (persistedJson stored.vm) = some stored := by
  have hread := readPersisted_without texts [] [] stored
  simp only [without_nil, List.not_mem_nil, and_false, exists_false,
    or_false, if_false] at hread
  obtain ⟨found, hfound, hvm⟩ := Option.map_eq_some_iff.mp hread
  have hsame : found = stored := by
    obtain ⟨vm, hepoch⟩ := found
    obtain ⟨original, horiginal⟩ := stored
    simp only [persistedWithout, configWithout, List.not_mem_nil,
      if_false] at hvm
    subst hvm
    rfl
  rw [persistedJson, hfound, hsame]

theorem within_configFields {depth : ℕ} (config : VmConfig) :
    ∀ field ∈ configFields config, field.2.Within (depth + 2) := by
  have hdisk : ∀ disk ∈ config.disks,
      (diskJson disk).Within (depth + 1) := by
    intro disk _
    apply Json.Within.object
    simp only [List.forall_mem_cons]
    exact ⟨.string _, .bool _, .string _, by simp⟩
  have htee : (Json.object (teeFields config.tee)).Within
      (depth + 2) := by
    apply Json.Within.object
    simp only [teeFields, List.forall_mem_cons]
    refine ⟨?_, Json.within_writeOption (fun text => .string text) _,
      by simp⟩
    cases config.tee.backend <;> exact .string _
  simp only [configFields, List.forall_mem_cons]
  refine ⟨.string _, Json.within_writeOption (fun text => .string text) _,
    Json.within_writeOption (fun text => .string text) _,
    Json.within_writeList hdisk, .unsigned _, .unsigned _, htee, .bool _,
    Json.within_writeOption (fun node => .unsigned _) _,
    Json.within_writeOption ?_ _, by simp⟩
  intro size
  cases size <;> exact .string _

theorem within_persistedFields
    {depth : ℕ} {config : Json} (hconfig : config.Within (depth + 2))
    (persisted : PersistedVm) :
    ∀ field ∈ persistedFields config persisted,
      field.2.Within (depth + 2) := by
  have hforward : ∀ forward ∈ persisted.portForwards,
      (forwardJson forward).Within (depth + 1) := by
    intro forward _
    apply Json.Within.object
    simp only [forwardFields, List.forall_mem_cons]
    refine ⟨.string _, .unsigned _, .unsigned _, ?_, by simp⟩
    cases forward.protocol <;> exact .string _
  simp only [persistedFields, List.forall_mem_cons]
  exact ⟨hconfig, .string _,
    Json.within_writeOption (fun net => .string _) _, .string _, .string _,
    Json.within_writeList hforward, .unsigned _,
    Json.within_writeOption (fun node => .unsigned _) _, by simp⟩

theorem within_incomplete
    (names configNames : List String) (persisted : PersistedVm) :
    (Json.object (without names (persistedFields
      (.object (without configNames (configFields persisted.config)))
      persisted))).Within maxLevels :=
  within_without (within_persistedFields
    (within_without (within_configFields persisted.config)) persisted)

theorem within_persisted (persisted : PersistedVm) :
    (persistedJson persisted).Within maxLevels := by
  have hwithin := within_incomplete [] [] persisted
  rw [without_nil, without_nil] at hwithin
  exact hwithin

def storedFormat (texts : Ipv6NetTexts) : RecordFormat StoredVm where
  serialize := fun stored => persistedJson stored.vm
  deserialize := readPersisted texts
  within := fun stored => within_persisted stored.vm
  deserialize_serialize := readPersisted_json texts

/-- A reader of networks that the format can be used with. -/
def displayedIpv6Nets : Ipv6NetTexts := ⟨readIpv6Net, readIpv6Net_text⟩

end AlephCvm.Vm
