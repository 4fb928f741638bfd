import AlephCvm.MessageVolumes
import AlephCvm.RecordFields
import AlephCvm.SchedulerRuns
import AlephCvm.TableFolds
import AlephCvm.Utf8Text

/-!
# Messages and allocations in JSON

Model of the bodies of the agent's two requests: what serde derives for
`ExecutableMessage` in `aleph-scheduler-agent/src/aleph/messages.rs` and for
`Allocation` in `aleph/allocations.rs`.  A message has all its fields here,
and the adapter looks at some of them.  Most fields have defaults: a body
without them is translated like the message with the defaults.
-/

namespace AlephCvm.Messages

open JsonRecords TableFolds Utf8Text AlephCvm.Tee AlephCvm.Agent

/-! ## Parts of a message -/

inductive MachineType where
  | vmFunction
  | vmInstance
  deriving DecidableEq, Repr

structure MachineResources where
  vcpus : UInt32
  memory : UInt32
  seconds : UInt32
  publishedPorts : List PublishedPort
  deriving DecidableEq, Repr

structure RootfsVolume where
  parent : ParentVolume
  persistence : VolumePersistence
  sizeMib : UInt64
  deriving DecidableEq, Repr

inductive HypervisorType where
  | qemu
  | firecracker
  deriving DecidableEq, Repr

structure TrustedExecutionEnvironment where
  firmware : Option ItemHash
  policy : UInt64
  encrypted : Bool
  deriving DecidableEq, Repr

structure InstanceEnvironment where
  internet : Bool
  alephApi : Bool
  hypervisor : Option HypervisorType
  trustedExecution : Option TrustedExecutionEnvironment
  deriving DecidableEq, Repr

structure CodeContent where
  encoding : Encoding
  entrypoint : String
  itemRef : ItemHash
  interface : Option String
  args : List String
  deriving DecidableEq, Repr

structure FunctionRuntime where
  itemRef : ItemHash
  useLatest : Bool
  comment : String
  deriving DecidableEq, Repr

inductive PaymentType where
  | hold
  | superfluid
  | credit
  deriving DecidableEq, Repr

structure Payment where
  chain : Option String
  receiver : Option String
  paymentType : PaymentType
  deriving DecidableEq, Repr

/-- The variables are in the order in which they happen to be iterated. -/
structure ExecutableMessage where
  itemHash : ItemHash
  machineType : MachineType
  resources : MachineResources
  volumes : List MachineVolume
  vmVariables : AList fun _ : String => String
  allowAmend : Bool
  replaces : Option ItemHash
  payment : Option Payment
  environment : Option InstanceEnvironment
  rootfs : Option RootfsVolume
  code : Option CodeContent
  runtime : Option FunctionRuntime

/-- What the adapter looks at. -/
def ExecutableMessage.forAdapter (msg : ExecutableMessage) :
    Agent.ExecutableMessage where
  itemHash := msg.itemHash
  resources := ⟨msg.resources.vcpus, msg.resources.memory,
    msg.resources.publishedPorts⟩
  volumes := msg.volumes.map MachineVolume.forAdapter
  trustedExecution := msg.environment.bind fun environment =>
    environment.trustedExecution.map fun trusted =>
      ⟨trusted.policy, trusted.encrypted⟩
  rootfs := msg.rootfs.map fun rootfs => rootfs.parent.itemRef
  code := msg.code.map fun code => ⟨code.encoding, code.itemRef⟩
  runtime := msg.runtime.map FunctionRuntime.itemRef

/-! ## Serialisation -/

def MachineType.serialize : MachineType → Json
  | .vmFunction => .string "vm_function"
  | .vmInstance => .string "vm_instance"

def serializePort (published : PublishedPort) : Json :=
  .object [("protocol", .string published.protocol),
    ("port", writeNumber published.port.toNat)]

def MachineResources.fields (resources : MachineResources) :
    List (String × Json) :=
  [("vcpus", writeNumber resources.vcpus.toNat),
    ("memory", writeNumber resources.memory.toNat),
    ("seconds", writeNumber resources.seconds.toNat),
    ("published_ports", writeList serializePort resources.publishedPorts)]

def RootfsVolume.serialize (rootfs : RootfsVolume) : Json :=
  .object [("parent", rootfs.parent.serialize),
    ("persistence", rootfs.persistence.serialize),
    ("size_mib", .unsigned rootfs.sizeMib)]

def HypervisorType.serialize : HypervisorType → Json
  | .qemu => .string "qemu"
  | .firecracker => .string "firecracker"

def TrustedExecutionEnvironment.serialize
    (trusted : TrustedExecutionEnvironment) : Json :=
  .object [("firmware", writeOption .string trusted.firmware),
    ("policy", .unsigned trusted.policy),
    ("encrypted", .bool trusted.encrypted)]

def InstanceEnvironment.serialize (environment : InstanceEnvironment) :
    Json :=
  .object [("internet", .bool environment.internet),
    ("aleph_api", .bool environment.alephApi),
    ("hypervisor", writeOption HypervisorType.serialize
      environment.hypervisor),
    ("trusted_execution", writeOption TrustedExecutionEnvironment.serialize
      environment.trustedExecution)]

def CodeContent.serialize (code : CodeContent) : Json :=
  .object [("encoding", .string code.encoding.text),
    ("entrypoint", .string code.entrypoint), ("ref", .string code.itemRef),
    ("interface", writeOption .string code.interface),
    ("args", writeList .string code.args)]

def FunctionRuntime.serialize (runtime : FunctionRuntime) : Json :=
  .object [("ref", .string runtime.itemRef),
    ("use_latest", .bool runtime.useLatest),
    ("comment", .string runtime.comment)]

def PaymentType.serialize : PaymentType → Json
  | .hold => .string "hold"
  | .superfluid => .string "superfluid"
  | .credit => .string "credit"

def Payment.serialize (payment : Payment) : Json :=
  .object [("chain", writeOption .string payment.chain),
    ("receiver", writeOption .string payment.receiver),
    ("type", payment.paymentType.serialize)]

def serializeTexts (texts : AList fun _ : String => String) : Json :=
  .object (texts.entries.map fun entry => (entry.1, .string entry.2))

/-- The fields of a message, with this tree for its resources. -/
def ExecutableMessage.fields (resources : Json) (msg : ExecutableMessage) :
    List (String × Json) :=
  [("item_hash", .string msg.itemHash),
    ("type", msg.machineType.serialize),
    ("resources", resources),
    ("volumes", serializeVolumes msg.volumes),
    ("variables", serializeTexts msg.vmVariables),
    ("allow_amend", .bool msg.allowAmend),
    ("replaces", writeOption .string msg.replaces),
    ("payment", writeOption Payment.serialize msg.payment),
    ("environment", writeOption InstanceEnvironment.serialize
      msg.environment),
    ("rootfs", writeOption RootfsVolume.serialize msg.rootfs),
    ("code", writeOption CodeContent.serialize msg.code),
    ("runtime", writeOption FunctionRuntime.serialize msg.runtime)]

/-! ## Deserialisation -/

def MachineType.deserialize : Json → Option MachineType :=
  readUnitVariant fun
    | "vm_function" => some .vmFunction
    | "vm_instance" => some .vmInstance
    | _ => none

def deserializePort (json : Json) : Option PublishedPort := do
  let fields ← source 2 json
  let protocol ← fields.required "protocol" 0 readString
  let port ← fields.required "port" 1 readU16
  return ⟨protocol, port⟩

def defaultVcpus : UInt32 := 1

def defaultMemory : UInt32 := 128

def defaultSeconds : UInt32 := 1

def MachineResources.deserialize (json : Json) :
    Option MachineResources := do
  let fields ← source 4 json
  let vcpus ← fields.withDefault "vcpus" 0 readU32 defaultVcpus
  let memory ← fields.withDefault "memory" 1 readU32 defaultMemory
  let seconds ← fields.withDefault "seconds" 2 readU32 defaultSeconds
  let publishedPorts ← fields.withDefault "published_ports" 3
    (readList deserializePort) []
  return ⟨vcpus, memory, seconds, publishedPorts⟩

def RootfsVolume.deserialize (json : Json) : Option RootfsVolume := do
  let fields ← source 3 json
  let parent ← fields.required "parent" 0 ParentVolume.deserialize
  let persistence ← fields.withDefault "persistence" 1
    VolumePersistence.deserialize .host
  let sizeMib ← fields.required "size_mib" 2 readUnsigned
  return ⟨parent, persistence, sizeMib⟩

def HypervisorType.deserialize : Json → Option HypervisorType :=
  readUnitVariant fun
    | "qemu" => some .qemu
    | "firecracker" => some .firecracker
    | _ => none

def TrustedExecutionEnvironment.deserialize (json : Json) :
    Option TrustedExecutionEnvironment := do
  let fields ← source 3 json
  let firmware ← fields.optional "firmware" 0 readString
  let policy ← fields.withDefault "policy" 1 readUnsigned 0
  let encrypted ← fields.withDefault "encrypted" 2 readBool false
  return ⟨firmware, policy, encrypted⟩

def InstanceEnvironment.deserialize (json : Json) :
    Option InstanceEnvironment := do
  let fields ← source 4 json
  let internet ← fields.withDefault "internet" 0 readBool false
  let alephApi ← fields.withDefault "aleph_api" 1 readBool false
  let hypervisor ← fields.optional "hypervisor" 2 HypervisorType.deserialize
  let trustedExecution ← fields.optional "trusted_execution" 3
    TrustedExecutionEnvironment.deserialize
  return ⟨internet, alephApi, hypervisor, trustedExecution⟩

def deserializeEncoding : Json → Option Encoding :=
  readUnitVariant fun
    | "plain" => some .plain
    | "zip" => some .zip
    | "squashfs" => some .squashfs
    | _ => none

def CodeContent.deserialize (json : Json) : Option CodeContent := do
  let fields ← source 5 json
  let encoding ← fields.required "encoding" 0 deserializeEncoding
  let entrypoint ← fields.required "entrypoint" 1 readString
  let itemRef ← fields.required "ref" 2 readString
  let interface ← fields.optional "interface" 3 readString
  let args ← fields.withDefault "args" 4 (readList readString) []
  return ⟨encoding, entrypoint, itemRef, interface, args⟩

def FunctionRuntime.deserialize (json : Json) : Option FunctionRuntime := do
  let fields ← source 3 json
  let itemRef ← fields.required "ref" 0 readString
  let useLatest ← fields.withDefault "use_latest" 1 readBool defaultTrue
  let comment ← fields.withDefault "comment" 2 readString ""
  return ⟨itemRef, useLatest, comment⟩

def PaymentType.deserialize : Json → Option PaymentType :=
  readUnitVariant fun
    | "hold" => some .hold
    | "superfluid" => some .superfluid
    | "credit" => some .credit
    | _ => none

def Payment.deserialize (json : Json) : Option Payment := do
  let fields ← source 3 json
  let chain ← fields.optional "chain" 0 readString
  let receiver ← fields.optional "receiver" 1 readString
  let paymentType ← fields.required "type" 2 PaymentType.deserialize
  return ⟨chain, receiver, paymentType⟩

/-- The last value under a name counts. -/
def deserializeTexts : Json → Option (AList fun _ : String => String)
  | .object fields => fields.foldlM (fun texts field =>
      (readString field.2).map fun text => texts.insert field.1 text) ∅
  | _ => none

/-- A volume without a tag is kept as a whole before it is read as one of its
variants, so all of it has to be decoded.  The message and the list of its
volumes have taken two of the levels. -/
def bufferedVolume (json : Json) : Option MachineVolume :=
  if json.isBuffered (maxLevels - 2) then MachineVolume.deserialize json
  else none

def ExecutableMessage.deserialize (json : Json) :
    Option ExecutableMessage := do
  let fields ← source 12 json
  let itemHash ← fields.required "item_hash" 0 readString
  let machineType ← fields.required "type" 1 MachineType.deserialize
  let resources ← fields.required "resources" 2 MachineResources.deserialize
  let volumes ← fields.withDefault "volumes" 3 (readList bufferedVolume) []
  let vmVariables ← fields.withDefault "variables" 4 deserializeTexts ∅
  let allowAmend ← fields.withDefault "allow_amend" 5 readBool false
  let replaces ← fields.optional "replaces" 6 readString
  let payment ← fields.optional "payment" 7 Payment.deserialize
  let environment ← fields.optional "environment" 8
    InstanceEnvironment.deserialize
  let rootfs ← fields.optional "rootfs" 9 RootfsVolume.deserialize
  let code ← fields.optional "code" 10 CodeContent.deserialize
  let runtime ← fields.optional "runtime" 11 FunctionRuntime.deserialize
  return ⟨itemHash, machineType, resources, volumes, vmVariables, allowAmend,
    replaces, payment, environment, rootfs, code, runtime⟩

def ExecutableMessage.fromSlice (body : List UInt8) :
    Option ExecutableMessage :=
  (readBytes body).bind ExecutableMessage.deserialize

/-- What the server passes on to the handlers: bodies up to a length, as bytes
or, when the content type names JSON, as a record. -/
structure Extractors where
  bytesLimit : ℕ
  jsonLimit : ℕ
  namesJson : Option String → Bool

structure MessagePost where
  contentType : Option String
  body : List UInt8

/-- What `handle_message` is called with. -/
def MessagePost.message (extractors : Extractors) (post : MessagePost) :
    Option ExecutableMessage :=
  if extractors.namesJson post.contentType then
    if post.body.length ≤ extractors.jsonLimit then
      ExecutableMessage.fromSlice post.body
    else none
  else none

/-! ## Parts that come back -/

theorem MachineType.deserialize_serialize (machineType : MachineType) :
    MachineType.deserialize machineType.serialize = some machineType := by
  cases machineType <;> rfl

theorem HypervisorType.deserialize_serialize
    (hypervisor : HypervisorType) :
    HypervisorType.deserialize hypervisor.serialize = some hypervisor := by
  cases hypervisor <;> rfl

theorem PaymentType.deserialize_serialize (paymentType : PaymentType) :
    PaymentType.deserialize paymentType.serialize = some paymentType := by
  cases paymentType <;> rfl

theorem deserializeEncoding_text (encoding : Encoding) :
    deserializeEncoding (.string encoding.text) = some encoding := by
  cases encoding <;> rfl

theorem deserializePort_serialize (published : PublishedPort) :
    deserializePort (serializePort published) = some published := by
  simp [deserializePort, serializePort, source, Source.required,
    Source.field, valuesOf, readString, readU16_writeNumber]

theorem RootfsVolume.deserialize_serialize (rootfs : RootfsVolume) :
    RootfsVolume.deserialize rootfs.serialize = some rootfs := by
  simp [deserialize, serialize, source, Source.required,
    Source.withDefault, Source.field, valuesOf, readUnsigned,
    ParentVolume.deserialize_serialize,
    VolumePersistence.deserialize_serialize]

theorem TrustedExecutionEnvironment.deserialize_serialize
    (trusted : TrustedExecutionEnvironment) :
    TrustedExecutionEnvironment.deserialize trusted.serialize =
      some trusted := by
  simp [deserialize, serialize, source, Source.optional,
    Source.withDefault, Source.field, valuesOf, readUnsigned, readBool,
    readOption_string]

theorem readOption_hypervisor (hypervisor : Option HypervisorType) :
    readOption HypervisorType.deserialize
      (writeOption HypervisorType.serialize hypervisor) =
        some hypervisor := by
  apply readOption_writeOption HypervisorType.deserialize_serialize
  intro value
  cases value <;> simp [HypervisorType.serialize]

theorem readOption_trustedExecution
    (trusted : Option TrustedExecutionEnvironment) :
    readOption TrustedExecutionEnvironment.deserialize
      (writeOption TrustedExecutionEnvironment.serialize trusted) =
        some trusted := by
  apply readOption_writeOption
    TrustedExecutionEnvironment.deserialize_serialize
  intro value
  simp [TrustedExecutionEnvironment.serialize]

theorem InstanceEnvironment.deserialize_serialize
    (environment : InstanceEnvironment) :
    InstanceEnvironment.deserialize environment.serialize =
      some environment := by
  simp [deserialize, serialize, source, Source.optional,
    Source.withDefault, Source.field, valuesOf, readBool,
    readOption_hypervisor, readOption_trustedExecution]

theorem CodeContent.deserialize_serialize (code : CodeContent) :
    CodeContent.deserialize code.serialize = some code := by
  have hargs : readList readString (writeList .string code.args) =
      some code.args :=
    readList_writeList_iff.mpr fun text _ => rfl
  simp [deserialize, serialize, source, Source.required, Source.optional,
    Source.withDefault, Source.field, valuesOf, readString,
    deserializeEncoding_text, readOption_string, hargs]

theorem FunctionRuntime.deserialize_serialize (runtime : FunctionRuntime) :
    FunctionRuntime.deserialize runtime.serialize = some runtime := by
  simp [deserialize, serialize, source, Source.required,
    Source.withDefault, Source.field, valuesOf, readString, readBool]

theorem Payment.deserialize_serialize (payment : Payment) :
    Payment.deserialize payment.serialize = some payment := by
  simp [deserialize, serialize, source, Source.required, Source.optional,
    Source.field, valuesOf, readOption_string,
    PaymentType.deserialize_serialize]

/-- The table with its entries in the order in which they were read. -/
def rearranged (texts : AList fun _ : String => String) :
    AList fun _ : String => String :=
  insertAll Sigma.fst Sigma.snd texts.entries ∅

theorem rearranged_lookup (texts : AList fun _ : String => String)
    (name : String) : (rearranged texts).lookup name = texts.lookup name := by
  have hsame : Consistent Sigma.fst Sigma.snd texts.entries :=
    consistent_of_nodup texts.nodupKeys
  apply Option.ext
  intro text
  rw [rearranged, lookup_insertAll_empty_iff hsame, ← Option.mem_def,
    AList.mem_lookup_iff]
  constructor
  · rintro ⟨entry, hentry, rfl, rfl⟩
    exact hentry
  · intro hentry
    exact ⟨⟨name, text⟩, hentry, rfl, rfl⟩

theorem deserializeTexts_serialize (texts : AList fun _ : String => String) :
    deserializeTexts (serializeTexts texts) = some (rearranged texts) := by
  unfold serializeTexts rearranged
  simp only [deserializeTexts]
  generalize (∅ : AList fun _ : String => String) = table
  generalize texts.entries = entries
  induction entries generalizing table with
  | nil => rfl
  | cons entry rest ih =>
      rw [List.map_cons, List.foldlM_cons]
      exact ih (table.insert entry.1 entry.2)

theorem within_serializeVolume {depth : ℕ} (volume : MachineVolume) :
    volume.serialize.Within (depth + 2) := by
  cases volume with
  | immutable volume =>
      apply Json.Within.object
      simp only [List.forall_mem_cons]
      exact ⟨.string _, .string _, .bool _, by simp⟩
  | persistent volume =>
      have hparent : ∀ parent : ParentVolume,
          parent.serialize.Within (depth + 1) := by
        intro parent
        apply Json.Within.object
        simp only [List.forall_mem_cons]
        exact ⟨.string _, .bool _, by simp⟩
      apply Json.Within.object
      simp only [List.forall_mem_cons]
      refine ⟨.string _, Json.within_writeOption (fun name => .string name) _,
        .unsigned _, Json.within_writeOption hparent _, ?_, by simp⟩
      cases volume.persistence <;> exact .string _
  | ephemeral volume =>
      apply Json.Within.object
      simp only [List.forall_mem_cons]
      exact ⟨.string _, .bool _, .unsigned _, by simp⟩

theorem bufferedVolume_serialize (volume : MachineVolume) :
    bufferedVolume volume.serialize = some volume.reread := by
  have hbuffered : volume.serialize.isBuffered (maxLevels - 2) = true :=
    (within_serializeVolume volume).isBuffered
  rw [bufferedVolume, if_pos hbuffered, volume.deserialize_serialize]

/-! ## A whole message -/

/-- What a message is read as after it has been written: an ephemeral volume
becomes a persistent one. -/
def ExecutableMessage.reread (msg : ExecutableMessage) :
    ExecutableMessage :=
  { msg with
    volumes := msg.volumes.map MachineVolume.reread
    vmVariables := rearranged msg.vmVariables }

/-- The resources with the defaults of these fields. -/
def MachineResources.without (names : List String)
    (resources : MachineResources) : MachineResources where
  vcpus := if "vcpus" ∈ names then defaultVcpus else resources.vcpus
  memory := if "memory" ∈ names then defaultMemory else resources.memory
  seconds := if "seconds" ∈ names then defaultSeconds else resources.seconds
  publishedPorts := if "published_ports" ∈ names then []
    else resources.publishedPorts

def ExecutableMessage.without (names resourceNames : List String)
    (msg : ExecutableMessage) : ExecutableMessage :=
  { msg with
    resources := msg.resources.without resourceNames
    volumes := if "volumes" ∈ names then [] else msg.volumes
    vmVariables := if "variables" ∈ names then ∅ else msg.vmVariables
    allowAmend := if "allow_amend" ∈ names then false else msg.allowAmend
    replaces := if "replaces" ∈ names then none else msg.replaces
    payment := if "payment" ∈ names then none else msg.payment
    environment := if "environment" ∈ names then none
      else msg.environment
    rootfs := if "rootfs" ∈ names then none else msg.rootfs
    code := if "code" ∈ names then none else msg.code
    runtime := if "runtime" ∈ names then none else msg.runtime }

/-- The fields of a message that have no default. -/
def neededOfMessage : List String := ["item_hash", "type", "resources"]

theorem MachineResources.deserialize_without
    (names : List String) (resources : MachineResources) :
    MachineResources.deserialize (.object (JsonRecords.without names
      resources.fields)) = some (resources.without names) := by
  have hports : readList deserializePort
      (writeList serializePort resources.publishedPorts) =
        some resources.publishedPorts :=
    readList_writeList_iff.mpr fun published _ =>
      deserializePort_serialize published
  have hfields : ∀ entry ∈ resources.fields,
      valuesOf entry.1 resources.fields = [entry.2] :=
    valuesOf_of_nodup (by simp [MachineResources.fields])
  simp only [MachineResources.fields, List.forall_mem_cons] at hfields
  simp only [MachineResources.deserialize, source, Option.bind_eq_bind,
    Option.bind_some, withDefault_without, Option.pure_def]
  simp only [Source.withDefault, Source.field, hfields,
    MachineResources.fields, readU32_writeNumber, hports]
  simp only [← apply_ite some, Option.bind_some]
  rfl

theorem ExecutableMessage.deserialize_without
    (names resourceNames : List String) (msg : ExecutableMessage) :
    ExecutableMessage.deserialize (.object (JsonRecords.without names
        (ExecutableMessage.fields (.object (JsonRecords.without
          resourceNames msg.resources.fields)) msg))) =
      if ∃ name ∈ neededOfMessage, name ∈ names then none
      else some (msg.reread.without names resourceNames) := by
  have hvolumes : readList bufferedVolume (serializeVolumes msg.volumes) =
      some (msg.volumes.map MachineVolume.reread) :=
    readList_writeList_map bufferedVolume_serialize msg.volumes
  have hpayment := readOption_writeOption Payment.deserialize_serialize
    (by intro value; simp [Payment.serialize]) msg.payment
  have henvironment := readOption_writeOption
    InstanceEnvironment.deserialize_serialize
    (by intro value; simp [InstanceEnvironment.serialize]) msg.environment
  have hrootfs := readOption_writeOption RootfsVolume.deserialize_serialize
    (by intro value; simp [RootfsVolume.serialize]) msg.rootfs
  have hcode := readOption_writeOption CodeContent.deserialize_serialize
    (by intro value; simp [CodeContent.serialize]) msg.code
  have hruntime := readOption_writeOption
    FunctionRuntime.deserialize_serialize
    (by intro value; simp [FunctionRuntime.serialize]) msg.runtime
  generalize hresources : Json.object (JsonRecords.without resourceNames
    msg.resources.fields) = resources
  have hread := MachineResources.deserialize_without resourceNames
    msg.resources
  rw [hresources] at hread
  have hfields : ∀ fields, msg.fields resources = fields →
      ∀ entry ∈ msg.fields resources, valuesOf entry.1 fields =
        [entry.2] := by
    rintro _ rfl
    exact valuesOf_of_nodup (by simp [ExecutableMessage.fields])
  generalize hall : msg.fields resources = fields
  replace hfields := hfields fields hall
  simp only [ExecutableMessage.fields, List.forall_mem_cons] at hfields
  obtain ⟨hhash, htype, hparts, hdisks, hmap, hamend, hreplaces, hpaid,
    hplace, hroot, hprogram, hruns, -⟩ := hfields
  have hname : readString (.string msg.itemHash) = some msg.itemHash := rfl
  have hflag : readBool (.bool msg.allowAmend) = some msg.allowAmend := rfl
  have htexts := deserializeTexts_serialize msg.vmVariables
  unfold ExecutableMessage.deserialize
  rw [source, Option.bind_eq_bind, Option.bind_some,
    required_kept 0 hhash hname,
    required_kept 1 htype (msg.machineType.deserialize_serialize),
    required_kept 2 hparts hread, withDefault_kept 3 hdisks [] hvolumes,
    withDefault_kept 4 hmap ∅ htexts, withDefault_kept 5 hamend false hflag,
    optional_kept 6 hreplaces (readOption_string _),
    optional_kept 7 hpaid hpayment, optional_kept 8 hplace henvironment,
    optional_kept 9 hroot hrootfs, optional_kept 10 hprogram hcode,
    optional_kept 11 hruns hruntime]
  by_cases hnoHash : "item_hash" ∈ names
  · have hneeded : ∃ name ∈ neededOfMessage, name ∈ names :=
      ⟨"item_hash", by simp [neededOfMessage], hnoHash⟩
    rw [if_pos hneeded, if_pos hnoHash]
    rfl
  by_cases hnoType : "type" ∈ names
  · have hneeded : ∃ name ∈ neededOfMessage, name ∈ names :=
      ⟨"type", by simp [neededOfMessage], hnoType⟩
    rw [if_pos hneeded, if_neg hnoHash, if_pos hnoType]
    rfl
  by_cases hnoResources : "resources" ∈ names
  · have hneeded : ∃ name ∈ neededOfMessage, name ∈ names :=
      ⟨"resources", by simp [neededOfMessage], hnoResources⟩
    rw [if_pos hneeded, if_neg hnoHash, if_neg hnoType,
      if_pos hnoResources]
    rfl
  have hneeded : ¬ ∃ name ∈ neededOfMessage, name ∈ names := by
    simp [neededOfMessage, hnoHash, hnoType, hnoResources]
  rw [if_neg hneeded, if_neg hnoHash, if_neg hnoType, if_neg hnoResources]
  rfl

/-! ## Translation -/

theorem translateMessage_reread
    (cache : CacheAnswers) (config : AdapterConfig)
    (names resourceNames : List String) (msg : ExecutableMessage) :
    translateMessage cache config
        (msg.reread.without names resourceNames).forAdapter =
      translateMessage cache config
        (msg.without names resourceNames).forAdapter := by
  have hdisk : ∀ volume : MachineVolume,
      volumeDisk cache volume.reread.forAdapter =
        volumeDisk cache volume.forAdapter :=
    fun volume => (volumeDisk_reread cache volume).1
  have hvolumes : ((msg.reread.without names resourceNames).volumes.map
      MachineVolume.forAdapter).mapM (volumeDisk cache) =
        ((msg.without names resourceNames).volumes.map
          MachineVolume.forAdapter).mapM (volumeDisk cache) := by
    by_cases hnone : "volumes" ∈ names
    · simp [ExecutableMessage.without, hnone]
    · simp only [ExecutableMessage.without, if_neg hnone,
        ExecutableMessage.reread, List.map_map, List.mapM_map]
      congr 1
      funext volume
      exact hdisk volume
  unfold translateMessage
  simp only [ExecutableMessage.forAdapter] at hvolumes ⊢
  rw [hvolumes]
  rfl

/-! ## Levels of a message -/

theorem MachineResources.within_fields
    {depth : ℕ} (resources : MachineResources) :
    ∀ field ∈ resources.fields, field.2.Within (depth + 2) := by
  have hport : ∀ published ∈ resources.publishedPorts,
      (serializePort published).Within (depth + 1) := by
    intro published _
    apply Json.Within.object
    simp only [List.forall_mem_cons]
    exact ⟨.string _, .unsigned _, by simp⟩
  simp only [MachineResources.fields, List.forall_mem_cons]
  exact ⟨.unsigned _, .unsigned _, .unsigned _, Json.within_writeList hport,
    by simp⟩

theorem within_environment
    {depth : ℕ} (environment : InstanceEnvironment) :
    environment.serialize.Within (depth + 2) := by
  have htrusted : ∀ trusted : TrustedExecutionEnvironment,
      trusted.serialize.Within (depth + 1) := by
    intro trusted
    apply Json.Within.object
    simp only [List.forall_mem_cons]
    exact ⟨Json.within_writeOption (fun text => .string text) _,
      .unsigned _, .bool _, by simp⟩
  have hhypervisor : ∀ hypervisor : HypervisorType,
      hypervisor.serialize.Within (depth + 1) := by
    intro hypervisor
    cases hypervisor <;> exact .string _
  apply Json.Within.object
  simp only [List.forall_mem_cons]
  exact ⟨.bool _, .bool _, Json.within_writeOption hhypervisor _,
    Json.within_writeOption htrusted _, by simp⟩

theorem within_rootfs {depth : ℕ} (rootfs : RootfsVolume) :
    rootfs.serialize.Within (depth + 2) := by
  have hparent : rootfs.parent.serialize.Within (depth + 1) := by
    apply Json.Within.object
    simp only [List.forall_mem_cons]
    exact ⟨.string _, .bool _, by simp⟩
  apply Json.Within.object
  simp only [List.forall_mem_cons]
  refine ⟨hparent, ?_, .unsigned _, by simp⟩
  cases rootfs.persistence <;> exact .string _

theorem within_code {depth : ℕ} (code : CodeContent) :
    code.serialize.Within (depth + 2) := by
  apply Json.Within.object
  simp only [List.forall_mem_cons]
  exact ⟨.string _, .string _, .string _,
    Json.within_writeOption (fun text => .string text) _,
    Json.within_writeList fun text _ => .string text, by simp⟩

theorem within_payment {depth : ℕ} (payment : Payment) :
    payment.serialize.Within (depth + 1) := by
  apply Json.Within.object
  simp only [List.forall_mem_cons]
  refine ⟨Json.within_writeOption (fun text => .string text) _,
    Json.within_writeOption (fun text => .string text) _, ?_, by simp⟩
  cases payment.paymentType <;> exact .string _

theorem ExecutableMessage.within_fields
    {depth : ℕ} {resources : Json} (hresources : resources.Within (depth + 3))
    (msg : ExecutableMessage) :
    ∀ field ∈ msg.fields resources, field.2.Within (depth + 3) := by
  have htexts : (serializeTexts msg.vmVariables).Within (depth + 3) := by
    apply Json.Within.object
    intro field hfield
    obtain ⟨entry, -, rfl⟩ := List.mem_map.mp hfield
    exact .string _
  have hruntime : ∀ runtime : FunctionRuntime,
      runtime.serialize.Within (depth + 3) := by
    intro runtime
    apply Json.Within.object
    simp only [List.forall_mem_cons]
    exact ⟨.string _, .bool _, .string _, by simp⟩
  have hvolumes : (serializeVolumes msg.volumes).Within (depth + 3) :=
    Json.within_writeList fun volume _ => within_serializeVolume volume
  simp only [ExecutableMessage.fields, List.forall_mem_cons]
  refine ⟨.string _, ?_, hresources, hvolumes, htexts, .bool _,
    Json.within_writeOption (fun text => .string text) _,
    Json.within_writeOption within_payment _,
    Json.within_writeOption within_environment _,
    Json.within_writeOption within_rootfs _,
    Json.within_writeOption within_code _,
    Json.within_writeOption hruntime _, by simp⟩
  cases msg.machineType <;> exact .string _

/-! ## Bodies of messages -/

/-- The body of a message from which these fields are missing. -/
def bodyWithout (layout : Layout) (names resourceNames : List String)
    (msg : ExecutableMessage) : List UInt8 :=
  (writeJson layout (.object (JsonRecords.without names
    (msg.fields (.object (JsonRecords.without resourceNames
      msg.resources.fields)))))).toUTF8.toList

/-- The body is refused exactly when a field without a default is missing, the
content type does not name JSON, or the body is too long.  Otherwise the
machine and the port forwards that it is translated to are those of the
message that was written, with the defaults of what is missing. -/
theorem received_message_translated
    (extractors : Extractors) (contentType : Option String)
    (layout : Layout) (names resourceNames : List String)
    (msg : ExecutableMessage) (cache : CacheAnswers)
    (config : AdapterConfig) :
    ((MessagePost.mk contentType
        (bodyWithout layout names resourceNames msg)).message
          extractors).map
      (fun received => (received.itemHash,
        translateMessage cache config received.forAdapter,
        translatePortForwards received.forAdapter)) =
      if (∃ name ∈ neededOfMessage, name ∈ names) ∨
          extractors.namesJson contentType = false ∨
          extractors.jsonLimit <
            (bodyWithout layout names resourceNames msg).length then none
      else some (msg.itemHash,
        translateMessage cache config
          (msg.without names resourceNames).forAdapter,
        translatePortForwards
          (msg.without names resourceNames).forAdapter) := by
  have hwithin : (Json.object (JsonRecords.without names
      (msg.fields (.object (JsonRecords.without resourceNames
        msg.resources.fields))))).Within maxLevels :=
    within_without (msg.within_fields
      (within_without msg.resources.within_fields))
  have hread : ExecutableMessage.fromSlice
      (bodyWithout layout names resourceNames msg) =
        if ∃ name ∈ neededOfMessage, name ∈ names then none
        else some (msg.reread.without names resourceNames) := by
    rw [ExecutableMessage.fromSlice, bodyWithout,
      readBytes_writeJson layout hwithin, Option.bind_some,
      msg.deserialize_without names resourceNames]
  unfold MessagePost.message
  by_cases hjson : extractors.namesJson contentType = true
  swap
  · have hrefused : extractors.namesJson contentType = false := by
      simpa using hjson
    rw [if_neg hjson, if_pos (Or.inr (Or.inl hrefused))]
    rfl
  by_cases hlength : (bodyWithout layout names resourceNames msg).length ≤
      extractors.jsonLimit
  swap
  · rw [if_pos hjson, if_neg hlength,
      if_pos (Or.inr (Or.inr (Nat.lt_of_not_le hlength)))]
    rfl
  by_cases hneeded : ∃ name ∈ neededOfMessage, name ∈ names
  · rw [if_pos hjson, if_pos hlength, hread, if_pos hneeded,
      if_pos (Or.inl hneeded)]
    rfl
  have hserved : ¬ ((∃ name ∈ neededOfMessage, name ∈ names) ∨
      extractors.namesJson contentType = false ∨
      extractors.jsonLimit <
        (bodyWithout layout names resourceNames msg).length) := by
    rintro (hmissing | hother | hlong)
    · exact hneeded hmissing
    · rw [hjson] at hother
      cases hother
    · exact absurd hlength (Nat.not_le_of_lt hlong)
  rw [if_pos hjson, if_pos hlength, hread, if_neg hneeded, if_neg hserved,
    Option.map_some, translateMessage_reread]
  rfl

/-! ## Allocations -/

def readHashes (json : Json) : Option (Finset ItemHash) :=
  (readList readString json).map List.toFinset

def deserializeAllocation (json : Json) : Option Allocation := do
  let fields ← source 2 json
  let persistentVms ← fields.withDefault "persistent_vms" 0 readHashes ∅
  let instances ← fields.withDefault "instances" 1 readHashes ∅
  return ⟨persistentVms, instances⟩

def allocationFromSlice (body : List UInt8) : Option Allocation :=
  (readBytes body).bind deserializeAllocation

theorem readHashes_eq_some {json : Json} {hashes : Finset ItemHash} :
    readHashes json = some hashes ↔
      ∃ items : List ItemHash, json = .array (items.map .string) ∧
        items.toFinset = hashes := by
  simp only [readHashes, Option.map_eq_some_iff,
    readList_readString_eq_some]

/-- The values of a field that holds these hashes: an array of them in any
order, some perhaps more than once, or nothing when there are none. -/
def HoldsHashes (values : List Json) (hashes : Finset ItemHash) : Prop :=
  (values = [] ∧ hashes = ∅) ∨
    ∃ items : List ItemHash, values = [.array (items.map .string)] ∧
      items.toFinset = hashes

/-- An object with the two fields among any others, or an array of at most
two. -/
def ListsHashes (json : Json) (allocation : Allocation) : Prop :=
  (∃ fields, json = .object fields ∧
    HoldsHashes (valuesOf "persistent_vms" fields)
      allocation.persistentVms ∧
    HoldsHashes (valuesOf "instances" fields) allocation.instances) ∨
  ∃ items, json = .array items ∧ items.length ≤ 2 ∧
    HoldsHashes items[0]?.toList allocation.persistentVms ∧
    HoldsHashes items[1]?.toList allocation.instances

theorem withDefault_hashes_iff
    {fields : List (String × Json)} {name : String} {position : ℕ}
    {hashes : Finset ItemHash} :
    (Source.object fields).withDefault name position readHashes ∅ =
        some hashes ↔ HoldsHashes (valuesOf name fields) hashes := by
  simp only [Source.withDefault, Source.field, HoldsHashes]
  match valuesOf name fields with
  | [] => simp [eq_comm]
  | [json] => simp [readHashes_eq_some]
  | first :: second :: rest => simp

theorem withDefault_items_iff
    {items : List Json} {name : String} {position : ℕ}
    {hashes : Finset ItemHash} :
    (Source.array items).withDefault name position readHashes ∅ =
        some hashes ↔ HoldsHashes items[position]?.toList hashes := by
  simp only [Source.withDefault, Source.field, HoldsHashes]
  cases items[position]? with
  | none => simp [eq_comm]
  | some json => simp [readHashes_eq_some]

theorem deserializeAllocation_eq_some
    {json : Json} {allocation : Allocation} :
    deserializeAllocation json = some allocation ↔
      ListsHashes json allocation := by
  obtain ⟨persistentVms, instances⟩ := allocation
  cases json with
  | object fields =>
      simp only [deserializeAllocation, source, Option.bind_eq_bind,
        Option.bind_some, Option.bind_eq_some_iff, Option.pure_def,
        Option.some.injEq, Allocation.mk.injEq, withDefault_hashes_iff]
      constructor
      · rintro ⟨_, hpersistent, _, hinstances, rfl, rfl⟩
        exact .inl ⟨fields, rfl, hpersistent, hinstances⟩
      · rintro (⟨_, hfields, hpersistent, hinstances⟩ | ⟨_, hitems, _⟩)
        · cases hfields
          exact ⟨_, hpersistent, _, hinstances, rfl, rfl⟩
        · cases hitems
  | array items =>
      by_cases hlength : items.length ≤ 2
      · simp only [deserializeAllocation, source, if_pos hlength,
          Option.bind_eq_bind, Option.bind_some, Option.bind_eq_some_iff,
          Option.pure_def, Option.some.injEq, Allocation.mk.injEq,
          withDefault_items_iff]
        constructor
        · rintro ⟨_, hpersistent, _, hinstances, rfl, rfl⟩
          exact .inr ⟨items, rfl, hlength, hpersistent, hinstances⟩
        · rintro (⟨_, hfields, _⟩ | ⟨_, hitems, _, hpersistent, hinstances⟩)
          · cases hfields
          · cases hitems
            exact ⟨_, hpersistent, _, hinstances, rfl, rfl⟩
      · simp [deserializeAllocation, source, ListsHashes, hlength]
  | _ => simp [deserializeAllocation, source, ListsHashes]

/-- The agent with serde's reader of allocations. -/
def serdeLibs (libs : AgentLibs) (message : List UInt8 → String) :
    AgentLibs :=
  { libs with
    parseAllocation := fun body =>
      match allocationFromSlice body with
      | none => .error (message body)
      | some allocation => .ok allocation }

/-- The allocation that the agent acts on, if it is given the body at all. -/
def actedOn (extractors : Extractors) (libs : AgentLibs)
    (agent : AgentState) (request : AllocationRequest) : Option Allocation :=
  if request.body.length ≤ extractors.bytesLimit then
    acceptedAllocation libs agent request
  else none

/-- The agent acts on an allocation exactly when the body is not too long, the
request carries the authentication code of it, if the agent has a token, and
the body is JSON that lists the hashes of the allocation. -/
theorem actedOn_iff
    (extractors : Extractors) (libs : AgentLibs)
    (message : List UInt8 → String) (agent : AgentState)
    (request : AllocationRequest) (allocation : Allocation) :
    actedOn extractors (serdeLibs libs message) agent request =
        some allocation ↔
      request.body.length ≤ extractors.bytesLimit ∧
      (∀ tokenHash ∈ agent.allocationTokenHash,
        hexDecode (request.signature.getD "") =
          .ok (libs.hmacSha256 tokenHash request.body)) ∧
      ∃ json, readBytes request.body = some json ∧
        ListsHashes json allocation := by
  have hparsed : (serdeLibs libs message).parseAllocation request.body =
      .ok allocation ↔
        allocationFromSlice request.body = some allocation := by
    simp only [serdeLibs]
    cases allocationFromSlice request.body with
    | none => simp
    | some found => simp
  have hsigned : ∀ tokenHash,
      verifyAllocationSignature (serdeLibs libs message) request.body
          (request.signature.getD "") tokenHash = true ↔
        hexDecode (request.signature.getD "") =
          .ok (libs.hmacSha256 tokenHash request.body) := by
    intro tokenHash
    unfold verifyAllocationSignature
    cases hexDecode (request.signature.getD "") with
    | error message => simp
    | ok bytes => simp [serdeLibs]
  have hgiven : actedOn extractors (serdeLibs libs message) agent request =
      some allocation ↔ request.body.length ≤ extractors.bytesLimit ∧
        acceptedAllocation (serdeLibs libs message) agent request =
          some allocation := by
    unfold actedOn
    split_ifs with hlength <;> simp [hlength]
  rw [hgiven, acceptedAllocation_eq_some_iff, hparsed]
  simp only [hsigned, allocationFromSlice, Option.bind_eq_some_iff,
    deserializeAllocation_eq_some, Option.mem_def]

/-- A field that is passed over need not stand for a text. -/
example : allocationFromSlice
    "\x7b\"instances\":[\"a\"],\"x\":\"\\ud800\"\x7d".toUTF8.toList =
      some ⟨∅, {"a"}⟩ := by
  decide +kernel

end AlephCvm.Messages
