import AlephCvm.JsonRecords
import AlephCvm.MessageAdapter

/-!
# Volumes of messages in JSON

Model of the volume types of `aleph-scheduler-agent/src/aleph/messages.rs`
with all their fields, and of what serde derives for them.  A volume carries
no tag; it is read as the first of the three variants that fits, and what is
written for an ephemeral volume fits the second one.
-/

namespace AlephCvm.Messages

open JsonRecords AlephCvm.Agent

structure ImmutableVolume where
  itemRef : ItemHash
  mount : String
  useLatest : Bool
  deriving DecidableEq, Repr

structure ParentVolume where
  itemRef : ItemHash
  useLatest : Bool
  deriving DecidableEq, Repr

inductive VolumePersistence where
  | host
  | store
  deriving DecidableEq, Repr

structure PersistentVolume where
  mount : String
  name : Option String
  sizeMib : UInt64
  parent : Option ParentVolume
  persistence : VolumePersistence
  deriving DecidableEq, Repr

structure EphemeralVolume where
  mount : String
  ephemeral : Bool
  sizeMib : UInt64
  deriving DecidableEq, Repr

inductive MachineVolume where
  | immutable (volume : ImmutableVolume)
  | persistent (volume : PersistentVolume)
  | ephemeral (volume : EphemeralVolume)
  deriving DecidableEq, Repr

def MachineVolume.isEphemeral : MachineVolume → Bool
  | .ephemeral _ => true
  | _ => false

def MachineVolume.isReadOnly : MachineVolume → Bool
  | .immutable _ => true
  | _ => false

/-! ## Serialisation -/

def ImmutableVolume.serialize (volume : ImmutableVolume) : Json :=
  .object [("ref", .string volume.itemRef), ("mount", .string volume.mount),
    ("use_latest", .bool volume.useLatest)]

def ParentVolume.serialize (volume : ParentVolume) : Json :=
  .object [("ref", .string volume.itemRef),
    ("use_latest", .bool volume.useLatest)]

def VolumePersistence.serialize : VolumePersistence → Json
  | .host => .string "host"
  | .store => .string "store"

def PersistentVolume.serialize (volume : PersistentVolume) : Json :=
  .object [("mount", .string volume.mount),
    ("name", writeOption .string volume.name),
    ("size_mib", .unsigned volume.sizeMib),
    ("parent", writeOption ParentVolume.serialize volume.parent),
    ("persistence", volume.persistence.serialize)]

def EphemeralVolume.serialize (volume : EphemeralVolume) : Json :=
  .object [("mount", .string volume.mount),
    ("ephemeral", .bool volume.ephemeral),
    ("size_mib", .unsigned volume.sizeMib)]

def MachineVolume.serialize : MachineVolume → Json
  | .immutable volume => volume.serialize
  | .persistent volume => volume.serialize
  | .ephemeral volume => volume.serialize

/-! ## Deserialisation -/

def defaultTrue : Bool := true

def ImmutableVolume.deserialize (json : Json) : Option ImmutableVolume := do
  let fields ← source 3 json
  let itemRef ← fields.required "ref" 0 readString
  let mount ← fields.required "mount" 1 readString
  let useLatest ← fields.withDefault "use_latest" 2 readBool defaultTrue
  return ⟨itemRef, mount, useLatest⟩

def ParentVolume.deserialize (json : Json) : Option ParentVolume := do
  let fields ← source 2 json
  let itemRef ← fields.required "ref" 0 readString
  let useLatest ← fields.withDefault "use_latest" 1 readBool defaultTrue
  return ⟨itemRef, useLatest⟩

def VolumePersistence.deserialize : Json → Option VolumePersistence :=
  readUnitVariant fun
    | "host" => some .host
    | "store" => some .store
    | _ => none

def PersistentVolume.deserialize (json : Json) :
    Option PersistentVolume := do
  let fields ← source 5 json
  let mount ← fields.required "mount" 0 readString
  let name ← fields.optional "name" 1 readString
  let sizeMib ← fields.required "size_mib" 2 readUnsigned
  let parent ← fields.optional "parent" 3 ParentVolume.deserialize
  let persistence ← fields.withDefault "persistence" 4
    VolumePersistence.deserialize .host
  return ⟨mount, name, sizeMib, parent, persistence⟩

def EphemeralVolume.deserialize (json : Json) : Option EphemeralVolume := do
  let fields ← source 3 json
  let mount ← fields.required "mount" 0 readString
  let ephemeral ← fields.required "ephemeral" 1 readBool
  let sizeMib ← fields.required "size_mib" 2 readUnsigned
  return ⟨mount, ephemeral, sizeMib⟩

/-- The first variant that fits. -/
def MachineVolume.deserialize (json : Json) : Option MachineVolume :=
  (ImmutableVolume.deserialize json).map .immutable <|>
    (PersistentVolume.deserialize json).map .persistent <|>
      (EphemeralVolume.deserialize json).map .ephemeral

/-- The `volumes` of a message. -/
def serializeVolumes (volumes : List MachineVolume) : Json :=
  writeList MachineVolume.serialize volumes

def deserializeVolumes (json : Json) : Option (List MachineVolume) :=
  readList MachineVolume.deserialize json

/-! ## One record -/

theorem ImmutableVolume.deserialize_serialize (volume : ImmutableVolume) :
    ImmutableVolume.deserialize volume.serialize = some volume := by
  simp [deserialize, serialize, source, Source.required, Source.withDefault,
    Source.field, valuesOf, readString, readBool]

theorem ParentVolume.deserialize_serialize (volume : ParentVolume) :
    ParentVolume.deserialize volume.serialize = some volume := by
  simp [deserialize, serialize, source, Source.required, Source.withDefault,
    Source.field, valuesOf, readString, readBool]

theorem VolumePersistence.deserialize_serialize
    (persistence : VolumePersistence) :
    VolumePersistence.deserialize persistence.serialize =
      some persistence := by
  cases persistence <;> rfl

theorem PersistentVolume.deserialize_serialize (volume : PersistentVolume) :
    PersistentVolume.deserialize volume.serialize = some volume := by
  have hname : readOption readString (writeOption Json.string volume.name) =
      some volume.name := by
    apply readOption_writeOption
    · intro name
      rfl
    · intro name hnull
      cases hnull
  have hparent : readOption ParentVolume.deserialize
      (writeOption ParentVolume.serialize volume.parent) =
        some volume.parent := by
    apply readOption_writeOption
    · exact ParentVolume.deserialize_serialize
    · intro parent hnull
      cases hnull
  simp [deserialize, serialize, source, Source.required, Source.optional,
    Source.withDefault, Source.field, valuesOf, readString, readUnsigned,
    hname, hparent, VolumePersistence.deserialize_serialize]

/-! ## One volume -/

/-- Without a reference there is no immutable volume. -/
theorem ImmutableVolume.deserialize_of_no_ref
    {fields : List (String × Json)} (hvalues : valuesOf "ref" fields = []) :
    ImmutableVolume.deserialize (.object fields) = none := by
  simp [deserialize, source, Source.required, Source.field, hvalues]

/-- What an ephemeral volume is read as. -/
def EphemeralVolume.asPersistent (volume : EphemeralVolume) :
    PersistentVolume where
  mount := volume.mount
  name := none
  sizeMib := volume.sizeMib
  parent := none
  persistence := .host

theorem EphemeralVolume.deserialize_persistent (volume : EphemeralVolume) :
    PersistentVolume.deserialize volume.serialize =
      some volume.asPersistent := by
  simp [PersistentVolume.deserialize, serialize, source, Source.required,
    Source.optional, Source.withDefault, Source.field, valuesOf, readString,
    readUnsigned, asPersistent]

/-- What a volume is read as after it has been written. -/
def MachineVolume.reread : MachineVolume → MachineVolume
  | .ephemeral volume => .persistent volume.asPersistent
  | volume => volume

theorem MachineVolume.deserialize_serialize (volume : MachineVolume) :
    MachineVolume.deserialize volume.serialize = some volume.reread := by
  cases volume with
  | immutable volume =>
      simp [deserialize, serialize, reread,
        ImmutableVolume.deserialize_serialize]
  | persistent volume =>
      have hnone : ImmutableVolume.deserialize volume.serialize = none :=
        ImmutableVolume.deserialize_of_no_ref (by simp [valuesOf])
      simp [deserialize, serialize, reread, hnone,
        PersistentVolume.deserialize_serialize]
  | ephemeral volume =>
      have hnone : ImmutableVolume.deserialize volume.serialize = none :=
        ImmutableVolume.deserialize_of_no_ref (by simp [valuesOf])
      simp [deserialize, serialize, reread, hnone,
        EphemeralVolume.deserialize_persistent]

theorem MachineVolume.round_trip_iff (volume : MachineVolume) :
    MachineVolume.deserialize volume.serialize = some volume ↔
      volume.isEphemeral = false := by
  rw [deserialize_serialize]
  cases volume <;> simp [reread, isEphemeral]

/-- A volume comes back from its JSON exactly when it is not ephemeral, and
the volumes of a message do exactly when none of them is. -/
theorem volumes_round_trip_iff
    (volume : MachineVolume) (volumes : List MachineVolume) :
    (MachineVolume.deserialize volume.serialize = some volume ↔
      volume.isEphemeral = false) ∧
    (deserializeVolumes (serializeVolumes volumes) = some volumes ↔
      ∀ volume ∈ volumes, volume.isEphemeral = false) := by
  constructor
  · exact volume.round_trip_iff
  · unfold deserializeVolumes serializeVolumes
    rw [readList_writeList_iff]
    simp only [MachineVolume.round_trip_iff]

theorem ephemeral_volume_becomes_persistent :
    MachineVolume.deserialize
        (MachineVolume.ephemeral ⟨"/tmp", true, 500⟩).serialize =
      some (.persistent ⟨"/tmp", none, 500, none, .host⟩) ∧
    MachineVolume.deserialize
        (MachineVolume.ephemeral ⟨"/tmp", true, 500⟩).serialize ≠
      some (.ephemeral ⟨"/tmp", true, 500⟩) := by
  rw [MachineVolume.deserialize_serialize]
  decide

/-! ## Disks -/

/-- What the adapter looks at. -/
def MachineVolume.forAdapter : MachineVolume → Agent.MachineVolume
  | .immutable volume => .immutable volume.itemRef
  | .persistent volume =>
      .persistent (volume.parent.map ParentVolume.itemRef)
  | .ephemeral _ => .ephemeral

/-- The change of the variant is seen neither in the disks of the machine nor
in what `is_read_only` says. -/
theorem volumeDisk_reread (cache : CacheAnswers) (volume : MachineVolume) :
    volumeDisk cache volume.reread.forAdapter =
        volumeDisk cache volume.forAdapter ∧
      volume.reread.isReadOnly = volume.isReadOnly := by
  cases volume <;> exact ⟨rfl, rfl⟩

end AlephCvm.Messages
