import AlephCvm.JsonRoundTrips

/-!
# Fields of records

Reading the fields of a record: numbers of fewer than 64 bits, fields that are
found under their names, and records from which some of the fields are
missing.
-/

namespace JsonRecords

/-! ## Numbers -/

def readBelow (limit : ℕ) (json : Json) : Option ℕ := do
  let value ← readUnsigned json
  if value.toNat < limit then some value.toNat else none

def readU16 (json : Json) : Option UInt16 :=
  (readBelow (2 ^ 16) json).map UInt16.ofNat

def readU32 (json : Json) : Option UInt32 :=
  (readBelow (2 ^ 32) json).map UInt32.ofNat

def writeNumber (value : ℕ) : Json := .unsigned (UInt64.ofNat value)

theorem readBelow_writeNumber {limit value : ℕ} (hlimit : limit ≤ 2 ^ 64)
    (hvalue : value < limit) :
    readBelow limit (writeNumber value) = some value := by
  have hnat : (UInt64.ofNat value).toNat = value := by
    rw [UInt64.toNat_ofNat']
    omega
  simp only [readBelow, writeNumber, readUnsigned, Option.bind_eq_bind,
    Option.bind_some, hnat, if_pos hvalue]

theorem readU16_writeNumber (value : UInt16) :
    readU16 (writeNumber value.toNat) = some value := by
  rw [readU16, readBelow_writeNumber (by decide) value.toNat_lt]
  simp

theorem readU32_writeNumber (value : UInt32) :
    readU32 (writeNumber value.toNat) = some value := by
  rw [readU32, readBelow_writeNumber (by decide) value.toNat_lt]
  simp

/-! ## Fields and their names -/

/-- Fields with different names are found under their names. -/
theorem valuesOf_of_nodup
    {fields : List (String × Json)}
    (hnodup : (fields.map Prod.fst).Nodup) :
    ∀ entry ∈ fields, valuesOf entry.1 fields = [entry.2] := by
  induction fields with
  | nil => simp
  | cons field rest ih =>
      rw [List.map_cons, List.nodup_cons] at hnodup
      intro entry hentry
      rcases List.mem_cons.mp hentry with rfl | hlater
      · have hnone : rest.filter (fun other => other.1 == entry.1) = [] := by
          rw [List.filter_eq_nil_iff]
          intro other hother hsame
          apply hnodup.1
          rw [← beq_iff_eq.mp hsame]
          exact List.mem_map_of_mem hother
        simp [valuesOf, hnone]
      · have hother : (field.1 == entry.1) = false := by
          rw [beq_eq_false_iff_ne]
          intro hsame
          apply hnodup.1
          rw [hsame]
          exact List.mem_map_of_mem hlater
        have hrest := ih hnodup.2 entry hlater
        simp only [valuesOf, List.filter_cons, hother] at hrest ⊢
        simpa using hrest

theorem readList_writeList_map
    {α β : Type} {read : Json → Option β} {write : α → Json} {found : α → β}
    (hread : ∀ value, read (write value) = some (found value))
    (values : List α) :
    readList read (writeList write values) = some (values.map found) := by
  simp only [readList, writeList]
  induction values with
  | nil => rfl
  | cons value rest ih => simp [hread, ih]

theorem readString_eq_some {json : Json} {text : String} :
    readString json = some text ↔ json = .string text := by
  cases json <;> simp [readString]

theorem mapM_readString_eq_some {items : List Json} {texts : List String} :
    items.mapM readString = some texts ↔ items = texts.map .string := by
  induction items generalizing texts with
  | nil =>
      cases texts with
      | nil => simp
      | cons text rest => simp
  | cons item items ih =>
      rw [List.mapM_cons]
      simp only [Option.bind_eq_bind, Option.bind_eq_some_iff,
        readString_eq_some, ih, Option.pure_def, Option.some.injEq]
      cases texts with
      | nil => simp
      | cons text rest => simp

theorem readList_readString_eq_some {json : Json} {texts : List String} :
    readList readString json = some texts ↔
      json = .array (texts.map .string) := by
  cases json with
  | array items => simp [readList, mapM_readString_eq_some]
  | _ => simp [readList]

theorem readOption_string (text : Option String) :
    readOption readString (writeOption .string text) = some text := by
  apply readOption_writeOption
  · intro value
    rfl
  · intro value
    simp

theorem readOption_u32 (value : Option UInt32) :
    readOption readU32 (writeOption (fun node => writeNumber node.toNat)
      value) = some value := by
  apply readOption_writeOption readU32_writeNumber
  intro node
  simp [writeNumber]

/-! ## Records without some of their fields -/

/-- The fields with other names than these. -/
def without (names : List String) (fields : List (String × Json)) :
    List (String × Json) :=
  fields.filter fun field => decide (field.1 ∉ names)

theorem valuesOf_without
    (names : List String) (fields : List (String × Json))
    (name : String) :
    valuesOf name (without names fields) =
      if name ∈ names then [] else valuesOf name fields := by
  simp only [valuesOf, without, List.filter_filter]
  split_ifs with hname
  · have hnone : fields.filter (fun field => field.1 == name &&
        decide (field.1 ∉ names)) = [] := by
      rw [List.filter_eq_nil_iff]
      intro field _ hboth
      simp only [Bool.and_eq_true, beq_iff_eq, decide_eq_true_eq] at hboth
      exact hboth.2 (hboth.1 ▸ hname)
    rw [hnone]
    rfl
  · congr 1
    apply List.filter_congr
    intro field _
    by_cases hsame : field.1 = name
    · simp [hsame, hname]
    · simp [hsame]

section Without

variable {α : Type} (names : List String) (fields : List (String × Json))
  (name : String) (position : ℕ) (read : Json → Option α)

theorem required_without :
    (Source.object (without names fields)).required name position read =
      if name ∈ names then none
      else (Source.object fields).required name position read := by
  simp only [Source.required, Source.field, valuesOf_without]
  split_ifs with hname <;> rfl

theorem optional_without :
    (Source.object (without names fields)).optional name position read =
      if name ∈ names then some none
      else (Source.object fields).optional name position read := by
  simp only [Source.optional, Source.field, valuesOf_without]
  split_ifs with hname <;> rfl

theorem withDefault_without (value : α) :
    (Source.object (without names fields)).withDefault name position read
        value =
      if name ∈ names then some value
      else (Source.object fields).withDefault name position read value := by
  simp only [Source.withDefault, Source.field, valuesOf_without]
  split_ifs with hname <;> rfl

variable {names fields name read} {json : Json}
  (hvalues : valuesOf name fields = [json])

include hvalues

theorem required_kept {found : α} (hread : read json = some found) :
    (Source.object (without names fields)).required name position read =
      if name ∈ names then none else some found := by
  rw [required_without]
  simp only [Source.required, Source.field, hvalues, hread]

theorem optional_kept {found : Option α}
    (hread : readOption read json = some found) :
    (Source.object (without names fields)).optional name position read =
      some (if name ∈ names then none else found) := by
  rw [optional_without]
  simp only [Source.optional, Source.field, hvalues, hread]
  rw [apply_ite some]

theorem withDefault_kept (value : α) {found : α}
    (hread : read json = some found) :
    (Source.object (without names fields)).withDefault name position read
        value =
      some (if name ∈ names then value else found) := by
  rw [withDefault_without]
  simp only [Source.withDefault, Source.field, hvalues, hread]
  rw [apply_ite some]

end Without

@[simp]
theorem without_nil (fields : List (String × Json)) :
    without [] fields = fields := by
  simp [without]

theorem within_without
    {depth : ℕ} {names : List String} {fields : List (String × Json)}
    (hfields : ∀ field ∈ fields, field.2.Within depth) :
    (Json.object (without names fields)).Within (depth + 1) :=
  .object fun field hfield => hfields field (List.mem_of_mem_filter hfield)

end JsonRecords
