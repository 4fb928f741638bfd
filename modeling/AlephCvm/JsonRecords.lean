import Mathlib.Data.List.Basic

/-!
# Records in JSON

How a value of a record type is read from a JSON tree: from an object by the
names of its fields, from an array by their positions.  Unknown names are
passed over, a name that occurs twice is an error, and a field says what it is
when it is absent.  A type without a tag is read as the first of its variants
that can be read.
-/

namespace JsonRecords

/-- Numbers are kept apart by what can be read from them: an integer of 64
bits without a sign, and any other number.  A string that stands for no text,
and an object with such a string for a name, are not decoded; this does no
harm below a name that is passed over. -/
inductive Json where
  | null
  | bool (value : Bool)
  | unsigned (value : UInt64)
  | otherNumber (text : String)
  | string (text : String)
  | array (items : List Json)
  | object (fields : List (String × Json))
  | undecoded

variable {α β : Type}

/-! ## Values -/

def readBool : Json → Option Bool
  | .bool value => some value
  | _ => none

def readUnsigned : Json → Option UInt64
  | .unsigned value => some value
  | _ => none

def readString : Json → Option String
  | .string text => some text
  | _ => none

def readOption (read : Json → Option α) : Json → Option (Option α)
  | .null => some none
  | json => (read json).map some

def readList (read : Json → Option α) : Json → Option (List α)
  | .array items => items.mapM read
  | _ => none

def writeOption (write : α → Json) : Option α → Json
  | none => .null
  | some value => write value

def writeList (write : α → Json) (values : List α) : Json :=
  .array (values.map write)

/-- A variant without data is its name, or an object with its name and
nothing under it. -/
def readUnitVariant (variants : String → Option α) : Json → Option α
  | .string name => variants name
  | .object [(name, .null)] => variants name
  | _ => none

/-! ## Fields -/

/-- The values that an object has under a name. -/
def valuesOf (name : String) (fields : List (String × Json)) : List Json :=
  (fields.filter fun field => field.1 == name).map Prod.snd

/-- What the fields of a record are read from. -/
inductive Source where
  | object (fields : List (String × Json))
  | array (items : List Json)

/-- An array may be shorter than the record, but not longer. -/
def source (arity : ℕ) : Json → Option Source
  | .object fields => some (.object fields)
  | .array items => if items.length ≤ arity then some (.array items) else none
  | _ => none

/-- A field with its name and position, its value when an object does not
have it, and its value when an array is too short for it. -/
def Source.field (from_ : Source) (name : String) (position : ℕ)
    (read : Json → Option α) (absent short : Option α) : Option α :=
  match from_ with
  | .object fields =>
      match valuesOf name fields with
      | [] => absent
      | [json] => read json
      | _ => none
  | .array items =>
      match items[position]? with
      | none => short
      | some json => read json

/-- A field that has to be there. -/
def Source.required (from_ : Source) (name : String) (position : ℕ)
    (read : Json → Option α) : Option α :=
  from_.field name position read none none

/-- A field that is `none` when an object does not have it. -/
def Source.optional (from_ : Source) (name : String) (position : ℕ)
    (read : Json → Option α) : Option (Option α) :=
  from_.field name position (readOption read) (some none) none

def Source.withDefault (from_ : Source) (name : String) (position : ℕ)
    (read : Json → Option α) (value : α) : Option α :=
  from_.field name position read (some value) (some value)

/-! ## Reading what was written -/

theorem readOption_writeOption
    {read : Json → Option α} {write : α → Json}
    (hround : ∀ value, read (write value) = some value)
    (hnull : ∀ value, write value ≠ .null) (value : Option α) :
    readOption read (writeOption write value) = some value := by
  cases value with
  | none => rfl
  | some value =>
      have hread := hround value
      simp only [writeOption]
      unfold readOption
      split
      · rename_i hwritten
        exact absurd hwritten (hnull value)
      · rw [hread]
        rfl

/-- A list comes back when each of its elements does. -/
theorem readList_writeList_iff
    {read : Json → Option α} {write : α → Json} {values : List α} :
    readList read (writeList write values) = some values ↔
      ∀ value ∈ values, read (write value) = some value := by
  simp only [readList, writeList]
  induction values with
  | nil => simp
  | cons value rest ih =>
      simp only [List.map_cons, List.mapM_cons, List.forall_mem_cons]
      constructor
      · intro hread
        cases hvalue : read (write value) with
        | none => simp [hvalue] at hread
        | some found =>
            cases hrest : (rest.map write).mapM read with
            | none => simp [hvalue, hrest] at hread
            | some others =>
                simp [hvalue, hrest] at hread
                refine ⟨by rw [hread.1], ih.mp ?_⟩
                rw [hrest, hread.2]
      · intro hboth
        simp [hboth.1, ih.mpr hboth.2]

end JsonRecords
