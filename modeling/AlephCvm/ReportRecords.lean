import AlephCvm.HexText
import AlephCvm.JsonRoundTrips

/-!
# Attestation reports in JSON

Model of what serde derives for `AttestationReport` in
`aleph-tee/src/types.rs`, with the two helpers `hex_serde` and
`hex_serde_array`.  The byte fields travel as hexadecimal text, and the text
of `report_data` has to spell 64 bytes.  The main result lists the JSON
objects that are read as a given report.
-/

namespace AlephCvm.Tee

open JsonRecords

/-! ## Serialisation -/

def TeeType.serialize : TeeType → Json
  | .sevSnp => .string "sev-snp"
  | .tdx => .string "tdx"
  | .nvidiaCc => .string "nvidia-cc"
  | .none => .string "none"

def TeeType.deserialize : Json → Option TeeType :=
  readUnitVariant fun
    | "sev-snp" => some .sevSnp
    | "tdx" => some .tdx
    | "nvidia-cc" => some .nvidiaCc
    | "none" => some .none
    | _ => Option.none

/-- `hex_serde::deserialize`. -/
def readHex (json : Json) : Option Bytes := do
  let text ← readString json
  (hexDecode text).toOption

/-- `try_into`. -/
def toReportData (bytes : Bytes) : Option ReportData :=
  if hlength : bytes.length = 64 then some ⟨bytes, hlength⟩ else none

/-- `hex_serde_array::deserialize`. -/
def readHexArray (json : Json) : Option ReportData := do
  let bytes ← readHex json
  toReportData bytes

def AttestationReport.serialize (report : AttestationReport) : Json :=
  .object [("tee_type", report.teeType.serialize),
    ("data", .string (hexEncode report.data)),
    ("report_data", .string (hexEncode report.reportData.toList)),
    ("measurement", .string (hexEncode report.measurement))]

def AttestationReport.deserialize (json : Json) :
    Option AttestationReport := do
  let fields ← source 4 json
  let teeType ← fields.required "tee_type" 0 TeeType.deserialize
  let data ← fields.required "data" 1 readHex
  let reportData ← fields.required "report_data" 2 readHexArray
  let measurement ← fields.required "measurement" 3 readHex
  return ⟨teeType, data, reportData, measurement⟩

/-! ## One field -/

theorem TeeType.deserialize_serialize (teeType : TeeType) :
    TeeType.deserialize teeType.serialize = some teeType := by
  cases teeType <;> rfl

/-- The JSON values that spell the bytes, in capitals or not. -/
def SpellsBytes (json : Json) (bytes : Bytes) : Prop :=
  ∃ text, json = .string text ∧
    text.toList.map Char.toLower = (hexEncode bytes).toList

theorem toOption_eq_some {ε α : Type} {result : Except ε α} {value : α} :
    result.toOption = some value ↔ result = .ok value := by
  cases result <;> simp [Except.toOption]

theorem readString_eq_some {json : Json} {text : String} :
    readString json = some text ↔ json = .string text := by
  cases json <;> simp [readString]

theorem readHex_eq_some {json : Json} {bytes : Bytes} :
    readHex json = some bytes ↔ SpellsBytes json bytes := by
  simp only [readHex, Option.bind_eq_bind, Option.bind_eq_some_iff,
    readString_eq_some, toOption_eq_some, hexDecode_eq_ok_iff, SpellsBytes]

theorem toReportData_eq_some {bytes : Bytes} {reportData : ReportData} :
    toReportData bytes = some reportData ↔ bytes = reportData.toList := by
  unfold toReportData
  by_cases hlength : bytes.length = 64
  · rw [dif_pos hlength]
    constructor
    · intro hsome
      have hsame := Option.some.inj hsome
      rw [← hsame]
      rfl
    · intro hsame
      exact congrArg some (List.Vector.toList_injective hsame)
  · rw [dif_neg hlength]
    constructor
    · intro hnone
      cases hnone
    · intro hsame
      rw [hsame] at hlength
      exact absurd (List.Vector.toList_length reportData) hlength

theorem readHexArray_eq_some {json : Json} {reportData : ReportData} :
    readHexArray json = some reportData ↔
      SpellsBytes json reportData.toList := by
  simp only [readHexArray, Option.bind_eq_bind, Option.bind_eq_some_iff,
    readHex_eq_some, toReportData_eq_some, exists_eq_right]

theorem Source.required_object_eq_some
    {α : Type} {fields : List (String × Json)} {name : String}
    {position : ℕ} {read : Json → Option α} {value : α} :
    (Source.object fields).required name position read = some value ↔
      ∃ json, valuesOf name fields = [json] ∧ read json = some value := by
  simp only [Source.required, Source.field]
  cases valuesOf name fields with
  | nil => simp
  | cons first rest =>
      cases rest with
      | nil => simp
      | cons second rest => simp

/-! ## A whole report -/

/-- The field occurs once, with a value that is as described. -/
def HasOne (fields : List (String × Json)) (name : String)
    (described : Json → Prop) : Prop :=
  ∃ json, valuesOf name fields = [json] ∧ described json

/-- An object is read as the report exactly when each of the four fields
occurs once in it, in any order and among any others, and the three texts
spell the bytes of the report in hexadecimal, in capitals or not. -/
theorem AttestationReport.deserialize_object_iff
    (fields : List (String × Json)) (report : AttestationReport) :
    AttestationReport.deserialize (.object fields) = some report ↔
      HasOne fields "tee_type" (fun json =>
        TeeType.deserialize json = some report.teeType) ∧
      HasOne fields "data" (fun json => SpellsBytes json report.data) ∧
      HasOne fields "report_data" (fun json =>
        SpellsBytes json report.reportData.toList) ∧
      HasOne fields "measurement" (fun json =>
        SpellsBytes json report.measurement) := by
  obtain ⟨teeType, data, reportData, measurement⟩ := report
  simp only [AttestationReport.deserialize, source, Option.bind_eq_bind,
    Option.bind_some, Option.bind_eq_some_iff, Option.pure_def,
    Option.some.injEq, AttestationReport.mk.injEq,
    Source.required_object_eq_some, readHex_eq_some,
    readHexArray_eq_some, HasOne]
  constructor
  · rintro ⟨_, hteeType, _, hdata, _, hreportData, _, hmeasurement, rfl,
      rfl, rfl, rfl⟩
    exact ⟨hteeType, hdata, hreportData, hmeasurement⟩
  · intro ⟨hteeType, hdata, hreportData, hmeasurement⟩
    exact ⟨teeType, hteeType, data, hdata, reportData, hreportData,
      measurement, hmeasurement, rfl, rfl, rfl, rfl⟩

theorem spellsBytes_hexEncode (bytes : Bytes) :
    SpellsBytes (.string (hexEncode bytes)) bytes := by
  refine ⟨hexEncode bytes, rfl, ?_⟩
  rw [← hexDecode_eq_ok_iff, hexDecode_hexEncode]

theorem AttestationReport.deserialize_serialize
    (report : AttestationReport) :
    AttestationReport.deserialize report.serialize = some report := by
  rw [AttestationReport.serialize, deserialize_object_iff]
  refine ⟨⟨_, rfl, report.teeType.deserialize_serialize⟩, ⟨_, rfl, ?_⟩,
    ⟨_, rfl, ?_⟩, ⟨_, rfl, ?_⟩⟩
  · exact spellsBytes_hexEncode report.data
  · exact spellsBytes_hexEncode report.reportData.toList
  · exact spellsBytes_hexEncode report.measurement

def AttestationReport.format : RecordFormat AttestationReport where
  serialize := AttestationReport.serialize
  deserialize := AttestationReport.deserialize
  within := by
    intro report
    apply Json.Within.object
    intro field hfield
    simp only [List.mem_cons, List.not_mem_nil, or_false] at hfield
    rcases hfield with rfl | rfl | rfl | rfl
    · cases report.teeType <;> exact .string _
    · exact .string _
    · exact .string _
    · exact .string _
  deserialize_serialize := AttestationReport.deserialize_serialize

end AlephCvm.Tee
