import AlephCvm.CertVerifier

/-!
# The attestation agent

Model of `aleph-attest-agent/src/attestation.rs`, of the attestation endpoint
in `proxy.rs` and of the report retrieval in `aleph-tee/src/sev_snp/backend.rs`.
Two functions of the agent fill the same 64 signed bytes.  The agent calls
`getKeyBoundReport` once, for its TLS key; anybody reaches
`getNonceBoundReport` through the endpoint, with a nonce of any length.
Nothing in the signed bytes tells the two apart, so the endpoint signs
whatever key binding the nonce spells out.  The main theorem describes the
nonces that forge a binding.
-/

namespace AlephCvm.Tee

open ResultContext

variable {Cert Key : Type}

/-! ## Reports from the secure processor -/

/-- The guest firmware device at the time of one request. -/
structure Firmware where
  opened : Except String Unit
  getReport : ReportData → Except String Bytes

def parseReport (libs : TeeLibs Cert Key) (raw : Bytes) :
    Except String AttestationReport := do
  let parsed ← parseSevSnpReport libs raw
  return {
    teeType := .sevSnp
    data := raw
    reportData := parsed.reportData
    measurement := parsed.measurement.toList }

def getReport (libs : TeeLibs Cert Key) (firmware : Firmware)
    (reportData : ReportData) : Except String AttestationReport := do
  chainContext "failed to open /dev/sev-guest" firmware.opened
  let raw ← mapError (fun e => s!"SEV-SNP get_report failed: {e}")
    (firmware.getReport reportData)
  parseReport libs raw

def getKeyBoundReport (libs : TeeLibs Cert Key) (firmware : Firmware)
    (publicKeyBytes : Bytes) : Except String AttestationReport :=
  context "failed to get key-bound attestation report"
    (getReport libs firmware
      (keyBoundReportData (libs.sha384 publicKeyBytes)))

/-- Nonces longer than the field are hashed, the others are copied. -/
def nonceReportData (sha384 : Bytes → Digest384) (nonce : Bytes) :
    ReportData :=
  if hlength : nonce.length ≤ 64 then zeroPad nonce hlength
  else keyBoundReportData (sha384 nonce)

def getNonceBoundReport (libs : TeeLibs Cert Key) (firmware : Firmware)
    (nonce : Bytes) : Except String AttestationReport :=
  chainContext "failed to get nonce-bound attestation report"
    (getReport libs firmware (nonceReportData libs.sha384 nonce))

/-! ## The endpoint -/

inductive EndpointResponse where
  | ok (report : AttestationReport)
  | badRequest (error : String)
  | internalServerError (error : String)

def attestationEndpoint (libs : TeeLibs Cert Key) (firmware : Firmware)
    (query : String) : EndpointResponse :=
  match hexDecode query with
  | .error e => .badRequest s!"invalid hex nonce: {e.message}"
  | .ok nonce =>
      match getNonceBoundReport libs firmware nonce with
      | .ok report => .ok report
      | .error e => .internalServerError s!"attestation failed: {e}"

/-- One request to the endpoint and the firmware it meets. -/
structure EndpointRequest where
  query : String
  firmware : Firmware

def serveRequests (libs : TeeLibs Cert Key)
    (requests : List EndpointRequest) : List EndpointResponse :=
  requests.map fun request =>
    attestationEndpoint libs request.firmware request.query

/-! ## The signed field of a returned report -/

/-- The processor signs the report data it is handed. -/
def SignsReportData (libs : TeeLibs Cert Key) (firmware : Firmware) : Prop :=
  ∀ reportData raw parsed, firmware.getReport reportData = .ok raw →
    parseSevSnpReport libs raw = .ok parsed → parsed.reportData = reportData

theorem getReport_reportData
    {libs : TeeLibs Cert Key} {firmware : Firmware}
    {reportData : ReportData} {report : AttestationReport}
    (hsigns : SignsReportData libs firmware)
    (hok : getReport libs firmware reportData = .ok report) :
    report.reportData = reportData := by
  simp only [getReport, parseReport, bind_eq_ok, chainContext_eq_ok,
    mapError_eq_ok, pure_eq_ok] at hok
  obtain ⟨_, _, raw, hraw, parsed, hparsed, rfl⟩ := hok
  exact hsigns reportData raw parsed hraw hparsed

/-- The report in the agent's own certificate passes the client's check for
the agent's own key. -/
theorem getKeyBoundReport_binds
    {libs : TeeLibs Cert Key} {firmware : Firmware}
    {publicKeyBytes : Bytes} {report : AttestationReport}
    (hsigns : SignsReportData libs firmware)
    (hok : getKeyBoundReport libs firmware publicKeyBytes = .ok report) :
    keyBindingMatches libs.sha384 report publicKeyBytes = true := by
  rw [getKeyBoundReport, context_eq_ok] at hok
  simp [keyBindingMatches, getReport_reportData hsigns hok]

theorem attestationEndpoint_eq_ok
    {libs : TeeLibs Cert Key} {firmware : Firmware} {query : String}
    {report : AttestationReport} :
    attestationEndpoint libs firmware query = .ok report ↔
      ∃ nonce, hexDecode query = .ok nonce ∧
        getReport libs firmware (nonceReportData libs.sha384 nonce) =
          .ok report := by
  unfold attestationEndpoint
  cases hdecode : hexDecode query with
  | error e => simp
  | ok nonce =>
      simp only [Except.ok.injEq, exists_eq_left']
      have hcontext : getNonceBoundReport libs firmware nonce =
          .ok report ↔ getReport libs firmware
            (nonceReportData libs.sha384 nonce) = .ok report :=
        chainContext_eq_ok
      rw [← hcontext]
      cases getNonceBoundReport libs firmware nonce with
      | error e => simp
      | ok returned => simp

/-! ## Nonces that forge a key binding -/

/-- The nonces whose signed field is the key binding of a foreign key.  A
short one spells the digest of a foreign key and at most sixteen zeros.  A
long one is itself a key whose digest gets signed, so it is harmless only
when it is the agent's own key and that key shares its digest with no
other. -/
def NonceForges (sha384 : Bytes → Digest384) (own nonce : Bytes) : Prop :=
  if nonce.length ≤ 64 then
    ∃ foreign, foreign ≠ own ∧
      nonce ++ List.replicate (64 - nonce.length) 0 =
        (sha384 foreign).toList ++ List.replicate 16 0
  else
    nonce ≠ own ∨ ∃ foreign, foreign ≠ own ∧ sha384 foreign = sha384 own

theorem nonceForges_iff
    (sha384 : Bytes → Digest384) (own nonce : Bytes) :
    NonceForges sha384 own nonce ↔
      ∃ foreign, foreign ≠ own ∧
        nonceReportData sha384 nonce =
          keyBoundReportData (sha384 foreign) := by
  unfold NonceForges nonceReportData
  by_cases hlength : nonce.length ≤ 64
  · simp only [hlength, if_true, dif_pos]
    have hfield : ∀ foreign,
        nonce ++ List.replicate (64 - nonce.length) 0 =
            (sha384 foreign).toList ++ List.replicate 16 0 ↔
          zeroPad nonce hlength = keyBoundReportData (sha384 foreign) := by
      intro foreign
      rw [← zeroPad_toList nonce hlength, ← keyBoundReportData_toList]
      exact List.Vector.toList_injective.eq_iff
    simp only [hfield]
  · simp only [hlength, if_false, dif_neg, not_false_eq_true]
    constructor
    · rintro (hforeign | ⟨foreign, hne, hcollision⟩)
      · exact ⟨nonce, hforeign, rfl⟩
      · by_cases hnonce : nonce = own
        · exact ⟨foreign, hne, by rw [hnonce, hcollision]⟩
        · exact ⟨nonce, hnonce, rfl⟩
    · rintro ⟨foreign, hne, hfield⟩
      have hdigest := keyBoundReportData_injective hfield
      by_cases hnonce : nonce = own
      · exact Or.inr ⟨foreign, hne, by rw [← hdigest, hnonce]⟩
      · exact Or.inl hnonce

/-- The request reaches a processor that answers, with a forging nonce. -/
def ForgingRequest (libs : TeeLibs Cert Key) (own : Bytes)
    (request : EndpointRequest) : Prop :=
  ∃ nonce, hexDecode request.query = .ok nonce ∧
    NonceForges libs.sha384 own nonce ∧
    ∃ report, getReport libs request.firmware
      (nonceReportData libs.sha384 nonce) = .ok report

/-- No returned report passes the client's key-binding check for a key other
than the agent's own. -/
def BindsOnlyOwnKey (libs : TeeLibs Cert Key) (own : Bytes)
    (responses : List EndpointResponse) : Prop :=
  ∀ report, EndpointResponse.ok report ∈ responses →
    ∀ foreign, foreign ≠ own →
      keyBindingMatches libs.sha384 report foreign = false

theorem forgingRequest_iff
    {libs : TeeLibs Cert Key} {own : Bytes} {request : EndpointRequest}
    (hsigns : SignsReportData libs request.firmware) :
    ForgingRequest libs own request ↔
      ∃ report,
        attestationEndpoint libs request.firmware request.query =
          .ok report ∧
        ∃ foreign, foreign ≠ own ∧
          keyBindingMatches libs.sha384 report foreign = true := by
  constructor
  · rintro ⟨nonce, hdecode, hforges, report, hreport⟩
    obtain ⟨foreign, hne, hfield⟩ := (nonceForges_iff _ _ _).mp hforges
    refine ⟨report,
      attestationEndpoint_eq_ok.mpr ⟨nonce, hdecode, hreport⟩,
      foreign, hne, ?_⟩
    simp [keyBindingMatches, getReport_reportData hsigns hreport, hfield]
  · rintro ⟨report, hresponse, foreign, hne, hbinding⟩
    obtain ⟨nonce, hdecode, hreport⟩ :=
      attestationEndpoint_eq_ok.mp hresponse
    refine ⟨nonce, hdecode, ?_, report, hreport⟩
    apply (nonceForges_iff _ _ _).mpr
    refine ⟨foreign, hne, ?_⟩
    rw [← getReport_reportData hsigns hreport]
    simpa [keyBindingMatches] using hbinding

/-- A run of the endpoint binds only the agent's own key exactly when no
request of it is a forging one. -/
theorem endpoint_domain_separation_iff
    (libs : TeeLibs Cert Key) (own : Bytes)
    (requests : List EndpointRequest)
    (hsigns : ∀ request ∈ requests,
      SignsReportData libs request.firmware) :
    BindsOnlyOwnKey libs own (serveRequests libs requests) ↔
      ∀ request ∈ requests, ¬ ForgingRequest libs own request := by
  constructor
  · intro hbinds request hmem hforging
    obtain ⟨report, hresponse, foreign, hne, hbinding⟩ :=
      (forgingRequest_iff (hsigns request hmem)).mp hforging
    have hserved : EndpointResponse.ok report ∈
        serveRequests libs requests :=
      List.mem_map.mpr ⟨request, hmem, hresponse⟩
    have hrejected := hbinds report hserved foreign hne
    rw [hbinding] at hrejected
    exact Bool.noConfusion hrejected
  · intro hclean report hserved foreign hne
    obtain ⟨request, hmem, hresponse⟩ := List.mem_map.mp hserved
    apply Bool.eq_false_iff.mpr
    intro hbinding
    exact hclean request hmem
      ((forgingRequest_iff (hsigns request hmem)).mpr
        ⟨report, hresponse, foreign, hne, hbinding⟩)

/-! ## A processor that signs what it is handed -/

def sampleFirmware : Firmware where
  opened := .ok ()
  getReport := fun reportData =>
    .ok (List.replicate 80 0 ++ (reportData.toList ++
      List.replicate 1040 0))

theorem sliceVector_middle
    (before : Bytes) {length : ℕ} (field : List.Vector UInt8 length)
    (after : Bytes) :
    sliceVector (before ++ (field.toList ++ after)) before.length length =
      field := by
  apply List.Vector.ext
  intro index
  rw [sliceVector, List.Vector.get_ofFn, List.getD_eq_getElem?_getD,
    List.getElem?_append_right (by omega), Nat.add_sub_cancel_left,
    List.getElem?_append_left (by simp), List.Vector.get_eq_get_toList]
  simp

theorem sampleFirmware_signsReportData :
    SignsReportData sampleLibs sampleFirmware := by
  intro reportData raw parsed hraw hparsed
  simp only [sampleFirmware, Except.ok.injEq] at hraw
  simp only [parseSevSnpReport, sampleLibs, bind_eq_ok,
    chainContext_eq_ok, Except.ok.injEq] at hparsed
  obtain ⟨_, _, rfl⟩ := hparsed
  subst hraw
  exact sliceVector_middle (List.replicate 80 0) reportData _

theorem sampleFirmware_answers (reportData : ReportData) :
    ∃ report, getReport sampleLibs sampleFirmware reportData =
      .ok report := by
  have hlength : (List.replicate 80 (0 : UInt8) ++ (reportData.toList ++
      List.replicate 1040 0)).length = reportSize := by
    simp only [List.length_append, List.length_replicate,
      List.Vector.toList_length, reportSize]
  simp only [getReport, parseReport, bind_eq_ok, chainContext_eq_ok,
    mapError_eq_ok, pure_eq_ok, parseSevSnpReport, ensure_eq_ok,
    decide_eq_true_eq]
  exact ⟨_, (), rfl, _, rfl, _, ⟨(), hlength, rfl⟩, rfl⟩

theorem endpoint_domain_separation_two_byte_nonce :
    BindsOnlyOwnKey sampleLibs [4]
      (serveRequests sampleLibs [⟨"0001", sampleFirmware⟩]) := by
  refine (endpoint_domain_separation_iff sampleLibs [4] _ ?_).mpr ?_
  · intro request hmem
    rw [List.mem_singleton.mp hmem]
    exact sampleFirmware_signsReportData
  · intro request hmem hforging
    rw [List.mem_singleton.mp hmem] at hforging
    obtain ⟨nonce, hdecode, hforges, _⟩ := hforging
    have hnonce : nonce = [0, 1] := by
      have hvalue : hexDecode "0001" = .ok [0, 1] := by decide +kernel
      rw [hvalue] at hdecode
      simpa using hdecode.symm
    subst hnonce
    obtain ⟨foreign, _, hfield⟩ := hforges
    have hsecond := congrArg (fun bytes : Bytes => bytes[1]?) hfield
    simp [sampleLibs, List.Vector.toList_ofFn] at hsecond

/-- An uncompressed P-384 key of the adversary, longer than the field. -/
def foreignKey : Bytes := 4 :: List.replicate 96 7

theorem endpoint_signs_foreign_key :
    (∀ request ∈ [(⟨hexEncode foreignKey, sampleFirmware⟩ :
        EndpointRequest)], SignsReportData sampleLibs request.firmware) ∧
      ¬ BindsOnlyOwnKey sampleLibs (4 :: List.replicate 96 0)
        (serveRequests sampleLibs
          [⟨hexEncode foreignKey, sampleFirmware⟩]) := by
  have hsigns := sampleFirmware_signsReportData
  refine ⟨?_, ?_⟩
  · intro request hmem
    rw [List.mem_singleton.mp hmem]
    exact hsigns
  · intro hbinds
    have hforging : ForgingRequest sampleLibs (4 :: List.replicate 96 0)
        ⟨hexEncode foreignKey, sampleFirmware⟩ := by
      refine ⟨foreignKey, by decide +kernel, ?_,
        sampleFirmware_answers _⟩
      exact Or.inl (by decide)
    obtain ⟨report, hresponse, foreign, hne, hbinding⟩ :=
      (forgingRequest_iff hsigns).mp hforging
    have hserved : EndpointResponse.ok report ∈ serveRequests sampleLibs
        [⟨hexEncode foreignKey, sampleFirmware⟩] :=
      List.mem_map.mpr ⟨_, List.mem_singleton_self _, hresponse⟩
    have hrejected := hbinds report hserved foreign hne
    rw [hbinding] at hrejected
    exact Bool.noConfusion hrejected

end AlephCvm.Tee
