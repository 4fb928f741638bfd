import AlephCvm.AttestAgent
import AlephCvm.AttestClient
import AlephCvm.ReportRecords

/-!
# The attested identity of the agent

Model of `aleph-attest-agent/src/tls.rs` and of `encode_attestation_extension`
in `aleph-tee/src/x509.rs`, and of the answers of the attestation endpoint as
they go over the wire.  The agent puts a report that is bound to its key into
its own certificate; the client of the other crates takes it out again.  The
results are about the two of them together: what the client makes of the
certificate of an agent, and when a fresh attestation of one completes.
-/

namespace AlephCvm.Tee

open ResultContext JsonRecords

variable {Cert Key KeyPair : Type}

/-! ## The certificate -/

structure CertificateParams where
  subjectAltNames : List String
  customExtensions : List X509Extension

/-- The libraries that make certificates, beside those that read them. -/
structure IdentityLibs (Cert Key KeyPair : Type)
    extends ClientLibs Cert Key where
  octetStringNew : Bytes → Except String Bytes
  octetStringToDer : Bytes → Except String Bytes
  publicKeyRaw : KeyPair → Bytes
  serializeDer : KeyPair → Bytes
  certificateParams : List String → Except String CertificateParams
  selfSigned : CertificateParams → KeyPair → Except String Bytes

/-- `serde_json::to_vec`; a report has no part that cannot be written. -/
def reportToVec (report : AttestationReport) : Bytes :=
  (AttestationReport.format.toText .compact report).toUTF8.toList

def encodeAttestationExtension (libs : IdentityLibs Cert Key KeyPair)
    (report : AttestationReport) : Except String Bytes := do
  let octetString ← mapError
    (fun e => s!"failed to create OctetString: {e}")
    (libs.octetStringNew (reportToVec report))
  mapError (fun e => s!"failed to encode OctetString to DER: {e}")
    (libs.octetStringToDer octetString)

structure AttestedTlsIdentity where
  certDer : Bytes
  keyDer : Bytes
  report : AttestationReport
  deriving DecidableEq

/-- The key pair is drawn at random, when that succeeds. -/
def generateAttestedTlsIdentity (libs : IdentityLibs Cert Key KeyPair)
    (generated : Except String KeyPair) (firmware : Firmware) :
    Except String AttestedTlsIdentity := do
  let keyPair ← context "failed to generate ECDSA P-384 key pair" generated
  let report ← context
    "failed to get attestation report bound to TLS key"
    (getKeyBoundReport libs.toTeeLibs firmware (libs.publicKeyRaw keyPair))
  let extensionValue ← context "failed to encode attestation extension"
    (encodeAttestationExtension libs report)
  let params ← context "failed to create certificate params"
    (libs.certificateParams ["localhost"])
  let certDer ← context "failed to create self-signed certificate"
    (libs.selfSigned
      { params with
        customExtensions :=
          params.customExtensions ++ [⟨attestationOid, extensionValue⟩] }
      keyPair)
  return ⟨certDer, libs.serializeDer keyPair, report⟩

/-- What the readers of the client make of what the writers of the agent
wrote. -/
structure Interoperable (libs : IdentityLibs Cert Key KeyPair) : Prop where
  reportFromJson : ∀ text report,
    libs.reportFromJson text.toUTF8.toList = .ok report ↔
      AttestationReport.format.ofText text = some report
  octetString : ∀ bytes octetString der,
    libs.octetStringNew bytes = .ok octetString →
    libs.octetStringToDer octetString = .ok der →
      libs.octetStringFromDer der = .ok bytes
  freshParams : ∀ names params,
    libs.certificateParams names = .ok params →
      params.customExtensions = []
  selfSigned : ∀ params keyPair certDer,
    libs.selfSigned params keyPair = .ok certDer →
      ∃ standard, libs.parseX509 certDer = .ok
          ⟨libs.publicKeyRaw keyPair,
            standard ++ params.customExtensions⟩ ∧
        ∀ ext ∈ standard, ext.oid ≠ attestationOid

theorem decodeAttestationExtension_encode
    {libs : IdentityLibs Cert Key KeyPair} (hlibs : Interoperable libs)
    {report : AttestationReport} {value : Bytes}
    (hencode : encodeAttestationExtension libs report = .ok value) :
    decodeAttestationExtension libs.toClientLibs value = .ok report := by
  simp only [encodeAttestationExtension, bind_eq_ok, mapError_eq_ok]
    at hencode
  obtain ⟨octetString, hnew, hder⟩ := hencode
  have hbytes := hlibs.octetString _ octetString value hnew hder
  simp only [decodeAttestationExtension, bind_eq_ok, mapError_eq_ok,
    context_eq_ok]
  refine ⟨reportToVec report, hbytes, ?_⟩
  exact (hlibs.reportFromJson _ report).mpr
    (AttestationReport.format.ofText_toText .compact report)

/-- The certificate of an identity carries its report and its key. -/
structure Carries (libs : ClientLibs Cert Key)
    (identity : AttestedTlsIdentity) : Prop where
  extracted : extractAttestationFromCert libs identity.certDer =
    .ok (some identity.report)
  bound : ∃ cert, libs.parseX509 identity.certDer = .ok cert ∧
    keyBindingMatches libs.sha384 identity.report cert.publicKey = true

theorem generateAttestedTlsIdentity_carries
    {libs : IdentityLibs Cert Key KeyPair} (hlibs : Interoperable libs)
    {generated : Except String KeyPair} {firmware : Firmware}
    (hsigns : SignsReportData libs.toTeeLibs firmware)
    {identity : AttestedTlsIdentity}
    (hidentity : generateAttestedTlsIdentity libs generated firmware =
      .ok identity) :
    Carries libs.toClientLibs identity := by
  simp only [generateAttestedTlsIdentity, bind_eq_ok, context_eq_ok,
    pure_eq_ok] at hidentity
  obtain ⟨keyPair, -, report, hreport, value, hvalue, params, hparams,
    certDer, hcertDer, rfl⟩ := hidentity
  obtain ⟨standard, hparse, hother⟩ := hlibs.selfSigned _ keyPair certDer
    hcertDer
  let own : X509Extension := ⟨attestationOid, value⟩
  have hfind : (standard ++ [own]).find?
      (fun ext => ext.oid == attestationOid) = some own := by
    have hnone : standard.find? (fun ext => ext.oid == attestationOid) =
        none := by
      simpa using hother
    rw [List.find?_append, hnone]
    simp [own]
  have hparse : libs.parseX509 certDer =
      .ok ⟨libs.publicKeyRaw keyPair, standard ++ [own]⟩ := by
    rw [hparse]
    simp only [hlibs.freshParams _ params hparams, List.nil_append, own]
  constructor
  · simp only [extractAttestationFromCert, bind_eq_ok, mapError_eq_ok]
    refine ⟨_, hparse, ?_⟩
    rw [hfind]
    simp only [bind_eq_ok, context_eq_ok, pure_eq_ok]
    exact ⟨report, decodeAttestationExtension_encode hlibs hvalue, rfl⟩
  · exact ⟨_, hparse, getKeyBoundReport_binds hsigns hreport⟩

/-- The client's verifier accepts the certificate of an agent and stores its
report, unless it expects another measurement. -/
theorem verifyServerCert_of_carries
    {libs : ClientLibs Cert Key} {identity : AttestedTlsIdentity}
    (hcarries : Carries libs identity) (expected : Option Bytes) :
    verifyServerCert libs expected identity.certDer =
      (checkMeasurement expected identity.report).map
        fun _ => identity.report := by
  obtain ⟨cert, hparse, hbound⟩ := hcarries.bound
  have hbinding : checkKeyBinding libs.sha384 identity.report
      cert.publicKey = .ok () := by
    rw [checkKeyBinding, ensure_eq_ok]
    exact hbound
  simp only [verifyServerCert, hcarries.extracted, hparse, mapError,
    optionContext, hbinding, bind, Except.bind]
  cases checkMeasurement expected identity.report <;> rfl

/-! ## The answers of the endpoint -/

def errorJson (error : String) : Json := .object [("error", .string error)]

/-- The answer as the HTTP server writes it. -/
def EndpointResponse.toHttp : EndpointResponse → HttpResponse
  | .ok report =>
      ⟨200, .ok (AttestationReport.format.toText .compact report)⟩
  | .badRequest error => ⟨400, .ok (writeJson .compact (errorJson error))⟩
  | .internalServerError error =>
      ⟨500, .ok (writeJson .compact (errorJson error))⟩

/-- A client that reaches an agent directly and gets its answer. -/
def agentExchange (identity : AttestedTlsIdentity)
    (response : HttpResponse) : Exchange where
  first := ⟨.handshake identity.certDer, .whole, .ok ()⟩
  redirects := []
  response := .ok response

theorem ofText_errorJson (error : String) :
    AttestationReport.format.ofText
      (writeJson .compact (errorJson error)) = none := by
  have hwithin : (errorJson error).Within maxLevels := by
    apply Json.Within.object
    intro field hfield
    rw [List.mem_singleton.mp hfield]
    exact .string error
  rw [RecordFormat.ofText, readJson_writeJson .compact hwithin]
  rfl

/-- What the client reads from the answer is the report that it carries. -/
theorem reportFromJson_toHttp
    {libs : IdentityLibs Cert Key KeyPair} (hlibs : Interoperable libs)
    {response : EndpointResponse} {text : String}
    (htext : response.toHttp.text = .ok text) (report : AttestationReport) :
    libs.reportFromJson text.toUTF8.toList = .ok report ↔
      response = .ok report := by
  rw [hlibs.reportFromJson]
  cases response with
  | ok served =>
      simp only [EndpointResponse.toHttp, Except.ok.injEq] at htext
      rw [← htext, RecordFormat.ofText_toText]
      simp
  | badRequest error =>
      simp only [EndpointResponse.toHttp, Except.ok.injEq] at htext
      rw [← htext, ofText_errorJson]
      simp
  | internalServerError error =>
      simp only [EndpointResponse.toHttp, Except.ok.injEq] at htext
      rw [← htext, ofText_errorJson]
      simp

theorem checkMeasurement_eq_ok_iff
    {expected : Option Bytes} {report : AttestationReport} (value : Unit) :
    checkMeasurement expected report = .ok value ↔
      ∀ measurement ∈ expected, report.measurement = measurement := by
  cases expected with
  | none => simp [checkMeasurement]
  | some measurement => simp [checkMeasurement]

theorem sendRequest_agentExchange
    {libs : ClientLibs Cert Key} {identity : AttestedTlsIdentity}
    (hcarries : Carries libs identity) (expected : Option Bytes)
    (payload : Option SecretsMap) (response : HttpResponse)
    (result : HttpResponse × Option AttestationReport) :
    (sendRequest libs expected payload
        (agentExchange identity response)).2 = .ok result ↔
      (∀ measurement ∈ expected,
        identity.report.measurement = measurement) ∧
        result = (response, some identity.report) := by
  have hverify := verifyServerCert_of_carries hcarries expected
  rw [← checkMeasurement_eq_ok_iff ()]
  cases hmeasurement : checkMeasurement expected identity.report with
  | error message =>
      simp [sendRequest, agentExchange, Exchange.hops, followRedirects,
        sendHop, verifyLink, hverify, hmeasurement, Except.map, bind,
        Except.bind]
  | ok value =>
      simp [sendRequest, agentExchange, Exchange.hops, followRedirects,
        sendHop, verifyLink, hverify, hmeasurement, Except.map, bind,
        Except.bind, pure, Except.pure, eq_comm]

/-! ## Fresh attestation of an agent -/

/-- The client's URLs are in order and its HTTP client can be built. -/
structure ReadyToAttest (env : HttpEnv)
    (nonce : List.Vector UInt8 32) (baseUrl : String) : Prop where
  urls : ∃ base attestationUrl, env.parseUrl baseUrl = .ok base ∧
    env.joinUrl base
      s!".well-known/attestation?nonce={hexEncode nonce.toList}" =
        .ok attestationUrl
  client : env.buildClient = .ok ()

/-- The report of the agent's processor for a nonce of the client. -/
def nonceReport (libs : TeeLibs Cert Key) (firmware : Firmware)
    (nonce : List.Vector UInt8 32) : Except String AttestationReport :=
  getReport libs firmware (zeroPad nonce.toList (by simp))

theorem attestationEndpoint_hexEncode
    {libs : TeeLibs Cert Key} {firmware : Firmware}
    {nonce : List.Vector UInt8 32} {report : AttestationReport} :
    attestationEndpoint libs firmware (hexEncode nonce.toList) =
        .ok report ↔
      nonceReport libs firmware nonce = .ok report := by
  have hfield : nonceReportData libs.sha384 nonce.toList =
      zeroPad nonce.toList (by simp) := by
    rw [nonceReportData, dif_pos]
  simp only [attestationEndpoint_eq_ok, hexDecode_hexEncode,
    Except.ok.injEq, exists_eq_left', hfield, nonceReport]

theorem take_zeroPad (nonce : List.Vector UInt8 32) :
    (zeroPad nonce.toList (by simp)).toList.take 32 = nonce.toList := by
  rw [zeroPad_toList]
  simp

/-- The exchange of a client with an agent that answers its nonce. -/
def freshExchange (libs : TeeLibs Cert Key) (firmware : Firmware)
    (identity : AttestedTlsIdentity) (nonce : List.Vector UInt8 32) :
    Exchange :=
  agentExchange identity
    (attestationEndpoint libs firmware (hexEncode nonce.toList)).toHttp

theorem fetchFreshReport_agent
    {libs : IdentityLibs Cert Key KeyPair} (hlibs : Interoperable libs)
    {firmware : Firmware}
    (hsigns : SignsReportData libs.toTeeLibs firmware)
    {identity : AttestedTlsIdentity}
    (hcarries : Carries libs.toClientLibs identity)
    {env : HttpEnv} {nonce : List.Vector UInt8 32} {baseUrl : String}
    (hready : ReadyToAttest env nonce baseUrl)
    (hexchange : env.exchange =
      freshExchange libs.toTeeLibs firmware identity nonce)
    (expected : Option Bytes) (report : AttestationReport) :
    fetchFreshReport libs.toClientLibs env nonce baseUrl expected =
        .ok report ↔
      (∀ measurement ∈ expected,
        identity.report.measurement = measurement) ∧
        nonceReport libs.toTeeLibs firmware nonce = .ok report := by
  obtain ⟨base, attestationUrl, hbase, hurl⟩ := hready.urls
  rw [← attestationEndpoint_hexEncode]
  simp only [fetchFreshReport, bind_eq_ok, context_eq_ok, ensure_eq_ok,
    pure_eq_ok, hexchange, freshExchange]
  constructor
  · rintro ⟨_, -, _, -, _, -, sent, hsent, text, htext, read, hread, _, -,
      rfl⟩
    rw [sendRequest_agentExchange hcarries] at hsent
    obtain ⟨hmeasurement, rfl⟩ := hsent
    exact ⟨hmeasurement, (reportFromJson_toHttp hlibs htext read).mp hread⟩
  · rintro ⟨hmeasurement, hserved⟩
    have hnonce : report.reportData.toList.take 32 = nonce.toList := by
      rw [attestationEndpoint_hexEncode] at hserved
      rw [getReport_reportData hsigns hserved, take_zeroPad]
    have htext : (attestationEndpoint libs.toTeeLibs firmware
        (hexEncode nonce.toList)).toHttp.text =
          .ok (AttestationReport.format.toText .compact report) := by
      rw [hserved]
      rfl
    refine ⟨base, hbase, attestationUrl, hurl, (), hready.client, _,
      (sendRequest_agentExchange hcarries expected none _ _).mpr
        ⟨hmeasurement, rfl⟩,
      _, htext, report, ?_, (), ?_, rfl⟩
    · exact (reportFromJson_toHttp hlibs htext report).mpr hserved
    · rw [hnonce]
      simp

/-- A client that reaches an agent with its own certificate completes a fresh
attestation exactly when the agent's measurement is the expected one, if one
is expected, when the agent's processor answers the nonce, and when the
report it returns is verified; the report carries the nonce. -/
theorem freshAttestation_of_agent_iff
    (libs : IdentityLibs Cert Key KeyPair) (firmware : Firmware)
    (generated : Except String KeyPair) (identity : AttestedTlsIdentity)
    (env : HttpEnv) (nonce : List.Vector UInt8 32) (baseUrl : String)
    (hlibs : Interoperable libs)
    (hsigns : SignsReportData libs.toTeeLibs firmware)
    (hidentity : generateAttestedTlsIdentity libs generated firmware =
      .ok identity)
    (hready : ReadyToAttest env nonce baseUrl)
    (hexchange : env.exchange =
      freshExchange libs.toTeeLibs firmware identity nonce)
    (product : String) (expected : Option Bytes) (cache : KdsCache)
    (report : AttestationReport) :
    ((freshAttestation libs.toClientLibs env nonce baseUrl product expected
        cache).2 = .ok report ↔
      (∀ measurement ∈ expected,
        identity.report.measurement = measurement) ∧
      nonceReport libs.toTeeLibs firmware nonce = .ok report ∧
      (verifySevSnpReport libs.toTeeLibs report product cache).1.isOk =
        true) ∧
    (nonceReport libs.toTeeLibs firmware nonce = .ok report →
      report.reportData.toList =
        nonce.toList ++ List.replicate 32 0) := by
  have hcarries :=
    generateAttestedTlsIdentity_carries hlibs hsigns hidentity
  have hfetch := fetchFreshReport_agent hlibs hsigns hcarries hready
    hexchange expected
  constructor
  · cases hfetched : fetchFreshReport libs.toClientLibs env nonce baseUrl
        expected with
    | error message =>
        simp only [freshAttestation, hfetched]
        constructor
        · intro herror
          cases herror
        · intro ⟨hmeasurement, hreport, _⟩
          have hok := (hfetch report).mpr ⟨hmeasurement, hreport⟩
          rw [hfetched] at hok
          cases hok
    | ok fetched =>
        have hboth := (hfetch fetched).mp hfetched
        simp only [freshAttestation, hfetched, bind_eq_ok, context_eq_ok,
          ensure_eq_ok, pure_eq_ok]
        constructor
        · rintro ⟨result, hresult, _, -, rfl⟩
          refine ⟨hboth.1, hboth.2, ?_⟩
          rw [hresult]
          rfl
        · intro ⟨_, hreport, hverified⟩
          have hsame : fetched = report := by
            have htwo := hboth.2.symm.trans hreport
            simpa using htwo
          rw [hsame]
          obtain ⟨result, hresult⟩ := exists_of_isOk hverified
          obtain ⟨-, -, -, -, -, -, hvalid⟩ :=
            verifySevSnpReport_accepted hresult
          exact ⟨result, hresult, (), hvalid, rfl⟩
  · intro hreport
    rw [getReport_reportData hsigns hreport, zeroPad_toList]
    simp

/-! ## An agent and its client -/

/-- The processor of `blankReport`, with the key of the sample chip. -/
def signingFirmware : Firmware where
  opened := .ok ()
  getReport := fun reportData =>
    .ok (List.replicate 80 0 ++ (reportData.toList ++
      (List.replicate 528 0 ++ 3 :: List.replicate 511 0)))

theorem signingFirmware_signsReportData :
    SignsReportData sampleLibs signingFirmware := by
  intro reportData raw parsed hraw hparsed
  simp only [signingFirmware, Except.ok.injEq] at hraw
  simp only [parseSevSnpReport, sampleLibs, bind_eq_ok,
    chainContext_eq_ok, Except.ok.injEq] at hparsed
  obtain ⟨_, _, rfl⟩ := hparsed
  subst hraw
  exact sliceVector_middle (List.replicate 80 0) reportData _

/-- Contents of a length that takes two bytes. -/
def sampleOctetStringToDer (bytes : Bytes) : Bytes :=
  4 :: 130 :: UInt8.ofNat (bytes.length / 256) ::
    UInt8.ofNat bytes.length :: bytes

def sampleOctetStringFromDer : Bytes → Except String Bytes
  | 4 :: 130 :: _ :: _ :: bytes => .ok bytes
  | _ => .error "malformed octet string"

def sampleReportFromJson (bytes : Bytes) : Except String AttestationReport :=
  match (Utf8Text.textOf bytes).bind AttestationReport.format.ofText with
  | some report => .ok report
  | none => .error "malformed JSON"

/-- Keys are single bytes, and a certificate is its key, a subject name and
the contents of its one extension. -/
def sampleIdentityLibs : IdentityLibs SampleCert UInt8 UInt8 where
  toTeeLibs := sampleLibs
  parseX509 := fun der =>
    match der with
    | key :: value => .ok ⟨[key],
        [⟨[2, 5, 29, 17], [48, 0]⟩, ⟨attestationOid, value⟩]⟩
    | [] => .error "malformed certificate"
  octetStringFromDer := sampleOctetStringFromDer
  reportFromJson := sampleReportFromJson
  octetStringNew := fun bytes => .ok bytes
  octetStringToDer := fun bytes => .ok (sampleOctetStringToDer bytes)
  publicKeyRaw := fun keyPair => [keyPair]
  serializeDer := fun keyPair => [keyPair]
  certificateParams := fun names => .ok ⟨names, []⟩
  selfSigned := fun params keyPair =>
    match params.customExtensions with
    | [ext] =>
        if ext.oid = attestationOid then .ok (keyPair :: ext.value)
        else .error "unexpected extension"
    | _ => .error "unexpected extension"

theorem sampleIdentityLibs_interoperable :
    Interoperable sampleIdentityLibs where
  reportFromJson := by
    intro text report
    simp only [sampleIdentityLibs, sampleReportFromJson,
      Utf8Text.textOf_toUTF8, Option.bind_some]
    cases AttestationReport.format.ofText text <;> simp
  octetString := by
    intro bytes octetString der hnew hder
    simp only [sampleIdentityLibs, Except.ok.injEq] at hnew hder ⊢
    rw [← hder, ← hnew]
    rfl
  freshParams := by
    intro names params hparams
    simp only [sampleIdentityLibs, Except.ok.injEq] at hparams
    rw [← hparams]
  selfSigned := by
    intro params keyPair certDer hsigned
    simp only [sampleIdentityLibs] at hsigned ⊢
    cases hextensions : params.customExtensions with
    | nil => simp [hextensions] at hsigned
    | cons ext rest =>
        cases rest with
        | cons other rest => simp [hextensions] at hsigned
        | nil =>
            simp only [hextensions] at hsigned
            split at hsigned
            · rename_i hoid
              simp only [Except.ok.injEq] at hsigned
              refine ⟨[⟨[2, 5, 29, 17], [48, 0]⟩], ?_, ?_⟩
              · rw [← hsigned, ← hoid]
                rfl
              · intro standard hstandard
                rw [List.mem_singleton.mp hstandard]
                decide
            · cases hsigned

def plainNonce : List.Vector UInt8 32 := List.Vector.replicate 32 0

theorem nonceReport_zeroNonce :
    nonceReport sampleLibs signingFirmware plainNonce =
      .ok (blankReport 3) := by
  decide +kernel

theorem getReport_sampleKey :
    getReport sampleLibs signingFirmware
        (keyBoundReportData (sampleLibs.sha384 [0])) =
      .ok (blankReport 3) := by
  decide +kernel

theorem exists_sampleIdentity :
    ∃ identity, generateAttestedTlsIdentity sampleIdentityLibs (.ok 0)
        signingFirmware = .ok identity ∧
      identity.report = blankReport 3 := by
  simp only [generateAttestedTlsIdentity, bind_eq_ok, context_eq_ok,
    pure_eq_ok, getKeyBoundReport, encodeAttestationExtension,
    mapError_eq_ok]
  exact ⟨_, ⟨0, rfl, blankReport 3, getReport_sampleKey, _, ⟨_, rfl, rfl⟩,
    _, rfl, _, rfl, rfl⟩, rfl⟩

def agentEnv (identity : AttestedTlsIdentity) : HttpEnv where
  buildClient := .ok ()
  parseUrl := fun url => .ok url
  joinUrl := fun base path => .ok (base ++ path)
  exchange := freshExchange sampleLibs signingFirmware identity plainNonce
  injectedFromJson := fun _ => .error "not asked"

theorem freshAttestation_of_sample_agent :
    ∃ identity, generateAttestedTlsIdentity sampleIdentityLibs (.ok 0)
        signingFirmware = .ok identity ∧
      (freshAttestation sampleIdentityLibs.toClientLibs
        (agentEnv identity) plainNonce "https://vm/" "Milan" none none).2 =
          .ok (blankReport 3) := by
  obtain ⟨identity, hidentity, -⟩ := exists_sampleIdentity
  refine ⟨identity, hidentity, ?_⟩
  refine (freshAttestation_of_agent_iff sampleIdentityLibs signingFirmware
    (.ok 0) identity (agentEnv identity) plainNonce "https://vm/"
    sampleIdentityLibs_interoperable signingFirmware_signsReportData
    hidentity ⟨⟨_, _, rfl, rfl⟩, rfl⟩ rfl "Milan" none none
    (blankReport 3)).1.mpr ⟨by simp, nonceReport_zeroNonce, ?_⟩
  exact congrArg Except.isOk verifySevSnpReport_blankReport

end AlephCvm.Tee
