import AlephCvm.AttestClient

/-!
# What the client's answers are worth

The verifier of a handshake reads the wrapper around a report; the AMD chain
certifies the bytes inside it.  The first two theorems say exactly when the
two agree on what the client wants to know.  The third is about the order of
the client's actions: the request body is written as soon as a connection is
up, and the report is verified afterwards.
-/

namespace AlephCvm.Tee

open ResultContext

variable {Cert Key : Type}

/-! ## The verifier's slot -/

/-- The certificate of the last full handshake. -/
def lastHandshakeFrom (current : Option Bytes) (links : List Link) :
    Option Bytes :=
  links.foldl
    (fun current link =>
      match link with
      | .handshake certificate => some certificate
      | _ => current)
    current

def Exchange.links (exchange : Exchange) : List Link :=
  exchange.hops.map fun hop => hop.link

def Exchange.lastHandshake (exchange : Exchange) : Option Bytes :=
  lastHandshakeFrom none exchange.links

/-- The slot holds the report of the given certificate. -/
def SlotMatches (libs : ClientLibs Cert Key)
    (expectedMeasurement : Option Bytes) :
    Option Bytes → Option AttestationReport → Prop
  | none, none => True
  | some certificate, some report =>
      verifyServerCert libs expectedMeasurement certificate = .ok report
  | _, _ => False

theorem verifyLink_slotMatches
    {libs : ClientLibs Cert Key} {expectedMeasurement : Option Bytes}
    {current : Option Bytes} {stored stored' : Option AttestationReport}
    {link : Link}
    (hmatches : SlotMatches libs expectedMeasurement current stored)
    (hok : verifyLink libs expectedMeasurement stored link = .ok stored') :
    SlotMatches libs expectedMeasurement
      (lastHandshakeFrom current [link]) stored' := by
  cases link with
  | plain =>
      simp only [verifyLink, Except.ok.injEq] at hok
      rw [← hok]
      exact hmatches
  | handshake certificate =>
      simp only [verifyLink, bind_eq_ok, pure_eq_ok] at hok
      obtain ⟨report, hreport, hstored⟩ := hok
      rw [← hstored]
      exact hreport
  | pooled certificate =>
      simp only [verifyLink, bind_eq_ok, pure_eq_ok] at hok
      obtain ⟨_, _, hstored⟩ := hok
      rw [← hstored]
      exact hmatches

theorem verifyLink_certificate
    {libs : ClientLibs Cert Key} {expectedMeasurement : Option Bytes}
    {stored stored' : Option AttestationReport} {link : Link}
    {certificate : Bytes}
    (hok : verifyLink libs expectedMeasurement stored link = .ok stored')
    (hcertificate : link.certificate = some certificate) :
    ∃ report,
      verifyServerCert libs expectedMeasurement certificate =
        .ok report := by
  cases link with
  | plain => simp [Link.certificate] at hcertificate
  | handshake presented =>
      simp only [Link.certificate, Option.some.injEq] at hcertificate
      subst hcertificate
      simp only [verifyLink, bind_eq_ok] at hok
      obtain ⟨report, hreport, _⟩ := hok
      exact ⟨report, hreport⟩
  | pooled presented =>
      simp only [Link.certificate, Option.some.injEq] at hcertificate
      subst hcertificate
      simp only [verifyLink, bind_eq_ok] at hok
      obtain ⟨report, hreport, _⟩ := hok
      exact ⟨report, hreport⟩

theorem sendHop_eq_ok
    {libs : ClientLibs Cert Key} {expectedMeasurement : Option Bytes}
    {payload : Option SecretsMap}
    {stored stored' : Option AttestationReport} {hop : Hop} :
    (sendHop libs expectedMeasurement payload stored hop).2 = .ok stored' ↔
      verifyLink libs expectedMeasurement stored hop.link = .ok stored' ∧
        hop.written = .ok () := by
  unfold sendHop
  cases hlink : verifyLink libs expectedMeasurement stored hop.link with
  | error message => simp
  | ok next =>
      simp only [bind_eq_ok, pure_eq_ok, Except.ok.injEq]
      constructor
      · rintro ⟨_, hwritten, rfl⟩
        exact ⟨rfl, hwritten⟩
      · rintro ⟨rfl, hwritten⟩
        exact ⟨(), hwritten, rfl⟩

/-- A walk over several connections that succeeds passes the first one. -/
theorem followRedirects_cons_eq_ok
    {libs : ClientLibs Cert Key} {expectedMeasurement : Option Bytes}
    {payload : Option SecretsMap}
    {stored stored' : Option AttestationReport}
    {redirect : Redirect} {rest : List Redirect} :
    (followRedirects libs expectedMeasurement payload stored
        (redirect :: rest)).2 = .ok stored' ↔
      ∃ next,
        verifyLink libs expectedMeasurement stored redirect.link =
          .ok next ∧
        redirect.written = .ok () ∧
        (followRedirects libs expectedMeasurement payload next rest).2 =
          .ok stored' := by
  have hhop := @sendHop_eq_ok Cert Key libs expectedMeasurement
    (if redirect.keepsBody then payload else none) stored
  rw [followRedirects]
  cases hsent : sendHop libs expectedMeasurement
      (if redirect.keepsBody then payload else none) stored
      redirect.toHop with
  | mk events result =>
      cases result with
      | error message =>
          simp only [reduceCtorEq, false_iff]
          rintro ⟨next, hlink, hwritten, -⟩
          have hok := hhop.mpr ⟨hlink, hwritten⟩
          rw [hsent] at hok
          cases hok
      | ok next =>
          have hnext := hhop.mp (show (sendHop libs expectedMeasurement _
            stored redirect.toHop).2 = .ok next by rw [hsent])
          constructor
          · intro hok
            exact ⟨next, hnext.1, hnext.2, hok⟩
          · rintro ⟨other, hlink, -, hok⟩
            rw [hnext.1] at hlink
            cases hlink
            exact hok

theorem followRedirects_slotMatches
    {libs : ClientLibs Cert Key} {expectedMeasurement : Option Bytes}
    {payload : Option SecretsMap} {current : Option Bytes}
    {stored stored' : Option AttestationReport}
    {redirects : List Redirect}
    (hmatches : SlotMatches libs expectedMeasurement current stored)
    (hok : (followRedirects libs expectedMeasurement payload stored
      redirects).2 = .ok stored') :
    SlotMatches libs expectedMeasurement
      (lastHandshakeFrom current (redirects.map fun hop => hop.link))
      stored' := by
  induction redirects generalizing current stored with
  | nil =>
      simp only [followRedirects, Except.ok.injEq] at hok
      rw [← hok]
      exact hmatches
  | cons redirect rest ih =>
      obtain ⟨next, hlink, _, hrest⟩ := followRedirects_cons_eq_ok.mp hok
      exact ih (verifyLink_slotMatches hmatches hlink) hrest

theorem followRedirects_last_link
    {libs : ClientLibs Cert Key} {expectedMeasurement : Option Bytes}
    {payload : Option SecretsMap}
    {stored stored' : Option AttestationReport}
    {redirects : List Redirect} {redirect : Redirect}
    (hok : (followRedirects libs expectedMeasurement payload stored
      redirects).2 = .ok stored')
    (hlast : redirects.getLast? = some redirect) :
    ∃ before after,
      verifyLink libs expectedMeasurement before redirect.link =
        .ok after := by
  induction redirects generalizing stored with
  | nil => simp at hlast
  | cons head rest ih =>
      obtain ⟨next, hlink, _, hrest⟩ := followRedirects_cons_eq_ok.mp hok
      cases rest with
      | nil =>
          simp only [List.getLast?_singleton, Option.some.injEq] at hlast
          subst hlast
          exact ⟨stored, next, hlink⟩
      | cons second tail =>
          rw [List.getLast?_cons_cons] at hlast
          exact ih hrest hlast

theorem Exchange.getLast?_hops (exchange : Exchange) :
    ∃ last, exchange.hops.getLast? = some last ∧
      exchange.finalLink = last.link := by
  unfold Exchange.hops Exchange.finalLink
  cases hlast : exchange.redirects.getLast? with
  | none =>
      rw [List.getLast?_eq_none_iff.mp hlast]
      exact ⟨⟨exchange.first, true⟩, rfl, rfl⟩
  | some redirect =>
      refine ⟨redirect, ?_, rfl⟩
      rw [List.getLast?_cons, hlast]
      rfl

/-- An answered request: its response, the slot, and the connection that the
response arrived on. -/
theorem sendRequest_accepted
    {libs : ClientLibs Cert Key} {expectedMeasurement : Option Bytes}
    {payload : Option SecretsMap} {exchange : Exchange}
    {response : HttpResponse} {stored : Option AttestationReport}
    (hok : (sendRequest libs expectedMeasurement payload exchange).2 =
      .ok (response, stored)) :
    exchange.response = .ok response ∧
      SlotMatches libs expectedMeasurement exchange.lastHandshake stored ∧
      ∀ certificate, exchange.finalLink.certificate = some certificate →
        ∃ report, verifyServerCert libs expectedMeasurement certificate =
          .ok report := by
  simp only [sendRequest, bind_eq_ok, pure_eq_ok, Prod.mk.injEq] at hok
  obtain ⟨stored', hhops, response', hresponse, rfl, rfl⟩ := hok
  have hslot : SlotMatches libs expectedMeasurement none none := trivial
  refine ⟨hresponse, followRedirects_slotMatches hslot hhops, ?_⟩
  intro certificate hcertificate
  obtain ⟨last, hlast, hfinal⟩ := exchange.getLast?_hops
  rw [hfinal] at hcertificate
  obtain ⟨_, _, hlink⟩ := followRedirects_last_link hhops hlast
  exact verifyLink_certificate hlink hcertificate

/-! ## Layer 2 -/

theorem attestedRequest_accepted
    {libs : ClientLibs Cert Key} {env : HttpEnv} {product : String}
    {expectedMeasurement : Option Bytes} {cache : KdsCache}
    {response : AttestedResponse}
    (hok : attestedRequest libs env product expectedMeasurement cache =
      .ok response) :
    ∃ certificate report result,
      env.exchange.lastHandshake = some certificate ∧
      verifyServerCert libs expectedMeasurement certificate = .ok report ∧
      (verifySevSnpReport libs.toTeeLibs report product cache).1 =
        .ok result ∧
      response.attestationValid = result.valid := by
  simp only [attestedRequest, bind_eq_ok, context_eq_ok,
    optionContext_eq_ok, pure_eq_ok] at hok
  obtain ⟨_, _, ⟨answer, stored⟩, hsent, body, _, report, hstored, result,
    hverified, hresponse⟩ := hok
  simp only at hstored hresponse
  subst hstored
  have hslot := (sendRequest_accepted hsent).2.1
  cases hlast : env.exchange.lastHandshake with
  | none =>
      rw [hlast] at hslot
      exact absurd hslot id
  | some certificate =>
      rw [hlast] at hslot
      refine ⟨certificate, report, result, rfl, hslot, hverified, ?_⟩
      rw [← hresponse]

/-- The signed report binds the server's key and has the measurement. -/
def SignedFieldsMatch (libs : ClientLibs Cert Key)
    (report : AttestationReport) (publicKey measurement : Bytes) : Prop :=
  ∃ parsed, parseSevSnpReport libs.toTeeLibs report.data = .ok parsed ∧
    parsed.reportData = keyBoundReportData (libs.sha384 publicKey) ∧
    parsed.measurement.toList = measurement

/-- The wrapper repeats what the signed report says. -/
def WrapperHonest (libs : ClientLibs Cert Key)
    (report : AttestationReport) : Prop :=
  ∃ parsed, parseSevSnpReport libs.toTeeLibs report.data = .ok parsed ∧
    parsed.reportData = report.reportData ∧
    parsed.measurement.toList = report.measurement

theorem HandshakeAccepted.signedFieldsMatch_iff
    {libs : ClientLibs Cert Key} {measurement endEntity : Bytes}
    {cert : X509Cert} {report : AttestationReport}
    (haccepted : HandshakeAccepted libs (some measurement) endEntity cert
      report) :
    SignedFieldsMatch libs report cert.publicKey measurement ↔
      WrapperHonest libs report := by
  have hmeasurement : report.measurement = measurement :=
    checkMeasurement_some_eq_ok.mp haccepted.pinned
  unfold SignedFieldsMatch WrapperHonest
  rw [haccepted.key_bound, hmeasurement]

/-- An accepted answer of layer 2 rests on a signed report that binds the
server's key and has the expected measurement exactly when the wrapper in the
server's certificate repeats the signed fields. -/
theorem layer_two_sound_iff
    (libs : ClientLibs Cert Key) (env : HttpEnv) (product : String)
    (measurement : Bytes) (cache : KdsCache) (response : AttestedResponse)
    (hok : attestedRequest libs env product (some measurement) cache =
      .ok response) :
    response.attestationValid = true ∧
      ∃ certificate cert report,
        env.exchange.lastHandshake = some certificate ∧
        libs.parseX509 certificate = .ok cert ∧
        extractAttestationFromCert libs certificate = .ok (some report) ∧
        (SignedFieldsMatch libs report cert.publicKey measurement ↔
          WrapperHonest libs report) := by
  obtain ⟨certificate, report, result, hlast, hserver, hverified,
    hvalid⟩ := attestedRequest_accepted hok
  obtain ⟨cert, haccepted⟩ := verifyServerCert_accepted hserver
  obtain ⟨_, _, _, _, _, _, hresult⟩ := verifySevSnpReport_accepted hverified
  exact ⟨hvalid.trans hresult, certificate, cert, report, hlast,
    haccepted.parsed, haccepted.extracted,
    haccepted.signedFieldsMatch_iff⟩

/-! A key pair is one byte here, and a certificate names its key and the
wrapper it carries.  The wrapper `1` puts forged copies around a report that
was signed for somebody else; the wrapper `2` surrounds no report at all. -/

def forgedWrapper (data : Bytes) : AttestationReport where
  teeType := .sevSnp
  data := data
  reportData := keyBoundReportData (sampleLibs.sha384 [5])
  measurement := List.replicate 48 9

def sampleClientLibs : ClientLibs SampleCert UInt8 where
  toTeeLibs := sampleLibs
  parseX509 := fun der =>
    match der with
    | [key, wrapper] => .ok ⟨[key], [⟨attestationOid, [wrapper]⟩]⟩
    | _ => .error "malformed certificate"
  octetStringFromDer := fun bytes => .ok bytes
  reportFromJson := fun json =>
    match json with
    | [0] => .ok (blankReport 3)
    | [1] => .ok (forgedWrapper (blankReport 3).data)
    | [2] => .ok (forgedWrapper [])
    | _ => .error "malformed JSON"

/-- A server that shows one certificate and answers with one body. -/
def sampleEnv (certificate : Bytes) (body : String) : HttpEnv where
  buildClient := .ok ()
  parseUrl := fun url => .ok url
  joinUrl := fun base path => .ok (base ++ path)
  exchange :=
    ⟨⟨.handshake certificate, .whole, .ok ()⟩, [], .ok ⟨200, .ok body⟩⟩
  injectedFromJson := fun _ => .ok []

def sampleAnswer (body : String) : AttestedResponse where
  attestationValid := true
  attestationSummary :=
    "SEV-SNP report verified successfully (product: Milan)"
  measurement := List.replicate 48 0
  status := 200
  body := body

theorem layer_two_sound_honest_server :
    SignedFieldsMatch sampleClientLibs (blankReport 3) [0]
      (List.replicate 48 0) := by
  obtain ⟨_, certificate, cert, report, hlast, hparsed, hextracted, hiff⟩ :=
    layer_two_sound_iff sampleClientLibs (sampleEnv [0, 0] "") "Milan"
      (List.replicate 48 0) none (sampleAnswer "") (by decide +kernel)
  cases hlast
  cases hparsed
  cases hextracted
  apply hiff.mpr
  exact ⟨blankParsed, parseSevSnpReport_blankReport, rfl, rfl⟩

theorem layer_two_accepts_forged_wrapper :
    attestedRequest sampleClientLibs (sampleEnv [5, 1] "") "Milan"
        (some (List.replicate 48 9)) none = .ok (sampleAnswer "") ∧
      (sampleAnswer "").attestationValid = true ∧
      extractAttestationFromCert sampleClientLibs [5, 1] =
        .ok (some (forgedWrapper (blankReport 3).data)) ∧
      ¬ SignedFieldsMatch sampleClientLibs
        (forgedWrapper (blankReport 3).data) [5]
        (List.replicate 48 9) := by
  refine ⟨by decide +kernel, rfl, rfl, ?_⟩
  rintro ⟨parsed, hparsed, _, hmeasurement⟩
  have hsame := parseSevSnpReport_blankReport.symm.trans hparsed
  cases hsame
  exact absurd hmeasurement (by decide)

/-! ## Layer 3 -/

theorem fetchFreshReport_accepted
    {libs : ClientLibs Cert Key} {env : HttpEnv}
    {nonce : List.Vector UInt8 32} {baseUrl : String}
    {expectedMeasurement : Option Bytes} {report : AttestationReport}
    (hok : fetchFreshReport libs env nonce baseUrl expectedMeasurement =
      .ok report) :
    report.reportData.toList.take 32 = nonce.toList ∧
      ∀ certificate,
        env.exchange.finalLink.certificate = some certificate →
        ∃ bound, verifyServerCert libs expectedMeasurement certificate =
          .ok bound := by
  simp only [fetchFreshReport, bind_eq_ok, context_eq_ok, ensure_eq_ok,
    pure_eq_ok, beq_iff_eq] at hok
  obtain ⟨_, _, _, _, _, _, ⟨answer, stored⟩, hsent, body, _, parsed, _, _,
    hnonce, rfl⟩ := hok
  exact ⟨hnonce, (sendRequest_accepted hsent).2.2⟩

/-- Everything an accepted answer of layer 3 was checked for. -/
theorem freshAttestation_accepted
    {libs : ClientLibs Cert Key} {env : HttpEnv}
    {nonce : List.Vector UInt8 32} {baseUrl product : String}
    {expectedMeasurement : Option Bytes} {cache : KdsCache}
    {report : AttestationReport}
    (hok : (freshAttestation libs env nonce baseUrl product
      expectedMeasurement cache).2 = .ok report) :
    fetchFreshReport libs env nonce baseUrl expectedMeasurement =
        .ok report ∧
      (freshAttestation libs env nonce baseUrl product expectedMeasurement
        cache).1 = [.verified report true] := by
  unfold freshAttestation at hok ⊢
  cases hfetched : fetchFreshReport libs env nonce baseUrl
      expectedMeasurement with
  | error message => simp [hfetched] at hok
  | ok fetched =>
      simp only [hfetched, bind_eq_ok, context_eq_ok, ensure_eq_ok,
        pure_eq_ok] at hok ⊢
      obtain ⟨result, hverified, _, hvalid, rfl⟩ := hok
      refine ⟨rfl, ?_⟩
      simp only [verifyEvent, hverified, hvalid]

/-- The report that the connection's certificate binds to its TLS key. -/
def TlsBoundReport (libs : ClientLibs Cert Key) (exchange : Exchange)
    (bound : AttestationReport) : Prop :=
  ∃ certificate cert,
    exchange.finalLink.certificate = some certificate ∧
    libs.parseX509 certificate = .ok cert ∧
    extractAttestationFromCert libs certificate = .ok (some bound) ∧
    bound.reportData = keyBoundReportData (libs.sha384 cert.publicKey)

/-- What layer 3 promises about an accepted report: the signed bytes carry
the nonce and the measurement, and the raw report bound to the connection's
TLS key went through the verification. -/
structure LayerThreePromise (libs : ClientLibs Cert Key) (env : HttpEnv)
    (trace : List ClientEvent) (nonce : List.Vector UInt8 32)
    (measurement : Bytes) (parsed : SevReport) (bound : AttestationReport) :
    Prop where
  signed_nonce : parsed.reportData.toList.take 32 = nonce.toList
  signed_measurement : parsed.measurement.toList = measurement
  tls_bound : TlsBoundReport libs env.exchange bound
  tls_verified : ∃ verified, ClientEvent.verified verified true ∈ trace ∧
    verified.data = bound.data

/-- The copies around the signed report agree with it, and the report in the
body is the one in the connection's certificate. -/
structure LayerThreeConsistent (libs : ClientLibs Cert Key) (env : HttpEnv)
    (report : AttestationReport) (parsed : SevReport)
    (bound : AttestationReport) : Prop where
  nonce_copied :
    parsed.reportData.toList.take 32 = report.reportData.toList.take 32
  measurement_copied : parsed.measurement.toList = bound.measurement
  tls_bound : TlsBoundReport libs env.exchange bound
  same_raw : report.data = bound.data

theorem TlsBoundReport.measurement
    {libs : ClientLibs Cert Key} {exchange : Exchange}
    {bound : AttestationReport} {measurement : Bytes}
    (hbound : TlsBoundReport libs exchange bound)
    (hfinal : ∀ certificate,
      exchange.finalLink.certificate = some certificate →
      ∃ report, verifyServerCert libs (some measurement) certificate =
        .ok report) :
    bound.measurement = measurement := by
  obtain ⟨certificate, cert, hcertificate, _, hextracted, _⟩ := hbound
  obtain ⟨report, hserver⟩ := hfinal certificate hcertificate
  obtain ⟨_, haccepted⟩ := verifyServerCert_accepted hserver
  have hsame := haccepted.extracted
  rw [hextracted] at hsame
  cases hsame
  exact checkMeasurement_some_eq_ok.mp haccepted.pinned

/-- Layer 3 keeps its promise exactly when the answer is consistent with the
certificate of the connection it arrived on. -/
theorem layer_three_sound_iff
    (libs : ClientLibs Cert Key) (env : HttpEnv)
    (nonce : List.Vector UInt8 32) (baseUrl product : String)
    (measurement : Bytes) (cache : KdsCache) (report : AttestationReport)
    (hok : (freshAttestation libs env nonce baseUrl product
      (some measurement) cache).2 = .ok report) :
    (∃ parsed bound,
        parseSevSnpReport libs.toTeeLibs report.data = .ok parsed ∧
        LayerThreePromise libs env
          (freshAttestation libs env nonce baseUrl product
            (some measurement) cache).1
          nonce measurement parsed bound) ↔
      ∃ parsed bound,
        parseSevSnpReport libs.toTeeLibs report.data = .ok parsed ∧
        LayerThreeConsistent libs env report parsed bound := by
  obtain ⟨hfetched, htrace⟩ := freshAttestation_accepted hok
  obtain ⟨hnonce, hfinal⟩ := fetchFreshReport_accepted hfetched
  rw [htrace]
  constructor
  · rintro ⟨parsed, bound, hparsed, hpromise⟩
    obtain ⟨verified, hverified, hdata⟩ := hpromise.tls_verified
    have hreport : verified = report := by simpa using hverified
    have hbound := hpromise.tls_bound.measurement hfinal
    refine ⟨parsed, bound, hparsed, ?_, ?_, hpromise.tls_bound, ?_⟩
    · rw [hpromise.signed_nonce, hnonce]
    · rw [hpromise.signed_measurement, hbound]
    · rw [← hreport, hdata]
  · rintro ⟨parsed, bound, hparsed, hconsistent⟩
    have hbound := hconsistent.tls_bound.measurement hfinal
    refine ⟨parsed, bound, hparsed, ?_, ?_, hconsistent.tls_bound, ?_⟩
    · rw [hconsistent.nonce_copied, hnonce]
    · rw [hconsistent.measurement_copied, hbound]
    · exact ⟨report, List.mem_singleton_self _, hconsistent.same_raw⟩

def zeroNonce : List.Vector UInt8 32 := List.Vector.replicate 32 0

theorem layer_three_sound_same_report :
    ∃ parsed bound,
      parseSevSnpReport sampleLibs (blankReport 3).data = .ok parsed ∧
      LayerThreePromise sampleClientLibs (sampleEnv [0, 0] "\x00")
        (freshAttestation sampleClientLibs (sampleEnv [0, 0] "\x00")
          zeroNonce "https://vm/" "Milan" (some (List.replicate 48 0))
          none).1
        zeroNonce (List.replicate 48 0) parsed bound := by
  refine (layer_three_sound_iff sampleClientLibs (sampleEnv [0, 0] "\x00")
    zeroNonce "https://vm/" "Milan" (List.replicate 48 0) none
    (blankReport 3) (by decide +kernel)).mpr ?_
  refine ⟨blankParsed, blankReport 3, parseSevSnpReport_blankReport, rfl,
    rfl, ?_, rfl⟩
  exact ⟨[0, 0], ⟨[0], [⟨attestationOid, [0]⟩]⟩, rfl, rfl, rfl,
    by decide +kernel⟩

theorem layer_three_accepts_relayed_report :
    (freshAttestation sampleClientLibs (sampleEnv [5, 2] "\x00")
        zeroNonce "https://vm/" "Milan" (some (List.replicate 48 9))
        none).2 = .ok (blankReport 3) ∧
      ¬ ∃ parsed bound,
        parseSevSnpReport sampleLibs (blankReport 3).data = .ok parsed ∧
        LayerThreePromise sampleClientLibs (sampleEnv [5, 2] "\x00")
          (freshAttestation sampleClientLibs (sampleEnv [5, 2] "\x00")
            zeroNonce "https://vm/" "Milan" (some (List.replicate 48 9))
            none).1
          zeroNonce (List.replicate 48 9) parsed bound := by
  refine ⟨by decide +kernel, ?_⟩
  rintro ⟨parsed, bound, hparsed, hpromise⟩
  have hsame := parseSevSnpReport_blankReport.symm.trans hparsed
  cases hsame
  exact absurd hpromise.signed_measurement (by decide)

/-! ## Secrets -/

/-- Every transmission of the secrets, even of a part of them, comes after a
successful verification of the report of the server that receives them. -/
def VerifiedBeforeTransmit (libs : ClientLibs Cert Key)
    (trace : List ClientEvent) : Prop :=
  ∀ before secrets sent receiver after,
    trace = before ++
      ClientEvent.transmitSecrets secrets sent receiver :: after →
    ∃ certificate report,
      receiver = some certificate ∧
      extractAttestationFromCert libs certificate = .ok (some report) ∧
      ClientEvent.verified report true ∈ before

/-- The connection is plain or shows a certificate that the handshake
accepts. -/
def LinkAccepted (libs : ClientLibs Cert Key)
    (expectedMeasurement : Option Bytes) (link : Link) : Prop :=
  ∀ certificate, link.certificate = some certificate →
    ∃ report, verifyServerCert libs expectedMeasurement certificate =
      .ok report

/-- A byte of the body goes out to some server: its connection is set up, and
so are those before, over which the request has been written. -/
def BodyGoesOut (libs : ClientLibs Cert Key)
    (expectedMeasurement : Option Bytes) : List Redirect → Prop
  | [] => False
  | hop :: rest =>
      LinkAccepted libs expectedMeasurement hop.link ∧
        (hop.keepsBody = true ∧ hop.sent.any = true ∨
          hop.written = .ok () ∧ BodyGoesOut libs expectedMeasurement rest)

/-- Some server gets a byte of the secrets' JSON. -/
def SomeHopReceives (libs : ClientLibs Cert Key) (env : HttpEnv)
    (baseUrl : String) (expectedMeasurement : Option Bytes) : Prop :=
  prepareInjection env baseUrl = .ok () ∧
    BodyGoesOut libs expectedMeasurement env.exchange.hops

theorem verifyLink_isOk_iff
    {libs : ClientLibs Cert Key} {expectedMeasurement : Option Bytes}
    (stored : Option AttestationReport) {link : Link} :
    (∃ stored',
        verifyLink libs expectedMeasurement stored link = .ok stored') ↔
      LinkAccepted libs expectedMeasurement link := by
  constructor
  · rintro ⟨stored', hok⟩ certificate hcertificate
    exact verifyLink_certificate hok hcertificate
  · intro haccepted
    cases link with
    | plain => exact ⟨stored, rfl⟩
    | handshake certificate =>
        obtain ⟨report, hreport⟩ := haccepted certificate rfl
        exact ⟨some report, by simp [verifyLink, hreport]⟩
    | pooled certificate =>
        obtain ⟨report, hreport⟩ := haccepted certificate rfl
        exact ⟨stored, by simp [verifyLink, hreport]⟩

theorem transmission_of_quiet
    {secrets : SecretsMap} {hop : Redirect}
    (hquiet : ¬ (hop.keepsBody = true ∧ hop.sent.any = true)) :
    transmission (if hop.keepsBody then some secrets else none) hop.toHop =
      [] := by
  cases hkeeps : hop.keepsBody with
  | false => rfl
  | true =>
      have hnone : hop.sent.any = false := by
        simpa [hkeeps] using hquiet
      simp [transmission, hnone]

theorem followRedirects_of_refused
    {libs : ClientLibs Cert Key} {expectedMeasurement : Option Bytes}
    {payload : Option SecretsMap} {stored : Option AttestationReport}
    {hop : Redirect} {rest : List Redirect}
    (hrefused : ¬ LinkAccepted libs expectedMeasurement hop.link) :
    (followRedirects libs expectedMeasurement payload stored
      (hop :: rest)).1 = [] := by
  rw [← verifyLink_isOk_iff stored] at hrefused
  cases hlink : verifyLink libs expectedMeasurement stored hop.link with
  | error message => simp [followRedirects, sendHop, hlink]
  | ok next => exact absurd ⟨next, hlink⟩ hrefused

/-- Over a connection that is set up the request is written first. -/
theorem followRedirects_of_accepted
    {libs : ClientLibs Cert Key} {expectedMeasurement : Option Bytes}
    (payload : Option SecretsMap) (stored : Option AttestationReport)
    {hop : Redirect} (rest : List Redirect)
    (haccepted : LinkAccepted libs expectedMeasurement hop.link) :
    ∃ next, (followRedirects libs expectedMeasurement payload stored
        (hop :: rest)).1 =
      transmission (if hop.keepsBody then payload else none) hop.toHop ++
        match hop.written with
        | .error _ => []
        | .ok () => (followRedirects libs expectedMeasurement payload next
            rest).1 := by
  obtain ⟨next, hlink⟩ :=
    (verifyLink_isOk_iff stored).mpr haccepted
  refine ⟨next, ?_⟩
  cases hwritten : hop.written with
  | error message =>
      simp [followRedirects, sendHop, hlink, hwritten, bind, Except.bind]
  | ok value =>
      simp [followRedirects, sendHop, hlink, hwritten, bind, Except.bind,
        pure, Except.pure]

/-- The walk over the connections transmits the secrets first, or leaves no
event at all, and it transmits them exactly when a byte of them goes out. -/
theorem followRedirects_trace
    (libs : ClientLibs Cert Key) (expectedMeasurement : Option Bytes)
    (secrets : SecretsMap) (stored : Option AttestationReport)
    (hops : List Redirect) :
    (BodyGoesOut libs expectedMeasurement hops ∧
      ∃ sent receiver later,
        (followRedirects libs expectedMeasurement (some secrets) stored
          hops).1 = .transmitSecrets secrets sent receiver :: later) ∨
    (¬ BodyGoesOut libs expectedMeasurement hops ∧
      (followRedirects libs expectedMeasurement (some secrets) stored
        hops).1 = []) := by
  induction hops generalizing stored with
  | nil => exact .inr ⟨id, rfl⟩
  | cons hop rest ih =>
      rw [BodyGoesOut]
      by_cases haccepted : LinkAccepted libs expectedMeasurement hop.link
      · obtain ⟨next, htrace⟩ := followRedirects_of_accepted
          (some secrets) stored rest haccepted
        rw [htrace]
        by_cases hbody : hop.keepsBody = true ∧ hop.sent.any = true
        · left
          refine ⟨⟨haccepted, .inl hbody⟩, hop.sent,
            hop.link.certificate, ?_⟩
          simp only [hbody.1, if_true, transmission, hbody.2,
            List.singleton_append]
          exact ⟨_, rfl⟩
        · rw [transmission_of_quiet hbody, List.nil_append]
          cases hwritten : hop.written with
          | error message =>
              right
              simp [hbody]
          | ok value => simpa [haccepted, hbody] using ih next
      · right
        exact ⟨fun hgoes => haccepted hgoes.1,
          followRedirects_of_refused haccepted⟩

/-- Once a byte of the secrets goes out, this is the first event of the run;
otherwise the run transmits nothing. -/
theorem injectSecret_trace
    (libs : ClientLibs Cert Key) (env : HttpEnv) (baseUrl product : String)
    (expectedMeasurement : Option Bytes)
    (secrets : List (String × String)) (cache : KdsCache) :
    (SomeHopReceives libs env baseUrl expectedMeasurement ∧
      ∃ sent receiver later,
        (injectSecret libs env baseUrl product expectedMeasurement secrets
          cache).1 =
            .transmitSecrets (secretsMap secrets) sent receiver :: later) ∨
    (¬ SomeHopReceives libs env baseUrl expectedMeasurement ∧
      ∀ event ∈ (injectSecret libs env baseUrl product expectedMeasurement
        secrets cache).1, ∃ report valid, event = .verified report valid) := by
  unfold injectSecret SomeHopReceives
  cases hprepare : prepareInjection env baseUrl with
  | error message => exact .inr ⟨by simp, by simp⟩
  | ok value =>
      have hverified : ∀ report : AttestationReport,
          ∀ event ∈ verifyEvent libs report product cache,
            ∃ report valid, event = .verified report valid := by
        intro report event hevent
        unfold verifyEvent at hevent
        split at hevent
        · simp at hevent
        · rename_i result _
          exact ⟨report, result.valid, List.mem_singleton.mp hevent⟩
      have htrace := followRedirects_trace libs expectedMeasurement
        (secretsMap secrets) none env.exchange.hops
      simp only [true_and]
      generalize hsent : sendRequest libs expectedMeasurement
        (some (secretsMap secrets)) env.exchange = sent
      have hevents : sent.1 = (followRedirects libs expectedMeasurement
          (some (secretsMap secrets)) none env.exchange.hops).1 := by
        rw [← hsent]
        rfl
      rw [← hevents] at htrace
      obtain ⟨events, outcome⟩ := sent
      simp only at htrace ⊢
      refine htrace.imp ?_ ?_
      · rintro ⟨hgoes, amount, receiver, later, rfl⟩
        refine ⟨hgoes, amount, receiver, ?_⟩
        obtain failure | ⟨response, slot | report⟩ := outcome
        · exact ⟨later, rfl⟩
        · exact ⟨later, rfl⟩
        · exact ⟨later ++ verifyEvent libs report product cache, rfl⟩
      · rintro ⟨hstays, rfl⟩
        refine ⟨hstays, ?_⟩
        obtain failure | ⟨response, slot | report⟩ := outcome
        · simp
        · simp
        · simpa using hverified report

/-- The secrets wait for the verification exactly when no server gets a byte
of them at all. -/
theorem secrets_after_verification_iff
    (libs : ClientLibs Cert Key) (env : HttpEnv) (baseUrl product : String)
    (expectedMeasurement : Option Bytes)
    (secrets : List (String × String)) (cache : KdsCache) :
    VerifiedBeforeTransmit libs
        (injectSecret libs env baseUrl product expectedMeasurement secrets
          cache).1 ↔
      ¬ SomeHopReceives libs env baseUrl expectedMeasurement := by
  rcases injectSecret_trace libs env baseUrl product expectedMeasurement
      secrets cache with
    ⟨hreceives, sent, receiver, later, htrace⟩ | ⟨hstays, htrace⟩
  · refine iff_of_false ?_ (fun hstays => hstays hreceives)
    intro hordered
    obtain ⟨_, _, _, _, hbefore⟩ := hordered [] _ _ _ later htrace
    simp at hbefore
  · refine iff_of_true ?_ hstays
    intro before secrets sent receiver after hsplit
    have hevent : ClientEvent.transmitSecrets secrets sent receiver ∈
        before ++ .transmitSecrets secrets sent receiver :: after := by
      simp
    rw [← hsplit] at hevent
    obtain ⟨report, valid, hverified⟩ := htrace _ hevent
    cases hverified

theorem secrets_sent_before_failed_attestation :
    (injectSecret sampleClientLibs (sampleEnv [5, 2] "") "https://vm/"
        "Milan" (some (List.replicate 48 9)) [("key", "secret")]
        none).2.isOk = false ∧
      ¬ VerifiedBeforeTransmit sampleClientLibs
        (injectSecret sampleClientLibs (sampleEnv [5, 2] "") "https://vm/"
          "Milan" (some (List.replicate 48 9)) [("key", "secret")]
          none).1 := by
  refine ⟨by decide +kernel, ?_⟩
  have hreceives : SomeHopReceives sampleClientLibs (sampleEnv [5, 2] "")
      "https://vm/" (some (List.replicate 48 9)) := by
    refine ⟨rfl, ?_, .inl ⟨rfl, rfl⟩⟩
    intro certificate hcertificate
    cases hcertificate
    exact ⟨forgedWrapper [], by decide +kernel⟩
  intro hordered
  rcases injectSecret_trace sampleClientLibs (sampleEnv [5, 2] "")
      "https://vm/" "Milan" (some (List.replicate 48 9))
      [("key", "secret")] none with
    ⟨-, sent, receiver, later, htrace⟩ | ⟨hstays, -⟩
  · obtain ⟨_, _, _, _, hbefore⟩ := hordered [] _ _ _ later htrace
    simp at hbefore
  · exact hstays hreceives

end AlephCvm.Tee
