import AlephCvm.RootOfTrust

/-!
# The TLS certificate verifier of the client

Model of `aleph-tee/src/x509.rs` and `aleph-attest-cli/src/verify.rs`.  During
a handshake the verifier reads the attestation wrapper out of the server's
certificate and compares two of its fields: `reportData` with the digest of
the server's public key, and `measurement` with the expected one.  It never
looks at `data`, the bytes that the processor signed.
-/

namespace AlephCvm.Tee

open ResultContext

variable {Cert Key : Type}

structure X509Extension where
  oid : List ℕ
  value : Bytes
  deriving DecidableEq

/-- The parts of a parsed X.509 certificate that the client reads. -/
structure X509Cert where
  publicKey : Bytes
  extensions : List X509Extension
  deriving DecidableEq

/-- The parsers of the client's dependencies. -/
structure ClientLibs (Cert Key : Type) extends TeeLibs Cert Key where
  parseX509 : Bytes → Except String X509Cert
  octetStringFromDer : Bytes → Except String Bytes
  reportFromJson : Bytes → Except String AttestationReport

def attestationOid : List ℕ := [1, 3, 6, 1, 4, 1, 60000, 1, 1]

def decodeAttestationExtension (libs : ClientLibs Cert Key)
    (derBytes : Bytes) : Except String AttestationReport := do
  let jsonBytes ← mapError (fun e => s!"failed to parse DER OctetString: {e}")
    (libs.octetStringFromDer derBytes)
  context "failed to deserialize AttestationReport from JSON"
    (libs.reportFromJson jsonBytes)

/-- The wrapper in the first extension with the attestation OID. -/
def extractAttestationFromCert (libs : ClientLibs Cert Key)
    (certDer : Bytes) : Except String (Option AttestationReport) := do
  let cert ← mapError (fun e => s!"failed to parse X.509 certificate: {e}")
    (libs.parseX509 certDer)
  match cert.extensions.find? (fun ext => ext.oid == attestationOid) with
  | none => return none
  | some ext => do
      let report ← context "failed to decode attestation extension"
        (decodeAttestationExtension libs ext.value)
      return some report

/-- The key-binding check of the verifier. -/
def keyBindingMatches (sha384 : Bytes → Digest384)
    (report : AttestationReport) (publicKeyBytes : Bytes) : Bool :=
  report.reportData == keyBoundReportData (sha384 publicKeyBytes)

def checkKeyBinding (sha384 : Bytes → Digest384)
    (report : AttestationReport) (publicKeyBytes : Bytes) :
    Except String Unit :=
  ensure (keyBindingMatches sha384 report publicKeyBytes)
    ("key binding verification failed: report_data does not match " ++
      "SHA-384(public_key). Expected " ++
      hexEncode (keyBoundReportData (sha384 publicKeyBytes)).toList ++
      ", got " ++ hexEncode report.reportData.toList)

def checkMeasurement (expectedMeasurement : Option Bytes)
    (report : AttestationReport) : Except String Unit :=
  match expectedMeasurement with
  | none => .ok ()
  | some expected =>
      ensure (report.measurement == expected)
        (s!"measurement mismatch: expected {hexEncode expected}, got " ++
          s!"{hexEncode report.measurement}")

/-- The report that an accepted handshake stores in the verifier. -/
def verifyServerCert (libs : ClientLibs Cert Key)
    (expectedMeasurement : Option Bytes) (endEntity : Bytes) :
    Except String AttestationReport := do
  let extracted ← mapError
    (fun e => s!"failed to extract attestation from certificate: {e}")
    (extractAttestationFromCert libs endEntity)
  let report ← optionContext
    "certificate does not contain an attestation extension" extracted
  let cert ← mapError
    (fun e => s!"failed to parse certificate for key binding: {e}")
    (libs.parseX509 endEntity)
  checkKeyBinding libs.sha384 report cert.publicKey
  checkMeasurement expectedMeasurement report
  return report

/-! ## What an accepted handshake says -/

theorem checkKeyBinding_eq_ok
    {sha384 : Bytes → Digest384} {report : AttestationReport}
    {publicKeyBytes : Bytes} {value : Unit} :
    checkKeyBinding sha384 report publicKeyBytes = .ok value ↔
      report.reportData = keyBoundReportData (sha384 publicKeyBytes) := by
  rw [checkKeyBinding, ensure_eq_ok]
  simp [keyBindingMatches]

theorem checkMeasurement_some_eq_ok
    {expected : Bytes} {report : AttestationReport} {value : Unit} :
    checkMeasurement (some expected) report = .ok value ↔
      report.measurement = expected := by
  simp [checkMeasurement]

/-- The wrapper, not the signed report, is bound to the key and pinned to the
measurement. -/
structure HandshakeAccepted (libs : ClientLibs Cert Key)
    (expectedMeasurement : Option Bytes) (endEntity : Bytes)
    (cert : X509Cert) (report : AttestationReport) : Prop where
  extracted : extractAttestationFromCert libs endEntity = .ok (some report)
  parsed : libs.parseX509 endEntity = .ok cert
  key_bound :
    report.reportData = keyBoundReportData (libs.sha384 cert.publicKey)
  pinned : checkMeasurement expectedMeasurement report = .ok ()

theorem verifyServerCert_accepted
    {libs : ClientLibs Cert Key} {expectedMeasurement : Option Bytes}
    {endEntity : Bytes} {report : AttestationReport}
    (hok : verifyServerCert libs expectedMeasurement endEntity =
      .ok report) :
    ∃ cert,
      HandshakeAccepted libs expectedMeasurement endEntity cert report := by
  simp only [verifyServerCert, bind_eq_ok, mapError_eq_ok,
    optionContext_eq_ok, checkKeyBinding_eq_ok, pure_eq_ok] at hok
  obtain ⟨extracted, hextracted, report', hreport, cert, hcert, _, hbound,
    _, hpinned, heq⟩ := hok
  subst heq
  subst hreport
  exact ⟨cert, hextracted, hcert, hbound, hpinned⟩

end AlephCvm.Tee
