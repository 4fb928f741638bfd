import AlephCvm.KdsCertificates

/-!
# Verification of a SEV-SNP report

Model of `aleph-tee/src/sev_snp/report.rs` and
`aleph-tee/src/sev_snp/verify.rs`.  `verifySevSnpReport` parses the raw
report, fetches the VCEK and the CA chain, rejects unprivileged VMPLs, checks
the certificate chain and finally the signature of the report.  It reads only
the `data` field of the wrapper it is handed.

The `sev` parser and OpenSSL are outside the repository.  They are the fields
of `TeeLibs`; certificates and public keys are abstract types.
-/

namespace AlephCvm.Tee

open ResultContext

/-- The fields of the `sev` crate's report that the code reads. -/
structure SevReport where
  chipId : ReportData
  reportedTcb : TcbParams
  vmpl : UInt32
  guestSvn : UInt32
  reportData : ReportData
  measurement : Digest384
  deriving DecidableEq

inductive NameField where
  | commonName
  | organizationName
  deriving DecidableEq, Repr

structure TeeLibs (Cert Key : Type) extends KdsEnv Cert where
  sevFromBytes : Bytes → Except String SevReport
  x509FromDer : Bytes → Except String Cert
  subjectEntries : Cert → NameField → List (Except String String)
  subjectDer : Cert → Except String Bytes
  issuerDer : Cert → Except String Bytes
  publicKey : Cert → Except String Key
  verifyCert : Cert → Key → Except String Bool
  sha384 : Bytes → Digest384
  ecdsaVerify : Key → Bytes → Bytes → Digest384 → Except String Bool

variable {Cert Key : Type}

def reportSize : ℕ := 1184

def parseSevSnpReport (libs : TeeLibs Cert Key) (raw : Bytes) :
    Except String SevReport := do
  ensure (decide (raw.length = reportSize))
    (s!"invalid SEV-SNP report size: expected {reportSize} bytes, got " ++
      s!"{raw.length}")
  chainContext "failed to parse SEV-SNP attestation report"
    (libs.sevFromBytes raw)

/-! ## The certificate chain -/

def amdArkCnPrefix : String := "ARK-"

def amdOrgName : String := "Advanced Micro Devices"

def verifyArkIdentity (libs : TeeLibs Cert Key) (ark : Cert) :
    Except String Unit := do
  let cn ← optionContext "ARK certificate has no Common Name in subject"
    (libs.subjectEntries ark .commonName).head?
  let cnStr ← context "ARK CN is not valid UTF-8" cn
  ensure (cnStr.startsWith amdArkCnPrefix)
    (s!"ARK certificate CN '{cnStr}' does not start with expected " ++
      s!"prefix '{amdArkCnPrefix}'")
  let org ← optionContext "ARK certificate has no Organization in subject"
    (libs.subjectEntries ark .organizationName).head?
  let orgStr ← context "ARK Organization is not valid UTF-8" org
  ensure (orgStr == amdOrgName)
    (s!"ARK certificate Organization '{orgStr}' does not match expected " ++
      s!"'{amdOrgName}'")
  let subjectDer ← context "failed to encode subject to DER"
    (libs.subjectDer ark)
  let issuerDer ← context "failed to encode issuer to DER"
    (libs.issuerDer ark)
  ensure (subjectDer == issuerDer)
    "ARK certificate issuer does not match subject (not self-issued)"

def verifyCertChain (libs : TeeLibs Cert Key) (chain : CertChain) :
    Except String Unit := do
  let ark ← context "failed to parse ARK certificate"
    (libs.x509FromDer chain.arkDer)
  let ask ← context "failed to parse ASK certificate"
    (libs.x509FromDer chain.askDer)
  let vcek ← context "failed to parse VCEK certificate"
    (libs.x509FromDer chain.vcekDer)
  context "ARK identity verification failed" (verifyArkIdentity libs ark)
  let arkPubkey ← context "failed to extract ARK public key"
    (libs.publicKey ark)
  let arkSigned ← context "failed to verify ARK self-signature"
    (libs.verifyCert ark arkPubkey)
  ensure arkSigned "ARK certificate is not validly self-signed"
  let askSigned ← context "failed to verify ASK signature"
    (libs.verifyCert ask arkPubkey)
  ensure askSigned "ASK certificate is not signed by ARK"
  let askPubkey ← context "failed to extract ASK public key"
    (libs.publicKey ask)
  let vcekSigned ← context "failed to verify VCEK signature"
    (libs.verifyCert vcek askPubkey)
  ensure vcekSigned "VCEK certificate is not signed by ASK"

/-! ## The signature of the report -/

def signedReportSize : ℕ := 672

def stripLeadingZeros (bytes : Bytes) : Bytes :=
  match bytes.findIdx? (· != 0) with
  | some position => bytes.drop position
  | none => bytes.drop (bytes.length - 1)

/-- The big-endian bytes of a little-endian signature component. -/
def signatureComponent (raw : Bytes) (offset : ℕ) : Bytes :=
  stripLeadingZeros ((raw.drop offset).take 72).reverse

def verifyReportSignature (libs : TeeLibs Cert Key)
    (reportRaw vcekDer : Bytes) : Except String Unit := do
  ensure (decide (signedReportSize + 144 ≤ reportRaw.length))
    (s!"report too short for signature verification: need at least " ++
      s!"{signedReportSize + 144} bytes, got {reportRaw.length}")
  let vcek ← context
    "failed to parse VCEK certificate for signature verification"
    (libs.x509FromDer vcekDer)
  let vcekPkey ← context "failed to extract VCEK public key"
    (libs.publicKey vcek)
  let valid ← context "ECDSA signature verification failed"
    (libs.ecdsaVerify vcekPkey
      (signatureComponent reportRaw signedReportSize)
      (signatureComponent reportRaw (signedReportSize + 72))
      (libs.sha384 (reportRaw.take signedReportSize)))
  ensure valid "SEV-SNP report signature is invalid"

/-! ## The whole verification -/

/-- Steps 5 to 7: the checks that follow the fetches. -/
def checkFetchedChain (libs : TeeLibs Cert Key) (product : String)
    (raw : Bytes) (parsed : SevReport) (chain : CertChain) :
    Except String VerificationResult := do
  ensure (decide (parsed.vmpl ≤ 1))
    (s!"attestation report from VMPL {parsed.vmpl} — only VMPL 0-1 are " ++
      "accepted")
  context "certificate chain verification failed" (verifyCertChain libs chain)
  context "report signature verification failed"
    (verifyReportSignature libs raw chain.vcekDer)
  return {
    valid := true
    teeType := .sevSnp
    summary := s!"SEV-SNP report verified successfully (product: {product})"
    measurement := parsed.measurement.toList
    details := {
      product := product
      guestSvn := parsed.guestSvn
      vmpl := parsed.vmpl
      verified := true
      tcb := parsed.reportedTcb } }

def verifySevSnpReport (libs : TeeLibs Cert Key)
    (report : AttestationReport) (product : String) (cache : KdsCache) :
    Except String VerificationResult × KdsCache :=
  match context "failed to parse SEV-SNP attestation report"
      (parseSevSnpReport libs report.data) with
  | .error message => (.error message, cache)
  | .ok parsed =>
      match fetchVcek libs.toKdsEnv product parsed.chipId parsed.reportedTcb
          cache with
      | (.error _, cache) =>
          (.error "failed to fetch VCEK certificate from AMD KDS", cache)
      | (.ok vcekDer, cache) =>
          match fetchCaChain libs.toKdsEnv product cache with
          | (.error _, cache) =>
              (.error "failed to fetch CA chain from AMD KDS", cache)
          | (.ok (askDer, arkDer), cache) =>
              (checkFetchedChain libs product report.data parsed
                ⟨vcekDer, askDer, arkDer⟩, cache)

/-! ## What acceptance says -/

/-- Everything an accepted certificate chain was checked for. -/
structure ChainAccepted (libs : TeeLibs Cert Key) (chain : CertChain)
    (ark ask vcek : Cert) (arkKey askKey : Key) : Prop where
  ark_parsed : libs.x509FromDer chain.arkDer = .ok ark
  ask_parsed : libs.x509FromDer chain.askDer = .ok ask
  vcek_parsed : libs.x509FromDer chain.vcekDer = .ok vcek
  identity : verifyArkIdentity libs ark = .ok ()
  ark_key : libs.publicKey ark = .ok arkKey
  ask_key : libs.publicKey ask = .ok askKey
  ark_signed : libs.verifyCert ark arkKey = .ok true
  ask_signed : libs.verifyCert ask arkKey = .ok true
  vcek_signed : libs.verifyCert vcek askKey = .ok true

theorem verifyCertChain_accepted
    {libs : TeeLibs Cert Key} {chain : CertChain}
    (hok : verifyCertChain libs chain = .ok ()) :
    ∃ ark ask vcek arkKey askKey,
      ChainAccepted libs chain ark ask vcek arkKey askKey := by
  simp only [verifyCertChain, bind_eq_ok, context_eq_ok, ensure_eq_ok] at hok
  obtain ⟨ark, hark, ask, hask, vcek, hvcek, _, hidentity, arkKey, harkKey,
    arkSigned, harkSigned, _, harkTrue, askSigned, haskSigned, _, haskTrue,
    askKey, haskKey, vcekSigned, hvcekSigned, hvcekTrue⟩ := hok
  subst harkTrue haskTrue hvcekTrue
  exact ⟨ark, ask, vcek, arkKey, askKey,
    ⟨hark, hask, hvcek, hidentity, harkKey, haskKey, harkSigned, haskSigned,
      hvcekSigned⟩⟩

/-- The ECDSA check that ties the signed prefix of a raw report to a key. -/
def ReportSignedBy (libs : TeeLibs Cert Key) (raw : Bytes) (key : Key) :
    Prop :=
  libs.ecdsaVerify key (signatureComponent raw signedReportSize)
    (signatureComponent raw (signedReportSize + 72))
    (libs.sha384 (raw.take signedReportSize)) = .ok true

theorem verifyReportSignature_accepted
    {libs : TeeLibs Cert Key} {raw vcekDer : Bytes}
    (hok : verifyReportSignature libs raw vcekDer = .ok ()) :
    ∃ vcek key, libs.x509FromDer vcekDer = .ok vcek ∧
      libs.publicKey vcek = .ok key ∧ ReportSignedBy libs raw key := by
  simp only [verifyReportSignature, bind_eq_ok, context_eq_ok,
    ensure_eq_ok] at hok
  obtain ⟨_, _, vcek, hvcek, key, hkey, valid, hvalid, htrue⟩ := hok
  subst htrue
  exact ⟨vcek, key, hvcek, hkey, hvalid⟩

/-- The chain that a verification of a parsed report works on, as the caches
and the key distribution service provide it. -/
def fetchedChain (libs : TeeLibs Cert Key) (product : String)
    (parsed : SevReport) (cache : KdsCache) : Except String CertChain :=
  match fetchVcek libs.toKdsEnv product parsed.chipId parsed.reportedTcb
      cache with
  | (.error message, _) => .error message
  | (.ok vcekDer, cache) =>
      match fetchCaChain libs.toKdsEnv product cache with
      | (.error message, _) => .error message
      | (.ok (askDer, arkDer), _) => .ok ⟨vcekDer, askDer, arkDer⟩

theorem verifySevSnpReport_accepted
    {libs : TeeLibs Cert Key} {report : AttestationReport}
    {product : String} {cache : KdsCache} {result : VerificationResult}
    (hok : (verifySevSnpReport libs report product cache).1 = .ok result) :
    ∃ parsed chain,
      parseSevSnpReport libs report.data = .ok parsed ∧
      fetchedChain libs product parsed cache = .ok chain ∧
      verifyCertChain libs chain = .ok () ∧
      verifyReportSignature libs report.data chain.vcekDer = .ok () ∧
      result.valid = true := by
  unfold verifySevSnpReport at hok
  cases hparse : parseSevSnpReport libs report.data with
  | error message => simp [hparse, context] at hok
  | ok parsed =>
      simp only [hparse, context] at hok
      refine ⟨parsed, ?_⟩
      unfold fetchedChain
      generalize hvcek : fetchVcek libs.toKdsEnv product parsed.chipId
        parsed.reportedTcb cache = vcekResult at hok ⊢
      obtain ⟨vcek | vcekDer, afterVcek⟩ := vcekResult
      · simp at hok
      · simp only at hok ⊢
        generalize hca : fetchCaChain libs.toKdsEnv product afterVcek =
          caResult at hok ⊢
        obtain ⟨ca | ⟨askDer, arkDer⟩, afterCa⟩ := caResult
        · simp at hok
        · simp only [checkFetchedChain, bind_eq_ok, context_eq_ok,
            ensure_eq_ok, pure_eq_ok] at hok
          obtain ⟨_, _, _, hchain, _, hsignature, hresult⟩ := hok
          refine ⟨_, trivial, rfl, hchain, hsignature, ?_⟩
          rw [← hresult]

end AlephCvm.Tee
