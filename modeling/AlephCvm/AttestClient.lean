import AlephCvm.CertVerifier

/-!
# The attesting client

Model of `aleph-attest-cli/src/client.rs`.  A request is an exchange with the
network: the HTTP client opens a connection, follows redirects over further
connections, and returns a response.  Every full TLS handshake runs the
certificate verifier and overwrites its one slot with the report it accepted.
Plain connections and pooled ones leave the slot alone.

The client records what it does in a trace.  The functions below return it
with their result, because where the secrets went is not visible in the
result.
-/

namespace AlephCvm.Tee

open ResultContext

variable {Cert Key : Type}

/-! ## Exchanges -/

/-- The connection of one hop.  A pooled connection is one whose handshake
was accepted earlier; it is not verified again. -/
inductive Link where
  | plain
  | handshake (certificate : Bytes)
  | pooled (certificate : Bytes)
  deriving DecidableEq

def Link.certificate : Link → Option Bytes
  | .plain => none
  | .handshake certificate => some certificate
  | .pooled certificate => some certificate

/-- How much of a request's body goes out on a connection. -/
inductive BodySent where
  | whole
  | part (bytes : ℕ)
  deriving DecidableEq

def BodySent.any : BodySent → Bool
  | .whole => true
  | .part bytes => bytes != 0

/-- A write that fails may have sent a part of the body before. -/
structure Hop where
  link : Link
  sent : BodySent
  written : Except String Unit

/-- A hop that follows a redirect, with the request body or without. -/
structure Redirect extends Hop where
  keepsBody : Bool

structure HttpResponse where
  status : ℕ
  text : Except String String

structure Exchange where
  first : Hop
  redirects : List Redirect
  response : Except String HttpResponse

/-- The connection that the response arrives on. -/
def Exchange.finalLink (exchange : Exchange) : Link :=
  match exchange.redirects.getLast? with
  | some redirect => redirect.link
  | none => exchange.first.link

abbrev SecretsMap := AList fun _ : String => String

/-- The JSON of the secrets goes out, or its first bytes do. -/
inductive ClientEvent where
  | transmitSecrets (secrets : SecretsMap) (sent : BodySent)
      (receiver : Option Bytes)
  | verified (report : AttestationReport) (valid : Bool)

/-- What the client's libraries and the network do during one call. -/
structure HttpEnv where
  buildClient : Except String Unit
  parseUrl : String → Except String String
  joinUrl : String → String → Except String String
  exchange : Exchange
  injectedFromJson : String → Except String (List String)

/-! ## Sending a request -/

/-- The verifier's slot after the connection of a hop is set up. -/
def verifyLink (libs : ClientLibs Cert Key)
    (expectedMeasurement : Option Bytes)
    (stored : Option AttestationReport) :
    Link → Except String (Option AttestationReport)
  | .plain => .ok stored
  | .handshake certificate => do
      let report ← verifyServerCert libs expectedMeasurement certificate
      return some report
  | .pooled certificate => do
      let _ ← verifyServerCert libs expectedMeasurement certificate
      return stored

/-- The event of writing a body, if a byte of it goes out. -/
def transmission (payload : Option SecretsMap) (hop : Hop) :
    List ClientEvent :=
  match payload with
  | none => []
  | some secrets =>
      if hop.sent.any then
        [.transmitSecrets secrets hop.sent hop.link.certificate]
      else []

/-- One hop: set up the connection, then write the request. -/
def sendHop (libs : ClientLibs Cert Key)
    (expectedMeasurement : Option Bytes) (payload : Option SecretsMap)
    (stored : Option AttestationReport) (hop : Hop) :
    List ClientEvent × Except String (Option AttestationReport) :=
  match verifyLink libs expectedMeasurement stored hop.link with
  | .error message => ([], .error message)
  | .ok stored =>
      (transmission payload hop, do
        hop.written
        return stored)

def followRedirects (libs : ClientLibs Cert Key)
    (expectedMeasurement : Option Bytes) (payload : Option SecretsMap) :
    Option AttestationReport → List Redirect →
      List ClientEvent × Except String (Option AttestationReport)
  | stored, [] => ([], .ok stored)
  | stored, redirect :: rest =>
      let sent := if redirect.keepsBody then payload else none
      match sendHop libs expectedMeasurement sent stored redirect.toHop with
      | (events, .error message) => (events, .error message)
      | (events, .ok stored) =>
          let (later, result) :=
            followRedirects libs expectedMeasurement payload stored rest
          (events ++ later, result)

/-- The connections of an exchange; the first one has the body. -/
def Exchange.hops (exchange : Exchange) : List Redirect :=
  ⟨exchange.first, true⟩ :: exchange.redirects

/-- `RequestBuilder::send`: the response and the verifier's slot. -/
def sendRequest (libs : ClientLibs Cert Key)
    (expectedMeasurement : Option Bytes) (payload : Option SecretsMap)
    (exchange : Exchange) :
    List ClientEvent ×
      Except String (HttpResponse × Option AttestationReport) :=
  let (events, result) := followRedirects libs expectedMeasurement payload
    none exchange.hops
  (events, do
    let stored ← result
    let response ← exchange.response
    return (response, stored))

/-! ## The three operations -/

structure AttestedResponse where
  attestationValid : Bool
  attestationSummary : String
  measurement : Bytes
  status : ℕ
  body : String
  deriving DecidableEq

/-- Layer 2. -/
def attestedRequest (libs : ClientLibs Cert Key) (env : HttpEnv)
    (product : String) (expectedMeasurement : Option Bytes)
    (cache : KdsCache) : Except String AttestedResponse := do
  context "failed to build HTTP client with custom TLS config"
    env.buildClient
  let (response, stored) ← context "failed to send GET request"
    (sendRequest libs expectedMeasurement none env.exchange).2
  let body ← context "failed to read response body" response.text
  let report ← optionContext
    "no attestation report extracted from TLS handshake" stored
  let result ← context "SEV-SNP report verification failed"
    (verifySevSnpReport libs.toTeeLibs report product cache).1
  return {
    attestationValid := result.valid
    attestationSummary := result.summary
    measurement := result.measurement
    status := response.status
    body := body }

/-- The call of `verify_sev_snp_report` and the event it leaves. -/
def verifyEvent (libs : ClientLibs Cert Key) (report : AttestationReport)
    (product : String) (cache : KdsCache) : List ClientEvent :=
  match (verifySevSnpReport libs.toTeeLibs report product cache).1 with
  | .error _ => []
  | .ok result => [.verified report result.valid]

def fetchFreshReport (libs : ClientLibs Cert Key) (env : HttpEnv)
    (nonce : List.Vector UInt8 32) (baseUrl : String)
    (expectedMeasurement : Option Bytes) :
    Except String AttestationReport := do
  let base ← context "failed to parse base URL" (env.parseUrl baseUrl)
  let _ ← context "failed to construct attestation URL"
    (env.joinUrl base
      s!".well-known/attestation?nonce={hexEncode nonce.toList}")
  context "failed to build HTTP client with custom TLS config"
    env.buildClient
  let (response, _) ← context "failed to send attestation request"
    (sendRequest libs expectedMeasurement none env.exchange).2
  let body ← context "failed to read attestation response body" response.text
  let report ← context "failed to parse attestation response as JSON"
    (libs.reportFromJson body.toUTF8.toList)
  ensure (report.reportData.toList.take 32 == nonce.toList)
    (s!"nonce mismatch: expected {hexEncode nonce.toList} in report_data, " ++
      s!"got {hexEncode (report.reportData.toList.take 32)}")
  return report

/-- Layer 3. -/
def freshAttestation (libs : ClientLibs Cert Key) (env : HttpEnv)
    (nonce : List.Vector UInt8 32) (baseUrl product : String)
    (expectedMeasurement : Option Bytes) (cache : KdsCache) :
    List ClientEvent × Except String AttestationReport :=
  match fetchFreshReport libs env nonce baseUrl expectedMeasurement with
  | .error message => ([], .error message)
  | .ok report =>
      (verifyEvent libs report product cache, do
        let result ← context "SEV-SNP report verification failed"
          (verifySevSnpReport libs.toTeeLibs report product cache).1
        ensure result.valid
          s!"SEV-SNP attestation report is not valid: {result.summary}"
        return report)

def secretsMap (secrets : List (String × String)) : SecretsMap :=
  secrets.foldl (fun map secret => map.insert secret.1 secret.2) ∅

/-- The part of `inject_secret` before the request goes out. -/
def prepareInjection (env : HttpEnv) (baseUrl : String) :
    Except String Unit := do
  let base ← context "failed to parse base URL" (env.parseUrl baseUrl)
  let _ ← context "failed to construct inject-secret URL"
    (env.joinUrl base "confidential/inject-secret")
  context "failed to build HTTP client with custom TLS config"
    env.buildClient

/-- The part of `inject_secret` after the response has arrived. -/
def finishInjection (env : HttpEnv) (result : VerificationResult)
    (response : HttpResponse) : Except String (List String) := do
  ensure result.valid s!"attestation invalid: {result.summary}"
  ensure (response.status != 409) "secrets already injected (409 Conflict)"
  ensure (response.status == 200)
    (s!"inject-secret failed with status {response.status}: " ++
      (response.text.toOption.getD ""))
  let text ← context "failed to parse inject-secret response" response.text
  context "failed to parse inject-secret response"
    (env.injectedFromJson text)

def injectSecret (libs : ClientLibs Cert Key) (env : HttpEnv)
    (baseUrl product : String) (expectedMeasurement : Option Bytes)
    (secrets : List (String × String)) (cache : KdsCache) :
    List ClientEvent × Except String (List String) :=
  match prepareInjection env baseUrl with
  | .error message => ([], .error message)
  | .ok () =>
      let (events, sent) := sendRequest libs expectedMeasurement
        (some (secretsMap secrets)) env.exchange
      match sent with
      | .error _ =>
          (events, .error "failed to send inject-secret request")
      | .ok (_, none) =>
          (events, .error
            "no attestation report extracted from TLS handshake")
      | .ok (response, some report) =>
          (events ++ verifyEvent libs report product cache, do
            let result ← context "SEV-SNP report verification failed"
              (verifySevSnpReport libs.toTeeLibs report product cache).1
            finishInjection env result response)

end AlephCvm.Tee
