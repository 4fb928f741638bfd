import Mathlib.Data.List.AList
import AlephCvm.ResultContext
import AlephCvm.TeeTypes

/-!
# AMD certificates and their cache

Model of `aleph-tee/src/sev_snp/certs.rs`.  Certificates are fetched from
AMD's key distribution service and kept in an on-disk cache that later calls
read first.  The cache is explicit state: a fetch takes the cache it finds
and returns the cache it leaves.  The service, the OpenSSL certificate
parser and how far the writes of the cache get come from outside the
repository and are fields of `KdsEnv`.
-/

namespace AlephCvm.Tee

open ResultContext

/-- The files below the cache directory, or `none` when neither
`XDG_CACHE_HOME` nor `HOME` is set. -/
abbrev KdsCache := Option (AList fun _ : String => Bytes)

structure CertChain where
  vcekDer : Bytes
  askDer : Bytes
  arkDer : Bytes
  deriving DecidableEq

/-- One answer of the service: the HTTP status and the body. -/
structure KdsResponse where
  status : ℕ
  body : Except String Bytes

/-- A write of a cached certificate succeeds, breaks off after some bytes, or
does not get to open the file. -/
inductive CacheWrite where
  | written
  | truncated (kept : ℕ)
  | refused
  deriving DecidableEq, Repr

/-- What the file holds afterwards, when the write has touched it:
`std::fs::write` cuts it to nothing first. -/
def CacheWrite.content (data : Bytes) : CacheWrite → Option Bytes
  | .written => some data
  | .truncated kept => some (data.take kept)
  | .refused => none

structure KdsEnv (Cert : Type) where
  get : String → Except String KdsResponse
  cacheWrite : String → CacheWrite
  stackFromPem : Bytes → Except String (List Cert)
  toDer : Cert → Except String Bytes

def kdsBaseUrl : String := "https://kdsintf.amd.com/vcek/v1"

def readCached (cache : KdsCache) (path : String) : Option Bytes :=
  match cache with
  | none => none
  | some files =>
      match files.lookup path with
      | none => none
      | some data => if data.isEmpty then none else some data

def writeCache {Cert : Type} (env : KdsEnv Cert) (cache : KdsCache)
    (path : String) (data : Bytes) : KdsCache :=
  match cache with
  | none => none
  | some files =>
      match (env.cacheWrite path).content data with
      | some content => some (files.insert path content)
      | none => some files

/-- `reqwest::get` followed by the status check and the read of the body. -/
def kdsFetch {Cert : Type} (env : KdsEnv Cert) (what url : String) :
    Except String Bytes := do
  let response ← context s!"failed to fetch {what} from {url}" (env.get url)
  ensure (decide (200 ≤ response.status ∧ response.status ≤ 299))
    s!"AMD KDS returned HTTP {response.status} for {what} request: {url}"
  context s!"failed to read {what} response body" response.body

def vcekCachePath (product : String) (chipId : ReportData)
    (tcb : TcbParams) : String :=
  s!"{product}/vcek_{hexEncode chipId.toList}_{tcb.blSpl}_{tcb.teeSpl}_" ++
    s!"{tcb.snpSpl}_{tcb.ucodeSpl}.der"

def vcekUrl (product : String) (chipId : ReportData) (tcb : TcbParams) :
    String :=
  s!"{kdsBaseUrl}/{product}/{hexEncode chipId.toList}?blSPL={tcb.blSpl}" ++
    s!"&teeSPL={tcb.teeSpl}&snpSPL={tcb.snpSpl}&ucodeSPL={tcb.ucodeSpl}"

def fetchVcek {Cert : Type} (env : KdsEnv Cert) (product : String)
    (chipId : ReportData) (tcb : TcbParams) (cache : KdsCache) :
    Except String Bytes × KdsCache :=
  let path := vcekCachePath product chipId tcb
  match readCached cache path with
  | some data => (.ok data, cache)
  | none =>
      match kdsFetch env "VCEK" (vcekUrl product chipId tcb) with
      | .error message => (.error message, cache)
      | .ok data => (.ok data, writeCache env cache path data)

/-! ## Splitting the certificate chain -/

/-- The long form accumulates the length in a `usize`; `checked_shl(8)`
never fails and the bits shifted out are lost. -/
def derLongLength (lengthBytes : Bytes) : UInt64 :=
  lengthBytes.foldl (fun acc byte => (acc <<< 8) ||| byte.toUInt64) 0

def derObjectLength (data : Bytes) : Except String UInt64 :=
  match data with
  | [] => .error "empty DER data"
  | [_] => .error "DER data too short for tag + length"
  | _ :: lengthByte :: rest =>
      if lengthByte &&& 128 = 0 then .ok (2 + lengthByte.toUInt64)
      else
        let numLengthBytes := (lengthByte &&& 127).toNat
        if numLengthBytes = 0 then
          .error "indefinite DER length not supported"
        else if data.length < 2 + numLengthBytes then
          .error "DER data too short for length encoding"
        else
          .ok (2 + UInt64.ofNat numLengthBytes +
            derLongLength (rest.take numLengthBytes))

def splitDerCerts (data : Bytes) : Except String (Bytes × Bytes) := do
  ensure (decide (2 ≤ data.length)) "certificate data too short"
  let firstLen ← context "failed to parse first certificate length"
    (derObjectLength data)
  ensure (decide (firstLen.toNat ≤ data.length))
    (s!"first certificate length ({firstLen}) exceeds data length " ++
      s!"({data.length})")
  ensure (!(data.drop firstLen.toNat).isEmpty)
    "CA chain contains only one certificate, expected two (ASK + ARK)"
  return (data.take firstLen.toNat, data.drop firstLen.toNat)

/-- The bytes of `-----BEGIN`. -/
def pemMarker : Bytes := "-----BEGIN".toUTF8.toList

def firstTwoCerts {Cert : Type} (certs : List Cert) :
    Except String (Cert × Cert) :=
  match certs with
  | ask :: ark :: _ => .ok (ask, ark)
  | _ => .error
      (s!"expected 2 certificates (ASK + ARK) in CA chain, got " ++
        s!"{certs.length}")

def parseCaChain {Cert : Type} (env : KdsEnv Cert) (bytes : Bytes) :
    Except String (Bytes × Bytes) :=
  if pemMarker.isPrefixOf bytes then do
    let certs ← context "failed to parse PEM certificate chain from AMD KDS"
      (env.stackFromPem bytes)
    let (ask, ark) ← firstTwoCerts certs
    let askDer ← context "failed to convert ASK to DER" (env.toDer ask)
    let arkDer ← context "failed to convert ARK to DER" (env.toDer ark)
    return (askDer, arkDer)
  else
    context "failed to split CA chain into ASK and ARK certificates"
      (splitDerCerts bytes)

def askCachePath (product : String) : String := s!"{product}/ask.der"

def arkCachePath (product : String) : String := s!"{product}/ark.der"

def caChainUrl (product : String) : String :=
  s!"{kdsBaseUrl}/{product}/cert_chain"

/-- The pair of cached CA certificates, used only when both files are
there. -/
def readCachedCaChain (cache : KdsCache) (product : String) :
    Option (Bytes × Bytes) :=
  match readCached cache (askCachePath product),
      readCached cache (arkCachePath product) with
  | some ask, some ark => some (ask, ark)
  | _, _ => none

/-- The ASK and ARK certificates in DER form. -/
def fetchCaChain {Cert : Type} (env : KdsEnv Cert) (product : String)
    (cache : KdsCache) : Except String (Bytes × Bytes) × KdsCache :=
  match readCachedCaChain cache product with
  | some pair => (.ok pair, cache)
  | none =>
      match kdsFetch env "CA chain" (caChainUrl product) >>=
          parseCaChain env with
      | .error message => (.error message, cache)
      | .ok (askDer, arkDer) =>
          (.ok (askDer, arkDer),
            writeCache env
              (writeCache env cache (askCachePath product) askDer)
              (arkCachePath product) arkDer)

end AlephCvm.Tee
