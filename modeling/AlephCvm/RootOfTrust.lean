import AlephCvm.SevVerify

/-!
# The root of trust of a verified report

`verifyCertChain` recognises the ARK by the names in its subject and by its
self-signature.  Names are free text, so whoever can write the two CA files
of the cache chooses the key at the top of the chain.  The main theorem says
exactly what an accepted report is worth: the chain it was verified with ends
in AMD's own ARK key if and only if the ARK certificate that the cache, or in
its absence the key distribution service, supplies for the product carries
that key.
-/

namespace AlephCvm.Tee

open ResultContext

variable {Cert Key : Type}

/-! ## The two fetches use different files -/

theorem vcekCachePath_ne_askCachePath
    (product : String) (chipId : ReportData) (tcb : TcbParams) :
    vcekCachePath product chipId tcb ≠ askCachePath product := by
  intro heq
  have hlist := congrArg String.toList heq
  simp [vcekCachePath, askCachePath, toString] at hlist

theorem vcekCachePath_ne_arkCachePath
    (product : String) (chipId : ReportData) (tcb : TcbParams) :
    vcekCachePath product chipId tcb ≠ arkCachePath product := by
  intro heq
  have hlist := congrArg String.toList heq
  simp [vcekCachePath, arkCachePath, toString] at hlist

theorem readCached_writeCache_of_ne
    (env : KdsEnv Cert) (cache : KdsCache) {written path : String}
    (data : Bytes) (hne : written ≠ path) :
    readCached (writeCache env cache written data) path =
      readCached cache path := by
  cases cache with
  | none => rfl
  | some files =>
      unfold writeCache
      cases (env.cacheWrite written).content data with
      | some content =>
          simp only [readCached]
          rw [AList.lookup_insert_ne hne.symm]
      | none => rfl

theorem readCached_fetchVcek_of_ne
    (env : KdsEnv Cert) (product : String) (chipId : ReportData)
    (tcb : TcbParams) (cache : KdsCache) {path : String}
    (hne : vcekCachePath product chipId tcb ≠ path) :
    readCached (fetchVcek env product chipId tcb cache).2 path =
      readCached cache path := by
  unfold fetchVcek
  cases hcached : readCached cache (vcekCachePath product chipId tcb) with
  | some data => simp only [hcached]
  | none =>
      cases hfetch : kdsFetch env "VCEK" (vcekUrl product chipId tcb) with
      | error message => simp only [hcached]
      | ok data =>
          simp only [hcached]
          exact readCached_writeCache_of_ne env cache data hne

/-- The VCEK fetch may write the cache, never the files of the CA chain. -/
theorem readCachedCaChain_fetchVcek
    (env : KdsEnv Cert) (product : String) (chipId : ReportData)
    (tcb : TcbParams) (cache : KdsCache) :
    readCachedCaChain (fetchVcek env product chipId tcb cache).2 product =
      readCachedCaChain cache product := by
  unfold readCachedCaChain
  rw [readCached_fetchVcek_of_ne env product chipId tcb cache
      (vcekCachePath_ne_askCachePath product chipId tcb),
    readCached_fetchVcek_of_ne env product chipId tcb cache
      (vcekCachePath_ne_arkCachePath product chipId tcb)]

theorem fetchCaChain_congr
    (env : KdsEnv Cert) (product : String) {before after : KdsCache}
    (hread : readCachedCaChain after product =
      readCachedCaChain before product) :
    (fetchCaChain env product after).1 =
      (fetchCaChain env product before).1 := by
  unfold fetchCaChain
  rw [hread]
  cases readCachedCaChain before product with
  | some pair => rfl
  | none =>
      cases kdsFetch env "CA chain" (caChainUrl product) >>=
          parseCaChain env with
      | error message => rfl
      | ok pair => rfl

theorem fetchCaChain_after_fetchVcek
    (env : KdsEnv Cert) (product : String) (chipId : ReportData)
    (tcb : TcbParams) (cache : KdsCache) :
    (fetchCaChain env product
        (fetchVcek env product chipId tcb cache).2).1 =
      (fetchCaChain env product cache).1 := by
  apply fetchCaChain_congr
  exact readCachedCaChain_fetchVcek env product chipId tcb cache

theorem fetchedChain_ca
    {libs : TeeLibs Cert Key} {product : String} {parsed : SevReport}
    {cache : KdsCache} {chain : CertChain}
    (hchain : fetchedChain libs product parsed cache = .ok chain) :
    (fetchCaChain libs.toKdsEnv product cache).1 =
      .ok (chain.askDer, chain.arkDer) := by
  rw [← fetchCaChain_after_fetchVcek libs.toKdsEnv product parsed.chipId
    parsed.reportedTcb cache]
  unfold fetchedChain at hchain
  generalize fetchVcek libs.toKdsEnv product parsed.chipId
    parsed.reportedTcb cache = vcekResult at hchain ⊢
  obtain ⟨vcek | vcekDer, afterVcek⟩ := vcekResult
  · simp at hchain
  · simp only at hchain ⊢
    generalize fetchCaChain libs.toKdsEnv product afterVcek =
      caResult at hchain ⊢
    obtain ⟨ca | ⟨askDer, arkDer⟩, afterCa⟩ := caResult
    · simp at hchain
    · simp only [Except.ok.injEq] at hchain ⊢
      rw [← hchain]

/-! ## Reports rooted in AMD's key -/

/-- OpenSSL accepts a certificate under exactly the key that signed it. -/
def VerifiesSigner (libs : TeeLibs Cert Key) (signer : Cert → Key) : Prop :=
  ∀ cert key, libs.verifyCert cert key = .ok true ↔ signer cert = key

/-- The ARK certificate that the cache or the service supplies for the
product carries AMD's key. -/
def SuppliesAmdArk (libs : TeeLibs Cert Key) (amdArkKey : String → Key)
    (product : String) (cache : KdsCache) : Prop :=
  ∃ askDer arkDer ark,
    (fetchCaChain libs.toKdsEnv product cache).1 = .ok (askDer, arkDer) ∧
    libs.x509FromDer arkDer = .ok ark ∧
    libs.publicKey ark = .ok (amdArkKey product)

/-- The report was signed by a key whose certificates lead to AMD's ARK key
for the product. -/
structure RootedInAmd (libs : TeeLibs Cert Key) (signer : Cert → Key)
    (amdArkKey : String → Key) (product : String) (raw : Bytes)
    (chain : CertChain) (ask vcek : Cert) (vcekKey : Key) : Prop where
  ask_parsed : libs.x509FromDer chain.askDer = .ok ask
  vcek_parsed : libs.x509FromDer chain.vcekDer = .ok vcek
  vcek_key : libs.publicKey vcek = .ok vcekKey
  report_signed : ReportSignedBy libs raw vcekKey
  vcek_certified : libs.publicKey ask = .ok (signer vcek)
  ask_certified : signer ask = amdArkKey product

theorem ChainAccepted.rootedInAmd_iff
    {libs : TeeLibs Cert Key} {signer : Cert → Key}
    {amdArkKey : String → Key} {product : String} {raw : Bytes}
    {chain : CertChain} {ark ask vcek : Cert} {arkKey askKey vcekKey : Key}
    (haccepted : ChainAccepted libs chain ark ask vcek arkKey askKey)
    (hverify : VerifiesSigner libs signer)
    (hkey : libs.publicKey vcek = .ok vcekKey)
    (hsigned : ReportSignedBy libs raw vcekKey) :
    RootedInAmd libs signer amdArkKey product raw chain ask vcek vcekKey ↔
      libs.publicKey ark = .ok (amdArkKey product) := by
  have hask : signer ask = arkKey :=
    (hverify ask arkKey).mp haccepted.ask_signed
  have hvcek : signer vcek = askKey :=
    (hverify vcek askKey).mp haccepted.vcek_signed
  constructor
  · intro hrooted
    rw [haccepted.ark_key, ← hask, hrooted.ask_certified]
  · intro hamd
    rw [haccepted.ark_key] at hamd
    have harkKey : arkKey = amdArkKey product := by simpa using hamd
    exact {
      ask_parsed := haccepted.ask_parsed
      vcek_parsed := haccepted.vcek_parsed
      vcek_key := hkey
      report_signed := hsigned
      vcek_certified := by rw [hvcek]; exact haccepted.ask_key
      ask_certified := hask.trans harkKey }

/-- A verified report is rooted in AMD's key exactly when the supplied ARK
certificate is AMD's. -/
theorem root_of_trust_iff
    (libs : TeeLibs Cert Key) (signer : Cert → Key)
    (amdArkKey : String → Key) (report : AttestationReport)
    (product : String) (cache : KdsCache) (result : VerificationResult)
    (hverify : VerifiesSigner libs signer)
    (hok : (verifySevSnpReport libs report product cache).1 = .ok result) :
    result.valid = true ∧
      ((∃ parsed chain ask vcek vcekKey,
          parseSevSnpReport libs report.data = .ok parsed ∧
          fetchedChain libs product parsed cache = .ok chain ∧
          RootedInAmd libs signer amdArkKey product report.data chain ask
            vcek vcekKey) ↔
        SuppliesAmdArk libs amdArkKey product cache) := by
  obtain ⟨parsed, chain, hparsed, hfetched, hchain, hsignature, hvalid⟩ :=
    verifySevSnpReport_accepted hok
  obtain ⟨ark, ask, vcek, arkKey, askKey, haccepted⟩ :=
    verifyCertChain_accepted hchain
  obtain ⟨vcek', vcekKey, hvcek', hvcekKey, hsigned⟩ :=
    verifyReportSignature_accepted hsignature
  have hsame : vcek' = vcek := by
    rw [haccepted.vcek_parsed] at hvcek'
    simpa using hvcek'.symm
  subst hsame
  have hca := fetchedChain_ca hfetched
  have hrooted : RootedInAmd libs signer amdArkKey product _ _ _ _ _ ↔ _ :=
    haccepted.rootedInAmd_iff hverify hvcekKey hsigned
  refine ⟨hvalid, ?_, ?_⟩
  · rintro ⟨parsed', chain', ask', vcek', vcekKey', hparsed', hfetched',
      hrooted'⟩
    rw [hparsed] at hparsed'
    cases hparsed'
    rw [hfetched] at hfetched'
    cases hfetched'
    have hask' := hrooted'.ask_parsed
    rw [haccepted.ask_parsed] at hask'
    cases hask'
    have hvcek'' := hrooted'.vcek_parsed
    rw [haccepted.vcek_parsed] at hvcek''
    cases hvcek''
    have hvcekKey' := hrooted'.vcek_key
    rw [hvcekKey] at hvcekKey'
    cases hvcekKey'
    exact ⟨chain.askDer, chain.arkDer, ark, hca, haccepted.ark_parsed,
      hrooted.mp hrooted'⟩
  · rintro ⟨askDer, arkDer, ark', hca', hark', hamd⟩
    rw [hca] at hca'
    cases hca'
    rw [haccepted.ark_parsed] at hark'
    cases hark'
    exact ⟨parsed, chain, ask, vcek', vcekKey, hparsed, hfetched,
      hrooted.mpr hamd⟩

/-! ## A small certificate authority

Certificates are five bytes long in DER form and name their key and their
signer.  A signature of a report names the signing key and a checksum of the
signed bytes.
-/

structure SampleCert where
  root : Bool
  key : UInt8
  signer : UInt8
  deriving DecidableEq

def SampleCert.toDer (cert : SampleCert) : Bytes :=
  [48, 3, if cert.root then 1 else 0, cert.key, cert.signer]

def sampleFromDer : Bytes → Except String SampleCert
  | [48, 3, kind, key, signer] => .ok ⟨kind == 1, key, signer⟩
  | _ => .error "malformed certificate"

def sliceVector (raw : Bytes) (offset length : ℕ) :
    List.Vector UInt8 length :=
  List.Vector.ofFn fun index => raw.getD (offset + index) 0

def sampleSubject (cert : SampleCert) : NameField → String
  | .commonName => if cert.root then "ARK-Milan" else "SEV-Milan"
  | .organizationName => "Advanced Micro Devices"

def amdArk : SampleCert := ⟨true, 1, 1⟩

def amdAsk : SampleCert := ⟨false, 2, 1⟩

def amdVcek : SampleCert := ⟨false, 3, 2⟩

def sampleKds (url : String) : KdsResponse where
  status := 200
  body := .ok
    (if url = caChainUrl "Milan" then amdAsk.toDer ++ amdArk.toDer
    else amdVcek.toDer)

def sampleLibs : TeeLibs SampleCert UInt8 where
  get := fun url => .ok (sampleKds url)
  cacheWrite := fun _ => .written
  stackFromPem := fun _ => .error "no PEM block"
  toDer := fun cert => .ok cert.toDer
  sevFromBytes := fun raw => .ok {
    chipId := sliceVector raw 416 64
    reportedTcb := ⟨0, 0, 0, 0⟩
    vmpl := (raw.getD 48 0).toUInt32
    guestSvn := 0
    reportData := sliceVector raw 80 64
    measurement := sliceVector raw 144 48 }
  x509FromDer := sampleFromDer
  subjectEntries := fun cert field => [.ok (sampleSubject cert field)]
  subjectDer := fun cert => .ok [if cert.root then 1 else 0]
  issuerDer := fun _ => .ok [1]
  publicKey := fun cert => .ok cert.key
  verifyCert := fun cert key => .ok (cert.signer == key)
  sha384 := fun bytes => List.Vector.ofFn fun index =>
    if index = 0 then bytes.foldr (fun byte sum => byte + sum) 0 else 0
  ecdsaVerify := fun key r s digest =>
    .ok (r == [key] && s == [digest.head])

theorem sampleLibs_verifiesSigner :
    VerifiesSigner sampleLibs SampleCert.signer := by
  intro cert key
  simp [sampleLibs]

/-- A report whose signed bytes are all zero, signed by the given key. -/
def blankReport (key : UInt8) : AttestationReport where
  teeType := .sevSnp
  data := List.replicate 672 0 ++ key :: List.replicate 511 0
  reportData := List.Vector.replicate 64 0
  measurement := List.replicate 48 0

def blankParsed : SevReport where
  chipId := List.Vector.replicate 64 0
  reportedTcb := ⟨0, 0, 0, 0⟩
  vmpl := 0
  guestSvn := 0
  reportData := List.Vector.replicate 64 0
  measurement := List.Vector.replicate 48 0

theorem parseSevSnpReport_blankReport :
    parseSevSnpReport sampleLibs (blankReport 3).data = .ok blankParsed := by
  decide +kernel

/-- A cache filled with a chain of an attacker's own making. -/
def poisonedCache : KdsCache :=
  some (((AList.insert
    (vcekCachePath "Milan" (List.Vector.replicate 64 0) ⟨0, 0, 0, 0⟩)
      (SampleCert.toDer ⟨false, 103, 102⟩) ∅).insert
    (askCachePath "Milan") (SampleCert.toDer ⟨false, 102, 101⟩)).insert
    (arkCachePath "Milan") (SampleCert.toDer ⟨true, 101, 101⟩))

def sampleResult : VerificationResult where
  valid := true
  teeType := .sevSnp
  summary := "SEV-SNP report verified successfully (product: Milan)"
  measurement := List.replicate 48 0
  details := ⟨"Milan", 0, 0, true, ⟨0, 0, 0, 0⟩⟩

theorem verifySevSnpReport_blankReport :
    (verifySevSnpReport sampleLibs (blankReport 3) "Milan" none).1 =
      .ok sampleResult := by
  decide +kernel

theorem root_of_trust_amd_service :
    ∃ parsed chain ask vcek vcekKey,
      parseSevSnpReport sampleLibs (blankReport 3).data = .ok parsed ∧
      fetchedChain sampleLibs "Milan" parsed none = .ok chain ∧
      RootedInAmd sampleLibs SampleCert.signer (fun _ => 1) "Milan"
        (blankReport 3).data chain ask vcek vcekKey := by
  refine (root_of_trust_iff sampleLibs SampleCert.signer (fun _ => 1)
    (blankReport 3) "Milan" none sampleResult sampleLibs_verifiesSigner
    verifySevSnpReport_blankReport).2.mpr ?_
  exact ⟨amdAsk.toDer, amdArk.toDer, amdArk, by decide +kernel, rfl, rfl⟩

theorem root_of_trust_poisoned_cache :
    (verifySevSnpReport sampleLibs (blankReport 103) "Milan"
        poisonedCache).1 = .ok sampleResult ∧
      sampleResult.valid = true ∧
      ¬ ∃ parsed chain ask vcek vcekKey,
        parseSevSnpReport sampleLibs (blankReport 103).data = .ok parsed ∧
        fetchedChain sampleLibs "Milan" parsed poisonedCache = .ok chain ∧
        RootedInAmd sampleLibs SampleCert.signer (fun _ => 1) "Milan"
          (blankReport 103).data chain ask vcek vcekKey := by
  refine ⟨by decide +kernel, rfl, ?_⟩
  rintro ⟨parsed, chain, ask, vcek, vcekKey, _, hfetched, hrooted⟩
  have hca := fetchedChain_ca hfetched
  have hpoisoned : (fetchCaChain sampleLibs.toKdsEnv "Milan"
      poisonedCache).1 = .ok (SampleCert.toDer ⟨false, 102, 101⟩,
        SampleCert.toDer ⟨true, 101, 101⟩) := by
    decide +kernel
  rw [hpoisoned] at hca
  simp only [Except.ok.injEq, Prod.mk.injEq] at hca
  have hask := hrooted.ask_parsed
  rw [← hca.1] at hask
  have hforged : ask = ⟨false, 102, 101⟩ := by
    simpa [sampleLibs, sampleFromDer, SampleCert.toDer] using hask.symm
  have hcertified := hrooted.ask_certified
  rw [hforged] at hcertified
  exact absurd hcertified (by decide)

end AlephCvm.Tee
