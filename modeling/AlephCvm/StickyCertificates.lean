import AlephCvm.RootOfTrust
import AlephCvm.SplitText
import AlephCvm.StepRuns

/-!
# Bad answers of the key distribution service

The certificates of an answer are written to the cache before anything is
verified, and every later attempt reads the cache first.  As long as the
attempts have left nothing but genuine certificates and empty files, an
attempt works on the genuine ones whenever the service has them.
-/

namespace AlephCvm.Tee

open ResultContext StepRuns

variable {Cert Key : Type}

/-! ## One file for each certificate -/

theorem repr_toList_injective {number other : ℕ}
    (hsame : number.repr.toList = other.repr.toList) : number = other := by
  rw [Nat.toList_repr, Nat.toList_repr] at hsame
  rw [← Nat.ofDigitChars_ten_toDigits (n := number), hsame,
    Nat.ofDigitChars_ten_toDigits]

/-- The last number of a name is what follows its last underscore. -/
theorem append_underscore_inj
    {front back : List Char} {number other : ℕ}
    (hsame : front ++ "_".toList ++ number.repr.toList =
      back ++ "_".toList ++ other.repr.toList) :
    front = back ∧ number = other := by
  have hnumber : '_' ∉ number.repr.toList := by
    simp
  have hother : '_' ∉ other.repr.toList := by
    simp
  have hparts := (SplitText.append_separator_inj hnumber hother).mp
    (by simpa using hsame)
  exact ⟨hparts.1, repr_toList_injective hparts.2⟩

theorem vcekCachePath_injective
    {product other : String} {chipId otherChip : ReportData}
    {tcb otherTcb : TcbParams}
    (hsame : vcekCachePath product chipId tcb =
      vcekCachePath other otherChip otherTcb) :
    product = other ∧ chipId = otherChip ∧ tcb = otherTcb := by
  have hlist := congrArg String.toList hsame
  simp only [vcekCachePath, toString, String.toList_append,
    ← List.append_assoc] at hlist
  obtain ⟨hucode, h4⟩ := append_underscore_inj
    (List.append_cancel_right hlist)
  obtain ⟨hsnp, h3⟩ := append_underscore_inj hucode
  obtain ⟨htee, h2⟩ := append_underscore_inj hsnp
  obtain ⟨hbl, h1⟩ := append_underscore_inj htee
  have hchip := List.append_inj' hbl (by
    rw [length_hexEncode, length_hexEncode, List.Vector.toList_length,
      List.Vector.toList_length])
  have hproduct := List.append_cancel_right hchip.1
  refine ⟨String.toList_inj.mp hproduct, ?_, ?_⟩
  · apply List.Vector.toList_injective
    exact hexEncode_injective (String.toList_inj.mp hchip.2)
  · cases tcb
    cases otherTcb
    simp only [UInt8.toNat_inj] at h1 h2 h3 h4
    rw [h1, h2, h3, h4]

theorem isDigit_of_append_repr
    {front back : List Char} {number : ℕ} {last : Char}
    (hsame : front ++ number.repr.toList = back ++ [last]) :
    last.isDigit = true := by
  have hends := congrArg List.getLast? hsame
  rw [List.getLast?_append, Nat.toList_repr] at hends
  have hdigit : last ∈ Nat.toDigits 10 number := by
    apply List.mem_of_getLast?
    cases hlast : (Nat.toDigits 10 number).getLast? with
    | none => simp at hlast
    | some digit => simpa [hlast] using hends
  exact Nat.isDigit_of_mem_toDigits (by omega) (by omega) hdigit

/-- The name of a VCEK file ends in a number, the names of the other two in
a letter. -/
theorem vcekCachePath_ne
    {product other : String} {chipId : ReportData} {tcb : TcbParams}
    {path : String}
    (hpath : path = askCachePath other ∨ path = arkCachePath other) :
    vcekCachePath product chipId tcb ≠ path := by
  intro hsame
  have hlist := congrArg String.toList hsame
  have hname : path.toList = other.toList ++ "/as".toList ++ ['k'] ++
        ".der".toList ∨
      path.toList = other.toList ++ "/ar".toList ++ ['k'] ++
        ".der".toList := by
    rcases hpath with hpath | hpath
    · left
      simp [hpath, askCachePath, toString]
    · right
      simp [hpath, arkCachePath, toString]
  simp only [vcekCachePath, toString, String.toList_append,
    ← List.append_assoc] at hlist
  have hk : Char.isDigit 'k' = true := by
    rcases hname with hname | hname <;> rw [hname] at hlist
    · exact isDigit_of_append_repr (List.append_cancel_right hlist)
    · exact isDigit_of_append_repr (List.append_cancel_right hlist)
  revert hk
  decide

theorem askCachePath_injective {product other : String}
    (hsame : askCachePath product = askCachePath other) :
    product = other := by
  have hlist := congrArg String.toList hsame
  simp only [askCachePath, toString, String.toList_append] at hlist
  exact String.toList_inj.mp (List.append_cancel_right hlist)

theorem arkCachePath_injective {product other : String}
    (hsame : arkCachePath product = arkCachePath other) :
    product = other := by
  have hlist := congrArg String.toList hsame
  simp only [arkCachePath, toString, String.toList_append] at hlist
  exact String.toList_inj.mp (List.append_cancel_right hlist)

theorem askCachePath_ne_arkCachePath (product other : String) :
    askCachePath product ≠ arkCachePath other := by
  intro hsame
  have hlist := congrArg String.toList hsame
  simp only [askCachePath, arkCachePath, toString, String.toList_append]
    at hlist
  have hends := List.append_inj_right' hlist (by simp)
  simp at hends

/-! ## Attempts -/

/-- One verification with the answers that the service has for it, and how
far its writes of the cache get. -/
structure Attempt where
  report : AttestationReport
  product : String
  get : String → Except String KdsResponse
  cacheWrite : String → CacheWrite

variable (libs : TeeLibs Cert Key)

def Attempt.over (attempt : Attempt) : TeeLibs Cert Key :=
  { libs with
    get := attempt.get
    cacheWrite := attempt.cacheWrite }

def Attempt.env (attempt : Attempt) : KdsEnv Cert :=
  (attempt.over libs).toKdsEnv

/-- The cache that an attempt leaves behind. -/
def verifyStep (cache : KdsCache) (attempt : Attempt) : KdsCache :=
  (verifySevSnpReport (attempt.over libs) attempt.report attempt.product
    cache).2

/-- The certificates that AMD has issued, in DER form. -/
structure GenuineCerts where
  vcek : String → ReportData → TcbParams → Bytes
  ask : String → Bytes
  ark : String → Bytes

def GenuineCerts.chain (genuine : GenuineCerts) (product : String)
    (parsed : SevReport) : CertChain where
  vcekDer := genuine.vcek product parsed.chipId parsed.reportedTcb
  askDer := genuine.ask product
  arkDer := genuine.ark product

/-- These bytes are the certificate that belongs into the file. -/
inductive GenuineCerts.Fits (genuine : GenuineCerts) :
    String → Bytes → Prop where
  | vcek (product : String) (chipId : ReportData) (tcb : TcbParams) :
      genuine.Fits (vcekCachePath product chipId tcb)
        (genuine.vcek product chipId tcb)
  | ask (product : String) :
      genuine.Fits (askCachePath product) (genuine.ask product)
  | ark (product : String) :
      genuine.Fits (arkCachePath product) (genuine.ark product)

/-- What the service has for the report, after its chain has been split. -/
structure Attempt.ServesGenuine (genuine : GenuineCerts)
    (attempt : Attempt) (parsed : SevReport) : Prop where
  vcek : kdsFetch (attempt.env libs) "VCEK"
      (vcekUrl attempt.product parsed.chipId parsed.reportedTcb) =
    .ok (genuine.vcek attempt.product parsed.chipId parsed.reportedTcb)
  caChain : (kdsFetch (attempt.env libs) "CA chain"
      (caChainUrl attempt.product) >>= parseCaChain (attempt.env libs)) =
    .ok (genuine.ask attempt.product, genuine.ark attempt.product)

/-- If the service has the genuine certificates, the attempt fetches these
and goes on with them. -/
def Attempt.ChecksGenuine (genuine : GenuineCerts) (cache : KdsCache)
    (attempt : Attempt) : Prop :=
  ∀ parsed,
    parseSevSnpReport (attempt.over libs) attempt.report.data = .ok parsed →
    attempt.ServesGenuine libs genuine parsed →
      fetchedChain (attempt.over libs) attempt.product parsed cache =
          .ok (genuine.chain attempt.product parsed) ∧
        (verifySevSnpReport (attempt.over libs) attempt.report
            attempt.product cache).1 =
          checkFetchedChain (attempt.over libs) attempt.product
            attempt.report.data parsed
            (genuine.chain attempt.product parsed)

/-- The report can be read and there is a VCEK for it. -/
def Attempt.ReachesCaChain (cache : KdsCache) (attempt : Attempt) : Prop :=
  ∃ parsed vcekDer,
    parseSevSnpReport (attempt.over libs) attempt.report.data = .ok parsed ∧
      (fetchVcek (attempt.env libs) attempt.product parsed.chipId
        parsed.reportedTcb cache).1 = .ok vcekDer

/-- What the attempt takes from the service because the cache does not have
it, as far as the file has it afterwards. -/
inductive Attempt.Stores (cache : KdsCache) (attempt : Attempt) :
    String → Bytes → Prop where
  | vcek {parsed : SevReport} {data content : Bytes}
      (hparse : parseSevSnpReport (attempt.over libs) attempt.report.data =
        .ok parsed)
      (hmissing : readCached cache (vcekCachePath attempt.product
        parsed.chipId parsed.reportedTcb) = none)
      (hanswer : kdsFetch (attempt.env libs) "VCEK"
        (vcekUrl attempt.product parsed.chipId parsed.reportedTcb) =
          .ok data)
      (hwrite : (attempt.cacheWrite (vcekCachePath attempt.product
        parsed.chipId parsed.reportedTcb)).content data = some content) :
      attempt.Stores cache (vcekCachePath attempt.product parsed.chipId
        parsed.reportedTcb) content
  | ask {askDer arkDer content : Bytes}
      (hreached : attempt.ReachesCaChain libs cache)
      (hmissing : readCachedCaChain cache attempt.product = none)
      (hanswer : (kdsFetch (attempt.env libs) "CA chain"
        (caChainUrl attempt.product) >>= parseCaChain (attempt.env libs)) =
          .ok (askDer, arkDer))
      (hwrite : (attempt.cacheWrite (askCachePath attempt.product)).content
        askDer = some content) :
      attempt.Stores cache (askCachePath attempt.product) content
  | ark {askDer arkDer content : Bytes}
      (hreached : attempt.ReachesCaChain libs cache)
      (hmissing : readCachedCaChain cache attempt.product = none)
      (hanswer : (kdsFetch (attempt.env libs) "CA chain"
        (caChainUrl attempt.product) >>= parseCaChain (attempt.env libs)) =
          .ok (askDer, arkDer))
      (hwrite : (attempt.cacheWrite (arkCachePath attempt.product)).content
        arkDer = some content) :
      attempt.Stores cache (arkCachePath attempt.product) content

/-- An empty file counts as none, so an empty body does no harm and neither
does a write that breaks off at once. -/
def Attempt.StoresGenuine (genuine : GenuineCerts) (cache : KdsCache)
    (attempt : Attempt) : Prop :=
  ∀ path data, attempt.Stores libs cache path data →
    data = [] ∨ genuine.Fits path data

/-- Every certificate that the cache has is the one that belongs there. -/
structure GenuineCerts.FillCache (genuine : GenuineCerts)
    (cache : KdsCache) : Prop where
  vcek : ∀ product chipId tcb data,
    readCached cache (vcekCachePath product chipId tcb) = some data →
      data = genuine.vcek product chipId tcb
  ask : ∀ product data,
    readCached cache (askCachePath product) = some data →
      data = genuine.ask product
  ark : ∀ product data,
    readCached cache (arkCachePath product) = some data →
      data = genuine.ark product

theorem ne_nil_of_readCached {cache : KdsCache} {path : String}
    {data : Bytes} (hread : readCached cache path = some data) :
    data ≠ [] := by
  intro hempty
  subst hempty
  unfold readCached at hread
  split at hread
  · cases hread
  · split at hread
    · cases hread
    · split_ifs at hread with hnonempty
      simp_all

theorem readCached_writeCache
    {env : KdsEnv Cert} {cache : KdsCache} {written path : String}
    {data found : Bytes}
    (hread : readCached (writeCache env cache written data) path =
      some found) :
    readCached cache path = some found ∨
      (written = path ∧
        (env.cacheWrite written).content data = some found) := by
  by_cases hpath : written = path
  · subst hpath
    cases cache with
    | none => simp [writeCache, readCached] at hread
    | some files =>
        cases hcontent : (env.cacheWrite written).content data with
        | some content =>
            right
            simp only [writeCache, hcontent, readCached,
              AList.lookup_insert] at hread
            split_ifs at hread
            exact ⟨rfl, hread⟩
        | none =>
            left
            simpa [writeCache, hcontent] using hread
  · left
    rwa [readCached_writeCache_of_ne env cache data hpath] at hread

/-! ## What an attempt leaves in the cache -/

theorem readCached_fetchVcek
    {env : KdsEnv Cert} {product : String} {chipId : ReportData}
    {tcb : TcbParams} {cache : KdsCache} {path : String} {found : Bytes}
    (hread : readCached (fetchVcek env product chipId tcb cache).2 path =
      some found) :
    readCached cache path = some found ∨
      (vcekCachePath product chipId tcb = path ∧
        readCached cache (vcekCachePath product chipId tcb) = none ∧
        ∃ data,
          kdsFetch env "VCEK" (vcekUrl product chipId tcb) = .ok data ∧
          (env.cacheWrite (vcekCachePath product chipId tcb)).content data =
            some found) := by
  unfold fetchVcek at hread
  cases hmissing : readCached cache (vcekCachePath product chipId tcb) with
  | some data =>
      left
      simpa [hmissing] using hread
  | none =>
      cases hanswer : kdsFetch env "VCEK" (vcekUrl product chipId tcb) with
      | error message =>
          left
          simpa [hmissing, hanswer] using hread
      | ok data =>
          simp only [hmissing, hanswer] at hread
          rcases readCached_writeCache hread with hold | ⟨hpath, hwrite⟩
          · exact .inl hold
          · exact .inr ⟨hpath, rfl, data, rfl, hwrite⟩

theorem readCached_fetchCaChain
    {env : KdsEnv Cert} {product : String} {cache : KdsCache}
    {path : String} {found : Bytes}
    (hread : readCached (fetchCaChain env product cache).2 path =
      some found) :
    readCached cache path = some found ∨
      ∃ askDer arkDer, readCachedCaChain cache product = none ∧
        (kdsFetch env "CA chain" (caChainUrl product) >>=
          parseCaChain env) = .ok (askDer, arkDer) ∧
        ((askCachePath product = path ∧
            (env.cacheWrite (askCachePath product)).content askDer =
              some found) ∨
          (arkCachePath product = path ∧
            (env.cacheWrite (arkCachePath product)).content arkDer =
              some found)) := by
  unfold fetchCaChain at hread
  cases hmissing : readCachedCaChain cache product with
  | some pair =>
      left
      simpa [hmissing] using hread
  | none =>
      cases hanswer : kdsFetch env "CA chain" (caChainUrl product) >>=
          parseCaChain env with
      | error message =>
          left
          simpa [hmissing, hanswer] using hread
      | ok pair =>
          simp only [hmissing, hanswer] at hread
          rcases readCached_writeCache hread with hbefore | hark
          · rcases readCached_writeCache hbefore with hold | hask
            · exact .inl hold
            · exact .inr ⟨pair.1, pair.2, rfl, rfl, .inl hask⟩
          · exact .inr ⟨pair.1, pair.2, rfl, rfl, .inr hark⟩

/-- The cache after an attempt, by how far it got. -/
theorem verifyStep_cases (cache : KdsCache) (attempt : Attempt) :
    verifyStep libs cache attempt = cache ∨
      ∃ parsed,
        parseSevSnpReport (attempt.over libs) attempt.report.data =
          .ok parsed ∧
        let fetched := fetchVcek (attempt.env libs) attempt.product
          parsed.chipId parsed.reportedTcb cache
        verifyStep libs cache attempt = fetched.2 ∨
          ∃ vcekDer, fetched.1 = .ok vcekDer ∧
            verifyStep libs cache attempt =
              (fetchCaChain (attempt.env libs) attempt.product
                fetched.2).2 := by
  unfold verifyStep verifySevSnpReport
  cases hparse : parseSevSnpReport (attempt.over libs)
      attempt.report.data with
  | error message => simp [context]
  | ok parsed =>
      right
      refine ⟨parsed, rfl, ?_⟩
      simp only [context, Attempt.env]
      generalize fetchVcek (attempt.over libs).toKdsEnv attempt.product
        parsed.chipId parsed.reportedTcb cache = fetched
      obtain ⟨message | vcekDer, afterVcek⟩ := fetched
      · simp
      · right
        refine ⟨vcekDer, rfl, ?_⟩
        simp only
        generalize fetchCaChain (attempt.over libs).toKdsEnv
          attempt.product afterVcek = ca
        obtain ⟨message | ⟨askDer, arkDer⟩, afterCa⟩ := ca <;> rfl

/-- A certificate in the cache after an attempt was there before, or the
attempt has stored it. -/
theorem readCached_verifyStep
    {cache : KdsCache} {attempt : Attempt} {path : String} {found : Bytes}
    (hread : readCached (verifyStep libs cache attempt) path =
      some found) :
    readCached cache path = some found ∨
      attempt.Stores libs cache path found := by
  rcases verifyStep_cases libs cache attempt with
    hsame | ⟨parsed, hparse, hvcek | ⟨vcekDer, hfetched, hca⟩⟩
  · left
    rwa [hsame] at hread
  · rw [hvcek] at hread
    rcases readCached_fetchVcek hread with
      hold | ⟨hpath, hmissing, data, hanswer, hwrite⟩
    · exact .inl hold
    · subst hpath
      exact .inr (.vcek hparse hmissing hanswer hwrite)
  · rw [hca] at hread
    have hreached : attempt.ReachesCaChain libs cache :=
      ⟨parsed, vcekDer, hparse, hfetched⟩
    rcases readCached_fetchCaChain hread with
      hbefore | ⟨askDer, arkDer, hmissing, hanswer, hwritten⟩
    · rcases readCached_fetchVcek hbefore with
        hold | ⟨hpath, hmissing, data, hanswer, hwrite⟩
      · exact .inl hold
      · subst hpath
        exact .inr (.vcek hparse hmissing hanswer hwrite)
    · rw [readCachedCaChain_fetchVcek] at hmissing
      rcases hwritten with ⟨hpath, hwrite⟩ | ⟨hpath, hwrite⟩
      · subst hpath
        exact .inr (.ask hreached hmissing hanswer hwrite)
      · subst hpath
        exact .inr (.ark hreached hmissing hanswer hwrite)

/-! ## Genuine certificates only -/

theorem GenuineCerts.Fits.vcek_eq
    {genuine : GenuineCerts} {path : String} {data : Bytes}
    (hfits : genuine.Fits path data) {product : String}
    {chipId : ReportData} {tcb : TcbParams}
    (hpath : path = vcekCachePath product chipId tcb) :
    data = genuine.vcek product chipId tcb := by
  cases hfits with
  | vcek =>
      obtain ⟨hproduct, hchip, htcb⟩ := vcekCachePath_injective hpath
      rw [hproduct, hchip, htcb]
  | ask => exact absurd hpath.symm (vcekCachePath_ne (.inl rfl))
  | ark => exact absurd hpath.symm (vcekCachePath_ne (.inr rfl))

theorem GenuineCerts.Fits.ask_eq
    {genuine : GenuineCerts} {path : String} {data : Bytes}
    (hfits : genuine.Fits path data) {product : String}
    (hpath : path = askCachePath product) :
    data = genuine.ask product := by
  cases hfits with
  | vcek => exact absurd hpath (vcekCachePath_ne (.inl rfl))
  | ask => rw [askCachePath_injective hpath]
  | ark => exact absurd hpath.symm (askCachePath_ne_arkCachePath _ _)

theorem GenuineCerts.Fits.ark_eq
    {genuine : GenuineCerts} {path : String} {data : Bytes}
    (hfits : genuine.Fits path data) {product : String}
    (hpath : path = arkCachePath product) :
    data = genuine.ark product := by
  cases hfits with
  | vcek => exact absurd hpath (vcekCachePath_ne (.inr rfl))
  | ask => exact absurd hpath (askCachePath_ne_arkCachePath _ _)
  | ark => rw [arkCachePath_injective hpath]

theorem GenuineCerts.FillCache.step
    {genuine : GenuineCerts} {cache : KdsCache} {attempt : Attempt}
    (hfill : genuine.FillCache cache)
    (hstores : attempt.StoresGenuine libs genuine cache) :
    genuine.FillCache (verifyStep libs cache attempt) := by
  have hstored : ∀ path found,
      readCached (verifyStep libs cache attempt) path = some found →
        readCached cache path = some found ∨ genuine.Fits path found := by
    intro path found hread
    rcases readCached_verifyStep libs hread with hold | hnew
    · exact .inl hold
    · rcases hstores path found hnew with hempty | hfits
      · exact absurd hempty (ne_nil_of_readCached hread)
      · exact .inr hfits
  constructor
  · intro product chipId tcb data hread
    rcases hstored _ data hread with hold | hfits
    · exact hfill.vcek product chipId tcb data hold
    · exact hfits.vcek_eq rfl
  · intro product data hread
    rcases hstored _ data hread with hold | hfits
    · exact hfill.ask product data hold
    · exact hfits.ask_eq rfl
  · intro product data hread
    rcases hstored _ data hread with hold | hfits
    · exact hfill.ark product data hold
    · exact hfits.ark_eq rfl

theorem GenuineCerts.FillCache.fetchVcek
    {genuine : GenuineCerts} {cache : KdsCache}
    (hfill : genuine.FillCache cache) {env : KdsEnv Cert}
    {product : String} {chipId : ReportData} {tcb : TcbParams}
    (hanswer : kdsFetch env "VCEK" (vcekUrl product chipId tcb) =
      .ok (genuine.vcek product chipId tcb)) :
    (Tee.fetchVcek env product chipId tcb cache).1 =
      .ok (genuine.vcek product chipId tcb) := by
  unfold Tee.fetchVcek
  cases hcached : readCached cache (vcekCachePath product chipId tcb) with
  | none => simp [hcached, hanswer]
  | some data => simp [hcached, hfill.vcek product chipId tcb data hcached]

theorem GenuineCerts.FillCache.fetchCaChain
    {genuine : GenuineCerts} {cache : KdsCache}
    (hfill : genuine.FillCache cache) {env : KdsEnv Cert}
    {product : String}
    (hanswer : (kdsFetch env "CA chain" (caChainUrl product) >>=
      parseCaChain env) = .ok (genuine.ask product, genuine.ark product)) :
    (Tee.fetchCaChain env product cache).1 =
      .ok (genuine.ask product, genuine.ark product) := by
  unfold Tee.fetchCaChain readCachedCaChain
  cases hask : readCached cache (askCachePath product) with
  | none => simp [hanswer]
  | some askDer =>
      cases hark : readCached cache (arkCachePath product) with
      | none => simp [hanswer]
      | some arkDer =>
          simp [hfill.ask product askDer hask,
            hfill.ark product arkDer hark]

theorem GenuineCerts.FillCache.checksGenuine
    {genuine : GenuineCerts} {cache : KdsCache}
    (hfill : genuine.FillCache cache) (attempt : Attempt) :
    attempt.ChecksGenuine libs genuine cache := by
  intro parsed hparse hserves
  have hvcek := hfill.fetchVcek hserves.vcek
  have hca := hfill.fetchCaChain hserves.caChain
  rw [← fetchCaChain_after_fetchVcek (attempt.env libs) attempt.product
    parsed.chipId parsed.reportedTcb cache] at hca
  unfold fetchedChain verifySevSnpReport
  simp only [Attempt.env] at hvcek hca
  simp only [hparse, context]
  revert hvcek hca
  generalize Tee.fetchVcek (attempt.over libs).toKdsEnv attempt.product
    parsed.chipId parsed.reportedTcb cache = fetched
  obtain ⟨fetchedVcek, afterVcek⟩ := fetched
  intro hvcek hca
  simp only at hvcek hca
  subst hvcek
  simp only
  revert hca
  generalize Tee.fetchCaChain (attempt.over libs).toKdsEnv attempt.product
    afterVcek = ca
  obtain ⟨fetchedCa, afterCa⟩ := ca
  intro hca
  simp only at hca
  subst hca
  exact ⟨rfl, rfl⟩

/-- Along every sequence of attempts that leave nothing but genuine
certificates and empty files, an attempt that the service has the genuine
ones for works on these. -/
theorem bad_answers_not_sticky
    (genuine : GenuineCerts) (cache : KdsCache) (attempts : List Attempt)
    (hinit : genuine.FillCache cache)
    (hstores : Along (verifyStep libs)
      (fun cache attempt => attempt.StoresGenuine libs genuine cache)
      cache attempts) :
    Along (verifyStep libs)
      (fun cache attempt => attempt.ChecksGenuine libs genuine cache)
      cache attempts := by
  apply along_of_invariant _ hinit hstores
  intro cache attempt hfill hgenuine
  exact ⟨hfill.step libs hgenuine, hfill.checksGenuine libs attempt⟩

/-- Genuine answers are stored whole, or not at all. -/
theorem Attempt.ServesGenuine.storesGenuine
    {genuine : GenuineCerts} {attempt : Attempt}
    (hserves : ∀ parsed,
      parseSevSnpReport (attempt.over libs) attempt.report.data =
        .ok parsed → attempt.ServesGenuine libs genuine parsed)
    (hwhole : ∀ path data content,
      (attempt.cacheWrite path).content data = some content →
        content = [] ∨ content = data)
    (cache : KdsCache) : attempt.StoresGenuine libs genuine cache := by
  intro path content hstored
  cases hstored with
  | vcek hparse hmissing hanswer hwrite =>
      refine (hwhole _ _ _ hwrite).imp_right ?_
      rintro rfl
      rw [(hserves _ hparse).vcek] at hanswer
      cases hanswer
      exact .vcek _ _ _
  | ask hreached hmissing hanswer hwrite =>
      refine (hwhole _ _ _ hwrite).imp_right ?_
      rintro rfl
      obtain ⟨parsed, vcekDer, hparse, -⟩ := hreached
      rw [(hserves parsed hparse).caChain] at hanswer
      cases hanswer
      exact .ask _
  | ark hreached hmissing hanswer hwrite =>
      refine (hwhole _ _ _ hwrite).imp_right ?_
      rintro rfl
      obtain ⟨parsed, vcekDer, hparse, -⟩ := hreached
      rw [(hserves parsed hparse).caChain] at hanswer
      cases hanswer
      exact .ark _

/-- The certificates of the small authority, for one chip. -/
def sampleGenuine : GenuineCerts where
  vcek := fun _ _ _ => amdVcek.toDer
  ask := fun _ => amdAsk.toDer
  ark := fun _ => amdArk.toDer

def honestAttempt : Attempt where
  report := blankReport 3
  product := "Milan"
  get := fun url => .ok (sampleKds url)
  cacheWrite := fun _ => .written

/-- The disk is full when the certificate of the root is written. -/
def fullDiskAttempt : Attempt :=
  { honestAttempt with
    cacheWrite := fun path =>
      if path = arkCachePath "Milan" then .truncated 0 else .written }

theorem bad_answers_not_sticky_honest :
    Along (verifyStep sampleLibs)
      (fun cache attempt =>
        attempt.ChecksGenuine sampleLibs sampleGenuine cache)
      (some ∅) [fullDiskAttempt, honestAttempt] := by
  have hparsed : ∀ parsed,
      parseSevSnpReport (honestAttempt.over sampleLibs)
        honestAttempt.report.data = .ok parsed → parsed = blankParsed := by
    intro parsed hparse
    exact Except.ok.inj (hparse.symm.trans parseSevSnpReport_blankReport)
  have hfull : ∀ cache,
      fullDiskAttempt.StoresGenuine sampleLibs sampleGenuine cache := by
    apply Attempt.ServesGenuine.storesGenuine
    · intro parsed hparse
      obtain rfl := hparsed parsed hparse
      exact ⟨by decide +kernel, by decide +kernel⟩
    · intro path data content hwrite
      simp only [fullDiskAttempt] at hwrite
      split_ifs at hwrite <;> simp_all [CacheWrite.content]
  have hhonest : ∀ cache,
      honestAttempt.StoresGenuine sampleLibs sampleGenuine cache := by
    apply Attempt.ServesGenuine.storesGenuine
    · intro parsed hparse
      obtain rfl := hparsed parsed hparse
      exact ⟨by decide +kernel, by decide +kernel⟩
    · intro path data content hwrite
      simp_all [honestAttempt, CacheWrite.content]
  apply bad_answers_not_sticky
  · constructor <;> simp [readCached]
  · exact ⟨hfull _, hhonest _, trivial⟩

/-- The service answers one request with a page that is no certificate. -/
def pageAttempt : Attempt :=
  { honestAttempt with
    get := fun url => .ok
      (if url = caChainUrl "Milan" then sampleKds url
      else ⟨200, .ok "<html>".toUTF8.toList⟩) }

/-- The page fails the verification, stays in the cache and fails the next
verification, for which the service has the genuine certificates. -/
theorem page_is_sticky :
    honestAttempt.ServesGenuine sampleLibs sampleGenuine blankParsed ∧
      (verifySevSnpReport (honestAttempt.over sampleLibs)
          honestAttempt.report "Milan"
          (verifyStep sampleLibs (some ∅) pageAttempt)).1 =
        .error "certificate chain verification failed" ∧
      ¬ Along (verifyStep sampleLibs)
        (fun cache attempt =>
          attempt.ChecksGenuine sampleLibs sampleGenuine cache)
        (some ∅) [pageAttempt, honestAttempt] := by
  have hserves : honestAttempt.ServesGenuine sampleLibs sampleGenuine
      blankParsed :=
    ⟨by decide +kernel, by decide +kernel⟩
  refine ⟨hserves, by decide +kernel, ?_⟩
  intro halong
  have hchain := (halong.2.1 blankParsed parseSevSnpReport_blankReport
    hserves).1
  have hpage : fetchedChain (honestAttempt.over sampleLibs) "Milan"
      blankParsed (verifyStep sampleLibs (some ∅) pageAttempt) ≠
        .ok (sampleGenuine.chain "Milan" blankParsed) := by
    decide +kernel
  exact hpage hchain

end AlephCvm.Tee
