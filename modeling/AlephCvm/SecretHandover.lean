import AlephCvm.AttestedIdentity
import AlephCvm.SecretInjection
import AlephCvm.TableFolds

/-!
# Handing secrets over to an agent

The two ends of an injection together: the map that `inject_secret` of the
client sends as JSON, what `actix-web` extracts from the body, the handler of
the agent, and the answer as the client reads it.  Other requests may have
reached the agent before and may reach it afterwards.  The results say when
the client reports success, and that the secrets of a reported injection are
then in place for good.
-/

namespace AlephCvm.Secrets

open ResultContext JsonRecords TableFolds
open AlephCvm.Tee hiding HttpResponse Exchange

variable {Cert Key KeyPair : Type}

/-! ## The request body -/

/-- The map as the client writes it; the order is that of its hash map. -/
def secretsJson (order : IterationOrder) (secrets : SecretsMap) : Json :=
  .object ((order.arrange secrets.entries).map
    fun entry => (entry.1, .string entry.2))

/-- All entries of the object go into the map, and each has to be a text. -/
def InjectSecretRequest.deserialize : Json → Option InjectSecretRequest
  | .object fields => do
      let secrets ← fields.mapM fun field => do
        let text ← readString field.2
        return (field.1, text)
      return ⟨secretsMap secrets⟩
  | _ => none

theorem mapM_readString (entries : List (Σ _ : String, String)) :
    (entries.map fun entry => (entry.1, Json.string entry.2)).mapM
        (fun field : String × Json => do
          let text ← readString field.2
          return (field.1, text)) =
      some (entries.map fun entry => (entry.1, entry.2)) := by
  induction entries with
  | nil => rfl
  | cons entry rest ih =>
      simp only [List.map_cons, List.mapM_cons, ih]
      rfl

theorem secretsMap_eq (secrets : List (String × String)) :
    secretsMap secrets = insertAll Prod.fst Prod.snd secrets ∅ := rfl

theorem nodup_arranged_keys (order : IterationOrder)
    (secrets : SecretsMap) :
    ((order.arrange secrets.entries).map Sigma.fst).Nodup := by
  have hperm := (order.perm secrets.entries).map Sigma.fst
  exact hperm.nodup_iff.mpr secrets.nodupKeys

/-- The map that the agent gets, in the order of the client's one. -/
def received (order : IterationOrder) (secrets : SecretsMap) :
    InjectSecretRequest :=
  ⟨secretsMap ((order.arrange secrets.entries).map
    fun entry => (entry.1, entry.2))⟩

theorem deserialize_secretsJson
    (order : IterationOrder) (secrets : SecretsMap) :
    InjectSecretRequest.deserialize (secretsJson order secrets) =
      some (received order secrets) := by
  simp only [secretsJson, InjectSecretRequest.deserialize, mapM_readString]
  rfl

/-- It has the same entries. -/
theorem lookup_received
    (order : IterationOrder) (secrets : SecretsMap) (key : String) :
    (received order secrets).secrets.lookup key = secrets.lookup key := by
  have hnodup : (((order.arrange secrets.entries).map
      fun entry => (entry.1, entry.2)).map Prod.fst).Nodup := by
    rw [List.map_map]
    exact nodup_arranged_keys order secrets
  apply Option.ext
  intro value
  rw [received, secretsMap_eq,
    lookup_insertAll_empty_iff (consistent_of_nodup hnodup),
    ← Option.mem_def, AList.mem_lookup_iff]
  simp only [List.mem_map, IterationOrder.mem_arrange]
  constructor
  · rintro ⟨_, ⟨entry, hentry, rfl⟩, rfl, rfl⟩
    exact hentry
  · intro hentry
    exact ⟨_, ⟨_, hentry, rfl⟩, rfl, rfl⟩

theorem keys_received (order : IterationOrder) (secrets : SecretsMap) :
    (received order secrets).secrets.keys.Perm secrets.keys := by
  apply (List.perm_ext_iff_of_nodup (AList.keys_nodup _)
    (AList.keys_nodup _)).mpr
  intro key
  rw [AList.mem_keys.symm, AList.mem_keys.symm,
    ← AList.lookup_isSome, ← AList.lookup_isSome, lookup_received]

theorem within_secretsJson (order : IterationOrder)
    (secrets : SecretsMap) :
    (secretsJson order secrets).Within maxLevels := by
  apply Json.Within.object
  intro field hfield
  obtain ⟨entry, -, rfl⟩ := List.mem_map.mp hfield
  exact .string entry.2

/-! ## The answer -/

def injectedFormat : RecordFormat (List String) where
  serialize := fun injected =>
    .object [("injected", writeList .string injected)]
  deserialize := fun json => do
    let fields ← source 1 json
    fields.required "injected" 0 (readList readString)
  within := by
    intro injected
    apply Json.Within.object
    intro field hfield
    rw [List.mem_singleton.mp hfield]
    have hnames : ∀ name ∈ injected, (Json.string name).Within 125 :=
      fun name _ => .string name
    exact Json.within_writeList hnames
  deserialize_serialize := by
    intro injected
    have hread : readList readString (writeList Json.string injected) =
        some injected :=
      readList_writeList_iff.mpr fun name _ => rfl
    simp [source, Source.required, Source.field, valuesOf, hread]

/-- The answer of the handler as the HTTP server writes it. -/
def HttpResponse.toHttp : HttpResponse → Tee.HttpResponse
  | .ok injected => ⟨200, .ok (injectedFormat.toText .compact injected)⟩
  | .badRequest error => ⟨400, .ok (writeJson .compact (errorJson error))⟩
  | .conflict error => ⟨409, .ok (writeJson .compact (errorJson error))⟩
  | .internalServerError error =>
      ⟨500, .ok (writeJson .compact (errorJson error))⟩

/-- The extractor of JSON bodies: its limit, and its answers to a body that
is too large and to one that cannot be read. -/
structure JsonExtractor where
  limit : ℕ
  tooLarge : String
  malformed : String

/-- What the file system does during one request, and the order in which the
map is traversed. -/
structure PostCalls where
  order : IterationOrder
  dirCreated : Bool
  outcome : String → WriteOutcome

def PostCalls.arrival (calls : PostCalls) (body : InjectSecretRequest) :
    Arrival :=
  ⟨body, calls.order, calls.dirCreated, calls.outcome⟩

theorem keys_arrival_received (order : IterationOrder) (calls : PostCalls)
    (secrets : SecretsMap) :
    ((calls.arrival (received order secrets)).secrets.map Prod.fst).Perm
      secrets.keys := by
  have hkeys : (calls.arrival (received order secrets)).secrets.map
      Prod.fst = (calls.order.arrange
        (received order secrets).secrets.entries).map Sigma.fst := by
    rw [Arrival.secrets, List.map_map]
    rfl
  rw [hkeys]
  exact ((calls.order.perm _).map Sigma.fst).trans
    (keys_received order secrets)

/-- A body as it arrives at the agent. -/
structure Post where
  text : String
  calls : PostCalls

/-- The answer to a body and the state after it. -/
def receivePost (extractor : JsonExtractor) (state : InjectionState)
    (post : Post) : Tee.HttpResponse × InjectionState :=
  if extractor.limit < post.text.utf8ByteSize then
    (⟨413, .ok extractor.tooLarge⟩, state)
  else
    match (readJson post.text).bind InjectSecretRequest.deserialize with
    | none => (⟨400, .ok extractor.malformed⟩, state)
    | some body =>
        let exchange := injectSecretHandler state (post.calls.arrival body)
        (exchange.response.toHttp, exchange.after)

def receivePosts (extractor : JsonExtractor) (state : InjectionState)
    (posts : List Post) : InjectionState :=
  posts.foldl (fun state post => (receivePost extractor state post).2) state

theorem receivePosts_append (extractor : JsonExtractor)
    (state : InjectionState) (earlier later : List Post) :
    receivePosts extractor state (earlier ++ later) =
      receivePosts extractor (receivePosts extractor state earlier) later :=
  List.foldl_append

/-- The body that the client sends. -/
def clientPost (order : IterationOrder) (secrets : List (String × String))
    (calls : PostCalls) : Post :=
  ⟨writeJson .compact (secretsJson order (secretsMap secrets)), calls⟩

/-! ## What an accepted body does -/

theorem writeSecrets_eq_none_iff
    {outcome : String → WriteOutcome} {secrets : List (String × String)}
    {writes : List FileWrite} :
    writeSecrets outcome secrets = (writes, none) ↔
      (∀ secret ∈ secrets, outcome secret.1 = .written) ∧
        writes = secrets.map fun secret =>
          ⟨secretPath secret.1, secretBytes secret.2⟩ := by
  induction secrets generalizing writes with
  | nil => simp [writeSecrets, eq_comm]
  | cons secret rest ih =>
      obtain ⟨key, value⟩ := secret
      rw [writeSecrets]
      cases houtcome : outcome key with
      | refused => simp [houtcome]
      | cut length => simp [houtcome]
      | written =>
          cases hrest : writeSecrets outcome rest with
          | mk later stopped =>
              cases stopped with
              | some failed =>
                  have hnot : ¬ ∀ secret ∈ rest,
                      outcome secret.1 = .written := by
                    intro hall
                    have hdone := ih.mpr ⟨hall, rfl⟩
                    rw [hrest] at hdone
                    cases hdone
                  simp only [Prod.mk.injEq, reduceCtorEq, and_false,
                    List.forall_mem_cons, false_iff, not_and]
                  intro hboth
                  exact absurd hboth.2 hnot
              | none =>
                  have hlater := ih.mp hrest
                  simp only [Prod.mk.injEq, and_true,
                    List.forall_mem_cons, houtcome, true_and,
                    List.map_cons]
                  constructor
                  · intro hwrites
                    exact ⟨hlater.1, by rw [← hwrites, hlater.2]⟩
                  · intro hboth
                    rw [hboth.2, hlater.2]

/-- The conditions under which the agent takes a map of secrets. -/
structure Taken (state : InjectionState) (arrival : Arrival) : Prop where
  fresh : state.lock = InjectionLock.new
  allowed : bodyError arrival.secrets = none
  directory : arrival.dirCreated = true
  written : ∀ secret ∈ arrival.secrets,
    arrival.outcome secret.1 = .written

theorem injectSecretHandler_ok_iff
    {state : InjectionState} {arrival : Arrival} {injected : List String} :
    (injectSecretHandler state arrival).response = .ok injected ↔
      Taken state arrival ∧ injected = arrival.secrets.map Prod.fst := by
  constructor
  · intro hok
    unfold injectSecretHandler at hok
    split at hok
    · cases hok
    · rename_i hpoisoned
      split at hok
      · cases hok
      · rename_i hvalue
        have hfresh : state.lock = InjectionLock.new := by
          cases hlock : state.lock with
          | mk poisoned value =>
              rw [hlock] at hpoisoned hvalue
              simp only [Bool.not_eq_true, Option.isSome_eq_false_iff,
                Option.isNone_iff_eq_none] at hpoisoned hvalue
              rw [hpoisoned, hvalue]
              rfl
        split at hok
        · cases hok
        · rename_i hbody
          split at hok
          · cases hok
          · rename_i hdir
            cases hwrites : writeSecrets arrival.outcome
                arrival.secrets with
            | mk writes failed =>
                cases failed with
                | some key => simp [hwrites] at hok
                | none =>
                    simp only [hwrites, HttpResponse.ok.injEq] at hok
                    have hdone := writeSecrets_eq_none_iff.mp hwrites
                    exact ⟨⟨hfresh, hbody, by simpa using hdir, hdone.1⟩,
                      hok.symm⟩
  · intro ⟨htaken, hinjected⟩
    have hwrites := writeSecrets_eq_none_iff.mpr ⟨htaken.written, rfl⟩
    simp [injectSecretHandler, htaken.fresh, InjectionLock.new,
      htaken.allowed, htaken.directory, hwrites, hinjected]

theorem after_of_taken
    {state : InjectionState} {arrival : Arrival}
    (htaken : Taken state arrival) :
    (injectSecretHandler state arrival).after =
      ⟨⟨false, some ()⟩, true, applyWrites state.files
        (arrival.secrets.map fun secret =>
          ⟨secretPath secret.1, secretBytes secret.2⟩)⟩ := by
  have hwrites := writeSecrets_eq_none_iff.mpr ⟨htaken.written, rfl⟩
  simp [injectSecretHandler, htaken.fresh, InjectionLock.new,
    htaken.allowed, htaken.directory, hwrites]

/-! ## The files of the secrets -/

theorem lookup_writeFile (files : AList fun _ : String => SecretFile)
    (write : FileWrite) (path : String) :
    ((writeFile files write).lookup path).map SecretFile.content =
      if path = write.path then some write.content
      else (files.lookup path).map SecretFile.content := by
  unfold writeFile
  by_cases hpath : path = write.path
  · rw [if_pos hpath, hpath, AList.lookup_insert]
    rfl
  · rw [if_neg hpath, AList.lookup_insert_ne hpath]

/-- When all writes to a path agree, it holds what they say. -/
theorem lookup_applyWrites
    {files : AList fun _ : String => SecretFile} {writes : List FileWrite}
    {path : String} {content : Bytes}
    (hwrites : ∀ write ∈ writes, write.path = path →
      write.content = content)
    (hsome : (∃ write ∈ writes, write.path = path) ∨
      (files.lookup path).map SecretFile.content = some content) :
    ((applyWrites files writes).lookup path).map SecretFile.content =
      some content := by
  induction writes generalizing files with
  | nil =>
      rcases hsome with ⟨_, hmem, -⟩ | hfile
      · cases hmem
      · exact hfile
  | cons write rest ih =>
      rw [applyWrites, List.foldl_cons, ← applyWrites]
      apply ih
      · intro later hlater
        exact hwrites later (List.mem_cons_of_mem write hlater)
      · rw [lookup_writeFile]
        by_cases hpath : path = write.path
        · right
          rw [if_pos hpath,
            hwrites write List.mem_cons_self hpath.symm]
        · rw [if_neg hpath]
          rcases hsome with ⟨other, hother, hsame⟩ | hfile
          · rcases List.mem_cons.mp hother with rfl | hlater
            · exact absurd hsame.symm hpath
            · exact Or.inl ⟨other, hlater, hsame⟩
          · exact Or.inr hfile

theorem secretPath_injective {first second : String}
    (hfirst : IsFileName first) (hsecond : IsFileName second)
    (hsame : secretPath first = secretPath second) : first = second := by
  rw [secretPath_eq hfirst, secretPath_eq hsecond] at hsame
  have hlists := congrArg String.toList hsame
  simp only [String.toList_append] at hlists
  exact String.toList_inj.mp (List.append_cancel_left hlists)

/-- The file of every secret of the map holds its value. -/
def InPlace (files : AList fun _ : String => SecretFile)
    (secrets : SecretsMap) : Prop :=
  ∀ key value, secrets.lookup key = some value →
    (files.lookup (secretsDir ++ "/" ++ key)).map SecretFile.content =
      some (secretBytes value)

theorem inPlace_of_taken
    {state : InjectionState} {arrival : Arrival}
    (htaken : Taken state arrival) :
    InPlace (injectSecretHandler state arrival).after.files
      arrival.body.secrets := by
  intro key value hlookup
  have hmem := arrival.mem_secrets.mpr hlookup
  have hname : ∀ secret ∈ arrival.secrets, IsFileName secret.1 :=
    fun secret hsecret => isFileName_of_secretError
      (secretError_of_bodyError htaken.allowed hsecret)
  rw [after_of_taken htaken, ← secretPath_eq (hname _ hmem)]
  apply lookup_applyWrites
  · intro write hwrite hpath
    obtain ⟨secret, hsecret, rfl⟩ := List.mem_map.mp hwrite
    have hkey := secretPath_injective (hname _ hsecret) (hname _ hmem) hpath
    have hvalue := arrival.mem_secrets.mp
      (show (secret.1, secret.2) ∈ arrival.secrets from hsecret)
    rw [hkey, hlookup] at hvalue
    rw [Option.some.inj hvalue]
  · exact Or.inl ⟨_, List.mem_map_of_mem hmem, rfl⟩

/-! ## The answers to bodies -/

/-- Nothing that arrives after the injection changes anything. -/
theorem receivePost_of_consumed
    (extractor : JsonExtractor) {state : InjectionState}
    (hlock : state.lock = ⟨false, some ()⟩) (post : Post) :
    (receivePost extractor state post).2 = state := by
  unfold receivePost
  split
  · rfl
  · split
    · rfl
    · rename_i body hbody
      have hconflict := (injectSecretHandler_serves state
        (post.calls.arrival body)).conflict_of_consumed
          (by rw [hlock]) (by rw [hlock])
      simp only [hconflict]

theorem receivePosts_of_consumed
    (extractor : JsonExtractor) {state : InjectionState}
    (hlock : state.lock = ⟨false, some ()⟩) (posts : List Post) :
    receivePosts extractor state posts = state := by
  induction posts with
  | nil => rfl
  | cons post rest ih =>
      rw [receivePosts, List.foldl_cons,
        receivePost_of_consumed extractor hlock, ← receivePosts, ih]

/-- A body changes nothing, or it uses up the injection. -/
theorem receivePost_cases
    (extractor : JsonExtractor) {state : InjectionState}
    (hlock : state.lock = InjectionLock.new) (post : Post) :
    (receivePost extractor state post).2 = state ∨
      (receivePost extractor state post).2.lock = ⟨false, some ()⟩ := by
  unfold receivePost
  split
  · exact Or.inl rfl
  · split
    · exact Or.inl rfl
    · rename_i body hbody
      simp only
      generalize hexchange : injectSecretHandler state
        (post.calls.arrival body) = exchange
      have hserves := injectSecretHandler_serves state
        (post.calls.arrival body)
      rw [hexchange] at hserves
      cases hserves with
      | poisoned | conflict | badRequest | noDirectory => exact Or.inl rfl
      | stopped | injected =>
          right
          rw [hlock]
          rfl

theorem receivePosts_cases
    (extractor : JsonExtractor) {state : InjectionState}
    (hlock : state.lock = InjectionLock.new) (posts : List Post) :
    receivePosts extractor state posts = state ∨
      (receivePosts extractor state posts).lock = ⟨false, some ()⟩ := by
  induction posts with
  | nil => exact Or.inl rfl
  | cons post rest ih =>
      rw [receivePosts, List.foldl_cons, ← receivePosts]
      rcases receivePost_cases extractor hlock post with hsame | hconsumed
      · rw [hsame]
        exact ih
      · right
        rw [receivePosts_of_consumed extractor hconsumed, hconsumed]

/-- The agent takes the secrets of the client's body. -/
structure Accepts (extractor : JsonExtractor) (state : InjectionState)
    (order : IterationOrder) (secrets : List (String × String))
    (calls : PostCalls) : Prop where
  fits : (clientPost order secrets calls).text.utf8ByteSize ≤
    extractor.limit
  taken : Taken state (calls.arrival (received order (secretsMap secrets)))

theorem receivePost_clientPost
    (extractor : JsonExtractor) (state : InjectionState)
    (order : IterationOrder) (secrets : List (String × String))
    (calls : PostCalls)
    (hfits : (clientPost order secrets calls).text.utf8ByteSize ≤
      extractor.limit) :
    receivePost extractor state (clientPost order secrets calls) =
      ((injectSecretHandler state (calls.arrival
          (received order (secretsMap secrets)))).response.toHttp,
        (injectSecretHandler state (calls.arrival
          (received order (secretsMap secrets)))).after) := by
  have hread : (readJson (clientPost order secrets calls).text).bind
      InjectSecretRequest.deserialize =
        some (received order (secretsMap secrets)) := by
    rw [clientPost, readJson_writeJson .compact (within_secretsJson _ _)]
    exact deserialize_secretsJson order (secretsMap secrets)
  rw [receivePost, if_neg (Nat.not_lt.mpr hfits), hread]
  rfl

theorem toHttp_status_eq {response : HttpResponse} :
    response.toHttp.status = 200 ↔ ∃ injected, response = .ok injected := by
  cases response <;> simp [HttpResponse.toHttp]

theorem status_receivePost_clientPost
    {extractor : JsonExtractor} {state : InjectionState}
    {order : IterationOrder} {secrets : List (String × String)}
    {calls : PostCalls} :
    (receivePost extractor state
        (clientPost order secrets calls)).1.status = 200 ↔
      Accepts extractor state order secrets calls := by
  by_cases hfits : (clientPost order secrets calls).text.utf8ByteSize ≤
      extractor.limit
  · rw [receivePost_clientPost extractor state order secrets calls hfits,
      toHttp_status_eq]
    simp only [injectSecretHandler_ok_iff]
    constructor
    · intro ⟨injected, htaken, _⟩
      exact ⟨hfits, htaken⟩
    · intro haccepts
      exact ⟨_, haccepts.taken, rfl⟩
  · rw [receivePost, if_pos (Nat.lt_of_not_le hfits)]
    constructor
    · intro hstatus
      cases hstatus
    · intro haccepts
      exact absurd haccepts.fits hfits

/-! ## The client and the agent -/

/-- The client's URLs are in order, its HTTP client can be built, and it
reads the answers of the agent. -/
structure ReadyToInject (env : HttpEnv) (baseUrl : String) : Prop where
  urls : ∃ base injectUrl, env.parseUrl baseUrl = .ok base ∧
    env.joinUrl base "confidential/inject-secret" = .ok injectUrl
  client : env.buildClient = .ok ()
  injected : ∀ text injected, env.injectedFromJson text = .ok injected ↔
    injectedFormat.ofText text = some injected

theorem prepareInjection_of_ready
    {env : HttpEnv} {baseUrl : String}
    (hready : ReadyToInject env baseUrl) :
    prepareInjection env baseUrl = .ok () := by
  obtain ⟨base, injectUrl, hbase, hurl⟩ := hready.urls
  simp only [prepareInjection, bind_eq_ok, context_eq_ok]
  exact ⟨base, hbase, injectUrl, hurl, hready.client⟩

theorem finishInjection_eq_ok
    {env : HttpEnv} {result : VerificationResult}
    {response : Tee.HttpResponse} {injected : List String} :
    finishInjection env result response = .ok injected ↔
      result.valid = true ∧ response.status = 200 ∧
        ∃ text, response.text = .ok text ∧
          env.injectedFromJson text = .ok injected := by
  simp only [finishInjection, bind_eq_ok, ensure_eq_ok, context_eq_ok,
    bne_iff_ne, beq_iff_eq]
  constructor
  · rintro ⟨_, hvalid, _, -, _, hstatus, text, htext, hread⟩
    exact ⟨hvalid, hstatus, text, htext, hread⟩
  · rintro ⟨hvalid, hstatus, text, htext, hread⟩
    refine ⟨(), hvalid, (), ?_, (), hstatus, text, htext, hread⟩
    rw [hstatus]
    decide

theorem injectSecret_agentExchange
    {libs : ClientLibs Cert Key} {identity : AttestedTlsIdentity}
    (hcarries : Carries libs identity) {env : HttpEnv} {baseUrl : String}
    (hready : ReadyToInject env baseUrl) {response : Tee.HttpResponse}
    (hexchange : env.exchange = agentExchange identity response)
    (product : String) (expected : Option Bytes)
    (secrets : List (String × String)) (cache : KdsCache)
    (injected : List String) :
    (injectSecret libs env baseUrl product expected secrets cache).2 =
        .ok injected ↔
      (∀ measurement ∈ expected,
        identity.report.measurement = measurement) ∧
      ∃ result, (verifySevSnpReport libs.toTeeLibs identity.report product
          cache).1 = .ok result ∧
        finishInjection env result response = .ok injected := by
  have hsend := sendRequest_agentExchange hcarries expected
    (some (secretsMap secrets)) response
  simp only [injectSecret, prepareInjection_of_ready hready, hexchange]
  cases hsent : sendRequest libs expected (some (secretsMap secrets))
      (agentExchange identity response) with
  | mk events sent =>
      rw [hsent] at hsend
      cases sent with
      | error message =>
          simp only
          constructor
          · intro herror
            cases herror
          · intro ⟨hmeasurement, _⟩
            cases (hsend _).mpr ⟨hmeasurement, rfl⟩
      | ok answer =>
          obtain ⟨hmeasurement, rfl⟩ := (hsend answer).mp rfl
          simp only [bind_eq_ok, context_eq_ok]
          constructor
          · intro hresult
            exact ⟨hmeasurement, hresult⟩
          · intro hboth
            exact hboth.2

theorem injectSecret_of_carries_iff
    {libs : ClientLibs Cert Key} {identity : AttestedTlsIdentity}
    (hcarries : Carries libs identity) {env : HttpEnv} {baseUrl : String}
    (hready : ReadyToInject env baseUrl)
    {extractor : JsonExtractor} {state : InjectionState}
    {order : IterationOrder} {secrets : List (String × String)}
    {calls : PostCalls}
    (hexchange : env.exchange = agentExchange identity
      (receivePost extractor state (clientPost order secrets calls)).1)
    (product : String) (expected : Option Bytes) (cache : KdsCache)
    (injected : List String) :
    (injectSecret libs env baseUrl product expected secrets cache).2 =
        .ok injected ↔
      (∀ measurement ∈ expected,
        identity.report.measurement = measurement) ∧
      (verifySevSnpReport libs.toTeeLibs identity.report product
        cache).1.isOk = true ∧
      Accepts extractor state order secrets calls ∧
      injected = (calls.arrival
        (received order (secretsMap secrets))).secrets.map Prod.fst := by
  rw [injectSecret_agentExchange hcarries hready hexchange]
  simp only [finishInjection_eq_ok, status_receivePost_clientPost]
  have htext : Accepts extractor state order secrets calls →
      (receivePost extractor state
        (clientPost order secrets calls)).1.text =
          .ok (injectedFormat.toText .compact ((calls.arrival
            (received order (secretsMap secrets))).secrets.map
              Prod.fst)) := by
    intro haccepts
    rw [receivePost_clientPost extractor state order secrets calls
      haccepts.fits, injectSecretHandler_ok_iff.mpr
        ⟨haccepts.taken, rfl⟩]
    rfl
  constructor
  · rintro ⟨hmeasurement, result, hresult, -, haccepts, text, hanswer,
      hread⟩
    refine ⟨hmeasurement, ?_, haccepts, ?_⟩
    · rw [hresult]
      rfl
    · rw [htext haccepts, Except.ok.injEq] at hanswer
      rw [hready.injected, ← hanswer, RecordFormat.ofText_toText,
        Option.some.injEq] at hread
      exact hread.symm
  · rintro ⟨hmeasurement, hverified, haccepts, rfl⟩
    obtain ⟨result, hresult⟩ := exists_of_isOk hverified
    obtain ⟨-, -, -, -, -, -, hvalid⟩ := verifySevSnpReport_accepted hresult
    refine ⟨hmeasurement, result, hresult, hvalid, haccepts, _,
      htext haccepts, ?_⟩
    rw [hready.injected, RecordFormat.ofText_toText]

/-- A client that reaches an agent with its own certificate reports success
exactly when the measurement is the expected one, if one is expected, when
the agent's report is verified, and when the agent has not taken secrets
before, takes these and can write them all; it then reports their names. -/
theorem injectSecret_of_agent_iff
    (libs : IdentityLibs Cert Key KeyPair) (firmware : Firmware)
    (generated : Except String KeyPair) (identity : AttestedTlsIdentity)
    (env : HttpEnv) (baseUrl : String) (extractor : JsonExtractor)
    (state : InjectionState) (order : IterationOrder)
    (secrets : List (String × String)) (calls : PostCalls)
    (hlibs : Interoperable libs)
    (hsigns : SignsReportData libs.toTeeLibs firmware)
    (hidentity : generateAttestedTlsIdentity libs generated firmware =
      .ok identity)
    (hready : ReadyToInject env baseUrl)
    (hexchange : env.exchange = agentExchange identity
      (receivePost extractor state (clientPost order secrets calls)).1)
    (product : String) (expected : Option Bytes) (cache : KdsCache)
    (injected : List String) :
    (injectSecret libs.toClientLibs env baseUrl product expected secrets
        cache).2 = .ok injected ↔
      (∀ measurement ∈ expected,
        identity.report.measurement = measurement) ∧
      (verifySevSnpReport libs.toTeeLibs identity.report product
        cache).1.isOk = true ∧
      Accepts extractor state order secrets calls ∧
      injected = (calls.arrival
        (received order (secretsMap secrets))).secrets.map Prod.fst := by
  exact injectSecret_of_carries_iff
    (generateAttestedTlsIdentity_carries hlibs hsigns hidentity) hready
    hexchange product expected cache injected

/-- Once a client has reported success, nothing else was ever written, and
whatever arrives later, the file of each secret holds the value that the
client was given last for its name. -/
theorem injected_secrets_stay
    (libs : IdentityLibs Cert Key KeyPair) (firmware : Firmware)
    (generated : Except String KeyPair) (identity : AttestedTlsIdentity)
    (env : HttpEnv) (baseUrl : String) (extractor : JsonExtractor)
    (dirExists : Bool) (files : AList fun _ : String => SecretFile)
    (earlier later : List Post) (order : IterationOrder)
    (secrets : List (String × String)) (calls : PostCalls)
    (hlibs : Interoperable libs)
    (hsigns : SignsReportData libs.toTeeLibs firmware)
    (hidentity : generateAttestedTlsIdentity libs generated firmware =
      .ok identity)
    (hready : ReadyToInject env baseUrl)
    (hexchange : env.exchange = agentExchange identity
      (receivePost extractor
        (receivePosts extractor ⟨InjectionLock.new, dirExists, files⟩
          earlier) (clientPost order secrets calls)).1)
    (product : String) (expected : Option Bytes) (cache : KdsCache)
    (injected : List String)
    (hok : (injectSecret libs.toClientLibs env baseUrl product expected
      secrets cache).2 = .ok injected) :
    receivePosts extractor ⟨InjectionLock.new, dirExists, files⟩ earlier =
        ⟨InjectionLock.new, dirExists, files⟩ ∧
      injected.Perm (secretsMap secrets).keys ∧
      InPlace (receivePosts extractor
        ⟨InjectionLock.new, dirExists, files⟩
        (earlier ++ clientPost order secrets calls :: later)).files
          (secretsMap secrets) := by
  obtain ⟨-, -, haccepts, rfl⟩ := (injectSecret_of_carries_iff
    (generateAttestedTlsIdentity_carries hlibs hsigns hidentity) hready
    hexchange product expected cache injected).mp hok
  have hearlier : receivePosts extractor
      ⟨InjectionLock.new, dirExists, files⟩ earlier =
        ⟨InjectionLock.new, dirExists, files⟩ := by
    have hnew : (⟨InjectionLock.new, dirExists, files⟩ :
        InjectionState).lock = InjectionLock.new := rfl
    rcases receivePosts_cases extractor hnew earlier with
      hsame | hconsumed
    · exact hsame
    · have hfresh := haccepts.taken.fresh
      rw [hconsumed] at hfresh
      cases hfresh
  rw [hearlier] at haccepts
  refine ⟨hearlier, keys_arrival_received order calls _, ?_⟩
  have hafter := receivePost_clientPost extractor
    ⟨InjectionLock.new, dirExists, files⟩ order secrets calls haccepts.fits
  have hconsumed : (receivePost extractor
      ⟨InjectionLock.new, dirExists, files⟩
      (clientPost order secrets calls)).2.lock = ⟨false, some ()⟩ := by
    rw [hafter, after_of_taken haccepts.taken]
  have hrun : receivePosts extractor ⟨InjectionLock.new, dirExists, files⟩
      (earlier ++ clientPost order secrets calls :: later) =
        (receivePost extractor ⟨InjectionLock.new, dirExists, files⟩
          (clientPost order secrets calls)).2 := by
    rw [receivePosts_append, hearlier, receivePosts, List.foldl_cons,
      ← receivePosts, receivePosts_of_consumed extractor hconsumed]
  rw [hrun, hafter]
  intro key value hlookup
  apply inPlace_of_taken haccepts.taken
  rw [← lookup_received order (secretsMap secrets) key] at hlookup
  exact hlookup

/-! ## One secret for the sample agent -/

def sampleExtractor : JsonExtractor :=
  ⟨2097152, "payload too large", "JSON deserialize error"⟩

def sampleCalls : PostCalls := ⟨.stored, true, fun _ => .written⟩

def sampleSecrets : List (String × String) :=
  [("disk_key", "hunter2"), ("disk_key", "hunter3")]

/-- A body that is no JSON reaches the agent first. -/
def samplePosts : List Post := [⟨"disk_key", sampleCalls⟩]

def sampleState : InjectionState :=
  receivePosts sampleExtractor ⟨InjectionLock.new, false, ∅⟩ samplePosts

def readInjected (text : String) : Except String (List String) :=
  match injectedFormat.ofText text with
  | some injected => .ok injected
  | none => .error "malformed JSON"

def injectionEnv (identity : AttestedTlsIdentity) : HttpEnv where
  buildClient := .ok ()
  parseUrl := fun url => .ok url
  joinUrl := fun base path => .ok (base ++ path)
  exchange := agentExchange identity (receivePost sampleExtractor
    sampleState (clientPost .stored sampleSecrets sampleCalls)).1
  injectedFromJson := readInjected

theorem injectionEnv_ready (identity : AttestedTlsIdentity) :
    ReadyToInject (injectionEnv identity) "https://vm/" where
  urls := ⟨_, _, rfl, rfl⟩
  client := rfl
  injected := by
    intro text injected
    simp only [injectionEnv, readInjected]
    cases injectedFormat.ofText text <;> simp

theorem sample_accepts :
    Accepts sampleExtractor sampleState .stored sampleSecrets
      sampleCalls where
  fits := by decide +kernel
  taken :=
    { fresh := by decide +kernel
      allowed := by decide +kernel
      directory := rfl
      written := fun _ _ => rfl }

theorem injectSecret_of_sample_agent :
    ∃ identity, generateAttestedTlsIdentity sampleIdentityLibs (.ok 0)
        signingFirmware = .ok identity ∧
      (injectSecret sampleIdentityLibs.toClientLibs (injectionEnv identity)
        "https://vm/" "Milan" none sampleSecrets none).2 =
          .ok ["disk_key"] := by
  obtain ⟨identity, hidentity, hreport⟩ := exists_sampleIdentity
  refine ⟨identity, hidentity, ?_⟩
  refine (injectSecret_of_agent_iff sampleIdentityLibs signingFirmware
    (.ok 0) identity (injectionEnv identity) "https://vm/" sampleExtractor
    sampleState .stored sampleSecrets sampleCalls
    sampleIdentityLibs_interoperable signingFirmware_signsReportData
    hidentity (injectionEnv_ready identity) rfl "Milan" none none
    ["disk_key"]).mpr ⟨by simp, ?_, sample_accepts, by decide +kernel⟩
  rw [hreport]
  exact congrArg Except.isOk verifySevSnpReport_blankReport

theorem injected_secrets_stay_of_sample_agent :
    InPlace (receivePosts sampleExtractor
        ⟨InjectionLock.new, false, ∅⟩
        (samplePosts ++
          clientPost .stored sampleSecrets sampleCalls ::
            samplePosts)).files
      (secretsMap sampleSecrets) := by
  obtain ⟨identity, hidentity, hreport⟩ := exists_sampleIdentity
  have hcarries := generateAttestedTlsIdentity_carries
    sampleIdentityLibs_interoperable signingFirmware_signsReportData
    hidentity
  have hok : (injectSecret sampleIdentityLibs.toClientLibs
      (injectionEnv identity) "https://vm/" "Milan" none sampleSecrets
      none).2 = .ok ["disk_key"] := by
    have hexchange : (injectionEnv identity).exchange =
        agentExchange identity (receivePost sampleExtractor sampleState
          (clientPost .stored sampleSecrets sampleCalls)).1 := rfl
    refine (injectSecret_of_carries_iff hcarries
      (injectionEnv_ready identity) hexchange "Milan" none none
      ["disk_key"]).mpr ⟨by simp, ?_, sample_accepts, by decide +kernel⟩
    rw [hreport]
    exact congrArg Except.isOk verifySevSnpReport_blankReport
  exact (injected_secrets_stay sampleIdentityLibs signingFirmware (.ok 0)
    identity (injectionEnv identity) "https://vm/" sampleExtractor false ∅
    samplePosts samplePosts .stored sampleSecrets sampleCalls
    sampleIdentityLibs_interoperable signingFirmware_signsReportData
    hidentity (injectionEnv_ready identity) rfl "Milan" none none
    ["disk_key"] hok).2.2

end AlephCvm.Secrets
