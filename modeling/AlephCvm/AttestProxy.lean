import AlephCvm.HttpRedirects
import AlephCvm.TableFolds

/-!
# The reverse proxy of the attestation agent

Model of `proxy_handler` in `aleph-attest-agent/src/proxy.rs`.  The handler
builds a request for the application from the one it got, sends it with a
client that follows redirects, and builds a response from the one that comes
back.  The headers of that response are put into a table, where a header
replaces an earlier one of the same name.

The text of the URL is put together from its parts and parsed again, which
may give another path or query than the caller has asked for.  Names of
headers are compared in lower case, as both libraries keep them.  What
`actix-web` adds when it writes the response is not part of the model.
-/

namespace AlephCvm.Proxy

open HttpRedirects TableFolds

/-! ## Messages -/

/-- The request as the server hands it to the handler. -/
structure HttpRequest where
  method : String
  path : String
  query : Option String
  headers : Headers
  body : List UInt8

structure HttpResponse where
  status : StatusCode
  headers : AList fun _ : String => HeaderValue
  body : List UInt8

structure AppState where
  upstream : String

/-- What a URL asks for, as the client sends it. -/
structure Resource where
  origin : String
  path : String
  query : Option String
  deriving DecidableEq, Repr

/-- A body above the limit of the extractor does not get to the handler. -/
structure ProxyLibs extends RedirectLibs where
  parseMethod : String → Option String
  parseUrl : String → Except String String
  resource : String → Resource
  jsonError : String → List UInt8
  bodyLimit : ℕ
  bodyTooLarge : HttpResponse

/-- `HeaderValue::to_str`: the value is handed over when each of its bytes is
visible ASCII, a blank or a tab. -/
def isVisibleAscii (byte : UInt8) : Bool :=
  (decide (32 ≤ byte) && decide (byte < 127)) || byte == 9

def toStr (value : HeaderValue) : Option HeaderValue :=
  if value.all isVisibleAscii then some value else none

/-! ## The handler -/

def upstreamUrl (state : AppState) (req : HttpRequest) : String :=
  match req.query with
  | some qs => s!"{state.upstream}{req.path}?{qs}"
  | none => s!"{state.upstream}{req.path}"

/-- The headers that can be read as texts; the client sets the host. -/
def forwardedHeaders (headers : Headers) : Headers :=
  headers.filterMap fun header =>
    if header.1 = "host" then none
    else (toStr header.2).map fun value => (header.1, value)

/-- The request that is sent to the application. -/
def proxyRequest (libs : ProxyLibs) (state : AppState)
    (req : HttpRequest) : Except String Request := do
  let url ← libs.parseUrl (upstreamUrl state req)
  return {
    url := url
    method := (libs.parseMethod req.method).getD "GET"
    headers := forwardedHeaders req.headers
    body := req.body }

/-- The limit of the client's default policy. -/
def maxRedirects : ℕ := 10

def send (libs : ProxyLibs) (exchange : Exchange) (state : AppState)
    (req : HttpRequest) : Except String Response := do
  let request ← proxyRequest libs state req
  execute libs.toRedirectLibs exchange maxRedirects 0 request

def okStatus : StatusCode := ⟨200, by decide⟩

def badGatewayStatus : StatusCode := ⟨502, by decide⟩

def asciiBytes (text : String) : List UInt8 :=
  text.toList.map fun symbol => UInt8.ofNat symbol.toNat

def badGateway (libs : ProxyLibs) (message : String) : HttpResponse where
  status := badGatewayStatus
  headers := (∅ : AList fun _ : String => HeaderValue).insert "content-type"
    (asciiBytes "application/json")
  body := libs.jsonError message

/-- `insert_header` for each header that can be read as a text. -/
def insertHeaders (headers : Headers) :
    AList fun _ : String => HeaderValue :=
  insertAll Prod.fst Prod.snd
    (headers.filterMap fun header =>
      (toStr header.2).map fun value => (header.1, value)) ∅

def proxyHandler (libs : ProxyLibs) (exchange : Exchange)
    (state : AppState) (req : HttpRequest) : HttpResponse :=
  match send libs exchange state req with
  | .error message => badGateway libs s!"upstream unreachable: {message}"
  | .ok upstreamResp =>
      match upstreamResp.body with
      | .error _ => badGateway libs "failed to read upstream response"
      | .ok body => {
          status := (StatusCode.fromU16 upstreamResp.status.code).getD
            badGatewayStatus
          headers := insertHeaders upstreamResp.headers
          body := body }

/-- The default service: the body is extracted, then the handler is
called. -/
def proxyService (libs : ProxyLibs) (exchange : Exchange)
    (state : AppState) (req : HttpRequest) : HttpResponse :=
  if libs.bodyLimit < req.body.length then libs.bodyTooLarge
  else proxyHandler libs exchange state req

/-! ## What the caller asks for -/

/-- The path and the query as they stand in the request line. -/
def HttpRequest.pathAndQuery (req : HttpRequest) : String :=
  req.path ++ req.query.elim "" fun query => "?" ++ query

/-- A path without the slash at its end. -/
def withoutSlash (path : String) : String :=
  if path.toList.getLast? = some '/' then
    String.ofList path.toList.dropLast
  else path

/-- The URL asks the upstream for the path and the query of the request. -/
def RequestsResource (libs : ProxyLibs) (state : AppState)
    (req : HttpRequest) (url : String) : Prop :=
  ∃ base, libs.parseUrl state.upstream = .ok base ∧
    libs.resource url =
      { origin := (libs.resource base).origin
        path := withoutSlash (libs.resource base).path ++ req.path
        query := req.query }

/-- The request of the caller, sent to this URL: its method, its body, and
its headers that can be read as texts, but for the host. -/
def HttpRequest.addressedTo (req : HttpRequest) (url : String) :
    Request where
  url := url
  method := req.method
  headers := req.headers.filter fun header =>
    header.1 != "host" && header.2.all isVisibleAscii
  body := req.body

/-- The upstream answers what the caller asks for with this response. -/
def Produces (libs : ProxyLibs) (state : AppState) (exchange : Exchange)
    (req : HttpRequest) (response : Response) : Prop :=
  ∀ url, RequestsResource libs state req url →
    exchange 0 (req.addressedTo url) = .ok response

/-! ## Transparency -/

/-- The caller gets the status, the headers and the body of this response. -/
structure Transparent (received : HttpResponse) (response : Response) :
    Prop where
  status : received.status = response.status
  headers : pairs received.headers = Multiset.ofList response.headers
  body : response.body = .ok received.body

/-- A response with a body that can be read and headers that can be read as
texts. -/
structure Readable (response : Response) : Prop where
  visible : ∀ header ∈ response.headers,
    header.2.all isVisibleAscii = true
  body : ∃ body, response.body = .ok body

theorem insertHeaders_of_visible
    {headers : Headers}
    (hvisible : ∀ header ∈ headers, header.2.all isVisibleAscii = true) :
    insertHeaders headers = insertAll Prod.fst Prod.snd headers ∅ := by
  have hread : ∀ header ∈ headers,
      (toStr header.2).map (fun value => (header.1, value)) =
        some header := by
    intro header hheader
    simp [toStr, hvisible header hheader]
  rw [insertHeaders, List.filterMap_congr hread, List.filterMap_some]

theorem forwardedHeaders_eq_filter (headers : Headers) :
    forwardedHeaders headers = headers.filter fun header =>
      header.1 != "host" && header.2.all isVisibleAscii := by
  rw [forwardedHeaders, ← List.filterMap_eq_filter]
  apply List.filterMap_congr
  intro header _
  by_cases hhost : header.1 = "host" <;>
    by_cases hvisible : header.2.all isVisibleAscii = true <;>
      simp [hhost, hvisible, toStr, Option.guard]

theorem upstreamUrl_eq (state : AppState) (req : HttpRequest) :
    upstreamUrl state req = state.upstream ++ req.pathAndQuery := by
  unfold upstreamUrl HttpRequest.pathAndQuery
  cases req.query with
  | none => simp [toString]
  | some query => simp [toString, String.append_assoc]

/-- The client sends the request of the caller to the parsed URL, where it
knows the method. -/
theorem proxyRequest_of_parseUrl
    {libs : ProxyLibs} {state : AppState} {req : HttpRequest} {url : String}
    (hparsed : libs.parseUrl (state.upstream ++ req.pathAndQuery) =
      .ok url) :
    proxyRequest libs state req = .ok { req.addressedTo url with
      method := (libs.parseMethod req.method).getD "GET" } := by
  rw [proxyRequest, upstreamUrl_eq, hparsed, forwardedHeaders_eq_filter]
  rfl

theorem proxyRequest_of_parseUrl_error
    {libs : ProxyLibs} {state : AppState} {req : HttpRequest}
    {message : String}
    (hparsed : libs.parseUrl (state.upstream ++ req.pathAndQuery) =
      .error message) :
    proxyRequest libs state req = .error message := by
  rw [proxyRequest, upstreamUrl_eq, hparsed]
  rfl

/-- Where nothing is followed, only a header that occurs twice is lost. -/
theorem proxyHandler_of_answer
    {libs : ProxyLibs} {exchange : Exchange} {state : AppState}
    {req : HttpRequest} {response : Response}
    (hreadable : Readable response)
    (hanswer : send libs exchange state req = .ok response) :
    Transparent (proxyHandler libs exchange state req) response ↔
      (response.headers.map Prod.fst).Nodup := by
  obtain ⟨body, hbody⟩ := hreadable.body
  have hreceived : proxyHandler libs exchange state req =
      ⟨response.status, insertAll Prod.fst Prod.snd response.headers ∅,
        body⟩ := by
    unfold proxyHandler
    simp only [hanswer, hbody, StatusCode.fromU16_code, Option.getD_some,
      insertHeaders_of_visible hreadable.visible]
  rw [hreceived, ← pairs_insertAll_iff]
  constructor
  · exact Transparent.headers
  · intro hheaders
    exact ⟨rfl, hheaders, hbody⟩

/-! ## Another answer than that of the upstream -/

/-- An answer that leads nowhere, with another status than the response. -/
def otherAnswer (response : Response) : Response :=
  if response.status = okStatus then ⟨badGatewayStatus, [], .ok []⟩
  else ⟨okStatus, [], .ok []⟩

theorem otherAnswer_status (response : Response) :
    (otherAnswer response).status ≠ response.status := by
  unfold otherAnswer
  split_ifs with hok
  · rw [hok]
    decide
  · exact Ne.symm hok

theorem otherAnswer_body (response : Response) :
    (otherAnswer response).body = .ok [] := by
  unfold otherAnswer
  split_ifs <;> rfl

theorem redirectLocation_otherAnswer
    (libs : RedirectLibs) (request : Request) (response : Response) :
    redirectLocation libs request (otherAnswer response) = none := by
  unfold otherAnswer redirectLocation
  split_ifs with hok hredirection hredirection
  · exact absurd hredirection (by decide)
  · rfl
  · exact absurd hredirection (by decide)
  · rfl

theorem not_transparent_of_otherAnswer
    {libs : ProxyLibs} {exchange : Exchange} {state : AppState}
    {req : HttpRequest} {response : Response}
    (hanswer : send libs exchange state req = .ok (otherAnswer response)) :
    ¬ Transparent (proxyHandler libs exchange state req) response := by
  intro htransparent
  apply otherAnswer_status response
  rw [← htransparent.status]
  unfold proxyHandler
  simp only [hanswer, otherAnswer_body, StatusCode.fromU16_code,
    Option.getD_some]

/-- An exchange in which every hop behind the first one is answered with an
empty response. -/
def answeredElsewhere (response : Response) : Exchange := fun hop _ =>
  if hop = 0 then .ok response else .ok ⟨okStatus, [], .ok []⟩

theorem send_redirected
    {libs : ProxyLibs} {state : AppState} {req : HttpRequest}
    {request : Request} {response : Response} {location : String}
    (hrequest : proxyRequest libs state req = .ok request)
    (hlocation : redirectLocation libs.toRedirectLibs request response =
      some location) :
    (∃ message, send libs (answeredElsewhere response) state req =
        .error message) ∨
      send libs (answeredElsewhere response) state req =
        .ok ⟨okStatus, [], .ok []⟩ := by
  have hsend : send libs (answeredElsewhere response) state req =
      execute libs.toRedirectLibs (answeredElsewhere response) maxRedirects
        0 request := by
    rw [send, hrequest]
    rfl
  have hanswer : answeredElsewhere response 0 request = .ok response := rfl
  rw [hsend]
  cases hscheme : libs.hasHttpScheme location with
  | false =>
      exact .inl (execute_of_foreign_scheme hanswer hlocation hscheme)
  | true =>
      refine .inr ?_
      rw [maxRedirects, execute_of_redirect hanswer hlocation hscheme]
      apply execute_of_final
      · rfl
      · rfl

/-- A response that leads on is not the one that the caller gets: its status
is another one than that of the next response and of the handler's error. -/
theorem not_transparent_of_redirect
    {libs : ProxyLibs} {state : AppState} {req : HttpRequest}
    {request : Request} {response : Response} {location : String}
    (hrequest : proxyRequest libs state req = .ok request)
    (hlocation : redirectLocation libs.toRedirectLibs request response =
      some location) :
    ¬ Transparent (proxyHandler libs (answeredElsewhere response) state req)
      response := by
  intro htransparent
  have hredirection := isRedirection_of_redirectLocation hlocation
  rw [← htransparent.status] at hredirection
  rcases send_redirected hrequest hlocation with ⟨message, hsend⟩ | hsend
  · unfold proxyHandler at hredirection
    simp only [hsend] at hredirection
    change isRedirection badGatewayStatus = true at hredirection
    exact absurd hredirection (by decide)
  · unfold proxyHandler at hredirection
    simp only [hsend, StatusCode.fromU16_code, Option.getD_some]
      at hredirection
    exact absurd hredirection (by decide)

/-! ## The service as a whole -/

/-- The request gets to the upstream as the caller has made it: its body is
within the limit, the URL that is put together is read as one for the path
and the query of the request, and the client knows the method. -/
structure PassedOn (libs : ProxyLibs) (state : AppState) (req : HttpRequest)
    (url : String) : Prop where
  body : req.body.length ≤ libs.bodyLimit
  parsed : libs.parseUrl (state.upstream ++ req.pathAndQuery) = .ok url
  resource : RequestsResource libs state req url
  method : (libs.parseMethod req.method).getD "GET" = req.method

/-- What the caller gets when nothing is sent to the upstream. -/
inductive AnsweredAlone (libs : ProxyLibs) (state : AppState)
    (req : HttpRequest) : HttpResponse → Prop where
  | tooLarge (hbody : libs.bodyLimit < req.body.length) :
      AnsweredAlone libs state req libs.bodyTooLarge
  | unparsed {message : String} (hbody : req.body.length ≤ libs.bodyLimit)
      (hparsed : libs.parseUrl (state.upstream ++ req.pathAndQuery) =
        .error message) :
      AnsweredAlone libs state req
        (badGateway libs s!"upstream unreachable: {message}")

theorem AnsweredAlone.proxyService_eq
    {libs : ProxyLibs} {state : AppState} {req : HttpRequest}
    {own : HttpResponse} (halone : AnsweredAlone libs state req own)
    (exchange : Exchange) : proxyService libs exchange state req = own := by
  cases halone with
  | tooLarge hbody => rw [proxyService, if_pos hbody]
  | unparsed hbody hparsed =>
      rw [proxyService, if_neg (not_lt.mpr hbody)]
      simp only [proxyHandler, send,
        proxyRequest_of_parseUrl_error hparsed]
      rfl

/-- What is sent to the upstream is the request of the caller, or else an
upstream that answers other requests otherwise gives this away. -/
theorem passedOn_of_transparent
    {libs : ProxyLibs} {state : AppState} {req : HttpRequest} {url : String}
    {response : Response} (hbody : req.body.length ≤ libs.bodyLimit)
    (hparsed : libs.parseUrl (state.upstream ++ req.pathAndQuery) = .ok url)
    (htransparent : ∀ exchange,
      Produces libs state exchange req response →
        Transparent (proxyHandler libs exchange state req) response) :
    PassedOn libs state req url := by
  classical
  let asked := fun request : Request =>
    ∃ url, RequestsResource libs state req url ∧
      request = req.addressedTo url
  let exchange : Exchange := fun _ request =>
    .ok (if asked request then response else otherAnswer response)
  have hproduces : Produces libs state exchange req response := by
    intro url hresource
    have hasked : asked (req.addressedTo url) := ⟨url, hresource, rfl⟩
    simp only [exchange, if_pos hasked]
  have hsend : send libs exchange state req =
      execute libs.toRedirectLibs exchange maxRedirects 0
        { req.addressedTo url with
          method := (libs.parseMethod req.method).getD "GET" } := by
    rw [send, proxyRequest_of_parseUrl hparsed]
    rfl
  by_cases hasked : asked { req.addressedTo url with
      method := (libs.parseMethod req.method).getD "GET" }
  · obtain ⟨found, hresource, hsame⟩ := hasked
    have hurl : url = found := congrArg Request.url hsame
    subst hurl
    exact ⟨hbody, hparsed, hresource, congrArg Request.method hsame⟩
  · have hother : send libs exchange state req =
        .ok (otherAnswer response) := by
      rw [hsend]
      apply execute_of_final
      · simp only [exchange, if_neg hasked]
      · exact redirectLocation_otherAnswer _ _ _
    exact absurd (htransparent exchange hproduces)
      (not_transparent_of_otherAnswer hother)

theorem PassedOn.proxyRequest_eq
    {libs : ProxyLibs} {state : AppState} {req : HttpRequest} {url : String}
    (hpassed : PassedOn libs state req url) :
    proxyRequest libs state req = .ok (req.addressedTo url) := by
  rw [proxyRequest_of_parseUrl hpassed.parsed, hpassed.method]
  rfl

/-- For every request and every response of the upstream that can be read:
the caller gets what the upstream has for the path and the query of the
request, however the servers behind a redirect answer, if and only if the
request is passed on as it is and the response does not lead to another
location and has no header twice; or nothing is sent, and the answer happens
to be the same. -/
theorem proxy_transparent_iff
    (libs : ProxyLibs) (state : AppState) (req : HttpRequest)
    (response : Response) (hreadable : Readable response) :
    (∀ exchange : Exchange, Produces libs state exchange req response →
        Transparent (proxyService libs exchange state req) response) ↔
      (∃ url, PassedOn libs state req url ∧
        redirectLocation libs.toRedirectLibs (req.addressedTo url)
          response = none ∧
        (response.headers.map Prod.fst).Nodup) ∨
      ∃ own, AnsweredAlone libs state req own ∧
        Transparent own response := by
  constructor
  · intro htransparent
    by_cases hbody : libs.bodyLimit < req.body.length
    · right
      refine ⟨_, .tooLarge hbody, ?_⟩
      have hreceived := htransparent (fun _ _ => .ok response)
        fun _ _ => rfl
      rwa [proxyService, if_pos hbody] at hreceived
    have hhandler : ∀ exchange,
        Produces libs state exchange req response →
          Transparent (proxyHandler libs exchange state req) response := by
      intro exchange hproduces
      have hreceived := htransparent exchange hproduces
      rwa [proxyService, if_neg hbody] at hreceived
    have hwithin := Nat.le_of_not_lt hbody
    cases hparsed : libs.parseUrl (state.upstream ++ req.pathAndQuery) with
    | error message =>
        right
        have halone : AnsweredAlone libs state req
            (badGateway libs s!"upstream unreachable: {message}") :=
          .unparsed hwithin hparsed
        refine ⟨_, halone, ?_⟩
        rw [← halone.proxyService_eq fun _ _ => .ok response]
        exact htransparent _ fun _ _ => rfl
    | ok url =>
        left
        have hpassed := passedOn_of_transparent hwithin hparsed hhandler
        have hfinal : redirectLocation libs.toRedirectLibs
            (req.addressedTo url) response = none := by
          by_contra hleads
          obtain ⟨location, hlocation⟩ :=
            Option.ne_none_iff_exists'.mp hleads
          exact not_transparent_of_redirect hpassed.proxyRequest_eq
            hlocation (hhandler (answeredElsewhere response) fun _ _ => rfl)
        refine ⟨url, hpassed, hfinal, ?_⟩
        have hanswer : send libs (fun _ _ => .ok response) state req =
            .ok response := by
          rw [send, hpassed.proxyRequest_eq]
          exact execute_of_final rfl hfinal
        exact (proxyHandler_of_answer hreadable hanswer).mp
          (hhandler (fun _ _ => .ok response) fun _ _ => rfl)
  · rintro (⟨url, hpassed, hfinal, hnodup⟩ | ⟨own, halone, hsame⟩)
      exchange hproduces
    · rw [proxyService, if_neg (not_lt.mpr hpassed.body)]
      refine (proxyHandler_of_answer hreadable ?_).mpr hnodup
      rw [send, hpassed.proxyRequest_eq]
      exact execute_of_final (hproduces url hpassed.resource) hfinal
    · rw [halone.proxyService_eq exchange]
      exact hsame

/-! ## A page, two cookies and a login -/

/-- The parts of a URL of `http`; an empty path is the root. -/
def sampleResource (url : String) : Resource :=
  let rest := url.toList.drop "http://".length
  let authority := rest.takeWhile fun char => char != '/' && char != '?'
  let target := rest.drop authority.length
  let path := target.takeWhile fun char => char != '?'
  { origin := "http://" ++ String.ofList authority
    path := if path = [] then "/" else String.ofList path
    query :=
      match target.drop path.length with
      | [] => none
      | _ :: query => some (String.ofList query) }

/-- Libraries for an application whose locations are paths on the same
host. -/
def sampleLibs : ProxyLibs where
  joinLocation := fun _ location => some ("http://127.0.0.1:8080" ++
    String.ofList (location.map fun byte => Char.ofNat byte.toNat))
  hasHttpScheme := fun _ => true
  headersFor := fun _ _ headers => headers
  parseMethod := some
  parseUrl := .ok
  resource := sampleResource
  jsonError := fun message => asciiBytes message
  bodyLimit := 262144
  bodyTooLarge :=
    { status := ⟨413, by decide⟩
      headers := ∅
      body := asciiBytes "A payload reached size limit." }

def sampleState : AppState := ⟨"http://127.0.0.1:8080"⟩

def getPage : HttpRequest :=
  ⟨"GET", "/page", some "id=1", [("host", asciiBytes "vm.example")], []⟩

/-- A form that is sent to a path of the application. -/
def postForm : HttpRequest :=
  ⟨"POST", "/form", some "id=1", [("host", asciiBytes "vm.example"),
    ("content-type", asciiBytes "text/plain")], asciiBytes "name=vm"⟩

def pageResponse (status : StatusCode) (headers : Headers) : Response :=
  ⟨status, headers, .ok (asciiBytes "page")⟩

theorem readable_pageResponse
    {status : StatusCode} {headers : Headers}
    (hvisible : ∀ header ∈ headers, header.2.all isVisibleAscii = true) :
    Readable (pageResponse status headers) :=
  ⟨hvisible, _, rfl⟩

theorem proxy_transparent_page :
    PassedOn sampleLibs sampleState postForm
        "http://127.0.0.1:8080/form?id=1" ∧
      ∀ exchange : Exchange,
        Produces sampleLibs sampleState exchange postForm
          (pageResponse okStatus
            [("content-type", asciiBytes "text/html")]) →
        Transparent (proxyService sampleLibs exchange sampleState postForm)
          (pageResponse okStatus
            [("content-type", asciiBytes "text/html")]) := by
  have hpassed : PassedOn sampleLibs sampleState postForm
      "http://127.0.0.1:8080/form?id=1" :=
    ⟨by decide, by decide, ⟨"http://127.0.0.1:8080", rfl, by decide⟩, rfl⟩
  refine ⟨hpassed, ?_⟩
  exact (proxy_transparent_iff sampleLibs sampleState postForm
    (pageResponse okStatus [("content-type", asciiBytes "text/html")])
    (readable_pageResponse (by decide))).mpr
      (.inl ⟨_, hpassed, by decide, by decide⟩)

def twoCookies : Response :=
  pageResponse okStatus
    [("set-cookie", asciiBytes "a=1"), ("set-cookie", asciiBytes "b=2")]

def toLogin : Response :=
  pageResponse ⟨302, by decide⟩ [("location", asciiBytes "/login")]

/-- A path with an encoded dot segment, which the parser of URLs resolves. -/
def getDotted : HttpRequest := ⟨"GET", "/a/%2e%2e/b", none, [], []⟩

def dottedLibs : ProxyLibs :=
  { sampleLibs with
    parseUrl := fun text => .ok
      (if text = "http://127.0.0.1:8080/a/%2e%2e/b" then
        "http://127.0.0.1:8080/b" else text) }

/-- The application has nothing at the resolved path. -/
def nothingAtB : Exchange := fun _ request =>
  if request.url = "http://127.0.0.1:8080/b" then
    .ok (pageResponse ⟨404, by decide⟩ [])
  else .ok (pageResponse okStatus [])

/-- Of two cookies the caller gets the second one, instead of a redirection
it gets what is found there, and a path with dots is resolved before the
application sees it. -/
theorem proxy_not_transparent :
    Readable twoCookies ∧ Readable toLogin ∧
    pairs (proxyService sampleLibs (fun _ _ => .ok twoCookies) sampleState
        getPage).headers = {("set-cookie", asciiBytes "b=2")} ∧
    ¬ Transparent (proxyService sampleLibs (fun _ _ => .ok twoCookies)
        sampleState getPage) twoCookies ∧
    (proxyService sampleLibs (answeredElsewhere toLogin) sampleState
        getPage).status = okStatus ∧
    ¬ Transparent (proxyService sampleLibs (answeredElsewhere toLogin)
        sampleState getPage) toLogin ∧
    Produces dottedLibs sampleState nothingAtB getDotted
      (pageResponse okStatus []) ∧
    ¬ Transparent (proxyService dottedLibs nothingAtB sampleState getDotted)
      (pageResponse okStatus []) := by
  have hcookie : pairs (proxyService sampleLibs (fun _ _ => .ok twoCookies)
      sampleState getPage).headers =
        {("set-cookie", asciiBytes "b=2")} := by
    decide
  have hstatus : (proxyService sampleLibs (answeredElsewhere toLogin)
      sampleState getPage).status = okStatus := by
    decide
  have hnothing : (proxyService dottedLibs nothingAtB sampleState
      getDotted).status = ⟨404, by decide⟩ := by
    decide
  refine ⟨readable_pageResponse (by decide),
    readable_pageResponse (by decide), hcookie, ?_, hstatus, ?_, ?_, ?_⟩
  · intro htransparent
    have hheaders := htransparent.headers
    rw [hcookie] at hheaders
    exact absurd (congrArg Multiset.card hheaders) (by decide)
  · intro htransparent
    have hsame := htransparent.status
    rw [hstatus] at hsame
    exact absurd hsame (by decide)
  · rintro url ⟨base, hbase, hresource⟩
    apply if_neg
    intro hresolved
    have hpath : withoutSlash (dottedLibs.resource base).path ++
        getDotted.path = "/b" := by
      rw [show url = "http://127.0.0.1:8080/b" from hresolved] at hresource
      exact (congrArg Resource.path hresource).symm
    cases hbase
    exact absurd hpath (by decide)
  · intro htransparent
    have hsame := htransparent.status
    rw [hnothing] at hsame
    exact absurd hsame (by decide)

end AlephCvm.Proxy
