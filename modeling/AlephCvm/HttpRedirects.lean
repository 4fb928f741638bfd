import Mathlib.Data.List.Basic
import Mathlib.Data.Nat.Notation

/-!
# A client that follows redirects

Requests and responses of HTTP with their headers in order, and a client that
answers a response of redirection with another request, up to a number of
times.  The server is a function of the hop and the request; resolving a
location and the headers for another host are parameters.
-/

namespace HttpRedirects

abbrev HeaderValue := List UInt8
abbrev Headers := List (String × HeaderValue)

structure StatusCode where
  code : ℕ
  valid : 100 ≤ code ∧ code < 1000
  deriving DecidableEq, Repr

def StatusCode.fromU16 (code : ℕ) : Option StatusCode :=
  if hvalid : 100 ≤ code ∧ code < 1000 then some ⟨code, hvalid⟩ else none

@[simp] theorem StatusCode.fromU16_code (status : StatusCode) :
    fromU16 status.code = some status :=
  dif_pos status.valid

structure Request where
  url : String
  method : String
  headers : Headers
  body : List UInt8
  deriving DecidableEq, Repr

/-- The body is read after the head, and reading it may fail. -/
structure Response where
  status : StatusCode
  headers : Headers
  body : Except String (List UInt8)

structure RedirectLibs where
  joinLocation : String → HeaderValue → Option String
  hasHttpScheme : String → Bool
  headersFor : String → String → Headers → Headers

/-- How the servers answer, hop by hop. -/
abbrev Exchange := ℕ → Request → Except String Response

def isRedirection (status : StatusCode) : Bool :=
  [301, 302, 303, 307, 308].contains status.code

/-- Where a response of redirection leads, when it says so. -/
def redirectLocation (libs : RedirectLibs) (request : Request)
    (response : Response) : Option String :=
  if isRedirection response.status then
    (response.headers.find? fun header => header.1 == "location").bind
      fun header => libs.joinLocation request.url header.2
  else none

def payloadHeaders : List String :=
  ["content-type", "content-length", "content-encoding", "transfer-encoding"]

def Request.withoutPayload (request : Request) (method : String) : Request :=
  { request with
    method := method
    headers := request.headers.filter fun header =>
      !payloadHeaders.contains header.1
    body := [] }

/-- The request that follows a redirection. -/
def redirected (libs : RedirectLibs) (request : Request)
    (status : StatusCode) (location : String) : Request :=
  let kept :=
    if status.code = 303 then
      request.withoutPayload
        (if request.method = "HEAD" then "HEAD" else "GET")
    else if (status.code = 301 ∨ status.code = 302) ∧
        request.method = "POST" then
      request.withoutPayload "GET"
    else request
  { kept with
    url := location
    headers := libs.headersFor request.url location kept.headers }

/-- The first number is how many redirects are still followed. -/
def execute (libs : RedirectLibs) (exchange : Exchange) :
    ℕ → ℕ → Request → Except String Response
  | redirects, hop, request =>
      match exchange hop request with
      | .error message => .error message
      | .ok response =>
          match redirectLocation libs request response with
          | none => .ok response
          | some location =>
              match redirects with
              | 0 => .error "too many redirects"
              | redirects + 1 =>
                  if libs.hasHttpScheme location then
                    execute libs exchange redirects (hop + 1)
                      (redirected libs request response.status location)
                  else .error "URL scheme is not allowed"

variable {libs : RedirectLibs} {exchange : Exchange} {redirects hop : ℕ}
  {request : Request} {response : Response}

/-- A response that leads nowhere else is the answer. -/
theorem execute_of_final
    (hanswer : exchange hop request = .ok response)
    (hfinal : redirectLocation libs request response = none) :
    execute libs exchange redirects hop request = .ok response := by
  unfold execute
  simp only [hanswer, hfinal]

theorem execute_of_redirect
    {location : String} (hanswer : exchange hop request = .ok response)
    (hlocation : redirectLocation libs request response = some location)
    (hscheme : libs.hasHttpScheme location = true) :
    execute libs exchange (redirects + 1) hop request =
      execute libs exchange redirects (hop + 1)
        (redirected libs request response.status location) := by
  rw [execute]
  simp only [hanswer, hlocation, hscheme, if_true]

theorem execute_of_foreign_scheme
    {location : String} (hanswer : exchange hop request = .ok response)
    (hlocation : redirectLocation libs request response = some location)
    (hscheme : libs.hasHttpScheme location = false) :
    ∃ message,
      execute libs exchange redirects hop request = .error message := by
  unfold execute
  simp only [hanswer, hlocation, hscheme]
  cases redirects with
  | zero => exact ⟨_, rfl⟩
  | succ redirects => exact ⟨_, rfl⟩

theorem isRedirection_of_redirectLocation
    {location : String}
    (hlocation : redirectLocation libs request response = some location) :
    isRedirection response.status = true := by
  unfold redirectLocation at hlocation
  split_ifs at hlocation with hredirection
  exact hredirection

end HttpRedirects
