import Mathlib.Data.List.AList
import AlephCvm.TeeTypes
import AlephCvm.IterationOrder

/-!
# Secret injection in the attestation agent

Model of `aleph-attest-agent/src/secrets.rs`.  The handler holds its lock for
the whole request, so the requests are served one after the other in some
order of arrival.  Every exchange lists the files that it opened for writing
with what ended up in them; the failures of the file system are parameters.
-/

namespace AlephCvm.Secrets

open AlephCvm.Tee (Bytes)

def secretsDir : String := "/tmp/secrets"

def maxSecrets : ℕ := 16

def maxKeyLen : ℕ := 64

def maxValueSize : ℕ := 64 * 1024

/-- `Path::join`: an absolute path takes the place of the base. -/
def joinPath (base name : String) : String :=
  if name.toList.head? = some '/' then name
  else if base.isEmpty || base.toList.getLast? == some '/' then base ++ name
  else base ++ "/" ++ name

structure SecretFile where
  content : Bytes
  mode : ℕ
  deriving DecidableEq, Repr

structure InjectionLock where
  poisoned : Bool
  value : Option Unit
  deriving DecidableEq, Repr

def InjectionLock.new : InjectionLock := ⟨false, none⟩

/-- The static lock, and the part of the file system the handler writes. -/
structure InjectionState where
  lock : InjectionLock
  secretsDirExists : Bool
  files : AList fun _ : String => SecretFile

structure InjectSecretRequest where
  secrets : AList fun _ : String => String

inductive HttpResponse
  | internalServerError (error : String)
  | conflict (error : String)
  | badRequest (error : String)
  | ok (injected : List String)
  deriving DecidableEq, Repr

/-- How opening a file and writing all of a secret to it can end. -/
inductive WriteOutcome
  | written
  | refused
  | cut (length : ℕ)
  deriving DecidableEq, Repr

/-- A request together with what the file system does for it, and the order
in which its map of secrets is traversed. -/
structure Arrival where
  body : InjectSecretRequest
  order : IterationOrder
  dirCreated : Bool
  outcome : String → WriteOutcome

structure FileWrite where
  path : String
  content : Bytes
  deriving DecidableEq, Repr

/-- Opening truncates a file that exists, and it keeps its mode. -/
def writeFile (files : AList fun _ : String => SecretFile)
    (write : FileWrite) : AList fun _ : String => SecretFile :=
  let mode := match files.lookup write.path with
    | some existing => existing.mode
    | none => 0o600
  files.insert write.path ⟨write.content, mode⟩

def applyWrites (files : AList fun _ : String => SecretFile)
    (writes : List FileWrite) : AList fun _ : String => SecretFile :=
  writes.foldl writeFile files

/-! ## The handler -/

def secretError (key value : String) : Option String :=
  if key.isEmpty || maxKeyLen < key.utf8ByteSize then
    some (s!"secret key length must be 1-{maxKeyLen}, " ++
      s!"got {key.utf8ByteSize}")
  else if !key.toList.all fun c => c.isAlphanum || c == '_' || c == '-' then
    some ("invalid secret key: must be alphanumeric/underscore/hyphen, " ++
      s!"got: {key}")
  else if maxValueSize < value.utf8ByteSize then
    some (s!"secret value too large for key '{key}': max {maxValueSize} " ++
      s!"bytes, got {value.utf8ByteSize}")
  else none

def bodyError (secrets : List (String × String)) : Option String :=
  if secrets.isEmpty then some "no secrets provided"
  else if maxSecrets < secrets.length then
    some s!"too many secrets: max {maxSecrets}, got {secrets.length}"
  else secrets.findSome? fun secret => secretError secret.1 secret.2

def secretPath (key : String) : String := joinPath secretsDir key

def secretBytes (value : String) : Bytes := value.toUTF8.toList

/-- The writes of the loop, and the key at which it stopped, if any. -/
def writeSecrets (outcome : String → WriteOutcome) :
    List (String × String) → List FileWrite × Option String
  | [] => ([], none)
  | (key, value) :: rest =>
      match outcome key with
      | .written =>
          let (writes, failed) := writeSecrets outcome rest
          (⟨secretPath key, secretBytes value⟩ :: writes, failed)
      | .refused => ([], some key)
      | .cut length =>
          ([⟨secretPath key, (secretBytes value).take length⟩], some key)

/-- The entries of the map, in the order of this traversal. -/
def Arrival.secrets (arrival : Arrival) : List (String × String) :=
  (arrival.order.arrange arrival.body.secrets.entries).map
    fun entry => (entry.1, entry.2)

structure Exchange where
  arrival : Arrival
  before : InjectionState
  response : HttpResponse
  writes : List FileWrite
  after : InjectionState

def injectSecretHandler (state : InjectionState) (arrival : Arrival) :
    Exchange :=
  let answer := fun response =>
    Exchange.mk arrival state response [] state
  if state.lock.poisoned then
    answer (.internalServerError "internal lock error")
  else if state.lock.value.isSome then
    answer (.conflict "secrets already injected")
  else match bodyError arrival.secrets with
  | some message => answer (.badRequest message)
  | none =>
      if arrival.dirCreated = false then
        answer (.internalServerError "failed to create secrets directory")
      else
        let (writes, failed) := writeSecrets arrival.outcome arrival.secrets
        let after : InjectionState :=
          { lock := { state.lock with value := some () }
            secretsDirExists := true
            files := applyWrites state.files writes }
        match failed with
        | some key =>
            ⟨arrival, state, .internalServerError
              s!"failed to write secret: {key}", writes, after⟩
        | none =>
            ⟨arrival, state, .ok (arrival.secrets.map Prod.fst), writes,
              after⟩

/-- The requests are served in the order in which they take the lock. -/
def serve (state : InjectionState) : List Arrival → List Exchange
  | [] => []
  | arrival :: rest =>
      let exchange := injectSecretHandler state arrival
      exchange :: serve exchange.after rest

/-! ## The exits of the handler -/

/-- The six exits; the last two use up the injection. -/
inductive Serves (state : InjectionState) (arrival : Arrival) :
    Exchange → Prop
  | poisoned (hlock : state.lock.poisoned = true) :
      Serves state arrival
        ⟨arrival, state, .internalServerError "internal lock error", [],
          state⟩
  | conflict (hlock : state.lock.value = some ()) :
      Serves state arrival
        ⟨arrival, state, .conflict "secrets already injected", [], state⟩
  | badRequest (message : String) (hfresh : state.lock.value = none)
      (hbody : bodyError arrival.secrets = some message) :
      Serves state arrival
        ⟨arrival, state, .badRequest message, [], state⟩
  | noDirectory (hfresh : state.lock.value = none) :
      Serves state arrival
        ⟨arrival, state,
          .internalServerError "failed to create secrets directory", [],
          state⟩
  | stopped (key : String) (writes : List FileWrite)
      (hfresh : state.lock.value = none)
      (hbody : bodyError arrival.secrets = none)
      (hwrites : writeSecrets arrival.outcome arrival.secrets =
        (writes, some key)) :
      Serves state arrival
        ⟨arrival, state,
          .internalServerError s!"failed to write secret: {key}", writes,
          ⟨{ state.lock with value := some () }, true,
            applyWrites state.files writes⟩⟩
  | injected (writes : List FileWrite)
      (hfresh : state.lock.value = none)
      (hbody : bodyError arrival.secrets = none)
      (hwrites : writeSecrets arrival.outcome arrival.secrets =
        (writes, none)) :
      Serves state arrival
        ⟨arrival, state, .ok (arrival.secrets.map Prod.fst), writes,
          ⟨{ state.lock with value := some () }, true,
            applyWrites state.files writes⟩⟩

theorem injectSecretHandler_serves (state : InjectionState)
    (arrival : Arrival) :
    Serves state arrival (injectSecretHandler state arrival) := by
  unfold injectSecretHandler
  by_cases hpoisoned : state.lock.poisoned = true
  · rw [if_pos hpoisoned]
    exact Serves.poisoned hpoisoned
  rw [if_neg hpoisoned]
  cases hvalue : state.lock.value with
  | some used => exact Serves.conflict hvalue
  | none =>
      cases hbody : bodyError arrival.secrets with
      | some message => exact Serves.badRequest message hvalue hbody
      | none =>
          simp only [Option.isSome_none, Bool.false_eq_true, if_false]
          by_cases hdir : arrival.dirCreated = false
          · rw [if_pos hdir]
            exact Serves.noDirectory hvalue
          rw [if_neg hdir]
          cases hwrites : writeSecrets arrival.outcome arrival.secrets with
          | mk writes failed =>
              cases failed with
              | none => exact Serves.injected writes hvalue hbody hwrites
              | some key =>
                  exact Serves.stopped key writes hvalue hbody hwrites

variable {state : InjectionState} {arrival : Arrival} {exchange : Exchange}

theorem Serves.arrival_eq (hserves : Serves state arrival exchange) :
    exchange.arrival = arrival := by
  cases hserves <;> rfl

theorem Serves.lock_kept (hserves : Serves state arrival exchange)
    (hlock : state.lock.poisoned = false) :
    exchange.after.lock.poisoned = false := by
  cases hserves <;> exact hlock

theorem Serves.files_eq (hserves : Serves state arrival exchange) :
    exchange.after.files =
      applyWrites exchange.before.files exchange.writes := by
  cases hserves <;> rfl

theorem Serves.badRequest_inv (hserves : Serves state arrival exchange)
    {message : String} (hresponse : exchange.response = .badRequest message) :
    exchange.writes = [] ∧ exchange.after = exchange.before := by
  cases hserves with
  | badRequest => exact ⟨rfl, rfl⟩
  | poisoned | conflict | noDirectory | stopped | injected =>
      cases hresponse

/-- Whoever writes uses up the injection. -/
theorem Serves.consumed_of_writes (hserves : Serves state arrival exchange)
    (hwrites : exchange.writes ≠ []) :
    exchange.after.lock.value = some () := by
  cases hserves with
  | stopped | injected => rfl
  | poisoned | conflict | badRequest | noDirectory =>
      exact absurd rfl hwrites

theorem Serves.conflict_of_consumed
    (hserves : Serves state arrival exchange)
    (hlock : state.lock.poisoned = false)
    (hconsumed : state.lock.value = some ()) :
    exchange = ⟨arrival, state, .conflict "secrets already injected", [],
      state⟩ := by
  cases hserves with
  | conflict => rfl
  | poisoned hpoisoned =>
      rw [hlock] at hpoisoned
      cases hpoisoned
  | badRequest _ hfresh | noDirectory hfresh | stopped _ _ hfresh
  | injected _ hfresh =>
      rw [hfresh] at hconsumed
      cases hconsumed

/-! ## What is written, and where -/

/-- A name that stands for an entry of the directory it is joined to. -/
structure IsFileName (name : String) : Prop where
  ne_empty : name ≠ ""
  ne_self : name ≠ "."
  ne_parent : name ≠ ".."
  no_separator : '/' ∉ name.toList

theorem isFileName_of_secretError {key value : String}
    (hvalid : secretError key value = none) : IsFileName key := by
  unfold secretError at hvalid
  split_ifs at hvalid with hlength hchars
  have hall : ∀ c ∈ key.toList,
      (c.isAlphanum || c == '_' || c == '-') = true := by
    simpa only [Bool.not_eq_true', Bool.not_eq_false, List.all_eq_true]
      using hchars
  constructor
  · intro hempty
    subst hempty
    simp at hlength
  · intro hself
    subst hself
    exact absurd (hall '.' (by decide)) (by decide)
  · intro hparent
    subst hparent
    exact absurd (hall '.' (by decide)) (by decide)
  · intro hslash
    exact absurd (hall '/' hslash) (by decide)

theorem secretPath_eq {key : String} (hname : IsFileName key) :
    secretPath key = secretsDir ++ "/" ++ key := by
  have hrelative : key.toList.head? ≠ some '/' := by
    intro hhead
    exact hname.no_separator (List.mem_of_mem_head? hhead)
  have hbase : (secretsDir.isEmpty ||
      secretsDir.toList.getLast? == some '/') = false := by decide
  simp [secretPath, joinPath, hrelative, hbase]

theorem secretError_of_bodyError {secrets : List (String × String)}
    (hbody : bodyError secrets = none) {key value : String}
    (hmem : (key, value) ∈ secrets) : secretError key value = none := by
  unfold bodyError at hbody
  split_ifs at hbody
  exact List.findSome?_eq_none_iff.mp hbody (key, value) hmem

theorem Arrival.mem_secrets (arrival : Arrival) {key value : String} :
    (key, value) ∈ arrival.secrets ↔
      arrival.body.secrets.lookup key = some value := by
  unfold Arrival.secrets
  rw [← Option.mem_def, AList.mem_lookup_iff]
  simp only [List.mem_map, IterationOrder.mem_arrange, Prod.mk.injEq]
  constructor
  · rintro ⟨⟨name, text⟩, hentry, rfl, rfl⟩
    exact hentry
  · intro hentry
    exact ⟨⟨key, value⟩, hentry, rfl, rfl⟩

/-- Only the last write can be short, and the loop then stops at its key. -/
theorem mem_writeSecrets {outcome : String → WriteOutcome}
    {secrets : List (String × String)} {writes : List FileWrite}
    {failed : Option String}
    (hwrites : writeSecrets outcome secrets = (writes, failed))
    {write : FileWrite} (hmem : write ∈ writes) :
    ∃ key value, (key, value) ∈ secrets ∧
      write.path = secretPath key ∧
      (write.content = secretBytes value ∨
        write.content <+: secretBytes value ∧
          writes.getLast? = some write ∧ failed = some key) := by
  induction secrets generalizing writes with
  | nil =>
      cases hwrites
      cases hmem
  | cons secret rest ih =>
      obtain ⟨key, value⟩ := secret
      unfold writeSecrets at hwrites
      cases hresult : outcome key with
      | refused =>
          rw [hresult] at hwrites
          cases hwrites
          cases hmem
      | cut length =>
          rw [hresult] at hwrites
          cases hwrites
          rw [List.mem_singleton] at hmem
          subst hmem
          exact ⟨key, value, List.mem_cons_self, rfl,
            Or.inr ⟨List.take_prefix _ _, rfl, rfl⟩⟩
      | written =>
          rw [hresult] at hwrites
          cases hrest : writeSecrets outcome rest with
          | mk later stopped =>
              simp only [hrest, Prod.mk.injEq] at hwrites
              obtain ⟨rfl, rfl⟩ := hwrites
              rcases List.mem_cons.mp hmem with rfl | hlater
              · exact ⟨key, value, List.mem_cons_self, rfl, Or.inl rfl⟩
              · obtain ⟨name, text, hsecret, hpath, hcontent⟩ :=
                  ih hrest hlater
                refine ⟨name, text, List.mem_cons_of_mem _ hsecret, hpath,
                  ?_⟩
                rcases hcontent with hfull | ⟨hshort, hlast, hfailed⟩
                · exact Or.inl hfull
                · right
                  refine ⟨hshort, ?_, hfailed⟩
                  rw [List.getLast?_cons, hlast, Option.getD_some]

/-- The write puts a secret of the request into the entry of the secrets
directory that its key names; short of the end only as the last write of a
request that reports it. -/
def WritesSecret (exchange : Exchange) (write : FileWrite) : Prop :=
  ∃ key value, exchange.arrival.body.secrets.lookup key = some value ∧
    IsFileName key ∧ write.path = secretsDir ++ "/" ++ key ∧
    (write.content = secretBytes value ∨
      write.content <+: secretBytes value ∧
        exchange.writes.getLast? = some write ∧
        exchange.response = .internalServerError
          s!"failed to write secret: {key}")

/-- What is written for a body that passed the check is a secret of it. -/
theorem writesSecret_of_writes
    {exchange : Exchange} {failed : Option String}
    (hbody : bodyError exchange.arrival.secrets = none)
    (hwrites : writeSecrets exchange.arrival.outcome
      exchange.arrival.secrets = (exchange.writes, failed))
    (hfailed : ∀ key, failed = some key →
      exchange.response = .internalServerError
        s!"failed to write secret: {key}")
    {write : FileWrite} (hmem : write ∈ exchange.writes) :
    WritesSecret exchange write := by
  obtain ⟨key, value, hsecret, hpath, hcontent⟩ :=
    mem_writeSecrets hwrites hmem
  have hname := isFileName_of_secretError
    (secretError_of_bodyError hbody hsecret)
  refine ⟨key, value, exchange.arrival.mem_secrets.mp hsecret, hname,
    hpath.trans (secretPath_eq hname), ?_⟩
  rcases hcontent with hfull | ⟨hshort, hlast, hstopped⟩
  · exact Or.inl hfull
  · exact Or.inr ⟨hshort, hlast, hfailed key hstopped⟩

theorem Serves.writesSecret (hserves : Serves state arrival exchange)
    {write : FileWrite} (hmem : write ∈ exchange.writes) :
    WritesSecret exchange write := by
  cases hserves with
  | poisoned | conflict | badRequest | noDirectory => cases hmem
  | stopped failed writes hfresh hbody hwrites =>
      apply writesSecret_of_writes hbody hwrites _ hmem
      intro key hkey
      rw [Option.some.inj hkey]
  | injected writes hfresh hbody hwrites =>
      apply writesSecret_of_writes hbody hwrites _ hmem
      intro key hkey
      cases hkey

/-! ## Sequences of requests -/

theorem serve_arrivals (state : InjectionState) (arrivals : List Arrival) :
    (serve state arrivals).map Exchange.arrival = arrivals := by
  induction arrivals generalizing state with
  | nil => rfl
  | cons arrival rest ih =>
      have harrival :=
        (injectSecretHandler_serves state arrival).arrival_eq
      simp only [serve, List.map_cons, harrival, ih]

theorem exists_serves_of_mem_serve {arrivals : List Arrival}
    (hmem : exchange ∈ serve state arrivals) :
    ∃ before arrival, Serves before arrival exchange := by
  induction arrivals generalizing state with
  | nil => cases hmem
  | cons arrival rest ih =>
      rcases List.mem_cons.mp hmem with rfl | hlater
      · exact ⟨state, arrival, injectSecretHandler_serves state arrival⟩
      · exact ih hlater

/-- The answer to everybody who comes after the injection. -/
def Refused (exchange : Exchange) : Prop :=
  exchange.response = .conflict "secrets already injected" ∧
    exchange.writes = [] ∧ exchange.after = exchange.before

theorem refused_of_consumed {arrivals : List Arrival}
    (hlock : state.lock = ⟨false, some ()⟩)
    (hmem : exchange ∈ serve state arrivals) : Refused exchange := by
  induction arrivals generalizing state with
  | nil => cases hmem
  | cons arrival rest ih =>
      have hfirst :=
        (injectSecretHandler_serves state arrival).conflict_of_consumed
          (by rw [hlock]) (by rw [hlock])
      rw [serve, hfirst] at hmem
      rcases List.mem_cons.mp hmem with rfl | hlater
      · exact ⟨rfl, rfl, rfl⟩
      · exact ih hlock hlater

theorem refused_after_write (arrivals : List Arrival)
    (hlock : state.lock.poisoned = false) :
    (serve state arrivals).Pairwise fun first second =>
      first.writes ≠ [] → Refused second := by
  induction arrivals generalizing state with
  | nil => exact List.Pairwise.nil
  | cons arrival rest ih =>
      have hserves := injectSecretHandler_serves state arrival
      have hkept := hserves.lock_kept hlock
      constructor
      · intro second hsecond hwrites
        have hconsumed := hserves.consumed_of_writes hwrites
        apply refused_of_consumed _ hsecond
        rw [← hkept, ← hconsumed]
      · exact ih hkept

theorem length_filter_le_one {α : Type*} {p : α → Bool} {items : List α}
    (hpair : items.Pairwise fun first second =>
      p first = true → p second = false) :
    (items.filter p).length ≤ 1 := by
  induction items with
  | nil => simp
  | cons item rest ih =>
      rw [List.pairwise_cons] at hpair
      by_cases hitem : p item = true
      · have hnone : rest.filter p = [] := by
          rw [List.filter_eq_nil_iff]
          intro other hother
          simp [hpair.1 other hother hitem]
        simp [hitem, hnone]
      · simpa [hitem] using ih hpair.2

/-- From the start of the agent at most one request writes, everybody after
it is refused, a bad request leaves no trace, and the files that are written
are those of the secrets of their request. -/
theorem injection_one_shot_and_confined (secretsDirExists : Bool)
    (files : AList fun _ : String => SecretFile)
    (arrivals : List Arrival) :
    let exchanges :=
      serve ⟨InjectionLock.new, secretsDirExists, files⟩ arrivals
    exchanges.map Exchange.arrival = arrivals ∧
    (exchanges.filter fun exchange => !exchange.writes.isEmpty).length ≤ 1 ∧
    (exchanges.Pairwise fun first second =>
      first.writes ≠ [] → Refused second) ∧
    ∀ exchange ∈ exchanges,
      (∀ message, exchange.response = .badRequest message →
        exchange.writes = [] ∧ exchange.after = exchange.before) ∧
      (∀ write ∈ exchange.writes, WritesSecret exchange write) ∧
      exchange.after.files =
        applyWrites exchange.before.files exchange.writes := by
  have hrefused := @refused_after_write
    ⟨InjectionLock.new, secretsDirExists, files⟩ arrivals rfl
  refine ⟨serve_arrivals _ arrivals, ?_, hrefused, ?_⟩
  · apply length_filter_le_one
    apply hrefused.imp
    intro first second hrefuse hwrote
    have hnone := (hrefuse (by simpa using hwrote)).2.1
    simp [hnone]
  · intro exchange hmem
    obtain ⟨before, arrival, hserves⟩ := exists_serves_of_mem_serve hmem
    refine ⟨?_, ?_, hserves.files_eq⟩
    · intro message hresponse
      exact hserves.badRequest_inv hresponse
    · intro write hwrite
      exact hserves.writesSecret hwrite

end AlephCvm.Secrets
