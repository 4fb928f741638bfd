import Mathlib.Data.List.Perm.Basic

/-!
# Programs made of atomic actions

A call is a program that performs one atomic action after the other on a
shared state; the response of an action decides how the program goes on.
Several calls run at the same time, and their actions may be taken in any
order.  An action can be blocked, in which case nothing happens.

The state of a running call is a program, which says nothing about how the
call got there.  A protocol attaches a ghost to every call: a summary of the
actions that it has performed.  A program follows a protocol when it performs
an action only where the protocol allows it, so that the ghosts of a pool
describe what its calls can do next.

Invariants are stated about the shared state and the ghosts.  `Assertions`
collects the shapes that occur: a property of the shared state, a property of
the shared state and one ghost, a property of two ghosts, and a demand that
some call accounts for.
-/

namespace AtomicPrograms

inductive Program (Act : Type) (Res : Act → Type) (α : Type) where
  | done (value : α)
  | perform (act : Act) (next : Res act → Program Act Res α)

variable {Act : Type} {Res : Act → Type} {α β : Type}

def Program.bind (program : Program Act Res α)
    (next : α → Program Act Res β) : Program Act Res β :=
  match program with
  | .done value => next value
  | .perform act rest => .perform act fun response =>
      (rest response).bind next

instance Program.monad : Monad (Program Act Res) where
  pure := .done
  bind := .bind

def Program.action (act : Act) : Program Act Res (Res act) :=
  .perform act .done

/-- The program without others, on an environment whose choices are fixed. -/
def Program.alone {σ : Type}
    (exec : (act : Act) → σ → Option (Res act × σ)) :
    Program Act Res α → σ → Option (α × σ)
  | .done value, shared => some (value, shared)
  | .perform act next, shared =>
      match exec act shared with
      | none => none
      | some (response, reached) => (next response).alone exec reached

theorem Program.alone_bind {σ : Type}
    {exec : (act : Act) → σ → Option (Res act × σ)}
    (program : Program Act Res α) (next : α → Program Act Res β)
    (shared : σ) :
    (program >>= next).alone exec shared =
      (program.alone exec shared).bind fun reached =>
        (next reached.1).alone exec reached.2 := by
  induction program generalizing shared with
  | done value => rfl
  | perform act rest ih =>
      have hbind : (Program.perform act rest >>= next) =
          .perform act fun response => rest response >>= next := rfl
      rw [hbind]
      simp only [alone]
      cases exec act shared with
      | none => rfl
      | some reached => exact ih reached.1 reached.2

theorem Program.alone_action {σ : Type}
    {exec : (act : Act) → σ → Option (Res act × σ)} (act : Act)
    (shared : σ) :
    (Program.action act).alone exec shared = exec act shared := by
  simp only [action, alone]
  cases exec act shared <;> rfl

/-- Every action that the program may perform has the first property, and
every value that it may return the second. -/
def Program.Within (P : Act → Prop) (R : α → Prop) :
    Program Act Res α → Prop
  | .done value => R value
  | .perform act next => P act ∧ ∀ response, (next response).Within P R

theorem Program.within_action_bind
    {P : Act → Prop} {R : α → Prop} {act : Act}
    {next : Res act → Program Act Res α} :
    (Program.action act >>= next).Within P R ↔
      P act ∧ ∀ response, (next response).Within P R := Iff.rfl

theorem Program.within_bind
    {P : Act → Prop} {R : α → Prop} {S : β → Prop}
    {program : Program Act Res α} {next : α → Program Act Res β}
    (hprogram : program.Within P R)
    (hnext : ∀ value, R value → (next value).Within P S) :
    (program >>= next).Within P S := by
  induction program with
  | done value => exact hnext value hprogram
  | perform act rest ih =>
      constructor
      · exact hprogram.1
      · intro response
        exact ih response (hprogram.2 response)

theorem Program.Within.mono
    {P Q : Act → Prop} {R S : α → Prop} {program : Program Act Res α}
    (hwithin : program.Within P R) (hacts : ∀ act, P act → Q act)
    (hvalues : ∀ value, R value → S value) : program.Within Q S := by
  induction program with
  | done value => exact hvalues value hwithin
  | perform act rest ih =>
      constructor
      · exact hacts act hwithin.1
      · intro response
        exact ih response (hwithin.2 response)

/-- Some responses make the program return the value. -/
def Program.MayReturn (value : α) : Program Act Res α → Prop
  | .done result => result = value
  | .perform _ next => ∃ response, (next response).MayReturn value

theorem Program.Within.of_mayReturn
    {P : Act → Prop} {R : α → Prop} {program : Program Act Res α}
    (hwithin : program.Within P R) {value : α}
    (hreturn : program.MayReturn value) : R value := by
  induction program with
  | done result =>
      have hvalue : result = value := hreturn
      rw [← hvalue]
      exact hwithin
  | perform act rest ih =>
      obtain ⟨response, hreturn⟩ := hreturn
      exact ih response (hwithin.2 response) hreturn

/-! ## Calls that run at the same time -/

structure Task (κ : Type) (Act : Type) (Res : Act → Type) (ρ : Type) where
  call : κ
  past : List (Σ act, Res act)
  rest : Program Act Res ρ

structure Pool (σ κ : Type) (Act : Type) (Res : Act → Type)
    (ρ : Type) where
  shared : σ
  tasks : List (Task κ Act Res ρ)

variable {σ κ ρ Γ ι : Type} {ω : Type*}

def Task.result (task : Task κ Act Res ρ) : Option ρ :=
  match task.rest with
  | .done value => some value
  | .perform _ _ => none

/-- Every call has returned. -/
def Pool.Quiet (pool : Pool σ κ Act Res ρ) : Prop :=
  ∀ task ∈ pool.tasks, task.result.isSome = true

instance Pool.Quiet.decidable (pool : Pool σ κ Act Res ρ) :
    Decidable pool.Quiet :=
  inferInstanceAs (Decidable (∀ task ∈ pool.tasks, _))

def Pool.call (program : κ → Program Act Res ρ)
    (pool : Pool σ κ Act Res ρ) (call : κ) : Pool σ κ Act Res ρ :=
  { pool with tasks := pool.tasks ++ [⟨call, [], program call⟩] }

/-- The call takes its next action, with the outcome that the environment
chooses. -/
def Pool.advance
    (exec : ω → (act : Act) → σ → Option (Res act × σ))
    (pool : Pool σ κ Act Res ρ) (index : ℕ) (outcome : ω) :
    Pool σ κ Act Res ρ :=
  match pool.tasks[index]? with
  | none => pool
  | some task =>
      match task.rest with
      | .done _ => pool
      | .perform act next =>
          match exec outcome act pool.shared with
          | none => pool
          | some (response, shared) =>
              ⟨shared, pool.tasks.set index ⟨task.call,
                task.past ++ [⟨act, response⟩], next response⟩⟩

/-! ## Protocols -/

/-- A summary of the actions of a call, with the actions that it allows next
and the results that it allows a call to return.  Only the admitted responses
have to be considered. -/
structure Protocol (κ : Type) (Act : Type) (Res : Act → Type) (ρ Γ : Type)
    where
  start : κ → Γ
  next : Γ → (act : Act) → Res act → Γ
  allowed : Γ → Act → Prop
  admits : (act : Act) → Res act → Prop
  returns : Γ → ρ → Prop

variable (protocol : Protocol κ Act Res ρ Γ)

/-- From the ghost on, the program keeps to the protocol and ends with the
postcondition. -/
def Program.Follows (post : Γ → α → Prop) : Program Act Res α → Γ → Prop
  | .done value, ghost => post ghost value
  | .perform act next, ghost =>
      protocol.allowed ghost act ∧
        ∀ response, protocol.admits act response →
          (next response).Follows post (protocol.next ghost act response)

variable {protocol}

theorem Program.follows_bind
    {post : Γ → β → Prop} {program : Program Act Res α}
    {next : α → Program Act Res β} {ghost : Γ} :
    (program >>= next).Follows protocol post ghost ↔
      program.Follows protocol
        (fun reached value => (next value).Follows protocol post reached)
        ghost := by
  induction program generalizing ghost with
  | done value => exact Iff.rfl
  | perform act rest ih =>
      have hrest : ∀ response, protocol.admits act response →
          (((rest response) >>= next).Follows protocol post
              (protocol.next ghost act response) ↔
            (rest response).Follows protocol
              (fun reached value =>
                (next value).Follows protocol post reached)
              (protocol.next ghost act response)) :=
        fun response _ => ih response
      exact and_congr_right' (forall₂_congr hrest)

theorem Program.follows_action_bind
    {post : Γ → β → Prop} {act : Act}
    {next : Res act → Program Act Res β} {ghost : Γ} :
    (Program.action act >>= next).Follows protocol post ghost ↔
      protocol.allowed ghost act ∧
        ∀ response, protocol.admits act response →
          (next response).Follows protocol post
            (protocol.next ghost act response) := Iff.rfl

theorem Program.Follows.mono
    {post weaker : Γ → α → Prop} {program : Program Act Res α}
    {ghost : Γ} (hfollows : program.Follows protocol post ghost)
    (hweaker : ∀ reached value, post reached value → weaker reached value) :
    program.Follows protocol weaker ghost := by
  induction program generalizing ghost with
  | done value => exact hweaker ghost value hfollows
  | perform act rest ih =>
      constructor
      · exact hfollows.1
      · intro response hadmits
        exact ih response (hfollows.2 response hadmits)

/-- A property of the ghost that every action of the program keeps. -/
theorem Program.Follows.of_invariant
    {P : Act → Prop} {R : α → Prop} {J : Γ → Prop}
    {program : Program Act Res α} {ghost : Γ}
    (hwithin : program.Within P R)
    (hkeeps : ∀ reached act, J reached → P act →
      protocol.allowed reached act ∧
        ∀ response, protocol.admits act response →
          J (protocol.next reached act response))
    (hghost : J ghost) :
    program.Follows protocol (fun reached value => J reached ∧ R value)
      ghost := by
  induction program generalizing ghost with
  | done value => exact ⟨hghost, hwithin⟩
  | perform act rest ih =>
      obtain ⟨hallowed, hnext⟩ := hkeeps ghost act hghost hwithin.1
      constructor
      · exact hallowed
      · intro response hadmits
        exact ih response (hwithin.2 response) (hnext response hadmits)

/-- The actions with the property are allowed in the ghost and do not change
it. -/
def Protocol.Neutral (protocol : Protocol κ Act Res ρ Γ)
    (P : Act → Prop) (ghost : Γ) : Prop :=
  ∀ act, P act → protocol.allowed ghost act ∧
    ∀ response, protocol.admits act response →
      protocol.next ghost act response = ghost

theorem Program.Follows.of_within
    {P : Act → Prop} {R : α → Prop} {post : Γ → α → Prop}
    {program : Program Act Res α} {ghost : Γ}
    (hwithin : program.Within P R) (hneutral : protocol.Neutral P ghost)
    (hpost : ∀ value, R value → post ghost value) :
    program.Follows protocol post ghost := by
  have hsame := Program.Follows.of_invariant
    (J := fun reached => reached = ghost) hwithin (by
      intro reached act hreached hact
      rw [hreached]
      exact hneutral act hact) rfl
  apply hsame.mono
  intro reached value hreached
  rw [hreached.1]
  exact hpost value hreached.2

/-! ## The ghosts of a pool -/

def Task.ghost (protocol : Protocol κ Act Res ρ Γ)
    (task : Task κ Act Res ρ) : Γ :=
  task.past.foldl (fun ghost entry => protocol.next ghost entry.1 entry.2)
    (protocol.start task.call)

def Pool.ghosts (protocol : Protocol κ Act Res ρ Γ)
    (pool : Pool σ κ Act Res ρ) : List Γ :=
  pool.tasks.map (Task.ghost protocol)

/-- What is left of every call keeps to the protocol. -/
def Pool.Follows (protocol : Protocol κ Act Res ρ Γ)
    (pool : Pool σ κ Act Res ρ) : Prop :=
  ∀ task ∈ pool.tasks,
    task.rest.Follows protocol protocol.returns (task.ghost protocol)

theorem Task.ghost_snoc
    (task : Task κ Act Res ρ) (act : Act) (response : Res act)
    (rest : Program Act Res ρ) :
    Task.ghost protocol ⟨task.call, task.past ++ [⟨act, response⟩], rest⟩ =
      protocol.next (task.ghost protocol) act response := by
  simp only [Task.ghost, List.foldl_append, List.foldl_cons,
    List.foldl_nil]

theorem Task.returns_of_result
    {task : Task κ Act Res ρ} {value : ρ}
    (hfollows : task.rest.Follows protocol protocol.returns
      (task.ghost protocol)) (hresult : task.result = some value) :
    protocol.returns (task.ghost protocol) value := by
  unfold Task.result at hresult
  cases hrest : task.rest with
  | done found =>
      rw [hrest] at hresult hfollows
      cases hresult
      exact hfollows
  | perform act next =>
      rw [hrest] at hresult
      cases hresult

/-- The call that acts, its action with the response, and the shared state
that is reached. -/
def Pool.taken
    (exec : ω → (act : Act) → σ → Option (Res act × σ))
    (pool : Pool σ κ Act Res ρ) (index : ℕ) (outcome : ω) :
    Option (Task κ Act Res ρ × (Σ act, Res act) × σ) :=
  match pool.tasks[index]? with
  | none => none
  | some task =>
      match task.rest with
      | .done _ => none
      | .perform act _ =>
          (exec outcome act pool.shared).map fun reached =>
            (task, ⟨act, reached.1⟩, reached.2)

/-- If the step is taken, it meets a condition on the shared state, the
outcome and the ghost of the acting call, and a guard that also looks at the
ghost of every other call. -/
def Pool.Meets
    (exec : ω → (act : Act) → σ → Option (Res act × σ))
    (protocol : Protocol κ Act Res ρ Γ)
    (cond : σ → ω → Γ → (act : Act) → Res act → Prop)
    (guard : σ → ω → Γ → (act : Act) → Res act → Γ → Prop)
    (pool : Pool σ κ Act Res ρ)
    (index : ℕ) (outcome : ω) : Prop :=
  ∀ taken ∈ pool.taken exec index outcome,
    cond pool.shared outcome (taken.1.ghost protocol) taken.2.1.1
        taken.2.1.2 ∧
      ∀ other ∈ pool.tasks.eraseIdx index,
        guard pool.shared outcome (taken.1.ghost protocol) taken.2.1.1
          taken.2.1.2 (other.ghost protocol)

instance Pool.Meets.decidable
    (exec : ω → (act : Act) → σ → Option (Res act × σ))
    (protocol : Protocol κ Act Res ρ Γ)
    (cond : σ → ω → Γ → (act : Act) → Res act → Prop)
    (guard : σ → ω → Γ → (act : Act) → Res act → Γ → Prop)
    [∀ shared outcome ghost act response,
      Decidable (cond shared outcome ghost act response)]
    [∀ shared outcome ghost act response other,
      Decidable (guard shared outcome ghost act response other)]
    (pool : Pool σ κ Act Res ρ) (index : ℕ) (outcome : ω) :
    Decidable (pool.Meets exec protocol cond guard index outcome) :=
  inferInstanceAs (Decidable (∀ taken ∈ pool.taken exec index outcome, _))

theorem Pool.Meets.and
    {exec : ω → (act : Act) → σ → Option (Res act × σ)}
    {first second : σ → ω → Γ → (act : Act) → Res act → Prop}
    {guard : σ → ω → Γ → (act : Act) → Res act → Γ → Prop}
    {pool : Pool σ κ Act Res ρ}
    {index : ℕ} {outcome : ω}
    (hfirst : pool.Meets exec protocol first (fun _ _ _ _ _ _ => True) index
      outcome)
    (hsecond : pool.Meets exec protocol second guard index outcome) :
    pool.Meets exec protocol
      (fun shared outcome ghost act response =>
        first shared outcome ghost act response ∧
          second shared outcome ghost act response) guard index outcome := by
  intro taken htaken
  exact ⟨⟨(hfirst taken htaken).1, (hsecond taken htaken).1⟩,
    (hsecond taken htaken).2⟩

/-- A step is blocked, or one call takes an action. -/
theorem Pool.taken_cases
    (exec : ω → (act : Act) → σ → Option (Res act × σ))
    (pool : Pool σ κ Act Res ρ) (index : ℕ) (outcome : ω) :
    (pool.taken exec index outcome = none ∧
        pool.advance exec index outcome = pool) ∨
      ∃ task act next response shared,
        pool.tasks[index]? = some task ∧
        task.rest = .perform act next ∧
        exec outcome act pool.shared = some (response, shared) ∧
        pool.taken exec index outcome =
          some (task, ⟨act, response⟩, shared) ∧
        pool.advance exec index outcome =
          ⟨shared, pool.tasks.set index ⟨task.call,
            task.past ++ [⟨act, response⟩], next response⟩⟩ := by
  unfold Pool.taken Pool.advance
  cases htask : pool.tasks[index]? with
  | none => exact .inl ⟨rfl, rfl⟩
  | some task =>
      cases hrest : task.rest with
      | done value =>
          left
          simp only [hrest, and_self]
      | perform act next =>
          cases hexec : exec outcome act pool.shared with
          | none =>
              left
              simp only [hrest, hexec, Option.map_none, and_self]
          | some reached =>
              obtain ⟨response, shared⟩ := reached
              right
              refine ⟨task, act, next, response, shared, rfl, hrest, hexec,
                ?_, ?_⟩
              · simp only [hrest, hexec, Option.map_some]
              · simp only [hrest, hexec]

/-- What one step of a call does to the shared state and the ghosts. -/
theorem Pool.advance_cases
    {exec : ω → (act : Act) → σ → Option (Res act × σ)}
    {cond : σ → ω → Γ → (act : Act) → Res act → Prop}
    {guard : σ → ω → Γ → (act : Act) → Res act → Γ → Prop}
    {pool : Pool σ κ Act Res ρ}
    {index : ℕ} {outcome : ω}
    (hmeets : pool.Meets exec protocol cond guard index outcome) :
    pool.advance exec index outcome = pool ∨
      ∃ task act next response shared,
        pool.tasks[index]? = some task ∧
        task.rest = .perform act next ∧
        exec outcome act pool.shared = some (response, shared) ∧
        cond pool.shared outcome (task.ghost protocol) act response ∧
        (∀ other ∈ pool.tasks.eraseIdx index,
          guard pool.shared outcome (task.ghost protocol) act response
            (other.ghost protocol)) ∧
        pool.advance exec index outcome =
          ⟨shared, pool.tasks.set index ⟨task.call,
            task.past ++ [⟨act, response⟩], next response⟩⟩ := by
  rcases pool.taken_cases exec index outcome with ⟨_, hsame⟩ |
    ⟨task, act, next, response, shared, htask, hrest, hexec, htaken,
      hadvance⟩
  · exact .inl hsame
  · obtain ⟨hcond, hguard⟩ := hmeets _ htaken
    exact .inr ⟨task, act, next, response, shared, htask, hrest, hexec,
      hcond, hguard, hadvance⟩

/-- An invariant of the shared state and the ghosts, in whatever order, that
every allowed action keeps is kept when a call advances. -/
theorem Pool.advance_invariant
    {exec : ω → (act : Act) → σ → Option (Res act × σ)}
    {cond : σ → ω → Γ → (act : Act) → Res act → Prop}
    {guard : σ → ω → Γ → (act : Act) → Res act → Γ → Prop}
    (Inv : σ → List Γ → Prop)
    (hperm : ∀ {shared ghosts reordered}, ghosts.Perm reordered →
      Inv shared ghosts → Inv shared reordered)
    (hadmits : ∀ {shared outcome ghosts ghost act response reached},
      Inv shared ghosts →
      exec outcome act shared = some (response, reached) →
      cond shared outcome ghost act response → protocol.admits act response)
    (hstep : ∀ {shared outcome ghost rest act response reached},
      Inv shared (ghost :: rest) → protocol.allowed ghost act →
      exec outcome act shared = some (response, reached) →
      cond shared outcome ghost act response →
      (∀ other ∈ rest, guard shared outcome ghost act response other) →
      Inv reached (protocol.next ghost act response :: rest))
    {pool : Pool σ κ Act Res ρ} {index : ℕ} {outcome : ω}
    (hfollows : pool.Follows protocol)
    (hinv : Inv pool.shared (pool.ghosts protocol))
    (hmeets : pool.Meets exec protocol cond guard index outcome) :
    (pool.advance exec index outcome).Follows protocol ∧
      Inv (pool.advance exec index outcome).shared
        ((pool.advance exec index outcome).ghosts protocol) := by
  rcases Pool.advance_cases hmeets with hsame |
    ⟨task, act, next, response, shared, htask, hrest, hexec, hcond,
      hguard, hadvance⟩
  · rw [hsame]
    exact ⟨hfollows, hinv⟩
  · have hprogram := hfollows task (List.mem_of_getElem? htask)
    rw [hrest] at hprogram
    rw [hadvance]
    constructor
    · intro candidate hcandidate
      rcases List.mem_or_eq_of_mem_set hcandidate with hold | hnew
      · exact hfollows candidate hold
      · rw [hnew, Task.ghost_snoc]
        exact hprogram.2 response (hadmits hinv hexec hcond)
    · have hghosts : Pool.ghosts protocol ⟨shared, pool.tasks.set index
          ⟨task.call, task.past ++ [⟨act, response⟩], next response⟩⟩ =
          (pool.ghosts protocol).set index
            (protocol.next (task.ghost protocol) act response) := by
        simp only [Pool.ghosts, List.map_set, Task.ghost_snoc]
      have hghost : (pool.ghosts protocol)[index]? =
          some (task.ghost protocol) := by
        simp only [Pool.ghosts, List.getElem?_map, htask, Option.map_some]
      obtain ⟨hlt, hget⟩ := List.getElem?_eq_some_iff.mp hghost
      have hbefore : (pool.ghosts protocol).Perm (task.ghost protocol ::
          (pool.ghosts protocol).eraseIdx index) := by
        rw [← hget]
        exact (List.getElem_cons_eraseIdx_perm hlt).symm
      rw [hghosts]
      apply hperm (List.set_perm_cons_eraseIdx hlt _).symm
      apply hstep (hperm hbefore hinv) hprogram.1 hexec hcond
      intro other hother
      rw [Pool.ghosts, List.eraseIdx_map, List.mem_map] at hother
      obtain ⟨found, hfound, hsame⟩ := hother
      rw [← hsame]
      exact hguard found hfound

theorem Pool.call_follows
    {program : κ → Program Act Res ρ} {pool : Pool σ κ Act Res ρ}
    {call : κ} (hfollows : pool.Follows protocol)
    (hprogram : (program call).Follows protocol protocol.returns
      (protocol.start call)) :
    (pool.call program call).Follows protocol := by
  intro task htask
  rcases List.mem_append.mp htask with hold | hnew
  · exact hfollows task hold
  · rw [List.mem_singleton.mp hnew]
    exact hprogram

theorem Pool.call_ghosts
    (program : κ → Program Act Res ρ) (pool : Pool σ κ Act Res ρ)
    (call : κ) :
    (pool.call program call).ghosts protocol =
      pool.ghosts protocol ++ [protocol.start call] := by
  simp only [Pool.call, Pool.ghosts, List.map_append, List.map_cons,
    List.map_nil, Task.ghost, List.foldl_nil]

/-! ## Assertions about a pool -/

/-- A demand is a value that the shared state asks some call to account
for. -/
structure Assertions (σ Γ ι : Type) where
  globally : σ → Prop
  locally : σ → Γ → Prop
  apart : Γ → Γ → Prop
  needs : σ → ι → Prop
  holds : σ → Γ → ι → Prop
  apart_symm : ∀ {ghost other}, apart ghost other → apart other ghost

structure Assertions.Hold (assertions : Assertions σ Γ ι) (shared : σ)
    (ghosts : List Γ) : Prop where
  globally : assertions.globally shared
  locally : ∀ ghost ∈ ghosts, assertions.locally shared ghost
  apart : ghosts.Pairwise assertions.apart
  covered : ∀ demand, assertions.needs shared demand →
    ∃ ghost ∈ ghosts, assertions.holds shared ghost demand

/-- What an action of one call has to guarantee: its own assertions, those of
every other call that meets the guard, and that every demand stays
accounted for. -/
structure Assertions.Keeps (assertions : Assertions σ Γ ι)
    (guard : Γ → Prop) (shared : σ) (ghost : Γ) (reached : σ)
    (after : Γ) : Prop where
  globally : assertions.globally reached
  locally : assertions.locally reached after
  others : ∀ other, guard other → assertions.locally shared other →
    assertions.apart ghost other →
      assertions.locally reached other ∧ assertions.apart after other
  demand : ∀ demand, assertions.needs reached demand →
    assertions.holds reached after demand ∨
      (assertions.needs shared demand ∧
        ¬ assertions.holds shared ghost demand)
  held : ∀ other, guard other → assertions.locally shared other →
    assertions.apart ghost other → ∀ demand,
      assertions.needs reached demand →
        assertions.holds shared other demand →
          assertions.holds reached other demand ∨
            assertions.holds reached after demand

variable {assertions : Assertions σ Γ ι}

/-- An action that changes nothing that the assertions speak of. -/
theorem Assertions.Keeps.frame
    {guard : Γ → Prop} {shared reached : σ} {ghost : Γ}
    (hglobally : assertions.globally reached)
    (hlocally : ∀ other, assertions.locally shared other →
      assertions.locally reached other)
    (hneeds : ∀ demand, assertions.needs reached demand →
      assertions.needs shared demand)
    (hholds : ∀ other demand, assertions.holds shared other demand →
      assertions.holds reached other demand)
    (hghost : assertions.locally shared ghost) :
    assertions.Keeps guard shared ghost reached ghost where
  globally := hglobally
  locally := hlocally ghost hghost
  others := fun other _ hother hapart => ⟨hlocally other hother, hapart⟩
  demand := by
    intro demand hneed
    by_cases hheld : assertions.holds shared ghost demand
    · exact .inl (hholds ghost demand hheld)
    · exact .inr ⟨hneeds demand hneed, hheld⟩
  held := fun other _ _ _ demand _ hheld =>
    .inl (hholds other demand hheld)

theorem Assertions.Hold.perm
    {shared : σ} {ghosts reordered : List Γ}
    (hhold : assertions.Hold shared ghosts)
    (hperm : ghosts.Perm reordered) :
    assertions.Hold shared reordered where
  globally := hhold.globally
  locally := fun ghost hghost =>
    hhold.locally ghost (hperm.mem_iff.mpr hghost)
  apart := hperm.pairwise hhold.apart assertions.apart_symm
  covered := by
    intro demand hneeds
    obtain ⟨ghost, hghost, hholds⟩ := hhold.covered demand hneeds
    exact ⟨ghost, hperm.mem_iff.mp hghost, hholds⟩

theorem Assertions.Hold.step
    {shared reached : σ} {ghost after : Γ} {rest : List Γ}
    {guard : Γ → Prop} (hhold : assertions.Hold shared (ghost :: rest))
    (hguard : ∀ other ∈ rest, guard other)
    (hkeeps : assertions.Keeps guard shared ghost reached after) :
    assertions.Hold reached (after :: rest) := by
  have hlocally : ∀ other ∈ rest, assertions.locally shared other :=
    fun other hother => hhold.locally other (List.mem_cons_of_mem _ hother)
  obtain ⟨hapart, hpairs⟩ := List.pairwise_cons.mp hhold.apart
  have hothers : ∀ other ∈ rest, assertions.locally reached other ∧
      assertions.apart after other :=
    fun other hother => hkeeps.others other (hguard other hother)
      (hlocally other hother) (hapart other hother)
  refine ⟨hkeeps.globally, ?_, ?_, ?_⟩
  · intro candidate hcandidate
    rcases List.mem_cons.mp hcandidate with hnew | hold
    · rw [hnew]
      exact hkeeps.locally
    · exact (hothers candidate hold).1
  · exact List.pairwise_cons.mpr
      ⟨fun other hother => (hothers other hother).2, hpairs⟩
  · intro demand hneeds
    rcases hkeeps.demand demand hneeds with hholds | ⟨hold, hnot⟩
    · exact ⟨after, List.mem_cons_self, hholds⟩
    · obtain ⟨holder, hholder, hholds⟩ := hhold.covered demand hold
      rcases List.mem_cons.mp hholder with hghost | hrest
      · rw [hghost] at hholds
        exact absurd hholds hnot
      · rcases hkeeps.held holder (hguard holder hrest)
          (hlocally holder hrest) (hapart holder hrest) demand hneeds
          hholds with hsame | hnew
        · exact ⟨holder, List.mem_cons_of_mem _ hrest, hsame⟩
        · exact ⟨after, List.mem_cons_self, hnew⟩

/-- A change of the shared state that no call makes. -/
theorem Assertions.Hold.environment
    {shared reached : σ} {ghosts : List Γ}
    (hhold : assertions.Hold shared ghosts)
    (hglobally : assertions.globally reached)
    (hlocally : ∀ ghost, assertions.locally shared ghost →
      assertions.locally reached ghost)
    (hneeds : ∀ demand, assertions.needs reached demand →
      assertions.needs shared demand)
    (hholds : ∀ ghost demand, assertions.holds shared ghost demand →
      assertions.holds reached ghost demand) :
    assertions.Hold reached ghosts where
  globally := hglobally
  locally := fun ghost hghost => hlocally ghost (hhold.locally ghost hghost)
  apart := hhold.apart
  covered := by
    intro demand hneed
    obtain ⟨ghost, hghost, hheld⟩ :=
      hhold.covered demand (hneeds demand hneed)
    exact ⟨ghost, hghost, hholds ghost demand hheld⟩

/-- A call that has done nothing yet and is apart from every other call. -/
theorem Assertions.Hold.snoc
    {shared : σ} {ghosts : List Γ} {ghost : Γ}
    (hhold : assertions.Hold shared ghosts)
    (hlocally : assertions.locally shared ghost)
    (hapart : ∀ other, assertions.apart other ghost) :
    assertions.Hold shared (ghosts ++ [ghost]) := by
  refine ⟨hhold.globally, ?_, ?_, ?_⟩
  · intro candidate hcandidate
    rcases List.mem_append.mp hcandidate with hold | hnew
    · exact hhold.locally candidate hold
    · rw [List.mem_singleton.mp hnew]
      exact hlocally
  · rw [List.pairwise_append]
    refine ⟨hhold.apart, List.pairwise_singleton _ _, ?_⟩
    intro other _ candidate hcandidate
    rw [List.mem_singleton.mp hcandidate]
    exact hapart other
  · intro demand hneeds
    obtain ⟨holder, hholder, hholds⟩ := hhold.covered demand hneeds
    exact ⟨holder, List.mem_append_left _ hholder, hholds⟩

/-- The calls keep to the protocol and the assertions hold. -/
structure Pool.Kept (protocol : Protocol κ Act Res ρ Γ)
    (assertions : Assertions σ Γ ι) (pool : Pool σ κ Act Res ρ) : Prop where
  follows : pool.Follows protocol
  hold : assertions.Hold pool.shared (pool.ghosts protocol)

/-- Without calls nothing may be asked for. -/
theorem Pool.Kept.empty
    {shared : σ} (hglobally : assertions.globally shared)
    (hneeds : ∀ demand, ¬ assertions.needs shared demand) :
    Pool.Kept protocol assertions
      (⟨shared, []⟩ : Pool σ κ Act Res ρ) := by
  constructor
  · intro task htask
    cases htask
  · refine ⟨hglobally, ?_, List.Pairwise.nil, ?_⟩
    · intro ghost hghost
      cases hghost
    · intro demand hneed
      exact absurd hneed (hneeds demand)

theorem Pool.Kept.advance
    {exec : ω → (act : Act) → σ → Option (Res act × σ)}
    {cond : σ → ω → Γ → (act : Act) → Res act → Prop}
    {guard : σ → ω → Γ → (act : Act) → Res act → Γ → Prop}
    (hadmits : ∀ {shared outcome ghost act response reached},
      assertions.globally shared →
      exec outcome act shared = some (response, reached) →
      cond shared outcome ghost act response → protocol.admits act response)
    (hkeeps : ∀ {shared outcome ghost act response reached},
      assertions.globally shared → assertions.locally shared ghost →
      protocol.allowed ghost act →
      exec outcome act shared = some (response, reached) →
      cond shared outcome ghost act response →
      assertions.Keeps (guard shared outcome ghost act response) shared
        ghost reached (protocol.next ghost act response))
    {pool : Pool σ κ Act Res ρ} {index : ℕ} {outcome : ω}
    (hkept : pool.Kept protocol assertions)
    (hmeets : pool.Meets exec protocol cond guard index outcome) :
    (pool.advance exec index outcome).Kept protocol assertions := by
  have hafter := Pool.advance_invariant assertions.Hold
    (fun hperm hhold => hhold.perm hperm)
    (fun hhold hexec hcond => hadmits hhold.globally hexec hcond) (by
      intro shared outcome ghost rest act response reached hhold hallowed
        hexec hcond hguard
      apply hhold.step hguard
      exact hkeeps hhold.globally
        (hhold.locally ghost List.mem_cons_self) hallowed hexec hcond)
    hkept.follows hkept.hold hmeets
  exact ⟨hafter.1, hafter.2⟩

theorem Pool.Kept.call
    {program : κ → Program Act Res ρ} {pool : Pool σ κ Act Res ρ}
    {call : κ} (hkept : pool.Kept protocol assertions)
    (hprogram : (program call).Follows protocol protocol.returns
      (protocol.start call))
    (hlocally : assertions.locally pool.shared (protocol.start call))
    (hapart : ∀ other, assertions.apart other (protocol.start call)) :
    (pool.call program call).Kept protocol assertions := by
  constructor
  · exact Pool.call_follows hkept.follows hprogram
  · rw [Pool.call_ghosts]
    exact hkept.hold.snoc hlocally hapart

/-- What the assertions say about an allowed action is a condition that every
step meets, whichever protocol the pool is looked at with. -/
theorem Pool.Kept.meets {Δ : Type}
    {exec : ω → (act : Act) → σ → Option (Res act × σ)}
    {other : Protocol κ Act Res ρ Δ} {cond : σ → Act → Prop}
    (hcond : ∀ {shared ghost act}, assertions.globally shared →
      assertions.locally shared ghost → protocol.allowed ghost act →
        cond shared act)
    {pool : Pool σ κ Act Res ρ}
    (hkept : pool.Kept protocol assertions) (index : ℕ) (outcome : ω) :
    pool.Meets exec other (fun shared _ _ act _ => cond shared act)
      (fun _ _ _ _ _ _ => True) index outcome := by
  intro taken htaken
  refine ⟨?_, fun _ _ => trivial⟩
  unfold Pool.taken at htaken
  cases htask : pool.tasks[index]? with
  | none =>
      rw [htask] at htaken
      cases htaken
  | some task =>
      have hmem := List.mem_of_getElem? htask
      have hfollows := hkept.follows task hmem
      have hlocally := hkept.hold.locally _
        (List.mem_map_of_mem (f := Task.ghost protocol) hmem)
      cases hrest : task.rest with
      | done value =>
          simp only [htask, hrest] at htaken
          cases htaken
      | perform act next =>
          rw [hrest] at hfollows
          simp only [htask, hrest, Option.mem_def, Option.map_eq_some_iff]
            at htaken
          obtain ⟨reached, _, htaken⟩ := htaken
          rw [← htaken]
          exact hcond hkept.hold.globally hlocally hfollows.1

end AtomicPrograms
