/-!
# Results with error contexts

`anyhow` errors carry a chain of contexts.  A failed computation is an
`Except String` with the text that such an error is displayed as.  With `{e}`
this is the outermost context alone, and what it wraps reaches no answer; with
`{e:#}` it is the whole chain.  The lemmas peel a successful `do` block apart
into its successful parts.
-/

namespace ResultContext

variable {α β : Type}

/-- The two ways in which a call does not return a value. -/
inductive Failure where
  | error (message : String)
  | panicked (message : String)
  deriving DecidableEq, Repr

def context (message : String) : Except String α → Except String α
  | .ok value => .ok value
  | .error _ => .error message

/-- The context of an error that is displayed with what it wraps. -/
def chainContext (message : String) : Except String α → Except String α
  | .ok value => .ok value
  | .error cause => .error s!"{message}: {cause}"

def optionContext (message : String) : Option α → Except String α
  | some value => .ok value
  | none => .error message

/-- `map_err`. -/
def mapError (describe : String → String) :
    Except String α → Except String α
  | .ok value => .ok value
  | .error cause => .error (describe cause)

/-- `bail!` unless the condition holds. -/
def ensure (condition : Bool) (message : String) : Except String Unit :=
  if condition then .ok () else .error message

@[simp] theorem context_eq_ok
    {message : String} {result : Except String α} {value : α} :
    context message result = .ok value ↔ result = .ok value := by
  cases result <;> simp [context]

@[simp] theorem chainContext_eq_ok
    {message : String} {result : Except String α} {value : α} :
    chainContext message result = .ok value ↔ result = .ok value := by
  cases result <;> simp [chainContext]

@[simp] theorem optionContext_eq_ok
    {message : String} {result : Option α} {value : α} :
    optionContext message result = .ok value ↔ result = some value := by
  cases result <;> simp [optionContext]

@[simp] theorem mapError_eq_ok
    {describe : String → String} {result : Except String α} {value : α} :
    mapError describe result = .ok value ↔ result = .ok value := by
  cases result <;> simp [mapError]

@[simp] theorem ensure_eq_ok
    {condition : Bool} {message : String} {value : Unit} :
    ensure condition message = .ok value ↔ condition = true := by
  cases condition <;> simp [ensure]

theorem bind_eq_ok {ε : Type}
    {result : Except ε α} {next : α → Except ε β} {value : β} :
    (result >>= next) = .ok value ↔
      ∃ input, result = .ok input ∧ next input = .ok value := by
  cases result with
  | error message => simp [bind, Except.bind]
  | ok input => simp [bind, Except.bind]

@[simp] theorem pure_eq_ok {ε : Type} {input value : α} :
    (pure input : Except ε α) = .ok value ↔ input = value := by
  simp [pure, Except.pure]

theorem exists_of_isOk {ε : Type} {result : Except ε α}
    (hok : result.isOk = true) : ∃ value, result = .ok value := by
  cases result with
  | error message => cases hok
  | ok value => exact ⟨value, rfl⟩

theorem mapM_cons_eq_ok {ε : Type}
    {step : α → Except ε β} {input : α} {inputs : List α}
    {values : List β} :
    (input :: inputs).mapM step = .ok values ↔
      ∃ value others, step input = .ok value ∧
        inputs.mapM step = .ok others ∧ values = value :: others := by
  rw [List.mapM_cons]
  simp only [bind_eq_ok, pure_eq_ok]
  constructor
  · intro ⟨value, hvalue, others, hothers, hequal⟩
    exact ⟨value, others, hvalue, hothers, hequal.symm⟩
  · intro ⟨value, others, hvalue, hothers, hequal⟩
    exact ⟨value, hvalue, others, hothers, hequal.symm⟩

theorem exists_ok_of_mapM {ε : Type}
    {step : α → Except ε β} {inputs : List α} {values : List β}
    (hok : inputs.mapM step = .ok values) :
    ∀ input ∈ inputs, ∃ value, step input = .ok value := by
  induction inputs generalizing values with
  | nil =>
      intro input hinput
      cases hinput
  | cons first rest ih =>
      obtain ⟨value, others, hvalue, hothers, -⟩ := mapM_cons_eq_ok.mp hok
      intro input hinput
      rcases List.mem_cons.mp hinput with rfl | hlater
      · exact ⟨value, hvalue⟩
      · exact ih hothers input hlater

end ResultContext
