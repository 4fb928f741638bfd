import Mathlib.Data.List.Induction

/-!
# Runs of a step function

A system is given by a total step function on its states.  `run` executes a
list of operations, and `Along` says that a property of a state and the
operation taken in it holds at every position of a run.  The rules below are
the ones every run theorem of this development uses: an invariant that is kept
by every step holds at the end of a run, and a property that is equivalent to
a guard in every state of an invariant holds along exactly the guarded runs.
-/

namespace StepRuns

variable {σ α : Type*}

def run (step : σ → α → σ) (state : σ) (ops : List α) : σ :=
  ops.foldl step state

/-- The property holds of every operation of the run and the state in which
it is taken. -/
def Along (step : σ → α → σ) (P : σ → α → Prop) : σ → List α → Prop
  | _, [] => True
  | state, op :: rest => P state op ∧ Along step P (step state op) rest

instance Along.decidable
    (step : σ → α → σ) (P : σ → α → Prop)
    [∀ state op, Decidable (P state op)] :
    ∀ state ops, Decidable (Along step P state ops)
  | _, [] => inferInstanceAs (Decidable True)
  | state, op :: rest =>
      @instDecidableAnd _ _ (inferInstanceAs (Decidable (P state op)))
        (Along.decidable step P (step state op) rest)

theorem run_append {step : σ → α → σ} {state : σ}
    {before after : List α} :
    run step state (before ++ after) =
      run step (run step state before) after :=
  List.foldl_append

theorem run_invariant
    {step : σ → α → σ} {Inv : σ → Prop}
    (hstep : ∀ state op, Inv state → Inv (step state op))
    {state : σ} (ops : List α) (hinit : Inv state) :
    Inv (run step state ops) := by
  induction ops generalizing state with
  | nil => exact hinit
  | cons op rest ih => exact ih (hstep state op hinit)

theorem along_append
    {step : σ → α → σ} {P : σ → α → Prop} {state : σ}
    {before after : List α} :
    Along step P state (before ++ after) ↔
      Along step P state before ∧
        Along step P (run step state before) after := by
  induction before generalizing state with
  | nil => simp [Along, run]
  | cons op rest ih => simp only [List.cons_append, Along, ih, run,
      List.foldl_cons, and_assoc]

theorem along_const_iff
    {step : σ → α → σ} {Q : α → Prop} {state : σ} {ops : List α} :
    Along step (fun _ op => Q op) state ops ↔ ∀ op ∈ ops, Q op := by
  induction ops generalizing state with
  | nil => simp [Along]
  | cons op rest ih => simp [Along, ih]

theorem along_of_forall
    {step : σ → α → σ} {Q : α → Prop} {ops : List α}
    (hall : ∀ op ∈ ops, Q op) (state : σ) :
    Along step (fun _ op => Q op) state ops :=
  along_const_iff.mpr hall

theorem along_and
    {step : σ → α → σ} {P Q : σ → α → Prop} {state : σ} {ops : List α}
    (hfirst : Along step P state ops) (hsecond : Along step Q state ops) :
    Along step (fun state op => P state op ∧ Q state op) state ops := by
  induction ops generalizing state with
  | nil => trivial
  | cons op rest ih =>
      exact ⟨⟨hfirst.1, hsecond.1⟩, ih hfirst.2 hsecond.2⟩

/-- An invariant that every step under a guard keeps holds at the end of
every run along which the guard holds. -/
theorem run_invariant_of_along
    {step : σ → α → σ} {P : σ → α → Prop} {Inv : σ → Prop}
    (hstep : ∀ state op, Inv state → P state op → Inv (step state op))
    {state : σ} {ops : List α} (hinit : Inv state)
    (halong : Along step P state ops) : Inv (run step state ops) := by
  induction ops generalizing state with
  | nil => exact hinit
  | cons op rest ih => exact ih (hstep state op hinit halong.1) halong.2

theorem along_of_run_invariant
    {step : σ → α → σ} {Inv : σ → Prop} {P : σ → α → Prop}
    (hstep : ∀ state op, Inv state → Inv (step state op))
    (hproperty : ∀ state op, Inv state → P state op)
    {state : σ} (ops : List α) (hinit : Inv state) :
    Along step P state ops := by
  induction ops generalizing state with
  | nil => trivial
  | cons op rest ih =>
      exact ⟨hproperty state op hinit, ih (hstep state op hinit)⟩

/-- In every state of an invariant that the guard keeps, the guard implies
the property. -/
theorem along_of_invariant
    {step : σ → α → σ} {P C : σ → α → Prop} {Inv : σ → Prop}
    (hstep : ∀ state op, Inv state → C state op →
      Inv (step state op) ∧ P state op)
    {state : σ} {ops : List α} (hinit : Inv state)
    (halong : Along step C state ops) : Along step P state ops := by
  induction ops generalizing state with
  | nil => trivial
  | cons op rest ih =>
      obtain ⟨hnext, hproperty⟩ := hstep state op hinit halong.1
      exact ⟨hproperty, ih hnext halong.2⟩

/-- In every state of the invariant the property is the guard, so the two
hold along the same runs; only the operations of the run have to be
considered. -/
theorem along_iff_of_invariant_of_mem
    {step : σ → α → σ} {P C : σ → α → Prop} {Inv : σ → Prop}
    {ops : List α} {state : σ}
    (hiff : ∀ state, ∀ op ∈ ops, Inv state → (P state op ↔ C state op))
    (hstep : ∀ state, ∀ op ∈ ops, Inv state → C state op →
      Inv (step state op))
    (hinit : Inv state) :
    Along step P state ops ↔ Along step C state ops := by
  induction ops generalizing state with
  | nil => exact Iff.rfl
  | cons op rest ih =>
      have hhead := hiff state op List.mem_cons_self hinit
      have hrest : C state op →
          (Along step P (step state op) rest ↔
            Along step C (step state op) rest) := by
        intro hguard
        apply ih
        · intro next other hother
          exact hiff next other (List.mem_cons_of_mem op hother)
        · intro next other hother
          exact hstep next other (List.mem_cons_of_mem op hother)
        · exact hstep state op List.mem_cons_self hinit hguard
      simp only [Along]
      constructor
      · intro h
        exact ⟨hhead.mp h.1, (hrest (hhead.mp h.1)).mp h.2⟩
      · intro h
        exact ⟨hhead.mpr h.1, (hrest h.1).mpr h.2⟩

theorem along_iff_of_invariant
    {step : σ → α → σ} {P C : σ → α → Prop} {Inv : σ → Prop}
    (hiff : ∀ state op, Inv state → (P state op ↔ C state op))
    (hstep : ∀ state op, Inv state → C state op → Inv (step state op))
    {state : σ} (ops : List α) (hinit : Inv state) :
    Along step P state ops ↔ Along step C state ops :=
  along_iff_of_invariant_of_mem (fun state op _ => hiff state op)
    (fun state op _ => hstep state op) hinit

theorem along_congr
    {step : σ → α → σ} {P C : σ → α → Prop}
    (hiff : ∀ state op, P state op ↔ C state op)
    (state : σ) (ops : List α) :
    Along step P state ops ↔ Along step C state ops := by
  induction ops generalizing state with
  | nil => exact Iff.rfl
  | cons op rest ih => exact and_congr (hiff state op) (ih _)

/-! ## What has happened in a run -/

/-- At some position of the run the operation is taken in such a state. -/
def Once (step : σ → α → σ) (P : σ → α → Prop) (state : σ)
    (ops : List α) : Prop :=
  ∃ before op after, ops = before ++ op :: after ∧
    P (run step state before) op

section Once

variable {step : σ → α → σ} {P : σ → α → Prop} {state : σ}
    {past : List α}

theorem Once.later (honce : Once step P state past) (op : α) :
    Once step P state (past ++ [op]) := by
  obtain ⟨before, earlier, after, rfl, hproperty⟩ := honce
  exact ⟨before, earlier, after ++ [op], by simp, hproperty⟩

theorem once_last {op : α} (hproperty : P (run step state past) op) :
    Once step P state (past ++ [op]) :=
  ⟨past, op, [], rfl, hproperty⟩

/-- An invariant of the state and of what has been done to reach it. -/
theorem run_invariant_of_past
    {I : List α → σ → Prop}
    (hstep : ∀ past op, I past (run step state past) →
      I (past ++ [op]) (step (run step state past) op))
    (hinit : I [] state) (ops : List α) :
    I ops (run step state ops) := by
  induction ops using List.reverseRecOn with
  | nil => exact hinit
  | append_singleton past op ih =>
      rw [run_append]
      exact hstep past op ih

end Once

/-! ## Runs of allowed operations -/

/-- Some run of allowed operations leads from one state to the other. -/
def Reaches (step : σ → α → σ) (allowed : α → Prop)
    (before after : σ) : Prop :=
  ∃ ops, (∀ op ∈ ops, allowed op) ∧ run step before ops = after

section Reaches

variable {step : σ → α → σ} {allowed : α → Prop} {before after : σ}

theorem Reaches.refl (state : σ) : Reaches step allowed state state :=
  ⟨[], by simp, rfl⟩

theorem Reaches.single {op : α} (hop : allowed op) :
    Reaches step allowed before (step before op) :=
  ⟨[op], by simpa using hop, rfl⟩

theorem Reaches.trans {last : σ}
    (hfirst : Reaches step allowed before after)
    (hsecond : Reaches step allowed after last) :
    Reaches step allowed before last := by
  obtain ⟨ops, hops, hafter⟩ := hfirst
  obtain ⟨others, hothers, hlast⟩ := hsecond
  refine ⟨ops ++ others, ?_, ?_⟩
  · intro op hop
    rcases List.mem_append.mp hop with hearlier | hlater
    · exact hops op hearlier
    · exact hothers op hlater
  · rw [run_append, hafter, hlast]

theorem Reaches.mono {wider : α → Prop}
    (hreaches : Reaches step allowed before after)
    (hwider : ∀ op, allowed op → wider op) :
    Reaches step wider before after := by
  obtain ⟨ops, hops, hafter⟩ := hreaches
  exact ⟨ops, fun op hop => hwider op (hops op hop), hafter⟩

theorem Reaches.invariant {Inv : σ → Prop}
    (hreaches : Reaches step allowed before after)
    (hstep : ∀ state op, allowed op → Inv state → Inv (step state op))
    (hinit : Inv before) : Inv after := by
  obtain ⟨ops, hops, rfl⟩ := hreaches
  induction ops generalizing before with
  | nil => exact hinit
  | cons op rest ih =>
      apply ih
      · exact hstep before op (hops op List.mem_cons_self) hinit
      · intro other hother
        exact hops other (List.mem_cons_of_mem op hother)

/-- A loop whose passes are runs is a run. -/
theorem reaches_foldl {ι : Type*} {next : σ → ι → σ} {items : List ι}
    (hnext : ∀ state, ∀ item ∈ items,
      Reaches step allowed state (next state item)) (state : σ) :
    Reaches step allowed state (items.foldl next state) := by
  induction items generalizing state with
  | nil => exact .refl state
  | cons item rest ih =>
      rw [List.foldl_cons]
      apply (hnext state item List.mem_cons_self).trans
      apply ih
      intro other later hlater
      exact hnext other later (List.mem_cons_of_mem item hlater)

/-- A run carries over to a larger system that steps alike. -/
theorem Reaches.embed
    {τ β : Type*} {larger : τ → β → τ} {place : σ → τ} {rename : α → β}
    (hlarger : ∀ state op, allowed op →
      larger (place state) (rename op) = place (step state op))
    (hreaches : Reaches step allowed before after) :
    Reaches larger (fun op => ∃ small, allowed small ∧ rename small = op)
      (place before) (place after) := by
  obtain ⟨ops, hops, rfl⟩ := hreaches
  induction ops generalizing before with
  | nil => exact .refl _
  | cons op rest ih =>
      have hop : allowed op := hops op List.mem_cons_self
      have hhead : Reaches larger
          (fun op => ∃ small, allowed small ∧ rename small = op)
          (place before) (place (step before op)) := by
        rw [← hlarger before op hop]
        exact .single ⟨op, hop, rfl⟩
      apply hhead.trans
      apply ih
      intro other hother
      exact hops other (List.mem_cons_of_mem op hother)

end Reaches

end StepRuns
