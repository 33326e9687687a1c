import Mathlib.Data.List.Basic

/-! # Runs of an event-driven system

A deterministic system takes one step per event; `run step s es` is the state after the events `es`.
Since every list of events is allowed, the states reached by the prefixes of a run are themselves
end states of runs, and an invariant of all end states is an invariant of all states reached.

`Along P step s es` says that `P` holds of the state and the event at every step of the run: it is
how a condition on the environment, or on the inputs, is imposed on a whole run. -/

set_option autoImplicit false

variable {S E : Type*}

/-- The state after the events `es`. -/
def run (step : S → E → S) : S → List E → S
  | s, [] => s
  | s, e :: es => run step (step s e) es

/-- `P` holds before each step of the run. -/
def Along (P : S → E → Prop) (step : S → E → S) : S → List E → Prop
  | _, [] => True
  | s, e :: es => P s e ∧ Along P step (step s e) es

instance Along.decidable {P : S → E → Prop} [∀ s e, Decidable (P s e)] {step : S → E → S} :
    (s : S) → (es : List E) → Decidable (Along P step s es)
  | _, [] => isTrue trivial
  | s, e :: es =>
      haveI := @Along.decidable P _ step (step s e) es
      inferInstanceAs (Decidable (P s e ∧ Along P step (step s e) es))

@[simp] theorem run_nil (step : S → E → S) (s : S) : run step s [] = s := rfl

@[simp] theorem run_cons (step : S → E → S) (s : S) (e : E) (es : List E) :
    run step s (e :: es) = run step (step s e) es := rfl

theorem run_append (step : S → E → S) (s : S) (es fs : List E) :
    run step s (es ++ fs) = run step (run step s es) fs := by
  induction es generalizing s with
  | nil => rfl
  | cons e es ih => exact ih (step s e)

/-- An invariant of the steps that meet a condition holds at the end of every run along which the
condition is met. -/
theorem run_invariant {step : S → E → S} {P : S → E → Prop} {I : S → Prop}
    (hstep : ∀ s e, I s → P s e → I (step s e)) {s : S} (hs : I s) {es : List E}
    (hes : Along P step s es) : I (run step s es) := by
  induction es generalizing s with
  | nil => exact hs
  | cons e es ih => exact ih (hstep s e hs hes.1) hes.2

theorem Along.mono {P Q : S → E → Prop} {step : S → E → S} (hPQ : ∀ s e, P s e → Q s e) {s : S}
    {es : List E} (h : Along P step s es) : Along Q step s es := by
  induction es generalizing s with
  | nil => trivial
  | cons e es ih => exact ⟨hPQ s e h.1, ih h.2⟩

/-- What an invariant says about the next step holds of every step of a run. -/
theorem Along.of_invariant {P Q : S → E → Prop} {step : S → E → S} {I : S → Prop}
    (hstep : ∀ s e, I s → P s e → I (step s e)) (hQ : ∀ s e, I s → P s e → Q s e) {s : S} (hs : I s)
    {es : List E} (hes : Along P step s es) : Along Q step s es := by
  induction es generalizing s with
  | nil => trivial
  | cons e es ih => exact ⟨hQ s e hs hes.1, ih (hstep s e hs hes.1) hes.2⟩

/-- A condition that always holds. -/
theorem Along.of_forall {P : S → E → Prop} {step : S → E → S} (h : ∀ s e, P s e) (s : S)
    (es : List E) : Along P step s es := by
  induction es generalizing s with
  | nil => trivial
  | cons e es ih => exact ⟨h s e, ih (step s e)⟩

/-- Where the condition is exactly what an invariant needs of a step, it holds along a run as long as
the invariant does; `J` is what holds anyway. -/
theorem Along.iff_of_invariant {P : S → E → Prop} {step : S → E → S} {I J : S → Prop}
    (hJ : ∀ s e, J s → J (step s e)) (hstep : ∀ s e, J s → I s → (I (step s e) ↔ P s e)) {s : S}
    (hJs : J s) (hs : I s) (es : List E) :
    Along (fun s e => I (step s e)) step s es ↔ Along P step s es := by
  induction es generalizing s with
  | nil => exact Iff.rfl
  | cons e es ih =>
      constructor
      · intro h
        exact ⟨(hstep s e hJs hs).1 h.1, (ih (hJ s e hJs) h.1).1 h.2⟩
      · intro h
        have hnext := (hstep s e hJs hs).2 h.1
        exact ⟨hnext, (ih (hJ s e hJs) hnext).2 h.2⟩
