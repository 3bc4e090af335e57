import Mathlib.Tactic.Common

/-!
# Support — Run

Runs of a machine that takes one input after another.  A run carries a guard: what each input has
to satisfy in the state it arrives at.  A path is the same for a step relation, with the inputs it
took.
-/

namespace Lunarbase

universe u v

variable {σ : Type u} {ι : Type v}

/-- The states reached from `start` by steps whose inputs all meet the guard. -/
inductive Run (step : σ → ι → σ) (guard : σ → ι → Prop) (start : σ) : σ → Prop where
  | refl : Run step guard start start
  | more {s : σ} {i : ι} (h : Run step guard start s) (hg : guard s i) :
      Run step guard start (step s i)

variable {step : σ → ι → σ} {start t s : σ}

/-- What holds at the start and is kept by every guarded step holds in every state reached. -/
theorem Run.invariant {guard : σ → ι → Prop} {P : σ → Prop} (h₀ : P start)
    (hstep : ∀ s i, P s → guard s i → P (step s i)) (h : Run step guard start t) : P t := by
  induction h with
  | refl => exact h₀
  | more _ hg ih => exact hstep _ _ ih hg

/-- A run under a stronger guard is a run. -/
theorem Run.weaken {guard guard' : σ → ι → Prop} (hw : ∀ s i, guard s i → guard' s i)
    (h : Run step guard start t) : Run step guard' start t := by
  induction h with
  | refl => exact .refl
  | more _ hg ih => exact .more ih (hw _ _ hg)

/-- Without a guard, any list of inputs is a run. -/
theorem Run.foldl (h : Run step (fun _ _ => True) start s)
    (inputs : List ι) : Run step (fun _ _ => True) start (inputs.foldl step s) := by
  induction inputs generalizing s with
  | nil => exact h
  | cons i rest ih => exact ih (.more h trivial)

/-- Whether every input of a list meets a test in the state it arrives at. -/
def checkAll (step : σ → ι → σ) (test : σ → ι → Bool) : σ → List ι → Bool
  | _, [] => true
  | s, i :: rest => test s i && checkAll step test (step s i) rest

/-- A list of inputs that pass the test one after another is a run. -/
theorem Run.ofList (test : σ → ι → Bool) {inputs : List ι}
    (h : Run step (fun s i => test s i = true) start s)
    (hcheck : checkAll step test s inputs = true) :
    Run step (fun s i => test s i = true) start (inputs.foldl step s) := by
  induction inputs generalizing s with
  | nil => exact h
  | cons i rest ih =>
    obtain ⟨htest, hrest⟩ := Bool.and_eq_true_iff.mp hcheck
    exact ih (.more h htest) hrest

/-! ### Paths -/

/-- The inputs lead from one state to the other. -/
inductive Path (step : σ → ι → σ → Prop) : σ → List ι → σ → Prop where
  | refl (s : σ) : Path step s [] s
  | more {s t u : σ} {i : ι} {inputs : List ι} (h : step s i t) (rest : Path step t inputs u) :
      Path step s (i :: inputs) u

namespace Path

variable {step : σ → ι → σ → Prop}

theorem one {s t : σ} {i : ι} (h : step s i t) : Path step s [i] t := .more h (.refl t)

theorem trans {s t u : σ} {inputs inputs' : List ι} (h : Path step s inputs t)
    (h' : Path step t inputs' u) : Path step s (inputs ++ inputs') u := by
  induction h with
  | refl => exact h'
  | more hstep _ ih => exact .more hstep (ih h')

/-- What every step keeps, a path keeps. -/
theorem invariant {P : σ → Prop} (hstep : ∀ s i t, step s i t → P s → P t) {s t : σ}
    {inputs : List ι} (h : Path step s inputs t) (hs : P s) : P t := by
  induction h with
  | refl => exact hs
  | more hfirst _ ih => exact ih (hstep _ _ _ hfirst hs)

end Path

end Lunarbase
