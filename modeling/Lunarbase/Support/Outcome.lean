import Mathlib.Data.List.Forall2
import Mathlib.Logic.Basic
import Mathlib.Tactic.Common

/-!
# Support — Outcome

Chains of fallible calls.  A function that reports its failures in `Except` is a sequence of
binds; the two inversions `bind_eq_ok` and `bind_eq_error` take such a sequence apart one call at
a time, so no proof below unfolds a `do` block.
-/

namespace Except

universe u v

variable {ε : Type u} {α β : Type v}

@[simp] theorem ok_bind (a : α) (f : α → Except ε β) : (Except.ok a >>= f) = f a := rfl

@[simp] theorem error_bind (e : ε) (f : α → Except ε β) :
    ((Except.error e : Except ε α) >>= f) = .error e := rfl

@[simp] theorem pure_eq_ok (a : α) : (pure a : Except ε α) = .ok a := rfl

@[simp] theorem throw_eq_error (e : ε) : (throw e : Except ε α) = .error e := rfl

variable {f : α → Except ε β} {x : Except ε α} {e : ε} {a : α} {c : Prop} {P : α → Prop}

/-- A chain succeeds when its first call does and the rest succeeds on what it returned. -/
theorem bind_eq_ok {b : β} : (x >>= f) = .ok b ↔ ∃ a, x = .ok a ∧ f a = .ok b := by
  cases x with
  | error e | ok a => simp

/-- A chain fails when its first call does, or when the rest fails on what it returned. -/
theorem bind_eq_error : (x >>= f) = .error e ↔ x = .error e ∨ ∃ a, x = .ok a ∧ f a = .error e := by
  cases x with
  | error e' | ok a => simp

/-- `ok_or`: an absent value becomes the given error. -/
def ofOption (e : ε) : Option α → Except ε α
  | none => .error e
  | some a => .ok a

@[simp] theorem ofOption_none (e : ε) : ofOption e (none : Option α) = .error e := rfl

@[simp] theorem ofOption_some (e : ε) (a : α) : ofOption e (some a) = .ok a := rfl

variable {o : Option α}

@[simp] theorem ofOption_eq_ok : ofOption e o = .ok a ↔ o = some a := by
  cases o <;> simp

@[simp] theorem ofOption_eq_error {e' : ε} :
    ofOption e o = .error e' ↔ o = none ∧ e = e' := by
  cases o <;> simp

/-- A check that passed. -/
theorem ite_error_eq_ok [Decidable c] : (if c then .error e else x) = .ok a ↔ ¬ c ∧ x = .ok a := by
  by_cases h : c
  · simp [h]
  · simp [h]

/-- A check that was passed by a call which returns its state with its result. -/
theorem ite_failed_eq_ok {σ : Type*} {s s' : σ} {y : σ × Except ε α} [Decidable c] :
    (if c then (s, .error e) else y) = (s', .ok a) ↔ ¬ c ∧ y = (s', .ok a) := by
  by_cases h : c
  · simp [h]
  · simp [h]

/-- A list of calls succeeds when each of them does. -/
theorem mapM_eq_ok {γ : Type*} {f : γ → Except ε α} {items : List γ} {results : List α} :
    items.mapM f = .ok results ↔ List.Forall₂ (fun item a => f item = .ok a) items results := by
  induction items generalizing results with
  | nil => simp [List.forall₂_nil_left_iff, eq_comm]
  | cons item rest ih =>
    rw [List.mapM_cons, bind_eq_ok]
    constructor
    · rintro ⟨a, ha, h⟩
      obtain ⟨as, has, h⟩ := bind_eq_ok.mp h
      cases h
      exact .cons ha (ih.mp has)
    · intro h
      cases h with
      | cons ha has => exact ⟨_, ha, bind_eq_ok.mpr ⟨_, ih.mpr has, rfl⟩⟩

/-! ### A computation that returns -/

/-- `x` succeeds, with a result that satisfies `P`. -/
def Yields (P : α → Prop) (x : Except ε α) : Prop := ∃ a, x = .ok a ∧ P a

theorem Yields.ok (h : P a) : Yields P (.ok a : Except ε α) := ⟨a, rfl, h⟩

theorem Yields.bind {Q : β → Prop} (hx : Yields P x) (hf : ∀ a, x = .ok a → P a → Yields Q (f a)) :
    Yields Q (x >>= f) := by
  obtain ⟨a, rfl, ha⟩ := hx
  exact hf a rfl ha

theorem Yields.ite [Decidable c] {y : Except ε α} (hx : c → Yields P x) (hy : ¬ c → Yields P y) :
    Yields P (if c then x else y) := by
  by_cases h : c
  · rw [if_pos h]
    exact hx h
  · rw [if_neg h]
    exact hy h

/-! ### A computation continued -/

/-- `y` is `x` and then `k`: what `k` does comes last, after everything `x` does. -/
def Extends (k : α → Except ε β) (x : Except ε α) (y : Except ε β) : Prop := y = x >>= k

section

variable {γ : Type v} {k : α → Except ε β}

theorem Extends.ok (a : α) : Extends k (.ok a) (k a) := rfl

theorem Extends.bind (x : Except ε γ) {f : γ → Except ε α} {g : γ → Except ε β}
    (h : ∀ c, x = .ok c → Extends k (f c) (g c)) : Extends k (x >>= f) (x >>= g) := by
  cases x with
  | error e => rfl
  | ok c => exact h c rfl

theorem Extends.ite [Decidable c] {x' : Except ε α} {y y' : Except ε β} (h : c → Extends k x y)
    (h' : ¬ c → Extends k x' y') : Extends k (if c then x else x') (if c then y else y') := by
  by_cases hc : c
  · rw [if_pos hc, if_pos hc]
    exact h hc
  · rw [if_neg hc, if_neg hc]
    exact h' hc

end

/-! ### One computation below another -/

section

variable {α' β' : Type v} {R : α → α' → Prop} {S : β → β' → Prop}

/-- `x` succeeds wherever `y` does, with a related result. -/
def Below (R : α → α' → Prop) (x : Except ε α) (y : Except ε α') : Prop :=
  ∀ a', y = .ok a' → ∃ a, x = .ok a ∧ R a a'

theorem Below.ok (y : Except ε α') (h : ∀ a', y = .ok a' → R a a') :
    Below R (.ok a) y := fun a' ha' => ⟨a, rfl, h a' ha'⟩

theorem Below.refl (x : Except ε α) : Below (· = ·) x x := fun a ha => ⟨a, ha, rfl⟩

theorem Below.bind {y : Except ε α'} {g : α' → Except ε β'} (hx : Below R x y)
    (hf : ∀ a a', x = .ok a → y = .ok a' → R a a' → Below S (f a) (g a')) :
    Below S (x >>= f) (y >>= g) := by
  intro b' hb'
  obtain ⟨a', ha', hb'⟩ := bind_eq_ok.mp hb'
  obtain ⟨a, ha, hrel⟩ := hx a' ha'
  obtain ⟨b, hb, hrel'⟩ := hf a a' ha ha' hrel b' hb'
  exact ⟨b, bind_eq_ok.mpr ⟨a, ha, hb⟩, hrel'⟩

end

/-! ### Two computations in step -/

section

variable {ε' : Type u} {α' β' : Type v} {E : ε → ε' → Prop} {R : α → α' → Prop}
  {S : β → β' → Prop}

/-- Two computations agree when both succeed with related results or both fail with related
errors. -/
inductive Agree (E : ε → ε' → Prop) (R : α → α' → Prop) : Except ε α → Except ε' α' → Prop where
  | ok {a : α} {a' : α'} (h : R a a') : Agree E R (.ok a) (.ok a')
  | error {e : ε} {e' : ε'} (h : E e e') : Agree E R (.error e) (.error e')

variable {x' : Except ε' α'} {x : Except ε α}

/-- Agreement is kept by sequencing; the rest may use what the first call returned. -/
theorem Agree.bind {f' : α' → Except ε' β'} (hx : Agree E R x x')
    (hf : ∀ a a', x = .ok a → R a a' → Agree E S (f a) (f' a')) :
    Agree E S (x >>= f) (x' >>= f') := by
  cases hx with
  | ok h => exact hf _ _ rfl h
  | error h => exact .error h

/-- Agreement under a coarser reading of the first computation's errors and of the results. -/
theorem Agree.mapError {ε'' : Type u} {E' : ε'' → ε' → Prop} {R' : α → α' → Prop} {g : ε → ε''}
    (hx : Agree E R x x') (he : ∀ e e', E e e' → E' (g e) e')
    (hr : ∀ a a', R a a' → R' a a') : Agree E' R' (x.mapError g) x' := by
  cases hx with
  | ok h => exact .ok (hr _ _ h)
  | error h => exact .error (he _ _ h)

/-- Agreement is kept by a test that both sides decide alike. -/
theorem Agree.ite {c' : Prop} [Decidable c] [Decidable c'] {x y : Except ε α} {y' : Except ε' α'}
    (hc : c ↔ c') (hx : c → Agree E R x x') (hy : ¬ c → Agree E R y y') :
    Agree E R (if c then x else y) (if c' then x' else y') := by
  by_cases h : c
  · rw [if_pos h, if_pos (hc.mp h)]; exact hx h
  · rw [if_neg h, if_neg (hc.not.mp h)]; exact hy h

end

end Except
