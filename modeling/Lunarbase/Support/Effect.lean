import Mathlib.Tactic.Common

/-!
# Support — Effect

A call on mutable state returns the state it leaves behind together with its result, also when it
fails: nothing is rolled back.  `andThen` sequences two such calls, `onError` runs a change of
state on the way out of a failed one, and `forEach` makes a call for every item of a list until one
fails.

`FailsIn P out`: the call failed and left a state of `P` behind.  It is what has to be excluded, or
decided exactly, when a failure must not go unnoticed; the rules follow the three operations
(`failsIn_andThen`, `failsIn_onError`, `failsIn_forEach`).

`Moves R s out`: what a call from `s` leaves behind, failed or not, is `R`-related to `s`.  A
preorder of states goes through the same three operations.
-/

namespace Lunarbase.Effect

universe u v w

variable {σ : Type u} {ε : Type v} {α β : Type w}

/-- The second call starts where the first succeeded. -/
def andThen (out : σ × Except ε α) (next : σ → α → σ × Except ε β) : σ × Except ε β :=
  match out with
  | (s, .ok a) => next s a
  | (s, .error e) => (s, .error e)

/-- A change of state made when the call failed. -/
def onError (change : σ → σ) (out : σ × Except ε α) : σ × Except ε α :=
  match out with
  | (s, .ok a) => (s, .ok a)
  | (s, .error e) => (change s, .error e)

@[simp] theorem andThen_ok (s : σ) (a : α) (next : σ → α → σ × Except ε β) :
    andThen (s, .ok a) next = next s a := rfl

@[simp] theorem andThen_error (s : σ) (e : ε) (next : σ → α → σ × Except ε β) :
    andThen (s, .error e) next = (s, .error e) := rfl

variable (change : σ → σ)

@[simp] theorem onError_ok (s : σ) (a : α) :
    onError change (s, (.ok a : Except ε α)) = (s, .ok a) := rfl

@[simp] theorem onError_error (s : σ) (e : ε) :
    onError change (s, (.error e : Except ε α)) = (change s, .error e) := rfl

theorem andThen_assoc {γ : Type w} (out : σ × Except ε α) (next : σ → α → σ × Except ε β)
    (last : σ → β → σ × Except ε γ) :
    andThen (andThen out next) last = andThen out fun s a => andThen (next s a) last := by
  obtain ⟨s, r⟩ := out
  cases r with
  | error e => rfl
  | ok a => rfl

variable {next : σ → α → σ × Except ε β} {out : σ × Except ε α} {t : σ} {change : σ → σ}
  {R : σ → σ → Prop}

/-- A sequence succeeds when its first call does and the second succeeds from there. -/
theorem andThen_eq_ok {b : β} :
    andThen out next = (t, .ok b) ↔ ∃ s a, out = (s, .ok a) ∧ next s a = (t, .ok b) := by
  obtain ⟨s, r⟩ := out
  cases r with
  | error e | ok a => simp

/-- A sequence fails when its first call does, or when the second fails from there. -/
theorem andThen_eq_error {e : ε} :
    andThen out next = (t, .error e) ↔
      out = (t, .error e) ∨ ∃ s a, out = (s, .ok a) ∧ next s a = (t, .error e) := by
  obtain ⟨s, r⟩ := out
  cases r with
  | error e' | ok a => simp

theorem onError_eq_ok {a : α} : onError change out = (t, .ok a) ↔ out = (t, .ok a) := by
  obtain ⟨s, r⟩ := out
  cases r with
  | error e | ok a' => simp

theorem onError_eq_error {e : ε} :
    onError change out = (t, .error e) ↔ ∃ s, out = (s, .error e) ∧ t = change s := by
  obtain ⟨s, r⟩ := out
  cases r with
  | error e' => simp [eq_comm, and_comm]
  | ok a => simp

/-! ### Failing in a state -/

/-- The call failed and left a state of `P`. -/
def FailsIn (P : σ → Prop) (out : σ × Except ε α) : Prop := ∃ s e, out = (s, .error e) ∧ P s

variable (P : σ → Prop)

@[simp] theorem failsIn_ok (s : σ) (a : α) :
    ¬ FailsIn P ((s, .ok a) : σ × Except ε α) := by
  rintro ⟨t, e, h, -⟩
  exact absurd (congrArg Prod.snd h) (by simp)

@[simp] theorem failsIn_error (s : σ) (e : ε) :
    FailsIn P ((s, .error e) : σ × Except ε α) ↔ P s := by
  constructor
  · rintro ⟨t, e', h, ht⟩
    cases h
    exact ht
  · intro hs
    exact ⟨s, e, rfl, hs⟩

theorem failsIn_andThen (out : σ × Except ε α) (next : σ → α → σ × Except ε β) :
    FailsIn P (andThen out next) ↔
      FailsIn P out ∨ ∃ s a, out = (s, .ok a) ∧ FailsIn P (next s a) := by
  obtain ⟨s, r⟩ := out
  cases r with
  | error e | ok a => simp

theorem failsIn_onError (change : σ → σ) (out : σ × Except ε α) :
    FailsIn P (onError change out) ↔ FailsIn (fun s => P (change s)) out := by
  obtain ⟨s, r⟩ := out
  cases r with
  | error e | ok a => simp

/-- A call for every item, up to the first failure. -/
def forEach {ι : Type*} (step : σ → ι → σ × Except ε PUnit) : σ → List ι → σ × Except ε PUnit
  | s, [] => (s, .ok ⟨⟩)
  | s, item :: rest => andThen (step s item) fun s _ => forEach step s rest

/-- A list fails in a state of `P` when one of its items does, from where the items before it
led. -/
theorem failsIn_forEach {ι : Type*} (step : σ → ι → σ × Except ε PUnit) (s : σ) (items : List ι) :
    FailsIn P (forEach step s items) ↔
      ∃ done item rest t, items = done ++ item :: rest ∧ forEach step s done = (t, .ok ⟨⟩) ∧
        FailsIn P (step t item) := by
  induction items generalizing s with
  | nil => simp [forEach]
  | cons first others ih =>
    rw [forEach, failsIn_andThen]
    constructor
    · rintro (hfirst | ⟨t, a, hok, hothers⟩)
      · exact ⟨[], first, others, s, rfl, rfl, hfirst⟩
      obtain ⟨done, item, rest, u, rfl, hdone, hitem⟩ := (ih t).mp hothers
      exact ⟨first :: done, item, rest, u, rfl, by rw [forEach, hok, andThen_ok, hdone], hitem⟩
    rintro ⟨done, item, rest, u, hitems, hdone, hitem⟩
    cases done with
    | nil =>
      obtain ⟨rfl, rfl⟩ := List.cons.inj hitems
      cases hdone
      exact .inl hitem
    | cons first' done =>
      obtain ⟨rfl, rfl⟩ := List.cons.inj hitems
      obtain ⟨t, a, hok, hdone⟩ := andThen_eq_ok.mp hdone
      exact .inr ⟨t, a, hok, (ih t).mpr ⟨done, item, rest, u, rfl, hdone, hitem⟩⟩

/-! ### What a call may change -/

/-- The state a call leaves behind, failed or not, is related to the one it found. -/
def Moves (R : σ → σ → Prop) (s : σ) (out : σ × Except ε α) : Prop := R s out.1

theorem moves_andThen (htrans : ∀ a b c, R a b → R b c → R a c) {s : σ} (hout : Moves R s out)
    (hnext : ∀ t a, out = (t, .ok a) → Moves R t (next t a)) : Moves R s (andThen out next) := by
  obtain ⟨t, r⟩ := out
  cases r with
  | error e => exact hout
  | ok a => exact htrans _ _ _ hout (hnext t a rfl)

theorem moves_onError (htrans : ∀ a b c, R a b → R b c → R a c) (hchange : ∀ t, R t (change t))
    {s : σ} (hout : Moves R s out) : Moves R s (onError change out) := by
  obtain ⟨t, r⟩ := out
  cases r with
  | error e => exact htrans _ _ _ hout (hchange t)
  | ok a => exact hout

theorem moves_forEach {ι : Type*} (hrefl : ∀ s, R s s) (htrans : ∀ a b c, R a b → R b c → R a c)
    {step : σ → ι → σ × Except ε PUnit} {items : List ι}
    (hstep : ∀ item ∈ items, ∀ s, Moves R s (step s item)) (s : σ) :
    Moves R s (forEach step s items) := by
  induction items generalizing s with
  | nil => exact hrefl s
  | cons item rest ih =>
    exact moves_andThen htrans (hstep item List.mem_cons_self s) fun t _ _ =>
      ih (fun later hlater => hstep later (List.mem_cons_of_mem _ hlater)) t

end Lunarbase.Effect
