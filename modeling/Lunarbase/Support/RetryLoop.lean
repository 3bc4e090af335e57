import Mathlib.Tactic.Common

/-!
# Support — RetryLoop

A compare-exchange loop on a shared word: the word is loaded once, and as long as the value last
observed may be replaced, a weak compare-exchange tries to replace it.  Between two steps of the
loop others may change the word.  Whatever they do, the step with which the loop returns is the
whole operation at once (`atomic_of_observe`, `atomic_of_attempt`), and no other step changes
anything (`attempt_running`).
-/

namespace Lunarbase

universe u v

/-- When the loop goes on, what it writes, and what it returns with or without writing. -/
structure RetryLoop (α : Type u) (ρ : Type v) where
  proceeds : α → Bool
  update : α → α
  finished : α → ρ
  refused : ρ

namespace RetryLoop

variable {α : Type u} {ρ : Type v}

inductive Progress (α : Type u) (ρ : Type v) where
  | running (current : α)
  | returned (result : ρ)

variable (loop : RetryLoop α ρ)

/-- The operation in one step. -/
def atomic (word : α) : α × ρ :=
  if loop.proceeds word then (loop.update word, loop.finished word) else (word, loop.refused)

/-- What the loop does with a value it has observed. -/
def observe (word : α) : Progress α ρ :=
  if loop.proceeds word then .running word else .returned loop.refused

/-- One weak compare-exchange, which may fail for no reason. -/
def attempt [DecidableEq α] (current word : α) (spurious : Bool) : α × Progress α ρ :=
  if word = current ∧ spurious = false then
    (loop.update current, .returned (loop.finished current))
  else (word, loop.observe word)

variable {loop} {word word' current : α} {result : ρ}

theorem atomic_of_observe (h : loop.observe word = .returned result) :
    loop.atomic word = (word, result) := by
  rw [observe] at h
  split at h
  · cases h
  next hrefused =>
    obtain rfl := Progress.returned.inj h
    rw [atomic, if_neg hrefused]

theorem observe_running (h : loop.observe word = .running current) :
    current = word ∧ loop.proceeds current = true := by
  rw [observe] at h
  split at h
  next hproceeds =>
    obtain rfl := Progress.running.inj h
    exact ⟨rfl, hproceeds⟩
  · cases h

variable [DecidableEq α] {spurious : Bool}

theorem atomic_of_attempt (hcurrent : loop.proceeds current = true)
    (h : loop.attempt current word spurious = (word', .returned result)) :
    loop.atomic word = (word', result) := by
  rw [attempt] at h
  split at h
  next hexchange =>
    obtain ⟨rfl, hresult⟩ := Prod.mk.inj h
    rw [hexchange.1, atomic, if_pos hcurrent, Progress.returned.inj hresult]
  · obtain ⟨rfl, hresult⟩ := Prod.mk.inj h
    exact atomic_of_observe hresult

theorem attempt_running {observed : α}
    (h : loop.attempt current word spurious = (word', .running observed)) :
    word' = word ∧ loop.proceeds observed = true := by
  rw [attempt] at h
  split at h
  · cases h
  · exact ⟨(Prod.mk.inj h).1.symm, (observe_running (Prod.mk.inj h).2).2⟩

end RetryLoop

end Lunarbase
