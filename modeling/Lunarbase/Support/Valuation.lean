import Mathlib.Data.List.Chain
import Mathlib.Tactic.Common

/-!
# Support — Valuation

Sequences of trades under one fixed valuation of the assets.  A trade is fair when what it
returns is worth no more than what it takes; a sequence in which every trade spends at most what
the one before it returned is then worth no more at its end than at its start.
-/

namespace Lunarbase.Valuation

open List

variable {α : Type*}

/-- `spent` of `source` against `received` of `target`. -/
structure Trade (α : Type*) where
  source : α
  target : α
  spent : Nat
  received : Nat

/-- The trade returns no more value than it takes. -/
def Trade.Fair (price : α → Nat) (t : Trade α) : Prop :=
  t.received * price t.target ≤ t.spent * price t.source

/-- `u` spends, of the asset `t` returned, at most what `t` returned. -/
def Trade.Feeds (t u : Trade α) : Prop := u.source = t.target ∧ u.spent ≤ t.received

variable {ts : List (Trade α)} {price : α → Nat}

/-- Value never grows along a sequence of fair trades. -/
theorem chain_value_le {t : Trade α}
    (fair : ∀ u ∈ t :: ts, u.Fair price) (chain : List.IsChain Trade.Feeds (t :: ts)) :
    ((t :: ts).getLast (cons_ne_nil t ts)).received *
        price ((t :: ts).getLast (cons_ne_nil t ts)).target ≤ t.spent * price t.source := by
  induction ts generalizing t with
  | nil => exact fair t mem_cons_self
  | cons u us ih =>
    obtain ⟨⟨hasset, hspent⟩, hrest⟩ := isChain_cons_cons.mp chain
    calc _ ≤ u.spent * price u.source := ih (fun v hv => fair v (mem_cons_of_mem t hv)) hrest
      _ ≤ t.received * price t.target := by
          rw [hasset]; exact Nat.mul_le_mul_right _ hspent
      _ ≤ t.spent * price t.source := fair t mem_cons_self

/-- A sequence that comes back to the asset it started from returns no more of it than it took,
as long as that asset has a value. -/
theorem round_trip_le {t : Trade α} (fair : ∀ u ∈ t :: ts, u.Fair price)
    (chain : List.IsChain Trade.Feeds (t :: ts)) (hpos : 0 < price t.source)
    (hback : ((t :: ts).getLast (cons_ne_nil t ts)).target = t.source) :
    ((t :: ts).getLast (cons_ne_nil t ts)).received ≤ t.spent := by
  have h := chain_value_le fair chain
  rw [hback] at h
  exact Nat.le_of_mul_le_mul_right h hpos

end Lunarbase.Valuation
