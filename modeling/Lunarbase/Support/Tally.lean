import Mathlib.Algebra.BigOperators.Group.Finset.Basic
import Mathlib.Algebra.Order.Ring.Int
import Mathlib.Data.Finset.Basic
import Mathlib.Tactic.Ring

/-!
# Support — Tally

A counter kept beside a map.  Each value of the map has a weight, all but finitely many weigh
nothing, and the counter is the sum of the weights.  A write to the map is matched by the
difference of the two weights (`Tally.update`), and emptying a list of distinct keys by the sum of
what they weighed (`Tally.clear`).
-/

namespace Lunarbase

open List Function Finset

universe u v

variable {κ : Type u} {β : Type v} {weight : β → ℤ} {f g : κ → β} {total : ℤ}

/-- The total is the sum of the weights of the map. -/
def Tally (weight : β → ℤ) (f : κ → β) (total : ℤ) : Prop :=
  ∃ keys : Finset κ, (∀ k ∉ keys, weight (f k) = 0) ∧ total = ∑ k ∈ keys, weight (f k)

namespace Tally

theorem of_weightless (h : ∀ k, weight (f k) = 0) : Tally weight f 0 :=
  ⟨∅, fun k _ => h k, rfl⟩

variable [DecidableEq κ]

/-- The sum may be taken over more keys. -/
theorem covers (h : Tally weight f total) (more : Finset κ) :
    ∃ keys : Finset κ, more ⊆ keys ∧ (∀ k ∉ keys, weight (f k) = 0) ∧
      total = ∑ k ∈ keys, weight (f k) := by
  obtain ⟨keys, hout, rfl⟩ := h
  refine ⟨keys ∪ more, subset_union_right, fun k hk => ?_, ?_⟩
  · exact hout k fun hmem => hk (mem_union_left _ hmem)
  · exact sum_subset subset_union_left fun k _ hk => hout k hk

theorem clear (h : Tally weight f total) {keys : List κ} (hnodup : keys.Nodup)
    (hcleared : ∀ k ∈ keys, weight (g k) = 0) (hothers : ∀ k ∉ keys, g k = f k) :
    Tally weight g (total - (keys.map fun k => weight (f k)).sum) := by
  obtain ⟨all, hsub, hout, rfl⟩ := h.covers keys.toFinset
  refine ⟨all, fun k hk => ?_, ?_⟩
  · have hkey : k ∉ keys := fun hmem => hk (hsub (mem_toFinset.mpr hmem))
    rw [hothers k hkey]
    exact hout k hk
  have hsplit : ∀ φ : κ → ℤ, ∑ k ∈ all, φ k =
      ∑ k ∈ all \ keys.toFinset, φ k + ∑ k ∈ keys.toFinset, φ k := fun φ =>
    (sum_sdiff hsub).symm
  have hkept : ∑ k ∈ all \ keys.toFinset, weight (g k) =
      ∑ k ∈ all \ keys.toFinset, weight (f k) := by
    refine sum_congr rfl fun k hk => ?_
    rw [hothers k fun hmem => (mem_sdiff.mp hk).2 (mem_toFinset.mpr hmem)]
  have hgone : ∑ k ∈ keys.toFinset, weight (g k) = 0 :=
    sum_eq_zero fun k hk => hcleared k (mem_toFinset.mp hk)
  rw [hsplit fun k => weight (f k), hsplit fun k => weight (g k), hkept, hgone,
    sum_toFinset _ hnodup]
  ring

theorem update (h : Tally weight f total) (k : κ) (value : β) :
    Tally weight (Function.update f k value) (total - weight (f k) + weight value) := by
  obtain ⟨keys, hsub, hout, rfl⟩ := h.covers {k}
  have hk : k ∈ keys := hsub (Finset.mem_singleton_self k)
  refine ⟨keys, fun k' hk' => ?_, ?_⟩
  · have hne : k' ≠ k := fun heq => hk' (heq ▸ hk)
    rw [update_of_ne hne]
    exact hout k' hk'
  have hothers : ∑ k' ∈ keys.erase k, weight (Function.update f k value k') =
      ∑ k' ∈ keys.erase k, weight (f k') := by
    refine sum_congr rfl fun k' hk' => ?_
    rw [update_of_ne (ne_of_mem_erase hk')]
  rw [← add_sum_erase keys _ hk, ← add_sum_erase keys _ hk, hothers, update_self]
  ring

end Tally

end Lunarbase
