import Mathlib.Data.Finmap

/-!
# Support — Update

What is found in a map after one of its entries was written or dropped.
-/

namespace Lunarbase

variable {α β : Type*} [DecidableEq α] {a x : α} {b y : β} {f : α → Option β}

theorem update_some_eq_some :
    Function.update f a (some b) x = some y ↔ x = a ∧ b = y ∨ x ≠ a ∧ f x = some y := by
  by_cases h : x = a
  · simp [h]
  · simp [h]

theorem update_none_eq_some : Function.update f a none x = some y ↔ x ≠ a ∧ f x = some y := by
  by_cases h : x = a
  · simp [h]
  · simp [h]

variable {m : Finmap fun _ : α => β}

theorem lookup_insert_eq_some :
    (m.insert a b).lookup x = some y ↔ x = a ∧ b = y ∨ x ≠ a ∧ m.lookup x = some y := by
  by_cases h : x = a
  · subst h
    simp
  · simp [h]

theorem lookup_erase_eq_some : (m.erase a).lookup x = some y ↔ x ≠ a ∧ m.lookup x = some y := by
  by_cases h : x = a
  · subst h
    simp
  · simp [h, Finmap.lookup_erase_ne h]

end Lunarbase
