import Lunarbase.Support.Rollback
import Mathlib.Data.Finmap

/-!
# Support — Undo

Rolling a state back with inverse records, one for a height.  `Undoable` is the invariant of such a
journal.  The rules are the ones of a journal of states, with one more for a height whose items
left no record (`Undoable.forget`).

`putBack` undoes an update of a finite map.
-/

namespace Lunarbase.Rollback

open List Finmap Nat

universe u v w

variable {S : Type u} {A : Type v} {B : Type w}

section

variable (effect : S → A → Option S) (height : A → ℕ) (at_ : B → ℕ) (undo : B → S → S)

/-- The invariant of a journal of inverse records over a history. -/
structure Undoable (snapshot : S) (floor : ℕ) (items : List A) (records : List B) (current : S) :
    Prop extends Tracked effect height at_ undo snapshot floor items records current where
  sorted : records.Pairwise fun b b' => at_ b < at_ b'

end

variable {effect : S → A → Option S} {height : A → ℕ} {at_ : B → ℕ} {undo : B → S → S}
  {snapshot current current' : S} {floor : ℕ} {items : List A} {records : List B} {x : A}

namespace Undoable

theorem start (snapshot : S) (floor : ℕ) :
    Undoable effect height at_ undo snapshot floor [] [] snapshot :=
  ⟨.start snapshot floor, .nil⟩

/-- A new item at the height of the last record, which then undoes it first. -/
theorem extend {b b' : B}
    (h : Undoable effect height at_ undo snapshot floor items (records ++ [b]) current)
    (hx : ∀ y ∈ items, height y ≤ height x) (heffect : effect current x = some current')
    (hat : at_ b = height x) (hat' : at_ b' = at_ b) (hundo : undo b' current' = undo b current) :
    Undoable effect height at_ undo snapshot floor (items ++ [x]) (records ++ [b']) current' := by
  obtain ⟨hinit, -, hlast⟩ := pairwise_append.mp h.sorted
  refine ⟨h.append hx heffect ?_ ?_ ?_,
    pairwise_append.mpr ⟨hinit, pairwise_singleton _ _, ?_⟩⟩
  · intro b₁ hb₁
    rcases mem_append.mp hb₁ with hold | hnew
    · exact h.aboveFloor b₁ (mem_append_left _ hold)
    rw [mem_singleton.mp hnew, hat']
    exact h.aboveFloor b (by simp)
  · intro b₁ hb₁
    rcases mem_append.mp hb₁ with hold | hnew
    · exact .inl (mem_append_left _ hold)
    · exact .inr (by rw [mem_singleton.mp hnew, hat', hat])
  · intro a ha
    rw [undoAbove_append, undoAbove_append, undoAbove_single_of_lt (hat'.trans hat ▸ ha),
      undoAbove_single_of_lt (hat ▸ ha), hundo]
  · intro b₁ hb₁ b₂ hb₂
    rw [mem_singleton.mp hb₂, hat']
    exact hlast b₁ hb₁ b (by simp)

/-- Dropping the oldest record makes its height the floor. -/
theorem dropFront {b : B}
    (h : Undoable effect height at_ undo snapshot floor items (b :: records) current) :
    Undoable effect height at_ undo snapshot (at_ b) items records current :=
  ⟨h.toTracked.dropFront fun b' hb' => ((pairwise_cons.mp h.sorted).1 b' hb').le,
    h.sorted.of_cons⟩

section

variable (h : Undoable effect height at_ undo snapshot floor items records current)

include h

/-- A new item whose height gets a record. -/
theorem push {b : B} (hx : ∀ y ∈ items, height y ≤ height x)
    (heffect : effect current x = some current') (hat : at_ b = height x)
    (hundo : undo b current' = current) (hfloor : floor ≤ height x)
    (hfresh : ∀ b' ∈ records, at_ b' < height x) :
    Undoable effect height at_ undo snapshot floor (items ++ [x]) (records ++ [b]) current' := by
  refine ⟨h.toTracked.push hx heffect hat hundo hfloor,
    pairwise_append.mpr ⟨h.sorted, pairwise_singleton _ _, ?_⟩⟩
  intro b₁ hb₁ b₂ hb₂
  rw [mem_singleton.mp hb₂, hat]
  exact hfresh b₁ hb₁

theorem idle (hx : ∀ y ∈ items, height y ≤ height x) (heffect : effect current x = some current) :
    Undoable effect height at_ undo snapshot floor (items ++ [x]) records current :=
  ⟨h.toTracked.idle hx heffect, h.sorted⟩

/-- A journal may start anew at a height that no item is above. -/
theorem reset {n : ℕ} (hn : ∀ x ∈ items, height x ≤ n) :
    Undoable effect height at_ undo snapshot n items ([] : List B) current := by
  refine ⟨⟨by simp, by simp, fun a ha => ?_⟩, .nil⟩
  rw [upTo_of_le fun x hx => (hn x hx).trans ha, h.replay_all]
  rfl

/-- Going back to an ancestor at or above the floor. -/
theorem rewind {a : ℕ} (ha : floor ≤ a) :
    Undoable effect height at_ undo snapshot floor (upTo height items a)
      (records.filter fun b => at_ b ≤ a) (undoAbove at_ undo records current a) :=
  ⟨h.toTracked.rewind (h.sorted.imp le_of_lt) ha, h.sorted.filter _⟩

/-- Items of a height above the floor that left no record had no effect. -/
theorem forget {n : ℕ} (hn : floor ≤ n) (hnone : ∀ b ∈ records, at_ b ≠ n + 1)
    (htop : ∀ x ∈ items, height x ≤ n + 1) :
    Undoable effect height at_ undo snapshot floor (upTo height items n) records current := by
  have hrecords : ∀ b ∈ records, at_ b ≤ n := fun b hb =>
    le_of_lt_succ (lt_of_le_of_ne (h.record_le htop hb) (hnone b hb))
  have hrewind := h.rewind hn
  rwa [undoAbove_of_le hrecords, filter_eq_self.mpr fun b hb => by simpa using hrecords b hb]
    at hrewind

end

end Undoable

/-! ### Finite maps -/

/-- The value a key had before: put back, or taken out when there was none. -/
def putBack {K : Type u} {V : Type v} [DecidableEq K] (m : Finmap fun _ : K => V) (key : K)
    (previous : Option V) : Finmap fun _ : K => V :=
  match previous with
  | some value => m.insert key value
  | none => m.erase key

section

variable {K : Type u} {V : Type v} [DecidableEq K]

theorem lookup_putBack_self (m : Finmap fun _ : K => V) (key : K) (previous : Option V) :
    (putBack m key previous).lookup key = previous := by
  cases previous with
  | none => exact lookup_erase key m
  | some value => exact lookup_insert m

theorem lookup_putBack_of_ne (m : Finmap fun _ : K => V) {key key' : K} (previous : Option V)
    (h : key' ≠ key) : (putBack m key previous).lookup key' = m.lookup key' := by
  cases previous with
  | none => exact lookup_erase_ne h
  | some value => exact lookup_insert_of_ne m h

/-- Putting back what a key had undoes any change of that key. -/
theorem putBack_eq {m m' : Finmap fun _ : K => V} {key : K}
    (h : ∀ key', key' ≠ key → m'.lookup key' = m.lookup key') :
    putBack m' key (m.lookup key) = m := by
  refine ext_lookup fun key' => ?_
  by_cases hkey : key' = key
  · rw [hkey, lookup_putBack_self]
  · rw [lookup_putBack_of_ne _ _ hkey, h key' hkey]

end

end Lunarbase.Rollback
