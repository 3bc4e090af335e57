import Mathlib.Data.List.Forall2
import Mathlib.Tactic.Common

/-!
# Support — Items

Lists that are related item by item, and what a list is searched for: the value of a key, the last
position of a property.
-/

namespace List

variable {α β : Type*} {R : α → β → Prop} {items : List α} {results : List β}

section

variable (h : Forall₂ R items results)

include h

theorem Forall₂.exists_of_mem_left {item : α} (hmem : item ∈ items) :
    ∃ result ∈ results, R item result := by
  induction h with
  | nil => cases hmem
  | cons hfirst _ ih =>
    rcases mem_cons.mp hmem with rfl | hin
    · exact ⟨_, mem_cons_self, hfirst⟩
    obtain ⟨result, hresult, hrelated⟩ := ih hin
    exact ⟨result, mem_cons_of_mem _ hresult, hrelated⟩

theorem Forall₂.exists_of_mem_right {result : β}
    (hmem : result ∈ results) : ∃ item ∈ items, R item result := by
  have hflip : Forall₂ (fun result item => R item result) results items := Forall₂.flip h
  exact hflip.exists_of_mem_left hmem

/-- Related items that have the same image give the same list of images. -/
theorem Forall₂.map_eq {γ : Type*} {f : α → γ} {g : β → γ}
    (hsame : ∀ a b, R a b → f a = g b) : items.map f = results.map g := by
  induction h with
  | nil => rfl
  | cons hfirst _ ih => rw [map_cons, map_cons, hsame _ _ hfirst, ih]

/-- Items with different images are related to items with different images. -/
theorem Forall₂.nodup_map {γ δ : Type*} {f : α → γ} {g : β → δ}
    (hsame : ∀ a b a' b', R a b → R a' b' → g b = g b' → f a = f a')
    (hnodup : (items.map f).Nodup) : (results.map g).Nodup := by
  induction h with
  | nil => exact nodup_nil
  | cons hfirst hrest ih =>
    obtain ⟨hnew, hothers⟩ := nodup_cons.mp hnodup
    refine nodup_cons.mpr ⟨fun hmem => hnew ?_, ih hothers⟩
    obtain ⟨result, hresult, heq⟩ := mem_map.mp hmem
    obtain ⟨item, hitem, hrelated⟩ := hrest.exists_of_mem_right hresult
    rw [hsame _ _ _ _ hfirst hrelated heq.symm]
    exact mem_map_of_mem hitem

end

theorem mem_of_lookup_eq_some [BEq α] [LawfulBEq α] {pairs : List (α × β)} {key : α} {value : β}
    (h : pairs.lookup key = some value) : (key, value) ∈ pairs := by
  induction pairs with
  | nil => cases h
  | cons pair rest ih =>
    rw [lookup_cons] at h
    split at h
    next hkey =>
      cases h
      rw [eq_of_beq hkey]
      exact mem_cons_self
    · exact mem_cons_of_mem _ (ih h)

/-- A fold over items with distinct keys, each of which touches its own key only: what an item needs
to find at its key is there if it is there at the start. -/
theorem foldl_of_distinct {σ κ ν : Type*} {f : σ → α → σ} {key : α → κ} {view : σ → κ → ν}
    {P : σ → Prop} {Q : α → ν → Prop} (htouch : ∀ s a k, k ≠ key a → view (f s a) k = view s k)
    (hstep : ∀ s a, P s → Q a (view s (key a)) → P (f s a)) (hnodup : (items.map key).Nodup) {s : σ}
    (hs : P s) (hitems : ∀ a ∈ items, Q a (view s (key a))) : P (items.foldl f s) := by
  induction items generalizing s with
  | nil => exact hs
  | cons first rest ih =>
    obtain ⟨hfirst, hrest⟩ := nodup_cons.mp hnodup
    refine ih hrest (hstep s first hs (hitems first mem_cons_self)) fun a ha => ?_
    have hne : key a ≠ key first := fun heq => hfirst (heq ▸ mem_map_of_mem ha)
    rw [htouch s first (key a) hne]
    exact hitems a (mem_cons_of_mem _ ha)

/-- The last position with the property. -/
def rposition (p : α → Bool) : List α → Option Nat
  | [] => none
  | a :: rest =>
    match rposition p rest with
    | some i => some (i + 1)
    | none => if p a then some 0 else none

variable {p : α → Bool}

theorem rposition_eq_none (h : rposition p items = none) : ∀ a ∈ items, p a = false := by
  induction items with
  | nil => exact fun a ha => absurd ha not_mem_nil
  | cons first rest ih =>
    rw [rposition] at h
    split at h
    · cases h
    next hrest =>
      split at h
      · cases h
      next hfirst => exact forall_mem_cons.mpr ⟨Bool.not_eq_true _ ▸ hfirst, ih hrest⟩

theorem rposition_eq_some {i : Nat} (h : rposition p items = some i) :
    (∃ a, items[i]? = some a ∧ p a = true) ∧ ∀ a ∈ items.drop (i + 1), p a = false := by
  induction items generalizing i with
  | nil => cases h
  | cons first rest ih =>
    rw [rposition] at h
    split at h
    next j hrest =>
      cases h
      obtain ⟨⟨a, ha, hp⟩, hlater⟩ := ih hrest
      exact ⟨⟨a, by rwa [getElem?_cons_succ], hp⟩, hlater⟩
    next hrest =>
      split at h
      next hfirst =>
        cases h
        exact ⟨⟨first, getElem?_cons_zero, hfirst⟩, rposition_eq_none hrest⟩
      · cases h

end List
