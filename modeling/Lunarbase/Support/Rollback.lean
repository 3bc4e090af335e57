import Mathlib.Data.List.DropRight
import Mathlib.Order.Lattice
import Mathlib.Tactic.Common

/-!
# Support — Rollback

Rolling a state back with a sparse journal.  A history is a list of items, each at a height and
with an effect on the state; a journal keeps, for some heights, what undoes the effects made there,
and a floor below which it promises nothing.  Going back to a height undoes every record above it,
the latest first.

`Tracked` says that at every height from the floor up, undoing gives what replaying the history up
to that height gives.  `Journaled` is the invariant of a journal of before-images, whose records
undo by restoring the state they were taken from.  One rule for each thing a journal does keeps
it: capturing, extending a captured height, an item without effect, dropping the oldest image,
raising the floor, and going back to an ancestor.
-/

namespace Lunarbase.Rollback

open List Nat

universe u v w

variable {S : Type u} {A : Type v} {B : Type w}

/-- The effects of the items in order; none when one of them fails. -/
def replay (effect : S → A → Option S) : S → List A → Option S
  | s, [] => some s
  | s, x :: rest => (effect s x).bind fun s' => replay effect s' rest

theorem replay_append (effect : S → A → Option S) (s : S) (xs ys : List A) :
    replay effect s (xs ++ ys) = (replay effect s xs).bind fun s' => replay effect s' ys := by
  induction xs generalizing s with
  | nil => rfl
  | cons x xs ih =>
    simp only [cons_append, replay, Option.bind_assoc]
    exact Option.bind_congr fun s' _ => ih s'

section

variable (effect : S → A → Option S) (height : A → ℕ) (at_ : B → ℕ) (before : B → S)
  (undo : B → S → S)

/-- The items at or below a height. -/
def upTo (items : List A) (a : ℕ) : List A := items.filter fun x => height x ≤ a

/-- Every record above `a` undone, from the last to the first. -/
def undoAbove (records : List B) (current : S) (a : ℕ) : S :=
  records.foldr (fun b s => if a < at_ b then undo b s else s) current

/-- The state a journal restores at `a`: the first before-image above it, else the current one. -/
def restoreAt (images : List B) (current : S) (a : ℕ) : S :=
  ((images.filter fun b => a < at_ b).head?.map before).getD current

/-- The journal goes back to any height from the floor up. -/
structure Tracked (snapshot : S) (floor : ℕ) (items : List A) (records : List B) (current : S) :
    Prop where
  aboveFloor : ∀ b ∈ records, floor ≤ at_ b
  witnessed : ∀ b ∈ records, ∃ x ∈ items, height x = at_ b
  tracks : ∀ a, floor ≤ a →
    replay effect snapshot (upTo height items a) = some (undoAbove at_ undo records current a)

/-- The invariant of a journal of before-images over a history. -/
structure Journaled (snapshot : S) (floor : ℕ) (items : List A) (images : List B) (current : S) :
    Prop extends
    Tracked effect height at_ (fun b _ => before b) snapshot floor items images current where
  sorted : images.Pairwise fun b b' => at_ b ≤ at_ b'

end

variable {effect : S → A → Option S} {height : A → ℕ} {at_ : B → ℕ} {before : B → S}
  {undo : B → S → S} {a b : ℕ} {items : List A}

theorem upTo_of_le (h : ∀ x ∈ items, height x ≤ a) : upTo height items a = items :=
  filter_eq_self.mpr fun x hx => decide_eq_true (h x hx)

theorem upTo_append (items more : List A) (a : ℕ) :
    upTo height (items ++ more) a = upTo height items a ++ upTo height more a :=
  filter_append ..

theorem upTo_upTo (h : b ≤ a) : upTo height (upTo height items a) b = upTo height items b := by
  simp only [upTo, filter_filter]
  refine filter_congr fun x _ => ?_
  simp only [Bool.and_eq_left_iff_imp, decide_eq_true_eq]
  exact fun hx => hx.trans h

variable {records : List B} {current : S}

theorem undoAbove_of_le {a : ℕ} (h : ∀ b ∈ records, at_ b ≤ a) :
    undoAbove at_ undo records current a = current := by
  induction records with
  | nil => rfl
  | cons b rest ih =>
    have hrest : undoAbove at_ undo rest current a = current :=
      ih fun b' hb' => h b' (mem_cons_of_mem _ hb')
    have hb : ¬ a < at_ b := not_lt.mpr (h b mem_cons_self)
    rw [undoAbove, foldr_cons, if_neg hb]
    exact hrest

theorem undoAbove_append (records more : List B) (current : S) (a : ℕ) :
    undoAbove at_ undo (records ++ more) current a =
      undoAbove at_ undo records (undoAbove at_ undo more current a) a :=
  foldr_append

theorem undoAbove_single_of_lt {b : B} {a : ℕ} (h : a < at_ b) :
    undoAbove at_ undo [b] current a = undo b current := by
  simp [undoAbove, h]

/-- Two heights with no record between them are gone back to alike. -/
theorem undoAbove_congr {a a' : ℕ} (h : ∀ b ∈ records, a < at_ b ↔ a' < at_ b) :
    undoAbove at_ undo records current a = undoAbove at_ undo records current a' := by
  induction records with
  | nil => rfl
  | cons b rest ih =>
    have hrest := ih fun b' hb' => h b' (mem_cons_of_mem _ hb')
    simp only [undoAbove, foldr_cons, h b mem_cons_self] at hrest ⊢
    rw [hrest]

/-- Going back to `a` and then to `b` is going back to `b`. -/
theorem undoAbove_undoAbove {a b : ℕ} (hle : b ≤ a)
    (hsorted : records.Pairwise fun i i' => at_ i ≤ at_ i') :
    undoAbove at_ undo (records.filter fun i => at_ i ≤ a)
      (undoAbove at_ undo records current a) b = undoAbove at_ undo records current b := by
  induction records with
  | nil => rfl
  | cons i rest ih =>
    obtain ⟨hfirst, hrest⟩ := pairwise_cons.mp hsorted
    rcases lt_or_ge a (at_ i) with habove | hbelow
    · -- sorted: every record is above `a`, hence above `b`
      have hall : ∀ i' ∈ i :: rest, a < at_ i' := by
        intro i' hi'
        rcases mem_cons.mp hi' with rfl | hmem
        · exact habove
        · exact habove.trans_le (hfirst i' hmem)
      have hnone : (i :: rest).filter (fun i => at_ i ≤ a) = [] :=
        filter_eq_nil_iff.mpr fun i' hi' => by simpa using hall i' hi'
      rw [hnone]
      exact undoAbove_congr fun i' hi' =>
        iff_of_true (hall i' hi') (hle.trans_lt (hall i' hi'))
    · have hkeep : (i :: rest).filter (fun i => at_ i ≤ a) =
          i :: rest.filter fun i => at_ i ≤ a := by
        simp [hbelow]
      have hskip : undoAbove at_ undo (i :: rest) current a =
          undoAbove at_ undo rest current a := by
        simp [undoAbove, not_lt.mpr hbelow]
      rw [hkeep, hskip]
      have hrec := ih hrest
      simp only [undoAbove, foldr_cons] at hrec ⊢
      rw [hrec]

/-- Some height is at or above every item. -/
theorem exists_height_bound (height : A → ℕ) (items : List A) :
    ∃ top, ∀ x ∈ items, height x ≤ top := by
  induction items with
  | nil => exact ⟨0, by simp⟩
  | cons y rest ih =>
    obtain ⟨top, htop⟩ := ih
    refine ⟨height y + top, fun x hx => ?_⟩
    rcases mem_cons.mp hx with rfl | hmem
    · exact Nat.le_add_right ..
    · exact (htop x hmem).trans (Nat.le_add_left ..)

variable {snapshot : S} {floor : ℕ} {x : A} {current' : S}

namespace Tracked

theorem start (snapshot : S) (floor : ℕ) :
    Tracked effect height at_ undo snapshot floor [] [] snapshot :=
  ⟨by simp, by simp, fun _ _ => rfl⟩

section

variable (h : Tracked effect height at_ undo snapshot floor items records current)

include h

/-- Every record is at or below a height that bounds the items. -/
theorem record_le {n : ℕ} (hn : ∀ y ∈ items, height y ≤ n) {b : B} (hb : b ∈ records) :
    at_ b ≤ n := by
  obtain ⟨y, hy, hyb⟩ := h.witnessed b hb
  exact hyb ▸ hn y hy

/-- The whole history gives the current state. -/
theorem replay_all : replay effect snapshot items = some current := by
  -- a height above the floor, every item and hence every record
  obtain ⟨top, htop⟩ := exists_height_bound height items
  have hitems : ∀ x ∈ items, height x ≤ max floor top := fun x hx =>
    (htop x hx).trans (le_max_right ..)
  have htracks := h.tracks (max floor top) (le_max_left ..)
  rwa [upTo_of_le hitems, undoAbove_of_le fun b hb => h.record_le hitems hb] at htracks

/-- Going back to an ancestor at or above the floor. -/
theorem rewind (hsorted : records.Pairwise fun b b' => at_ b ≤ at_ b') (ha : floor ≤ a) :
    Tracked effect height at_ undo snapshot floor (upTo height items a)
      (records.filter fun b => at_ b ≤ a) (undoAbove at_ undo records current a) where
  aboveFloor := fun b hb => h.aboveFloor b (mem_filter.mp hb).1
  witnessed := by
    intro b hb
    obtain ⟨hmem, hle⟩ := mem_filter.mp hb
    obtain ⟨x, hx, hxb⟩ := h.witnessed b hmem
    exact ⟨x, mem_filter.mpr ⟨hx, by simpa [hxb] using hle⟩, hxb⟩
  tracks := by
    intro b hb
    rcases le_total b a with hle | hle
    · rw [upTo_upTo hle, undoAbove_undoAbove hle hsorted]
      exact h.tracks b hb
    have hitems : ∀ x ∈ upTo height items a, height x ≤ b := fun x hx =>
      (by simpa using (mem_filter.mp hx).2 : height x ≤ a).trans hle
    have hrecords : ∀ i ∈ records.filter (fun i => at_ i ≤ a), at_ i ≤ b := fun i hi =>
      (by simpa using (mem_filter.mp hi).2 : at_ i ≤ a).trans hle
    rw [upTo_of_le hitems, undoAbove_of_le hrecords]
    exact h.tracks a ha

variable (hx : ∀ y ∈ items, height y ≤ height x)

include hx

/-- A new item at the top of the history; `hbelow` says that the journal after it still goes back,
below the item, to where it went before. -/
theorem append {records' : List B} (heffect : effect current x = some current')
    (hfloor : ∀ b ∈ records', floor ≤ at_ b)
    (hmem : ∀ b ∈ records', b ∈ records ∨ at_ b = height x) (hbelow : ∀ a, a < height x →
      undoAbove at_ undo records' current' a = undoAbove at_ undo records current a) :
    Tracked effect height at_ undo snapshot floor (items ++ [x]) records' current' where
  aboveFloor := hfloor
  witnessed := by
    intro b hb
    rcases hmem b hb with hold | hnew
    · obtain ⟨y, hy, hyb⟩ := h.witnessed b hold
      exact ⟨y, mem_append_left _ hy, hyb⟩
    · exact ⟨x, by simp, hnew.symm⟩
  tracks := by
    intro a ha
    rcases lt_or_ge a (height x) with hlt | hge
    · -- the item is above `a` and the history below it is the old one
      have hnone : upTo height [x] a = [] := by simp [upTo, hlt]
      rw [upTo_append, hnone, append_nil, hbelow a hlt]
      exact h.tracks a ha
    -- everything is at or below `a`
    have hall : ∀ y ∈ items ++ [x], height y ≤ a := by
      intro y hy
      rcases mem_append.mp hy with hold | hnew
      · exact (hx y hold).trans hge
      · exact (mem_singleton.mp hnew) ▸ hge
    have hle : ∀ b ∈ records', at_ b ≤ a := by
      intro b hb
      rcases hmem b hb with hold | hnew
      · exact (h.record_le hx hold).trans hge
      · exact hnew ▸ hge
    rw [upTo_of_le hall, undoAbove_of_le hle, replay_append, h.replay_all]
    simp [replay, heffect]

/-- A new item without effect needs no record. -/
theorem idle (heffect : effect current x = some current) :
    Tracked effect height at_ undo snapshot floor (items ++ [x]) records current :=
  h.append hx heffect h.aboveFloor (fun _ hb => .inl hb) fun _ _ => rfl

/-- A new item whose height gets a record. -/
theorem push {b : B} (heffect : effect current x = some current') (hat : at_ b = height x)
    (hundo : undo b current' = current) (hfloor : floor ≤ height x) :
    Tracked effect height at_ undo snapshot floor (items ++ [x]) (records ++ [b]) current' := by
  refine h.append hx heffect ?_ ?_ ?_
  · intro b' hb'
    rcases mem_append.mp hb' with hold | hnew
    · exact h.aboveFloor b' hold
    rw [mem_singleton.mp hnew, hat]
    exact hfloor
  · intro b' hb'
    rcases mem_append.mp hb' with hold | hnew
    · exact .inl hold
    · exact .inr (mem_singleton.mp hnew ▸ hat)
  · intro a ha
    rw [undoAbove_append, undoAbove_single_of_lt (hat ▸ ha), hundo]

end

/-- Dropping the oldest record makes its height the floor. -/
theorem dropFront {b : B}
    (h : Tracked effect height at_ undo snapshot floor items (b :: records) current)
    (hsorted : ∀ b' ∈ records, at_ b ≤ at_ b') :
    Tracked effect height at_ undo snapshot (at_ b) items records current where
  aboveFloor := hsorted
  witnessed := fun b' hb' => h.witnessed b' (mem_cons_of_mem _ hb')
  tracks := by
    intro a ha
    have hskip : undoAbove at_ undo (b :: records) current a =
        undoAbove at_ undo records current a := by
      simp [undoAbove, not_lt.mpr ha]
    rw [← hskip]
    exact h.tracks a ((h.aboveFloor b mem_cons_self).trans ha)

end Tracked

/-! ### Before-images -/

variable {images : List B}

/-- Restoring is undoing by records that do not look at the current state. -/
theorem restoreAt_eq : restoreAt at_ before images current a =
    undoAbove at_ (fun b _ => before b) images current a := by
  induction images with
  | nil => rfl
  | cons b rest ih =>
    by_cases hlt : a < at_ b
    · simp [restoreAt, undoAbove, hlt]
    · simpa [restoreAt, undoAbove, hlt] using ih

/-- An image above the height decides what is restored, whatever the current state is. -/
theorem restoreAt_congr {current current' : S} (h : ∃ b ∈ images, a < at_ b) :
    restoreAt at_ before images current a = restoreAt at_ before images current' a := by
  obtain ⟨b, hb, hlt⟩ := h
  have hmem : b ∈ images.filter fun b => a < at_ b := mem_filter.mpr ⟨hb, by simpa using hlt⟩
  obtain ⟨first, rest, hcons⟩ := exists_cons_of_ne_nil (ne_nil_of_mem hmem)
  simp [restoreAt, hcons]

namespace Journaled

theorem start (snapshot : S) (floor : ℕ) :
    Journaled effect height at_ before snapshot floor [] [] snapshot :=
  ⟨.start snapshot floor, .nil⟩

section

variable (h : Journaled effect height at_ before snapshot floor items images current)

include h

/-- The floor may be raised up to the oldest image. -/
theorem raise {floor' : ℕ} (hle : floor ≤ floor') (himages : ∀ b ∈ images, floor' ≤ at_ b) :
    Journaled effect height at_ before snapshot floor' items images current :=
  ⟨⟨himages, h.witnessed, fun a ha => h.tracks a (hle.trans ha)⟩, h.sorted⟩

variable (hx : ∀ y ∈ items, height y ≤ height x)

include hx

/-- A new item whose height gets a before-image. -/
theorem capture {b : B} (heffect : effect current x = some current') (hat : at_ b = height x)
    (hbefore : before b = current) (hfloor : floor ≤ height x) :
    Journaled effect height at_ before snapshot floor (items ++ [x]) (images ++ [b]) current' := by
  refine ⟨h.push hx heffect hat hbefore hfloor,
    pairwise_append.mpr ⟨h.sorted, pairwise_singleton _ _, ?_⟩⟩
  intro b₁ hb₁ b₂ hb₂
  rw [mem_singleton.mp hb₂, hat]
  exact h.record_le hx hb₁

/-- A new item at a height that has its before-image already. -/
theorem extend (heffect : effect current x = some current')
    (hcaptured : ∃ b ∈ images, at_ b = height x) :
    Journaled effect height at_ before snapshot floor (items ++ [x]) images current' := by
  refine ⟨h.append hx heffect h.aboveFloor (fun _ hb => .inl hb) fun a ha => ?_, h.sorted⟩
  obtain ⟨b, hb, hbx⟩ := hcaptured
  rw [← restoreAt_eq, ← restoreAt_eq]
  exact restoreAt_congr ⟨b, hb, hbx ▸ ha⟩

theorem idle (heffect : effect current x = some current) :
    Journaled effect height at_ before snapshot floor (items ++ [x]) images current :=
  ⟨h.toTracked.idle hx heffect, h.sorted⟩

end

/-- Dropping the oldest image makes its height the floor. -/
theorem dropFront {b : B}
    (h : Journaled effect height at_ before snapshot floor items (b :: images) current) :
    Journaled effect height at_ before snapshot (at_ b) items images current :=
  ⟨h.toTracked.dropFront (pairwise_cons.mp h.sorted).1, h.sorted.of_cons⟩

/-- Dropping every image at or below a height makes that height the floor. -/
theorem dropThrough (h : Journaled effect height at_ before snapshot floor items images current)
    {n : ℕ} (hn : floor ≤ n) :
    Journaled effect height at_ before snapshot n items
      (images.dropWhile fun b => decide (at_ b ≤ n)) current := by
  induction images generalizing floor with
  | nil => exact h.raise hn (by simp)
  | cons b rest ih =>
    rcases lt_or_ge n (at_ b) with hlt | hge
    · rw [dropWhile_cons_of_neg (by simpa using hlt)]
      refine h.raise hn fun b' hb' => ?_
      rcases mem_cons.mp hb' with rfl | hmem
      · exact hlt.le
      · exact hlt.le.trans ((pairwise_cons.mp h.sorted).1 b' hmem)
    · rw [dropWhile_cons_of_pos (by simpa using hge)]
      exact ih h.dropFront hge

end Journaled

/-- In a sorted journal, what is left after dropping the images up to `n` is above `n`. -/
theorem lt_of_mem_dropWhile {n : ℕ} {b : B} (hsorted : images.Pairwise fun b b' => at_ b ≤ at_ b')
    (hb : b ∈ images.dropWhile fun b => decide (at_ b ≤ n)) : n < at_ b := by
  induction images with
  | nil => simp at hb
  | cons first rest ih =>
    obtain ⟨hfirst, hrest⟩ := pairwise_cons.mp hsorted
    rcases lt_or_ge n (at_ first) with hlt | hge
    · rw [dropWhile_cons_of_neg (by simpa using hlt)] at hb
      rcases mem_cons.mp hb with rfl | hmem
      · exact hlt
      · exact hlt.trans_le (hfirst b hmem)
    · rw [dropWhile_cons_of_pos (by simpa using hge)] at hb
      exact ih hrest hb

/-- In a sorted journal the images above `a` are a suffix. -/
theorem rdropWhile_eq_filter (a : ℕ) (hsorted : images.Pairwise fun b b' => at_ b ≤ at_ b') :
    images.rdropWhile (fun b => decide (a < at_ b)) = images.filter fun b => at_ b ≤ a := by
  induction images using List.reverseRecOn with
  | nil => rfl
  | append_singleton rest b ih =>
    obtain ⟨hrest, -, hlast⟩ := pairwise_append.mp hsorted
    rcases lt_or_ge a (at_ b) with hlt | hge
    · rw [rdropWhile_concat_pos _ _ _ (by simpa using hlt), ih hrest]
      simp [filter_append, hlt]
    have hall : ∀ b' ∈ rest ++ [b], at_ b' ≤ a := by
      intro b' hb'
      rcases mem_append.mp hb' with hold | hnew
      · exact (hlast b' hold b (by simp)).trans hge
      · exact mem_singleton.mp hnew ▸ hge
    rw [rdropWhile_concat_neg _ _ _ (by simpa using hge)]
    exact (filter_eq_self.mpr fun b' hb' => by simpa using hall b' hb').symm

/-- Going back to an ancestor at or above the floor. -/
theorem Journaled.rewind
    (h : Journaled effect height at_ before snapshot floor items images current) (ha : floor ≤ a) :
    Journaled effect height at_ before snapshot floor (upTo height items a)
      (images.rdropWhile fun b => decide (a < at_ b))
      (restoreAt at_ before images current a) := by
  rw [rdropWhile_eq_filter a h.sorted, restoreAt_eq]
  exact ⟨h.toTracked.rewind h.sorted ha, h.sorted.filter _⟩

end Lunarbase.Rollback
