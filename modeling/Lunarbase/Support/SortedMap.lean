import Mathlib.Algebra.BigOperators.Group.List.Basic
import Mathlib.Order.Lattice

/-!
# Support — SortedMap

A finite map kept in the order of its keys: the entries are a list, and the keys increase strictly
along it, so every key occurs once.  Taking out the least entries one after another leaves the
others as they are (`take_front`), and the entries up to a bound come first (`upTo_append_above`).
-/

namespace Lunarbase

open List

universe u v

/-- The entries of a map, in the order of their keys. -/
@[ext]
structure SortedMap (κ : Type u) (ν : Type v) [LinearOrder κ] where
  entries : List (κ × ν)
  sorted : entries.Pairwise fun a b => a.1 < b.1

namespace SortedMap

variable {κ : Type u} {ν : Type v} [LinearOrder κ]

def empty : SortedMap κ ν := ⟨[], .nil⟩

def values (m : SortedMap κ ν) : List ν := m.entries.map Prod.snd

def containsKey (m : SortedMap κ ν) (key : κ) : Bool := m.entries.any fun entry => entry.1 = key

variable {entry : κ × ν} {key : κ} {m : SortedMap κ ν} {entries : List (κ × ν)} {value : ν}

theorem ne_of_containsKey_eq_false (h : m.containsKey key = false) (hentry : entry ∈ m.entries) :
    entry.1 ≠ key := by
  have hnone := any_eq_false.mp h entry hentry
  simpa using hnone

/-! ### Insertion -/

/-- One pass: the entry goes before the first greater key, or takes the place of its own key. -/
def insertEntry (key : κ) (value : ν) : List (κ × ν) → List (κ × ν)
  | [] => [(key, value)]
  | entry :: rest =>
    if key < entry.1 then (key, value) :: entry :: rest
    else if key = entry.1 then (key, value) :: rest
    else entry :: insertEntry key value rest

theorem mem_insertEntry (h : entry ∈ insertEntry key value entries) :
    entry = (key, value) ∨ entry ∈ entries := by
  induction entries with
  | nil => exact .inl (mem_singleton.mp h)
  | cons first rest ih =>
    rw [insertEntry] at h
    split at h
    · exact mem_cons.mp h
    split at h
    · exact (mem_cons.mp h).imp_right (mem_cons_of_mem first)
    rcases mem_cons.mp h with rfl | hrest
    · exact .inr mem_cons_self
    · exact (ih hrest).imp_right (mem_cons_of_mem first)

theorem sorted_insertEntry (h : entries.Pairwise fun a b => a.1 < b.1) :
    (insertEntry key value entries).Pairwise fun a b => a.1 < b.1 := by
  induction entries with
  | nil => exact pairwise_singleton _ _
  | cons first rest ih =>
    obtain ⟨hfirst, hrest⟩ := pairwise_cons.mp h
    rw [insertEntry]
    split
    next hlt =>
      refine pairwise_cons.mpr ⟨fun entry hentry => ?_, h⟩
      rcases mem_cons.mp hentry with rfl | hin
      · exact hlt
      · exact hlt.trans (hfirst entry hin)
    next hnlt =>
      split
      next heq => exact pairwise_cons.mpr ⟨fun entry hin => heq ▸ hfirst entry hin, hrest⟩
      next hne =>
        refine pairwise_cons.mpr ⟨fun entry hentry => ?_, ih hrest⟩
        rcases mem_insertEntry hentry with rfl | hin
        · exact lt_of_le_of_ne (not_lt.mp hnlt) (Ne.symm hne)
        · exact hfirst entry hin

def insert (m : SortedMap κ ν) (key : κ) (value : ν) : SortedMap κ ν :=
  ⟨insertEntry key value m.entries, sorted_insertEntry m.sorted⟩

theorem insertEntry_perm (h : ∀ entry ∈ entries, entry.1 ≠ key) :
    (insertEntry key value entries).Perm ((key, value) :: entries) := by
  induction entries with
  | nil => exact .refl _
  | cons first rest ih =>
    rw [insertEntry]
    split
    · exact .refl _
    rw [if_neg (h first mem_cons_self).symm]
    exact ((ih fun entry hin => h entry (mem_cons_of_mem first hin)).cons first).trans
      (.swap _ _ _)

/-- A new key adds one entry. -/
theorem insert_perm (value : ν) (h : m.containsKey key = false) :
    (m.insert key value).entries.Perm ((key, value) :: m.entries) :=
  insertEntry_perm fun _ hentry => ne_of_containsKey_eq_false h hentry

/-! ### Removal -/

/-- The value of a key, and the map without it. -/
def take (m : SortedMap κ ν) (key : κ) : Option (ν × SortedMap κ ν) :=
  (m.entries.find? fun entry => entry.1 = key).map fun entry =>
    (entry.2, ⟨m.entries.filter fun other => other.1 ≠ key, m.sorted.filter _⟩)

/-- The least entry. -/
theorem take_front {rest : List (κ × ν)} (h : (entry :: rest).Pairwise fun a b => a.1 < b.1) :
    take ⟨entry :: rest, h⟩ entry.1 = some (entry.2, ⟨rest, h.of_cons⟩) := by
  have hothers : ∀ key value, (key, value) ∈ rest → ¬key = entry.1 := fun _ _ hother =>
    ((pairwise_cons.mp h).1 _ hother).ne'
  simpa [take] using hothers

/-! ### Bounds -/

/-- The entries whose keys do not exceed the bound. -/
def upTo (m : SortedMap κ ν) (bound : κ) : List (κ × ν) :=
  m.entries.filter fun entry => entry.1 ≤ bound

/-- The entries whose keys exceed the bound. -/
def above (m : SortedMap κ ν) (bound : κ) : SortedMap κ ν :=
  ⟨m.entries.filter fun entry => bound < entry.1, m.sorted.filter _⟩

theorem mem_above {bound : κ} :
    entry ∈ (m.above bound).entries ↔ entry ∈ m.entries ∧ bound < entry.1 := by
  rw [above, mem_filter, decide_eq_true_iff]

theorem upTo_append_above (m : SortedMap κ ν) (bound : κ) :
    m.upTo bound ++ (m.above bound).entries = m.entries := by
  obtain ⟨entries, hsorted⟩ := m
  change entries.filter _ ++ entries.filter _ = entries
  induction entries with
  | nil => rfl
  | cons first rest ih =>
    obtain ⟨hfirst, hrest⟩ := pairwise_cons.mp hsorted
    by_cases hle : first.1 ≤ bound
    · have hkept : (first :: rest).filter (fun entry => decide (entry.1 ≤ bound)) =
          first :: rest.filter fun entry => decide (entry.1 ≤ bound) :=
        filter_cons_of_pos (decide_eq_true hle)
      have hdropped : (first :: rest).filter (fun entry => decide (bound < entry.1)) =
          rest.filter fun entry => decide (bound < entry.1) :=
        filter_cons_of_neg (by simpa using hle)
      rw [hkept, hdropped, cons_append, ih hrest]
    -- Everything after a key above the bound is above it.
    have hall : ∀ entry ∈ first :: rest, bound < entry.1 := by
      intro entry hentry
      rcases mem_cons.mp hentry with rfl | hin
      · exact not_le.mp hle
      · exact (not_le.mp hle).trans (hfirst entry hin)
    have hnone : (first :: rest).filter (fun entry => decide (entry.1 ≤ bound)) = [] :=
      filter_eq_nil_iff.mpr fun entry hentry => by simpa using hall entry hentry
    rw [hnone, nil_append]
    exact filter_eq_self.mpr fun entry hentry => decide_eq_true (hall entry hentry)

end SortedMap

end Lunarbase
