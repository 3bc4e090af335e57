import Mathlib.Data.List.Chain

/-!
# Support — Paging

A range of numbers that is visited page by page.  What the pages have to be is `Pages`; `Paged`
says how they are cut, one after another, and everything is proved along it: the cut is a partition
(`Paged.partition`), and a loop that computes the next page from the last one visits exactly these
(`Paged.pageLoop`).
-/

namespace Lunarbase

open List

/-- An inclusive range. -/
structure Page where
  first : Nat
  last : Nat
  deriving DecidableEq, Repr

/-- Consecutive, disjoint, non-empty pages of at most `size` numbers: those of `[a, b]`. -/
structure Pages (a b size : Nat) (pages : List Page) : Prop where
  start : ∀ page ∈ pages.head?, page.first = a
  sized : ∀ page ∈ pages, page.first ≤ page.last ∧ page.last < page.first + size
  consecutive : pages.IsChain fun lower upper => upper.first = lower.last + 1
  disjoint : pages.Pairwise fun lower upper => lower.last < upper.first
  covers : ∀ n, (∃ page ∈ pages, page.first ≤ n ∧ n ≤ page.last) ↔ a ≤ n ∧ n ≤ b

variable {a b size : Nat} {pages : List Page}

theorem Pages.nil (h : b < a) : Pages a b size [] := by
  refine ⟨by simp, by simp, by simp, by simp, fun n => ?_⟩
  simp only [not_mem_nil, false_and, exists_false, false_iff]
  omega

theorem Pages.cons {last : Nat} (h : Pages (last + 1) b size pages) (hle : a ≤ last)
    (hsize : last < a + size) (hlast : last ≤ b) : Pages a b size (⟨a, last⟩ :: pages) where
  start := by simp
  sized := forall_mem_cons.mpr ⟨⟨hle, hsize⟩, h.sized⟩
  consecutive := isChain_cons.mpr ⟨h.start, h.consecutive⟩
  disjoint := by
    refine pairwise_cons.mpr ⟨fun page hpage => ?_, h.disjoint⟩
    have hfirst := (h.covers page.first).mp ⟨page, hpage, le_rfl, (h.sized page hpage).1⟩
    exact hfirst.1
  covers := by
    intro n
    simp only [mem_cons, exists_eq_or_imp, h.covers]
    omega

/-- The pages of `[a, b]` when the page that starts at `n` ends at `pageEnd n`. -/
inductive Paged (pageEnd : Nat → Nat) (b : Nat) : Nat → List Page → Prop
  | last {a : Nat} (h : pageEnd a = b) : Paged pageEnd b a [⟨a, b⟩]
  | more {a : Nat} {pages : List Page} (h : pageEnd a < b)
      (hrest : Paged pageEnd b (pageEnd a + 1) pages) :
      Paged pageEnd b a (⟨a, pageEnd a⟩ :: pages)

/-- A page ends inside the range and has at most `size` numbers. -/
def EndsWithin (pageEnd : Nat → Nat) (b size : Nat) : Prop :=
  ∀ n ≤ b, n ≤ pageEnd n ∧ pageEnd n < n + size ∧ pageEnd n ≤ b

variable {pageEnd next : Nat → Nat}

theorem EndsWithin.exists_paged (hend : EndsWithin pageEnd b size) (a : Nat) (ha : a ≤ b) :
    ∃ pages, Paged pageEnd b a pages := by
  obtain ⟨hle, -, hb⟩ := hend a ha
  rcases Nat.eq_or_lt_of_le hb with hlast | hmore
  · exact ⟨_, .last hlast⟩
  obtain ⟨pages, hpages⟩ := hend.exists_paged (pageEnd a + 1) hmore
  exact ⟨_, .more hmore hpages⟩
termination_by b - a
decreasing_by omega

theorem Paged.partition (h : Paged pageEnd b a pages) (hend : EndsWithin pageEnd b size)
    (ha : a ≤ b) : Pages a b size pages := by
  induction h with
  | @last a hlast =>
    obtain ⟨hle, hsize, -⟩ := hend a ha
    exact (Pages.nil (Nat.lt_succ_self b)).cons ha (hlast ▸ hsize) le_rfl
  | @more a _ hmore _ ih =>
    obtain ⟨hle, hsize, hb⟩ := hend a ha
    exact (ih hmore).cons hle hsize hb

/-! ### Loops -/

section

variable {σ ε κ : Type}

/-- The loop that visits the page from `start` on, and ends after the page that ends at `b`.
`none` means that the fuel did not suffice. -/
def pageLoop (pageEnd next : Nat → Nat) (b : Nat) (visit : σ → Page → Except ε σ) :
    Nat → σ → Nat → Option (Except ε σ)
  | 0, _, _ => none
  | fuel + 1, s, start =>
    match visit s ⟨start, pageEnd start⟩ with
    | .error e => some (.error e)
    | .ok s' =>
      if pageEnd start = b then some (.ok s')
      else pageLoop pageEnd next b visit fuel s' (next (pageEnd start))

/-- The loop over what an iterator with the state `κ` yields. -/
def forEachPage (step : κ → Option (Page × κ)) (visit : σ → Page → Except ε σ) :
    Nat → σ → κ → Option (Except ε σ)
  | 0, _, _ => none
  | fuel + 1, s, state =>
    match step state with
    | none => some (.ok s)
    | some (page, state') =>
      match visit s page with
      | .error e => some (.error e)
      | .ok s' => forEachPage step visit fuel s' state'

/-- Whatever a visit does, the run visits these pages in this order up to the first that fails, and
then ends as `finish` does. -/
def Visits (run : (σ → Page → Except ε σ) → Nat → σ → Option (Except ε σ)) (pages : List Page)
    (finish : σ → Except ε σ) : Prop :=
  ∀ visit s, ∃ enough, ∀ fuel, enough ≤ fuel →
    run visit fuel s = some (pages.foldlM visit s >>= finish)

theorem Paged.pageLoop (h : Paged pageEnd b a pages) (hnext : ∀ n < b, next n = n + 1)
    (visit : σ → Page → Except ε σ) (s : σ) {fuel : Nat} (hfuel : pages.length ≤ fuel) :
    pageLoop pageEnd next b visit fuel s a = some (pages.foldlM visit s) := by
  induction h generalizing s fuel with
  | @last a hlast =>
    obtain ⟨fuel, rfl⟩ := Nat.exists_eq_add_of_le' hfuel
    rw [length_singleton, Lunarbase.pageLoop, hlast, foldlM_cons]
    cases visit s ⟨a, b⟩ with
    | error e => rfl
    | ok s' => exact if_pos rfl
  | @more a rest hmore _ ih =>
    obtain ⟨fuel, rfl⟩ := Nat.exists_eq_add_of_le' hfuel
    rw [length_cons, ← Nat.add_assoc, Lunarbase.pageLoop, foldlM_cons]
    cases visit s ⟨a, pageEnd a⟩ with
    | error e => rfl
    | ok s' =>
      dsimp only
      rw [if_neg hmore.ne, hnext _ hmore]
      exact ih s' (Nat.le_add_left _ _)

/-- An iterator that yields the page from `n` on and goes on after it visits the same pages. -/
theorem Paged.visits (h : Paged pageEnd b a pages) {step : κ → Option (Page × κ)} (state : Nat → κ)
    {stop : κ} (hstop : step stop = none) (hstep : ∀ n ≤ b, step (state n) =
      some (⟨n, pageEnd n⟩, if pageEnd n < b then state (pageEnd n + 1) else stop)) (ha : a ≤ b)
    (visit : σ → Page → Except ε σ) (s : σ) {fuel : Nat} (hfuel : pages.length + 1 ≤ fuel) :
    forEachPage step visit fuel s (state a) = some (pages.foldlM visit s) := by
  induction h generalizing s fuel with
  | @last a hlast =>
    obtain ⟨fuel, rfl⟩ := Nat.exists_eq_add_of_le' hfuel
    rw [length_singleton, ← Nat.add_assoc, forEachPage, hstep a ha, hlast, foldlM_cons]
    dsimp only
    cases visit s ⟨a, b⟩ with
    | error e => rfl
    | ok s' =>
      dsimp only
      rw [if_neg (lt_irrefl b), forEachPage, hstop]
      rfl
  | @more a rest hmore _ ih =>
    obtain ⟨fuel, rfl⟩ := Nat.exists_eq_add_of_le' hfuel
    rw [length_cons, ← Nat.add_assoc, forEachPage, hstep a ha, foldlM_cons]
    dsimp only
    cases visit s ⟨a, pageEnd a⟩ with
    | error e => rfl
    | ok s' =>
      rw [if_pos hmore]
      exact ih hmore s' (Nat.le_add_left _ _)

end

end Lunarbase
