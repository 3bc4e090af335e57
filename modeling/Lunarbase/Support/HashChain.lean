import Mathlib.Data.List.Chain
import Mathlib.Data.List.Nodup
import Mathlib.Data.List.Range
import Mathlib.Tactic.Common

/-!
# Support — HashChain

Branches of blocks that are linked by name: each block is one higher than its parent and names it.
Heights number a branch without gaps, and two branches over one root that share a name share one
at every height below it.
-/

namespace Lunarbase.HashChain

open List

universe u v

variable {β : Type u} {ι : Type v} (height : β → Nat) (name parent : β → ι)

/-- `block` is a child of `root`. -/
def Extends (root block : β) : Prop := height block = height root + 1 ∧ parent block = name root

/-- `branch` continues `root` block by block. -/
def Linked (root : β) (branch : List β) : Prop :=
  (root :: branch).IsChain (Extends height name parent)

variable {height name parent}

theorem Linked.nil (root : β) : Linked height name parent root [] := isChain_singleton root

variable {block root : β} {branch : List β}

theorem linked_cons {rest : List β} :
    Linked height name parent root (block :: rest) ↔
      Extends height name parent root block ∧ Linked height name parent block rest :=
  isChain_cons_cons

section

variable (h : Linked height name parent root branch)

include h

/-- **The heights of a branch have no gap**: they count up from the one above the root. -/
theorem Linked.heights : branch.map height = List.range' (height root + 1) branch.length := by
  induction branch generalizing root with
  | nil => rfl
  | cons block rest ih =>
    obtain ⟨⟨hheight, -⟩, hrest⟩ := linked_cons.mp h
    rw [map_cons, ih hrest, length_cons, List.range'_succ, hheight]

theorem Linked.height_mem (hmem : block ∈ branch) :
    height root < height block ∧ height block ≤ height root + branch.length := by
  have hheight : height block ∈ branch.map height := mem_map_of_mem hmem
  rw [h.heights, mem_range'_1] at hheight
  omega

/-- A height occurs once in a branch. -/
theorem Linked.eq_of_height {block' : β} (hblock : block ∈ branch) (hblock' : block' ∈ branch)
    (heq : height block = height block') : block = block' := by
  have hnodup : (branch.map height).Nodup := by
    rw [h.heights]
    exact nodup_range'
  exact inj_on_of_nodup_map hnodup hblock hblock' heq

/-- The parent of a block of a branch is the root or in the branch. -/
theorem Linked.exists_parent (hmem : block ∈ branch) :
    Extends height name parent root block ∨
      ∃ below ∈ branch, Extends height name parent below block := by
  induction branch generalizing root with
  | nil => cases hmem
  | cons first rest ih =>
    obtain ⟨hfirst, hrest⟩ := linked_cons.mp h
    rcases mem_cons.mp hmem with rfl | hmem
    · exact .inl hfirst
    rcases ih hrest hmem with hext | ⟨below, hbelow, hext⟩
    · exact .inr ⟨first, mem_cons_self, hext⟩
    · exact .inr ⟨below, mem_cons_of_mem _ hbelow, hext⟩

/-- The block right above the root is the first of the branch. -/
theorem Linked.head_of_height (hmem : block ∈ branch)
    (hheight : height block = height root + 1) : branch.head? = some block := by
  cases branch with
  | nil => cases hmem
  | cons first rest =>
    obtain ⟨⟨hfirst, -⟩, -⟩ := linked_cons.mp h
    rw [List.head?_cons, h.eq_of_height mem_cons_self hmem (hfirst.trans hheight.symm)]

end

/-- **Branches that meet have met from the start.**  Where a name stands for one height and one
parent, two branches over one root that share a name share the name of their first blocks. -/
theorem Linked.share_first {left right : List β} (hleft : Linked height name parent root left)
    (hright : Linked height name parent root right)
    (hsame : ∀ a ∈ left, ∀ b ∈ right, name a = name b → height a = height b ∧ parent a = parent b)
    {a b : β} (ha : a ∈ left) (hb : b ∈ right) (hname : name a = name b) :
    ∃ a₀ b₀, left.head? = some a₀ ∧ right.head? = some b₀ ∧ name a₀ = name b₀ := by
  -- by induction on the distance from the root, from a shared block to the two parents
  obtain ⟨n, hn⟩ : ∃ n, height a = height root + 1 + n :=
    ⟨height a - (height root + 1), by have := hleft.height_mem ha; omega⟩
  induction n generalizing a b with
  | zero =>
    obtain ⟨hheight, -⟩ := hsame a ha b hb hname
    exact ⟨a, b, hleft.head_of_height ha hn, hright.head_of_height hb (hheight ▸ hn), hname⟩
  | succ n ih =>
    obtain ⟨hheight, hparent⟩ := hsame a ha b hb hname
    rcases hleft.exists_parent ha with ⟨hroot, -⟩ | ⟨a', ha', hext⟩
    · omega
    rcases hright.exists_parent hb with ⟨hroot, -⟩ | ⟨b', hb', hext'⟩
    · omega
    have hname' : name a' = name b' := hext.2.symm.trans (hparent.trans hext'.2)
    have ha'n : height a = height a' + 1 := hext.1
    exact ih ha' hb' hname' (by omega)

end Lunarbase.HashChain
