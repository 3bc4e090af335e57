import Lunarbase.Client.Correction
import Lunarbase.Client.Reference

/-!
# Client — Envelope

What an accepted correction envelope stands for.  Validation gives two hash-linked branches over
one ancestor and replacement logs that lie on the new one; what it does not give is that the
branches have parted.  The scan for repeated hashes asks two mentions of one hash to describe one
block, so a block may be both abandoned and replaced, and then the advertised ancestor is not the
last block the branches share.
-/

namespace Lunarbase.Client

open List

namespace ChainCorrection

/-- No block is in both branches. -/
def Parted (c : ChainCorrection) : Prop :=
  ∀ old ∈ c.oldBranch, ∀ new ∈ c.newBranch, old.cursor.blockHash ≠ new.cursor.blockHash

/-- What the fields of a correction say of themselves. -/
structure Sound (c : ChainCorrection) : Prop where
  oldBranch : BranchTo c.commonAncestor c.oldTip c.oldBranch
  newBranch : BranchTo c.commonAncestor c.newTip c.newBranch
  logs : ∀ log ∈ c.replacementLogs, ∃ block ∈ c.newBranch, InBlock log block ∧
    ∀ other ∈ c.newBranch, other.cursor.blockNumber = log.cursor.blockNumber → other = block
  ordered : c.replacementLogs.Pairwise fun log log' =>
    log.cursor.eventOrder < log'.cursor.eventOrder
  parted : c.Parted

/-- The first blocks after the ancestor differ, or one of the branches has none. -/
def partsAtAncestor (c : ChainCorrection) : Bool :=
  match c.oldBranch.head?, c.newBranch.head? with
  | some old, some new => old.cursor.blockHash != new.cursor.blockHash
  | _, _ => true

theorem repeatedHashesConsistent_iff {blocks : List BlockRef} :
    repeatedHashesConsistent blocks = true ↔
      blocks.Pairwise fun left right => consistentMention left right = true := by
  induction blocks with
  | nil => simp [repeatedHashesConsistent]
  | cons left rest ih =>
    simp only [repeatedHashesConsistent, Bool.and_eq_true, all_eq_true, ih, pairwise_cons]

/-- Two mentions of a hash give it one number and one parent. -/
theorem same_of_consistentMention {left right : BlockRef}
    (h : consistentMention left right = true) (hsome : left.cursor.blockHash.isSome)
    (hhash : left.cursor.blockHash = right.cursor.blockHash) :
    left.cursor.blockNumber = right.cursor.blockNumber ∧ left.parentHash = right.parentHash := by
  have hnone : left.cursor.blockHash.isNone = false := by
    rw [← Option.not_isSome, hsome, Bool.not_true]
  simp only [consistentMention, ← hhash, hnone, bne_self_eq_false, Bool.false_or,
    Bool.and_eq_true, beq_iff_eq] at h
  exact ⟨h.1.1.2.symm, h.2.symm⟩

variable {c : ChainCorrection}

theorem pairwise_of_consistent (h : repeatedHashesConsistent c.blocks = true) :
    (c.oldBranch ++ c.newBranch).Pairwise fun left right =>
      consistentMention left right = true := by
  have hpairs := repeatedHashesConsistent_iff.mp h
  rw [blocks, pairwise_cons, pairwise_cons, pairwise_cons] at hpairs
  exact hpairs.2.2.2

/-- A hash that occurs in both branches stands for one number and one parent. -/
theorem same_of_consistent (h : repeatedHashesConsistent c.blocks = true)
    {old new : BlockRef} (hold : old ∈ c.oldBranch) (hnew : new ∈ c.newBranch)
    (hsome : old.cursor.blockHash.isSome) (hhash : old.cursor.blockHash = new.cursor.blockHash) :
    old.cursor.blockNumber = new.cursor.blockNumber ∧ old.parentHash = new.parentHash :=
  same_of_consistentMention
    ((pairwise_append.mp (pairwise_of_consistent h)).2.2 old hold new hnew) hsome hhash

/-- A branch names each of its blocks once. -/
theorem hashes_nodup_of_branchTo {ancestor tip : BlockRef} {branch : List BlockRef}
    (hbranch : BranchTo ancestor tip branch)
    (hmentions : branch.Pairwise fun left right => consistentMention left right = true) :
    (branch.map (·.cursor.blockHash)).Nodup := by
  have hnumbers : (branch.map (·.cursor.blockNumber)).Nodup :=
    hbranch.heights ▸ nodup_range'
  -- a repeated hash would stand for two numbers
  refine pairwise_map.mpr ?_
  refine (hmentions.and (pairwise_map.mp hnumbers)).imp_of_mem ?_
  rintro left right hleft - ⟨hmention, hnumber⟩ hhash
  exact hnumber (same_of_consistentMention hmention
    (hbranch.hashed left (mem_cons_of_mem _ hleft)) hhash).1

variable {env : Platform} {c : ChainCorrection}

section

variable (h : c.validate env = .ok ())

include h

theorem hashes_nodup_of_validate :
    (c.oldBranch.map (·.cursor.blockHash)).Nodup ∧
      (c.newBranch.map (·.cursor.blockHash)).Nodup := by
  obtain ⟨-, hrepeated, hold, hnew, -⟩ := validate_eq_ok h
  obtain ⟨hmentions, hmentions', -⟩ := pairwise_append.mp (pairwise_of_consistent hrepeated)
  exact ⟨hashes_nodup_of_branchTo hold hmentions, hashes_nodup_of_branchTo hnew hmentions'⟩

/-- A log lies in one block of the new branch. -/
theorem logs_of_validate :
    ∀ log ∈ c.replacementLogs, ∃ block ∈ c.newBranch, InBlock log block ∧
      ∀ other ∈ c.newBranch, other.cursor.blockNumber = log.cursor.blockNumber → other = block := by
  obtain ⟨-, -, -, hnew, hlogs⟩ := validate_eq_ok h
  intro log hlog
  obtain ⟨block, hblock, hin⟩ := (validateLogs_spec hlogs).1 log hlog
  exact ⟨block, hblock, hin, fun other hother hnumber =>
    hnew.linked.eq_of_height hother hblock (hnumber.trans hin.number)⟩

/-- **The branches have parted where they part at the ancestor.** -/
theorem parted_iff : c.Parted ↔ c.partsAtAncestor = true := by
  obtain ⟨-, hrepeated, hold, hnew, -⟩ := validate_eq_ok h
  constructor
  · intro hparted
    rw [partsAtAncestor]
    split
    next old new hold₀ hnew₀ =>
      exact bne_iff_ne.mpr (hparted old (mem_of_head? hold₀) new (mem_of_head? hnew₀))
    · rfl
  intro hparts a ha b hb hhash
  -- a shared hash descends to the first blocks, which differ
  obtain ⟨a₀, b₀, ha₀, hb₀, hfirst⟩ := hold.linked.share_first hnew.linked
    (fun a ha b hb hhash => same_of_consistent hrepeated ha hb
      (hold.hashed a (mem_cons_of_mem _ ha)) hhash) ha hb hhash
  rw [partsAtAncestor, ha₀, hb₀] at hparts
  exact bne_iff_ne.mp hparts hfirst

/-- **An accepted envelope is sound exactly when its branches part at the ancestor.** -/
theorem sound_iff_partsAtAncestor : c.Sound ↔ c.partsAtAncestor = true := by
  constructor
  · intro hsound
    exact (parted_iff h).mp hsound.parted
  intro hparts
  obtain ⟨-, -, hold, hnew, hlogs⟩ := validate_eq_ok h
  exact ⟨hold, hnew, logs_of_validate h, (validateLogs_spec hlogs).2.1, (parted_iff h).mpr hparts⟩

end

theorem sound_iff_partsAtAncestor_parted :
    replaceFive.validate referencePlatform = .ok () ∧ replaceFive.Sound := by
  have hvalid : replaceFive.validate referencePlatform = .ok () := by decide +kernel
  exact ⟨hvalid, (sound_iff_partsAtAncestor hvalid).mpr (by decide +kernel)⟩

/-- Block 6 is replaced, but both branches are told from block 4 on: block 5 is in both. -/
def overlappingCorrection : ChainCorrection where
  commonAncestor := blockRef 4 0xb4 0xb3
  oldTip := blockRef 6 0xb6 0xb5
  newTip := blockRef 6 0xd6 0xb5
  oldBranch := [blockRef 5 0xb5 0xb4, blockRef 6 0xb6 0xb5]
  newBranch := [blockRef 5 0xb5 0xb4, blockRef 6 0xd6 0xb5]
  replacementLogs := []
  retainedBytes := 1024

/-- **An accepted correction whose ancestor is not the last shared block.** -/
theorem overlapping_branches_accepted :
    overlappingCorrection.validate referencePlatform = .ok () ∧
      ∃ block ∈ overlappingCorrection.oldBranch, block ∈ overlappingCorrection.newBranch := by
  refine ⟨by decide +kernel, blockRef 5 0xb5 0xb4, ?_, ?_⟩
  · exact mem_cons_self
  · exact mem_cons_self

end ChainCorrection

end Lunarbase.Client
