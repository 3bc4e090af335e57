import Lunarbase.Client.RecoveryStage

/-!
# Client — Requirement

What a recovery asks of its snapshot.  The cursors of the failed updates and gaps are merged into
one requirement (`merge_required`), and a snapshot is accepted when it covers that requirement
(`published_snapshot_covers`).

* A snapshot that is at least canonical and covers the requirement covers everything merged into
  it: the merge forgets only open blocks, and a canonical block replaces those.
* Whether a merge reports a conflict depends on the order.  No order does exactly when the cursors
  are mergeable pair by pair (`Mergeable`); two open blocks of one height can be merged, and one of
  them with a finalized one only while the requirement does not name the other.
-/

namespace Lunarbase.Client

open List Commitment

theorem Commitment.rank_inj {a b : Commitment} (h : a.rank = b.rank) : a = b := by
  cases a <;> cases b <;> first | rfl | exact nomatch h

theorem Commitment.rank_le_finalized (a : Commitment) : a.rank ≤ finalized.rank := by
  cases a <;> decide

theorem Commitment.rank_le_canonical {a : Commitment} (h : a ≠ .finalized) :
    a.rank ≤ canonical.rank := by
  cases a <;> first | decide | exact absurd rfl h

@[simp] theorem Commitment.rank_max (a b : Commitment) :
    (a.max b).rank = Max.max a.rank b.rank := by
  cases a <;> cases b <;> rfl

/-! ### One merge -/

/-- The two cursors name one block. -/
structure ChainCursor.SameBarrier (R c : ChainCursor) : Prop where
  chainId : R.chainId = c.chainId
  blockNumber : R.blockNumber = c.blockNumber
  blockHash : R.blockHash = c.blockHash
  executionBlockNumber : R.executionBlockNumber = c.executionBlockNumber

theorem ChainCursor.SameBarrier.rfl (c : ChainCursor) : c.SameBarrier c :=
  ⟨Eq.refl _, Eq.refl _, Eq.refl _, Eq.refl _⟩

theorem ChainCursor.SameBarrier.trans {a b c : ChainCursor} (h : a.SameBarrier b)
    (h' : b.SameBarrier c) : a.SameBarrier c :=
  ⟨h.chainId.trans h'.chainId, h.blockNumber.trans h'.blockNumber,
    h.blockHash.trans h'.blockHash, h.executionBlockNumber.trans h'.executionBlockNumber⟩

/-- A merge of the two reports no conflict: they are of one chain, and at one height both are
hashed and name one block, or two that are open. -/
def Mergeable (x y : ChainCursor) : Prop :=
  x.chainId = y.chainId ∧ (x.blockNumber = y.blockNumber →
    x.blockHash.isSome ∧ y.blockHash.isSome ∧
      (x.blockHash = y.blockHash → x.executionBlockNumber = y.executionBlockNumber) ∧
      (x.blockHash ≠ y.blockHash → x.commitment ≠ .finalized ∧ y.commitment ≠ .finalized))

instance : DecidableRel Mergeable := fun _ _ => inferInstanceAs (Decidable (_ ∧ _))

theorem Mergeable.symm {x y : ChainCursor} (h : Mergeable x y) : Mergeable y x := by
  refine ⟨h.1.symm, fun hnumber => ?_⟩
  obtain ⟨hx, hy, hsame, hopen⟩ := h.2 hnumber.symm
  exact ⟨hy, hx, fun heq => (hsame heq.symm).symm, fun hne => (hopen hne.symm).symm⟩

instance : Std.Symm Mergeable := ⟨fun _ _ => Mergeable.symm⟩

/-- What a merge without a conflict does with the requirement `current` and the next cursor. -/
inductive Merges (current candidate : ChainCursor) : ChainCursor → Prop where
  | lower (h : candidate.blockNumber < current.blockNumber) : Merges current candidate current
  | higher (h : current.blockNumber < candidate.blockNumber) : Merges current candidate candidate
  | same {merged : ChainCursor} (hbarrier : candidate.SameBarrier current)
      (hmerged : merged.SameBarrier current) (hcommitment : merged.commitment.rank =
        max current.commitment.rank candidate.commitment.rank) : Merges current candidate merged
  | fork {merged : ChainCursor} (hnumber : candidate.blockNumber = current.blockNumber)
      (hdiffer : candidate.blockHash ≠ current.blockHash)
      (hmerged : merged = current ∨ merged = candidate) : Merges current candidate merged

section

variable {current candidate : ChainCursor}

/-- A merge without a conflict. -/
def Merged (current candidate : ChainCursor) : Prop :=
  ∃ next, mergeRequired (some current) candidate = (some next, false) ∧
    Merges current candidate next

theorem merged_of_ne (hchain : current.chainId = candidate.chainId)
    (hnumber : current.blockNumber ≠ candidate.blockNumber) : Merged current candidate := by
  rw [Merged, mergeRequired]
  dsimp only
  rw [if_neg (not_not.mpr hchain), if_neg hnumber]
  split
  next hless =>
    have hle := ChainCursor.blockNumber_le_of_lt hless
    exact ⟨_, rfl, .lower (by omega)⟩
  next hless =>
    rw [if_neg fun heq => hnumber (List.cons.inj heq.1).1.symm, if_neg fun hsame => hnumber hsame.1]
    refine ⟨_, rfl, .higher ?_⟩
    by_contra hge
    exact hless (ChainCursor.eventOrder_lt_of_blockNumber_lt (by omega))

/-- One block: the later position is kept, with the stronger commitment. -/
theorem merged_of_sameBarrier (h : candidate.SameBarrier current)
    (hsome : current.blockHash.isSome) : Merged current candidate := by
  obtain ⟨hash, hcurrent⟩ := Option.isSome_iff_exists.mp hsome
  have hcandidate : candidate.blockHash = some hash := h.blockHash.trans hcurrent
  rw [Merged, mergeRequired]
  dsimp only
  rw [if_neg (not_not.mpr h.chainId.symm), if_pos h.blockNumber.symm, hcurrent, hcandidate]
  dsimp only
  rw [if_pos rfl, if_neg (not_not.mpr h.executionBlockNumber.symm)]
  split
  · split
    next hrank =>
      exact ⟨_, rfl, .same h ⟨rfl, rfl, hcurrent.symm, rfl⟩ (max_eq_right hrank.le).symm⟩
    next hrank =>
      exact ⟨_, rfl, .same h (.rfl _) (max_eq_left (not_lt.mp hrank)).symm⟩
  have hsame : current.blockNumber = candidate.blockNumber ∧ some hash = some hash :=
    ⟨h.blockNumber.symm, rfl⟩
  rw [if_pos hsame]
  split
  next hless =>
    rw [rank_max] at hless
    exact absurd hless.2 (not_lt.mpr (le_max_right _ _))
  exact ⟨_, rfl, .same h ⟨h.chainId, h.blockNumber, hcurrent.symm, h.executionBlockNumber⟩
    ((rank_max _ _).trans (max_comm _ _))⟩

/-- Two open blocks of one height: the later position is kept. -/
theorem merged_of_fork (hchain : current.chainId = candidate.chainId)
    (hnumber : current.blockNumber = candidate.blockNumber) (hsome : current.blockHash.isSome)
    (hsome' : candidate.blockHash.isSome) (hdiffer : candidate.blockHash ≠ current.blockHash)
    (hopen : current.commitment ≠ .finalized ∧ candidate.commitment ≠ .finalized) :
    Merged current candidate := by
  obtain ⟨hash, hcurrent⟩ := Option.isSome_iff_exists.mp hsome
  obtain ⟨hash', hcandidate⟩ := Option.isSome_iff_exists.mp hsome'
  have hne : hash ≠ hash' := fun heq => hdiffer (by rw [hcurrent, hcandidate, heq])
  rw [Merged, mergeRequired]
  dsimp only
  rw [if_neg (not_not.mpr hchain), if_pos hnumber, hcurrent, hcandidate]
  dsimp only
  rw [if_neg hne, if_neg (not_or.mpr hopen)]
  split
  · exact ⟨_, rfl, .fork hnumber.symm hdiffer (.inl rfl)⟩
  have hother : ¬(current.blockNumber = candidate.blockNumber ∧ some hash = some hash') :=
    fun hsame => hne (Option.some.inj hsame.2)
  rw [if_neg hother]
  split
  · exact ⟨_, rfl, .fork hnumber.symm hdiffer (.inl rfl)⟩
  · exact ⟨_, rfl, .fork hnumber.symm hdiffer (.inr rfl)⟩

/-- Mergeable cursors are merged without a conflict. -/
theorem Mergeable.merge (h : Mergeable current candidate) : Merged current candidate := by
  obtain ⟨hchain, hheight⟩ := h
  by_cases hnumber : current.blockNumber = candidate.blockNumber
  · obtain ⟨hsome, hsome', hexecution, hopen⟩ := hheight hnumber
    by_cases hhash : current.blockHash = candidate.blockHash
    · exact merged_of_sameBarrier
        ⟨hchain.symm, hnumber.symm, hhash.symm, (hexecution hhash).symm⟩ hsome
    · exact merged_of_fork hchain hnumber hsome hsome' (Ne.symm hhash) (hopen hhash)
  · exact merged_of_ne hchain hnumber

theorem mergeable_of_mergeRequired {merged : Option ChainCursor}
    (h : mergeRequired (some current) candidate = (merged, false)) :
    Mergeable current candidate := by
  rw [mergeRequired] at h
  dsimp only at h
  split at h
  · cases h
  next hchain =>
    refine ⟨not_not.mp hchain, fun hnumber => ?_⟩
    rw [if_pos hnumber] at h
    split at h
    next hash hash' hcurrent hcandidate =>
      rw [hcurrent, hcandidate]
      split at h
      next hhash =>
        obtain rfl := hhash
        split at h
        · cases h
        next hexecution =>
          exact ⟨rfl, rfl, fun _ => not_not.mp hexecution, fun hne => absurd rfl hne⟩
      next hhash =>
        split at h
        · cases h
        next hopen =>
          exact ⟨rfl, rfl, fun heq => absurd (Option.some.inj heq) hhash, fun _ => not_or.mp hopen⟩
    · cases h

theorem mergeRequired_eq_false {merged : Option ChainCursor}
    (h : mergeRequired (some current) candidate = (merged, false)) :
    Mergeable current candidate ∧ ∃ next, merged = some next ∧ Merges current candidate next := by
  have hmergeable := mergeable_of_mergeRequired h
  obtain ⟨next, hnext, hmerges⟩ := hmergeable.merge
  exact ⟨hmergeable, next, (Prod.mk.inj (h.symm.trans hnext)).1, hmerges⟩

end

section

variable {R R' x z s : ChainCursor} {cursors : List ChainCursor}

/-- The requirement names the block of one of the two. -/
theorem Merges.barrier (h : Merges R x R') : R'.SameBarrier R ∨ R'.SameBarrier x := by
  cases h with
  | lower => exact .inl (.rfl _)
  | higher => exact .inr (.rfl _)
  | same _ hmerged => exact .inl hmerged
  | fork _ _ hmerged =>
    rcases hmerged with rfl | rfl
    · exact .inl (.rfl _)
    · exact .inr (.rfl _)

/-- What can be merged with both can be merged with the requirement. -/
theorem Merges.mergeable (h : Merges R x R') (hR : Mergeable R z) (hx : Mergeable x z) :
    Mergeable R' z := by
  cases h with
  | lower => exact hR
  | higher => exact hx
  | same hbarrier hmerged hcommitment =>
    rw [Mergeable, hmerged.chainId, hmerged.blockNumber, hmerged.blockHash,
      hmerged.executionBlockNumber]
    refine ⟨hR.1, fun heq => ?_⟩
    obtain ⟨hsome, hsome', hexecution, hopen⟩ := hR.2 heq
    refine ⟨hsome, hsome', hexecution, fun hne => ⟨fun hfinal => ?_, (hopen hne).2⟩⟩
    -- the commitment is that of the requirement or of the new cursor, and neither is final
    have hopen' := ((hx.2 (hbarrier.blockNumber.trans heq)).2.2.2 (hbarrier.blockHash ▸ hne)).1
    rw [hfinal] at hcommitment
    rcases max_choice R.commitment.rank x.commitment.rank with hmax | hmax
    · exact (hopen hne).1 (rank_inj (hcommitment.trans hmax).symm)
    · exact hopen' (rank_inj (hcommitment.trans hmax).symm)
  | fork _ _ hmerged =>
    rcases hmerged with rfl | rfl
    · exact hR
    · exact hx

/-! ### What asks for more -/

/-- `R` asks for no less than `x`: it is above it, or names its block with no weaker commitment. -/
def Below (x R : ChainCursor) : Prop :=
  x.chainId = R.chainId ∧ (x.blockNumber < R.blockNumber ∨
    x.SameBarrier R ∧ x.commitment.rank ≤ R.commitment.rank)

theorem Below.rfl (x : ChainCursor) : Below x x := ⟨Eq.refl _, .inr ⟨.rfl x, le_rfl⟩⟩

theorem Below.le (h : Below x R) : x.blockNumber ≤ R.blockNumber :=
  h.2.elim le_of_lt fun hsame => hsame.1.blockNumber.le

theorem Below.trans (h : Below z R) (h' : Below R R') : Below z R' := by
  refine ⟨h.1.trans h'.1, ?_⟩
  rcases h.2 with hlt | ⟨hbarrier, hrank⟩
  · exact .inl (hlt.trans_le h'.le)
  · rcases h'.2 with hlt | ⟨hbarrier', hrank'⟩
    · exact .inl (hbarrier.blockNumber ▸ hlt)
    · exact .inr ⟨hbarrier.trans hbarrier', hrank.trans hrank'⟩

/-- Unless the two are open blocks of one height, the requirement asks for no less than each. -/
theorem Merges.below (h : Merges R x R') (hchain : R.chainId = x.chainId)
    (hone : x.blockNumber = R.blockNumber → x.blockHash = R.blockHash) :
    Below R R' ∧ Below x R' := by
  cases h with
  | lower hlower => exact ⟨.rfl R, hchain.symm, .inl hlower⟩
  | higher hhigher => exact ⟨⟨hchain, .inl hhigher⟩, .rfl _⟩
  | same hbarrier hmerged hcommitment =>
    have hmerged' : R.SameBarrier R' := ⟨hmerged.chainId.symm, hmerged.blockNumber.symm,
      hmerged.blockHash.symm, hmerged.executionBlockNumber.symm⟩
    exact ⟨⟨hmerged'.chainId, .inr ⟨hmerged', hcommitment ▸ le_max_left _ _⟩⟩,
      (hbarrier.trans hmerged').chainId,
      .inr ⟨hbarrier.trans hmerged', hcommitment ▸ le_max_right _ _⟩⟩
  | fork hnumber hdiffer => exact absurd (hone hnumber) hdiffer

/-- The requirement is of the chain of both, and at the greater of their heights. -/
theorem Merges.le (h : Merges R x R') (hchain : R.chainId = x.chainId) :
    (R.chainId = R'.chainId ∧ R.blockNumber ≤ R'.blockNumber) ∧
      x.chainId = R'.chainId ∧ x.blockNumber ≤ R'.blockNumber := by
  by_cases hone : x.blockNumber = R.blockNumber → x.blockHash = R.blockHash
  · obtain ⟨hR, hx⟩ := h.below hchain hone
    exact ⟨⟨hR.1, hR.le⟩, hx.1, hx.le⟩
  have hnumber := (Classical.not_imp.mp hone).1
  rcases h.barrier with hbarrier | hbarrier
  · rw [hbarrier.chainId, hbarrier.blockNumber]
    exact ⟨⟨rfl, le_rfl⟩, hchain.symm, hnumber.le⟩
  · rw [hbarrier.chainId, hbarrier.blockNumber]
    exact ⟨⟨hchain, hnumber.ge⟩, rfl, le_rfl⟩

/-- The block is that of one cursor, its commitment that of one that names it. -/
def Drawn (R : ChainCursor) (cursors : List ChainCursor) : Prop :=
  (∃ x ∈ cursors, R.SameBarrier x) ∧ ∃ x ∈ cursors, x.blockNumber = R.blockNumber ∧
    x.blockHash = R.blockHash ∧ x.commitment = R.commitment

theorem Merges.drawn (h : Merges R x R') (hR : Drawn R cursors) (hx : Drawn x cursors) :
    Drawn R' cursors := by
  cases h with
  | lower => exact hR
  | higher => exact hx
  | same hbarrier hmerged hcommitment =>
    refine ⟨hR.1.imp fun y hy => ⟨hy.1, hmerged.trans hy.2⟩, ?_⟩
    rw [hmerged.blockNumber, hmerged.blockHash]
    rcases le_total x.commitment.rank R.commitment.rank with hrank | hrank
    · rw [rank_inj (hcommitment.trans (max_eq_left hrank))]
      exact hR.2
    · rw [rank_inj (hcommitment.trans (max_eq_right hrank)), ← hbarrier.blockNumber,
        ← hbarrier.blockHash]
      exact hx.2
  | fork _ _ hmerged =>
    rcases hmerged with rfl | rfl
    · exact hR
    · exact hx

/-! ### Coverage -/

/-- A snapshot covers a cursor when it is above it; at its height when it repeats the block, or
replaces an open one by a canonical block, with no weaker commitment. -/
theorem publishedSnapshotCovers_eq_true {x s : ChainCursor} :
    publishedSnapshotCovers x s = .ok true ↔ x.chainId = s.chainId ∧
      (x.blockNumber < s.blockNumber ∨
        x.blockNumber = s.blockNumber ∧ x.blockHash.isSome ∧ s.blockHash.isSome ∧
          x.commitment.rank ≤ s.commitment.rank ∧
          (x.blockHash = s.blockHash → x.executionBlockNumber = s.executionBlockNumber) ∧
          (x.blockHash ≠ s.blockHash → x.commitment ≠ .finalized ∧
            canonical.rank ≤ s.commitment.rank)) := by
  rw [publishedSnapshotCovers]
  split
  next hchain => simp [hchain]
  next hchain =>
    rw [not_not.mp hchain]
    split
    next hlt => simp [hlt]
    next hlt =>
      split
      next hgt => simp [hgt.ne', hlt]
      next hgt =>
        have hnumber : x.blockNumber = s.blockNumber := by omega
        split
        next hx hs =>
          rw [hx, hs]
          split
          next heq =>
            split
            next hexecution => simp [heq, hnumber, hexecution]
            next hexecution => simp [heq, hnumber, not_not.mp hexecution]
          next hne =>
            split
            next hfinal => simp [hne, hnumber, hfinal]
            next hfinal => simp [hne, hnumber, hfinal, and_comm]
        next hnone =>
          simp only [reduceCtorEq, false_iff]
          rintro ⟨-, hlower | ⟨-, hx, hs, -⟩⟩
          · exact hlt hlower
          obtain ⟨hashX, hx⟩ := Option.isSome_iff_exists.mp hx
          obtain ⟨hashS, hs⟩ := Option.isSome_iff_exists.mp hs
          exact hnone hashX hashS hx hs

theorem Below.covers (h : Below x R) (hcovers : publishedSnapshotCovers R s = .ok true) :
    publishedSnapshotCovers x s = .ok true := by
  rw [publishedSnapshotCovers_eq_true] at hcovers ⊢
  obtain ⟨hchain, hcovers⟩ := hcovers
  refine ⟨h.1.trans hchain, ?_⟩
  rcases h.2 with hlt | ⟨hbarrier, hrank⟩
  · exact .inl (hlt.trans_le (hcovers.elim le_of_lt fun hsame => hsame.1.le))
  rw [hbarrier.blockNumber, hbarrier.blockHash, hbarrier.executionBlockNumber]
  refine hcovers.imp_right fun ⟨hnumber, hsome, hs, hrank', hsame, hother⟩ =>
    ⟨hnumber, hsome, hs, hrank.trans hrank', hsame, fun hne => ⟨fun hfinal => ?_, (hother hne).2⟩⟩
  have hle : finalized.rank ≤ R.commitment.rank := hfinal ▸ hrank
  exact (hother hne).1 (rank_inj (le_antisymm R.commitment.rank_le_finalized hle))

/-- Cursors that ask for no less than each other are the same for every snapshot. -/
theorem Below.covers_eq (h : Below x R) (h' : Below R x) (s : ChainCursor) :
    publishedSnapshotCovers x s = publishedSnapshotCovers R s := by
  have hnumber : x.blockNumber = R.blockNumber := le_antisymm h.le h'.le
  obtain ⟨hbarrier, hrank⟩ := h.2.resolve_left hnumber.not_lt
  obtain ⟨-, hrank'⟩ := h'.2.resolve_left hnumber.symm.not_lt
  rw [publishedSnapshotCovers, publishedSnapshotCovers, hbarrier.chainId, hbarrier.blockNumber,
    hbarrier.blockHash, hbarrier.executionBlockNumber,
    rank_inj (le_antisymm hrank hrank')]

/-- The snapshot does not name the block of `x` with another execution block. -/
def Fits (s x : ChainCursor) : Prop :=
  x.blockNumber = s.blockNumber → x.blockHash = s.blockHash →
    x.executionBlockNumber = s.executionBlockNumber

/-- An open block is covered by a canonical snapshot that covers a requirement of its height. -/
theorem covers_of_open (hopen : x.commitment ≠ .finalized) (hsome : x.blockHash.isSome)
    (hle : x.chainId = R.chainId ∧ x.blockNumber ≤ R.blockNumber)
    (hcanonical : canonical.rank ≤ s.commitment.rank) (hfits : Fits s x)
    (hcovers : publishedSnapshotCovers R s = .ok true) :
    publishedSnapshotCovers x s = .ok true := by
  rw [publishedSnapshotCovers_eq_true] at hcovers ⊢
  obtain ⟨hchain, hcovers⟩ := hcovers
  refine ⟨hle.1.trans hchain, ?_⟩
  rcases hcovers with hlt | ⟨hnumber, -, hs, -⟩
  · exact .inl (hle.2.trans_lt hlt)
  rcases (hle.2.trans_eq hnumber).lt_or_eq with hlt | heq
  · exact .inl hlt
  · exact .inr ⟨heq, hsome, hs, (rank_le_canonical hopen).trans hcanonical, hfits heq,
      fun _ => ⟨hopen, hcanonical⟩⟩

/-- A snapshot that is at least canonical and covers the requirement covers what was merged. -/
theorem Merges.covers (h : Merges R x R') (hmergeable : Mergeable R x)
    (hcanonical : canonical.rank ≤ s.commitment.rank) (hR : Fits s R) (hx : Fits s x)
    (hcovers : publishedSnapshotCovers R' s = .ok true) :
    publishedSnapshotCovers R s = .ok true ∧ publishedSnapshotCovers x s = .ok true := by
  by_cases hone : x.blockNumber = R.blockNumber → x.blockHash = R.blockHash
  · obtain ⟨hbelow, hbelow'⟩ := h.below hmergeable.1 hone
    exact ⟨hbelow.covers hcovers, hbelow'.covers hcovers⟩
  obtain ⟨hnumber, hdiffer⟩ := Classical.not_imp.mp hone
  obtain ⟨hsome, hsome', -, hopen⟩ := hmergeable.2 hnumber.symm
  obtain ⟨hopenR, hopenx⟩ := hopen (Ne.symm hdiffer)
  obtain ⟨hRle, hxle⟩ := h.le hmergeable.1
  exact ⟨covers_of_open hopenR hsome hRle hcanonical hR hcovers,
    covers_of_open hopenx hsome' hxle hcanonical hx hcovers⟩

end

/-! ### All merges of a recovery -/

/-- The requirement after all of `cursors`, and whether any merge reported a conflict. -/
def mergeAll (required : Option ChainCursor) : List ChainCursor → Option ChainCursor × Bool
  | [] => (required, false)
  | cursor :: rest =>
    let merged := mergeRequired required cursor
    let all := mergeAll merged.1 rest
    (all.1, merged.2 || all.2)

/-- A stage that is asked for one cursor after the other holds what `mergeAll` computes. -/
theorem foldl_require (stage : RecoveryStage) (cursors : List ChainCursor) :
    cursors.foldl RecoveryStage.require stage = { stage with
        required := (mergeAll stage.required cursors).1
        coverageConflict := stage.coverageConflict || (mergeAll stage.required cursors).2 } := by
  induction cursors generalizing stage with
  | nil => simp [mergeAll]
  | cons cursor rest ih =>
    rw [foldl_cons, ih]
    simp [mergeAll, RecoveryStage.require, Bool.or_assoc]

variable {R R' : ChainCursor} {cursors : List ChainCursor}

/-- **What every merge keeps.**  With `Q` of each cursor, merges without a conflict keep `Q` of the
requirement, and relate every cursor to it by a preorder that relates both cursors of a merge to
its result. -/
theorem mergeAll_induction {Q : ChainCursor → Prop} {P : ChainCursor → ChainCursor → Prop}
    (hrefl : ∀ x, P x x) (htrans : ∀ x y z, P x y → P y z → P x z)
    (hstep : ∀ R x R', Mergeable R x → Merges R x R' → Q R → Q x → Q R' ∧ P R R' ∧ P x R')
    (h : mergeAll none cursors = (some R, false)) (hcursors : ∀ x ∈ cursors, Q x) :
    Q R ∧ ∀ x ∈ cursors, P x R := by
  have hrun : ∀ (rest : List ChainCursor) (first : ChainCursor),
      mergeAll (some first) rest = (some R, false) → Q first → (∀ x ∈ rest, Q x) →
      Q R ∧ P first R ∧ ∀ x ∈ rest, P x R := by
    intro rest
    induction rest with
    | nil =>
      intro first hmerge hfirst _
      obtain rfl := Option.some.inj (Prod.mk.inj hmerge).1
      exact ⟨hfirst, hrefl _, nofun⟩
    | cons x rest ih =>
      intro first hmerge hfirst hrest
      obtain ⟨hall, hconflict⟩ := Prod.mk.inj hmerge
      obtain ⟨hone, hlater⟩ := Bool.or_eq_false_iff.mp hconflict
      have hmerged : mergeRequired (some first) x = ((mergeRequired (some first) x).1, false) :=
        Prod.ext rfl hone
      obtain ⟨hmergeable, next, hnext, hmerges⟩ := mergeRequired_eq_false hmerged
      rw [hnext] at hall hlater
      obtain ⟨hx, hrest⟩ := forall_mem_cons.mp hrest
      obtain ⟨hQ, hP, hPx⟩ := hstep _ _ _ hmergeable hmerges hfirst hx
      obtain ⟨hR, hbelow, hothers⟩ := ih next (Prod.ext hall hlater) hQ hrest
      exact ⟨hR, htrans _ _ _ hP hbelow,
        forall_mem_cons.mpr ⟨htrans _ _ _ hPx hbelow, hothers⟩⟩
  cases cursors with
  | nil => exact absurd (Prod.mk.inj h).1 (by simp)
  | cons first rest =>
    obtain ⟨hfirst, hrest⟩ := forall_mem_cons.mp hcursors
    obtain ⟨hR, hP, hothers⟩ := hrun rest first h hfirst hrest
    exact ⟨hR, forall_mem_cons.mpr ⟨hP, hothers⟩⟩

/-- Cursors that are mergeable pair by pair are merged without a conflict. -/
theorem mergeAll_of_pairwise {rest : List ChainCursor} (h : (R :: rest).Pairwise Mergeable) :
    ∃ R', mergeAll (some R) rest = (some R', false) := by
  induction rest generalizing R with
  | nil => exact ⟨R, rfl⟩
  | cons x rest ih =>
    obtain ⟨hR, hrest⟩ := pairwise_cons.mp h
    obtain ⟨hx, hpairs⟩ := pairwise_cons.mp hrest
    obtain ⟨next, hmerge, hmerges⟩ := (hR x mem_cons_self).merge
    obtain ⟨R', hall⟩ := ih (R := next) (pairwise_cons.mpr ⟨fun z hz =>
      hmerges.mergeable (hR z (mem_cons_of_mem _ hz)) (hx z hz), hpairs⟩)
    exact ⟨R', by rw [mergeAll, hmerge]; simp [hall]⟩

/-- A conflict of two cursors is reported where they come first. -/
theorem pairwise_of_perm
    (h : ∀ cursors', cursors'.Perm cursors → (mergeAll none cursors').2 = false) :
    cursors.Pairwise Mergeable := by
  rw [pairwise_iff_forall_sublist]
  intro x y hsub
  obtain ⟨rest, hperm⟩ := hsub.exists_perm_append
  have hfalse : (false || ((mergeRequired (some x) y).2 || _)) = false := h _ hperm.symm
  obtain ⟨-, hfalse⟩ := Bool.or_eq_false_iff.mp hfalse
  exact (mergeRequired_eq_false (Prod.ext rfl (Bool.or_eq_false_iff.mp hfalse).1)).1

/-- The cursors are mergeable pair by pair, and at their greatest height name one block. -/
def Agreed (cursors : List ChainCursor) : Prop :=
  cursors.Pairwise Mergeable ∧ ∀ x ∈ cursors, ∀ y ∈ cursors, x.blockNumber = y.blockNumber →
    (∀ z ∈ cursors, z.blockNumber ≤ x.blockNumber) → x.blockHash = y.blockHash

instance (cursors : List ChainCursor) : Decidable (Agreed cursors) :=
  inferInstanceAs (Decidable (_ ∧ _))

section

variable (h : mergeAll none cursors = (some R, false))

include h

theorem le_of_mergeAll : ∀ x ∈ cursors, x.chainId = R.chainId ∧ x.blockNumber ≤ R.blockNumber :=
  (mergeAll_induction (Q := fun _ => True)
    (P := fun x R => x.chainId = R.chainId ∧ x.blockNumber ≤ R.blockNumber)
    (fun _ => ⟨rfl, le_rfl⟩) (fun _ _ _ h h' => ⟨h.1.trans h'.1, h.2.trans h'.2⟩)
    (fun _ _ _ hmergeable hmerges _ _ => ⟨trivial, hmerges.le hmergeable.1⟩) h
    fun _ _ => trivial).2

theorem drawn_of_mergeAll : Drawn R cursors :=
  (mergeAll_induction (Q := fun x => Drawn x cursors) (P := fun _ _ => True) (fun _ => trivial)
    (fun _ _ _ _ _ => trivial)
    (fun _ _ _ _ hmerges hR hx => ⟨hmerges.drawn hR hx, trivial, trivial⟩) h
    fun x hx => ⟨⟨x, hx, .rfl x⟩, x, hx, rfl, rfl, rfl⟩).1

theorem covers_of_mergeAll {s : ChainCursor} (hcanonical : canonical.rank ≤ s.commitment.rank)
    (hfits : ∀ x ∈ cursors, Fits s x) (hcovers : publishedSnapshotCovers R s = .ok true) :
    ∀ x ∈ cursors, publishedSnapshotCovers x s = .ok true := by
  have hall := mergeAll_induction (Q := Fits s) (P := fun x R =>
      publishedSnapshotCovers R s = .ok true → publishedSnapshotCovers x s = .ok true)
    (fun _ => id) (fun _ _ _ h h' hcovers => h (h' hcovers)) ?_ h hfits
  · exact fun x hx => hall.2 x hx hcovers
  intro R x R' hmergeable hmerges hR hx
  refine ⟨?_, fun hc => (hmerges.covers hmergeable hcanonical hR hx hc).1,
    fun hc => (hmerges.covers hmergeable hcanonical hR hx hc).2⟩
  rcases hmerges.barrier with hbarrier | hbarrier
  · rwa [Fits, hbarrier.blockNumber, hbarrier.blockHash, hbarrier.executionBlockNumber]
  · rwa [Fits, hbarrier.blockNumber, hbarrier.blockHash, hbarrier.executionBlockNumber]

/-- Agreed cursors ask for no more than their requirement: at its height every merge is of one
block. -/
theorem below_of_agreed (hagreed : Agreed cursors) : ∀ x ∈ cursors, Below x R := by
  have hle := le_of_mergeAll h
  obtain ⟨⟨y, hy, hnamed⟩, -⟩ := drawn_of_mergeAll h
  have htop : ∀ x ∈ cursors, x.blockNumber ≤ R.blockNumber ∧
      (x.blockNumber = R.blockNumber → x.blockHash = R.blockHash) := by
    refine fun x hx => ⟨(hle x hx).2, fun hnumber => ?_⟩
    rw [hnamed.blockHash]
    exact hagreed.2 x hx y hy (hnumber.trans hnamed.blockNumber) fun z hz => hnumber ▸ (hle z hz).2
  have hall := mergeAll_induction
    (P := fun x x' => x.blockNumber = R.blockNumber → x'.blockNumber = R.blockNumber ∧ Below x x')
    (fun x hx => ⟨hx, .rfl x⟩) (fun _ _ _ h h' hx =>
      ⟨(h' (h hx).1).1, (h hx).2.trans (h' (h hx).1).2⟩) ?_ h htop
  · intro x hx
    rcases (hle x hx).2.lt_or_eq with hlt | heq
    · exact ⟨(hle x hx).1, .inl hlt⟩
    · exact (hall.2 x hx heq).2
  intro R₁ x R₂ hmergeable hmerges hR₁ hx
  have hR₂ : R₂.blockNumber ≤ R.blockNumber ∧
      (R₂.blockNumber = R.blockNumber → R₂.blockHash = R.blockHash) := by
    rcases hmerges.barrier with hbarrier | hbarrier
    · rwa [hbarrier.blockNumber, hbarrier.blockHash]
    · rwa [hbarrier.blockNumber, hbarrier.blockHash]
  have hkeeps : R₁.blockNumber = R.blockNumber ∨ x.blockNumber = R.blockNumber →
      Below R₁ R₂ ∧ Below x R₂ := by
    intro htop
    refine hmerges.below hmergeable.1 fun heq => ?_
    rw [hx.2 (by omega), hR₁.2 (by omega)]
  have hreach : ∀ z, Below z R₂ → z.blockNumber = R.blockNumber → R₂.blockNumber = R.blockNumber :=
    fun z hz heq => le_antisymm hR₂.1 (heq ▸ hz.le)
  exact ⟨hR₂, fun heq => ⟨hreach R₁ (hkeeps (.inl heq)).1 heq, (hkeeps (.inl heq)).1⟩,
    fun heq => ⟨hreach x (hkeeps (.inr heq)).2 heq, (hkeeps (.inr heq)).2⟩⟩

end

theorem Drawn.below (hdrawn : Drawn R' cursors) (hbelow : ∀ x ∈ cursors, Below x R) :
    Below R' R := by
  obtain ⟨⟨x, hx, hnamed⟩, g, hg, hnumber, -, hcommitment⟩ := hdrawn
  refine ⟨hnamed.chainId.trans (hbelow x hx).1, ?_⟩
  rcases (hbelow x hx).2 with hlt | ⟨hbarrier, -⟩
  · exact .inl (hnamed.blockNumber ▸ hlt)
  refine .inr ⟨hnamed.trans hbarrier, ?_⟩
  rcases (hbelow g hg).2 with hlt | ⟨-, hrank⟩
  · exact absurd (hnumber.trans (hnamed.trans hbarrier).blockNumber) hlt.ne
  · exact hcommitment ▸ hrank

theorem Agreed.perm {cursors' : List ChainCursor} (h : Agreed cursors)
    (hperm : cursors'.Perm cursors) : Agreed cursors' :=
  ⟨hperm.symm.pairwise h.1 Mergeable.symm, by simpa only [hperm.mem_iff] using h.2⟩

/-- Of two open blocks at the greatest height one is forgotten: named by a snapshot with another
execution block, it is not covered and the requirement is. -/
theorem agreed_of_covers (h : mergeAll none cursors = (some R, false))
    (hpairs : cursors.Pairwise Mergeable) (hcovers : ∀ s, publishedSnapshotCovers R s = .ok true →
      ∀ x ∈ cursors, publishedSnapshotCovers x s = .ok true) : Agreed cursors := by
  have hle := le_of_mergeAll h
  obtain ⟨⟨n, hn, hnamed⟩, g, hg, hgnumber, hghash, hcommitment⟩ := drawn_of_mergeAll h
  have hone : ∀ z ∈ cursors, z.blockNumber = R.blockNumber → z.blockHash = R.blockHash := by
    intro z hz hnumber
    by_contra hdiffer
    have hne : g ≠ z := fun heq => hdiffer (heq ▸ hghash)
    obtain ⟨hsome, hsome', -, hopen⟩ :=
      (hpairs.forall hg hz hne).2 (hgnumber.trans hnumber.symm)
    rw [hghash] at hsome hopen
    have hopen : R.commitment ≠ .finalized := hcommitment ▸ (hopen (Ne.symm hdiffer)).1
    have hforgotten := hcovers
      { z with executionBlockNumber := z.executionBlockNumber + 1, commitment := .finalized }
      (publishedSnapshotCovers_eq_true.mpr ⟨(hle z hz).1.symm, .inr ⟨hnumber.symm, hsome, hsome',
        R.commitment.rank_le_finalized, fun heq => absurd heq.symm hdiffer,
        fun _ => ⟨hopen, rank_le_finalized .canonical⟩⟩⟩) z hz
    obtain ⟨-, hlt | ⟨-, -, -, -, hsame, -⟩⟩ := publishedSnapshotCovers_eq_true.mp hforgotten
    · exact absurd hlt (lt_irrefl _)
    · exact absurd (hsame rfl) (Nat.succ_ne_self _).symm
  refine ⟨hpairs, fun x hx y hy heq htop => ?_⟩
  have hheight : x.blockNumber = R.blockNumber :=
    le_antisymm (hle x hx).2 (hnamed.blockNumber ▸ htop n hn)
  rw [hone x hx hheight, hone y hy (heq ▸ hheight)]

/-- **What a recovery's requirement bounds.**  A snapshot that is at least canonical, and names no
merged block with another execution block, covers every merged cursor when it covers the
requirement.  The same for every snapshot whatever, in whatever order the cursors are merged, holds
exactly when the cursors agree. -/
theorem requirement_bounds_iff_agreed (h : mergeAll none cursors = (some R, false)) :
    (∀ s, canonical.rank ≤ s.commitment.rank → (∀ x ∈ cursors, Fits s x) →
      publishedSnapshotCovers R s = .ok true →
        ∀ x ∈ cursors, publishedSnapshotCovers x s = .ok true) ∧
    (((∀ s, publishedSnapshotCovers R s = .ok true →
          ∀ x ∈ cursors, publishedSnapshotCovers x s = .ok true) ∧
        ∀ cursors', cursors'.Perm cursors → ∃ R', mergeAll none cursors' = (some R', false) ∧
          ∀ s, publishedSnapshotCovers R' s = publishedSnapshotCovers R s) ↔ Agreed cursors) := by
  refine ⟨fun s hcanonical hfits hcovers => covers_of_mergeAll h hcanonical hfits hcovers,
    ⟨fun ⟨hbound, hperms⟩ => ?_, fun hagreed => ?_⟩⟩
  · refine agreed_of_covers h (pairwise_of_perm fun cursors' hperm => ?_) hbound
    obtain ⟨R', h', -⟩ := hperms cursors' hperm
    rw [h']
  have hbelow := below_of_agreed h hagreed
  refine ⟨fun s hcovers x hx => (hbelow x hx).covers hcovers, fun cursors' hperm => ?_⟩
  cases cursors' with
  | nil =>
    obtain rfl := hperm.nil_eq
    exact ⟨R, h, fun _ => rfl⟩
  | cons x rest =>
    obtain ⟨R', h'⟩ := mergeAll_of_pairwise (hperm.symm.pairwise hagreed.1 Mergeable.symm)
    have h' : mergeAll none (x :: rest) = (some R', false) := h'
    have hbelow' := below_of_agreed h' (hagreed.perm hperm)
    refine ⟨R', h', ((drawn_of_mergeAll h').below fun y hy =>
      hbelow y (hperm.mem_iff.mp hy)).covers_eq ((drawn_of_mergeAll h).below fun y hy =>
      hbelow' y (hperm.mem_iff.mpr hy))⟩

/-- A cursor of chain one. -/
def requiredAt (number : Nat) (hash : B256) (commitment : Commitment) : ChainCursor :=
  ⟨1, number, number, some hash, none, none, none, none, commitment⟩

/-- Two open blocks below one block with two commitments. -/
def agreedCursors : List ChainCursor :=
  [requiredAt 4 9 .realtime, requiredAt 5 7 .canonical, requiredAt 4 8 .realtime,
    requiredAt 5 7 .realtime]

theorem requirement_bounds_promoted :
    mergeAll none agreedCursors = (some (requiredAt 5 7 .canonical), false) ∧
      (∀ s, publishedSnapshotCovers (requiredAt 5 7 .canonical) s = .ok true →
        ∀ x ∈ agreedCursors, publishedSnapshotCovers x s = .ok true) ∧
      ∀ cursors', cursors'.Perm agreedCursors → ∃ R', mergeAll none cursors' = (some R', false) ∧
        ∀ s, publishedSnapshotCovers R' s =
          publishedSnapshotCovers (requiredAt 5 7 .canonical) s :=
  ⟨by decide +kernel, (requirement_bounds_iff_agreed (by decide +kernel)).2.mpr
    (by decide +kernel)⟩

/-- **The order of the merges decides.**  Two realtime blocks of one height and the second of them
finalized: in this order a recovery accepts a snapshot of the finalized block; with the finalized
one before its realtime announcement it refuses every snapshot. -/
theorem requirement_depends_on_order :
    ([requiredAt 5 7 .realtime, requiredAt 5 8 .realtime, requiredAt 5 8 .finalized].foldl
        RecoveryStage.require (.newSegment [] 0 none)).snapshotCovers (requiredAt 5 8 .finalized) =
      .ok true ∧
    ∀ s, ([requiredAt 5 7 .realtime, requiredAt 5 8 .finalized, requiredAt 5 8 .realtime].foldl
        RecoveryStage.require (.newSegment [] 0 none)).snapshotCovers s =
      .error (.reducer .blockHashMismatch) := by
  constructor
  · decide +kernel
  · intro s
    rfl

end Lunarbase.Client
