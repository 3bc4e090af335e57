import Lunarbase.Client.Window

/-!
# Client — Acceptance

What one update does to the journal: a log admitted by it, with the before-image and the identity
of its block, and the return to the common ancestor of a correction.
-/

namespace Lunarbase.Client

open Rollback (replay upTo restoreAt Journaled)
open List Except JournalState Option Nat OptimisticBlock

/-! ### One accepted log -/

namespace JournalInv

variable {snapshot current current' : QuoteData} {floor : ChainCursor} {j : JournalState}
  {named items : List AcceptedEvent} {x : AcceptedEvent}

variable (h : JournalInv snapshot floor j named items current)
  (hx : ∀ y ∈ items, y.number ≤ x.number)

include h hx

/-- A new event that changed nothing. -/
theorem idle (heffect : x.effect current = some current) :
    JournalInv snapshot floor j named (items ++ [x]) current where
  atFloor := h.atFloor
  names := h.names
  journaled := h.journaled.idle hx heffect
  retained := h.retained
  anchored := h.anchored.imp_left fun ⟨e, he, hnum⟩ => ⟨e, mem_append_left _ he, hnum⟩

/-- A new event that changed the data, with the before-image of its block.  If an image is evicted
at once, the floor rises to the last one that went. -/
theorem captureBefore (bytes : ImageCost) {reducer : QuoteReducer} (hdata : reducer.data = current)
    (heffect : x.effect current = some current') (hfloor : floor.blockNumber ≤ x.number)
    (hretained : (∃ id ∈ j.identities, id.blockNumber = x.number) ∨
      ∀ e ∈ named, e.number ≠ x.number) :
    ∃ floor' : ChainCursor, floor.blockNumber ≤ floor'.blockNumber ∧
      (floor' = floor ∨ (∃ b ∈ j.blocks, floor' = b.cursor) ∨
        floor' = x.cursor ∧ (j.captureBefore bytes x.cursor reducer).blocks = []) ∧
      (j.captureBefore bytes x.cursor reducer).identities = j.identities ∧
      JournalInv snapshot floor' (j.captureBefore bytes x.cursor reducer) named (items ++ [x])
        current' := by
  rw [JournalState.captureBefore]
  split
  · -- the block has its image: it is the last one
    next hhave =>
      refine ⟨floor, le_rfl, .inl rfl, rfl, ?_⟩
      have hlast : ∃ b ∈ j.blocks, b.number = x.number := by
        simp only [JournalState.needsCapture, Bool.not_not, Option.any_eq_true,
          JournalState.sameIdentity, Bool.and_eq_true, beq_iff_eq] at hhave
        obtain ⟨b, hb, hsame⟩ := hhave
        exact ⟨b, mem_of_getLast? hb, hsame.1.1.2⟩
      exact ⟨h.atFloor, h.names, h.journaled.extend hx heffect hlast, h.retained,
        h.anchored.imp_left fun ⟨e, he, hnum⟩ => ⟨e, mem_append_left _ he, hnum⟩⟩
  · let image : OptimisticBlock := ⟨x.cursor, reducer, bytes x.cursor reducer⟩
    let pushed : JournalState :=
      { j.bumpGeneration with
        retainedBytes := saturatingAdd j.retainedBytes (bytes x.cursor reducer)
        blocks := j.blocks ++ [image] }
    have hpushed : JournalInv snapshot floor pushed named (items ++ [x]) current' := by
      refine ⟨h.atFloor, h.names, h.journaled.capture hx heffect rfl hdata hfloor, ?_,
        h.anchored.imp_left fun ⟨e, he, hnum⟩ => ⟨e, mem_append_left _ he, hnum⟩⟩
      intro b hb
      rcases mem_append.mp hb with hold | hnew
      · exact h.retained b hold
      obtain rfl := mem_singleton.mp hnew
      exact hretained
    obtain ⟨floor', dropped, hle, hsplit, hfrom, hinv⟩ :=
      hpushed.dropFrontWhile JournalState.overBudget true pushed.blocks.length
    refine ⟨floor', hle, ?_, dropFrontWhile_identities .., hinv⟩
    rcases hfrom with ⟨-, rfl⟩ | ⟨last, hlast, rfl⟩
    · exact .inl rfl
    -- the last dropped image is an old one, or the new one and then nothing is left
    right
    rcases eq_nil_or_concat
      (JournalState.dropFrontWhile JournalState.overBudget true pushed.blocks.length pushed).blocks
      with hnil | ⟨rest, b, hconcat⟩
    · refine .inr ⟨?_, hnil⟩
      have hlast' : pushed.blocks.getLast? = some last := by
        rw [hsplit, hnil, append_nil]
        exact hlast
      have : image = last := by simpa [pushed] using hlast'
      rw [← this]
    left
    refine ⟨last, ?_, rfl⟩
    rw [hconcat, concat_eq_append, ← append_assoc] at hsplit
    have hinit := (append_inj' hsplit rfl).1
    rw [hinit]
    exact mem_append_left _ (mem_of_getLast? hlast)

end JournalInv

/-- An admitted position has a compatible identity, or none and is above the floor. -/
theorem JournalState.validateEventIdentity_eq_ok {j : JournalState} {c : ChainCursor}
    (h : j.validateEventIdentity c = .ok ()) :
    (∃ id, j.retainedIdentity c.blockNumber = some id ∧
      (id.blockHash = c.blockHash ∨ id.blockHash = none)) ∨
    (j.retainedIdentity c.blockNumber = none ∧ j.atOrBelowFloor c.blockNumber = false) := by
  rw [validateEventIdentity] at h
  cases hid : j.retainedIdentity c.blockNumber with
  | none =>
    simp only [hid] at h
    split at h
    · cases h
    next hfloor => exact .inr ⟨rfl, by simpa using hfloor⟩
  | some id =>
    simp only [hid] at h
    split at h
    · cases h
    next hok =>
      have hhash : id.blockHash = c.blockHash ∨ (id.blockHash.isNone ∧ c.blockHash.isSome) := by
        by_contra hne
        exact hok (.inr (.inr hne))
      exact .inl ⟨id, rfl, hhash.imp_right fun hnone => isNone_iff_eq_none.mp hnone.1⟩

namespace JournalInv

variable {snapshot current current' : QuoteData} {floor : ChainCursor} {j j₁ : JournalState}
  {items : List AcceptedEvent} {x : AcceptedEvent} {c : ChainCursor}

theorem recordIdentity_below (h : j.rollbackFloor = some floor) (replace : Bool)
    (hle : c.blockNumber ≤ floor.blockNumber) : j.recordIdentity c replace = j := by
  rw [JournalState.recordIdentity, if_pos ((atOrBelowFloor_iff h).mpr hle)]

variable (h : JournalInv snapshot floor j items items current)

include h

/-- The events of an admitted height above the floor carry its hash, or none. -/
theorem hash_of_admitted (hvalid : j.validateEventIdentity c = .ok ())
    (hfloor : floor.blockNumber < c.blockNumber) {e : AcceptedEvent} (he : e ∈ items)
    (hnum : e.number = c.blockNumber) : e.hash = none ∨ e.hash = c.blockHash := by
  obtain ⟨id, hid, hat⟩ := h.names.known e he (hnum ▸ hfloor)
  rcases validateEventIdentity_eq_ok hvalid with ⟨id', hid', hhash⟩ | ⟨hnone, -⟩
  · obtain ⟨hmem, hat'⟩ := retainedIdentity_eq_some hid'
    obtain rfl := eq_of_number_eq h.names.sorted hid hmem (hat.trans (hnum.trans hat'.symm))
    by_cases hblank : id.blockHash = none
    · exact .inl (h.names.blank id hid (hat'.symm ▸ hfloor) hblank e he hat.symm)
    rcases h.names.agree id hid e he hat.symm with h₁ | h₁ | h₁
    · exact absurd h₁ hblank
    · exact .inl h₁
    · exact .inr (h₁.trans (hhash.resolve_right hblank))
  · exact absurd (hat.trans hnum) (retainedIdentity_eq_none.mp hnone id hid)

/-- An admitted position is not below the floor, if no accepted event is above it. -/
theorem floor_le_of_admitted (hvalid : j.validateEventIdentity c = .ok ())
    (hc : ∀ y ∈ items, y.number ≤ c.blockNumber) : floor.blockNumber ≤ c.blockNumber := by
  rcases validateEventIdentity_eq_ok hvalid with ⟨id, hid, -⟩ | ⟨-, habove⟩
  · obtain ⟨hmem, hnum⟩ := retainedIdentity_eq_some hid
    rcases h.anchored with ⟨e, he, hat⟩ | hall
    · exact hat ▸ hc e he
    · exact hnum ▸ hall id hmem
  · by_contra hlt
    have := (atOrBelowFloor_iff h.atFloor).mpr (not_le.mp hlt).le
    exact absurd (this.symm.trans habove) (by decide)

/-- **Recording an identity**, of a log or of a head, that contradicts no accepted event of its
height. -/
theorem record (replace : Bool) (hbound : j.identities.length ≤ maxOptimisticHistoryBlocks)
    (hsafe : j.lowersFloor c = false) (hhash : floor.blockNumber < c.blockNumber →
      ∀ e ∈ items, e.number = c.blockNumber → e.hash = none ∨ e.hash = c.blockHash) :
    Kept snapshot floor (j.recordIdentity c replace) items items current fun n =>
      n = c.blockNumber ∨ JournalState.Covers floor j.identities n := by
  rcases lt_or_ge floor.blockNumber c.blockNumber with hlt | hge
  · obtain ⟨floor', hle, hinv, hlen, hcov⟩ := h.recordIdentity hlt
      ⟨fun e he => .inl he, hhash hlt⟩ replace hbound hsafe
    refine ⟨floor', hle, hinv, hlen, ?_⟩
    rintro n (hn | hn | hn)
    · exact hcov n (.inl hn)
    · exact .inl (hn.trans hle)
    · exact hcov n (.inr hn)
  · rw [recordIdentity_below h.atFloor replace hge]
    refine ⟨floor, le_rfl, h, hbound, ?_⟩
    rintro n (rfl | hn)
    · exact .inl hge
    · exact hn

variable {floor₁ : ChainCursor} (hvalid : j.validateEventIdentity x.cursor = .ok ())
  (hx : ∀ y ∈ items, y.number ≤ x.number)
  (hfrom : floor₁ = floor ∨ (∃ b ∈ j.blocks, floor₁ = b.cursor) ∨
    floor₁ = x.cursor ∧ j₁.blocks = [])
  (hids : j₁.identities = j.identities)
  (hinv : JournalInv snapshot floor₁ j₁ items (items ++ [x]) current')

include hvalid hx hfrom hids hinv

/-- The block of a new event at or below the floor: it is retained already, or the event's own
before-image was evicted and is the floor. -/
theorem nameEvent_below (hbelow : x.number ≤ floor₁.blockNumber) :
    JournalInv snapshot floor₁ j₁ (items ++ [x]) (items ++ [x]) current' := by
  have hmiss : (∀ id ∈ j.identities, id.blockNumber ≠ x.number) →
      floor₁ = x.cursor ∧ j₁.blocks = [] := by
    intro hnone
    rcases validateEventIdentity_eq_ok hvalid with ⟨id, hid, -⟩ | ⟨-, habove⟩
    · obtain ⟨hmem, hnum⟩ := retainedIdentity_eq_some hid
      exact absurd hnum (hnone id hmem)
    have hlt : floor.blockNumber < x.number := by
      by_contra hle
      have := (atOrBelowFloor_iff h.atFloor).mpr (not_lt.mp hle)
      exact absurd (this.symm.trans habove) (by decide)
    rcases hfrom with rfl | ⟨b, hb, rfl⟩ | hown
    · exact absurd hbelow (not_le.mpr hlt)
    · -- an old image at this height would have left an identity
      have hat : b.number = x.number := le_antisymm (h.journaled.record_le hx hb) hbelow
      obtain ⟨e, he, hnum⟩ := h.journaled.witnessed b hb
      obtain ⟨id, hid, hid'⟩ := h.names.known e he (hnum.trans hat ▸ hlt)
      exact absurd (hid'.trans (hnum.trans hat)) (hnone id hid)
    · exact hown
  refine ⟨hinv.atFloor, ⟨hinv.names.sorted, ?_, ?_, ?_, ?_⟩, hinv.journaled, ?_, hinv.anchored⟩
  · intro id hid e he hnum
    rcases mem_append.mp he with hold | hnew
    · exact hinv.names.agree id hid e hold hnum
    obtain rfl := mem_singleton.mp hnew
    rw [hids] at hid
    rcases validateEventIdentity_eq_ok hvalid with ⟨id', hid', hhash⟩ | ⟨hnone, -⟩
    · obtain ⟨hmem, hat⟩ := retainedIdentity_eq_some hid'
      obtain rfl := eq_of_number_eq h.names.sorted hid hmem (hnum.symm.trans hat.symm)
      rcases hhash with h₁ | h₁
      · exact .inr (.inr h₁.symm)
      · exact .inl h₁
    · exact absurd hnum.symm (retainedIdentity_eq_none.mp hnone id hid)
  · intro id hid hlt hnone e he hnum
    rcases mem_append.mp he with hold | hnew
    · exact hinv.names.blank id hid hlt hnone e hold hnum
    obtain rfl := mem_singleton.mp hnew
    exact absurd (hnum ▸ hlt) (not_lt.mpr hbelow)
  · intro e he hlt
    rcases mem_append.mp he with hold | hnew
    · exact hinv.names.known e hold hlt
    obtain rfl := mem_singleton.mp hnew
    exact absurd hlt (not_lt.mpr hbelow)
  · intro hnone e he hnum
    rcases mem_append.mp he with hold | hnew
    · exact hinv.names.floorAgree hnone e hold hnum
    obtain rfl := mem_singleton.mp hnew
    rw [hids, ← hnum] at hnone
    exact .inr (.inr (congrArg ChainCursor.blockHash (hmiss hnone).1).symm)
  · intro b hb
    rcases hinv.retained b hb with hid | hnone
    · exact .inl hid
    by_cases hat : b.number = x.number
    · by_contra hcon
      rw [not_or, hids] at hcon
      have hnil := (hmiss fun id hid heq => hcon.1 ⟨id, hid, heq.trans hat.symm⟩).2
      rw [hnil] at hb
      cases hb
    · refine .inr fun e he heq => ?_
      rcases mem_append.mp he with hold | hnew
      · exact hnone e hold heq
      · exact hat (mem_singleton.mp hnew ▸ heq.symm)

/-- The second half of an accepted event: its block is recorded. -/
theorem nameEvent (hbound : j.identities.length ≤ maxOptimisticHistoryBlocks)
    (hle : floor.blockNumber ≤ floor₁.blockNumber) (hsafe : j₁.lowersFloor x.cursor = false) :
    Kept snapshot floor (j₁.recordEventIdentity x.cursor) (items ++ [x]) (items ++ [x]) current'
      (JournalState.Covers floor j.identities) := by
  rcases lt_or_ge floor₁.blockNumber x.number with hlt | hge
  · have hnamed : ∀ e ∈ items ++ [x], e ∈ items ∨ e.number = x.cursor.blockNumber := by
      intro e he
      rcases mem_append.mp he with hold | hnew
      · exact .inl hold
      · exact .inr (mem_singleton.mp hnew ▸ rfl)
    have hhash : ∀ e ∈ items ++ [x], e.number = x.cursor.blockNumber →
        e.hash = none ∨ e.hash = x.cursor.blockHash := by
      intro e he hnum
      rcases mem_append.mp he with hold | hnew
      · exact h.hash_of_admitted hvalid (hle.trans_lt hlt) hold hnum
      · exact .inr (mem_singleton.mp hnew ▸ rfl)
    obtain ⟨floor', hle', hinv', hlen, hcov⟩ :=
      hinv.recordIdentity hlt ⟨hnamed, hhash⟩ false (hids ▸ hbound) hsafe
    refine ⟨floor', hle.trans hle', hinv', hlen, fun n hn => ?_⟩
    rcases hn with hn | hn
    · exact .inl (hn.trans (hle.trans hle'))
    · exact hcov n (.inr (hids ▸ hn))
  · rw [JournalState.recordEventIdentity, recordIdentity_below hinv.atFloor false hge]
    refine ⟨floor₁, hle, h.nameEvent_below hvalid hx hfrom hids hinv hge, hids ▸ hbound,
      fun n hn => ?_⟩
    rcases hn with hn | hn
    · exact .inl (hn.trans hle)
    · exact .inr (hids ▸ hn)

end JournalInv

/-! ### Rewinding -/

namespace JournalState

theorem rewindAfter_rollbackFloor (j : JournalState) (ancestor : BlockRef) :
    (j.rewindAfter ancestor).rollbackFloor = j.rollbackFloor := by
  simp only [rewindAfter]
  split
  · rfl
  · rfl

/-- What `restore_point` has checked, and what it returns. -/
theorem restorePoint_eq_ok {j : JournalState} {ancestor : BlockRef} {oldBranch : List BlockRef}
    {restore : Option QuoteReducer} (h : j.restorePoint ancestor oldBranch = .ok restore) :
    validateRollbackFloor j.rollbackFloor ancestor = .ok () ∧
      j.validateAncestorIdentity ancestor = .ok () ∧
      restore = (j.affected ancestor).head?.map before := by
  obtain ⟨⟨⟩, hfloor, h⟩ := bind_eq_ok.mp h
  obtain ⟨⟨⟩, hancestor, h⟩ := bind_eq_ok.mp h
  obtain ⟨⟨⟩, -, h⟩ := bind_eq_ok.mp h
  obtain ⟨⟨⟩, -, h⟩ := bind_eq_ok.mp h
  exact ⟨hfloor, hancestor, (Except.ok.inj h).symm⟩

/-- The restored reducer is the current one, or the first image above the ancestor. -/
theorem restored_of_images {P : QuoteReducer → Prop} {j : JournalState} {ancestor : BlockRef}
    {oldBranch : List BlockRef} {restore : Option QuoteReducer} {r : QuoteReducer} (hr : P r)
    (himages : ∀ b ∈ j.blocks, P b.before) (h : j.restorePoint ancestor oldBranch = .ok restore) :
    P (restore.getD r) := by
  obtain ⟨-, -, rfl⟩ := restorePoint_eq_ok h
  cases himage : (j.affected ancestor).head? with
  | none => exact hr
  | some b => exact himages b (List.mem_of_mem_filter (List.mem_of_head? himage))

end JournalState

theorem validateRollbackFloor_eq_ok {floor : ChainCursor} {ancestor : BlockRef}
    (h : validateRollbackFloor (some floor) ancestor = .ok ()) :
    floor.blockNumber ≤ ancestor.cursor.blockNumber ∧
      (ancestor.cursor.blockNumber = floor.blockNumber →
        floor.blockHash = ancestor.cursor.blockHash) := by
  simp only [validateRollbackFloor] at h
  split at h
  · cases h
  next hok =>
    simp only [not_or, not_and_or, not_not, not_lt] at hok
    refine ⟨hok.2.1, fun heq => ?_⟩
    rcases hok.2.2 with hne | hsame
    · exact absurd heq hne
    · exact hsame.2

namespace JournalInv

variable {snapshot current : QuoteData} {floor : ChainCursor} {j : JournalState}
  {items : List AcceptedEvent} {ancestor : BlockRef}
  (h : JournalInv snapshot floor j items items current)

include h

/-- Going back to an ancestor at or above the floor. -/
theorem rewind (ha : floor.blockNumber ≤ ancestor.cursor.blockNumber) :
    JournalInv snapshot floor (j.rewindAfter ancestor)
      (upTo AcceptedEvent.number items ancestor.cursor.blockNumber)
      (upTo AcceptedEvent.number items ancestor.cursor.blockNumber)
      (restoreAt number data j.blocks current ancestor.cursor.blockNumber) := by
  have hids : (j.rewindAfter ancestor).identities =
      j.identities.filter fun id => id.blockNumber ≤ ancestor.cursor.blockNumber :=
    Rollback.rdropWhile_eq_filter _ (h.names.sorted.imp fun hlt => hlt.le)
  have hjournaled := h.journaled.rewind ha
  refine ⟨(j.rewindAfter_rollbackFloor ancestor).trans h.atFloor, hids ▸ h.names.rewind ha,
    hjournaled, ?_, ?_⟩
  · intro b hb
    have hmem : b ∈ j.blocks := (List.rdropWhile_prefix _ _).subset hb
    rcases h.retained b hmem with ⟨id, hid, hnum⟩ | hnone
    · obtain ⟨e, he, hat⟩ := hjournaled.witnessed b hb
      have hle : e.number ≤ ancestor.cursor.blockNumber := by
        simpa using (mem_filter.mp he).2
      refine .inl ⟨id, ?_, hnum⟩
      rw [hids]
      exact mem_filter.mpr ⟨hid, by simpa [hnum, ← hat] using hle⟩
    · exact .inr fun e he => hnone e (mem_filter.mp he).1
  · rcases h.anchored with ⟨e, he, hat⟩ | hall
    · exact .inl ⟨e, mem_filter.mpr ⟨he, by simpa [hat] using ha⟩, hat⟩
    refine .inr fun id hid => ?_
    rw [hids] at hid
    exact hall id (mem_filter.mp hid).1

/-- The events at the height of an ancestor the journal accepts carry its hash, or none. -/
theorem hash_of_ancestor (hfloor : validateRollbackFloor j.rollbackFloor ancestor = .ok ())
    (hancestor : j.validateAncestorIdentity ancestor = .ok ())
    (hsome : ancestor.cursor.blockHash.isSome) {e : AcceptedEvent} (he : e ∈ items)
    (hnum : e.number = ancestor.cursor.blockNumber) :
    e.hash = none ∨ e.hash = ancestor.cursor.blockHash := by
  rw [h.atFloor] at hfloor
  obtain ⟨hle, hsame⟩ := validateRollbackFloor_eq_ok hfloor
  rw [JournalState.validateAncestorIdentity] at hancestor
  cases hid : j.retainedIdentity ancestor.cursor.blockNumber with
  | some id =>
    obtain ⟨hmem, hat⟩ := retainedIdentity_eq_some hid
    simp only [hid] at hancestor
    split at hancestor
    · cases hancestor
    next hok =>
      simp only [not_or, not_not, Bool.not_eq_true, isNone_eq_false_iff] at hok
      obtain ⟨-, -, hids, hhash⟩ := hok
      rcases h.names.agree id hmem e he (hnum.trans hat.symm) with h₁ | h₁ | h₁
      · rw [h₁] at hids
        cases hids
      · exact .inl h₁
      · exact .inr (h₁.trans hhash)
  | none =>
    -- no identity: the ancestor is the floor itself
    simp only [hid, h.atFloor, all_some, decide_eq_true_eq] at hancestor
    split at hancestor
    · cases hancestor
    next hnot =>
      have heq : ancestor.cursor.blockNumber = floor.blockNumber :=
        le_antisymm (not_lt.mp hnot) hle
      have hmiss : ∀ id ∈ j.identities, id.blockNumber ≠ floor.blockNumber :=
        heq ▸ retainedIdentity_eq_none.mp hid
      rcases h.names.floorAgree hmiss e he (hnum.trans heq) with h₁ | h₁ | h₁
      · rw [← hsame heq, h₁] at hsome
        cases hsome
      · exact .inl h₁
      · exact .inr (h₁.trans (hsame heq))

end JournalInv

end Lunarbase.Client
