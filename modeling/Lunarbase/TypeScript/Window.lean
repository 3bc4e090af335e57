import Lunarbase.Client.Window
import Lunarbase.TypeScript.Engine

/-!
# TypeScript — Window

What the undo blocks are worth against the history of accepted events.  `Retains` says that every
height from the rollback floor up can be gone back to exactly (`Rollback.Undoable`), that the
events of a block share its hash, and that entries and floor carry that hash.  `Placed` says where
the reducer's cursors stand relative to the history.

Eviction, finalization, a new event and going back to an ancestor keep them, each by one lemma.
-/

namespace Lunarbase.TsClient

open Client (ChainCursor BlockRef QuoteEvent QuoteData AcceptedEvent ChainCorrection)
open Rollback (replay upTo undoAbove Undoable)
open CorrectionJournal (SameRecords Evicted Recorded)
open List QuoteReducer QuoteIndexer

/-- The effect of an event on quote data; none when the reducer would reject it. -/
def effect (d : QuoteData) (e : AcceptedEvent) : Option QuoteData :=
  match validateEvent d e.event, applyEvent d e.event with
  | .ok _, .ok (d', _) => some d'
  | _, _ => none

theorem effect_of_ok {d d' : QuoteData} {e : AcceptedEvent} {undo : Option ReducerUndo}
    (hvalid : validateEvent d e.event = .ok ()) (h : applyEvent d e.event = .ok (d', undo)) :
    effect d e = some d' := by
  rw [effect, hvalid, h]

/-- A cursor at or above another one, of its hash when they share the height. -/
def FloorBelow (floor cursor : ChainCursor) : Prop :=
  floor.blockNumber ≤ cursor.blockNumber ∧
    (floor.blockNumber = cursor.blockNumber → floor.blockHash = cursor.blockHash)

theorem FloorBelow.trans {a b c : ChainCursor} (h : FloorBelow a b) (h' : FloorBelow b c) :
    FloorBelow a c := by
  refine ⟨h.1.trans h'.1, fun hac => ?_⟩
  have hab : a.blockNumber = b.blockNumber := le_antisymm h.1 (hac ▸ h'.1)
  exact (h.2 hab).trans (h'.2 (hab ▸ hac))

/-! ### The journal -/

/-- The journal goes back to every height from its floor up, for the events of `history`. -/
structure Retains (snapshot : QuoteData) (j : CorrectionJournal) (history : List AcceptedEvent)
    (data : QuoteData) : Prop where
  undoable : Undoable effect AcceptedEvent.number UndoBlock.number UndoBlock.revert snapshot
    j.rollbackFloor.blockNumber history j.blocks data
  /-- The events of one height come from one block. -/
  oneHash : ∀ e ∈ history, ∀ e' ∈ history, e.number = e'.number → e.hash = e'.hash
  entryHash : ∀ b ∈ j.blocks, ∀ e ∈ history, e.number = b.number → e.hash = b.block.blockHash
  floorHash : ∀ e ∈ history, e.number = j.rollbackFloor.blockNumber →
    e.hash = j.rollbackFloor.blockHash
  /-- The entries are distinct objects. -/
  distinct : j.blocks.Pairwise fun b b' => b.ref ≠ b'.ref
  known : ∀ b ∈ j.blocks, b.ref < j.nextRef

namespace Retains

variable {snapshot data data' : QuoteData} {j j' : CorrectionJournal}
  {history : List AcceptedEvent}

theorem start (snapshot : QuoteData) (floor : ChainCursor) (limits : CorrectionJournalLimits) :
    Retains snapshot (.new floor limits) [] snapshot where
  undoable := .start snapshot floor.blockNumber
  oneHash := by simp
  entryHash := by simp
  floorHash := by simp
  distinct := .nil
  known := by simp [CorrectionJournal.new]

/-- What a new event has to satisfy: it is at the top, in the block of the events of its height,
and at or above the floor. -/
structure Next (j : CorrectionJournal) (history : List AcceptedEvent) (x : AcceptedEvent) :
    Prop where
  le : ∀ e ∈ history, e.number ≤ x.number
  hash : ∀ e ∈ history, e.number = x.number → e.hash = x.hash
  floor : FloorBelow j.rollbackFloor x.cursor

variable {undo : ReducerUndo} {kept : List UndoBlock} {last : UndoBlock}

/-- Writing into the last entry touches no other one. -/
theorem appendUndo_blocks (undo : ReducerUndo) (bytes : Nat) (hblocks : j.blocks = kept ++ [last])
    (hdistinct : j.blocks.Pairwise fun b b' => b.ref ≠ b'.ref) :
    (j.appendUndo last.ref undo bytes).blocks =
      kept ++ [{ last with undos := last.undos ++ [undo], bytes := last.bytes + bytes }] := by
  rw [hblocks] at hdistinct
  have hother : ∀ b ∈ kept, b.ref ≠ last.ref := fun b hb =>
    (pairwise_append.mp hdistinct).2.2 b hb last (by simp)
  simp only [CorrectionJournal.appendUndo, hblocks, map_append, map_cons, map_nil, if_true]
  congr 1
  exact (map_congr_left fun b hb => if_neg (hother b hb)).trans (map_id' kept)

/-- What is above the last entry is above all of them. -/
theorem below_of_last {blocks : List UndoBlock} {n : Nat}
    (hsorted : blocks.Pairwise fun b b' => b.number < b'.number)
    (hlast : ∀ last, blocks.getLast? = some last → last.number < n) :
    ∀ b ∈ blocks, b.number < n := by
  intro b hb
  rcases eq_nil_or_concat blocks with rfl | ⟨init, last, rfl⟩
  · cases hb
  rw [concat_eq_append] at hsorted hlast hb
  have htop := hlast last (by simp)
  rcases mem_append.mp hb with hinit | hend
  · exact ((pairwise_append.mp hsorted).2.2 b hinit last (by simp)).trans htop
  rw [mem_singleton.mp hend]
  exact htop

variable (h : Retains snapshot j history data)

include h

theorem congr (hsame : SameRecords j j') : Retains snapshot j' history data where
  undoable := by rw [hsame.blocks, hsame.floor]; exact h.undoable
  oneHash := h.oneHash
  entryHash := by rw [hsame.blocks]; exact h.entryHash
  floorHash := by rw [hsame.floor]; exact h.floorHash
  distinct := by rw [hsame.blocks]; exact h.distinct
  known := by rw [hsame.blocks, hsame.nextRef]; exact h.known

/-- An evicted entry is a floor with the hash of its events. -/
theorem dropFront {b : UndoBlock} {rest : List UndoBlock} (hblocks : j.blocks = b :: rest) :
    Retains snapshot { j with blocks := rest, rollbackFloor := b.block } history data where
  undoable := by
    have hundoable := h.undoable
    rw [hblocks] at hundoable
    exact hundoable.dropFront
  oneHash := h.oneHash
  entryHash := fun b' hb' => h.entryHash b' (hblocks ▸ mem_cons_of_mem _ hb')
  floorHash := h.entryHash b (hblocks ▸ mem_cons_self)
  distinct := (hblocks ▸ h.distinct : (b :: rest).Pairwise _).of_cons
  known := fun b' hb' => h.known b' (hblocks ▸ mem_cons_of_mem _ hb')

theorem evict {dropped : List UndoBlock}
    (hevicted : Evicted dropped j j') : Retains snapshot j' history data := by
  induction dropped generalizing j with
  | nil => exact h.congr ⟨hevicted.blocks.symm, hevicted.floor, hevicted.nextRef⟩
  | cons b more ih =>
    refine ih (h.dropFront hevicted.blocks) ⟨rfl, ?_, hevicted.nextRef⟩
    rw [hevicted.floor]
    cases more with
    | nil => rfl
    | cons b' more => rfl

/-- A finalized block that no event is above becomes the floor of an empty journal. -/
theorem reset {cursor : ChainCursor}
    (limits : CorrectionJournalLimits) (hle : ∀ e ∈ history, e.number ≤ cursor.blockNumber)
    (hhash : ∀ e ∈ history, e.number = cursor.blockNumber → e.hash = cursor.blockHash) :
    Retains snapshot (.new cursor limits) history data where
  undoable := h.undoable.reset hle
  oneHash := h.oneHash
  entryHash := by simp [CorrectionJournal.new]
  floorHash := hhash
  distinct := .nil
  known := by simp [CorrectionJournal.new]

/-- Evicting cannot lift the floor above the last event. -/
theorem floorBelow_of_evict {dropped : List UndoBlock} {event cursor : ChainCursor}
    (hevicted : Evicted dropped j j') (hle : ∀ e ∈ history, e.number ≤ event.blockNumber)
    (hhash : ∀ e ∈ history, e.number = event.blockNumber → e.hash = event.blockHash)
    (hevent : FloorBelow event cursor) (hfloor : FloorBelow j.rollbackFloor cursor) :
    FloorBelow j'.rollbackFloor cursor := by
  rw [hevicted.floor]
  cases hlast : dropped.getLast? with
  | none => exact hfloor
  | some b =>
    have hb : b ∈ j.blocks :=
      hevicted.blocks ▸ mem_append_left _ (mem_of_getLast? hlast)
    obtain ⟨e, he, hnumber⟩ := h.undoable.witnessed b hb
    have hentry : e.hash = b.block.blockHash := h.entryHash b hb e he hnumber
    have hbelow : FloorBelow b.block event :=
      ⟨hnumber.symm.le.trans (hle e he), fun heq =>
        hentry.symm.trans (hhash e he (hnumber.trans heq))⟩
    exact hbelow.trans hevent

variable {x : AcceptedEvent} (hx : Next j history x)

include hx

/-- The journal after a new event, once its rollback property is known. -/
theorem grow (hundoable : Undoable effect AcceptedEvent.number UndoBlock.number UndoBlock.revert
      snapshot j'.rollbackFloor.blockNumber (history ++ [x]) j'.blocks data')
    (hfloor : j'.rollbackFloor = j.rollbackFloor)
    (hentry : ∀ b ∈ j'.blocks, (∃ b' ∈ j.blocks, b.block = b'.block) ∨ b.block = x.cursor)
    (hdistinct : j'.blocks.Pairwise fun b b' => b.ref ≠ b'.ref)
    (hknown : ∀ b ∈ j'.blocks, b.ref < j'.nextRef) :
    Retains snapshot j' (history ++ [x]) data' where
  undoable := hundoable
  oneHash := by
    intro e he e' he' hnumber
    rcases mem_append.mp he with hold | hnew
    · rcases mem_append.mp he' with hold' | hnew'
      · exact h.oneHash e hold e' hold' hnumber
      obtain rfl := mem_singleton.mp hnew'
      exact hx.hash e hold hnumber
    obtain rfl := mem_singleton.mp hnew
    rcases mem_append.mp he' with hold' | hnew'
    · exact (hx.hash e' hold' hnumber.symm).symm
    · rw [mem_singleton.mp hnew']
  entryHash := by
    intro b hb e he hnumber
    rcases hentry b hb with ⟨b', hb', hsame⟩ | hnew
    · have hnumber' : b.number = b'.number := congrArg ChainCursor.blockNumber hsame
      rw [hsame]
      rcases mem_append.mp he with hold | hnewest
      · exact h.entryHash b' hb' e hold (hnumber.trans hnumber')
      -- the entry has an event of its own, whose hash is that of the new one
      obtain rfl := mem_singleton.mp hnewest
      obtain ⟨y, hy, hyb⟩ := h.undoable.witnessed b' hb'
      rw [← h.entryHash b' hb' y hy hyb]
      exact (hx.hash y hy (hyb.trans (hnumber.trans hnumber').symm)).symm
    · have hnumber' : e.number = x.number := hnumber.trans (congrArg ChainCursor.blockNumber hnew)
      rw [hnew]
      rcases mem_append.mp he with hold | hnewest
      · exact hx.hash e hold hnumber'
      rw [mem_singleton.mp hnewest]
      rfl
  floorHash := by
    intro e he hnumber
    rw [hfloor] at hnumber ⊢
    rcases mem_append.mp he with hold | hnew
    · exact h.floorHash e hold hnumber
    obtain rfl := mem_singleton.mp hnew
    exact (hx.floor.2 hnumber.symm).symm
  distinct := hdistinct
  known := hknown

/-- An event that wrote nothing. -/
theorem idle (heffect : effect data x = some data) : Retains snapshot j (history ++ [x]) data :=
  h.grow hx (h.undoable.idle hx.le heffect) rfl (fun b hb => .inl ⟨b, hb, rfl⟩) h.distinct h.known

/-- The before-image of an event goes into a new entry. -/
theorem push {bytes : Nat} (heffect : effect data x = some data')
    (hundo : restoreReducerUndo data' undo = data) (hfresh : ∀ b ∈ j.blocks, b.number < x.number) :
    Retains snapshot (j.pushEntry x.cursor undo bytes) (history ++ [x]) data' := by
  refine h.grow hx
    (h.undoable.push (b := ⟨j.nextRef, x.cursor, [undo], bytes⟩) hx.le heffect rfl hundo
      hx.floor.1 hfresh) rfl ?_ ?_ ?_
  · intro b hb
    rcases mem_append.mp hb with hold | hnew
    · exact .inl ⟨b, hold, rfl⟩
    rw [mem_singleton.mp hnew]
    exact .inr rfl
  · refine pairwise_append.mpr ⟨h.distinct, pairwise_singleton _ _, ?_⟩
    intro b hb b' hb'
    rw [mem_singleton.mp hb']
    exact (h.known b hb).ne
  · intro b hb
    rcases mem_append.mp hb with hold | hnew
    · exact (h.known b hold).trans (Nat.lt_succ_self _)
    rw [mem_singleton.mp hnew]
    exact Nat.lt_succ_self _

/-- The before-image of an event goes into the entry of its block. -/
theorem append {bytes : Nat} (heffect : effect data x = some data')
    (hundo : restoreReducerUndo data' undo = data)
    (hblocks : j.blocks = kept ++ [last]) (hlast : last.number = x.number) :
    Retains snapshot (j.appendUndo last.ref undo bytes) (history ++ [x]) data' := by
  have hafter := appendUndo_blocks undo bytes hblocks h.distinct
  have hundoable := h.undoable
  rw [hblocks] at hundoable
  have hrefs : (j.appendUndo last.ref undo bytes).blocks.map UndoBlock.ref =
      j.blocks.map UndoBlock.ref := by
    rw [hafter, hblocks]
    simp
  refine h.grow hx ?_ rfl ?_ ?_ ?_
  · rw [hafter]
    refine hundoable.extend hx.le heffect hlast rfl ?_
    simp only [UndoBlock.revert, foldr_append, foldr_cons, foldr_nil, hundo]
  · rw [hafter, hblocks]
    intro b hb
    rcases mem_append.mp hb with hold | hnew
    · exact .inl ⟨b, mem_append_left _ hold, rfl⟩
    · exact .inl ⟨last, by simp, by rw [mem_singleton.mp hnew]⟩
  · rw [← pairwise_map (f := UndoBlock.ref) (R := fun r r' => r ≠ r'), hrefs, pairwise_map]
    exact h.distinct
  · intro b hb
    have hmem : b.ref ∈ j.blocks.map UndoBlock.ref := hrefs ▸ mem_map_of_mem hb
    obtain ⟨b', hb', href⟩ := mem_map.mp hmem
    exact href ▸ h.known b' hb'

/-- A recorded event. -/
theorem record {event : ChainCursor} (hle : ∀ e ∈ history, e.number ≤ event.blockNumber)
    (hhash : ∀ e ∈ history, e.number = event.blockNumber → e.hash = event.blockHash)
    (hevent : FloorBelow event x.cursor)
    (heffect : effect data x = some data') (hundo : restoreReducerUndo data' undo = data)
    (hrecord : j.record x.cursor undo = (j', .ok ⟨⟩)) :
    Retains snapshot j' (history ++ [x]) data' ∧ FloorBelow j'.rollbackFloor x.cursor := by
  have hrecorded := j.record_recorded x.cursor undo
  rw [hrecord] at hrecorded
  cases hrecorded with
  | @appended dropped kept last j₁ bytes hevicted hkept hnumber hsame =>
    have hfloor := h.floorBelow_of_evict hevicted hle hhash hevent hx.floor
    have hnext : Next j₁ history x := ⟨hx.le, hx.hash, hfloor⟩
    exact ⟨(h.evict hevicted).append hnext heffect hundo hkept hnumber, hfloor⟩
  | @pushed dropped j₁ bytes _ hevicted habove hsame =>
    have hfloor := h.floorBelow_of_evict hevicted hle hhash hevent hx.floor
    have hnext : Next j₁ history x := ⟨hx.le, hx.hash, hfloor⟩
    have hfresh : ∀ b ∈ j₁.blocks, b.number < x.number := by
      intro b hb
      have hmem : b ∈ j.blocks := hevicted.blocks ▸ mem_append_right _ hb
      exact below_of_last h.undoable.sorted habove b hmem
    refine ⟨((h.evict hevicted).push hnext heffect hundo hfresh).congr hsame, ?_⟩
    rw [hsame.floor]
    exact hfloor

end Retains

/-! ### The cursors -/

/-- The reducer stands at `event`, `head` and `published` after `history`. -/
structure Placed (r : QuoteReducer) (history : List AcceptedEvent)
    (event head published : ChainCursor) : Prop where
  eventCursor : r.eventCursor = some event
  headCursor : r.headCursor = some head
  cursor : r.cursor = some published
  headLe : head.blockNumber ≤ published.blockNumber
  le : ∀ e ∈ history, e.number ≤ event.blockNumber
  hash : ∀ e ∈ history, e.number = event.blockNumber → e.hash = event.blockHash
  /-- The event cursor is at an accepted event, or where a head has been. -/
  reached : (∃ e ∈ history, e.number = event.blockNumber) ∨ event.blockNumber ≤ head.blockNumber

namespace Placed

variable {r r' : QuoteReducer} {history : List AcceptedEvent}
  {event head published cursor : ChainCursor} {new : QuoteEvent}

section

variable (h : Placed r history event head published)

include h

theorem floorBelow_of_admitted
    (hadmitted : r.admitEvent cursor new = .ok true) : FloorBelow event cursor :=
  ⟨blockNumber_le_of_admitted hadmitted h.eventCursor,
    (admitEvent_eq_true hadmitted h.eventCursor).1⟩

/-- A new event is next for any journal it is not below. -/
theorem next {j : CorrectionJournal} (hadmitted : r.admitEvent cursor new = .ok true)
    (hfloor : FloorBelow j.rollbackFloor cursor) : Retains.Next j history ⟨cursor, new⟩ := by
  obtain ⟨hle, hhash⟩ := h.floorBelow_of_admitted hadmitted
  refine ⟨fun e he => (h.le e he).trans hle, fun e he hnumber => ?_, hfloor⟩
  have hevent : e.number = event.blockNumber :=
    le_antisymm (h.le e he) (hle.trans (show cursor.blockNumber ≤ e.number from hnumber.ge))
  exact (h.hash e he hevent).trans (hhash (hevent.symm.trans hnumber))

theorem apply (data : QuoteData) (hadmitted : r.admitEvent cursor new = .ok true) :
    Placed { r with
      data := data
      eventCursor := some cursor
      lastEvent := some new
      cursor := some (r.publishEvent cursor) }
      (history ++ [⟨cursor, new⟩]) cursor head (r.publishEvent cursor) where
  eventCursor := rfl
  headCursor := h.headCursor
  cursor := rfl
  headLe := le_publishEvent h.cursor h.headLe
  le := by
    intro e he
    rcases mem_append.mp he with hold | hnew
    · exact (h.le e hold).trans (h.floorBelow_of_admitted hadmitted).1
    rw [mem_singleton.mp hnew]
    exact le_rfl
  hash := by
    intro e he hnumber
    rcases mem_append.mp he with hold | hnew
    · have hnext := h.next (j := .new event ⟨0, 0⟩) hadmitted (h.floorBelow_of_admitted hadmitted)
      exact hnext.hash e hold hnumber
    · rw [mem_singleton.mp hnew]
      rfl
  reached := .inl ⟨⟨cursor, new⟩, by simp, rfl⟩

variable {block : ChainCursor}

theorem observeHead (hobserve : r.observeHead block = .ok r') :
    ∃ head' published', Placed r' history event head' published' ∧
      block.blockNumber ≤ head'.blockNumber := by
  obtain ⟨-, headCursor, published', rfl⟩ := observeHead_frame hobserve
  obtain ⟨head', published', hhead, hpublished, hle, hgrown, hblock⟩ :=
    observeHead_heights h.headCursor h.cursor h.headLe hobserve
  refine ⟨head', published', ⟨h.eventCursor, hhead, hpublished, hle, h.le, h.hash, ?_⟩, hblock⟩
  rcases h.reached with hevent | hheight
  · exact .inl hevent
  · exact .inr (hheight.trans hgrown)

/-- A published head that no event is above has the hash of the events of its height. -/
theorem hash_of_head (hcheck : checkHeadAgainstEvent (some event) block = .ok ())
    (hpublished : published.blockNumber = block.blockNumber)
    (hle : ∀ e ∈ history, e.number ≤ block.blockNumber) :
    ∀ e ∈ history, e.number = block.blockNumber → e.hash = block.blockHash := by
  intro e he hnumber
  have hup : event.blockNumber ≤ block.blockNumber := by
    rcases h.reached with ⟨e', he', hevent⟩ | hheight
    · exact hevent ▸ hle e' he'
    · exact hpublished ▸ hheight.trans h.headLe
  have hsame : event.blockNumber = block.blockNumber := le_antisymm hup (hnumber ▸ h.le e he)
  rw [checkHeadAgainstEvent, if_pos hsame] at hcheck
  exact (h.hash e he (hnumber.trans hsame.symm)).trans (blockHash_eq_of_validate hcheck hsame)

end

end Placed

/-! ### Events -/

variable {t t' : QuoteIndexer.Target} {event : QuoteEvent} {cursor : ChainCursor}

/-- An event that is not new, or is rejected, changes nothing. -/
theorem applyEventTo_of_not_new (h : t.reducer.admitEvent cursor event ≠ .ok true) :
    (applyEventTo t cursor event).1 = t := by
  rw [applyEventTo]
  split
  · rfl
  · next r happly =>
    rcases apply_eq_ok happly with ⟨-, hsame, -⟩ | ⟨_, hnew, -⟩
    · rw [hsame]
    · exact absurd hnew h
  · next r undo happly =>
    rcases apply_eq_ok happly with ⟨-, -, hundo⟩ | ⟨_, hnew, -⟩
    · cases hundo
    · exact absurd hnew h

variable {changed : Bool}

/-- An event that goes through was known, or is new. -/
theorem admitEvent_of_applied (h : applyEventTo t cursor event = (t', .ok changed)) :
    t.reducer.admitEvent cursor event = .ok false ∧ t' = t ∨
      t.reducer.admitEvent cursor event = .ok true := by
  cases hadmitted : t.reducer.admitEvent cursor event with
  | error e =>
    have happly : t.reducer.apply cursor event = .error e := by
      rw [apply, hadmitted]
      rfl
    simp [applyEventTo, happly] at h
  | ok new =>
    cases new with
    | true => exact .inr rfl
    | false =>
      have hknown : t.reducer.admitEvent cursor event ≠ .ok true := by simp [hadmitted]
      have hsame := applyEventTo_of_not_new hknown
      rw [h] at hsame
      exact .inl ⟨rfl, hsame⟩

/-- A new event that the reducer applies and the journal records. -/
theorem applyEventTo_retains {snapshot : QuoteData}
    {history : List AcceptedEvent} {event head published cursor : ChainCursor} {new : QuoteEvent}
    (hplaced : Placed t.reducer history event head published)
    (hretains : Retains snapshot t.journal history t.reducer.data)
    (hfloor : FloorBelow t.journal.rollbackFloor cursor)
    (hadmitted : t.reducer.admitEvent cursor new = .ok true)
    (h : applyEventTo t cursor new = (t', .ok changed)) :
    (∃ published', Placed t'.reducer (history ++ [⟨cursor, new⟩]) cursor head published') ∧
      Retains snapshot t'.journal (history ++ [⟨cursor, new⟩]) t'.reducer.data ∧
      FloorBelow t'.journal.rollbackFloor cursor := by
  have hnext := hplaced.next hadmitted hfloor
  rw [applyEventTo] at h
  cases happly : t.reducer.apply cursor new with
  | error e => simp [happly] at h
  | ok result =>
    obtain ⟨r', undo⟩ := result
    rcases apply_eq_ok happly with ⟨hknown, -, -⟩ | ⟨data, -, hvalid, hevent, hr'⟩
    · exact absurd (hknown.symm.trans hadmitted) (by simp)
    have heffect : effect t.reducer.data ⟨cursor, new⟩ = some data := effect_of_ok hvalid hevent
    have hreverts := applyEvent_reverts t.reducer.data new data undo hevent
    have hplaced' := hplaced.apply data hadmitted
    cases undo with
    | none =>
      simp only [happly, Prod.mk.injEq, Except.ok.injEq] at h
      obtain ⟨rfl, -⟩ := h
      obtain rfl : data = t.reducer.data := hreverts
      rw [hr']
      exact ⟨⟨_, hplaced'⟩, hretains.idle hnext heffect, hfloor⟩
    | some undo =>
      simp only [happly] at h
      rcases hrecord : t.journal.record cursor undo with ⟨journal, e | ⟨⟨⟩⟩⟩
      · simp [hrecord] at h
      simp only [hrecord, Prod.mk.injEq, Except.ok.injEq] at h
      obtain ⟨rfl, -⟩ := h
      rw [hr']
      exact ⟨⟨_, hplaced'⟩, hretains.record hnext hplaced.le hplaced.hash
        (hplaced.floorBelow_of_admitted hadmitted) heffect hreverts hrecord⟩

end Lunarbase.TsClient
