import Lunarbase.Client.Rollback
import Lunarbase.TypeScript.History

/-!
# TypeScript — Rollback

An applied correction is rollback plus replay, and one that throws leaves the live reducer's data
and the live journal alone (`correction_undoes_and_replays`).

The candidate journal shares its undo blocks with the live one.  That is harmless because nothing
is written into a shared block: replacement logs lie above the ancestor, shared blocks do not
(`Apart`).

The first half holds along runs in which no finalized head becomes the published cursor while an
accepted event lies above it: such a head starts the journal anew at its own height, and the event
above it can no longer be undone.
-/

namespace Lunarbase.TsClient

open List QuoteReducer Except

open Client (ChainCursor BlockRef ContractLog QuoteEvent QuoteData AcceptedEvent ChainCorrection
  ChainUpdate Platform)
open CorrectionJournal (SameRecords Evicted Recorded)
open Effect (andThen andThen_eq_ok andThen_eq_error)
open Rollback (replay upTo undoAbove Undoable)

variable {env : Platform} {snapshot data : QuoteData} {s s' : QuoteIndexer}
  {j j' : CorrectionJournal} {history : List AcceptedEvent} {c : ChainCorrection}

/-! ### Going back -/

/-- The search finds the entry of a height that has one. -/
theorem ancestorEntry_of_mem {blocks : List UndoBlock} {b : UndoBlock}
    (hsorted : blocks.Pairwise fun b b' => b.number < b'.number) (hb : b ∈ blocks) :
    CorrectionJournal.ancestorEntry b.number blocks = some b := by
  induction blocks with
  | nil => exact absurd hb (by simp)
  | cons first rest ih =>
    obtain ⟨hfirst, hrest⟩ := pairwise_cons.mp hsorted
    rw [CorrectionJournal.ancestorEntry]
    rcases mem_cons.mp hb with rfl | hmem
    · rw [if_pos rfl]
    have hlt := hfirst b hmem
    rw [if_neg hlt.ne, if_neg hlt.asymm]
    exact ih hrest hmem

/-- An accepted ancestor is not below the floor, and has the hash of the floor or of the entry at
its height. -/
theorem validateAncestor_eq_ok {ancestor : BlockRef}
    (hsorted : j.blocks.Pairwise fun b b' => b.number < b'.number)
    (h : j.validateAncestor ancestor = .ok ()) :
    FloorBelow j.rollbackFloor ancestor.cursor ∧
      (j.rollbackFloor.blockNumber ≠ ancestor.cursor.blockNumber →
        ∀ b ∈ j.blocks, b.number = ancestor.cursor.blockNumber →
          b.block.blockHash = ancestor.cursor.blockHash) := by
  obtain ⟨-, h⟩ := ite_error_eq_ok.mp h
  obtain ⟨hfloor, h⟩ := ite_error_eq_ok.mp h
  by_cases hsame : ancestor.cursor.blockNumber = j.rollbackFloor.blockNumber
  · rw [if_pos hsame] at h
    obtain ⟨-, heq⟩ := CorrectionJournal.assertHash_eq_ok h
    exact ⟨⟨hsame.ge, fun _ => congrArg CursorIdentity.blockHash heq⟩,
      fun hne => absurd hsame.symm hne⟩
  rw [if_neg hsame] at h
  refine ⟨⟨not_lt.mp hfloor, fun heq => absurd heq.symm hsame⟩, fun _ b hb hnumber => ?_⟩
  rw [← hnumber, ancestorEntry_of_mem hsorted hb] at h
  obtain ⟨-, heq⟩ := CorrectionJournal.assertHash_eq_ok h
  exact congrArg CursorIdentity.blockHash heq

/-- Where the events at the ancestor's height come from the ancestor, the height alone decides who
survives. -/
theorem survivors_eq_upTo (hsame : ∀ e ∈ history, e.number = c.commonAncestor.cursor.blockNumber →
      e.hash = c.commonAncestor.cursor.blockHash) :
    survivors c history =
      upTo AcceptedEvent.number history c.commonAncestor.cursor.blockNumber := by
  refine filter_congr fun e he => ?_
  rw [onBranch, Bool.eq_iff_iff]
  simp only [Bool.or_eq_true, Bool.and_eq_true, decide_eq_true_eq]
  constructor
  · rintro (hlt | ⟨heq, -⟩)
    · exact hlt.le
    · exact heq.le
  intro hle
  rcases Nat.lt_or_eq_of_le hle with hlt | heq
  · exact .inl hlt
  · exact .inr ⟨heq, hsame e he heq⟩

/-- Where none does, only what is below it survives. -/
theorem survivors_eq_upTo_pred {n : Nat} (hn : c.commonAncestor.cursor.blockNumber = n + 1)
    (hother : ∀ e ∈ history, e.number = c.commonAncestor.cursor.blockNumber →
      e.hash ≠ c.commonAncestor.cursor.blockHash) :
    survivors c history = upTo AcceptedEvent.number history n := by
  refine filter_congr fun e he => ?_
  rw [onBranch, Bool.eq_iff_iff]
  simp only [Bool.or_eq_true, Bool.and_eq_true, decide_eq_true_eq]
  constructor
  · rintro (hlt | ⟨heq, hhash⟩)
    · rw [hn] at hlt
      exact Nat.le_of_lt_succ hlt
    · exact absurd hhash (hother e he heq)
  · intro hle
    rw [hn]
    exact .inl (Nat.lt_succ_of_le hle)

/-- Undoing to an accepted ancestor leaves what the surviving events give. -/
theorem undoable_survivors (h : Retains snapshot j history data)
    (hancestor : j.validateAncestor c.commonAncestor = .ok ()) :
    Undoable effect AcceptedEvent.number UndoBlock.number UndoBlock.revert snapshot
      j.rollbackFloor.blockNumber (survivors c history)
      (j.blocks.filter fun b => b.number ≤ c.commonAncestor.cursor.blockNumber)
      (undoAbove UndoBlock.number UndoBlock.revert j.blocks data
        c.commonAncestor.cursor.blockNumber) := by
  obtain ⟨hfloor, hentry⟩ := validateAncestor_eq_ok h.undoable.sorted hancestor
  have hrewind := h.undoable.rewind hfloor.1
  by_cases hsame : ∀ e ∈ history, e.number = c.commonAncestor.cursor.blockNumber →
      e.hash = c.commonAncestor.cursor.blockHash
  · rw [survivors_eq_upTo hsame]
    exact hrewind
  -- the events of the height came from another block: none of them can have left a record
  simp only [not_forall] at hsame
  obtain ⟨e, he, hnumber, hhash⟩ := hsame
  have hother : ∀ e' ∈ history, e'.number = c.commonAncestor.cursor.blockNumber →
      e'.hash ≠ c.commonAncestor.cursor.blockHash := fun e' he' hnumber' heq =>
    hhash ((h.oneHash e he e' he' (hnumber.trans hnumber'.symm)).trans heq)
  have habove : j.rollbackFloor.blockNumber ≠ c.commonAncestor.cursor.blockNumber := by
    intro heq
    exact hhash ((h.floorHash e he (hnumber.trans heq.symm)).trans (hfloor.2 heq))
  have hnone : ∀ b ∈ j.blocks, b.number ≠ c.commonAncestor.cursor.blockNumber := by
    intro b hb heq
    exact hhash ((h.entryHash b hb e he (hnumber.trans heq.symm)).trans (hentry habove b hb heq))
  obtain ⟨n, hn⟩ := Nat.exists_eq_add_one_of_ne_zero
    (Nat.ne_zero_of_lt (lt_of_le_of_ne hfloor.1 habove))
  have hlow : j.rollbackFloor.blockNumber < c.commonAncestor.cursor.blockNumber :=
    lt_of_le_of_ne hfloor.1 habove
  rw [survivors_eq_upTo_pred hn hother]
  rw [hn] at hrewind hlow hnone ⊢
  have hforget := hrewind.forget (n := n) (Nat.le_of_lt_succ hlow)
    (fun b hb => hnone b (mem_filter.mp hb).1)
    (fun x hx => by simpa using (mem_filter.mp hx).2)
  rwa [Rollback.upTo_upTo (Nat.le_succ n)] at hforget

variable {r : QuoteReducer} {cursor head : ChainCursor} {log : ContractLog}
  {t : QuoteIndexer.Target} {e : Failure}

/-- The candidate before its replacement logs. -/
theorem candidate_retains {current : QuoteReducer} {oldBranch : List BlockRef}
    (h : Retains snapshot j history current.data)
    (hcandidate : j.candidate current c.commonAncestor oldBranch = .ok (r, j')) :
    Retains snapshot j' (survivors c history) r.data ∧
      Placed r (survivors c history) c.commonAncestor.cursor c.commonAncestor.cursor
        c.commonAncestor.cursor ∧
      FloorBelow j'.rollbackFloor c.commonAncestor.cursor ∧
      j' = j.prefixUpTo c.commonAncestor.cursor.blockNumber := by
  obtain ⟨⟨⟩, hancestor, hcandidate⟩ := bind_eq_ok.mp hcandidate
  obtain ⟨⟨⟩, -, hcandidate⟩ := bind_eq_ok.mp hcandidate
  obtain ⟨r', hprepare, hcandidate⟩ := bind_eq_ok.mp hcandidate
  cases hcandidate
  obtain ⟨-, hprepare⟩ := ite_error_eq_ok.mp hprepare
  cases hprepare
  obtain ⟨hblocks, hfloor, hnextRef⟩ :=
    j.prefixUpTo_records c.commonAncestor.cursor.blockNumber
  rw [CorrectionJournal.takeWhile_eq_filter _ h.undoable.sorted] at hblocks
  have hmem : ∀ e ∈ survivors c history, e ∈ history := fun e he => (mem_survivors.mp he).1
  refine ⟨?_, ?_, ?_, rfl⟩
  · constructor
    case undoable =>
      rw [hblocks, hfloor]
      exact undoable_survivors h hancestor
    case oneHash => exact fun e he e' he' => h.oneHash e (hmem e he) e' (hmem e' he')
    case entryHash =>
      rw [hblocks]
      exact fun b hb e he => h.entryHash b (mem_filter.mp hb).1 e (hmem e he)
    case floorHash =>
      rw [hfloor]
      exact fun e he => h.floorHash e (hmem e he)
    case distinct =>
      rw [hblocks]
      exact h.distinct.filter _
    case known =>
      rw [hblocks, hnextRef]
      exact fun b hb => h.known b (mem_filter.mp hb).1
  · refine ⟨rfl, rfl, rfl, le_rfl, ?_, ?_, .inr le_rfl⟩
    · intro e he
      rcases (mem_survivors.mp he).2 with hlt | ⟨heq, -⟩
      · exact hlt.le
      · exact heq.le
    intro e he hnumber
    rcases (mem_survivors.mp he).2 with hlt | ⟨-, hhash⟩
    · exact absurd hnumber hlt.ne
    · exact hhash
  · rw [hfloor]
    exact (validateAncestor_eq_ok h.undoable.sorted hancestor).1

/-! ### Shared undo blocks -/

/-- What `j` has in common with the live journal lies at or below `n`; its other entries are
objects the live journal does not have. -/
structure Apart (live j : CorrectionJournal) (n : Nat) : Prop where
  shared : ∀ b ∈ j.blocks, (b ∈ live.blocks ∧ b.number ≤ n) ∨ live.nextRef ≤ b.ref
  fresh : live.nextRef ≤ j.nextRef

theorem apart_prefixUpTo (live : CorrectionJournal) (n : Nat) :
    Apart live (live.prefixUpTo n) n := by
  obtain ⟨hblocks, -, hnextRef⟩ := live.prefixUpTo_records n
  refine ⟨fun b hb => .inl ?_, hnextRef.ge⟩
  rw [hblocks] at hb
  exact ⟨(List.takeWhile_prefix _).subset hb, by simpa using mem_takeWhile_imp hb⟩

namespace Apart

variable {live : CorrectionJournal} {n : Nat}

theorem evict {dropped : List UndoBlock} (h : Apart live j n) (hevicted : Evicted dropped j j') :
    Apart live j' n :=
  ⟨fun b hb => h.shared b (hevicted.blocks ▸ mem_append_right _ hb),
    h.fresh.trans hevicted.nextRef.ge⟩

/-- Recording above `n` writes into no shared entry, whatever comes of it. -/
theorem record (h : Apart live j n) (undo : ReducerUndo) (habove : n < cursor.blockNumber) :
    Apart live (j.record cursor undo).1 n := by
  have hrecorded := j.record_recorded cursor undo
  generalize j.record cursor undo = out at hrecorded
  cases hrecorded with
  | failed hevicted => exact h.evict hevicted
  | @appended dropped kept last j₁ bytes hevicted hkept hnumber hhash =>
    have h₁ := h.evict hevicted
    have hlast : live.nextRef ≤ last.ref := by
      rcases h₁.shared last (by simp [hkept]) with ⟨-, hle⟩ | hnew
      · exact absurd (hnumber ▸ hle) (not_le.mpr habove)
      · exact hnew
    refine ⟨fun b hb => ?_, h₁.fresh⟩
    obtain ⟨entry, hentry, hb⟩ := mem_map.mp hb
    by_cases href : entry.ref = last.ref
    · rw [if_pos href] at hb
      rw [← hb]
      exact .inr (hlast.trans href.ge)
    · rw [if_neg href] at hb
      rw [← hb]
      exact h₁.shared entry hentry
  | @pushed dropped j₁ bytes _ hevicted _ hsame =>
    have h₁ := h.evict hevicted
    refine ⟨fun b hb => ?_, ?_⟩
    · rw [hsame.blocks] at hb
      rcases mem_append.mp hb with hold | hnew
      · exact h₁.shared b hold
      rw [mem_singleton.mp hnew]
      exact .inr h₁.fresh
    · rw [hsame.nextRef]
      exact h₁.fresh.trans (Nat.le_succ _)

/-- The live journal sees nothing of what is written. -/
theorem seeing_eq (h : Apart live j n) (hdistinct : live.blocks.Pairwise fun b b' => b.ref ≠ b'.ref)
    (hknown : ∀ b ∈ live.blocks, b.ref < live.nextRef) : live.seeing j = live := by
  have hentry : ∀ entry ∈ live.blocks,
      (j.blocks.find? fun written => decide (written.ref = entry.ref)).getD entry = entry := by
    intro entry hentry
    cases hfound : j.blocks.find? fun written => decide (written.ref = entry.ref) with
    | none => rfl
    | some written =>
      have href : written.ref = entry.ref := by simpa using find?_some hfound
      rcases h.shared written (mem_of_find?_eq_some hfound) with ⟨hlive, -⟩ | hnew
      · exact inj_on_of_nodup_map (pairwise_map.mpr hdistinct) hlive hentry href
      · exact absurd (href ▸ hnew) (not_le.mpr (hknown entry hentry))
  have hblocks : (live.seeing j).blocks = live.blocks :=
    (map_congr_left hentry).trans (map_id' live.blocks)
  have hseeing : live.seeing j = { live with blocks := (live.seeing j).blocks } := rfl
  rw [hseeing, hblocks]

theorem applyLog (h : Apart live t.journal n) (env : Platform) (s : QuoteIndexer) (respect : Bool)
    (habove : n < log.cursor.blockNumber) :
    Apart live (s.applyLog env t log respect).1.journal n := by
  rw [QuoteIndexer.applyLog]
  split
  · exact h
  · exact h
  · next event _ =>
    rw [QuoteIndexer.applyEventTo]
    split
    · exact h
    · exact h
    · next reducer undo _ =>
      have hrecord := h.record undo habove
      split
      · next journal e hout =>
        rw [hout] at hrecord
        exact hrecord
      · next journal _ hout =>
        rw [hout] at hrecord
        exact hrecord

end Apart

/-! ### Replaying -/

variable {logs : List ContractLog}

/-- Whatever comes of the replay, the live side is as it was. -/
theorem replayReplacement_live {n : Nat}
    (hretains : Retains snapshot s.correctionJournal history data)
    (hapart : Apart s.correctionJournal t.journal n)
    (habove : ∀ log ∈ logs, n < log.cursor.blockNumber) :
    (s.replayReplacement env t logs).1 = s := by
  induction logs generalizing t with
  | nil => rfl
  | cons log rest ih =>
    have hapart' := hapart.applyLog env s false (habove log mem_cons_self)
    have hseeing := hapart'.seeing_eq hretains.distinct hretains.known
    rw [QuoteIndexer.replayReplacement]
    rcases hout : s.applyLog env t log false with ⟨t', e | changed⟩
    · rw [hout] at hseeing
      dsimp only
      rw [hseeing]
    rw [hout] at hseeing hapart'
    dsimp only
    rw [hseeing]
    exact ih hapart' fun log' hlog' => habove log' (mem_cons_of_mem _ hlog')

variable {previous event published : ChainCursor}

theorem admitEvent_ne_false {event : QuoteEvent} (hprevious : r.eventCursor = some previous)
    (hlt : cursorKey previous < cursorKey cursor) : r.admitEvent cursor event ≠ .ok false := by
  intro h
  obtain ⟨⟨⟩, -, h⟩ := bind_eq_ok.mp h
  simp only [hprevious] at h
  obtain ⟨⟨⟩, -, h⟩ := bind_eq_ok.mp h
  split at h
  · cases h
  cases hcompare : compareCursor cursor previous with
  | lt | gt => simp [hcompare] at h
  | eq =>
    rw [compareCursor] at hcompare
    split_ifs at hcompare with hless hsame
    rw [hsame] at hlt
    exact lt_irrefl _ hlt

theorem replacementEvents_cons (env : Platform) (log : ContractLog) (rest : List ContractLog) :
    replacementEvents env (log :: rest) =
      (replacementEvent env log).toList ++ replacementEvents env rest := by
  simp only [replacementEvents, filterMap_eq_flatMap_toList, flatMap_cons]

/-- Without the canonical floor a log is decoded, and that is all. -/
theorem QuoteIndexer.admitLog_eq_ok {decoded : Option QuoteEvent}
    (h : s.admitLog env j log false = .ok decoded) : decodeCoreEvent env log = .ok decoded := by
  obtain ⟨⟨⟩, -, h⟩ := bind_eq_ok.mp h
  obtain ⟨-, h⟩ := ite_error_eq_ok.mp h
  obtain ⟨covered, hcovered, h⟩ := bind_eq_ok.mp h
  cases hcovered
  obtain ⟨event, hevent, h⟩ := bind_eq_ok.mp h
  cases event with
  | none | some event => exact hevent.trans h

variable {t' : QuoteIndexer.Target}

/-- A replacement log after the last event brings no event, or one that is new. -/
theorem applyLog_replacement {changed : Bool} (hprevious : t.reducer.eventCursor = some previous)
    (hlt : cursorKey previous < cursorKey log.cursor)
    (h : s.applyLog env t log false = (t', .ok changed)) :
    (replacementEvent env log = none ∧ t' = t) ∨
    ∃ event, replacementEvent env log = some ⟨log.cursor, event⟩ ∧
      t.reducer.admitEvent log.cursor event = .ok true ∧
      QuoteIndexer.applyEventTo t log.cursor event = (t', .ok changed) := by
  rw [QuoteIndexer.applyLog] at h
  cases hadmitted : s.admitLog env t.journal log false with
  | error e => simp [hadmitted] at h
  | ok decoded =>
    have hdecoded := QuoteIndexer.admitLog_eq_ok hadmitted
    cases decoded with
    | none =>
      simp only [hadmitted, Prod.mk.injEq] at h
      refine .inl ⟨?_, h.1.symm⟩
      rw [replacementEvent, hdecoded]
    | some event =>
      simp only [hadmitted] at h
      rcases admitEvent_of_applied h with ⟨hknown, -⟩ | hnew
      · exact absurd hknown (admitEvent_ne_false hprevious hlt)
      refine .inr ⟨event, ?_, hnew, h⟩
      rw [replacementEvent, hdecoded]

/-- The events of a replayed list of logs, in its order, are the new top of the history. -/
theorem replayReplacement_retains (hplaced : Placed t.reducer history event head published)
    (hretains : Retains snapshot t.journal history t.reducer.data)
    (hfloor : FloorBelow t.journal.rollbackFloor event)
    (hordered : logs.Pairwise fun log log' => cursorKey log.cursor < cursorKey log'.cursor)
    (hnext : ∀ log ∈ logs, cursorKey event < cursorKey log.cursor)
    (h : s.replayReplacement env t logs = (s', .ok t')) :
    ∃ event' published',
      Placed t'.reducer (history ++ replacementEvents env logs) event' head published' ∧
      Retains snapshot t'.journal (history ++ replacementEvents env logs) t'.reducer.data ∧
      FloorBelow t'.journal.rollbackFloor event' := by
  induction logs generalizing s t history event published with
  | nil =>
    cases h
    rw [replacementEvents, filterMap_nil, append_nil]
    exact ⟨event, published, hplaced, hretains, hfloor⟩
  | cons log rest ih =>
    obtain ⟨hfirst, hrest⟩ := pairwise_cons.mp hordered
    rw [QuoteIndexer.replayReplacement] at h
    rcases hout : s.applyLog env t log false with ⟨t₁, e | changed⟩
    · simp [hout] at h
    simp only [hout] at h
    rw [replacementEvents_cons, ← append_assoc]
    rcases applyLog_replacement hplaced.eventCursor (hnext log mem_cons_self) hout with
      ⟨hnone, rfl⟩ | ⟨new, hsome, hnew, happly⟩
    · rw [hnone, Option.toList_none, append_nil]
      exact ih hplaced hretains hfloor hrest
        (fun log' hlog' => hnext log' (mem_cons_of_mem _ hlog')) h
    obtain ⟨⟨published', hplaced'⟩, hretains', hfloor'⟩ := applyEventTo_retains hplaced
      hretains (hfloor.trans (hplaced.floorBelow_of_admitted hnew)) hnew happly
    rw [hsome, Option.toList_some]
    exact ih hplaced' hretains' hfloor' hrest hfirst h

/-! ### Corrections -/

/-- An applied correction went through every stage. -/
theorem QuoteIndexer.applyCorrection_eq_some {notice : CorrectionNotice}
    (h : s.applyCorrection env c false = (s', .ok (some notice))) :
    WellFormed c ∧ s.reducer.ready = true ∧ s.finality.validateCorrection c = .ok () ∧
    ∃ r j s₁ t, s.correctionJournal.candidate s.reducer c.commonAncestor c.oldBranch = .ok (r, j) ∧
      s.replayReplacement env ⟨r, j⟩ c.replacementLogs = (s₁, .ok t) ∧
      s₁.publishCandidate env c t = (s', .ok (some notice)) := by
  obtain ⟨s₁, ⟨⟩, hvalid, h⟩ := andThen_eq_ok.mp h
  obtain ⟨rfl, henvelope⟩ := Prod.mk.inj hvalid
  split at h
  · simp at h
  next hready =>
  split at h
  · simp at h
  obtain ⟨s₁, shouldApply, hadmitted, h⟩ := andThen_eq_ok.mp h
  obtain ⟨rfl, hchecks⟩ := Prod.mk.inj hadmitted
  split at h
  · simp at h
  obtain ⟨s₁, ⟨r, j⟩, hcandidate, h⟩ := andThen_eq_ok.mp h
  obtain ⟨rfl, hprepared⟩ := Prod.mk.inj hcandidate
  obtain ⟨s₁, t, hreplay, h⟩ := andThen_eq_ok.mp h
  obtain ⟨⟨⟩, hfinality, -⟩ := bind_eq_ok.mp hchecks
  exact ⟨wellFormed_of_validate henvelope, by simpa using hready, hfinality, r, j, s₁, t, hprepared,
    hreplay, h⟩

/-- The candidate once its logs are replayed: its history is what survives and what is new. -/
theorem candidate_replayed (hc : WellFormed c)
    (hretains : Retains snapshot s.correctionJournal history s.reducer.data)
    (hcandidate : s.correctionJournal.candidate s.reducer c.commonAncestor c.oldBranch = .ok (r, j))
    (hreplay : s.replayReplacement env ⟨r, j⟩ c.replacementLogs = (s', .ok t)) :
    ∃ event published,
      Placed t.reducer (survivors c history ++ replacementEvents env c.replacementLogs) event
        c.commonAncestor.cursor published ∧
      Retains snapshot t.journal (survivors c history ++ replacementEvents env c.replacementLogs)
        t.reducer.data ∧
      FloorBelow t.journal.rollbackFloor event := by
  obtain ⟨hretains', hplaced', hfloor', -⟩ := candidate_retains hretains hcandidate
  refine replayReplacement_retains (t := ⟨r, j⟩) hplaced' hretains' hfloor' hc.ordered ?_ hreplay
  intro log hlog
  exact List.Lex.rel (hc.log_bounds hlog).1

/-- Nothing that was replayed lies above the new tip. -/
theorem le_newTip (hc : WellFormed c) :
    ∀ e ∈ survivors c history ++ replacementEvents env c.replacementLogs,
      e.number ≤ c.newTip.cursor.blockNumber := by
  intro e he
  rcases mem_append.mp he with hold | hnew
  · rcases (mem_survivors.mp hold).2 with hlt | ⟨heq, -⟩
    · exact hlt.le.trans hc.ancestor_le
    · exact heq.le.trans hc.ancestor_le
  obtain ⟨log, hlog, hx⟩ := mem_filterMap.mp hnew
  rw [replacementEvent] at hx
  split at hx
  · rw [← Option.some.inj hx]
    exact (hc.log_bounds hlog).2
  · cases hx

variable {notice : Option CorrectionNotice}

/-- The published data of a candidate are its own. -/
theorem publishCandidate_data
    (h : s.publishCandidate env c t = (s', .ok notice)) : s'.reducer.data = t.reducer.data := by
  rw [QuoteIndexer.publishCandidate] at h
  cases hobserve : t.reducer.observeHead c.newTip.cursor with
  | error e => simp [hobserve] at h
  | ok r =>
    obtain ⟨-, _, _, hframe⟩ := observeHead_frame hobserve
    simp only [hobserve] at h
    obtain ⟨s₁, ⟨⟩, hfinalized, h⟩ := andThen_eq_ok.mp h
    cases h
    rcases QuoteIndexer.observeFinalized_eq_ok hfinalized with ⟨finality, rfl⟩ |
      ⟨-, -, -, finality, rfl⟩
    · rw [hframe]
    · rw [hframe]

theorem publishCandidate_standing (hplaced : Placed t.reducer history event head published)
    (hretains : Retains snapshot t.journal history t.reducer.data)
    (hfloor : FloorBelow t.journal.rollbackFloor event)
    (hle : ∀ e ∈ history, e.number ≤ c.newTip.cursor.blockNumber)
    (h : s.publishCandidate env c t = (s', .ok notice)) : Standing snapshot s' history := by
  rw [QuoteIndexer.publishCandidate] at h
  cases hobserve : t.reducer.observeHead c.newTip.cursor with
  | error e => simp [hobserve] at h
  | ok r =>
    simp only [hobserve] at h
    obtain ⟨s₁, ⟨⟩, hfinalized, h⟩ := andThen_eq_ok.mp h
    cases h
    obtain ⟨head', published', hplaced', -⟩ := hplaced.observeHead hobserve
    obtain ⟨hcheck, _, _, hframe⟩ := observeHead_frame hobserve
    rw [hplaced.eventCursor] at hcheck
    have hsame : SameRecords t.journal (c.newBranch.foldl
        (fun journal block => journal.observe block.cursor) t.journal) :=
      CorrectionJournal.foldl_sameRecords _
        (fun j (block : BlockRef) => j.observe_sameRecords block.cursor) c.newBranch t.journal
    refine standing_of_observeFinalized hplaced' ?_ ?_ hcheck (fun _ _ _ => hle) hfinalized
    · have hretains' : Retains snapshot t.journal history r.data := by
        rw [hframe]
        exact hretains
      exact hretains'.congr hsame
    · rw [hsame.floor]
      exact .inl hfloor

/-- The data of an applied correction, and the standing it leaves. -/
theorem applyCorrection_standing {notice : CorrectionNotice} (hs : Standing snapshot s history)
    (h : s.applyCorrection env c false = (s', .ok (some notice))) :
    replay effect snapshot (survivors c history ++ replacementEvents env c.replacementLogs) =
        some s'.reducer.data ∧
      Standing snapshot s' (survivors c history ++ replacementEvents env c.replacementLogs) := by
  obtain ⟨_, _, _, -, hretains, -⟩ := hs
  obtain ⟨hc, -, -, r, j, s₁, t, hcandidate, hreplay, hpublish⟩ :=
    QuoteIndexer.applyCorrection_eq_some h
  obtain ⟨event, published, hplaced, hretains', hfloor⟩ :=
    candidate_replayed hc hretains hcandidate hreplay
  refine ⟨?_, publishCandidate_standing hplaced hretains' hfloor (le_newTip hc) hpublish⟩
  rw [publishCandidate_data hpublish]
  exact hretains'.undoable.replay_all

/-- Publishing a candidate throws before its first assignment or not at all. -/
theorem publishCandidate_error (hc : WellFormed c)
    (hfinality : s.finality.validateCorrection c = .ok ())
    (h : s.publishCandidate env c t = (s', .error e)) : s' = s := by
  rw [QuoteIndexer.publishCandidate] at h
  cases hobserve : t.reducer.observeHead c.newTip.cursor with
  | error e =>
    simp only [hobserve] at h
    exact (Prod.mk.inj h).1.symm
  | ok r =>
    obtain ⟨result, htaken⟩ := FinalityGuard.observe_newTip hc hfinality
    simp only [hobserve, QuoteIndexer.observeFinalized, htaken] at h
    split at h
    · simp at h
    · simp at h

/-- A correction that throws leaves everything as it was. -/
theorem applyCorrection_error (hs : Consistent snapshot s history)
    (h : s.applyCorrection env c false = (s', .error e)) : s' = s := by
  rcases andThen_eq_error.mp h with hvalid | ⟨s₁, ⟨⟩, hvalid, h⟩
  · exact (Prod.mk.inj hvalid).1.symm
  obtain ⟨rfl, henvelope⟩ := Prod.mk.inj hvalid
  have hc : WellFormed c := wellFormed_of_validate henvelope
  split at h
  · exact (Prod.mk.inj h).1.symm
  next hready =>
  split at h
  · simp at h
  rcases andThen_eq_error.mp h with hadmitted | ⟨s₁, shouldApply, hadmitted, h⟩
  · exact (Prod.mk.inj hadmitted).1.symm
  obtain ⟨rfl, hchecks⟩ := Prod.mk.inj hadmitted
  split at h
  · simp at h
  rcases andThen_eq_error.mp h with hcandidate | ⟨s₁, ⟨r, j⟩, hcandidate, h⟩
  · exact (Prod.mk.inj hcandidate).1.symm
  obtain ⟨rfl, hprepared⟩ := Prod.mk.inj hcandidate
  obtain ⟨_, _, _, -, hretains, -⟩ := hs (by simpa using hready)
  obtain ⟨-, -, -, hprefix⟩ := candidate_retains hretains hprepared
  have hapart : Apart s.correctionJournal j c.commonAncestor.cursor.blockNumber :=
    hprefix ▸ apart_prefixUpTo s.correctionJournal c.commonAncestor.cursor.blockNumber
  have hlive : (s.replayReplacement env ⟨r, j⟩ c.replacementLogs).1 = s :=
    replayReplacement_live (t := ⟨r, j⟩) hretains hapart fun log hlog => (hc.log_bounds hlog).1
  rcases andThen_eq_error.mp h with hreplay | ⟨s₁, t, hreplay, hpublish⟩
  · rw [hreplay] at hlive
    exact hlive
  rw [hreplay] at hlive
  obtain rfl : s₁ = s := hlive
  obtain ⟨⟨⟩, hfinality, -⟩ := bind_eq_ok.mp hchecks
  exact publishCandidate_error hc hfinality hpublish

/-- A correction with nothing to apply changes nothing. -/
theorem applyCorrection_none (h : s.applyCorrection env c false = (s', .ok none)) : s' = s := by
  obtain ⟨s₁, ⟨⟩, hvalid, h⟩ := andThen_eq_ok.mp h
  obtain ⟨rfl, -⟩ := Prod.mk.inj hvalid
  split at h
  · simp at h
  split at h
  · exact (Prod.mk.inj h).1.symm
  obtain ⟨s₁, shouldApply, hadmitted, h⟩ := andThen_eq_ok.mp h
  obtain ⟨rfl, -⟩ := Prod.mk.inj hadmitted
  split at h
  · exact (Prod.mk.inj h).1.symm
  obtain ⟨s₁, candidate, hcandidate, h⟩ := andThen_eq_ok.mp h
  obtain ⟨s₂, t, hreplay, h⟩ := andThen_eq_ok.mp h
  rw [QuoteIndexer.publishCandidate] at h
  split at h
  · simp at h
  obtain ⟨s₃, ⟨⟩, -, h⟩ := andThen_eq_ok.mp h
  simp at h

/-! ### Runs -/

theorem applyLog_ready (env : Platform) (s : QuoteIndexer) (t : QuoteIndexer.Target)
    (log : ContractLog) (respect : Bool) :
    (s.applyLog env t log respect).1.reducer.ready = t.reducer.ready := by
  rw [QuoteIndexer.applyLog]
  split
  · rfl
  · rfl
  · next event _ =>
    have hready : ∀ r undo, t.reducer.apply log.cursor event = .ok (r, undo) →
        r.ready = t.reducer.ready := by
      intro r undo happly
      rcases apply_eq_ok happly with ⟨-, rfl, -⟩ | ⟨data, -, -, -, rfl⟩
      · rfl
      · rfl
    rw [QuoteIndexer.applyEventTo]
    split
    · rfl
    next happly => exact hready _ _ happly
    · next happly =>
      split
      · exact hready _ _ happly
      · exact hready _ _ happly

theorem observeFinalized_ready {blockComplete : Bool}
    (h : s.observeFinalized cursor blockComplete = (s', .ok ())) :
    s'.reducer.ready = s.reducer.ready := by
  rcases QuoteIndexer.observeFinalized_eq_ok h with ⟨_, rfl⟩ | ⟨-, -, -, _, rfl⟩
  · rfl
  · rfl

theorem observeHead_ready {r' : QuoteReducer} (h : r.observeHead head = .ok r') :
    r'.ready = r.ready := by
  obtain ⟨-, _, _, rfl⟩ := observeHead_frame h
  rfl

theorem applyCoreLog_ready (h : s.applyCoreLog env log = (s', .ok ())) :
    s'.reducer.ready = s.reducer.ready := by
  have hlog := applyLog_ready env s s.target log true
  rw [QuoteIndexer.applyCoreLog] at h
  rcases happly : s.applyLog env s.target log true with ⟨t', e | changed⟩
  · simp [happly] at h
  rw [happly] at hlog
  simp only [happly] at h
  split at h
  · simp at h
  next r hobserve =>
  rw [observeFinalized_ready h, ← show t'.reducer.ready = s.reducer.ready from hlog]
  have hreducer : ∀ s₁ : QuoteIndexer, s₁ = (if changed then
      { s.withTarget t' with
        lastAppliedCorrectionFingerprint := none, lastAppliedCorrectionTip := none }
      else s.withTarget t') → s₁.reducer = t'.reducer := by
    rintro s₁ rfl
    split_ifs
    · rfl
    · rfl
  rw [hreducer _ rfl] at hobserve
  split_ifs at hobserve with hfinalized
  · exact observeHead_ready hobserve
  · rw [← ok.inj hobserve]

theorem applyCoreHead_ready (h : s.applyCoreHead head = (s', .ok ())) :
    s'.reducer.ready = s.reducer.ready := by
  rw [QuoteIndexer.applyCoreHead] at h
  split at h
  · simp at h
  next r hobserve =>
  dsimp only at h
  split at h
  · exact (observeFinalized_ready h).trans (observeHead_ready hobserve)
  · exact (observeFinalized_ready h).trans (observeHead_ready hobserve)

def orderly (t : Traced) (update : ChainUpdate) : Bool :=
  match update with
  | .head block => orderlyHead t block.cursor
  | _ => true

def Orderly (t : Traced) (update : ChainUpdate) : Prop := orderly t update = true

/-- An update that throws leaves the engine not ready. -/
theorem consistent_of_error (update : ChainUpdate) (h : s.dispatch env update = (s', .error e)) :
    Consistent snapshot (s.applyCoreUpdate env update).1 history := by
  rw [QuoteIndexer.applyCoreUpdate, h]
  intro hready
  exact absurd hready (by simp [QuoteIndexer.markNotReady, markNotReady])

/-- One orderly update keeps the engine consistent with its history. -/
theorem deliver_consistent {t : Traced} {update : ChainUpdate}
    (ht : Consistent snapshot t.indexer t.history) (hd : Orderly t update) :
    Consistent snapshot (deliver env t update).indexer (deliver env t update).history := by
  cases update with
  | log log =>
    rcases hstep : t.indexer.applyCoreLog env log with ⟨s', e | ⟨⟩⟩
    · exact consistent_of_error (.log log) hstep
    simp only [deliver, historyAfter, QuoteIndexer.applyCoreUpdate, QuoteIndexer.dispatch, hstep]
    intro hready
    exact applyCoreLog_standing (ht (applyCoreLog_ready hstep ▸ hready)) hstep
  | head block =>
    rcases hstep : t.indexer.applyCoreHead block.cursor with ⟨s', e | ⟨⟩⟩
    · exact consistent_of_error (.head block) hstep
    simp only [deliver, historyAfter, QuoteIndexer.applyCoreUpdate, QuoteIndexer.dispatch, hstep]
    intro hready
    exact applyCoreHead_standing (ht (applyCoreHead_ready hstep ▸ hready)) hd hstep
  | correction c =>
    rcases hstep : t.indexer.applyCorrection env c false with ⟨s', e | notice⟩
    · have hdispatch : t.indexer.dispatch env (.correction c) = (s', .error e) := by
        simp [QuoteIndexer.dispatch, hstep]
      exact consistent_of_error (.correction c) hdispatch
    simp only [deliver, historyAfter, QuoteIndexer.applyCoreUpdate, QuoteIndexer.dispatch,
      hstep, Effect.andThen_ok]
    cases notice with
    | none =>
      rw [applyCorrection_none hstep]
      exact ht
    | some notice =>
      obtain ⟨-, hwas, -⟩ := QuoteIndexer.applyCorrection_eq_some hstep
      exact fun _ => (applyCorrection_standing (ht hwas) hstep).2
  | reorg cursor ancestor =>
    have hdispatch : t.indexer.dispatch env (.reorg cursor ancestor) =
        (t.indexer, .error (gap "reorg requires canonical recovery")) := rfl
    exact consistent_of_error (.reorg cursor ancestor) hdispatch
  | gap cursor reason =>
    have hdispatch : t.indexer.dispatch env (.gap cursor reason) =
        (t.indexer, .error (gap reason)) := rfl
    exact consistent_of_error (.gap cursor reason) hdispatch

variable {limits : CorrectionJournalLimits}

/-- A fresh engine holds the snapshot, with an empty journal at its cursor. -/
theorem fromSnapshot_standing {snapshot : Client.BootstrapSnapshot}
    {deployment : Client.DeploymentConfig}
    (h : QuoteIndexer.fromSnapshot snapshot deployment limits = .ok s) :
    Standing (snapshot.data deployment) s [] := by
  obtain ⟨⟨⟩, -, h⟩ := bind_eq_ok.mp h
  obtain ⟨⟨⟩, -, h⟩ := bind_eq_ok.mp h
  obtain ⟨indexer, hconstruct, h⟩ := bind_eq_ok.mp h
  obtain ⟨-, h⟩ := ite_error_eq_ok.mp h
  cases h
  obtain ⟨⟨⟩, -, hconstruct⟩ := bind_eq_ok.mp hconstruct
  obtain ⟨⟨finality, taken⟩, -, hconstruct⟩ := bind_eq_ok.mp hconstruct
  cases hconstruct
  exact ⟨snapshot.cursor, snapshot.cursor, snapshot.cursor,
    ⟨rfl, rfl, rfl, le_rfl, by simp, by simp, .inr le_rfl⟩, .start _ _ _, .inr rfl⟩

/-- **A correction is rollback plus replay, or nothing.**  After any orderly run from a snapshot, a
correction that is applied publishes the data of the snapshot, the surviving events and the
replacement events, in this order; one that throws leaves the data and the journal as they were. -/
theorem correction_undoes_and_replays {snapshot : Client.BootstrapSnapshot}
    {deployment : Client.DeploymentConfig} {limits : CorrectionJournalLimits} {start : QuoteIndexer}
    {t : Traced} (hstart : QuoteIndexer.fromSnapshot snapshot deployment limits = .ok start)
    (hrun : Run (deliver env) Orderly ⟨start, []⟩ t) (c : ChainCorrection) :
    (∀ next notice, t.indexer.applyCorrection env c false = (next, .ok (some notice)) →
      replay effect (snapshot.data deployment)
        (survivors c t.history ++ replacementEvents env c.replacementLogs) =
          some next.reducer.data) ∧
    (∀ next e, t.indexer.applyCorrection env c false = (next, .error e) →
      next.reducer.data = t.indexer.reducer.data ∧
        next.correctionJournal = t.indexer.correctionJournal) := by
  have ht : Consistent (snapshot.data deployment) t.indexer t.history := by
    refine hrun.invariant (P := fun t => Consistent _ t.indexer t.history) ?_
      fun _ _ => deliver_consistent
    exact fun _ => fromSnapshot_standing hstart
  constructor
  · intro next notice h
    obtain ⟨-, hready, -⟩ := QuoteIndexer.applyCorrection_eq_some h
    exact (applyCorrection_standing (ht hready) h).1
  · intro next e h
    obtain rfl := applyCorrection_error ht h
    exact ⟨rfl, rfl⟩

/-! ### An orderly run, and one that is not -/

/-- The smallest limits. -/
def smallLimits : CorrectionJournalLimits := ⟨1, 1024⟩

/-- The engine on the small snapshot; the default is never taken (`smallEngine_eq`). -/
def smallEngine (limits : CorrectionJournalLimits) : QuoteIndexer :=
  match QuoteIndexer.fromSnapshot Client.smallSnapshot Client.smallDeployment limits with
  | .ok s => s
  | .error _ =>
    { reducer := .new Client.smallSnapshot.state .whitelisted none
      deployment := Client.smallDeployment
      correctionLimits := limits
      canonicalFloor := none
      correctionJournal := .new Client.smallSnapshot.cursor limits
      lastAppliedCorrectionFingerprint := none
      lastAppliedCorrectionTip := none
      finality := ⟨none⟩ }

theorem smallEngine_eq (hok : (QuoteIndexer.fromSnapshot Client.smallSnapshot Client.smallDeployment
      limits).isOk = true) :
    QuoteIndexer.fromSnapshot Client.smallSnapshot Client.smallDeployment limits =
      .ok (smallEngine limits) := by
  rw [smallEngine]
  cases h : QuoteIndexer.fromSnapshot Client.smallSnapshot Client.smallDeployment limits with
  | error e =>
    rw [h] at hok
    exact absurd hok (by simp [isOk, Except.toBool])
  | ok s => rfl

/-- The small engine after these updates, with its history. -/
def smallRun (limits : CorrectionJournalLimits) (updates : List ChainUpdate) : Traced :=
  updates.foldl (deliver Client.referencePlatform) ⟨smallEngine limits, []⟩

/-- The correction was applied and the result passes the test. -/
def appliedWith (out : Transition (Option CorrectionNotice)) (test : QuoteIndexer → Bool) : Bool :=
  match out with
  | (next, .ok (some _)) => test next
  | _ => false

theorem exists_of_appliedWith (out : Transition (Option CorrectionNotice))
    (test : QuoteIndexer → Bool) (h : appliedWith out test = true) :
    ∃ next notice, out = (next, .ok (some notice)) ∧ test next = true := by
  obtain ⟨next, e | notice⟩ := out
  · simp [appliedWith] at h
  cases notice with
  | none => simp [appliedWith] at h
  | some notice => exact ⟨next, notice, rfl, h⟩

/-- Two events in one-block budgets, the first evicted, and the head 6. -/
def evictingUpdates : List ChainUpdate :=
  [.log (Client.depositLog 4 0xb4 7), .log (Client.multiplierLog 5 0xb5 20000),
    .head (Client.blockRef 6 0xb6 0xb5)]

theorem correction_undoes_and_replays_evicting :
    ∃ next notice,
      (smallRun smallLimits evictingUpdates).indexer.applyCorrection Client.referencePlatform
        Client.replaceSix false = (next, .ok (some notice)) ∧
      replay effect (Client.smallSnapshot.data Client.smallDeployment)
        (survivors Client.replaceSix (smallRun smallLimits evictingUpdates).history ++
          replacementEvents Client.referencePlatform Client.replaceSix.replacementLogs) =
          some next.reducer.data := by
  obtain ⟨next, notice, hnext, -⟩ := exists_of_appliedWith
    ((smallRun smallLimits evictingUpdates).indexer.applyCorrection Client.referencePlatform
      Client.replaceSix false) (fun _ => true) (by decide +kernel)
  exact ⟨next, notice, hnext, (correction_undoes_and_replays
    (smallEngine_eq (by decide +kernel)) (Run.ofList orderly .refl (by decide +kernel))
      Client.replaceSix).1 next notice hnext⟩

/-- The log of block 8 arrives before the finalized head 7. -/
def earlyLogUpdates : List ChainUpdate :=
  [.log (Client.depositLog 8 0xb8 7),
    .head ⟨{ Client.blockAt 7 0xb7 with commitment := .finalized }, some 0xb6⟩,
    .head (Client.blockRef 8 0xb8 0xb7)]

/-- Block 8 is replaced, without logs. -/
def replaceEight : ChainCorrection where
  commonAncestor := Client.blockRef 7 0xb7 0xb6
  oldTip := Client.blockRef 8 0xb8 0xb7
  newTip := Client.blockRef 8 0xd8 0xb7
  oldBranch := [Client.blockRef 8 0xb8 0xb7]
  newBranch := [Client.blockRef 8 0xd8 0xb7]
  replacementLogs := []
  retainedBytes := 1024

/-- **A finalized head below an applied event makes it permanent.**  The head 7 starts the journal
anew at height 7 while the deposit of block 8 is applied; when block 8 is then replaced by a block
without logs, the deposit stays. -/
theorem replaced_deposit_kept :
    ∃ (start : QuoteIndexer) (t : Traced) (next : QuoteIndexer) (notice : CorrectionNotice),
      QuoteIndexer.fromSnapshot Client.smallSnapshot Client.smallDeployment smallLimits =
        .ok start ∧
      Run (deliver Client.referencePlatform) (fun _ _ => True) ⟨start, []⟩ t ∧
      t.indexer.applyCorrection Client.referencePlatform replaceEight false =
        (next, .ok (some notice)) ∧
      replay effect (Client.smallSnapshot.data Client.smallDeployment)
        (survivors replaceEight t.history ++
          replacementEvents Client.referencePlatform replaceEight.replacementLogs) ≠
          some next.reducer.data := by
  have happlied : appliedWith ((smallRun smallLimits earlyLogUpdates).indexer.applyCorrection
      Client.referencePlatform replaceEight false) (fun next =>
        decide (replay effect (Client.smallSnapshot.data Client.smallDeployment)
          (survivors replaceEight (smallRun smallLimits earlyLogUpdates).history ++
            replacementEvents Client.referencePlatform replaceEight.replacementLogs) ≠
            some next.reducer.data)) = true := by decide +kernel
  obtain ⟨next, notice, hnext, htest⟩ := exists_of_appliedWith _ _ happlied
  refine ⟨smallEngine smallLimits, smallRun smallLimits earlyLogUpdates, next, notice,
    smallEngine_eq (by decide +kernel), ?_, hnext, of_decide_eq_true htest⟩
  exact Run.foldl .refl _

end Lunarbase.TsClient
