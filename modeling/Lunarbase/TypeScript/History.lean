import Lunarbase.Support.Run
import Lunarbase.TypeScript.Window

/-!
# TypeScript — History

Runs of the quote engine together with the history they stand for: the events accepted on the
branch that is currently published.  A correction replaces the part of the history above its
common ancestor by its replacement logs.

`Standing` is what holds of an engine that has thrown at no update; logs and heads keep it here.
-/

namespace Lunarbase.TsClient

open QuoteIndexer

open Client (ChainCursor BlockRef ContractLog QuoteEvent QuoteData AcceptedEvent ChainCorrection
  ChainUpdate Platform)

structure Traced where
  indexer : QuoteIndexer
  history : List AcceptedEvent

/-- The event came from the ancestor or from a block below it. -/
def onBranch (ancestor : ChainCursor) (e : AcceptedEvent) : Bool :=
  decide (e.number < ancestor.blockNumber) ||
    (decide (e.number = ancestor.blockNumber) && decide (e.hash = ancestor.blockHash))

def survivors (c : ChainCorrection) (history : List AcceptedEvent) : List AcceptedEvent :=
  history.filter (onBranch c.commonAncestor.cursor)

theorem mem_survivors {c : ChainCorrection} {history : List AcceptedEvent} {e : AcceptedEvent} :
    e ∈ survivors c history ↔ e ∈ history ∧ (e.number < c.commonAncestor.cursor.blockNumber ∨
      e.number = c.commonAncestor.cursor.blockNumber ∧
        e.hash = c.commonAncestor.cursor.blockHash) := by
  simp [survivors, onBranch]

/-- The event of a replacement log, if it has one. -/
def replacementEvent (env : Platform) (log : ContractLog) : Option AcceptedEvent :=
  match decodeCoreEvent env log with
  | .ok (some event) => some ⟨log.cursor, event⟩
  | _ => none

def replacementEvents (env : Platform) (logs : List ContractLog) : List AcceptedEvent :=
  logs.filterMap (replacementEvent env)

/-- The event a delivered log brings when it is decoded and taken as new. -/
def acceptedLog (env : Platform) (s : QuoteIndexer) (log : ContractLog) : List AcceptedEvent :=
  match s.admitLog env s.correctionJournal log true with
  | .ok (some event) =>
    match s.reducer.admitEvent log.cursor event with
    | .ok true => [⟨log.cursor, event⟩]
    | _ => []
  | _ => []

def historyAfter (env : Platform) (t : Traced) (update : ChainUpdate) : List AcceptedEvent :=
  match update with
  | .log log =>
    match t.indexer.applyCoreLog env log with
    | (_, .ok ()) => t.history ++ acceptedLog env t.indexer log
    | (_, .error _) => t.history
  | .correction c =>
    match t.indexer.applyCorrection env c false with
    | (_, .ok (some _)) => survivors c t.history ++ replacementEvents env c.replacementLogs
    | _ => t.history
  | _ => t.history

def deliver (env : Platform) (t : Traced) (update : ChainUpdate) : Traced :=
  ⟨(t.indexer.applyCoreUpdate env update).1, historyAfter env t update⟩

/-! ### Standing -/

/-- The journal and the cursors are good for the history, and the rollback floor is not above what
a next event can be at. -/
def Standing (snapshot : QuoteData) (s : QuoteIndexer) (history : List AcceptedEvent) : Prop :=
  ∃ event head published, Placed s.reducer history event head published ∧
    Retains snapshot s.correctionJournal history s.reducer.data ∧
    (FloorBelow s.correctionJournal.rollbackFloor event ∨
      s.canonicalFloor = some s.correctionJournal.rollbackFloor)

/-- An update that throws leaves the engine not ready, and nothing but a snapshot changes that. -/
def Consistent (snapshot : QuoteData) (s : QuoteIndexer) (history : List AcceptedEvent) : Prop :=
  s.reducer.ready = true → Standing snapshot s history

/-! ### Finality -/

variable {env : Platform} {snapshot : QuoteData} {s s' : QuoteIndexer}
  {history : List AcceptedEvent} {blockComplete changed : Bool} {cursor head : ChainCursor}

/-- A finalized observation is remembered; one of the complete published block also starts the
journal anew. -/
theorem QuoteIndexer.observeFinalized_eq_ok
    (h : s.observeFinalized cursor blockComplete = (s', .ok ())) :
    (∃ finality, s' = { s with finality := finality }) ∨
    (blockComplete = true ∧ cursor.commitment = .finalized ∧
      cursorHasIdentity s.reducer.cursor cursor = true ∧ ∃ finality, s' = { s with
        finality := finality
        canonicalFloor := some cursor
        correctionJournal := .new cursor s.correctionLimits }) := by
  rw [observeFinalized] at h
  cases hobserve : s.finality.observe cursor with
  | error e => simp [hobserve] at h
  | ok result =>
    obtain ⟨finality, taken⟩ := result
    simp only [hobserve] at h
    split_ifs at h with hskip
    · exact .inl ⟨finality, (Prod.mk.inj h).1.symm⟩
    simp only [Bool.or_eq_true, Bool.not_eq_true', not_or, Bool.not_eq_false] at hskip
    obtain ⟨⟨rfl, hcomplete⟩, hidentity⟩ := hskip
    refine .inr ⟨hcomplete, ?_, hidentity, finality, (Prod.mk.inj h).1.symm⟩
    by_contra hweak
    simp [FinalityGuard.observe, hweak] at hobserve

theorem blockNumber_eq_of_cursorHasIdentity {current observed : ChainCursor}
    (h : cursorHasIdentity (some current) observed = true) :
    current.blockNumber = observed.blockNumber := by
  simp only [cursorHasIdentity, Option.any_some, sameIdentity, Bool.and_eq_true, beq_iff_eq] at h
  exact congrArg CursorIdentity.blockNumber h.2

/-- A head or tip that was just observed may be finalized where no event is above it. -/
theorem standing_of_observeFinalized {cursor event head published : ChainCursor}
    (hplaced : Placed s.reducer history event head published)
    (hretains : Retains snapshot s.correctionJournal history s.reducer.data)
    (hfloor : FloorBelow s.correctionJournal.rollbackFloor event ∨
      s.canonicalFloor = some s.correctionJournal.rollbackFloor)
    (hcheck : QuoteReducer.checkHeadAgainstEvent (some event) cursor = .ok ())
    (hle : blockComplete = true → cursor.commitment = .finalized →
      cursorHasIdentity s.reducer.cursor cursor = true →
      ∀ e ∈ history, e.number ≤ cursor.blockNumber)
    (h : s.observeFinalized cursor blockComplete = (s', .ok ())) :
    Standing snapshot s' history := by
  rcases observeFinalized_eq_ok h with
    ⟨finality, rfl⟩ | ⟨hcomplete, hfinalized, hidentity, finality, rfl⟩
  · exact ⟨event, head, published, hplaced, hretains, hfloor⟩
  have hbelow := hle hcomplete hfinalized hidentity
  rw [hplaced.cursor] at hidentity
  have hhash := hplaced.hash_of_head hcheck (blockNumber_eq_of_cursorHasIdentity hidentity) hbelow
  exact ⟨event, head, published, hplaced, hretains.reset _ hbelow hhash, .inr rfl⟩

/-! ### Logs -/

variable {log : ContractLog}

theorem QuoteIndexer.admitLog_eq_some {journal : CorrectionJournal}
    {event : QuoteEvent} (h : s.admitLog env journal log true = .ok (some event)) :
    s.floorCovers log.cursor = .ok false ∧ decodeCoreEvent env log = .ok (some event) ∧
      journal.validateMutation log.cursor = .ok () := by
  obtain ⟨⟨⟩, -, h⟩ := Except.bind_eq_ok.mp h
  split at h
  · cases h
  obtain ⟨covered, hcovered, h⟩ := Except.bind_eq_ok.mp h
  cases covered with
  | true => exact nomatch h
  | false =>
    obtain ⟨decoded, hdecoded, h⟩ := Except.bind_eq_ok.mp h
    cases decoded with
    | none => exact nomatch h
    | some decoded =>
      obtain ⟨⟨⟩, hmutation, h⟩ := Except.bind_eq_ok.mp h
      cases Except.ok.inj h
      exact ⟨hcovered, hdecoded, hmutation⟩

/-- A log that the canonical floor does not cover is not below it. -/
theorem floorBelow_of_floorCovers {floor cursor : ChainCursor}
    (hcanonical : s.canonicalFloor = some floor) (h : s.floorCovers cursor = .ok false) :
    FloorBelow floor cursor := by
  simp only [floorCovers, hcanonical, canonicalFloorCoversLog] at h
  by_cases hbelow : cursor.blockNumber < floor.blockNumber
  · split_ifs at h
    all_goals simp at h
  refine ⟨not_lt.mp hbelow, fun hsame => ?_⟩
  by_contra hhash
  have hhash' : cursor.blockHash ≠ floor.blockHash := fun heq => hhash heq.symm
  simp only [if_false, hsame, lt_irrefl, hhash', ne_eq, not_false_eq_true, if_true] at h
  split_ifs at h

variable {t' : QuoteIndexer.Target}

/-- A log that goes through brought nothing new, or an event that is applied. -/
theorem applyLog_cases (h : s.applyLog env s.target log true = (t', .ok changed)) :
    (acceptedLog env s log = [] ∧ t' = s.target) ∨
    ∃ event, acceptedLog env s log = [⟨log.cursor, event⟩] ∧
      s.floorCovers log.cursor = .ok false ∧ s.reducer.admitEvent log.cursor event = .ok true ∧
      applyEventTo s.target log.cursor event = (t', .ok changed) := by
  rw [applyLog] at h
  cases hadmitted : s.admitLog env s.correctionJournal log true with
  | error e => simp [target, hadmitted] at h
  | ok decoded =>
  cases decoded with
  | none =>
    simp only [target, hadmitted, Prod.mk.injEq] at h
    refine .inl ⟨?_, h.1.symm⟩
    rw [acceptedLog, hadmitted]
  | some event =>
    simp only [target, hadmitted] at h
    rcases admitEvent_of_applied h with ⟨hknown, hsame⟩ | hnew
    · refine .inl ⟨?_, hsame⟩
      simp only [acceptedLog, hadmitted, show s.reducer.admitEvent log.cursor event = _ from hknown]
    · refine .inr ⟨event, ?_, (admitLog_eq_some hadmitted).1, hnew, h⟩
      simp only [acceptedLog, hadmitted, show s.reducer.admitEvent log.cursor event = _ from hnew]

/-- A log whose event, if it has one, is taken keeps the standing. -/
theorem applyLog_standing (hs : Standing snapshot s history)
    (h : s.applyLog env s.target log true = (t', .ok changed)) :
    Standing snapshot (s.withTarget t') (history ++ acceptedLog env s log) := by
  rcases applyLog_cases h with ⟨hnone, rfl⟩ | ⟨event, haccepted, hcovers, hnew, happly⟩
  · rw [hnone, List.append_nil]
    exact hs
  obtain ⟨previous, head, published, hplaced, hretains, hfloor⟩ := hs
  have hbelow : FloorBelow s.correctionJournal.rollbackFloor log.cursor := by
    rcases hfloor with hevent | hcanonical
    · exact hevent.trans (hplaced.floorBelow_of_admitted hnew)
    · exact floorBelow_of_floorCovers hcanonical hcovers
  obtain ⟨⟨published', hplaced'⟩, hretains', hbelow'⟩ :=
    applyEventTo_retains (t := s.target) hplaced hretains hbelow hnew happly
  rw [haccepted]
  exact ⟨log.cursor, head, published', hplaced', hretains', .inl hbelow'⟩

theorem applyCoreLog_standing (hs : Standing snapshot s history)
    (h : s.applyCoreLog env log = (s', .ok ())) :
    Standing snapshot s' (history ++ acceptedLog env s log) := by
  rw [applyCoreLog] at h
  rcases happly : s.applyLog env s.target log true with ⟨t', e | changed⟩
  · simp [happly] at h
  obtain ⟨event, head, published, hplaced, hretains, hfloor⟩ := applyLog_standing hs happly
  simp only [happly] at h
  -- forgetting the last correction changes nothing the standing speaks of
  have hs₁ : ∀ s₁ : QuoteIndexer, s₁ = (if changed then
        { s.withTarget t' with
          lastAppliedCorrectionFingerprint := none, lastAppliedCorrectionTip := none }
        else s.withTarget t') →
      s₁.reducer = t'.reducer ∧ s₁.correctionJournal = t'.journal ∧
        s₁.canonicalFloor = s.canonicalFloor := by
    rintro s₁ rfl
    split_ifs
    · exact ⟨rfl, rfl, rfl⟩
    · exact ⟨rfl, rfl, rfl⟩
  obtain ⟨hreducer, hjournal, hcanonical⟩ := hs₁ _ rfl
  generalize (if changed then
        { s.withTarget t' with
          lastAppliedCorrectionFingerprint := none, lastAppliedCorrectionTip := none }
        else s.withTarget t') = s₁ at h hreducer hjournal hcanonical
  have hfloor₁ : FloorBelow s₁.correctionJournal.rollbackFloor event ∨
      s₁.canonicalFloor = some s₁.correctionJournal.rollbackFloor := by
    rw [hjournal, hcanonical]
    exact hfloor
  split_ifs at h with hfinalized
  · cases hobserve : s₁.reducer.observeHead log.cursor with
    | error e => simp [hobserve] at h
    | ok r =>
      simp only [hobserve] at h
      rw [hreducer] at hobserve
      obtain ⟨head', published', hplaced', -⟩ := hplaced.observeHead hobserve
      obtain ⟨hcheck, _, _, hframe⟩ := QuoteReducer.observeHead_frame hobserve
      rw [show t'.reducer.eventCursor = some event from hplaced.eventCursor] at hcheck
      refine standing_of_observeFinalized (s := { s₁ with reducer := r }) hplaced' ?_ hfloor₁
        hcheck (by simp) h
      rw [hframe, hjournal]
      exact hretains
  · rcases observeFinalized_eq_ok h with ⟨finality, rfl⟩ | ⟨hcomplete, -⟩
    · refine ⟨event, head, published, ?_, ?_, hfloor₁⟩
      · rw [hreducer]
        exact hplaced
      · rw [hreducer, hjournal]
        exact hretains
    · cases hcomplete

/-! ### Heads -/

/-- A finalized head that becomes the published cursor has no accepted event above it. -/
def orderlyHead (t : Traced) (head : ChainCursor) : Bool :=
  match t.indexer.reducer.observeHead head with
  | .ok r =>
    !(decide (head.commitment = .finalized) && cursorHasIdentity r.cursor head) ||
      t.history.all fun e => e.number ≤ head.blockNumber
  | .error _ => true

theorem applyCoreHead_standing (hs : Standing snapshot s history)
    (horderly : orderlyHead ⟨s, history⟩ head = true)
    (h : s.applyCoreHead head = (s', .ok ())) : Standing snapshot s' history := by
  obtain ⟨event, current, published, hplaced, hretains, hfloor⟩ := hs
  rw [applyCoreHead] at h
  cases hobserve : s.reducer.observeHead head with
  | error e => simp [hobserve] at h
  | ok r =>
    simp only [hobserve] at h
    obtain ⟨current', published', hplaced', -⟩ := hplaced.observeHead hobserve
    obtain ⟨hcheck, _, _, hframe⟩ := QuoteReducer.observeHead_frame hobserve
    rw [hplaced.eventCursor] at hcheck
    have hretains' : Retains snapshot s.correctionJournal history r.data := by
      rw [hframe]
      exact hretains
    have hle : head.commitment = .finalized → cursorHasIdentity r.cursor head = true →
        ∀ e ∈ history, e.number ≤ head.blockNumber := by
      intro hfinalized hidentity e he
      simp only [orderlyHead, hobserve, hfinalized, hidentity, decide_true, Bool.and_self,
        Bool.not_true, Bool.false_or, List.all_eq_true, decide_eq_true_eq] at horderly
      exact horderly e he
    split_ifs at h with hidentity
    · have hsame := s.correctionJournal.observe_sameRecords head
      refine standing_of_observeFinalized (s := { s with
          reducer := r, correctionJournal := s.correctionJournal.observe head })
        hplaced' (hretains'.congr hsame) ?_ hcheck (fun _ => hle) h
      rw [hsame.floor]
      exact hfloor
    · exact standing_of_observeFinalized (s := { s with reducer := r }) hplaced' hretains' hfloor
        hcheck (fun _ => hle) h

end Lunarbase.TsClient
