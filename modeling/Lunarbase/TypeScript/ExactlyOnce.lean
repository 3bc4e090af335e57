import Lunarbase.TypeScript.Rollback

/-!
# TypeScript — ExactlyOnce

A log that was applied on the published branch is not applied again
(`redelivery_changes_no_data`), whatever payload it is delivered with.

The reducer compares a log with one cursor, that of the last event, and takes it as new when it is
after that cursor, or when the cursor is a block-level one of the log's block.  The invariant is
that no event of the history is new in this sense (`NothingAfter`).  Two kinds of update break it:
a correction that goes back to a block with accepted events and replays none, which leaves the
block-level ancestor as the last event (`ancestor_deposit_counted_twice`); and events of one block
of which some have a transaction position and some have not, since the two are not comparable.
-/

namespace Lunarbase.TsClient

open QuoteIndexer List Except

open Client (ChainCursor BlockRef ContractLog QuoteEvent QuoteData AcceptedEvent ChainCorrection
  ChainUpdate Platform)
open Effect (andThen_eq_ok)
open QuoteReducer (previousIsBlockBoundary)

variable {env : Platform} {s s' : QuoteIndexer} {history : List AcceptedEvent}
  {c : ChainCorrection}

/-- A cursor with a transaction position. -/
def positioned (c : ChainCursor) : Bool := c.transactionIndex.isSome && c.logIndex.isSome

/-- The accepted events of the event's block are positioned exactly when it is. -/
def oneKind (history : List AcceptedEvent) (x : AcceptedEvent) : Bool :=
  history.all fun e => decide (e.number = x.number → positioned e.cursor = positioned x.cursor)

variable {x : AcceptedEvent}

theorem oneKind_iff : oneKind history x = true ↔
    ∀ e ∈ history, e.number = x.number → positioned e.cursor = positioned x.cursor := by
  simp only [oneKind, all_eq_true, decide_eq_true_eq]

/-! ### The last event -/

/-- No event of the history is new after the cursor. -/
def NothingAfter (history : List AcceptedEvent) (last : ChainCursor) : Prop :=
  ∀ e ∈ history, previousIsBlockBoundary last e.cursor = false ∧
    ¬ cursorKey last < cursorKey e.cursor

def Remembers (r : QuoteReducer) (history : List AcceptedEvent) : Prop :=
  ∃ last, r.eventCursor = some last ∧ NothingAfter history last

variable {cursor last : ChainCursor} {t t' : QuoteIndexer.Target} {log : ContractLog}

theorem previousIsBlockBoundary_eq_true {previous : ChainCursor} :
    previousIsBlockBoundary previous cursor = true ↔
      previous.blockNumber = cursor.blockNumber ∧ previous.transactionIndex = none ∧
        previous.logIndex = none ∧ positioned cursor = true := by
  simp [previousIsBlockBoundary, positioned, and_assoc]

theorem positioned_of_boundary {previous : ChainCursor}
    (h : previousIsBlockBoundary previous cursor = true) :
    positioned previous = false ∧ positioned cursor = true := by
  obtain ⟨-, hnone, -, hcursor⟩ := previousIsBlockBoundary_eq_true.mp h
  exact ⟨by simp [positioned, hnone], hcursor⟩

/-- Everything in a lower block is before the cursor. -/
theorem nothingAfter_of_lt (h : ∀ e ∈ history, e.number < last.blockNumber) :
    NothingAfter history last := by
  intro e he
  have hlt : e.cursor.blockNumber < last.blockNumber := h e he
  constructor
  · by_contra hboundary
    have hsame := (previousIsBlockBoundary_eq_true.mp (by simpa using hboundary)).1
    exact hlt.ne hsame.symm
  · exact fun hkey => not_le.mpr hlt (blockNumber_le_of_key_lt hkey)

/-- **One event.**  A new event of its block's kind is the last one from then on. -/
theorem NothingAfter.accept {r : QuoteReducer} (h : NothingAfter history last)
    (hlast : r.eventCursor = some last) (hkind : oneKind history x = true)
    (hnew : r.admitEvent x.cursor x.event = .ok true) : NothingAfter (history ++ [x]) x.cursor := by
  intro e he
  rcases mem_append.mp he with hold | hself
  · obtain ⟨hboundary, hkey⟩ := h e hold
    constructor
    · by_contra hnot
      have hx : previousIsBlockBoundary x.cursor e.cursor = true := by simpa using hnot
      have hsame : e.number = x.number := (previousIsBlockBoundary_eq_true.mp hx).1.symm
      obtain ⟨hfree, hplaced⟩ := positioned_of_boundary hx
      exact absurd (oneKind_iff.mp hkind e hold hsame) (by simp [hfree, hplaced])
    intro hlt
    rcases (QuoteReducer.admitEvent_eq_true hnew hlast).2 with hfirst | hafter
    · -- the last event was a block boundary: the history has nothing in this block
      obtain ⟨hnumber, hnone, hnone', hplaced⟩ := previousIsBlockBoundary_eq_true.mp hfirst
      have hle : x.number ≤ e.number := blockNumber_le_of_key_lt hlt
      have hge : e.number ≤ x.number := by
        by_contra hgt
        refine hkey (List.Lex.rel ?_)
        rw [hnumber]
        exact not_le.mp hgt
      have hsame : e.number = x.number := le_antisymm hge hle
      have hpositioned : positioned e.cursor = true :=
        (oneKind_iff.mp hkind e hold hsame).trans hplaced
      have htrue := previousIsBlockBoundary_eq_true.mpr
        ⟨hnumber.trans hsame.symm, hnone, hnone', hpositioned⟩
      exact absurd htrue (by simp [hboundary])
    · exact hkey (lt_trans hafter hlt)
  · rw [mem_singleton.mp hself]
    refine ⟨?_, lt_irrefl _⟩
    by_contra hnot
    have hx : previousIsBlockBoundary x.cursor x.cursor = true := by simpa using hnot
    obtain ⟨hfree, hplaced⟩ := positioned_of_boundary hx
    exact absurd hplaced (by simp [hfree])

theorem eventCursor_of_applied {event : QuoteEvent} {changed : Bool}
    (hnew : t.reducer.admitEvent cursor event = .ok true)
    (h : applyEventTo t cursor event = (t', .ok changed)) :
    t'.reducer.eventCursor = some cursor := by
  have hcursor : ∀ r undo, t.reducer.apply cursor event = .ok (r, undo) →
      r.eventCursor = some cursor := by
    intro r undo happly
    rcases QuoteReducer.apply_eq_ok happly with ⟨hknown, -⟩ | ⟨data, -, -, -, rfl⟩
    · exact absurd (hknown.symm.trans hnew) (by simp)
    · rfl
  rw [applyEventTo] at h
  split at h
  · simp at h
  · next happly =>
    cases h
    exact hcursor _ _ happly
  · next happly =>
    split at h
    · simp at h
    cases h
    exact hcursor _ _ happly

/-! ### Logs and heads -/

theorem QuoteIndexer.observeFinalized_reducer (s : QuoteIndexer) (cursor : ChainCursor)
    (blockComplete : Bool) : (s.observeFinalized cursor blockComplete).1.reducer = s.reducer := by
  rw [observeFinalized]
  split
  · rfl
  dsimp only
  split_ifs
  · rfl
  · rfl

/-- After its event a log only moves the head cursors. -/
theorem applyCoreLog_frame {out : Except Failure Bool}
    (h : s.applyLog env s.target log true = (t', out)) :
    (s.applyCoreLog env log).1.reducer.data = t'.reducer.data ∧
      (s.applyCoreLog env log).1.reducer.eventCursor = t'.reducer.eventCursor := by
  rw [applyCoreLog, h]
  cases out with
  | error e => exact ⟨rfl, rfl⟩
  | ok changed =>
    have hreducer : ∀ s₁ : QuoteIndexer, s₁ = (if changed then
        { s.withTarget t' with
          lastAppliedCorrectionFingerprint := none, lastAppliedCorrectionTip := none }
        else s.withTarget t') → s₁.reducer = t'.reducer := by
      rintro s₁ rfl
      split_ifs
      · rfl
      · rfl
    dsimp only
    split
    · rw [hreducer _ rfl]
      exact ⟨rfl, rfl⟩
    · next r hobserve =>
      rw [observeFinalized_reducer]
      rw [hreducer _ rfl] at hobserve
      split_ifs at hobserve with hfinalized
      · obtain ⟨-, _, _, rfl⟩ := QuoteReducer.observeHead_frame hobserve
        exact ⟨rfl, rfl⟩
      · rw [← ok.inj hobserve]
        exact ⟨rfl, rfl⟩

theorem applyCoreLog_remembers (hs : Remembers s.reducer history)
    (hkind : ∀ x ∈ acceptedLog env s log, oneKind history x = true)
    (h : s.applyCoreLog env log = (s', .ok ())) :
    Remembers s'.reducer (history ++ acceptedLog env s log) := by
  obtain ⟨last, hlast, hnothing⟩ := hs
  rcases hlog : s.applyLog env s.target log true with ⟨t', e | changed⟩
  · simp [applyCoreLog, hlog] at h
  have hframe := (applyCoreLog_frame hlog).2
  rw [h] at hframe
  rcases applyLog_cases hlog with ⟨hnone, rfl⟩ | ⟨event, haccepted, -, hnew, happly⟩
  · rw [hnone, append_nil]
    exact ⟨last, hframe.trans hlast, hnothing⟩
  rw [haccepted] at hkind ⊢
  exact ⟨log.cursor, hframe.trans (eventCursor_of_applied hnew happly),
    hnothing.accept hlast (hkind _ (by simp)) hnew⟩

theorem applyCoreHead_eventCursor {head : ChainCursor} (h : s.applyCoreHead head = (s', .ok ())) :
    s'.reducer.eventCursor = s.reducer.eventCursor := by
  have hcursor : ∀ (s₁ : QuoteIndexer) (complete : Bool),
      s₁.observeFinalized head complete = (s', .ok ()) → s'.reducer = s₁.reducer := by
    intro s₁ complete hfinalized
    have hreducer := s₁.observeFinalized_reducer head complete
    rw [hfinalized] at hreducer
    exact hreducer
  rw [applyCoreHead] at h
  split at h
  · simp at h
  next r hobserve =>
  obtain ⟨-, _, _, rfl⟩ := QuoteReducer.observeHead_frame hobserve
  dsimp only at h
  split at h
  · rw [hcursor _ _ h]
  · rw [hcursor _ _ h]

/-! ### Corrections -/

/-- The replayed events have nothing after them; before the first one the cursor is the ancestor. -/
theorem replayReplacement_remembers {logs : List ContractLog} {replayed : List AcceptedEvent}
    {ancestor : ChainCursor} (hlast : t.reducer.eventCursor = some last)
    (hnothing : NothingAfter replayed last)
    (hstart : replayed = [] ∧ last = ancestor ∨ ancestor.blockNumber < last.blockNumber)
    (hkind : ∀ x ∈ replayed ++ replacementEvents env logs,
      oneKind (replayed ++ replacementEvents env logs) x = true)
    (habove : ∀ log ∈ logs, ancestor.blockNumber < log.cursor.blockNumber)
    (hordered : logs.Pairwise fun log log' => cursorKey log.cursor < cursorKey log'.cursor)
    (hnext : ∀ log ∈ logs, cursorKey last < cursorKey log.cursor)
    (h : s.replayReplacement env t logs = (s', .ok t')) :
    ∃ last', t'.reducer.eventCursor = some last' ∧
      NothingAfter (replayed ++ replacementEvents env logs) last' ∧
      (replayed ++ replacementEvents env logs = [] ∧ last' = ancestor ∨
        ancestor.blockNumber < last'.blockNumber) := by
  induction logs generalizing s t replayed last with
  | nil =>
    cases h
    rw [replacementEvents, filterMap_nil, append_nil]
    exact ⟨last, hlast, hnothing, hstart⟩
  | cons log rest ih =>
    obtain ⟨hfirst, hrest⟩ := pairwise_cons.mp hordered
    have habove' : ∀ log' ∈ rest, ancestor.blockNumber < log'.cursor.blockNumber :=
      fun log' hlog' => habove log' (mem_cons_of_mem _ hlog')
    rw [replayReplacement] at h
    rcases hout : s.applyLog env t log false with ⟨t₁, e | changed⟩
    · simp [hout] at h
    simp only [hout] at h
    rw [replacementEvents_cons, ← append_assoc] at hkind ⊢
    rcases applyLog_replacement hlast (hnext log mem_cons_self) hout with
      ⟨hnone, rfl⟩ | ⟨new, hsome, hnew, happly⟩
    · rw [hnone, Option.toList_none, append_nil] at hkind ⊢
      exact ih hlast hnothing hstart hkind habove' hrest
        (fun log' hlog' => hnext log' (mem_cons_of_mem _ hlog')) h
    rw [hsome, Option.toList_some] at hkind ⊢
    have hkind' : oneKind replayed ⟨log.cursor, new⟩ = true := by
      rw [oneKind_iff]
      intro e he
      exact oneKind_iff.mp (hkind ⟨log.cursor, new⟩ (by simp)) e (by simp [he])
    have haccept := hnothing.accept (x := ⟨log.cursor, new⟩) hlast hkind' hnew
    exact ih (eventCursor_of_applied hnew happly) haccept
      (.inr (habove log mem_cons_self)) hkind habove' hrest hfirst h

/-- The correction replays an event, or goes back to a block without accepted events; and the
replayed events of one block are of one kind. -/
def rememberedBy (env : Platform) (c : ChainCorrection) (history : List AcceptedEvent) : Bool :=
  (!(replacementEvents env c.replacementLogs).isEmpty ||
    (survivors c history).all fun e => e.number < c.commonAncestor.cursor.blockNumber) &&
  (replacementEvents env c.replacementLogs).all (oneKind (replacementEvents env c.replacementLogs))

theorem publishCandidate_eventCursor {notice : Option CorrectionNotice}
    (h : s.publishCandidate env c t = (s', .ok notice)) :
    s'.reducer.eventCursor = t.reducer.eventCursor := by
  rw [publishCandidate] at h
  split at h
  · simp at h
  next r hobserve =>
  obtain ⟨-, _, _, rfl⟩ := QuoteReducer.observeHead_frame hobserve
  obtain ⟨s₁, ⟨⟩, hfinalized, h⟩ := andThen_eq_ok.mp h
  cases h
  rcases observeFinalized_eq_ok hfinalized with ⟨_, rfl⟩ | ⟨-, -, -, _, rfl⟩
  · rfl
  · rfl

theorem candidate_eventCursor {j j' : CorrectionJournal} {current r : QuoteReducer}
    {ancestor : BlockRef} {oldBranch : List BlockRef}
    (h : j.candidate current ancestor oldBranch = .ok (r, j')) :
    r.eventCursor = some ancestor.cursor := by
  obtain ⟨⟨⟩, -, h⟩ := bind_eq_ok.mp h
  obtain ⟨⟨⟩, -, h⟩ := bind_eq_ok.mp h
  obtain ⟨r', hprepare, h⟩ := bind_eq_ok.mp h
  obtain ⟨rfl, -⟩ := Prod.mk.inj (ok.inj h)
  obtain ⟨-, hprepare⟩ := ite_error_eq_ok.mp hprepare
  rw [← ok.inj hprepare]

theorem applyCorrection_remembers {notice : CorrectionNotice}
    (hremembered : rememberedBy env c history = true)
    (h : s.applyCorrection env c false = (s', .ok (some notice))) :
    Remembers s'.reducer (survivors c history ++ replacementEvents env c.replacementLogs) := by
  obtain ⟨hc, -, -, r, j, s₁, t, hcandidate, hreplay, hpublish⟩ :=
    applyCorrection_eq_some h
  obtain ⟨hempty, hkind⟩ := Bool.and_eq_true_iff.mp hremembered
  have hnil : NothingAfter [] c.commonAncestor.cursor := by simp [NothingAfter]
  have hkinds : ∀ x ∈ [] ++ replacementEvents env c.replacementLogs,
      oneKind ([] ++ replacementEvents env c.replacementLogs) x = true := by
    exact all_eq_true.mp hkind
  obtain ⟨last, hlast, hnothing, hwhere⟩ := replayReplacement_remembers (t := ⟨r, j⟩)
    (candidate_eventCursor hcandidate) hnil (.inl ⟨rfl, rfl⟩) hkinds
    (fun log hlog => (hc.log_bounds hlog).1) hc.ordered
    (fun log hlog => List.Lex.rel (hc.log_bounds hlog).1) hreplay
  rw [nil_append] at hnothing hwhere
  refine ⟨last, (publishCandidate_eventCursor hpublish).trans hlast, ?_⟩
  -- what survives lies below the last event in both cases
  have hbelow : ∀ e ∈ survivors c history, e.number < last.blockNumber := by
    intro e he
    rcases hwhere with ⟨hnone, rfl⟩ | habove
    · simp only [hnone, isEmpty_nil, Bool.not_true, Bool.false_or, all_eq_true,
        decide_eq_true_eq] at hempty
      exact hempty e he
    · rcases (mem_survivors.mp he).2 with hlt | ⟨heq, -⟩
      · exact hlt.trans habove
      · exact heq.trans_lt habove
  intro e he
  rcases mem_append.mp he with hold | hnew
  · exact nothingAfter_of_lt hbelow e hold
  · exact hnothing e hnew

/-! ### Runs -/

/-- The update is accepted, and leaves a last event that every redelivery is compared with. -/
def remembering (env : Platform) (t : Traced) (update : ChainUpdate) : Bool :=
  (match t.indexer.applyCoreUpdate env update with
    | (_, .ok ()) => true
    | (_, .error _) => false) &&
  match update with
  | .log log => (acceptedLog env t.indexer log).all (oneKind t.history)
  | .correction c =>
    match t.indexer.applyCorrection env c false with
    | (_, .ok (some _)) => rememberedBy env c t.history
    | _ => true
  | _ => true

def Remembering (env : Platform) (t : Traced) (update : ChainUpdate) : Prop :=
  remembering env t update = true

theorem deliver_remembers {t : Traced} {update : ChainUpdate}
    (ht : Remembers t.indexer.reducer t.history) (hd : Remembering env t update) :
    Remembers (deliver env t update).indexer.reducer (deliver env t update).history := by
  obtain ⟨haccepted, hd⟩ := Bool.and_eq_true_iff.mp hd
  cases update with
  | log log =>
    rcases hstep : t.indexer.applyCoreLog env log with ⟨s', e | ⟨⟩⟩
    · simp [applyCoreUpdate, dispatch, hstep] at haccepted
    simp only [deliver, historyAfter, applyCoreUpdate, dispatch, hstep]
    exact applyCoreLog_remembers ht (all_eq_true.mp hd) hstep
  | head block =>
    rcases hstep : t.indexer.applyCoreHead block.cursor with ⟨s', e | ⟨⟩⟩
    · simp [applyCoreUpdate, dispatch, hstep] at haccepted
    simp only [deliver, historyAfter, applyCoreUpdate, dispatch, hstep]
    obtain ⟨last, hlast, hnothing⟩ := ht
    exact ⟨last, (applyCoreHead_eventCursor hstep).trans hlast, hnothing⟩
  | correction c =>
    rcases hstep : t.indexer.applyCorrection env c false with ⟨s', e | notice⟩
    · simp [applyCoreUpdate, dispatch, hstep] at haccepted
    simp only [deliver, historyAfter, applyCoreUpdate, dispatch,
      hstep, Effect.andThen_ok]
    cases notice with
    | none =>
      rw [applyCorrection_none hstep]
      exact ht
    | some notice =>
      simp only [hstep] at hd
      exact applyCorrection_remembers hd hstep
  | reorg cursor ancestor | gap cursor reason =>
    simp [applyCoreUpdate, dispatch] at haccepted

/-- The positions of one log: the block, the transaction and the log index, and the transport
position where a source does not give both indices. -/
def SameLog (c c' : ChainCursor) : Prop :=
  c.blockNumber = c'.blockNumber ∧ c.blockHash = c'.blockHash ∧
    c.transactionIndex = c'.transactionIndex ∧ c.logIndex = c'.logIndex ∧
    (positioned c = false →
      c.sourceSequence = c'.sourceSequence ∧ c.sourceSubIndex = c'.sourceSubIndex)

instance (c c' : ChainCursor) : Decidable (SameLog c c') :=
  inferInstanceAs (Decidable (_ ∧ _))

theorem SameLog.cursorKey {c c' : ChainCursor} (h : SameLog c c') : cursorKey c = cursorKey c' := by
  obtain ⟨hnumber, -, htransaction, hlog, htransport⟩ := h
  rw [TsClient.cursorKey, TsClient.cursorKey, ← hnumber, ← htransaction, ← hlog]
  cases hpositioned : c.transactionIndex.isSome && c.logIndex.isSome with
  | true => rfl
  | false =>
    obtain ⟨hsequence, hsub⟩ := htransport hpositioned
    rw [hsequence, hsub]

theorem SameLog.boundary {c c' : ChainCursor} (h : SameLog c c') (previous : ChainCursor) :
    previousIsBlockBoundary previous c = previousIsBlockBoundary previous c' := by
  obtain ⟨hnumber, -, htransaction, hlog, -⟩ := h
  rw [previousIsBlockBoundary, previousIsBlockBoundary, hnumber, htransaction, hlog]

/-- A log that is not new after the last event has no effect on the data. -/
theorem applyCoreUpdate_log_of_nothing (hlast : s.reducer.eventCursor = some last)
    (hboundary : previousIsBlockBoundary last log.cursor = false)
    (hkey : ¬ cursorKey last < cursorKey log.cursor) :
    (s.applyCoreUpdate env (.log log)).1.reducer.data = s.reducer.data := by
  have hold : ∀ event, s.target.reducer.admitEvent log.cursor event ≠ .ok true := by
    intro event hnew
    rcases (QuoteReducer.admitEvent_eq_true hnew hlast).2 with hfirst | hafter
    · exact absurd hfirst (by simp [hboundary])
    · exact hkey hafter
  have htarget : (s.applyLog env s.target log true).1 = s.target := by
    rw [applyLog]
    split
    · rfl
    · rfl
    · exact applyEventTo_of_not_new (hold _)
  rcases hlog : s.applyLog env s.target log true with ⟨t', out⟩
  rw [hlog] at htarget
  obtain rfl : t' = s.target := htarget
  have hdata : (s.applyCoreLog env log).1.reducer.data = s.reducer.data :=
    (applyCoreLog_frame hlog).1
  rw [applyCoreUpdate, dispatch]
  rcases hstep : s.applyCoreLog env log with ⟨s', e | ⟨⟩⟩
  · rw [hstep] at hdata
    exact hdata
  · rw [hstep] at hdata
    exact hdata

/-- **An applied log is not applied again.**  After any run from a snapshot whose updates are
accepted and leave a last event to compare with, the redelivery of a log of the published branch
changes none of the data. -/
theorem redelivery_changes_no_data {snapshot : Client.BootstrapSnapshot}
    {deployment : Client.DeploymentConfig} {limits : CorrectionJournalLimits}
    {start : QuoteIndexer} {t : Traced} {e : AcceptedEvent} {log : ContractLog}
    (hstart : fromSnapshot snapshot deployment limits = .ok start)
    (hrun : Run (deliver env) (Remembering env) ⟨start, []⟩ t)
    (happlied : e ∈ t.history) (hsame : SameLog e.cursor log.cursor) :
    (t.indexer.applyCoreUpdate env (.log log)).1.reducer.data = t.indexer.reducer.data := by
  have hinv : Remembers t.indexer.reducer t.history := by
    refine hrun.invariant (P := fun t => Remembers t.indexer.reducer t.history) ?_
      fun _ _ => deliver_remembers
    obtain ⟨event, head, published, hplaced, -⟩ := fromSnapshot_standing hstart
    exact ⟨event, hplaced.eventCursor, by simp [NothingAfter]⟩
  obtain ⟨last, hlast, hnothing⟩ := hinv
  obtain ⟨hboundary, hkey⟩ := hnothing e happlied
  rw [hsame.boundary last] at hboundary
  rw [hsame.cursorKey] at hkey
  exact applyCoreUpdate_log_of_nothing hlast hboundary hkey

/-! ### A correction with an event, and one without -/

/-- The largest limits. -/
def largeLimits : CorrectionJournalLimits := ⟨128, 16 * 1024 * 1024⟩

/-- A deposit at block 5, the head 6, and a correction that replaces block 6. -/
def depositUpdates (replacementLogs : List ContractLog) : List ChainUpdate :=
  [.log (Client.depositLog 5 0xb5 250), .head (Client.blockRef 6 0xb6 0xb5),
    .correction { Client.replaceSix with replacementLogs := replacementLogs }]

theorem redelivery_changes_no_data_deposit :
    ((smallRun largeLimits
        (depositUpdates [Client.multiplierLog 6 0xd6 40000])).indexer.applyCoreUpdate
      Client.referencePlatform (.log (Client.depositLog 5 0xb5 250))).1.reducer.data =
        (smallRun largeLimits
          (depositUpdates [Client.multiplierLog 6 0xd6 40000])).indexer.reducer.data :=
  redelivery_changes_no_data
    (e := ⟨(Client.depositLog 5 0xb5 250).cursor, .depositExecuted 0xa1 250⟩)
    (smallEngine_eq (by decide +kernel))
    (Run.ofList (remembering Client.referencePlatform) .refl (by decide +kernel))
    (by decide +kernel) (by decide +kernel)

/-- **A deposit of the common ancestor is counted twice.**  Block 6 is replaced without logs; the
last event is then block 5 as a whole, and the deposit of block 5, delivered again, counts as a log
after it. -/
theorem ancestor_deposit_counted_twice :
    ∃ (start : QuoteIndexer) (t : Traced) (e : AcceptedEvent) (log : ContractLog),
      fromSnapshot Client.smallSnapshot Client.smallDeployment largeLimits =
        .ok start ∧
      Run (deliver Client.referencePlatform) (fun _ _ => True) ⟨start, []⟩ t ∧
      e ∈ t.history ∧ SameLog e.cursor log.cursor ∧
      (t.indexer.reducer.data.lane 0xa1).map (·.totalPrincipalAmount) = some 1250 ∧
      ((t.indexer.applyCoreUpdate Client.referencePlatform (.log log)).1.reducer.data.lane
        0xa1).map (·.totalPrincipalAmount) = some 1500 := by
  refine ⟨smallEngine largeLimits, smallRun largeLimits (depositUpdates []),
    ⟨(Client.depositLog 5 0xb5 250).cursor, .depositExecuted 0xa1 250⟩,
    Client.depositLog 5 0xb5 250, smallEngine_eq (by decide +kernel), ?_, by decide +kernel,
    by decide +kernel, by decide +kernel, by decide +kernel⟩
  exact Run.foldl .refl _

end Lunarbase.TsClient
