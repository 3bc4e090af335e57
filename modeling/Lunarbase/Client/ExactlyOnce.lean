import Lunarbase.Client.Rollback

/-!
# Client — ExactlyOnce

A log that was applied on the published branch is not applied again
(`redelivered_log_has_no_effect`), whatever payload it is delivered with.

The reducer remembers one event, the last one, and takes a log as new when it is after that event.
The invariant is that no event of the history is after the remembered one (`LastEvent`).  Every
update keeps it except a correction that goes back to accepted events and replays none: it leaves
the reducer without an event, and everything up to the ancestor counts as new
(`deposit_counted_twice`).
-/

namespace Lunarbase.Client

open List QuoteIndexer QuoteReducer

/-- The remembered event is not before any event of the history. -/
def LastEvent (r : QuoteReducer) (history : List AcceptedEvent) : Prop :=
  history ≠ [] → ∃ last, r.eventCursor = some last ∧
    ∀ e ∈ history, ¬ last.eventOrder < e.cursor.eventOrder

theorem LastEvent.nil (r : QuoteReducer) : LastEvent r [] := fun h => absurd rfl h

/-- A new event is after the remembered one. -/
theorem QuoteReducer.lt_of_admitEvent {r : QuoteReducer} {cursor previous : ChainCursor}
    {event : QuoteEvent} (h : r.admitEvent cursor event = .ok true)
    (hprevious : r.eventCursor = some previous) : previous.eventOrder < cursor.eventOrder := by
  obtain ⟨⟨⟩, -, h⟩ := Except.bind_eq_ok.mp h
  simp only [checkPrevious, hprevious] at h
  split at h
  · cases h
  obtain ⟨⟨⟩, -, h⟩ := Except.bind_eq_ok.mp h
  split at h
  · cases h
  next hnlt =>
  split at h
  · split at h
    · cases h
    · cases h
  next hne => exact lt_of_le_of_ne (not_lt.mp hnlt) (Ne.symm hne)

variable {bytes : ImageCost} {history : List AcceptedEvent} {s : QuoteIndexer} {env : Platform}
  {s' : QuoteIndexer}

/-- **One log.**  The event it brings is the remembered one from then on. -/
theorem applyDecodedLog_last {cursor : ChainCursor} {event : Option QuoteEvent}
    (hlast : LastEvent s.reducer history)
    (h : s.applyDecodedLog bytes cursor event = (s', .ok ())) :
    LastEvent s'.reducer (history ++ acceptedEvent s cursor event) := by
  rcases applyDecodedLog_cases h with
    ⟨e, hout, -⟩ | ⟨-, -, hknown, -, rfl⟩ | ⟨new, data, changed, -, -, rfl, hadmitted, -, -, rfl⟩
  · cases hout
  · rw [acceptedEvent_of_known hknown, append_nil]
    exact hlast
  have haccepted : acceptedEvent s cursor (some new) = [⟨cursor, new⟩] := by
    simp [acceptedEvent, hadmitted]
  rw [haccepted]
  intro _
  refine ⟨cursor, rfl, fun e he => ?_⟩
  rcases mem_append.mp he with hold | hnew
  · obtain ⟨last, hcursor, hle⟩ := hlast (ne_nil_of_mem hold)
    have hlt := lt_of_admitEvent hadmitted hcursor
    exact fun hgt => hle e hold (lt_trans hlt hgt)
  · rw [mem_singleton.mp hnew]
    exact lt_irrefl _

/-- A replay remembers its last event. -/
theorem replayLogs_last {logs : List ContractLog} (hlast : LastEvent s.reducer history)
    (hrising : Rising s.reducer.eventCursor logs) (h : s.replayLogs env bytes logs = .ok s') :
    LastEvent s'.reducer (history ++ replacementEvents env logs) := by
  induction logs generalizing s history with
  | nil =>
    cases h
    rw [replacementEvents, filterMap_nil, append_nil]
    exact hlast
  | cons log rest ih =>
    obtain ⟨event, s₁, hdecode, happly, h⟩ := replayLogs_cons h
    obtain ⟨haccepted, -, hcursor⟩ := acceptedEvent_of_later hdecode
      (fun previous hp => hrising.later previous hp log mem_cons_self) happly
    rw [replacementEvents_cons, ← haccepted, ← append_assoc]
    exact ih (applyDecodedLog_last hlast happly) (hrising.tail hcursor) h

/-- The correction replays an event, or goes back below every accepted one. -/
def rememberedBy (env : Platform) (c : ChainCorrection) (history : List AcceptedEvent) : Bool :=
  (survivors c history).isEmpty || !(replacementEvents env c.replacementLogs).isEmpty

/-- A correction that replays an event leaves the last of them as the remembered one. -/
theorem correction_last {next : QuoteIndexer} {c : ChainCorrection}
    (hremembered : rememberedBy env c history = true)
    (h : s.intoCorrectedCore env bytes c = .ok (next, true)) :
    LastEvent next.reducer (survivors c history ++ replacementEvents env c.replacementLogs) := by
  obtain ⟨hvalid, hreplace⟩ := intoCorrectedCore_eq_ok_true h
  obtain ⟨-, habove, hbranch, hsorted⟩ :=
    ChainCorrection.validate_spec (validate_of_forCore hvalid)
  obtain ⟨rewound, replayed, -, -, hrewind, hreplay, hfinish⟩ :=
    replaceBranch_eq_ok hreplace
  obtain ⟨restore, -, rfl⟩ := rewindTo_eq_ok hrewind
  have hreplayed := replayLogs_last (LastEvent.nil _) ⟨hsorted, fun previous hp => absurd hp
    (by simp [QuoteIndexer.recordBranch])⟩ hreplay
  obtain rfl := finishCorrection_eq_ok hfinish
  intro hne
  rcases Bool.or_eq_true_iff.mp hremembered with hnone | hsome
  · rw [isEmpty_iff.mp hnone, nil_append] at hne ⊢
    exact hreplayed hne
  have hevents : replacementEvents env c.replacementLogs ≠ [] := by
    simpa using hsome
  obtain ⟨last, hlast, hle⟩ := hreplayed hevents
  refine ⟨last, hlast, fun e he => ?_⟩
  rcases mem_append.mp he with hold | hnew
  · -- a survivor is at or below the ancestor, a replacement event above it
    obtain ⟨x, hx⟩ := exists_mem_of_ne_nil _ hevents
    obtain ⟨log, hlog, hcursor⟩ := exists_log_of_replacement hx
    obtain ⟨block, hblock, hnumber⟩ := hbranch log hlog
    have hlt : e.cursor.blockNumber < x.cursor.blockNumber := by
      rw [hcursor, ← hnumber]
      exact (number_le_of_survivor hold).trans_lt (habove block hblock)
    exact fun hgt => hle x hx (lt_trans hgt (ChainCursor.eventOrder_lt_of_blockNumber_lt hlt))
  · exact hle e hnew

/-! ### Runs -/

/-- Every correction that is applied leaves an event to compare redeliveries with. -/
def remembering (env : Platform) (t : Traced) (d : Delivery) : Bool :=
  match d.update with
  | .correction c =>
    match t.indexer.intoCorrectedCore env d.bytes c with
    | .ok (_, true) => rememberedBy env c t.history
    | _ => true
  | _ => true

def Remembering (env : Platform) (t : Traced) (d : Delivery) : Prop := remembering env t d = true

theorem deliver_last {t : Traced} {d : Delivery} (ht : LastEvent t.indexer.reducer t.history)
    (hd : Remembering env t d) :
    LastEvent (deliver env t d).indexer.reducer (deliver env t d).history := by
  obtain ⟨update, bytes⟩ := d
  cases update with
  | log log =>
    rcases hstep : t.indexer.applyCoreUpdate env bytes (.log log) with ⟨s', out⟩
    simp only [deliver, historyAfter, hstep]
    rcases applyCoreUpdate_log_cases hstep with
      ⟨e, rfl, rfl | rfl⟩ | ⟨rfl, hcovered, rfl⟩ | ⟨event, rfl, hcovered, hdecode, happly⟩
    · exact ht
    · exact ht
    · simpa [acceptedLog, hcovered] using ht
    · simpa [acceptedLog, hcovered, hdecode] using applyDecodedLog_last ht happly
  | head block =>
    rcases hstep : t.indexer.applyHead block.cursor with ⟨s', out⟩
    simp only [deliver, historyAfter, applyCoreUpdate_head, hstep]
    rcases applyHead_cases hstep with
      ⟨e, -, rfl | rfl⟩ | ⟨reducer, -, hobserve, rfl⟩
    · exact ht
    · exact ht
    obtain ⟨cursor, rfl⟩ := observeHead_ok hobserve
    exact ht
  | reorg oldHead newHead | gap cursor reason => exact ht
  | correction c =>
    rcases hstep : t.indexer.applyCoreUpdate env bytes (.correction c) with ⟨s', out⟩
    rcases applyCoreUpdate_correction_cases hstep with
      ⟨e, e', -, rfl, hinto⟩ | ⟨s₁, -, hinto, rfl⟩ | ⟨-, hinto⟩
    · simp only [deliver, historyAfter, hstep, hinto]
      exact ht
    · simp only [deliver, historyAfter, hstep, hinto]
      exact ht
    simp only [Remembering, remembering, hinto] at hd
    simp only [deliver, historyAfter, hstep, hinto]
    exact correction_last hd hinto

/-- The positions of one log: the block, the transaction and the log index, and the transport
position where a source gives neither index. -/
def SameLog (c c' : ChainCursor) : Prop :=
  c.blockNumber = c'.blockNumber ∧ c.blockHash = c'.blockHash ∧
    c.transactionIndex = c'.transactionIndex ∧ c.logIndex = c'.logIndex ∧
    (c.transactionIndex = none → c.logIndex = none →
      c.sourceSequence = c'.sourceSequence ∧ c.sourceSubIndex = c'.sourceSubIndex)

instance (c c' : ChainCursor) : Decidable (SameLog c c') :=
  inferInstanceAs (Decidable (_ ∧ _))

theorem SameLog.eventOrder {c c' : ChainCursor} (h : SameLog c c') :
    c.eventOrder = c'.eventOrder := by
  obtain ⟨hnumber, -, htransaction, hlog, htransport⟩ := h
  rw [ChainCursor.eventOrder, ChainCursor.eventOrder, ← hnumber, ← htransaction, ← hlog]
  by_cases hnone : c.transactionIndex = none ∧ c.logIndex = none
  · obtain ⟨hsequence, hsub⟩ := htransport hnone.1 hnone.2
    rw [hsequence, hsub]
  have hfalse : (c.transactionIndex.isNone && c.logIndex.isNone) = false := by
    rw [← Bool.not_eq_true]
    simpa using hnone
  simp [hfalse]

/-- A log that is not after the remembered event has no effect on the data. -/
theorem applyCoreUpdate_log_of_last {log : ContractLog} {last : ChainCursor}
    (hlast : s.reducer.eventCursor = some last) (hle : ¬ last.eventOrder < log.cursor.eventOrder) :
    (s.applyCoreUpdate env bytes (.log log)).1.reducer.data = s.reducer.data := by
  rcases hstep : s.applyCoreUpdate env bytes (.log log) with ⟨s', out⟩
  rcases applyCoreUpdate_log_cases hstep with
    ⟨e, -, rfl | rfl⟩ | ⟨-, -, rfl⟩ | ⟨event, -, -, -, happly⟩
  · rfl
  · rfl
  · rfl
  rcases applyDecodedLog_cases happly with
    ⟨e, hout, -⟩ | ⟨-, -, -, -, rfl⟩ | ⟨new, data, changed, -, -, -, hadmitted, -⟩
  · cases hout
  · rfl
  · exact absurd (lt_of_admitEvent hadmitted hlast) hle

/-- **An applied log is not applied again.**  After any run, from a bootstrap or any other state, in
which every applied correction leaves an event to compare with, the redelivery of a log of the
published branch changes none of the data. -/
theorem redelivered_log_has_no_effect {env : Platform} {bytes : ImageCost} {start : QuoteIndexer}
    {t : Traced} {e : AcceptedEvent} {log : ContractLog}
    (hrun : Run (deliver env) (Remembering env) ⟨start, []⟩ t) (happlied : e ∈ t.history)
    (hsame : SameLog e.cursor log.cursor) :
    (t.indexer.applyCoreUpdate env bytes (.log log)).1.reducer.data = t.indexer.reducer.data := by
  have hinv : LastEvent t.indexer.reducer t.history :=
    hrun.invariant (P := fun t => LastEvent t.indexer.reducer t.history) (LastEvent.nil _)
      fun _ _ => deliver_last
  obtain ⟨last, hlast, hle⟩ := hinv (ne_nil_of_mem happlied)
  exact applyCoreUpdate_log_of_last hlast (hsame.eventOrder ▸ hle e happlied)

/-! ### A correction with an event, and one without -/

/-- A deposit at block 5, the head 6, and a correction that replaces block 6. -/
def afterDeposit (replacementLogs : List ContractLog) : Traced :=
  [unpriced (.log (depositLog 5 0xb5 250)), unpriced (.head (blockRef 6 0xb6 0xb5)),
    unpriced (.correction { replaceSix with replacementLogs := replacementLogs })].foldl
      (deliver referencePlatform) ⟨smallStart, []⟩

theorem redelivered_log_has_no_effect_deposit :
    ((afterDeposit [multiplierLog 6 0xd6 40000]).indexer.applyCoreUpdate referencePlatform
      freeImages (.log (depositLog 5 0xb5 250))).1.reducer.data =
        (afterDeposit [multiplierLog 6 0xd6 40000]).indexer.reducer.data :=
  redelivered_log_has_no_effect (e := ⟨(depositLog 5 0xb5 250).cursor, .depositExecuted 0xa1 250⟩)
    (Run.ofList (remembering referencePlatform) .refl (by decide +kernel))
    (by decide +kernel) (by decide +kernel)

/-- **A deposit is counted twice.**  Block 6 is replaced without logs; the deposit of block 5, which
is the common ancestor, is then delivered again and taken as new. -/
theorem deposit_counted_twice :
    ∃ (s start : QuoteIndexer) (t : Traced) (e : AcceptedEvent) (log : ContractLog),
      s.bootstrap referencePlatform freeImages smallSnapshot = (start, .ok ()) ∧
      Run (deliver referencePlatform) (fun _ _ => True) ⟨start, []⟩ t ∧
      e ∈ t.history ∧ SameLog e.cursor log.cursor ∧
      (t.indexer.reducer.data.lane 0xa1).map (·.totalPrincipalAmount) = some 1250 ∧
      ((t.indexer.applyCoreUpdate referencePlatform freeImages (.log log)).1.reducer.data.lane
        0xa1).map (·.totalPrincipalAmount) = some 1500 := by
  refine ⟨_, smallStart, afterDeposit [],
    ⟨(depositLog 5 0xb5 250).cursor, .depositExecuted 0xa1 250⟩, depositLog 5 0xb5 250,
    smallStart_eq, ?_, by decide +kernel, by decide +kernel, by decide +kernel,
    by decide +kernel⟩
  exact Run.foldl .refl _

end Lunarbase.Client
