import Lunarbase.Client.Acceptance
import Lunarbase.Client.Indexer

/-!
# Client — Transitions

What each transition of the quote state machine can do, said once: an update is rejected and at
most revokes readiness, or it is accepted and leaves exactly the state named here.
-/

namespace Lunarbase.Client

open Effect (andThen onError andThen_eq_ok andThen_eq_error onError_eq_ok onError_eq_error)
open Except Effect QuoteReducer

variable {head : ChainCursor} {r r' : QuoteReducer}

/-- A rejected head leaves the reducer as it was. -/
theorem QuoteReducer.observeHead_error {e : ReducerError}
    (h : r.observeHead head = (r', .error e)) : r' = r := by
  rw [observeHead] at h
  cases hvalid : validateHeadAgainstEvent r.eventCursor r.cursor head with
  | error e' =>
    simp only [hvalid, Prod.mk.injEq] at h
    exact h.1.symm
  | ok u =>
    simp only [hvalid] at h
    cases hcursor : r.cursor with
    | none => simp [hcursor] at h
    | some current =>
      simp only [hcursor] at h
      split_ifs at h <;> simp_all

/-- The three things an accepted head can do: nothing when it is stale, a merge into the published
block, which an event in it pins, or a step to a higher block. -/
theorem QuoteReducer.observeHead_cases (h : r.observeHead head = (r', .ok ())) :
    (∃ current, r.cursor = some current ∧ head.blockNumber < current.blockNumber ∧ r' = r) ∨
    (∃ current, r.cursor = some current ∧ head.blockNumber = current.blockNumber ∧
      (current.blockHash = head.blockHash ∨
        ∀ event, r.eventCursor = some event → event.blockNumber ≠ head.blockNumber) ∧
      r' = { r with cursor := some (mergeHead current head) }) ∨
    ((∀ current, r.cursor = some current →
        current.blockNumber < head.blockNumber ∧ current.chainId = head.chainId) ∧
      r' = { r with cursor := some head }) := by
  rw [observeHead] at h
  cases hvalid : validateHeadAgainstEvent r.eventCursor r.cursor head with
  | error e => simp [hvalid] at h
  | ok u =>
  simp only [hvalid] at h
  cases hcursor : r.cursor with
  | none =>
    simp only [hcursor, Prod.mk.injEq] at h
    exact .inr (.inr ⟨by simp, h.1.symm⟩)
  | some current =>
    simp only [hcursor] at h
    split_ifs at h with hchain hstale hsame hlost hexecution hchanged <;>
      simp only [Prod.mk.injEq, reduceCtorEq, and_false, and_true] at h
    · exact .inl ⟨current, rfl, hstale, h.symm⟩
    · refine .inr (.inl ⟨current, rfl, hsame, ?_, h.symm⟩)
      by_cases hhash : current.blockHash = head.blockHash
      · exact .inl hhash
      refine .inr fun event hevent hnumber => hchanged ⟨decide_eq_true hhash, .inl ?_⟩
      simp [hevent, hnumber]
    · refine .inr (.inr ⟨?_, h.symm⟩)
      rintro _ ⟨⟩
      exact ⟨lt_of_le_of_ne (not_lt.mp hstale) (Ne.symm hsame), not_not.mp hchain⟩

/-- An accepted head changes the published cursor and nothing else. -/
theorem QuoteReducer.observeHead_ok (h : r.observeHead head = (r', .ok ())) :
    ∃ c, r' = { r with cursor := c } := by
  rcases observeHead_cases h with ⟨-, -, -, rfl⟩ | ⟨-, -, -, -, rfl⟩ | ⟨-, rfl⟩
  · exact ⟨_, rfl⟩
  · exact ⟨_, rfl⟩
  · exact ⟨_, rfl⟩

theorem QuoteReducer.observeCorrectedHead_ok (h : r.observeCorrectedHead head = (r', .ok ())) :
    r' = { r with cursor := some head } := by
  rw [observeCorrectedHead] at h
  rcases hobserve : r.observeHead head with ⟨r₁, out⟩
  cases out with
  | error e => simp [hobserve] at h
  | ok u =>
    obtain ⟨c, rfl⟩ := observeHead_ok hobserve
    simp only [hobserve, Prod.mk.injEq] at h
    exact h.1.symm

/-- The event a log brings when the reducer takes it as new. -/
def acceptedEvent (s : QuoteIndexer) (cursor : ChainCursor) (event : Option QuoteEvent) :
    List AcceptedEvent :=
  match event with
  | none => []
  | some event => if s.reducer.admitEvent cursor event = .ok true then [⟨cursor, event⟩] else []

theorem acceptedEvent_of_known {s : QuoteIndexer} {cursor : ChainCursor} {event : Option QuoteEvent}
    (h : ∀ known, event = some known → s.reducer.admitEvent cursor known = .ok false) :
    acceptedEvent s cursor event = [] := by
  cases event with
  | none => rfl
  | some known => simp [acceptedEvent, h known rfl]

namespace QuoteIndexer

/-- The journal an accepted log has before its block is recorded. -/
def captured (bytes : ImageCost) (s : QuoteIndexer) (cursor : ChainCursor)
    (event : Option QuoteEvent) : JournalState :=
  match event with
  | none => s.optimisticHistory
  | some event =>
    match s.reducer.applyWithEffect cursor event with
    | (_, .ok true) => s.optimisticHistory.captureBefore bytes cursor s.reducer
    | _ => s.optimisticHistory

variable {cursor : ChainCursor} {s s' next : QuoteIndexer}
  {bytes : ImageCost} {out : Except IndexerError Unit} {env : Platform}
  {c : ChainCorrection}

/-- An update that passed the finalized check is recorded: the check reads the finalized floor
only. -/
theorem recordFinalizedUpdate_of_valid (h : s.validateFinalizedUpdate cursor = .ok ())
    (reducer : QuoteReducer) (history : JournalState) :
    { s with reducer := reducer, optimisticHistory := history }.recordFinalizedUpdate cursor =
      ({ s with
        reducer := reducer
        optimisticHistory := history
        finalizedFloor := raiseFinalized s.finalizedFloor cursor }, .ok ()) := by
  have hsame : { s with reducer := reducer, optimisticHistory := history }.validateFinalizedUpdate
      cursor = .ok () := h
  rw [recordFinalizedUpdate, hsame]

/-- The three ways a decoded log ends: rejected without a trace, seen without a new event, or
accepted with one. -/
theorem applyDecodedLog_cases {event : Option QuoteEvent}
    (h : s.applyDecodedLog bytes cursor event = (s', out)) :
    (∃ e, out = .error e ∧ s' = s) ∨
    (out = .ok () ∧ s.optimisticHistory.validateEventIdentity cursor = .ok () ∧
      (∀ known, event = some known → s.reducer.admitEvent cursor known = .ok false) ∧
      s.captured bytes cursor event = s.optimisticHistory ∧
      s' = { s with
        optimisticHistory := s.optimisticHistory.recordEventIdentity cursor
        finalizedFloor := raiseFinalized s.finalizedFloor cursor }) ∨
    ∃ new data changed, out = .ok () ∧ s.optimisticHistory.validateEventIdentity cursor = .ok () ∧
      event = some new ∧ s.reducer.admitEvent cursor new = .ok true ∧
      s.reducer.data.applyEvent new = (data, .ok changed) ∧
      s.captured bytes cursor event = (if changed then
        s.optimisticHistory.captureBefore bytes cursor s.reducer else s.optimisticHistory) ∧
      s' = { s with
        reducer := { s.reducer with
          data := data
          cursor := some (publishEvent s.reducer.cursor cursor)
          eventCursor := some cursor
          event := some new }
        optimisticHistory := (s.captured bytes cursor event).recordEventIdentity cursor
        finalizedFloor := raiseFinalized s.finalizedFloor cursor
        lastCorrection := if changed then none else s.lastCorrection } := by
  rw [applyDecodedLog] at h
  cases hfinal : s.validateFinalizedUpdate cursor with
  | error e =>
    simp only [hfinal, andThen_error, Prod.mk.injEq] at h
    exact .inl ⟨e, h.2.symm, h.1.symm⟩
  | ok u =>
  cases hid : s.optimisticHistory.validateEventIdentity cursor with
  | error e =>
    simp only [hfinal, hid, andThen_ok, andThen_error, Prod.mk.injEq] at h
    exact .inl ⟨e, h.2.symm, h.1.symm⟩
  | ok u' =>
    simp only [hfinal, hid, andThen_ok] at h
    -- the second finalized check sees the floor of the first
    have hrecord : ∀ reducer history,
        { s with reducer := reducer, optimisticHistory := history }.recordEvent cursor =
          ({ s with
            reducer := reducer
            optimisticHistory := history.recordEventIdentity cursor
            finalizedFloor := raiseFinalized s.finalizedFloor cursor }, .ok ()) :=
      fun reducer history => recordFinalizedUpdate_of_valid hfinal reducer _
    have hself : s.recordEvent cursor = ({ s with
        optimisticHistory := s.optimisticHistory.recordEventIdentity cursor
        finalizedFloor := raiseFinalized s.finalizedFloor cursor }, .ok ()) :=
      hrecord s.reducer s.optimisticHistory
    cases event with
    | none =>
      simp only [hself, Prod.mk.injEq] at h
      exact .inr (.inl ⟨h.2.symm, rfl, by simp, rfl, h.1.symm⟩)
    | some new =>
      rcases happly : s.reducer.applyWithEffect cursor new with ⟨reducer, result⟩
      rcases applyWithEffect_cases happly with
        ⟨e, rfl, rfl⟩ | ⟨rfl, rfl, hadmitted⟩ |
        ⟨data, changed, rfl, hadmitted, heffect, rfl⟩
      · simp only [happly, Prod.mk.injEq] at h
        exact .inl ⟨_, h.2.symm, h.1.symm⟩
      · simp only [happly, Bool.false_eq_true, if_false, hself, andThen_ok,
          Prod.mk.injEq] at h
        exact .inr (.inl ⟨h.2.symm, rfl, by simp [hadmitted], by simp [captured, happly], h.1.symm⟩)
      · have hcaptured : s.captured bytes cursor (some new) = (if changed then
            s.optimisticHistory.captureBefore bytes cursor s.reducer
            else s.optimisticHistory) := by
          cases changed with
          | false | true => simp [captured, happly]
        simp only [happly, hrecord, andThen_ok, Prod.mk.injEq] at h
        refine .inr (.inr ⟨new, data, changed, h.2.symm, rfl, rfl, hadmitted, heffect,
          hcaptured, ?_⟩)
        rw [hcaptured, ← h.1]
        cases changed with
        | false => rfl
        | true => rfl

/-- The two ways a head ends. -/
theorem applyHead_cases (h : s.applyHead cursor = (s', out)) :
    (∃ e, out = .error e ∧ (s' = s ∨ s' = s.markNotReady)) ∨
    ∃ reducer, out = .ok () ∧ s.reducer.observeHead cursor = (reducer, .ok ()) ∧ s' = { s with
        reducer := reducer
        optimisticHistory := match publishedAs reducer cursor with
          | none => s.optimisticHistory
          | some published => s.optimisticHistory.recordHeadIdentity published
        finalizedFloor := raiseFinalized s.finalizedFloor cursor } := by
  rw [applyHead] at h
  cases hfinal : s.validateFinalizedUpdate cursor with
  | error e =>
    simp only [hfinal, andThen_error, Prod.mk.injEq] at h
    exact .inl ⟨e, h.2.symm, .inl h.1.symm⟩
  | ok u =>
    simp only [hfinal, andThen_ok] at h
    rcases hobserve : s.reducer.observeHead cursor with ⟨reducer, result⟩
    cases result with
    | error e =>
      obtain rfl := observeHead_error hobserve
      simp only [hobserve, Prod.mk.injEq] at h
      exact .inl ⟨_, h.2.symm, .inr h.1.symm⟩
    | ok u' =>
      simp only [hobserve, recordFinalizedUpdate_of_valid hfinal, Prod.mk.injEq] at h
      exact .inr ⟨reducer, h.2.symm, rfl, h.1.symm⟩

theorem applyCoreUpdate_head (env : Platform) (bytes : ImageCost) (s : QuoteIndexer)
    (block : BlockRef) : s.applyCoreUpdate env bytes (.head block) = s.applyHead block.cursor := rfl

/-- The three ways a log ends: rejected, covered by the canonical floor, or decoded and applied. -/
theorem applyCoreUpdate_log_cases {log : ContractLog}
    (h : s.applyCoreUpdate env bytes (.log log) = (s', out)) :
    (∃ e, out = .error e ∧ (s' = s ∨ s' = s.markNotReady)) ∨
    (out = .ok () ∧ s.floorCovers log.cursor = .ok true ∧ s' = s) ∨
    ∃ event, out = .ok () ∧ s.floorCovers log.cursor = .ok false ∧ decodeLog env log = .ok event ∧
      s.applyDecodedLog bytes log.cursor event = (s', .ok ()) := by
  simp only [applyCoreUpdate, validateCoreUpdateIdentity, failClosed] at h
  cases hid : validateCoreLogIdentity log s.deployment.core s.deployment.chainId with
  | error e =>
    simp only [hid, onError_error, andThen_error, Prod.mk.injEq] at h
    exact .inl ⟨e, h.2.symm, .inr h.1.symm⟩
  | ok u =>
    simp only [hid, onError_ok, andThen_ok, applyValidatedCoreUpdate] at h
    split at h
    next hremoved =>
      simp only [applyValidatedUpdate, hremoved, if_true, Prod.mk.injEq] at h
      exact .inl ⟨_, h.2.symm, .inr h.1.symm⟩
    next hremoved =>
      cases hcovers : s.floorCovers log.cursor with
      | error e =>
        simp only [hcovers, andThen_error, Prod.mk.injEq] at h
        exact .inl ⟨e, h.2.symm, .inl h.1.symm⟩
      | ok covered =>
        cases covered with
        | true =>
          simp only [hcovers, andThen_ok, if_true, Prod.mk.injEq] at h
          exact .inr (.inl ⟨h.2.symm, rfl, h.1.symm⟩)
        | false =>
          simp only [hcovers, andThen_ok, Bool.false_eq_true, if_false] at h
          cases hdecode : decodeLog env log with
          | error e =>
            simp only [hdecode, andThen_error, Prod.mk.injEq] at h
            exact .inl ⟨e, h.2.symm, .inl h.1.symm⟩
          | ok event =>
            simp only [hdecode, andThen_ok, applyValidatedUpdate, hremoved,
              failClosed] at h
            cases out with
            | ok u' =>
              exact .inr (.inr ⟨event, rfl, rfl, rfl, onError_eq_ok.mp h⟩)
            | error e =>
              obtain ⟨s₁, hs₁, rfl⟩ := onError_eq_error.mp h
              rcases applyDecodedLog_cases hs₁ with
                ⟨-, -, rfl⟩ | ⟨hout, -⟩ | ⟨-, -, -, hout, -⟩
              · exact .inl ⟨e, rfl, .inr rfl⟩
              · cases hout
              · cases hout

/-- The three ways a correction ends: rejected, known already, or applied. -/
theorem applyCoreUpdate_correction_cases
    (h : s.applyCoreUpdate env bytes (.correction c) = (s', out)) :
    (∃ e e', out = .error e ∧ s' = s.markNotReady ∧ s.intoCorrectedCore env bytes c = .error e') ∨
    (∃ s₁, out = .ok () ∧ s.intoCorrectedCore env bytes c = .ok (s₁, false) ∧ s' = s) ∨
    (out = .ok () ∧ s.intoCorrectedCore env bytes c = .ok (s', true)) := by
  simp only [applyCoreUpdate, validateCoreUpdateIdentity, failClosed] at h
  cases hid : s.validateCorrectionForCore env c with
  | error e =>
    simp only [hid, onError_error, andThen_error, Prod.mk.injEq] at h
    refine .inl ⟨e, e, h.2.symm, h.1.symm, ?_⟩
    rw [intoCorrectedCore, hid, error_bind]
  | ok u =>
    simp only [hid, onError_ok, andThen_ok, applyValidatedCoreUpdate, dropResult,
      replaceWithCorrection] at h
    rcases hinto : s.intoCorrectedCore env bytes c with e | ⟨next, applied⟩
    · simp only [hinto, andThen_error, Prod.mk.injEq] at h
      exact .inl ⟨e, e, h.2.symm, h.1.symm, rfl⟩
    cases applied with
    | false =>
      simp only [hinto, andThen_ok, Prod.mk.injEq] at h
      exact .inr (.inl ⟨next, h.2.symm, rfl, h.1.symm⟩)
    | true =>
      simp only [hinto, andThen_ok, Prod.mk.injEq] at h
      exact .inr (.inr ⟨h.2.symm, by rw [h.1]⟩)

/-! ### An applied correction -/

theorem validate_of_forCore (h : s.validateCorrectionForCore env c = .ok ()) :
    c.validate env = .ok () := by
  obtain ⟨⟨⟩, hvalid, -⟩ := bind_eq_ok.mp h
  cases hc : c.validate env with
  | error e => simp [hc, Except.mapError] at hvalid
  | ok u => rfl

theorem intoCorrectedCore_eq_ok_true (h : s.intoCorrectedCore env bytes c = .ok (next, true)) :
    s.validateCorrectionForCore env c = .ok () ∧ s.replaceBranch env bytes c = .ok next := by
  obtain ⟨⟨⟩, hvalid, h⟩ := bind_eq_ok.mp h
  refine ⟨hvalid, ?_⟩
  split at h
  · exact absurd (congrArg Prod.snd (Except.ok.inj h)) (by simp)
  split at h
  · split at h
    · exact absurd (congrArg Prod.snd (Except.ok.inj h)) (by simp)
    · cases h
  · obtain ⟨next', hnext, h⟩ := bind_eq_ok.mp h
    rw [hnext, (Prod.mk.inj (Except.ok.inj h)).1]

theorem rewindTo_eq_ok {rewound : QuoteIndexer} (h : s.rewindTo c = .ok rewound) :
    ∃ restore, s.optimisticHistory.restorePoint c.commonAncestor c.oldBranch = .ok restore ∧
      rewound = { s with
        reducer := { restore.getD s.reducer with
          cursor := some c.commonAncestor.cursor, eventCursor := none, event := none }
        optimisticHistory := s.optimisticHistory.rewindAfter c.commonAncestor } := by
  obtain ⟨restore, hrestore, h⟩ := bind_eq_ok.mp h
  refine ⟨restore, hrestore, ?_⟩
  rw [rewindHead] at h
  split_ifs at h with hchain
  exact (Except.ok.inj h).symm

theorem finishCorrection_eq_ok (h : s.finishCorrection env c = .ok next) :
    next = { s with
      reducer := { s.reducer with cursor := some c.newTip.cursor }
      finalizedFloor := raiseFinalized s.finalizedFloor c.newTip.cursor
      lastCorrection := some ⟨c.fingerprint env, c.newTip.cursor⟩ } := by
  rw [finishCorrection] at h
  rcases hobserve : s.reducer.observeCorrectedHead c.newTip.cursor with ⟨reducer, result⟩
  cases result with
  | error e => simp [hobserve] at h
  | ok u =>
    obtain rfl := observeCorrectedHead_ok hobserve
    simp only [hobserve, recordFinalizedUpdate] at h
    split at h
    · cases h
    next hrecord =>
      split at hrecord
      · simp at hrecord
      simp only [Prod.mk.injEq] at hrecord
      rw [← hrecord.1] at h
      exact (Except.ok.inj h).symm

/-- The stages of a replay over one log and the rest. -/
theorem replayLogs_cons {log : ContractLog} {rest : List ContractLog}
    (h : s.replayLogs env bytes (log :: rest) = .ok s') :
    ∃ event s₁, decodeLog env log = .ok event ∧
      s.applyDecodedLog bytes log.cursor event = (s₁, .ok ()) ∧
      s₁.replayLogs env bytes rest = .ok s' := by
  obtain ⟨event, hdecode, h⟩ := bind_eq_ok.mp h
  rcases happly : s.applyDecodedLog bytes log.cursor event with ⟨s₁, out⟩
  cases out with
  | error e => simp [happly] at h
  | ok u =>
    simp only [happly] at h
    exact ⟨event, s₁, hdecode, happly, h⟩

/-- What an accepted log keeps, a replay keeps. -/
theorem replayLogs_invariant {P : QuoteIndexer → Prop} {logs : List ContractLog}
    (h : s.replayLogs env bytes logs = .ok s') (hs : P s)
    (hstep : ∀ log ∈ logs, ∀ event, decodeLog env log = .ok event → ∀ t t',
      t.applyDecodedLog bytes log.cursor event = (t', .ok ()) → P t → P t') : P s' := by
  induction logs generalizing s with
  | nil => exact Except.ok.inj h ▸ hs
  | cons log rest ih =>
    obtain ⟨event, s₁, hdecode, happly, h⟩ := replayLogs_cons h
    exact ih h (hstep log List.mem_cons_self event hdecode s s₁ happly hs)
      fun log' hlog' => hstep log' (List.mem_cons_of_mem _ hlog')

/-- The stages of an applied correction. -/
theorem replaceBranch_eq_ok (h : s.replaceBranch env bytes c = .ok next) :
    ∃ rewound replayed, s.validateCorrectionIdentity c = .ok () ∧ s.reducer.ready = true ∧
      s.rewindTo c = .ok rewound ∧
      (rewound.recordBranch c.newBranch).replayLogs env bytes c.replacementLogs = .ok replayed ∧
      replayed.finishCorrection env c = .ok next := by
  obtain ⟨⟨⟩, hidentity, h⟩ := bind_eq_ok.mp h
  obtain ⟨⟨⟩, -, h⟩ := bind_eq_ok.mp h
  obtain ⟨⟨⟩, hready, h⟩ := bind_eq_ok.mp h
  obtain ⟨rewound, hrewound, h⟩ := bind_eq_ok.mp h
  obtain ⟨replayed, hreplayed, h⟩ := bind_eq_ok.mp h
  refine ⟨rewound, replayed, hidentity, ?_, hrewound, hreplayed, h⟩
  by_contra hnot
  rw [if_neg hnot] at hready
  cases hready

/-- Logs touch neither the deployment nor the checkpoint. -/
theorem applyDecodedLog_serves {event : Option QuoteEvent}
    (h : s.applyDecodedLog bytes cursor event = (s', out)) :
    s'.deployment = s.deployment ∧ s'.stableCheckpoint = s.stableCheckpoint := by
  rcases applyDecodedLog_cases h with
    ⟨-, -, rfl⟩ | ⟨-, -, -, -, rfl⟩ | ⟨-, -, -, -, -, -, -, -, -, rfl⟩ <;> exact ⟨rfl, rfl⟩

/-- What an applied correction leaves behind. -/
theorem intoCorrectedCore_leaves (h : s.intoCorrectedCore env bytes c = .ok (next, true)) :
    next.deployment = s.deployment ∧ next.stableCheckpoint = s.stableCheckpoint ∧
      next.lastCorrection = some ⟨c.fingerprint env, c.newTip.cursor⟩ ∧
      next.reducer.cursor = some c.newTip.cursor := by
  obtain ⟨-, h⟩ := intoCorrectedCore_eq_ok_true h
  obtain ⟨rewound, replayed, -, -, hrewound, hreplayed, hfinish⟩ := replaceBranch_eq_ok h
  obtain ⟨restore, -, rfl⟩ := rewindTo_eq_ok hrewound
  obtain rfl := finishCorrection_eq_ok hfinish
  have hserves := replayLogs_invariant (P := fun t => t.deployment = s.deployment ∧
      t.stableCheckpoint = s.stableCheckpoint) hreplayed ⟨rfl, rfl⟩ fun _ _ _ _ t t' happly ht =>
    ⟨(applyDecodedLog_serves happly).1.trans ht.1, (applyDecodedLog_serves happly).2.trans ht.2⟩
  exact ⟨hserves.1, hserves.2, rfl, rfl⟩

/-! ### Snapshots and covered corrections -/

variable {t : QuoteIndexer}

/-- What an installed snapshot leaves behind. -/
theorem installSnapshot_eq_ok {snapshot : BootstrapSnapshot}
    (h : s.installSnapshot snapshot = (t, .ok ())) :
    t = { s with
      reducer := (QuoteReducer.new snapshot.state s.deployment.feeClass snapshot.verifiedRouter
        ).bootstrap snapshot.cursor
      finalizedFloor := raiseFinalized s.finalizedFloor snapshot.cursor
      canonicalFloor := some snapshot.cursor
      stableCheckpoint := ((QuoteReducer.new snapshot.state s.deployment.feeClass
        snapshot.verifiedRouter).bootstrap snapshot.cursor).checkpoint s.deployment
      optimisticHistory := s.optimisticHistory.reset snapshot.cursor
      lastCorrection :=
        s.lastCorrection.filter fun applied =>
          snapshotSurelyCovers applied.tip snapshot.cursor } := by
  obtain ⟨installed, ⟨⟩, hrecord, h⟩ := andThen_eq_ok.mp h
  rw [recordFinalizedUpdate] at hrecord
  split at hrecord
  · simp at hrecord
  simp only [Prod.mk.injEq, and_true] at hrecord h
  subst hrecord
  exact h.symm

/-- The three ways a covered correction ends: in conflict with the mark, passed over, or
remembered above every tip that is marked. -/
theorem observeCoveredCorrection_cases (h : s.observeCoveredCorrection env c = (t, out)) :
    (∃ e, out = .error e ∧ t = s) ∨ (out = .ok () ∧ t = s) ∨
    (out = .ok () ∧ t = { s with lastCorrection := some ⟨c.fingerprint env, c.newTip.cursor⟩ } ∧
      ∀ applied, s.lastCorrection = some applied →
        applied.tip.blockNumber < c.newTip.cursor.blockNumber) := by
  rw [observeCoveredCorrection] at h
  cases hlast : s.lastCorrection with
  | none =>
    simp only [hlast, Prod.mk.injEq] at h
    exact .inr (.inr ⟨h.2.symm, h.1.symm, by simp⟩)
  | some applied =>
    simp only [hlast] at h
    split_ifs at h with hbelow hsame hfingerprint <;> simp only [Prod.mk.injEq] at h
    · exact .inr (.inl ⟨h.2.symm, h.1.symm⟩)
    · exact .inl ⟨_, h.2.symm, h.1.symm⟩
    · exact .inr (.inl ⟨h.2.symm, h.1.symm⟩)
    refine .inr (.inr ⟨h.2.symm, h.1.symm, ?_⟩)
    rintro _ ⟨⟩
    exact lt_of_le_of_ne (not_lt.mp hbelow) (Ne.symm hsame)

end QuoteIndexer

end Lunarbase.Client
