import Lunarbase.Client.Rollback

/-!
# Client — FailClosed

When a call that processes updates fails, the reducer should not be ready any more: no state and
no quote may be read until a bootstrap or a handoff publishes one.

Most failures revoke readiness on their way out.  Those that return early with `?` do not, and they
are the ones this module names: `unmarkedFailure` for one update, `unmarkedInBatch` for an update of
a handoff or of a bootstrap's buffer.  `update_errors_fail_closed` says that a call fails closed
exactly when it meets none of them.
-/

namespace Lunarbase.Client

open Effect (andThen onError FailsIn forEach failsIn_andThen failsIn_onError failsIn_forEach)
open Except Effect

def Ready (s : QuoteIndexer) : Prop := s.reducer.ready = true

theorem not_ready_markNotReady (s : QuoteIndexer) : ¬ Ready s.markNotReady := Bool.false_ne_true

variable {α : Type} {s : QuoteIndexer}

namespace QuoteIndexer

/-- The call failed and left a ready indexer. -/
def FailsOpen {α : Type} (out : Transition α) : Prop := FailsIn Ready out

theorem not_failsOpen_failClosed (out : Transition α) : ¬ FailsOpen (failClosed out) := by
  rw [FailsOpen, failClosed, failsIn_onError]
  rintro ⟨s, -, -, hready⟩
  exact not_ready_markNotReady s hready

/-- What cannot fail itself adds no failure to the call before it. -/
theorem failsOpen_andThen_ok {α β : Type} (out : Transition α)
    (f : QuoteIndexer → α → QuoteIndexer) (g : QuoteIndexer → α → β) :
    FailsOpen (andThen out fun s a => (f s a, .ok (g s a))) ↔ FailsOpen out := by
  rw [FailsOpen, failsIn_andThen]
  constructor
  · rintro (hout | ⟨s, a, -, hnext⟩)
    · exact hout
    · exact absurd hnext (failsIn_ok _ _ _)
  · exact .inl

theorem failsOpen_dropResult (out : Transition α) : FailsOpen (dropResult out) ↔ FailsOpen out :=
  failsOpen_andThen_ok out (fun s _ => s) fun _ _ => ()

/-- A call that closes the indexer when it fails: only what follows can fail open. -/
theorem failsOpen_closed_andThen {α β : Type} (out : Transition α)
    (next : QuoteIndexer → α → Transition β) :
    FailsOpen (andThen (failClosed out) next) ↔ ∃ s a, out = (s, .ok a) ∧ FailsOpen (next s a) := by
  rw [FailsOpen, failsIn_andThen]
  constructor
  · rintro (hout | ⟨s, a, hok, hnext⟩)
    · exact absurd hout (not_failsOpen_failClosed out)
    · exact ⟨s, a, onError_eq_ok.mp hok, hnext⟩
  · rintro ⟨s, a, hok, hnext⟩
    exact .inr ⟨s, a, onError_eq_ok.mpr hok, hnext⟩

/-! ### One update -/

/-- The check of `validate_core_update_identity`. -/
def identityCheck (env : Platform) (s : QuoteIndexer) : ChainUpdate → Except IndexerError Unit
  | .log log => validateCoreLogIdentity log s.deployment.core s.deployment.chainId
  | .correction c => s.validateCorrectionForCore env c
  | .head _ | .reorg _ _ | .gap _ _ => .ok ()

section

variable (env : Platform) (bytes : ImageCost) (start : ChainCursor) (s : QuoteIndexer)
  (update : ChainUpdate)

theorem validateCoreUpdateIdentity_eq :
    s.validateCoreUpdateIdentity env update = failClosed (s, s.identityCheck env update) := by
  cases update with
  | log log => rfl
  | head block => rfl
  | correction c => rfl
  | reorg oldHead newHead => rfl
  | gap cursor reason => rfl

/-- A log that conflicts with the canonical floor, or is not covered by it and does not decode. -/
def unmarkedLog (env : Platform) (s : QuoteIndexer) (log : ContractLog) : Bool :=
  !log.removed && match s.floorCovers log.cursor with
    | .error _ => true
    | .ok true => false
    | .ok false => !(decodeLog env log).isOk

/-- The failures of one update that return before `mark_not_ready`: a finalized head that the
finalized check rejects, and a log of the right core whose coverage or payload cannot be read. -/
def unmarkedFailure (env : Platform) (s : QuoteIndexer) : ChainUpdate → Bool
  | .head block => !(s.validateFinalizedUpdate block.cursor).isOk
  | .log log =>
    (validateCoreLogIdentity log s.deployment.core s.deployment.chainId).isOk &&
      s.unmarkedLog env log
  | .correction _ | .reorg _ _ | .gap _ _ => false

@[simp] theorem isOk_ok (a : α) : (.ok a : Except IndexerError α).isOk = true := rfl

@[simp] theorem isOk_error (e : IndexerError) :
    (.error e : Except IndexerError α).isOk = false := rfl

theorem failsOpen_applyHead (cursor : ChainCursor) :
    FailsOpen (s.applyHead cursor) ↔ Ready s ∧ (s.validateFinalizedUpdate cursor).isOk = false := by
  rw [applyHead]
  cases hfinal : s.validateFinalizedUpdate cursor with
  | error e => simp [FailsOpen]
  | ok u =>
    rcases hobserve : s.reducer.observeHead cursor with ⟨reducer, result⟩
    cases result with
    | error e => simp [FailsOpen, hobserve, not_ready_markNotReady]
    | ok u' =>
      -- the finalized check was passed already, so that recording it cannot fail
      simp [FailsOpen, hobserve, recordFinalizedUpdate_of_valid hfinal]

theorem failsOpen_applyCoreLogBorrowedValidated (log : ContractLog) :
    FailsOpen (s.applyCoreLogBorrowedValidated env bytes log) ↔
      Ready s ∧ s.unmarkedLog env log = true := by
  rw [applyCoreLogBorrowedValidated, unmarkedLog]
  cases hremoved : log.removed with
  | true => simp [FailsOpen, not_ready_markNotReady]
  | false =>
    rcases s.floorCovers log.cursor with e | covered
    · simp [FailsOpen]
    cases covered with
    | true => simp [FailsOpen]
    | false =>
      cases decodeLog env log with
      | error e => simp [FailsOpen]
      | ok event =>
        simp only [Bool.false_eq_true, if_false, andThen_ok, failsOpen_closed_andThen]
        simp [FailsOpen]

theorem not_failsOpen_replaceWithCorrection (c : ChainCorrection) :
    ¬ FailsOpen (s.replaceWithCorrection env bytes c) := by
  rw [replaceWithCorrection]
  rcases s.intoCorrectedCore env bytes c with e | ⟨next, applied⟩
  · simp [FailsOpen, not_ready_markNotReady]
  cases applied with
  | true | false => simp [FailsOpen]

/-- What the owned entry point does with a log is what the borrowed one does. -/
theorem applyValidatedCoreUpdate_log (log : ContractLog) :
    s.applyValidatedCoreUpdate env bytes (.log log) =
      dropResult (s.applyCoreLogBorrowedValidated env bytes log) := by
  rw [applyValidatedCoreUpdate, applyCoreLogBorrowedValidated, dropResult]
  cases hremoved : log.removed with
  | true => simp [applyValidatedUpdate, hremoved]
  | false =>
    rcases s.floorCovers log.cursor with e | covered
    · simp
    cases covered with
    | true => simp
    | false =>
      cases decodeLog env log with
      | error e => simp
      | ok event =>
        rcases happly : s.applyDecodedLog bytes log.cursor event with ⟨s', result⟩
        cases result with
        | error e | ok u => simp [applyValidatedUpdate, hremoved, failClosed, happly]

theorem applyCoreUpdateBorrowed_eq :
    s.applyCoreUpdateBorrowed env bytes update = s.applyCoreUpdate env bytes update := by
  rw [applyCoreUpdateBorrowed, applyCoreUpdate]
  cases update with
  | log log => simp only [applyValidatedCoreUpdate_log]
  | head block => rfl
  | correction c => rfl
  | reorg oldHead newHead => rfl
  | gap cursor reason => rfl

theorem applyCoreLogBorrowed_eq (log : ContractLog) :
    dropResult (s.applyCoreLogBorrowed env bytes log) = s.applyCoreUpdate env bytes (.log log) := by
  rw [applyCoreLogBorrowed, applyCoreUpdate, validateCoreUpdateIdentity_eq, dropResult,
    andThen_assoc]
  simp only [applyValidatedCoreUpdate_log]
  rfl

/-- **One update fails open exactly in an unmarked failure.** -/
theorem failsOpen_applyCoreUpdate :
    FailsOpen (s.applyCoreUpdate env bytes update) ↔
      Ready s ∧ s.unmarkedFailure env update = true := by
  rw [applyCoreUpdate, validateCoreUpdateIdentity_eq, failsOpen_closed_andThen]
  cases update with
  | log log =>
    simp only [identityCheck, applyValidatedCoreUpdate_log, failsOpen_dropResult,
      failsOpen_applyCoreLogBorrowedValidated, unmarkedFailure]
    cases validateCoreLogIdentity log s.deployment.core s.deployment.chainId with
    | error e | ok u => simp
  | head block =>
    simp [identityCheck, applyValidatedCoreUpdate, applyValidatedUpdate, failsOpen_applyHead,
      unmarkedFailure]
  | correction c =>
    simp only [applyValidatedCoreUpdate, failsOpen_dropResult, unmarkedFailure,
      not_failsOpen_replaceWithCorrection, and_false, exists_false, Bool.false_eq_true]
  | reorg oldHead newHead | gap cursor reason =>
    simp [applyValidatedCoreUpdate, applyValidatedUpdate, unmarkedFailure, FailsOpen,
      not_ready_markNotReady]

/-! ### A batch -/

def foreignChain (start : ChainCursor) (update : ChainUpdate) : Bool :=
  (updateCursor update).any fun cursor => decide (cursor.chainId ≠ start.chainId)

/-- The update is at the height where the batch starts and cannot be compared with it. -/
def coverageConflict (start : ChainCursor) (update : ChainUpdate) : Bool :=
  (updateCursor update).any fun cursor => !(snapshotCovers cursor start).isOk

/-- The batch starts from a position that represents the update already. -/
def representedBy (start : ChainCursor) (update : ChainUpdate) : Bool :=
  (updateCursor update).any fun cursor => snapshotSurelyCovers cursor start

/-- A represented correction at the tip of the last applied one, with another content. -/
def retainedConflict (env : Platform) (s : QuoteIndexer) : ChainUpdate → Bool
  | .correction c =>
    s.lastCorrection.any fun applied =>
      decide (c.newTip.cursor.blockNumber = applied.tip.blockNumber) &&
        decide (applied.fingerprint ≠ c.fingerprint env)
  | _ => false

/-- The failures of an update of a batch that return before `mark_not_ready`.  Only the bootstrap
closes the indexer when the update itself is rejected (`closes`). -/
def unmarkedInBatch (env : Platform) (start : ChainCursor) (closes : Bool) (s : QuoteIndexer)
    (update : ChainUpdate) : Bool :=
  (s.identityCheck env update).isOk && !foreignChain start update &&
    (coverageConflict start update ||
      if representedBy start update then s.retainedConflict env update
      else !closes && s.unmarkedFailure env update)

theorem failsOpen_skipCovered :
    FailsOpen (s.skipCovered env update) ↔ Ready s ∧ s.retainedConflict env update = true := by
  cases update with
  | correction c =>
    rw [skipCovered, observeCoveredCorrection, retainedConflict]
    cases s.lastCorrection with
    | none => simp [FailsOpen]
    | some applied =>
      dsimp only
      split_ifs with hbelow hsame hother
      · simp [FailsOpen, hbelow.ne]
      · simp [FailsOpen, hsame, hother]
      · simp [FailsOpen, hother]
      · simp [FailsOpen, hsame]
  | log log | head block => simp [skipCovered, retainedConflict, FailsOpen]
  | reorg oldHead newHead | gap cursor reason => simp [skipCovered, retainedConflict, FailsOpen]

/-- The comparison with the start of the batch: a foreign chain closes the indexer, a conflict does
not. -/
theorem failsOpen_coveredByStart (next : QuoteIndexer → Bool → Transition α) :
    FailsOpen (andThen (s.coveredByStart start update) next) ↔ foreignChain start update = false ∧
        if coverageConflict start update then Ready s
        else FailsOpen (next s (representedBy start update)) := by
  rw [coveredByStart, foreignChain, coverageConflict, representedBy]
  cases updateCursor update with
  | none => simp
  | some cursor =>
    by_cases hforeign : cursor.chainId = start.chainId
    · cases hcovers : snapshotCovers cursor start with
      | error e => simp [hforeign, hcovers, FailsOpen]
      | ok covered => simp [hforeign, hcovers, snapshotSurelyCovers]
    · simp [hforeign, FailsOpen, not_ready_markNotReady]

theorem failsOpen_withNotice :
    FailsOpen (s.applyValidatedCoreUpdateBorrowedWithNotice env bytes update) ↔
      Ready s ∧ s.unmarkedFailure env update = true := by
  rw [← failsOpen_applyCoreUpdate env bytes]
  cases update with
  | correction c =>
    rw [failsOpen_applyCoreUpdate, applyValidatedCoreUpdateBorrowedWithNotice, failsOpen_andThen_ok]
    simp [not_failsOpen_replaceWithCorrection, unmarkedFailure]
  | log log | head block | reorg oldHead newHead | gap cursor reason =>
    rw [applyValidatedCoreUpdateBorrowedWithNotice, failsOpen_andThen_ok,
      applyCoreUpdateBorrowed_eq]
    simp

/-- One update of a handoff. -/
def handoffStep (env : Platform) (bytes : ImageCost) (start : ChainCursor)
    (s : QuoteIndexer) (update : ChainUpdate) : Transition PUnit :=
  andThen (s.validateCoreUpdateIdentity env update) fun s _ =>
  andThen (s.coveredByStart start update) fun s covered =>
  if covered then s.skipCovered env update
  else dropResult (s.applyValidatedCoreUpdateBorrowedWithNotice env bytes update)

/-- One update of a bootstrap's buffer, without the notice. -/
def bootstrapStep (env : Platform) (bytes : ImageCost) (start : ChainCursor)
    (s : QuoteIndexer) (update : ChainUpdate) : Transition PUnit :=
  andThen (s.validateCoreUpdateIdentity env update) fun s _ =>
  andThen (s.coveredByStart start update) fun s covered =>
  if covered then s.skipCovered env update
  else dropResult (failClosed (s.applyValidatedCoreUpdateBorrowedWithNotice env bytes update))

/-- The frame both batches share, around what they do with an update that is news. -/
theorem failsOpen_framed (news : QuoteIndexer → Transition PUnit) (unmarked : Bool)
    (hnews : FailsOpen (news s) ↔ Ready s ∧ unmarked = true) :
    FailsOpen (andThen (s.validateCoreUpdateIdentity env update) fun s _ =>
        andThen (s.coveredByStart start update) fun s covered =>
        if covered then s.skipCovered env update else news s) ↔
      Ready s ∧ ((s.identityCheck env update).isOk && !foreignChain start update &&
        (coverageConflict start update ||
          if representedBy start update then s.retainedConflict env update else unmarked)) =
            true := by
  rw [validateCoreUpdateIdentity_eq, failsOpen_closed_andThen]
  cases s.identityCheck env update with
  | error e => simp
  | ok u =>
    simp only [Prod.mk.injEq, failsOpen_coveredByStart]
    cases coverageConflict start update with
    | true => simp [and_comm]
    | false =>
      cases representedBy start update with
      | true => simp [failsOpen_skipCovered, and_left_comm]
      | false => simp [hnews, and_left_comm]

theorem failsOpen_handoffStep :
    FailsOpen (handoffStep env bytes start s update) ↔
      Ready s ∧ unmarkedInBatch env start false s update = true := by
  refine failsOpen_framed env start s update _ (!false && s.unmarkedFailure env update) ?_
  rw [failsOpen_dropResult, failsOpen_withNotice, Bool.not_false, Bool.true_and]

theorem failsOpen_bootstrapStep :
    FailsOpen (bootstrapStep env bytes start s update) ↔
      Ready s ∧ unmarkedInBatch env start true s update = true := by
  refine failsOpen_framed env start s update _ (!true && s.unmarkedFailure env update) ?_
  rw [failsOpen_dropResult, Bool.not_true, Bool.false_and]
  simp [not_failsOpen_failClosed]

theorem handoffLoop_eq (updates : List ChainUpdate) :
    s.handoffLoop env bytes start updates =
      andThen (forEach (handoffStep env bytes start) s updates) fun s _ =>
        (s.publishReady, .ok ()) := by
  induction updates generalizing s with
  | nil => rfl
  | cons update rest ih =>
    rw [handoffLoop, forEach, handoffStep]
    simp only [andThen_assoc, ih]

theorem bootstrapLoop_eq (notices : List CorrectionNotice) (updates : List ChainUpdate) :
    dropResult (s.bootstrapLoop env bytes start notices updates) =
      andThen (forEach (bootstrapStep env bytes start) s updates) fun s _ =>
        (s.publishReady, .ok ()) := by
  induction updates generalizing s notices with
  | nil => rfl
  | cons update rest ih =>
    simp only [dropResult] at ih
    rw [bootstrapLoop, forEach, bootstrapStep]
    simp only [dropResult, andThen_assoc, ih]
    congr
    funext s' _
    congr
    funext s'' covered
    cases covered with
    | true | false => simp [andThen_assoc]

end

/-- Some update of the batch meets an unmarked failure in the state the updates before it lead
to. -/
def BatchMeets (step : QuoteIndexer → ChainUpdate → Transition PUnit)
    (unmarked : QuoteIndexer → ChainUpdate → Bool) (s : QuoteIndexer)
    (updates : List ChainUpdate) : Prop :=
  ∃ done update rest t, updates = done ++ update :: rest ∧ forEach step s done = (t, .ok ⟨⟩) ∧
    Ready t ∧ unmarked t update = true

theorem failsOpen_forEach {step : QuoteIndexer → ChainUpdate → Transition PUnit}
    {unmarked : QuoteIndexer → ChainUpdate → Bool}
    (hstep : ∀ s update, FailsOpen (step s update) ↔ Ready s ∧ unmarked s update = true)
    (s : QuoteIndexer) (updates : List ChainUpdate) :
    FailsOpen (forEach step s updates) ↔ BatchMeets step unmarked s updates := by
  rw [FailsOpen, failsIn_forEach, BatchMeets]
  refine exists_congr fun done => exists_congr fun update => exists_congr fun rest =>
    exists_congr fun t => and_congr_right fun _ => and_congr_right fun _ => hstep t update

/-! ### Calls -/

/-- A snapshot that passed its checks is installed, and published as ready before the buffered
updates are looked at. -/
theorem installSnapshot_of_valid {snapshot : BootstrapSnapshot}
    (h : s.validateSnapshot snapshot = .ok ()) :
    ∃ installed, s.installSnapshot snapshot = (installed, .ok ()) ∧ Ready installed := by
  have hfinal : s.validateFinalizedUpdate snapshot.cursor = .ok () := by
    obtain ⟨⟨⟩, -, h⟩ := bind_eq_ok.mp h
    obtain ⟨⟨⟩, -, h⟩ := bind_eq_ok.mp h
    obtain ⟨⟨⟩, hfinal, -⟩ := bind_eq_ok.mp h
    exact hfinal
  -- the finalized floor is the one the check was made against
  have hrecord := fun reducer => recordFinalizedUpdate_of_valid hfinal reducer s.optimisticHistory
  rw [installSnapshot, hrecord]
  exact ⟨_, rfl, rfl⟩

/-- A ready indexer stops being so, and stays that way, unless it is bootstrapped or handed off to
again. -/
theorem not_ready_applyCoreUpdate {env : Platform} {bytes : ImageCost} {s : QuoteIndexer}
    (h : ¬ Ready s) (update : ChainUpdate) : ¬ Ready (s.applyCoreUpdate env bytes update).1 := by
  rcases hstep : s.applyCoreUpdate env bytes update with ⟨s', out⟩
  cases update with
  | log log =>
    rcases applyCoreUpdate_log_cases hstep with
      ⟨e, -, rfl | rfl⟩ | ⟨-, -, rfl⟩ | ⟨event, -, -, -, happly⟩
    · exact h
    · exact not_ready_markNotReady s
    · exact h
    rcases applyDecodedLog_cases happly with
      ⟨e, hout, -⟩ | ⟨-, -, -, -, rfl⟩ | ⟨new, data, changed, -, -, -, -, -, -, rfl⟩
    · cases hout
    · exact h
    · exact h
  | head block =>
    rcases applyHead_cases hstep with ⟨e, -, rfl | rfl⟩ | ⟨reducer, -, hobserve, rfl⟩
    · exact h
    · exact not_ready_markNotReady s
    obtain ⟨cursor, rfl⟩ := QuoteReducer.observeHead_ok hobserve
    exact h
  | correction c =>
    rcases applyCoreUpdate_correction_cases hstep with
      ⟨e, e', -, rfl, -⟩ | ⟨s₁, -, -, rfl⟩ | ⟨-, hinto⟩
    · exact not_ready_markNotReady s
    · exact h
    -- a correction is applied to a ready indexer only
    obtain ⟨rewound, replayed, -, hready, -⟩ :=
      replaceBranch_eq_ok (intoCorrectedCore_eq_ok_true hinto).2
    exact absurd hready h
  | reorg oldHead newHead | gap cursor reason =>
    cases hstep
    exact not_ready_markNotReady s

/-- Nothing can be read: not the state, not a quote, not a batch of quotes of the accepted size. -/
def Closed (s : QuoteIndexer) : Prop :=
  s.state = .error .notReady ∧ (∀ request, s.quote request = .error .notReady) ∧
    ∀ requests, requests.length ≤ maxBatchQuotes → s.quoteMany requests = .error .notReady

theorem closed_iff (s : QuoteIndexer) : s.Closed ↔ ¬ Ready s := by
  constructor
  · rintro ⟨hstate, -⟩ hready
    have hok : s.state = .ok s.reducer.data.state := if_pos hready
    exact absurd (hok.symm.trans hstate) (by simp)
  intro h
  have hstate : s.state = .error .notReady := if_neg h
  have hprepare : s.prepareSnapshot = .error .notReady := by
    rw [prepareSnapshot, hstate, error_bind]
  refine ⟨hstate, fun request => ?_, fun requests hlength => ?_⟩
  · rw [quote, hprepare, error_bind]
  · rw [quoteMany, prepareQuoteMany, if_neg (Nat.not_lt.mpr hlength), hprepare, error_bind]

/-- The call does not fail, or nothing can be read from then on, whatever single updates follow. -/
def FailsClosed {α : Type} (env : Platform) (out : Transition α) : Prop :=
  ∀ s e, out = (s, .error e) → ∀ t,
    Run (fun s (d : Delivery) => (s.applyCoreUpdate env d.bytes d.update).1) (fun _ _ => True) s t →
      t.Closed

theorem failsClosed_iff (env : Platform) (out : Transition α) :
    FailsClosed env out ↔ ¬ FailsOpen out := by
  constructor
  · rintro hclosed ⟨s, e, hout, hready⟩
    exact (closed_iff s).mp (hclosed s e hout s .refl) hready
  intro hopen s e hout t hrun
  have hs : ¬ Ready s := fun hready => hopen ⟨s, e, hout, hready⟩
  have ht : ¬ Ready t := hrun.invariant (P := fun s => ¬ Ready s) hs
    fun _ d h _ => not_ready_applyCoreUpdate h d.update
  exact (closed_iff t).mpr ht

end QuoteIndexer

/-- The calls that process updates. -/
inductive Call
  | applyCoreUpdate (update : ChainUpdate)
  | applyCoreUpdateBorrowed (update : ChainUpdate)
  | applyCoreLogBorrowed (log : ContractLog)
  | applyHandoff (buffered : List ChainUpdate)
  | applyHandoffBorrowedOrdered (buffered : List ChainUpdate)
  | bootstrapNormalized (snapshot : BootstrapSnapshot) (buffered : List ChainUpdate)

namespace Call

open QuoteIndexer

def perform (env : Platform) (bytes : ImageCost) (s : QuoteIndexer) :
    Call → Transition Unit
  | .applyCoreUpdate update => s.applyCoreUpdate env bytes update
  | .applyCoreUpdateBorrowed update => s.applyCoreUpdateBorrowed env bytes update
  | .applyCoreLogBorrowed log => dropResult (s.applyCoreLogBorrowed env bytes log)
  | .applyHandoff buffered => s.applyHandoff env bytes buffered
  | .applyHandoffBorrowedOrdered buffered => s.applyHandoffBorrowedOrdered env bytes buffered
  | .bootstrapNormalized snapshot buffered => s.bootstrapNormalized env bytes snapshot buffered

/-- The call gets to its updates.  A bootstrap does once its snapshot has passed the checks, a
handoff when there is a position to start from. -/
def Started (s : QuoteIndexer) : Call → Prop
  | .bootstrapNormalized snapshot _ => s.validateSnapshot snapshot = .ok ()
  | .applyHandoff _ | .applyHandoffBorrowedOrdered _ => s.reducer.cursor ≠ none
  | _ => True

instance (s : QuoteIndexer) (call : Call) : Decidable (call.Started s) :=
  match call with
  | .bootstrapNormalized snapshot _ => inferInstanceAs (Decidable (s.validateSnapshot snapshot = _))
  | .applyHandoff _ => inferInstanceAs (Decidable (s.reducer.cursor ≠ none))
  | .applyHandoffBorrowedOrdered _ => inferInstanceAs (Decidable (s.reducer.cursor ≠ none))
  | .applyCoreUpdate _ => inferInstanceAs (Decidable True)
  | .applyCoreUpdateBorrowed _ => inferInstanceAs (Decidable True)
  | .applyCoreLogBorrowed _ => inferInstanceAs (Decidable True)

def handoffMeets (env : Platform) (bytes : ImageCost) (s : QuoteIndexer)
    (buffered : List ChainUpdate) : Prop :=
  ∃ start, s.reducer.cursor = some start ∧
    BatchMeets (handoffStep env bytes start) (unmarkedInBatch env start false) s buffered

/-- The call meets a failure that returns before `mark_not_ready`. -/
def MeetsUnmarked (env : Platform) (bytes : ImageCost) (s : QuoteIndexer) :
    Call → Prop
  | .applyCoreUpdate update | .applyCoreUpdateBorrowed update => s.unmarkedFailure env update = true
  | .applyCoreLogBorrowed log => s.unmarkedFailure env (.log log) = true
  | .applyHandoff buffered => handoffMeets env bytes s (sortChainUpdates buffered)
  | .applyHandoffBorrowedOrdered buffered => handoffMeets env bytes s buffered
  | .bootstrapNormalized snapshot buffered =>
    BatchMeets (bootstrapStep env bytes snapshot.cursor)
      (unmarkedInBatch env snapshot.cursor true) (s.installSnapshot snapshot).1
      (sortChainUpdates buffered)

theorem failsOpen_handoff (hcursor : s.reducer.cursor ≠ none) (env : Platform)
    (bytes : ImageCost) (buffered : List ChainUpdate) :
    FailsOpen (s.applyHandoffBorrowedOrdered env bytes buffered) ↔
      handoffMeets env bytes s buffered := by
  rw [QuoteIndexer.applyHandoffBorrowedOrdered, handoffMeets]
  cases hstart : s.reducer.cursor with
  | none => exact absurd hstart hcursor
  | some start =>
    simp only [handoffLoop_eq, failsOpen_andThen_ok, Option.some.injEq, exists_eq_left']
    exact failsOpen_forEach (failsOpen_handoffStep env bytes start) s buffered

theorem failsOpen_perform (hready : Ready s) {call : Call}
    (hstarted : call.Started s) (env : Platform) (bytes : ImageCost) :
    FailsOpen (call.perform env bytes s) ↔ call.MeetsUnmarked env bytes s := by
  cases call with
  | applyCoreUpdate update =>
    rw [perform, failsOpen_applyCoreUpdate, MeetsUnmarked, and_iff_right hready]
  | applyCoreUpdateBorrowed update =>
    rw [perform, applyCoreUpdateBorrowed_eq, failsOpen_applyCoreUpdate, MeetsUnmarked,
      and_iff_right hready]
  | applyCoreLogBorrowed log =>
    rw [perform, applyCoreLogBorrowed_eq, failsOpen_applyCoreUpdate, MeetsUnmarked,
      and_iff_right hready]
  | applyHandoff buffered => exact failsOpen_handoff hstarted env bytes _
  | applyHandoffBorrowedOrdered buffered => exact failsOpen_handoff hstarted env bytes _
  | bootstrapNormalized snapshot buffered =>
    have hvalid : s.validateSnapshot snapshot = .ok () := hstarted
    obtain ⟨installed, hinstall, -⟩ := installSnapshot_of_valid hvalid
    rw [perform, QuoteIndexer.bootstrapNormalized, bootstrapNormalizedOrdered, hvalid,
      andThen_ok, hinstall, andThen_ok, bootstrapLoop_eq, failsOpen_andThen_ok,
      MeetsUnmarked, hinstall]
    exact failsOpen_forEach (failsOpen_bootstrapStep env bytes snapshot.cursor) _ _

end Call

/-- **A call that fails closes the indexer, exactly when it meets no unmarked failure.** -/
theorem update_errors_fail_closed {env : Platform} {bytes : ImageCost}
    {s : QuoteIndexer} {call : Call} (hready : Ready s) (hstarted : call.Started s) :
    QuoteIndexer.FailsClosed env (call.perform env bytes s) ↔ ¬ call.MeetsUnmarked env bytes s := by
  rw [QuoteIndexer.failsClosed_iff, Call.failsOpen_perform hready hstarted]

def removedLog : ContractLog := { multiplierLog 5 0xb5 20000 with removed := true }

theorem update_errors_fail_closed_removed_log :
    (smallStart.applyCoreUpdate referencePlatform freeImages (.log removedLog)).2 =
        .error (.reducer .removedLog) ∧
      QuoteIndexer.FailsClosed referencePlatform
        ((Call.applyCoreUpdate (.log removedLog)).perform referencePlatform freeImages
          smallStart) := by
  have hready : smallStart.reducer.ready = true := by decide +kernel
  have hmarked : ¬ smallStart.unmarkedFailure referencePlatform (.log removedLog) = true := by
    decide +kernel
  exact ⟨by decide +kernel, (update_errors_fail_closed hready (by decide +kernel)).mpr hmarked⟩

/-! ### Failures that leave the indexer ready -/

def leavesReady {α : Type} (out : Transition α) : Bool :=
  match out with
  | (s, .error _) => s.reducer.ready
  | (_, .ok _) => false

theorem failsOpen_of_leavesReady {out : Transition α}
    (h : leavesReady out = true) : QuoteIndexer.FailsOpen out := by
  obtain ⟨s, r⟩ := out
  cases r with
  | ok a => exact absurd h (by simp [leavesReady])
  | error e => exact ⟨s, e, rfl, h⟩

def finalizedHead (hash : B256) : ChainUpdate :=
  .head ⟨{ blockAt 1 hash with commitment := .finalized }, some 0xb0⟩

def hashlessHead (number : Nat) : ChainUpdate :=
  .head ⟨{ blockAt number 0 with blockHash := none }, none⟩

/-- A finalized head of another hash, a log whose payload does not decode, a log of the snapshot's
height without a hash, and a handoff and a bootstrap that find such a head in their buffer. -/
def openCalls : List Call :=
  [.applyCoreUpdate (finalizedHead 0xc1),
    .applyCoreUpdate (.log { multiplierLog 5 0xb5 20000 with data := [] }),
    .applyCoreLogBorrowed
      { multiplierLog 0 0 20000 with cursor := { blockAt 0 0 with blockHash := none } },
    .applyHandoff [hashlessHead 1],
    .bootstrapNormalized { smallSnapshot with cursor := blockAt 2 0xb2 } [hashlessHead 2]]

/-- **Failures that stay open.**  After a bootstrap and the finalized head 1, each of these calls
fails and leaves the indexer ready. -/
theorem failed_update_leaves_ready :
    ∃ (fresh start s : QuoteIndexer),
      fresh.bootstrap referencePlatform freeImages smallSnapshot = (start, .ok ()) ∧
      start.applyCoreUpdate referencePlatform freeImages (finalizedHead 0xb1) = (s, .ok ()) ∧
      Ready s ∧ ∀ call ∈ openCalls, call.Started s ∧
        ¬ QuoteIndexer.FailsClosed referencePlatform
          (call.perform referencePlatform freeImages s) := by
  have hready : (smallStart.applyCoreUpdate referencePlatform freeImages
      (finalizedHead 0xb1)).1.reducer.ready = true := by decide +kernel
  have hcalls : ∀ call ∈ openCalls,
      call.Started (smallStart.applyCoreUpdate referencePlatform freeImages
        (finalizedHead 0xb1)).1 ∧
      leavesReady (call.perform referencePlatform freeImages
        (smallStart.applyCoreUpdate referencePlatform freeImages (finalizedHead 0xb1)).1) =
          true := by
    decide +kernel
  refine ⟨_, smallStart, (smallStart.applyCoreUpdate referencePlatform freeImages
    (finalizedHead 0xb1)).1, smallStart_eq, Prod.ext rfl (by decide +kernel), hready, ?_⟩
  intro call hcall
  obtain ⟨hstarted, hopen⟩ := hcalls call hcall
  exact ⟨hstarted, fun hclosed =>
    (QuoteIndexer.failsClosed_iff _ _).mp hclosed (failsOpen_of_leavesReady hopen)⟩

end Lunarbase.Client
