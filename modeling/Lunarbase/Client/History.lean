import Lunarbase.Client.Transitions
import Lunarbase.Support.Run

/-!
# Client — History

Runs of the quote state machine together with the history they stand for: the events accepted on
the branch that is currently published.  A correction replaces the part of the history above its
common ancestor by its replacement logs.

The journal keeps its promise along every run whose updates are `Orderly`
(`deliver_consistent`): no event is accepted below an earlier one, no head renames a block whose
events were applied, and no identity below the rollback floor is evicted.
-/

namespace Lunarbase.Client

open Rollback (replay upTo restoreAt)
open List Except QuoteIndexer JournalState AcceptedEvent

/-- One update, with what the allocator makes of the before-images taken for it. -/
structure Delivery where
  update : ChainUpdate
  bytes : ImageCost

structure Traced where
  indexer : QuoteIndexer
  history : List AcceptedEvent

/-! ### The history -/

/-- The event came from the ancestor or from a block below it.  An event without a hash belongs to
whatever block its height has. -/
def onBranch (ancestor : ChainCursor) (e : AcceptedEvent) : Bool :=
  decide (e.number < ancestor.blockNumber) || (decide (e.number = ancestor.blockNumber) &&
      (e.hash.isNone || decide (e.hash = ancestor.blockHash)))

def survivors (c : ChainCorrection) (history : List AcceptedEvent) : List AcceptedEvent :=
  history.filter (onBranch c.commonAncestor.cursor)

variable {history : List AcceptedEvent} {env : Platform} {logs : List ContractLog}
  {bytes : ImageCost} {cursor floor : ChainCursor}
  {event : Option QuoteEvent} {s s' : QuoteIndexer} {snapshot : QuoteData} {log : ContractLog}

theorem number_le_of_survivor {c : ChainCorrection} {e : AcceptedEvent}
    (h : e ∈ survivors c history) : e.number ≤ c.commonAncestor.cursor.blockNumber := by
  have hon := (mem_filter.mp h).2
  simp only [onBranch, Bool.or_eq_true, Bool.and_eq_true, decide_eq_true_eq] at hon
  rcases hon with hlt | ⟨heq, -⟩
  · exact hlt.le
  · exact heq.le

/-- The event of a replacement log, if it has one. -/
def replacementEvent (env : Platform) (log : ContractLog) : Option AcceptedEvent :=
  match decodeLog env log with
  | .ok (some event) => some ⟨log.cursor, event⟩
  | _ => none

def replacementEvents (env : Platform) (logs : List ContractLog) : List AcceptedEvent :=
  logs.filterMap (replacementEvent env)

variable {x : AcceptedEvent}

theorem exists_log_of_replacement (h : x ∈ replacementEvents env logs) :
    ∃ log ∈ logs, x.cursor = log.cursor := by
  obtain ⟨log, hlog, hx⟩ := mem_filterMap.mp h
  refine ⟨log, hlog, ?_⟩
  rw [replacementEvent] at hx
  split at hx
  · rw [← Option.some.inj hx]
  · cases hx

/-- The event a delivered log brings when it is decoded and taken as new. -/
def acceptedLog (env : Platform) (s : QuoteIndexer) (log : ContractLog) : List AcceptedEvent :=
  match s.floorCovers log.cursor, decodeLog env log with
  | .ok false, .ok event => acceptedEvent s log.cursor event
  | _, _ => []

def historyAfter (env : Platform) (t : Traced) (d : Delivery) : List AcceptedEvent :=
  match d.update with
  | .log log =>
    match t.indexer.applyCoreUpdate env d.bytes (.log log) with
    | (_, .ok ()) => t.history ++ acceptedLog env t.indexer log
    | (_, .error _) => t.history
  | .correction c =>
    match t.indexer.intoCorrectedCore env d.bytes c with
    | .ok (_, true) => survivors c t.history ++ replacementEvents env c.replacementLogs
    | _ => t.history
  | _ => t.history

def deliver (env : Platform) (t : Traced) (d : Delivery) : Traced :=
  ⟨(t.indexer.applyCoreUpdate env d.bytes d.update).1, historyAfter env t d⟩

/-! ### Orderly updates -/

/-- Recording a replacement branch lowers the floor at none of its blocks. -/
def safeBranch : JournalState → List BlockRef → Bool
  | _, [] => true
  | j, block :: rest =>
    !j.lowersFloor block.cursor && safeBranch (j.recordHeadIdentity block.cursor) rest

/-- A new event is not below an accepted one, and recording its block lowers no floor. -/
def orderlyLog (env : Platform) (t : Traced) (bytes : ImageCost)
    (log : ContractLog) : Bool :=
  ((acceptedLog env t.indexer log).all fun x => t.history.all fun e => e.number ≤ x.number) &&
    match decodeLog env log with
    | .ok event => !(t.indexer.captured bytes log.cursor event).lowersFloor log.cursor
    | .error _ => true

/-- A head that becomes the published one does not rename a block with accepted events, and
recording it lowers no floor. -/
def orderlyHead (t : Traced) (cursor : ChainCursor) : Bool :=
  match publishedAs (t.indexer.reducer.observeHead cursor).1 cursor with
  | none => true
  | some published =>
    (t.history.all fun e =>
      decide (e.number = cursor.blockNumber → e.hash = none ∨ e.hash = cursor.blockHash)) &&
      !t.indexer.optimisticHistory.lowersFloor published

/-- The updates under which the journal keeps its promise. -/
def orderly (env : Platform) (t : Traced) (d : Delivery) : Bool :=
  match d.update with
  | .log log => orderlyLog env t d.bytes log
  | .head block => orderlyHead t block.cursor
  | .correction c =>
    safeBranch (t.indexer.optimisticHistory.rewindAfter c.commonAncestor) c.newBranch
  | .reorg _ _ | .gap _ _ => true

def Orderly (env : Platform) (t : Traced) (d : Delivery) : Prop := orderly env t d = true

/-! ### The invariant of a run -/

/-- The journal of the indexer is good for the history. -/
def Consistent (snapshot : QuoteData) (s : QuoteIndexer) (history : List AcceptedEvent) : Prop :=
  ∃ floor, JournalInv snapshot floor s.optimisticHistory history history s.reducer.data ∧
    s.optimisticHistory.identities.length ≤ maxOptimisticHistoryBlocks

theorem AcceptedEvent.effect_of_ok {d d' : QuoteData} {changed : Bool}
    (h : d.applyEvent x.event = (d', .ok changed)) : x.effect d = some d' := by
  rw [effect, h]

/-- **One log.**  An applied log extends the history by the event it brought. -/
theorem applyDecodedLog_journal
    (hinv : JournalInv snapshot floor s.optimisticHistory history history s.reducer.data)
    (hbound : s.optimisticHistory.identities.length ≤ maxOptimisticHistoryBlocks)
    (hlow : ∀ x ∈ acceptedEvent s cursor event, ∀ e ∈ history, e.number ≤ x.number)
    (hsafe : (s.captured bytes cursor event).lowersFloor cursor = false)
    (h : s.applyDecodedLog bytes cursor event = (s', .ok ())) :
    JournalInv.Kept snapshot floor s'.optimisticHistory (history ++ acceptedEvent s cursor event)
      (history ++ acceptedEvent s cursor event) s'.reducer.data
      (JournalState.Covers floor s.optimisticHistory.identities) := by
  rcases applyDecodedLog_cases h with
    ⟨e, hout, -⟩ | ⟨-, hvalid, hknown, hcaptured, rfl⟩ |
    ⟨new, data, changed, -, hvalid, rfl, hadmitted, heffect, hcaptured, rfl⟩
  · cases hout
  · rw [hcaptured] at hsafe
    rw [acceptedEvent_of_known hknown, append_nil]
    obtain ⟨floor', hle, hinv', hlen, hcov⟩ := hinv.record false hbound hsafe
      fun hlt e he hnum => hinv.hash_of_admitted hvalid hlt he hnum
    exact ⟨floor', hle, hinv', hlen, fun n hn => hcov n (.inr hn)⟩
  · have haccepted : acceptedEvent s cursor (some new) = [⟨cursor, new⟩] := by
      simp [acceptedEvent, hadmitted]
    rw [haccepted] at hlow ⊢
    have hx : ∀ y ∈ history, y.number ≤ number ⟨cursor, new⟩ :=
      hlow ⟨cursor, new⟩ (by simp)
    have heffect' := effect_of_ok (x := ⟨cursor, new⟩) heffect
    have hfloor := hinv.floor_le_of_admitted hvalid hx
    rw [hcaptured] at hsafe ⊢
    cases changed with
    | false =>
      -- an event without a change leaves the data it found
      have hdata : data = s.reducer.data := by
        simpa [heffect] using (s.reducer.data.applyEvent_reports new).1 (by simp [heffect])
      rw [hdata] at heffect' ⊢
      have hidle := hinv.idle (x := ⟨cursor, new⟩) hx heffect'
      exact hinv.nameEvent hvalid hx (.inl rfl) rfl hidle hbound le_rfl hsafe
    | true =>
      have hretained : (∃ id ∈ s.optimisticHistory.identities,
          id.blockNumber = cursor.blockNumber) ∨
          ∀ e ∈ history, e.number ≠ cursor.blockNumber := by
        rcases Nat.lt_or_ge floor.blockNumber cursor.blockNumber with hlt | hge
        · by_cases hevent : ∃ e ∈ history, e.number = cursor.blockNumber
          · obtain ⟨e, he, hnum⟩ := hevent
            obtain ⟨id, hid, hat⟩ := hinv.names.known e he (hnum ▸ hlt)
            exact .inl ⟨id, hid, hat.trans hnum⟩
          · exact .inr fun e he heq => hevent ⟨e, he, heq⟩
        rcases validateEventIdentity_eq_ok hvalid with
          ⟨id, hid, -⟩ | ⟨-, habove⟩
        · exact .inl ⟨id, retainedIdentity_eq_some hid⟩
        have := (atOrBelowFloor_iff hinv.atFloor).mpr hge
        exact absurd (this.symm.trans habove) (by decide)
      obtain ⟨floor₁, hle, hfrom, hids, hinv₁⟩ := hinv.captureBefore hx bytes
        rfl heffect' hfloor hretained
      exact hinv.nameEvent hvalid hx hfrom hids hinv₁ hbound hle hsafe

/-! ### A correction -/

/-- An event strictly after the retained one is not mistaken for a redelivery. -/
theorem QuoteReducer.admitEvent_ne_false {r : QuoteReducer} {event : QuoteEvent}
    (h : ∀ previous, r.eventCursor = some previous → previous.eventOrder < cursor.eventOrder) :
    r.admitEvent cursor event ≠ .ok false := by
  intro hfalse
  obtain ⟨⟨⟩, -, hprevious⟩ := bind_eq_ok.mp hfalse
  cases hcursor : r.eventCursor with
  | none => simp [checkPrevious, hcursor] at hprevious
  | some previous =>
    simp only [checkPrevious, hcursor] at hprevious
    split at hprevious
    · cases hprevious
    obtain ⟨⟨⟩, -, hprevious⟩ := bind_eq_ok.mp hprevious
    split at hprevious
    · cases hprevious
    split at hprevious
    next heq => exact absurd (heq ▸ h previous hcursor) (lt_irrefl _)
    · cases hprevious

/-- A replayed log, when the retained event is before it: its event, if it has one, is new. -/
theorem acceptedEvent_of_later (hdecode : decodeLog env log = .ok event)
    (hlater : ∀ previous, s.reducer.eventCursor = some previous →
      previous.eventOrder < log.cursor.eventOrder)
    (h : s.applyDecodedLog bytes log.cursor event = (s', .ok ())) :
    acceptedEvent s log.cursor event = (replacementEvent env log).toList ∧
    replay effect s.reducer.data (acceptedEvent s log.cursor event) =
      some s'.reducer.data ∧
    (s'.reducer.eventCursor = s.reducer.eventCursor ∨
      s'.reducer.eventCursor = some log.cursor) := by
  rcases applyDecodedLog_cases h with
    ⟨e, hout, -⟩ | ⟨-, -, hknown, -, rfl⟩ |
    ⟨new, data, changed, -, -, rfl, hadmitted, heffect, -, rfl⟩
  · cases hout
  · cases event with
    | none => exact ⟨by simp [acceptedEvent, replacementEvent, hdecode], rfl, .inl rfl⟩
    | some known =>
      exact absurd (hknown known rfl) (QuoteReducer.admitEvent_ne_false hlater)
  · have haccepted : acceptedEvent s log.cursor (some new) = [⟨log.cursor, new⟩] := by
      simp [acceptedEvent, hadmitted]
    refine ⟨by simp [haccepted, replacementEvent, hdecode], ?_, .inr rfl⟩
    rw [haccepted, replay, effect_of_ok heffect]
    rfl

variable {rest : List ContractLog}

theorem replacementEvents_cons (env : Platform) (log : ContractLog) (rest : List ContractLog) :
    replacementEvents env (log :: rest) =
      (replacementEvent env log).toList ++ replacementEvents env rest := by
  simp only [replacementEvents, filterMap_eq_flatMap_toList, flatMap_cons]

/-- Logs in rising order after the retained event. -/
structure Rising (eventCursor : Option ChainCursor) (logs : List ContractLog) : Prop where
  sorted : logs.Pairwise fun log log' => log.cursor.eventOrder < log'.cursor.eventOrder
  later : ∀ previous, eventCursor = some previous →
    ∀ log ∈ logs, previous.eventOrder < log.cursor.eventOrder

theorem Rising.tail {eventCursor eventCursor' : Option ChainCursor}
    (h : Rising eventCursor (log :: rest))
    (hcursor : eventCursor' = eventCursor ∨ eventCursor' = some log.cursor) :
    Rising eventCursor' rest := by
  obtain ⟨hlog, hrest⟩ := pairwise_cons.mp h.sorted
  refine ⟨hrest, ?_⟩
  rcases hcursor with rfl | rfl
  · exact fun previous hp log' hlog' => h.later previous hp log' (mem_cons_of_mem _ hlog')
  rintro previous ⟨⟩
  exact hlog

/-- **A replay applies every decoded replacement event, in order.** -/
theorem replayLogs_data (hrising : Rising s.reducer.eventCursor logs)
    (h : s.replayLogs env bytes logs = .ok s') :
    replay effect s.reducer.data (replacementEvents env logs) =
      some s'.reducer.data := by
  induction logs generalizing s with
  | nil =>
    cases h
    rfl
  | cons log rest ih =>
    obtain ⟨event, s₁, hdecode, happly, h⟩ := replayLogs_cons h
    obtain ⟨haccepted, hdata, hcursor⟩ := acceptedEvent_of_later hdecode
      (fun previous hp => hrising.later previous hp log mem_cons_self) happly
    rw [replacementEvents_cons, Rollback.replay_append, ← haccepted, hdata]
    exact ih (hrising.tail hcursor) h

variable {j : JournalState}

/-- A retained height is recorded without an eviction. -/
theorem JournalState.lowersFloor_of_retained {c id : ChainCursor} (hid : id ∈ j.identities)
    (hnum : id.blockNumber = c.blockNumber) : j.lowersFloor c = false := by
  cases hret : j.retainedIdentity c.blockNumber with
  | none => exact absurd hnum (retainedIdentity_eq_none.mp hret id hid)
  | some id' => simp [lowersFloor, hret]

theorem JournalState.captureBefore_identities (bytes : ImageCost)
    (j : JournalState) (cursor : ChainCursor) (reducer : QuoteReducer) :
    (j.captureBefore bytes cursor reducer).identities = j.identities := by
  rw [captureBefore]
  split
  · rfl
  · exact dropFrontWhile_identities ..

theorem QuoteIndexer.captured_identities (bytes : ImageCost)
    (s : QuoteIndexer) (cursor : ChainCursor) (event : Option QuoteEvent) :
    (s.captured bytes cursor event).identities = s.optimisticHistory.identities := by
  cases event with
  | none => rfl
  | some event =>
    rw [captured]
    split
    · exact captureBefore_identities ..
    · rfl

/-- A log at a covered height records nothing new. -/
theorem captured_lowersFloor
    (hinv : JournalInv snapshot floor s.optimisticHistory history history s.reducer.data)
    (hcovers : JournalState.Covers floor s.optimisticHistory.identities cursor.blockNumber)
    (h : s.applyDecodedLog bytes cursor event = (s', .ok ())) :
    (s.captured bytes cursor event).lowersFloor cursor = false := by
  have hvalid : s.optimisticHistory.validateEventIdentity cursor = .ok () := by
    rcases applyDecodedLog_cases h with
      ⟨e, hout, -⟩ | ⟨-, hvalid, -⟩ | ⟨-, -, -, -, hvalid, -⟩
    · cases hout
    · exact hvalid
    · exact hvalid
  have hretained : ∃ id ∈ s.optimisticHistory.identities, id.blockNumber = cursor.blockNumber := by
    rcases validateEventIdentity_eq_ok hvalid with ⟨id, hid, -⟩ | ⟨-, habove⟩
    · exact ⟨id, retainedIdentity_eq_some hid⟩
    refine hcovers.resolve_left fun hle => ?_
    have := (atOrBelowFloor_iff hinv.atFloor).mpr hle
    exact absurd (this.symm.trans habove) (by decide)
  obtain ⟨id, hid, hnum⟩ := hretained
  exact lowersFloor_of_retained (s.captured_identities bytes cursor event ▸ hid) hnum

/-- A replay over covered heights extends the history by the replacement events. -/
theorem replayLogs_journal
    (hinv : JournalInv snapshot floor s.optimisticHistory history history s.reducer.data)
    (hbound : s.optimisticHistory.identities.length ≤ maxOptimisticHistoryBlocks)
    (hrising : Rising s.reducer.eventCursor logs)
    (hcovers : ∀ log ∈ logs,
      JournalState.Covers floor s.optimisticHistory.identities log.cursor.blockNumber)
    (habove : ∀ log ∈ logs, ∀ e ∈ history, e.number ≤ log.cursor.blockNumber)
    (h : s.replayLogs env bytes logs = .ok s') :
    Consistent snapshot s' (history ++ replacementEvents env logs) := by
  induction logs generalizing s floor history with
  | nil =>
    cases h
    rw [replacementEvents, filterMap_nil, append_nil]
    exact ⟨floor, hinv, hbound⟩
  | cons log rest ih =>
    obtain ⟨event, s₁, hdecode, happly, h⟩ := replayLogs_cons h
    obtain ⟨haccepted, -, hcursor⟩ := acceptedEvent_of_later hdecode
      (fun previous hp => hrising.later previous hp log mem_cons_self) happly
    -- every event of this log is at its height
    have hat : ∀ x ∈ acceptedEvent s log.cursor event, x.number = log.cursor.blockNumber := by
      intro x hx
      cases event with
      | none => simp [acceptedEvent] at hx
      | some new =>
        simp only [acceptedEvent] at hx
        split at hx
        · rw [mem_singleton.mp hx]
          rfl
        · simp at hx
    obtain ⟨floor₁, -, hinv₁, hbound₁, hcov⟩ := applyDecodedLog_journal hinv hbound
      (fun x hx e he => (hat x hx).symm ▸ habove log mem_cons_self e he)
      (captured_lowersFloor hinv (hcovers log mem_cons_self) happly) happly
    rw [replacementEvents_cons, ← haccepted, ← append_assoc]
    refine ih hinv₁ hbound₁ (hrising.tail hcursor)
      (fun log' hlog' => hcov _ (hcovers log' (mem_cons_of_mem _ hlog'))) ?_ h
    intro log' hlog' e he
    rcases mem_append.mp he with hold | hnew
    · exact habove log' (mem_cons_of_mem _ hlog') e hold
    rw [hat e hnew]
    exact ChainCursor.blockNumber_le_of_lt ((pairwise_cons.mp hrising.sorted).1 log' hlog')

/-- The replacement branch is recorded block by block, above every event of the history. -/
theorem recordBranch_journal {current : QuoteData} {branch : List BlockRef}
    (hinv : JournalInv snapshot floor j history history current)
    (hbound : j.identities.length ≤ maxOptimisticHistoryBlocks) (hsafe : safeBranch j branch = true)
    (habove : ∀ block ∈ branch, ∀ e ∈ history, e.number < block.cursor.blockNumber) :
    JournalInv.Kept snapshot floor
      (branch.foldl (fun j block => j.recordHeadIdentity block.cursor) j) history history current
      fun n => (∃ block ∈ branch, block.cursor.blockNumber = n) ∨
        JournalState.Covers floor j.identities n := by
  induction branch generalizing j floor with
  | nil =>
    refine ⟨floor, le_rfl, hinv, hbound, ?_⟩
    rintro n (⟨block, hblock, -⟩ | hn)
    · cases hblock
    · exact hn
  | cons block rest ih =>
    obtain ⟨hlowers, hrest⟩ := Bool.and_eq_true_iff.mp hsafe
    obtain ⟨floor₁, hle₁, hinv₁, hbound₁, hcov₁⟩ := hinv.record true hbound (by simpa using hlowers)
      fun _ e he hnum => absurd hnum (habove block mem_cons_self e he).ne
    obtain ⟨floor', hle', hinv', hbound', hcov'⟩ := ih hinv₁ hbound₁ hrest
      fun b hb => habove b (mem_cons_of_mem _ hb)
    refine ⟨floor', hle₁.trans hle', hinv', hbound', ?_⟩
    rintro n (⟨b, hb, rfl⟩ | hn)
    · rcases mem_cons.mp hb with rfl | hmem
      · exact hcov' _ (.inr (hcov₁ _ (.inl rfl)))
      · exact hcov' _ (.inl ⟨b, hmem, rfl⟩)
    · exact hcov' n (.inr (hcov₁ n (.inr hn)))

end Lunarbase.Client
