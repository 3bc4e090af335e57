import Lunarbase.EventWorker.Journal
import Lunarbase.Support.Keccak

/-!
# EventWorker — Lifecycle

The records of a log in the stream and its entry in `log-state` tell the same story
(`Store.Agreed`, an invariant of every run): the log is active exactly if its last record applied
it.

What an accepted event needs to be published is then exactly that the journal did not take it for a
duplicate of a record that has been reverted since (`appended_event_published_iff`).  The record id
of a log never expires, so the log of a block that comes back by ordinary extension is lost
(`reverted_log_not_published_again`).
-/

namespace Lunarbase.EventWorker

open Client (BlockRef ContractLog)
open Function Option

/-- The operation that leads to the state. -/
def LogState.operation (state : LogState) : Text :=
  if state.active then "applied".toList else "reverted".toList

namespace Store

/-- The operation of the last lifecycle record of a log. -/
def lastOperation (s : Store) (logicalLogId : Text) : Option Text :=
  (s.stream.filter fun entry => entry.field "logicalLogId" = some logicalLogId).getLast?.bind
    (·.field "operation")

/-- The stream and `log-state` agree about every log. -/
def Agreed (s : Store) : Prop :=
  ∀ logicalLogId, s.lastOperation logicalLogId = (s.logState logicalLogId).map LogState.operation

variable (s : Store) (recordType operation : String) (recordId : Text)
  (fields : List (String × Text)) (logicalLogId : Text)

theorem filter_xadd : ((s.xadd recordType operation recordId fields).stream.filter fun entry =>
      entry.field "logicalLogId" = some logicalLogId) =
    (s.stream.filter fun entry => entry.field "logicalLogId" = some logicalLogId) ++
      if fields.lookup "logicalLogId" = some logicalLogId then
        [s.appended recordType operation recordId fields]
      else [] := by
  -- the four fields in front do not name the log
  have hname : (s.appended recordType operation recordId fields).field "logicalLogId" =
      fields.lookup "logicalLogId" := rfl
  rw [show (s.xadd recordType operation recordId fields).stream =
    s.stream ++ [s.appended recordType operation recordId fields] from rfl, List.filter_append,
    List.filter_singleton, hname, Bool.cond_decide]

theorem lastOperation_xadd :
    (s.xadd recordType operation recordId fields).lastOperation logicalLogId =
      if fields.lookup "logicalLogId" = some logicalLogId then some operation.toList
      else s.lastOperation logicalLogId := by
  rw [lastOperation, filter_xadd, List.getLast?_append]
  split <;> rfl

variable {s : Store}

section

variable (h : s.Agreed)

include h

theorem Agreed.congr {s' : Store} (hstream : s'.stream = s.stream)
    (hstate : s'.logState = s.logState) : s'.Agreed := by
  intro logicalLogId
  rw [lastOperation, hstream, hstate]
  exact h logicalLogId

/-- A record that names no log. -/
theorem Agreed.control {plan : Plan} (hfields : plan.controlFields.lookup "logicalLogId" = none)
    (operation : String) (recordId : Text) : (s.control plan operation recordId).Agreed := by
  intro logicalLogId
  have hlast := s.lastOperation_xadd "reorg" operation recordId plan.controlFields logicalLogId
  rw [hfields, if_neg (by simp)] at hlast
  exact hlast.trans (h logicalLogId)

/-- A record of a log together with the state it leads to. -/
theorem Agreed.record {s' : Store} {operation : String} {recordId : Text}
    {fields : List (String × Text)} {logicalLogId : Text} {state : LogState}
    (hname : fields.lookup "logicalLogId" = some logicalLogId)
    (hoperation : operation.toList = state.operation)
    (hstream : s'.stream = (s.xadd "log" operation recordId fields).stream)
    (hstate : s'.logState = Function.update s.logState logicalLogId (some state)) : s'.Agreed := by
  intro other
  have hlast := s.lastOperation_xadd "log" operation recordId fields other
  rw [lastOperation, ← hstream, ← lastOperation] at hlast
  rw [hlast, hname, hstate]
  by_cases heq : logicalLogId = other
  · subst heq
    rw [if_pos rfl, update_self, hoperation]
    rfl
  · rw [if_neg fun hsome => heq (Option.some.inj hsome), update_of_ne (Ne.symm heq)]
    exact h other

theorem Agreed.journalEvent (event : DurableEvent) (extra : List (String × Text)) :
    (s.journalEvent event extra).Agreed :=
  h.record rfl rfl rfl rfl

theorem Agreed.revertLog (reorgId : Text) (log : OldLog) : (revertLog reorgId s log).Agreed := by
  unfold Store.revertLog
  split
  · exact h
  · exact h.record rfl rfl rfl rfl

theorem Agreed.installHead (head : DurableHead) : (s.installHead head).Agreed := by
  rw [installHead_eq]
  exact h.congr rfl rfl

theorem Agreed.revertBranch (plan : Plan) : (s.revertBranch plan).Agreed := by
  have hreverted : (plan.oldLogs.foldl (Store.revertLog plan.reorgId) s).Agreed :=
    List.foldlRecOn plan.oldLogs _ h fun s' hs' log _ => hs'.revertLog plan.reorgId log
  have hremoved :
      (plan.oldBlocks.foldl removeBlock
        (plan.oldLogs.foldl (Store.revertLog plan.reorgId) s)).Agreed :=
    List.foldlRecOn plan.oldBlocks _ hreverted fun s' hs' _ _ => hs'.congr rfl rfl
  unfold Store.revertBranch
  unfold releaseReferences
  split
  · exact hremoved.congr rfl rfl
  · exact hremoved

theorem Agreed.applyBranch (plan : Plan) : (s.applyBranch plan).Agreed := by
  have hheads : (plan.newHeads.foldl Store.installHead s).Agreed :=
    List.foldlRecOn plan.newHeads _ h fun s' hs' head _ => hs'.installHead head
  exact List.foldlRecOn plan.newEvents _ hheads fun s' hs' event _ => hs'.journalEvent event _

theorem Agreed.commit {plan : Plan}
    (hfields : plan.controlFields.lookup "logicalLogId" = none) : (s.commit plan).1.Agreed := by
  have hmanifest : ({ s with reorgManifest := true } : Store).Agreed := h.congr rfl rfl
  have hbegun := hmanifest.control hfields "begin" plan.beginRecordId
  have hmoved := (hbegun.revertBranch plan).applyBranch plan
  have htip : ((Store.applyBranch _ plan).setTip plan).Agreed := hmoved.congr rfl rfl
  exact (htip.control hfields "commit" plan.commitRecordId).congr rfl rfl

end

theorem Agreed.perform (w : Worker) (h : s.Agreed) (call : Call) : (s.perform w call).Agreed := by
  rcases s.perform_cases w call with hsame | ⟨block, head, promote, -, -, -, -, _, hwrite⟩ |
    ⟨log, event, -, -, -, -, -, -, _, _, hwrite⟩ |
    ⟨-, -, -, -, -, -, c, plan, -, -, hplanned, -, -, hwrite⟩
  · rw [hsame]
    exact h
  · rw [hwrite, writeHead_eq]
    exact (h.installHead head).congr rfl rfl
  · rw [hwrite]
    exact (h.journalEvent event []).congr rfl rfl
  · rw [hwrite]
    exact h.commit hplanned.controlFields

/-- **The stream and `log-state` agree in every store a worker can reach.** -/
theorem agreed_of_run {w : Worker} {guard : Store → Call → Prop}
    (hrun : Run (Store.perform w) guard (Store.initial w.fingerprint) s) : s.Agreed :=
  hrun.invariant (fun _ => rfl) fun _ call h _ => h.perform w call

/-- The log of the event is active, and its last record in the stream applied it. -/
def Published (s : Store) (event : DurableEvent) : Prop :=
  (s.logState event.logicalLogId).any (·.active) = true ∧
    s.lastOperation event.logicalLogId = some "applied".toList

theorem Agreed.published (h : s.Agreed) {event : DurableEvent}
    (hactive : (s.logState event.logicalLogId).any (·.active) = true) : s.Published event := by
  refine ⟨hactive, (h event.logicalLogId).trans ?_⟩
  cases hstate : s.logState event.logicalLogId with
  | none => simp [hstate] at hactive
  | some state =>
    rw [hstate, any_some] at hactive
    rw [map_some, LogState.operation, if_pos hactive]

end Store

/-- **When an accepted event is published.**  In every store a worker can reach, an event that
`append_event` takes is published afterwards exactly if its record is new or its log is active
already: a duplicate of a reverted log is accepted and stays unpublished. -/
theorem appended_event_published_iff (w : Worker) {s : Store}
    (hrun : Run (Store.perform w) (fun _ _ => True) (Store.initial w.fingerprint) s)
    (event : DurableEvent) {s' : Store} {outcome : AppendOutcome}
    (happend : s.appendEvent w.fingerprint event = (s', .ok outcome)) :
    s'.Published event ↔ s.recordIds event.recordId = none ∨
        (s.logState event.logicalLogId).any (·.active) = true := by
  have hagreed := Store.agreed_of_run hrun
  rcases s.appendEvent_cases w.fingerprint event with ⟨_, herror⟩ | ⟨id, hsome, hsame⟩ |
    ⟨hnone, -, -, hwrite⟩
  · cases (Prod.mk.inj (happend.symm.trans herror)).2
  · obtain ⟨rfl, -⟩ := Prod.mk.inj (happend.symm.trans hsame)
    rw [hsome]
    constructor
    · exact fun hpublished => .inr hpublished.1
    rintro (hnone | hactive)
    · cases hnone
    · exact hagreed.published hactive
  · obtain ⟨rfl, -⟩ := Prod.mk.inj (happend.symm.trans hwrite)
    refine iff_of_true ?_ (.inl hnone)
    obtain ⟨_, _, hcursor⟩ :=
      (s.journalEvent event []).advanceCursor_frame event.cursorJson event.cursorOrder
    rw [hcursor]
    refine ((hagreed.journalEvent event []).congr rfl rfl).published ?_
    change (Function.update s.logState event.logicalLogId _ event.logicalLogId).any _ = true
    rw [update_self]
    rfl

/-! ### A log that is lost -/

def smallWorker : Worker := ⟨Keccak.keccak256, "v2|1".toList⟩

/-- A block of chain 1, with its hash and the hash of its parent. -/
def blockOf (number : Nat) (hash parent : B256) (commitment : Client.Commitment) : BlockRef :=
  ⟨⟨1, number, number, some hash, none, none, none, none, commitment⟩, some parent⟩

/-- The finalized block 1. -/
def rootBlock : BlockRef := blockOf 1 0xa1 0xa0 .finalized

/-- A block 2 on top of it. -/
def secondBlock (hash : B256) : BlockRef := blockOf 2 hash 0xa1 .canonical

theorem linked_secondBlock (hash : B256) :
    Linked rootBlock [secondBlock hash] (secondBlock hash) := ⟨rfl, rfl, rfl⟩

/-- A log in the first transaction of a block 2. -/
def secondLog (hash : B256) : ContractLog where
  address := 0xc0
  transactionHash := some 0x77
  topics := [0x1]
  data := []
  removed := false
  cursor := { (secondBlock hash).cursor with transactionIndex := some 0, logIndex := some 0 }

def ampleLimits : CorrectionLimits := ⟨100, 1000000⟩

/-- Back to the finalized block. -/
def rollbackSecond (hash : B256) : ForkResolution where
  commonAncestor := rootBlock
  oldTip := secondBlock hash
  newTip := rootBlock
  oldBranch := [secondBlock hash]
  newBranch := []
  oldLinked := linked_secondBlock hash
  newLinked := rfl

/-- A block with a log is journaled, rolled back, and journaled again. -/
def returningBlock : List Call :=
  [.head rootBlock, .head (secondBlock 0xa2), .event (secondLog 0xa2),
    .correct (rollbackSecond 0xa2) rootBlock [] 0xc0 ampleLimits ⟨0, 0⟩,
    .head (secondBlock 0xa2)]

/-- Something is made and accepted, and the test holds of it and of the store after. -/
def takenWith {ε ε' α β : Type} (made : Except ε α) (submit : α → Store × Except ε' β)
    (test : α → Store → Bool) : Bool :=
  match made with
  | .ok x =>
    match submit x with
    | (s', .ok _) => test x s'
    | (_, .error _) => false
  | .error _ => false

theorem exists_of_takenWith {ε ε' α β : Type} {made : Except ε α} {submit : α → Store × Except ε' β}
    {test : α → Store → Bool} (h : takenWith made submit test = true) :
    ∃ x s' outcome, made = .ok x ∧ submit x = (s', .ok outcome) ∧ test x s' = true := by
  unfold takenWith at h
  split at h
  next x =>
    split at h
    next s' outcome hsubmit => exact ⟨x, s', outcome, rfl, hsubmit, h⟩
    · cases h
  · cases h

/-- The event of the log is accepted. -/
def acceptedWith (w : Worker) (s : Store) (log : ContractLog)
    (test : DurableEvent → Store → Bool) : Bool :=
  takenWith (DurableEvent.fromLog w.keccak256 log) (s.appendEvent w.fingerprint) test

/-- The store after the first `count` of these calls. -/
def returningStore (count : Nat) : Store :=
  (returningBlock.take count).foldl (Store.perform smallWorker) (.initial smallWorker.fingerprint)

theorem run_returningStore (count : Nat) :
    Run (Store.perform smallWorker) (fun _ _ => True) (Store.initial smallWorker.fingerprint)
      (returningStore count) := Run.foldl .refl _

theorem appended_event_published_iff_new :
    ∃ event s' outcome,
      (returningStore 2).appendEvent smallWorker.fingerprint event = (s', .ok outcome) ∧
        s'.Published event := by
  have haccepted : acceptedWith smallWorker (returningStore 2) (secondLog 0xa2)
      (fun event _ => ((returningStore 2).recordIds event.recordId).isNone) = true := by
    decide +kernel
  obtain ⟨event, s', outcome, -, happend, hnew⟩ := exists_of_takenWith haccepted
  exact ⟨event, s', outcome, happend,
    (appended_event_published_iff smallWorker (run_returningStore 2) event happend).mpr
      (.inl (isNone_iff_eq_none.mp hnew))⟩

/-- **The log of a block that comes back is lost.**  A block is rolled back and becomes canonical
again by extension; its log is accepted as a duplicate and stays reverted. -/
theorem reverted_log_not_published_again :
    ∃ (w : Worker) (s s' : Store) (log : ContractLog) (event : DurableEvent)
      (outcome : AppendOutcome),
      Run (Store.perform w) (fun _ _ => True) (Store.initial w.fingerprint) s ∧
      DurableEvent.fromLog w.keccak256 log = .ok event ∧
      s.canonicalHeight (decimal log.cursor.blockNumber) = some event.blockHash ∧
      s.appendEvent w.fingerprint event = (s', .ok outcome) ∧ ¬ s'.Published event := by
  have haccepted : acceptedWith smallWorker (returningStore 5) (secondLog 0xa2) (fun event s' =>
        decide ((returningStore 5).canonicalHeight
            (decimal (secondLog 0xa2).cursor.blockNumber) = some event.blockHash) &&
          !(s'.logState event.logicalLogId).any (·.active)) = true := by
    decide +kernel
  obtain ⟨event, s', outcome, hevent, happend, htest⟩ := exists_of_takenWith haccepted
  obtain ⟨hmapped, hinactive⟩ := Bool.and_eq_true_iff.mp htest
  refine ⟨smallWorker, returningStore 5, s', secondLog 0xa2, event, outcome,
    run_returningStore 5, hevent, of_decide_eq_true hmapped, happend, fun hpublished => ?_⟩
  rw [hpublished.1] at hinactive
  cases hinactive

end Lunarbase.EventWorker
