import Lunarbase.EventWorker.Correct
import Lunarbase.Support.Run

/-!
# EventWorker — Journal

The calls of the event worker on its store, and what each of them can do to it: nothing, or one
write whose tests have passed (`appendHead_cases`, `appendEvent_cases`, `correct_cases`).  Every
invariant of the store is read off these.
-/

namespace Lunarbase.EventWorker

open Client (BlockRef ContractLog)
open Except Option

/-- What is fixed for a worker: the hash function and the fingerprint of its deployment. -/
structure Worker where
  keccak256 : List UInt8 → B256
  fingerprint : Text

inductive Call where
  | head (block : BlockRef)
  | event (log : ContractLog)
  | correct (resolution : ForkResolution) (finalized : BlockRef) (logs : List ContractLog)
      (core : Address) (limits : CorrectionLimits) (charge : CorrectionCharge)

/-- The store after a call, whatever the call returned. -/
def Store.perform (w : Worker) (s : Store) : Call → Store
  | .head block =>
    match DurableHead.fromBlock block with
    | .error _ => s
    | .ok head => (s.appendHead w.fingerprint head).1
  | .event log =>
    match DurableEvent.fromLog w.keccak256 log with
    | .error _ => s
    | .ok event => (s.appendEvent w.fingerprint event).1
  | .correct resolution finalized logs core limits charge =>
    match ReorgCorrection.new w.keccak256 resolution finalized logs core with
    | .error _ => s
    | .ok c => (s.correct w.keccak256 w.fingerprint limits charge c).1

/-! ### Inputs -/

theorem DurableHead.fromBlock_eq_ok {block : BlockRef} {head : DurableHead}
    (h : fromBlock block = .ok head) :
    ∃ hash parent, block.cursor.blockHash = some hash ∧ block.parentHash = some parent ∧ hash ≠ 0 ∧
      head =
        { headerJson := ⟨streamSchemaVersion, block.cursor.chainId, block.cursor.blockNumber,
            block.cursor.executionBlockNumber, hash, parent⟩
          blockHash := hashText hash
          parentHash := hashText parent
          blockNumber := decimal block.cursor.blockNumber
          commitment := commitmentName block.cursor.commitment } := by
  obtain ⟨hash, hhash, h⟩ := bind_eq_ok.mp h
  obtain ⟨parent, hparent, h⟩ := bind_eq_ok.mp h
  split at h
  · cases h
  next hvalid =>
    refine ⟨hash, parent, ofOption_eq_ok.mp hhash, ofOption_eq_ok.mp hparent,
      fun hzero => hvalid (.inl hzero), (Except.ok.inj h).symm⟩

variable {log : ContractLog}

theorem stableLogIdentity_eq_ok {identity : StableLogIdentity}
    (h : stableLogIdentity log = .ok identity) :
    log.cursor.blockHash = some identity.blockHash := by
  obtain ⟨hash, hhash, h⟩ := bind_eq_ok.mp h
  obtain ⟨transaction, -, h⟩ := bind_eq_ok.mp h
  obtain ⟨index, -, h⟩ := bind_eq_ok.mp h
  obtain ⟨logIndex, -, h⟩ := bind_eq_ok.mp h
  cases h
  exact (filter_eq_some_iff.mp (ofOption_eq_ok.mp hhash)).1

/-- What the journal reads of an event. -/
theorem DurableEvent.fromLog_eq_ok {keccak256 : List UInt8 → B256}
    {event : DurableEvent} (h : fromLog keccak256 log = .ok event) :
    ∃ hash, log.cursor.blockHash = some hash ∧ event.blockHash = hashText hash ∧
      event.cursorOrder = EventWorker.cursorOrder log.cursor ∧
      event.fields.lookup "blockNumber" = some (decimal log.cursor.blockNumber) := by
  rw [fromLog] at h
  split at h
  · cases h
  split at h
  · cases h
  obtain ⟨identity, hidentity, h⟩ := bind_eq_ok.mp h
  cases h
  exact ⟨identity.blockHash, stableLogIdentity_eq_ok hidentity, rfl, rfl, rfl⟩

theorem requireAll_eq_ok {α : Type} {test : α → Except StoreError Unit} {items : List α} :
    requireAll test items = .ok () ↔ ∀ item ∈ items, test item = .ok () := by
  induction items with
  | nil => simp [requireAll]
  | cons item rest ih =>
    rw [requireAll, bind_eq_ok, List.forall_mem_cons, ← ih]
    exact ⟨fun ⟨_, hitem, hrest⟩ => ⟨hitem, hrest⟩, fun ⟨hitem, hrest⟩ => ⟨(), hitem, hrest⟩⟩

/-! ### What a call can do -/

namespace Store

/-- The store with a head written. -/
def writeHead (s : Store) (head : DurableHead) (promote : Bool) : Store :=
  if promote then
    { (s.storeHeader head).mapHeight head.blockNumber head.blockHash with
      canonicalHead := some head.blockHash }
  else (s.storeHeader head).mapHeight head.blockNumber head.blockHash

variable (s : Store)

section

variable (head : DurableHead)

theorem storeHeader_eq :
    s.storeHeader head =
      { s with headers := (s.storeHeader head).headers, usage := (s.storeHeader head).usage } := by
  unfold storeHeader
  split
  · rfl
  · rfl

theorem installHead_eq :
    s.installHead head = { s with
        headers := (s.storeHeader head).headers
        canonicalHeight := Function.update s.canonicalHeight head.blockNumber (some head.blockHash)
        usage := (s.storeHeader head).usage } := by
  unfold installHead mapHeight
  rw [storeHeader_eq]

theorem writeHead_eq (promote : Bool) :
    s.writeHead head promote = { s.installHead head with
        canonicalHead := if promote then some head.blockHash else s.canonicalHead } := by
  cases promote with
  | true => rfl
  | false =>
    rw [installHead_eq]
    exact s.installHead_eq head

/-- The finalized head stays, or becomes the head that is written. -/
theorem promoteFinalized_eq :
    (s.promoteFinalized head).1 = s ∨
      (s.promoteFinalized head).1 = { s with finalizedHead := some head.blockHash } ∧
        (s.finalizedHead = none ∨ ∃ finalizedHead header, s.finalizedHead = some finalizedHead ∧
          s.headers finalizedHead = some header ∧
          Lua.toDouble header.blockNumber < Lua.tonumber head.blockNumber) := by
  unfold promoteFinalized
  split
  · split
    next hnone => exact .inr ⟨rfl, .inl hnone⟩
    next finalizedHead hsome =>
      split
      · exact .inl rfl
      split
      · exact .inl rfl
      next header hheader =>
        split
        next hlt => exact .inr ⟨rfl, .inr ⟨finalizedHead, header, hsome, hheader, hlt⟩⟩
        · exact .inl rfl
  · exact .inl rfl

theorem promoteFinalized_frame :
    ∃ finalizedHead, (s.promoteFinalized head).1 = { s with finalizedHead := finalizedHead } := by
  rcases s.promoteFinalized_eq head with heq | ⟨heq, -⟩
  · exact ⟨s.finalizedHead, heq⟩
  · exact ⟨some head.blockHash, heq⟩

end

theorem advanceCursor_frame (cursorJson : CursorEnvelope) (cursorOrder : Text) :
    ∃ cursor order, s.advanceCursor cursorJson cursorOrder =
      { s with cursor := cursor, cursorOrder := order } := by
  unfold advanceCursor
  split
  · exact ⟨_, _, rfl⟩
  · exact ⟨s.cursor, s.cursorOrder, rfl⟩

theorem appendHead_cases (fingerprint : Text) (head : DurableHead) :
    (s.appendHead fingerprint head).1 = s ∨ ∃ promote, s.checkHead fingerprint head = .ok promote ∧
        (s.appendHead fingerprint head).1 =
          ((s.writeHead head promote).promoteFinalized head).1 := by
  unfold appendHead
  split
  · exact .inl rfl
  next promote hcheck =>
    refine .inr ⟨promote, hcheck, ?_⟩
    have hwrite : (if promote then
        { (s.storeHeader head).mapHeight head.blockNumber head.blockHash with
          canonicalHead := some head.blockHash }
        else (s.storeHeader head).mapHeight head.blockNumber head.blockHash) =
        s.writeHead head promote := rfl
    dsimp only
    rw [hwrite]
    rcases (s.writeHead head promote).promoteFinalized head with ⟨s', e | u⟩
    · rfl
    · rfl

/-- The tests a head has passed when it is written. -/
structure HeadChecked (s : Store) (head : DurableHead) (promote : Bool) : Prop where
  identity : ∀ header, s.headers head.blockHash = some header → header = head.headerJson
  height : ∀ hash, s.canonicalHeight head.blockNumber = some hash → hash = head.blockHash
  parent : 0 < Lua.tonumber head.blockNumber → ∀ hash,
    s.canonicalHeight (parentKey head.blockNumber) = some hash → hash = head.parentHash
  promotes : s.promotesHead head = .ok promote

theorem eq_of_any_ne_eq_false {α : Type} [DecidableEq α] {o : Option α} {a : α}
    (h : ¬ (o.any (· ≠ a)) = true) : ∀ b, o = some b → b = a := by
  rintro b rfl
  simpa using h

variable {s : Store} {head : DurableHead}

theorem checkHead_eq_ok {fingerprint : Text} {promote : Bool}
    (h : s.checkHead fingerprint head = .ok promote) : s.HeadChecked head promote := by
  simp only [checkHead, journalError, ite_error_eq_ok] at h
  obtain ⟨-, -, hidentity, hheight, hparent, hpromotes⟩ := h
  exact ⟨eq_of_any_ne_eq_false hidentity, eq_of_any_ne_eq_false hheight,
    fun hpos => eq_of_any_ne_eq_false fun hany => hparent ⟨hpos, hany⟩, hpromotes⟩

/-- A head becomes canonical when there is none, again, or above the canonical head; above, only
a finalized head need not be its child. -/
theorem promotesHead_eq_true (h : s.promotesHead head = .ok true) :
    s.canonicalHead = none ∨ s.canonicalHead = some head.blockHash ∨
      ∃ canonicalHead header, s.canonicalHead = some canonicalHead ∧
        s.headers canonicalHead = some header ∧
        Lua.toDouble header.blockNumber < Lua.tonumber head.blockNumber ∧
        (head.commitment = "finalized" ∨
          Lua.tonumber head.blockNumber = Lua.toDouble (Lua.toDouble header.blockNumber + 1) ∧
            head.parentHash = canonicalHead) := by
  unfold promotesHead at h
  split at h
  next hnone => exact .inl hnone
  next canonicalHead hsome =>
    split at h
    next heq => exact .inr (.inl (heq ▸ hsome))
    split at h
    · cases h
    next header hheader =>
      dsimp only [journalError] at h
      split at h
      next hlt =>
        have hlinked := (ite_error_eq_ok.mp h).1
        refine .inr (.inr ⟨canonicalHead, header, hsome, hheader, hlt, ?_⟩)
        tauto
      · cases (ite_error_eq_ok.mp h).2

/-- A head that does not become canonical is below the canonical head. -/
theorem promotesHead_eq_false (h : s.promotesHead head = .ok false) :
    ∃ canonicalHead header, s.canonicalHead = some canonicalHead ∧
      s.headers canonicalHead = some header ∧
      Lua.tonumber head.blockNumber < Lua.toDouble header.blockNumber := by
  unfold promotesHead at h
  split at h
  · cases h
  next canonicalHead hsome =>
    split at h
    · cases h
    split at h
    · cases h
    next header hheader =>
      dsimp only [journalError] at h
      split at h
      · cases (ite_error_eq_ok.mp h).2
      next hle =>
        have hne := (ite_error_eq_ok.mp h).1
        exact ⟨canonicalHead, header, hsome, hheader, lt_of_le_of_ne (not_lt.mp hle) hne⟩

/-- An event is refused, or its record is there, or it is journaled now. -/
theorem appendEvent_cases (fingerprint : Text) (event : DurableEvent) :
    (∃ e, s.appendEvent fingerprint event = (s, .error e)) ∨
      (∃ id, s.recordIds event.recordId = some id ∧
        s.appendEvent fingerprint event = (s, .ok ⟨some id, false⟩)) ∨
      (s.recordIds event.recordId = none ∧
        (s.canonicalHeight (event.cursorOrder.take 20)).any (· ≠ event.blockHash) = false ∧
        (s.logState event.logicalLogId).any (·.active) = false ∧
        s.appendEvent fingerprint event =
          ((s.journalEvent event []).advanceCursor event.cursorJson event.cursorOrder,
            .ok ⟨some s.nextId, true⟩)) := by
  unfold appendEvent
  split
  · exact .inl ⟨_, rfl⟩
  split
  · exact .inl ⟨_, rfl⟩
  split
  next id hsome => exact .inr (.inl ⟨id, hsome, rfl⟩)
  next hnone =>
    split
    · exact .inl ⟨_, rfl⟩
    next hcanonical =>
      split
      · exact .inl ⟨_, rfl⟩
      next hinactive =>
        exact .inr (.inr ⟨hnone, Bool.not_eq_true _ ▸ hcanonical,
          Bool.not_eq_true _ ▸ hinactive, rfl⟩)

/-- A plan made for a correction. -/
structure Planned (w : Worker) (s : Store) (c : ReorgCorrection) (plan : Plan) : Prop where
  commitRecordId : plan.commitRecordId = c.commitRecordId
  beginRecordId : plan.beginRecordId = c.beginRecordId
  oldTip : ∃ hash, c.oldTip.cursor.blockHash = some hash ∧ plan.oldTipHash = hashText hash
  newTip : ∃ hash, c.newTip.cursor.blockHash = some hash ∧ plan.newTipHash = hashText hash
  cursorJson : plan.cursorJson = c.cursorJson
  cursorOrder : plan.cursorOrder = c.cursorOrder
  controlFields : plan.controlFields.lookup "logicalLogId" = none
  oldBlocks : plan.oldBlocks = c.oldBlocks
  oldLogs : plan.oldLogs = s.materializeOldLogs w.keccak256 c
  newHeads : plan.newHeads = c.newHeads
  newEvents : plan.newEvents = c.newEvents
  removedCount : plan.removedReferenceCount = (s.references c).length
  removedBytes : plan.removedReferenceBytes = ((s.references c).map LogReference.bytes).sum
  eventHeads : ∀ event ∈ c.newEvents, ∃ head ∈ c.newHeads, head.blockHash = event.blockHash

variable {c : ReorgCorrection}

theorem controlFields_lookup {reverted : Nat} {fields : List (String × Text)}
    (h : c.controlFields reverted = .ok fields) : fields.lookup "logicalLogId" = none := by
  obtain ⟨ancestor, -, h⟩ := bind_eq_ok.mp h
  obtain ⟨oldTip, -, h⟩ := bind_eq_ok.mp h
  obtain ⟨oldParent, -, h⟩ := bind_eq_ok.mp h
  obtain ⟨newTip, -, h⟩ := bind_eq_ok.mp h
  obtain ⟨newParent, -, h⟩ := bind_eq_ok.mp h
  obtain ⟨finalized, -, h⟩ := bind_eq_ok.mp h
  cases h
  rfl

theorem requiredTip_eq_ok {block : BlockRef} {text : Text} (h : requiredTip block = .ok text) :
    ∃ hash, block.cursor.blockHash = some hash ∧ text = hashText hash := by
  rw [requiredTip] at h
  cases hhash : block.cursor.blockHash with
  | none =>
    rw [hhash] at h
    cases h
  | some hash =>
    rw [hhash] at h
    exact ⟨hash, rfl, (Except.ok.inj h).symm⟩

theorem makePlan_eq_ok {w : Worker} {limits : CorrectionLimits} {charge : CorrectionCharge}
    {plan : Plan} (h : s.makePlan w.keccak256 w.fingerprint limits charge c = .ok plan) :
    s.Planned w c plan := by
  obtain ⟨-, -, h⟩ := bind_eq_ok.mp h
  obtain ⟨-, -, h⟩ := bind_eq_ok.mp h
  obtain ⟨-, -, h⟩ := bind_eq_ok.mp h
  obtain ⟨-, -, h⟩ := bind_eq_ok.mp h
  obtain ⟨-, -, h⟩ := bind_eq_ok.mp h
  obtain ⟨controlFields, hfields, h⟩ := bind_eq_ok.mp h
  obtain ⟨oldTip, holdTip, h⟩ := bind_eq_ok.mp h
  obtain ⟨newTip, hnewTip, h⟩ := bind_eq_ok.mp h
  obtain ⟨finalized, -, h⟩ := bind_eq_ok.mp h
  obtain ⟨_, hheaders, h⟩ := bind_eq_ok.mp h
  obtain ⟨-, -, h⟩ := bind_eq_ok.mp h
  cases h
  refine ⟨rfl, rfl, requiredTip_eq_ok holdTip, requiredTip_eq_ok hnewTip, rfl, rfl, ?_, rfl, rfl,
    rfl, rfl, rfl, rfl, ?_⟩
  · rcases hcontrol : c.controlFields (s.materializeOldLogs w.keccak256 c).length with e | fields
    · rw [hcontrol] at hfields
      cases hfields
    rw [hcontrol] at hfields
    obtain rfl : fields = controlFields := Except.ok.inj hfields
    exact controlFields_lookup hcontrol
  intro event hevent
  have hheader := requireAll_eq_ok.mp hheaders event hevent
  rw [eventHeader] at hheader
  split at hheader
  next hany => simpa using hany
  · cases hheader

/-- The tests a plan has passed when it is carried out. -/
structure Checked (s : Store) (plan : Plan) : Prop where
  canonicalHead : s.canonicalHead = some plan.oldTipHash
  oldBlocks : ∀ block ∈ plan.oldBlocks, s.canonicalHeight block.blockNumber = some block.blockHash
  oldLogs : ∀ log ∈ plan.oldLogs, (s.entry log.sourceStreamId).isSome = true ∧
    ∃ state, s.logState log.logicalLogId = some state ∧ state.active = true
  newHeads : ∀ head ∈ plan.newHeads, ∀ header, s.headers head.blockHash = some header →
    header = head.headerJson
  newEvents : ∀ event ∈ plan.newEvents, (s.logState event.logicalLogId).any (·.active) = false

theorem checkOldLog_eq_ok {log : OldLog} (h : s.checkOldLog log = .ok ()) :
    (s.entry log.sourceStreamId).isSome = true ∧
      ∃ state, s.logState log.logicalLogId = some state ∧ state.active = true := by
  rw [checkOldLog] at h
  split at h
  · cases h
  split at h
  · cases h
  next source hsource =>
    split at h
    · cases h
    split at h
    next hany =>
      cases hstate : s.logState log.logicalLogId with
      | none => simp [hstate] at hany
      | some state =>
        rw [hstate, any_some] at hany
        exact ⟨by rw [hsource]; rfl, state, rfl, (of_decide_eq_true hany).1⟩
    · cases h

theorem checkPlan_eq_ok {plan : Plan} (h : s.checkPlan plan = .ok ()) : s.Checked plan := by
  obtain ⟨-, -, h⟩ := bind_eq_ok.mp h
  obtain ⟨_, hhead, h⟩ := bind_eq_ok.mp h
  obtain ⟨-, -, h⟩ := bind_eq_ok.mp h
  obtain ⟨-, -, h⟩ := bind_eq_ok.mp h
  obtain ⟨_, hblocks, h⟩ := bind_eq_ok.mp h
  obtain ⟨_, hlogs, h⟩ := bind_eq_ok.mp h
  obtain ⟨_, hheads, hevents⟩ := bind_eq_ok.mp h
  refine ⟨?_, fun block hblock => ?_, fun log hlog => ?_, fun head hnew header hheader => ?_,
    fun event hevent => ?_⟩
  · split at hhead
    next heq => exact heq
    · cases hhead
  · have hcheck := requireAll_eq_ok.mp hblocks block hblock
    rw [checkOldBlock] at hcheck
    split at hcheck
    next heq => exact heq
    · cases hcheck
  · exact checkOldLog_eq_ok (requireAll_eq_ok.mp hlogs log hlog)
  · have hcheck := requireAll_eq_ok.mp hheads head hnew
    rw [checkNewHead, hheader] at hcheck
    split at hcheck
    · cases hcheck
    next hsame => simpa using hsame
  · have hcheck := requireAll_eq_ok.mp hevents event hevent
    rw [checkNewEvent] at hcheck
    split at hcheck
    · cases hcheck
    split at hcheck
    · cases hcheck
    next hinactive => exact Bool.not_eq_true _ ▸ hinactive

/-- A correction is refused, or its commit record is there, or its plan passes and is carried
out. -/
theorem correct_cases (w : Worker) (s : Store) (limits : CorrectionLimits)
    (charge : CorrectionCharge) (c : ReorgCorrection) :
    (∃ e, s.correct w.keccak256 w.fingerprint limits charge c = (s, .error e)) ∨
      (∃ outcome, s.recordIds c.commitRecordId ≠ none ∧ outcome.appended = false ∧
        s.correct w.keccak256 w.fingerprint limits charge c = (s, .ok outcome)) ∨
      ∃ plan, s.Planned w c plan ∧ s.Checked plan ∧ s.recordIds c.commitRecordId = none ∧
        s.correct w.keccak256 w.fingerprint limits charge c = ((s.commit plan).1,
            .ok ⟨(s.commit plan).2, true, plan.oldLogs.length, plan.newEvents.length⟩) := by
  unfold correct
  split
  · exact .inl ⟨_, rfl⟩
  next plan hplan =>
    have hplanned := makePlan_eq_ok hplan
    rw [← hplanned.commitRecordId]
    unfold correctionScript
    split
    · exact .inl ⟨_, rfl⟩
    split
    next id hsome =>
      exact .inr (.inl ⟨_, hsome ▸ some_ne_none id, rfl, rfl⟩)
    next hnew =>
      split
      · exact .inl ⟨_, rfl⟩
      next hcheck => exact .inr (.inr ⟨plan, hplanned, checkPlan_eq_ok hcheck, hnew, rfl⟩)

/-- A call changes nothing, or makes one write. -/
theorem perform_cases (w : Worker) (s : Store) (call : Call) :
    s.perform w call = s ∨
      (∃ block head promote, call = .head block ∧ DurableHead.fromBlock block = .ok head ∧
        s.checkHead w.fingerprint head = .ok promote ∧
        s.perform w call = ((s.writeHead head promote).promoteFinalized head).1 ∧
        ∃ finalizedHead,
          s.perform w call = { s.writeHead head promote with finalizedHead := finalizedHead }) ∨
      (∃ log event, call = .event log ∧ DurableEvent.fromLog w.keccak256 log = .ok event ∧
        s.recordIds event.recordId = none ∧
        (s.canonicalHeight (event.cursorOrder.take 20)).any (· ≠ event.blockHash) = false ∧
        (s.logState event.logicalLogId).any (·.active) = false ∧
        s.perform w call =
          (s.journalEvent event []).advanceCursor event.cursorJson event.cursorOrder ∧
        ∃ cursor order, s.perform w call =
          { s.journalEvent event [] with cursor := cursor, cursorOrder := order }) ∨
      ∃ resolution finalized logs core limits charge c plan,
        call = .correct resolution finalized logs core limits charge ∧
        ReorgCorrection.new w.keccak256 resolution finalized logs core = .ok c ∧
        s.Planned w c plan ∧ s.Checked plan ∧ s.recordIds c.commitRecordId = none ∧
        s.perform w call = (s.commit plan).1 := by
  cases call with
  | head block =>
    simp only [perform]
    split
    · exact .inl rfl
    next head hhead =>
      rcases s.appendHead_cases w.fingerprint head with hsame | ⟨promote, hcheck, hwrite⟩
      · exact .inl hsame
      obtain ⟨finalizedHead, hframe⟩ := (s.writeHead head promote).promoteFinalized_frame head
      exact .inr (.inl ⟨block, head, promote, rfl, hhead, hcheck, hwrite, finalizedHead,
        hwrite.trans hframe⟩)
  | event log =>
    simp only [perform]
    split
    · exact .inl rfl
    next event hevent =>
      rcases s.appendEvent_cases w.fingerprint event with ⟨_, hsame⟩ | ⟨_, -, hsame⟩ |
        ⟨hnew, hcanonical, hidle, h⟩
      · exact .inl (congrArg Prod.fst hsame)
      · exact .inl (congrArg Prod.fst hsame)
      have hwrite := congrArg Prod.fst h
      obtain ⟨cursor, order, hframe⟩ :=
        (s.journalEvent event []).advanceCursor_frame event.cursorJson event.cursorOrder
      exact .inr (.inr (.inl ⟨log, event, rfl, hevent, hnew, hcanonical, hidle, hwrite, cursor,
        order, hwrite.trans hframe⟩))
  | correct resolution finalized logs core limits charge =>
    simp only [perform]
    split
    · exact .inl rfl
    next c hc =>
      rcases s.correct_cases w limits charge c with ⟨_, hsame⟩ | ⟨_, -, -, hsame⟩ |
        ⟨plan, hplanned, hchecked, hnew, h⟩
      · exact .inl (congrArg Prod.fst hsame)
      · exact .inl (congrArg Prod.fst hsame)
      exact .inr (.inr (.inr ⟨resolution, finalized, logs, core, limits, charge, c, plan, rfl,
        hc, hplanned, hchecked, hnew, congrArg Prod.fst h⟩))

end Store

end Lunarbase.EventWorker
