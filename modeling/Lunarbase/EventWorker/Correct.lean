import Lunarbase.EventWorker.Store

/-!
# EventWorker — Correct

The fork correction of the durable journal (`redis_store/correction.rs`, `correction.lua`): the
plan is made from the stored log references of the old branch, and the script tests it and carries
it out at once.
-/

namespace Lunarbase.EventWorker

structure CorrectionLimits where
  maxEvents : Nat
  maxBytes : Nat
  deriving DecidableEq, Repr

/-- What a batch is charged: alone, and with the old records and the payload of the script. -/
structure CorrectionCharge where
  retained : Nat
  total : Nat
  deriving DecidableEq, Repr

structure OldLog where
  logicalLogId : Text
  sourceRecordId : Text
  sourceStreamId : StreamId
  recordId : Text
  blockHash : Text
  deriving DecidableEq

structure Plan where
  fingerprint : Text
  reorgId : Text
  beginRecordId : Text
  commitRecordId : Text
  oldTipHash : Text
  newTipHash : Text
  finalizedHash : Text
  cursorJson : CursorEnvelope
  cursorOrder : Text
  controlFields : List (String × Text)
  oldBlocks : List CorrectionBlock
  oldLogs : List OldLog
  newHeads : List DurableHead
  newEvents : List DurableEvent
  removedReferenceCount : Nat
  removedReferenceBytes : Nat
  deriving DecidableEq

structure CorrectionOutcome where
  streamId : StreamId
  appended : Bool
  reverted : Nat
  applied : Nat
  deriving DecidableEq, Repr

def LogReference.bytes (reference : LogReference) : Nat :=
  reference.cursorOrder.length + reference.logicalLogId.length + reference.recordId.length + 32 + 3

/-- Every item passes the test, or the first that does not gives the error. -/
def requireAll {α : Type} (test : α → Except StoreError Unit) : List α → Except StoreError Unit
  | [] => .ok ()
  | item :: rest => do
    test item
    requireAll test rest

namespace Store

/-! ### The plan -/

/-- The logs of the old branch, from its last log back to its first. -/
def materializeOldLogs (keccak256 : List UInt8 → B256) (s : Store) (c : ReorgCorrection) :
    List OldLog :=
  c.oldBlocks.reverse.flatMap fun block =>
    (s.blockLogs block.blockHash).reverse.map fun reference =>
    { logicalLogId := reference.logicalLogId
      sourceRecordId := reference.recordId
      sourceStreamId := reference.streamId
      recordId :=
        lifecycleRecordId keccak256 reference.logicalLogId c.reorgId "reverted".toList
      blockHash := block.blockHash }

def eventHeader (c : ReorgCorrection) (event : DurableEvent) : Except StoreError Unit :=
  if c.newHeads.any (·.blockHash = event.blockHash) then .ok ()
  else journalError "replacement log has no replacement header"

def requiredTip (block : Client.BlockRef) : Except StoreError Text :=
  (Except.ofOption (.journal "correction block hash is absent") block.cursor.blockHash).map hashText

def references (s : Store) (c : ReorgCorrection) : List LogReference :=
  c.oldBlocks.flatMap fun block => s.blockLogs block.blockHash

/-- `correct` up to the call of the script. -/
def makePlan (keccak256 : List UInt8 → B256) (s : Store) (fingerprint : Text)
    (limits : CorrectionLimits) (charge : CorrectionCharge) (c : ReorgCorrection) :
    Except StoreError Plan := do
  (if limits.maxBytes < charge.retained then
    .error (.correctionBudget "correction byte limit exceeded") else .ok ())
  (if limits.maxEvents < c.newEvents.length + 2 then
    .error (.correctionBudget "correction event limit exceeded") else .ok ())
  (if limits.maxEvents - (c.newEvents.length + 2) < (s.references c).length then
    .error (.correctionBudget "correction event limit exceeded") else .ok ())
  let oldLogs := s.materializeOldLogs keccak256 c
  (if limits.maxEvents < oldLogs.length + c.newEvents.length + 2 then
    .error (.correctionBudget "correction event limit exceeded") else .ok ())
  requireAll (fun log : OldLog =>
    if (s.entry log.sourceStreamId).isSome then .ok ()
    else journalError "old branch stream entry is missing") oldLogs
  let controlFields ← (c.controlFields oldLogs.length).mapError .event
  let oldTipHash ← requiredTip c.oldTip
  let newTipHash ← requiredTip c.newTip
  let finalizedHash ← requiredTip c.finalized
  requireAll (eventHeader c) c.newEvents
  (if limits.maxBytes < charge.total then
    .error (.correctionBudget "correction byte limit exceeded") else .ok ())
  .ok
    { fingerprint := fingerprint
      reorgId := c.reorgId
      beginRecordId := c.beginRecordId
      commitRecordId := c.commitRecordId
      oldTipHash := oldTipHash
      newTipHash := newTipHash
      finalizedHash := finalizedHash
      cursorJson := c.cursorJson
      cursorOrder := c.cursorOrder
      controlFields := controlFields
      oldBlocks := c.oldBlocks
      oldLogs := oldLogs
      newHeads := c.newHeads
      newEvents := c.newEvents
      removedReferenceCount := (s.references c).length
      removedReferenceBytes := ((s.references c).map LogReference.bytes).sum }

/-! ### The script -/

def checkOldBlock (s : Store) (block : CorrectionBlock) : Except StoreError Unit :=
  if s.canonicalHeight block.blockNumber = some block.blockHash then .ok ()
  else journalError "LUNARBASE_REORG_OLD_BRANCH_MISMATCH"

/-- A log to be reverted has its applied record in the stream and is active through it. -/
def checkOldLog (s : Store) (log : OldLog) : Except StoreError Unit :=
  if (s.recordIds log.recordId).isSome then journalError "LUNARBASE_REORG_RECORD_EXISTS"
  else match s.entry log.sourceStreamId with
    | none => journalError "LUNARBASE_REORG_SOURCE_EVENT_MISSING"
    | some source =>
      if source.field "recordId" ≠ some log.sourceRecordId ∨
          source.field "logicalLogId" ≠ some log.logicalLogId ∨
          source.field "blockHash" ≠ some log.blockHash ∨
          source.field "operation" ≠ some "applied".toList then
        journalError "LUNARBASE_REORG_SOURCE_EVENT_MISMATCH"
      else if (s.logState log.logicalLogId).any fun state =>
          state.active ∧ state.recordId = log.sourceRecordId ∧
            state.streamId = log.sourceStreamId ∧ state.blockHash = log.blockHash then .ok ()
      else journalError "LUNARBASE_REORG_LOG_STATE_MISMATCH"

def checkNewHead (s : Store) (head : DurableHead) : Except StoreError Unit :=
  if (s.headers head.blockHash).any (· ≠ head.headerJson) then
    journalError "LUNARBASE_HEADER_IDENTITY_MISMATCH"
  else .ok ()

def checkNewEvent (s : Store) (event : DurableEvent) : Except StoreError Unit :=
  if (s.recordIds event.recordId).isSome then journalError "LUNARBASE_REORG_RECORD_EXISTS"
  else if (s.logState event.logicalLogId).any (·.active) then
    journalError "LUNARBASE_LOG_ALREADY_ACTIVE"
  else .ok ()

/-- What the script tests after the short cut for a committed correction. -/
def checkPlan (s : Store) (plan : Plan) : Except StoreError Unit := do
  (if s.reorgManifest then journalError "LUNARBASE_REORG_IN_PROGRESS" else .ok ())
  (if s.canonicalHead = some plan.oldTipHash then .ok ()
    else journalError "LUNARBASE_REORG_STALE_HEAD")
  (if s.finalizedHead = some plan.finalizedHash then .ok ()
    else journalError "LUNARBASE_REORG_FINALIZED_MISMATCH")
  (if (s.recordIds plan.beginRecordId).isSome then journalError "LUNARBASE_PARTIAL_REORG_STATE"
    else .ok ())
  requireAll s.checkOldBlock plan.oldBlocks
  requireAll s.checkOldLog plan.oldLogs
  requireAll s.checkNewHead plan.newHeads
  requireAll s.checkNewEvent plan.newEvents

/-- The fields of an applied record that its reversal repeats. -/
def repeatedField (name : String) : Bool :=
  name ∉ ["schemaVersion", "recordType", "operation", "recordId", "logicalLogId", "blockHash",
    "lifecycleRevision", "reorgId"]

/-- A log is reverted.  The tests have found its applied record and its state. -/
def revertLog (reorgId : Text) (s : Store) (log : OldLog) : Store :=
  match s.entry log.sourceStreamId with
  | none => s
  | some source =>
    let revision := s.nextRevision log.logicalLogId
    let id := s.nextId
    ((s.xadd "log" "reverted" log.recordId
        ([("logicalLogId", log.logicalLogId), ("blockHash", log.blockHash),
          ("lifecycleRevision", Lua.tostring revision), ("reorgId", reorgId)] ++
          source.fields.filter fun field => repeatedField field.1)).recordAs log.recordId
        id).setLogState log.logicalLogId ⟨false, revision, log.recordId, id, log.blockHash⟩

def removeBlock (s : Store) (block : CorrectionBlock) : Store :=
  { s with
    canonicalHeight := Function.update s.canonicalHeight block.blockNumber none
    blockLogs := Function.update s.blockLogs block.blockHash [] }

def releaseReferences (s : Store) (count bytes : Nat) : Store :=
  if 0 < count then
    { s with
      usage := { s.usage with
        logReferences := s.usage.logReferences - count
        logReferenceBytes := s.usage.logReferenceBytes - bytes } }
  else s

def installHead (s : Store) (head : DurableHead) : Store :=
  (s.storeHeader head).mapHeight head.blockNumber head.blockHash

def applyEvent (reorgId : Text) (s : Store) (event : DurableEvent) : Store :=
  s.journalEvent event [("reorgId", reorgId)]

def control (s : Store) (plan : Plan) (operation : String) (recordId : Text) : Store :=
  (s.xadd "reorg" operation recordId plan.controlFields).recordAs recordId s.nextId

/-- The old branch is taken out of the store. -/
def revertBranch (s : Store) (plan : Plan) : Store :=
  let reverted := plan.oldLogs.foldl (revertLog plan.reorgId) s
  (plan.oldBlocks.foldl removeBlock reverted).releaseReferences plan.removedReferenceCount
    plan.removedReferenceBytes

/-- The new branch is put in. -/
def applyBranch (s : Store) (plan : Plan) : Store :=
  plan.newEvents.foldl (applyEvent plan.reorgId) (plan.newHeads.foldl installHead s)

def setTip (s : Store) (plan : Plan) : Store :=
  { s with
    canonicalHead := some plan.newTipHash
    cursor := some plan.cursorJson
    cursorOrder := some plan.cursorOrder }

/-- The writes of the script, and the id of the commit record. -/
def commit (s : Store) (plan : Plan) : Store × StreamId :=
  let begun := { s with reorgManifest := true }.control plan "begin" plan.beginRecordId
  let moved := ((begun.revertBranch plan).applyBranch plan).setTip plan
  ({ moved.control plan "commit" plan.commitRecordId with reorgManifest := false }, moved.nextId)

def correctionScript (s : Store) (plan : Plan) : Store × Except StoreError CorrectionOutcome :=
  if s.fingerprint ≠ some plan.fingerprint then (s, journalError "LUNARBASE_METADATA_MISMATCH")
  else match s.recordIds plan.commitRecordId with
    | some committed =>
      (s, .ok ⟨committed, false, plan.oldLogs.length, plan.newEvents.length⟩)
    | none =>
      match s.checkPlan plan with
      | .error e => (s, .error e)
      | .ok () =>
        let (s', id) := s.commit plan
        (s', .ok ⟨id, true, plan.oldLogs.length, plan.newEvents.length⟩)

def correct (keccak256 : List UInt8 → B256) (s : Store) (fingerprint : Text)
    (limits : CorrectionLimits) (charge : CorrectionCharge) (c : ReorgCorrection) :
    Store × Except StoreError CorrectionOutcome :=
  match s.makePlan keccak256 fingerprint limits charge c with
  | .error e => (s, .error e)
  | .ok plan => s.correctionScript plan

end Store

end Lunarbase.EventWorker
