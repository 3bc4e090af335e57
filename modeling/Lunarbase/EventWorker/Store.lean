import Lunarbase.EventWorker.Event
import Lunarbase.Support.LuaNumber
import Mathlib.Logic.Function.Basic

/-!
# EventWorker — Store

The Redis keys of the event worker and its journal script (`redis_store/commands.rs`): appending a
head and appending the record of a log.

A script runs atomically, so a call is a function of the store; what it has written when it
replies with an error stays written.  A hash is a function from its fields, a stream id the
position of its entry in the append-only stream.  The values that the scripts join with `|` and
take apart again (`log-state`, the log references of a block) are records.
-/

namespace Lunarbase.EventWorker

open Function

/-! ### Keys -/

abbrev StreamId := Nat

structure StreamEntry where
  id : StreamId
  fields : List (String × Text)
  deriving DecidableEq

def StreamEntry.field (entry : StreamEntry) (name : String) : Option Text :=
  entry.fields.lookup name

structure LogState where
  active : Bool
  revision : Nat
  recordId : Text
  streamId : StreamId
  blockHash : Text
  deriving DecidableEq

structure LogReference where
  cursorOrder : Text
  logicalLogId : Text
  recordId : Text
  streamId : StreamId
  deriving DecidableEq

structure JournalUsage where
  headers : Int
  headerBytes : Int
  logReferences : Int
  logReferenceBytes : Int
  deriving DecidableEq

structure Store where
  fingerprint : Option Text
  stream : List StreamEntry
  cursor : Option CursorEnvelope
  cursorOrder : Option Text
  recordIds : Text → Option StreamId
  logState : Text → Option LogState
  headers : Text → Option HeaderEnvelope
  canonicalHeight : Text → Option Text
  canonicalHead : Option Text
  finalizedHead : Option Text
  /-- Whether the manifest of an unfinished correction exists. -/
  reorgManifest : Bool
  usage : JournalUsage
  /-- The lists of log references, by block hash. -/
  blockLogs : Text → List LogReference

/-- The store after `initialize`. -/
def Store.initial (fingerprint : Text) : Store where
  fingerprint := some fingerprint
  stream := []
  cursor := none
  cursorOrder := none
  recordIds _ := none
  logState _ := none
  headers _ := none
  canonicalHeight _ := none
  canonicalHead := none
  finalizedHead := none
  reorgManifest := false
  usage := ⟨0, 0, 0, 0⟩
  blockLogs _ := []

inductive StoreError where
  | journal (message : String)
  | event (error : EventError)
  | correctionBudget (message : String)
  deriving DecidableEq, Repr

structure AppendOutcome where
  streamId : Option StreamId
  appended : Bool
  deriving DecidableEq, Repr

namespace Store

/-- The id `XADD` gives to the next entry. -/
def nextId (s : Store) : StreamId := s.stream.length + 1

/-- The entry that `xadd` appends. -/
def appended (s : Store) (recordType operation : String) (recordId : Text)
    (fields : List (String × Text)) : StreamEntry :=
  ⟨s.nextId, [("schemaVersion", ['2']), ("recordType", recordType.toList),
    ("operation", operation.toList), ("recordId", recordId)] ++ fields⟩

def xadd (s : Store) (recordType operation : String) (recordId : Text)
    (fields : List (String × Text)) : Store :=
  { s with stream := s.stream ++ [s.appended recordType operation recordId fields] }

/-- `XRANGE` of one id. -/
def entry (s : Store) (id : StreamId) : Option StreamEntry := s.stream.find? (·.id = id)

def recordAs (s : Store) (recordId : Text) (id : StreamId) : Store :=
  { s with recordIds := update s.recordIds recordId (some id) }

/-! ### Heads -/

/-- A header is stored once; `HSETNX` keeps the one that is there. -/
def storeHeader (s : Store) (head : DurableHead) : Store :=
  match s.headers head.blockHash with
  | some _ => s
  | none =>
    { s with
      headers := update s.headers head.blockHash (some head.headerJson)
      usage := { s.usage with
        headers := s.usage.headers + 1
        headerBytes := s.usage.headerBytes + head.headerJson.text.length } }

def mapHeight (s : Store) (blockNumber blockHash : Text) : Store :=
  { s with canonicalHeight := update s.canonicalHeight blockNumber (some blockHash) }

def journalError {α : Type} (message : String) : Except StoreError α := .error (.journal message)

/-- Whether the head becomes the canonical head. -/
def promotesHead (s : Store) (head : DurableHead) : Except StoreError Bool :=
  match s.canonicalHead with
  | none => .ok true
  | some canonicalHead =>
    if canonicalHead = head.blockHash then .ok true
    else match s.headers canonicalHead with
      | none => journalError "LUNARBASE_CANONICAL_HEAD_MISSING"
      | some header =>
        let canonicalNumber := Lua.toDouble header.blockNumber
        let nextNumber := Lua.tonumber head.blockNumber
        if canonicalNumber < nextNumber then
          if head.commitment ≠ "finalized" ∧ (nextNumber ≠ Lua.toDouble (canonicalNumber + 1) ∨
                head.parentHash ≠ canonicalHead) then
            journalError "LUNARBASE_HEAD_DISCONTINUITY"
          else .ok true
        else if nextNumber = canonicalNumber then
          journalError "LUNARBASE_FORK_REQUIRES_CORRECTION"
        else .ok false

/-- The key under which the script looks for the parent. -/
def parentKey (blockNumber : Text) : Text :=
  Lua.tostring (Lua.toDouble (Lua.tonumber blockNumber - 1))

/-- What the head branch of the script tests before it writes. -/
def checkHead (s : Store) (fingerprint : Text) (head : DurableHead) : Except StoreError Bool :=
  if s.fingerprint ≠ some fingerprint then journalError "LUNARBASE_METADATA_MISMATCH"
  else if s.reorgManifest then journalError "LUNARBASE_REORG_IN_PROGRESS"
  else if (s.headers head.blockHash).any (· ≠ head.headerJson) then
    journalError "LUNARBASE_HEADER_IDENTITY_MISMATCH"
  else if (s.canonicalHeight head.blockNumber).any (· ≠ head.blockHash) then
    journalError "LUNARBASE_FORK_REQUIRES_CORRECTION"
  else if 0 < Lua.tonumber head.blockNumber ∧
      (s.canonicalHeight (parentKey head.blockNumber)).any (· ≠ head.parentHash) then
    journalError "LUNARBASE_PARENT_LINK_MISMATCH"
  else s.promotesHead head

/-- The finalized head moves up only. -/
def promoteFinalized (s : Store) (head : DurableHead) : Store × Except StoreError Unit :=
  if head.commitment = "finalized" then
    match s.finalizedHead with
    | none => ({ s with finalizedHead := some head.blockHash }, .ok ())
    | some finalizedHead =>
      if finalizedHead = head.blockHash then (s, .ok ())
      else match s.headers finalizedHead with
        | none => (s, journalError "LUNARBASE_FINALIZED_HEAD_MISSING")
        | some header =>
          if Lua.toDouble header.blockNumber < Lua.tonumber head.blockNumber then
            ({ s with finalizedHead := some head.blockHash }, .ok ())
          else (s, .ok ())
  else (s, .ok ())

/-- `append_head`. -/
def appendHead (s : Store) (fingerprint : Text) (head : DurableHead) :
    Store × Except StoreError AppendOutcome :=
  match s.checkHead fingerprint head with
  | .error e => (s, .error e)
  | .ok promote =>
    let mapped := (s.storeHeader head).mapHeight head.blockNumber head.blockHash
    let promoted := if promote then { mapped with canonicalHead := some head.blockHash } else mapped
    match promoted.promoteFinalized head with
    | (s', .error e) => (s', .error e)
    | (s', .ok ()) => (s', .ok ⟨none, (s.headers head.blockHash).isNone⟩)

/-! ### Logs -/

/-- The revision of the next record of a log. -/
def nextRevision (s : Store) (logicalLogId : Text) : Nat :=
  match s.logState logicalLogId with
  | none => 1
  | some state => Lua.toDouble (Lua.reread state.revision + 1)

def advanceCursor (s : Store) (cursorJson : CursorEnvelope) (cursorOrder : Text) : Store :=
  if s.cursorOrder.all (· < cursorOrder) then
    { s with cursor := some cursorJson, cursorOrder := some cursorOrder }
  else s

def setLogState (s : Store) (logicalLogId : Text) (state : LogState) : Store :=
  { s with logState := update s.logState logicalLogId (some state) }

/-- A reference at the end of the list of a block. -/
def pushReference (s : Store) (blockHash : Text) (event : DurableEvent) (id : StreamId) : Store :=
  { s with
    blockLogs := update s.blockLogs blockHash
      (s.blockLogs blockHash ++ [⟨event.cursorOrder, event.logicalLogId, event.recordId, id⟩])
    usage := { s.usage with
      logReferences := s.usage.logReferences + 1
      logReferenceBytes := s.usage.logReferenceBytes + event.journalReferenceBytes } }

/-- The applied record of a log with everything that goes with it.  `extra` are the fields between
the revision and the event's own. -/
def journalEvent (s : Store) (event : DurableEvent) (extra : List (String × Text)) : Store :=
  let revision := s.nextRevision event.logicalLogId
  let id := s.nextId
  (((s.xadd "log" "applied" event.recordId
      ([("logicalLogId", event.logicalLogId), ("blockHash", event.blockHash),
        ("lifecycleRevision", Lua.tostring revision)] ++ extra ++ event.fields)).recordAs
      event.recordId id).setLogState event.logicalLogId
        ⟨true, revision, event.recordId, id, event.blockHash⟩).pushReference event.blockHash
        event id

/-- `append_event`. -/
def appendEvent (s : Store) (fingerprint : Text) (event : DurableEvent) :
    Store × Except StoreError AppendOutcome :=
  if s.fingerprint ≠ some fingerprint then (s, journalError "LUNARBASE_METADATA_MISMATCH")
  else if s.reorgManifest then (s, journalError "LUNARBASE_REORG_IN_PROGRESS")
  else match s.recordIds event.recordId with
    | some id => (s, .ok ⟨some id, false⟩)
    | none =>
      if (s.canonicalHeight (event.cursorOrder.take 20)).any (· ≠ event.blockHash) then
        (s, journalError "LUNARBASE_LOG_ON_NONCANONICAL_BLOCK")
      else if (s.logState event.logicalLogId).any (·.active) then
        (s, journalError "LUNARBASE_LOG_ALREADY_ACTIVE")
      else
        ((s.journalEvent event []).advanceCursor event.cursorJson event.cursorOrder,
          .ok ⟨some s.nextId, true⟩)

end Store

end Lunarbase.EventWorker
