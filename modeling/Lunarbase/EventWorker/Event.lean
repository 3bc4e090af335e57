import Lunarbase.Client.Correction

/-!
# EventWorker — Event

The durable records of the event worker (`event.rs`, `event/reorg.rs`): identities, positions and
the fields of a stream record, made from the chain data of the client.

Texts are lists of characters.  A header and a cursor that the source writes as JSON are kept as
the value that is written; the text of a header is there for its length.  The hash function is a
parameter.
-/

namespace Lunarbase.EventWorker

open Client (ChainCursor BlockRef ContractLog Commitment)
open Client.ChainCorrection (beBytes hashOptionalHash hashOptionalU32)
open List Digits

/-! ### Texts -/

abbrev Text := List Char

def decimal (n : Nat) : Text := Nat.toDigits 10 n

/-- `{n:0len}` of a number with at most `len` digits. -/
def padded (len n : Nat) : Text := (Digits.padDigits 10 len n).map Nat.digitChar

/-- `{:#x}` of a value of `len` hexadecimal digits. -/
def hexText (len n : Nat) : Text := '0' :: 'x' :: (Digits.padDigits 16 len n).map Nat.digitChar

def hashText (hash : B256) : Text := hexText 64 hash.toNat

def addressText (address : Address) : Text := hexText 40 address.toNat

def bytesText (bytes : List UInt8) : Text :=
  '0' :: 'x' :: bytes.flatMap fun byte => (Digits.padDigits 16 2 byte.toNat).map Nat.digitChar

/-- `as_bytes` of an ASCII text. -/
def asBytes (text : Text) : List UInt8 := text.map fun c => UInt8.ofNat c.toNat

/-! ### Records -/

def streamSchemaVersion : Nat := 2

def reorgIdDomain : Text := "lunarbase-durable-reorg-v3".toList
def logIdDomain : Text := "lunarbase-durable-log-v3".toList
def recordIdDomain : Text := "lunarbase-durable-record-v3".toList

inductive EventError where
  | cursorIdentity
  | stableIdentity (reason : String)
  | headIdentity
  deriving DecidableEq, Repr

structure CursorEnvelope where
  schemaVersion : Nat
  chainId : Nat
  core : Text
  cursor : ChainCursor
  deriving DecidableEq

structure HeaderEnvelope where
  schemaVersion : Nat
  chainId : Nat
  blockNumber : Nat
  executionBlockNumber : Nat
  blockHash : B256
  parentHash : B256
  deriving DecidableEq

structure DurableEvent where
  recordId : Text
  logicalLogId : Text
  blockHash : Text
  cursorJson : CursorEnvelope
  cursorOrder : Text
  fields : List (String × Text)
  deriving DecidableEq

structure DurableHead where
  headerJson : HeaderEnvelope
  blockHash : Text
  parentHash : Text
  blockNumber : Text
  commitment : String
  deriving DecidableEq

/-- The text of a header. -/
def HeaderEnvelope.text (header : HeaderEnvelope) : Text :=
  "\x7b\"schemaVersion\":".toList ++ decimal header.schemaVersion ++ ",\"chainId\":".toList ++
    decimal header.chainId ++ ",\"blockNumber\":".toList ++ decimal header.blockNumber ++
    ",\"executionBlockNumber\":".toList ++ decimal header.executionBlockNumber ++
    ",\"blockHash\":\"".toList ++ hashText header.blockHash ++ "\",\"parentHash\":\"".toList ++
    hashText header.parentHash ++ "\"\x7d".toList

def commitmentName : Commitment → String
  | .realtime => "realtime"
  | .canonical => "block-ordered"
  | .finalized => "finalized"

def encodeCursor (cursor : ChainCursor) (core : Text) : CursorEnvelope :=
  ⟨streamSchemaVersion, cursor.chainId, core, cursor⟩

def cursorOrder (cursor : ChainCursor) : Text :=
  match cursor.eventOrder with
  | [block, transaction, log, sequence, subIndex] =>
    padded 20 block ++ ':' :: padded 10 transaction ++ ':' :: padded 10 log ++
      ':' :: padded 20 sequence ++ ':' :: padded 10 subIndex
  | _ => []

def encodeId (digest : B256) : Text := 'v' :: '3' :: ':' :: hashText digest

/-! ### Logs -/

structure StableLogIdentity where
  blockHash : B256
  transactionHash : B256
  transactionIndex : Nat
  logIndex : Nat

def stableLogIdentity (log : ContractLog) : Except EventError StableLogIdentity := do
  let blockHash ← .ofOption (.stableIdentity "block hash is absent")
    (log.cursor.blockHash.filter (· ≠ 0))
  let transactionHash ← .ofOption (.stableIdentity "transaction hash is absent")
    (log.transactionHash.filter (· ≠ 0))
  let transactionIndex ← .ofOption (.stableIdentity "transaction index is absent")
    log.cursor.transactionIndex
  let logIndex ← .ofOption (.stableIdentity "log index is absent") log.cursor.logIndex
  .ok ⟨blockHash, transactionHash, transactionIndex, logIndex⟩

def logicalLogId (keccak256 : List UInt8 → B256) (log : ContractLog)
    (identity : StableLogIdentity) : Text :=
  encodeId (keccak256 (asBytes logIdDomain ++ beBytes 8 log.cursor.chainId ++
    beBytes 20 log.address.toNat ++ beBytes 32 identity.blockHash.toNat ++
    beBytes 32 identity.transactionHash.toNat ++ beBytes 4 identity.transactionIndex ++
    beBytes 4 identity.logIndex))

def originRecordId (keccak256 : List UInt8 → B256) (logicalLogId : Text) (log : ContractLog) :
    Text :=
  encodeId (keccak256 (asBytes recordIdDomain ++ asBytes logicalLogId ++
    asBytes "origin".toList ++ beBytes 8 log.cursor.executionBlockNumber ++
    beBytes 8 log.topics.length ++ log.topics.flatMap (fun topic => beBytes 32 topic.toNat) ++
    beBytes 8 log.data.length ++ log.data))

/-- `serde_json::to_string` of the topics. -/
def topicsText (topics : List B256) : Text :=
  '[' :: (List.intercalate [','] (topics.map fun topic => '"' :: hashText topic ++ ['"'])) ++ [']']

def DurableEvent.fromLog (keccak256 : List UInt8 → B256) (log : ContractLog) :
    Except EventError DurableEvent :=
  if log.removed then
    .error (.stableIdentity "provider removals require resolved fork correction")
  else if log.topics = [] ∨ 4 < log.topics.length then
    .error (.stableIdentity "topic0 is absent or invalid")
  else do
    let identity ← stableLogIdentity log
    let logicalLogId := EventWorker.logicalLogId keccak256 log identity
    let core := addressText log.address
    .ok
      { recordId := originRecordId keccak256 logicalLogId log
        logicalLogId := logicalLogId
        blockHash := hashText identity.blockHash
        cursorJson := encodeCursor log.cursor core
        cursorOrder := EventWorker.cursorOrder log.cursor
        fields :=
          [("chainId", decimal log.cursor.chainId), ("core", core),
            ("commitment", (commitmentName log.cursor.commitment).toList),
            ("blockNumber", decimal log.cursor.blockNumber),
            ("executionBlockNumber", decimal log.cursor.executionBlockNumber),
            ("transactionHash", hashText identity.transactionHash),
            ("transactionIndex", decimal identity.transactionIndex),
            ("logIndex", decimal identity.logIndex)] ++
          (log.cursor.sourceSequence.map fun n => ("sourceSequence", decimal n)).toList ++
          (log.cursor.sourceSubIndex.map fun n => ("sourceSubIndex", decimal n)).toList ++
          [("topics", topicsText log.topics), ("data", bytesText log.data)] }

def DurableEvent.journalReferenceBytes (event : DurableEvent) : Nat :=
  event.cursorOrder.length + event.logicalLogId.length + event.recordId.length + 32 + 3

/-! ### Heads -/

def DurableHead.fromBlock (block : BlockRef) : Except EventError DurableHead := do
  let blockHash ← .ofOption .headIdentity block.cursor.blockHash
  let parentHash ← .ofOption .headIdentity block.parentHash
  if blockHash = 0 ∨ block.cursor.transactionIndex.isSome ∨ block.cursor.logIndex.isSome then
    .error .headIdentity
  else
    .ok
      { headerJson := ⟨streamSchemaVersion, block.cursor.chainId, block.cursor.blockNumber,
          block.cursor.executionBlockNumber, blockHash, parentHash⟩
        blockHash := hashText blockHash
        parentHash := hashText parentHash
        blockNumber := decimal block.cursor.blockNumber
        commitment := commitmentName block.cursor.commitment }

/-- `decode_header` after the JSON has been read. -/
def decodeHeader (envelope : HeaderEnvelope) (expectedChainId : Nat) :
    Except EventError BlockRef :=
  if envelope.schemaVersion ≠ streamSchemaVersion ∨ envelope.chainId ≠ expectedChainId ∨
      envelope.blockHash = 0 ∨ envelope.parentHash = 0 then
    .error .headIdentity
  else
    .ok ⟨⟨envelope.chainId, envelope.blockNumber, envelope.executionBlockNumber,
      some envelope.blockHash, none, none, none, none, .canonical⟩, some envelope.parentHash⟩

/-! ### Corrections -/

/-- `branch` leads from the block `ancestor` to the block `tip`, each block the child of the one
before it. -/
def Linked (ancestor : BlockRef) : List BlockRef → BlockRef → Prop
  | [], tip => tip = ancestor
  | block :: rest, tip =>
    block.cursor.blockNumber = ancestor.cursor.blockNumber + 1 ∧
      block.parentHash = ancestor.cursor.blockHash ∧ Linked block rest tip

/-- A fork resolution.  Both ways to one, the resolver and a validated correction of the source,
give branches that are linked to the common ancestor. -/
structure ForkResolution where
  commonAncestor : BlockRef
  oldTip : BlockRef
  newTip : BlockRef
  oldBranch : List BlockRef
  newBranch : List BlockRef
  oldLinked : Linked commonAncestor oldBranch oldTip
  newLinked : Linked commonAncestor newBranch newTip

structure CorrectionBlock where
  blockHash : Text
  blockNumber : Text
  deriving DecidableEq

structure ReorgCorrection where
  reorgId : Text
  beginRecordId : Text
  commitRecordId : Text
  chainId : Text
  core : Text
  ancestor : BlockRef
  oldTip : BlockRef
  newTip : BlockRef
  finalized : BlockRef
  oldBlocks : List CorrectionBlock
  newHeads : List DurableHead
  newEvents : List DurableEvent
  cursorJson : CursorEnvelope
  cursorOrder : Text
  deriving DecidableEq

def requiredHash (block : BlockRef) : Except EventError B256 :=
  .ofOption .headIdentity block.cursor.blockHash

def requiredParent (block : BlockRef) : Except EventError B256 :=
  .ofOption .headIdentity block.parentHash

def hashBlock (block : BlockRef) : List UInt8 :=
  beBytes 8 block.cursor.chainId ++ beBytes 8 block.cursor.blockNumber ++
    beBytes 8 block.cursor.executionBlockNumber ++ hashOptionalHash block.cursor.blockHash ++
    hashOptionalHash block.parentHash

def hashBlocks (blocks : List BlockRef) : List UInt8 :=
  beBytes 8 blocks.length ++ blocks.flatMap hashBlock

def hashLog (log : ContractLog) : List UInt8 :=
  beBytes 20 log.address.toNat ++ beBytes 8 log.cursor.chainId ++
    beBytes 8 log.cursor.blockNumber ++ beBytes 8 log.cursor.executionBlockNumber ++
    hashOptionalHash log.cursor.blockHash ++ hashOptionalHash log.transactionHash ++
    hashOptionalU32 log.cursor.transactionIndex ++ hashOptionalU32 log.cursor.logIndex ++
    beBytes 8 log.topics.length ++ log.topics.flatMap (fun topic => beBytes 32 topic.toNat) ++
    beBytes 8 log.data.length ++ log.data

def reorgId (keccak256 : List UInt8 → B256) (resolution : ForkResolution)
    (logs : List ContractLog) (core : Address) : Text :=
  encodeId (keccak256 (asBytes reorgIdDomain ++ beBytes 20 core.toNat ++
    hashBlock resolution.commonAncestor ++ hashBlock resolution.oldTip ++
    hashBlock resolution.newTip ++ hashBlocks resolution.oldBranch ++
    hashBlocks resolution.newBranch ++ beBytes 8 logs.length ++ logs.flatMap hashLog))

def lifecycleRecordId (keccak256 : List UInt8 → B256) (logicalLogId reorgId operation : Text) :
    Text :=
  encodeId (keccak256 (asBytes recordIdDomain ++ asBytes logicalLogId ++ asBytes reorgId ++
    asBytes operation))

def controlRecordId (keccak256 : List UInt8 → B256) (reorgId operation : Text) : Text :=
  encodeId (keccak256 (asBytes recordIdDomain ++ asBytes reorgId ++ asBytes operation))

/-- The loop over the replacement logs: each in the new branch, in strict event order. -/
def replacementEvents (keccak256 : List UInt8 → B256) (reorgId : Text)
    (allowed : List (Nat × B256)) (previousOrder : Option (List Nat)) :
    List ContractLog → Except EventError (List DurableEvent)
  | [] => .ok []
  | log :: rest => do
    let hash ← .ofOption (.stableIdentity "block hash is absent") log.cursor.blockHash
    if allowed.reverse.lookup log.cursor.blockNumber ≠ some hash then
      .error (.stableIdentity "replacement log is outside the resolved branch")
    else if previousOrder.any fun previous => ¬ previous < log.cursor.eventOrder then
      .error (.stableIdentity "replacement logs are not in strict event order")
    else do
      let event ← DurableEvent.fromLog keccak256 log
      let events ← replacementEvents keccak256 reorgId allowed (some log.cursor.eventOrder) rest
      .ok ({ event with
        recordId :=
          lifecycleRecordId keccak256 event.logicalLogId reorgId "applied".toList } :: events)

namespace ReorgCorrection

/-- The position after every log of the block. -/
def recoveryCursor (block : BlockRef) : ChainCursor :=
  { block.cursor with transactionIndex := some (2 ^ 32 - 1), logIndex := some (2 ^ 32 - 1) }

def correctionBlock (block : BlockRef) : Except EventError CorrectionBlock := do
  let hash ← requiredHash block
  .ok ⟨hashText hash, decimal block.cursor.blockNumber⟩

def new (keccak256 : List UInt8 → B256) (resolution : ForkResolution) (finalized : BlockRef)
    (logs : List ContractLog) (core : Address) : Except EventError ReorgCorrection := do
  let _ ← requiredHash resolution.commonAncestor
  let _ ← requiredHash resolution.oldTip
  let _ ← requiredHash resolution.newTip
  let _ ← requiredHash finalized
  let reorgId := EventWorker.reorgId keccak256 resolution logs core
  let allowed ← resolution.newBranch.mapM fun block => do
    let hash ← requiredHash block
    .ok (block.cursor.blockNumber, hash)
  let newEvents ← replacementEvents keccak256 reorgId allowed none logs
  let newHeads ← resolution.newBranch.mapM DurableHead.fromBlock
  let oldBlocks ← resolution.oldBranch.mapM correctionBlock
  .ok
    { reorgId := reorgId
      beginRecordId := controlRecordId keccak256 reorgId "begin".toList
      commitRecordId := controlRecordId keccak256 reorgId "commit".toList
      chainId := decimal resolution.oldTip.cursor.chainId
      core := addressText core
      ancestor := resolution.commonAncestor
      oldTip := resolution.oldTip
      newTip := resolution.newTip
      finalized := finalized
      oldBlocks := oldBlocks
      newHeads := newHeads
      newEvents := newEvents
      cursorJson := encodeCursor (recoveryCursor resolution.newTip) (addressText core)
      cursorOrder := EventWorker.cursorOrder (recoveryCursor resolution.newTip) }

def controlFields (c : ReorgCorrection) (reverted : Nat) :
    Except EventError (List (String × Text)) := do
  let ancestorHash ← requiredHash c.ancestor
  let oldTipHash ← requiredHash c.oldTip
  let oldTipParent ← requiredParent c.oldTip
  let newTipHash ← requiredHash c.newTip
  let newTipParent ← requiredParent c.newTip
  let finalizedHash ← requiredHash c.finalized
  .ok [("chainId", c.chainId), ("core", c.core), ("reorgId", c.reorgId),
    ("ancestorBlockNumber", decimal c.ancestor.cursor.blockNumber),
    ("ancestorExecutionBlockNumber", decimal c.ancestor.cursor.executionBlockNumber),
    ("ancestorBlockHash", hashText ancestorHash),
    ("oldTipBlockNumber", decimal c.oldTip.cursor.blockNumber),
    ("oldTipExecutionBlockNumber", decimal c.oldTip.cursor.executionBlockNumber),
    ("oldTipBlockHash", hashText oldTipHash), ("oldTipParentHash", hashText oldTipParent),
    ("newTipBlockNumber", decimal c.newTip.cursor.blockNumber),
    ("newTipExecutionBlockNumber", decimal c.newTip.cursor.executionBlockNumber),
    ("newTipBlockHash", hashText newTipHash), ("newTipParentHash", hashText newTipParent),
    ("finalizedBlockNumber", decimal c.finalized.cursor.blockNumber),
    ("finalizedBlockHash", hashText finalizedHash), ("revertedLogCount", decimal reverted),
    ("appliedLogCount", decimal c.newEvents.length)]

end ReorgCorrection

/-! ### Which texts coincide -/

theorem decimal_injective : Function.Injective decimal := by
  intro m n h
  have hvalue := congrArg (fun text => Nat.ofDigitChars 10 text 0) h
  simpa only [decimal, Nat.ofDigitChars_ten_toDigits] using hvalue

theorem hexText_injective {w len : Nat} (hwidth : 2 ^ w = 16 ^ len) :
    Function.Injective fun value : BitVec w => hexText len value.toNat := by
  intro a b h
  have hdigits := List.cons.inj (List.cons.inj h).2 |>.2
  have hinj : ∀ d < 16, ∀ e < 16, Nat.digitChar d = Nat.digitChar e → d = e := by decide
  refine BitVec.eq_of_toNat_eq (map_padDigits_inj (by decide) hinj ?_ ?_ hdigits)
  · exact a.isLt.trans_eq hwidth
  · exact b.isLt.trans_eq hwidth

theorem hashText_injective : Function.Injective hashText := hexText_injective (by decide)

theorem addressText_injective : Function.Injective addressText := hexText_injective (by decide)

theorem take_cursorOrder (cursor : ChainCursor) :
    (cursorOrder cursor).take 20 = padded 20 cursor.blockNumber := by
  have hlength : (padded 20 cursor.blockNumber).length = 20 := by simp [padded]
  unfold cursorOrder ChainCursor.eventOrder
  dsimp only
  rw [append_assoc, append_assoc, append_assoc,
    take_append_of_le_length hlength.ge, take_of_length_le hlength.le]

/-- From `10 ^ 19` on a height fills its padding. -/
theorem padded_eq_decimal {n : Nat} (hlow : 10 ^ 19 ≤ n) (hhigh : n < 2 ^ 64) :
    padded 20 n = decimal n :=
  map_padDigits_eq_toDigits hlow (hhigh.trans (by decide))

/-- Below, the padded text of a height is the decimal text of no number. -/
theorem padded_ne_decimal {n : Nat} (h : n < 10 ^ 19) (m : Nat) : padded 20 n ≠ decimal m := by
  intro heq
  have hvalue := congrArg (fun text => Nat.ofDigitChars 10 text 0) heq
  simp only [padded, decimal, Nat.ofDigitChars_ten_toDigits] at hvalue
  rw [ofDigitChars_padDigits (h.trans (by decide))] at hvalue
  subst hvalue
  have hlength : (padded 20 n).length = 20 := by simp [padded]
  have hshort : (decimal n).length ≤ 19 :=
    (Nat.length_toDigits_le_iff (by decide) (by decide)).mpr h
  rw [← heq, hlength] at hshort
  exact absurd hshort (by decide)

end Lunarbase.EventWorker
