import Lunarbase.EventWorker.Event
import Lunarbase.TypeScript.Journal

/-!
# TypeScript — Correction

The envelope of a correction and its fingerprint (`indexer/correction_validation.ts`,
`indexer/correction_fingerprint.ts`), the cursor policy (`indexer/cursor_policy.ts`) and the
finality guard (`indexer/finality_guard.ts`).

Shape checks that the type of a value answers (records, arrays, hexadecimal texts, the commitment)
are left out; ranges of numbers are kept.
-/

namespace Lunarbase.TsClient

open Client (ChainCursor BlockRef ContractLog ChainCorrection Commitment Platform u32Max u64Max)
open EventWorker (Text decimal hashText addressText bytesText asBytes)
open List Except

/-! ### Envelope -/

def maxReplacementLogs : Nat := 8192

def isNonzeroHash (hash : Option B256) : Bool := hash.any fun hash => hash ≠ 0

/-- A number that is there fits. -/
def optionalUint (value : Option Nat) (maximum : Nat) : Bool :=
  value.all fun value => value ≤ maximum

def validateCursorShape (cursor : ChainCursor) (label : String) : Except Failure Unit :=
  if u64Max < cursor.chainId then .error (gap (label ++ " chain id is not uint64"))
  else if u64Max < cursor.blockNumber then .error (gap (label ++ " block number is not uint64"))
  else if u64Max < cursor.executionBlockNumber then
    .error (gap (label ++ " execution block is not uint64"))
  else if !optionalUint cursor.transactionIndex u32Max then
    .error (gap (label ++ " transaction index is not uint32"))
  else if !optionalUint cursor.logIndex u32Max then
    .error (gap (label ++ " log index is not uint32"))
  else if !optionalUint cursor.sourceSequence u64Max then
    .error (gap (label ++ " source sequence is not uint64"))
  else if !optionalUint cursor.sourceSubIndex u32Max then
    .error (gap (label ++ " source sub-index is not uint32"))
  else .ok ()

def validateBlock (block : BlockRef) (chainId : Nat) : Except Failure Unit := do
  validateCursorShape block.cursor "correction block cursor"
  if block.cursor.chainId ≠ chainId then .error (gap "correction block chain id mismatch")
  else if block.cursor.blockHash.isNone then
    .error (gap "correction block has no hash identity")
  else if !isNonzeroHash block.cursor.blockHash then
    .error (gap "correction block has an invalid hash identity")
  else if block.cursor.transactionIndex.isSome ∨ block.cursor.logIndex.isSome then
    .error (gap "correction BlockRef must use a block-level cursor")
  else .ok ()

/-- Everything but the hash of the text form is compared. -/
def assertBlockRef (left right : BlockRef) (message : String) : Except Failure Unit :=
  if left.cursor.blockHash.isSome ∧ left = right then .ok () else .error (gap message)

/-- The loop of `validateBranch`; the last parent has to be the tip. -/
def validateBranchFrom (chainId : Nat) (tip : BlockRef) (parent : BlockRef) :
    List BlockRef → Except Failure Unit
  | [] => assertBlockRef parent tip "correction branch does not end at its declared tip"
  | block :: rest => do
    validateBlock block chainId
    if block.cursor.blockNumber ≠ parent.cursor.blockNumber + 1 then
      .error (gap "correction branch is not block-contiguous")
    else if parent.cursor.blockHash.isNone ∨ block.parentHash ≠ parent.cursor.blockHash then
      .error (gap "correction branch parent linkage is invalid")
    else validateBranchFrom chainId tip block rest

def validateBranch (ancestor tip : BlockRef) (branch : List BlockRef) : Except Failure Unit :=
  match branch with
  | [] => assertBlockRef ancestor tip "empty correction branch does not end at its tip"
  | branch => validateBranchFrom ancestor.cursor.chainId tip ancestor branch

/-- The loop of `validateHashBindings`: `seen` are the blocks bound so far, the latest first. -/
def bindHashes (seen : List BlockRef) : List BlockRef → Except Failure Unit
  | [] => .ok ()
  | block :: rest =>
    match seen.find? fun previous => previous.cursor.blockHash = block.cursor.blockHash with
    | some previous =>
      if previous.cursor.chainId ≠ block.cursor.chainId ∨
          previous.cursor.blockNumber ≠ block.cursor.blockNumber ∨
          previous.cursor.executionBlockNumber ≠ block.cursor.executionBlockNumber ∨
          previous.parentHash ≠ block.parentHash then
        .error (gap "correction reuses a block hash with conflicting identity")
      else bindHashes (block :: seen) rest
    | none => bindHashes (block :: seen) rest

def validateHashBindings (c : ChainCorrection) : Except Failure Unit :=
  bindHashes [] (c.commonAncestor :: (c.oldBranch ++ c.newBranch))

/-- The loop of `validateLogs`.  A branch with contiguous numbers has one block per number. -/
def validateLogs (core : Address) (chainId : Nat) (newBranch : List BlockRef)
    (previous : Option ChainCursor) : List ContractLog → Except Failure Unit
  | [] => .ok ()
  | log :: rest => do
    validateCursorShape log.cursor "correction log cursor"
    if !isNonzeroHash log.cursor.blockHash then
      .error (gap "correction replacement log has an invalid block hash")
    else if log.address ≠ core then
      .error (gap "correction log address does not match deployment Core")
    else if log.cursor.chainId ≠ chainId then .error (gap "correction log chain id mismatch")
    else if log.removed then .error (gap "correction replacement contains a removed log")
    else if log.cursor.transactionIndex.isSome ≠ log.cursor.logIndex.isSome then
      .error (gap "correction replacement log has an incomplete transaction position")
    else if log.cursor.transactionIndex.isNone ∧ log.cursor.sourceSequence.isNone then
      .error (gap "correction replacement log has no deterministic ordering identity")
    else
      match newBranch.find? fun block => block.cursor.blockNumber = log.cursor.blockNumber with
      | none => .error (gap "correction replacement log is outside the declared new branch")
      | some block =>
        if block.cursor.blockHash ≠ log.cursor.blockHash then
          .error (gap "correction replacement log is outside the declared new branch")
        else if log.cursor.executionBlockNumber ≠ block.cursor.executionBlockNumber then
          .error (gap "correction replacement log execution block does not match its branch")
        else if log.cursor.commitment ≠ block.cursor.commitment then
          .error (gap "correction replacement log commitment does not match its branch")
        else if previous.any fun previous => compareCursor log.cursor previous ≠ .gt then
          .error (gap "correction replacement logs are not strictly ordered")
        else validateLogs core chainId newBranch (some log.cursor) rest

/-- `chainCorrectionProtocolBytes`: the charge of the shared wire envelope. -/
def protocolBytes (c : ChainCorrection) : Nat :=
  504 + 288 + (c.oldBranch.length + c.newBranch.length) * 144 +
    (c.replacementLogs.map fun log => 216 + log.topics.length * 32 + log.data.length).sum

def validateCorrectionEnvelope (c : ChainCorrection) (expectedCore : Address)
    (expectedChainId : Nat) : Except Failure Unit :=
  if maxCorrectionHistoryBlocks < c.oldBranch.length ∨
      maxCorrectionHistoryBlocks < c.newBranch.length then
    .error (gap "correction branch exceeds 128-block protocol limit")
  else if maxReplacementLogs < c.replacementLogs.length then
    .error (gap "correction exceeds 8192-log protocol limit")
  else do
    validateBlock c.commonAncestor expectedChainId
    validateBlock c.oldTip expectedChainId
    validateBlock c.newTip expectedChainId
    if c.oldTip.cursor.chainId = c.newTip.cursor.chainId ∧
        c.oldTip.cursor.blockNumber = c.newTip.cursor.blockNumber ∧
        c.oldTip.cursor.blockHash.isSome ∧
        c.oldTip.cursor.blockHash = c.newTip.cursor.blockHash then
      .error (gap "correction old and new tips have the same block identity")
    else do
      validateBranch c.commonAncestor c.oldTip c.oldBranch
      validateBranch c.commonAncestor c.newTip c.newBranch
      validateHashBindings c
      validateLogs expectedCore expectedChainId c.newBranch none c.replacementLogs
      if maxCorrectionHistoryBytes < protocolBytes c then
        .error (gap "correction exceeds 16 MiB retained-byte protocol limit")
      else .ok ()

/-- Whether live state needs replacement. -/
def validateCorrectionState (c : ChainCorrection) (current : Option ChainCursor) :
    Except Failure Bool :=
  match current with
  | none => .error (gap "correction arrived before quote state bootstrap")
  | some current =>
    if sameIdentity (identity current) (identity c.newTip.cursor) then .ok false
    else if current.commitment = .finalized ∨ c.oldTip.cursor.commitment = .finalized ∨
        c.oldBranch.any (fun block => block.cursor.commitment = .finalized) then
      .error (gap "correction cannot replace finalized branch state")
    else if sameIdentity (identity current) (identity c.oldTip.cursor) then .ok true
    else .error (gap "correction old tip does not match published state")

/-! ### Fingerprint -/

def writeText (text : Text) : List UInt8 :=
  asBytes (decimal text.length ++ ':' :: text)

def writeOptionalHex (value : Option B256) : List UInt8 :=
  match value with
  | none => writeText "none".toList
  | some value => writeText "some".toList ++ writeText (hashText value)

def writeOptionalBigint (value : Option Nat) : List UInt8 :=
  match value with
  | none => writeText "none".toList
  | some value => writeText ("some:".toList ++ decimal value)

def writeCursor (c : ChainCursor) : List UInt8 :=
  writeText (decimal c.chainId) ++ writeText (decimal c.blockNumber) ++
    writeText (decimal c.executionBlockNumber) ++ writeOptionalHex c.blockHash ++
    writeOptionalBigint c.transactionIndex ++ writeOptionalBigint c.logIndex

def writeBlock (b : BlockRef) : List UInt8 := writeCursor b.cursor ++ writeOptionalHex b.parentHash

def writeBlocks (blocks : List BlockRef) : List UInt8 :=
  writeText (decimal blocks.length) ++ blocks.flatMap writeBlock

def writeLog (l : ContractLog) : List UInt8 :=
  writeText (addressText l.address) ++ writeText (decimal l.topics.length) ++
    l.topics.flatMap (fun topic => writeText (hashText topic)) ++ writeText (bytesText l.data) ++
    writeText (if l.removed then ['1'] else ['0']) ++ writeCursor l.cursor

def correctionFingerprint (env : Platform) (c : ChainCorrection) : B256 :=
  env.keccak256 (writeText "lunarbase-correction-v1".toList ++ writeBlock c.commonAncestor ++
    writeBlock c.oldTip ++ writeBlock c.newTip ++ writeBlocks c.oldBranch ++
    writeBlocks c.newBranch ++ writeText (decimal c.replacementLogs.length) ++
    c.replacementLogs.flatMap writeLog)

/-! ### Cursor policy -/

def validateCoreLogIdentity (log : ContractLog) (expectedCore : Address) (expectedChainId : Nat) :
    Except Failure Unit :=
  if log.address ≠ expectedCore then
    .error (.indexer .reducer "contract log address does not match deployment Core")
  else if log.cursor.chainId ≠ expectedChainId then
    .error (.indexer .reducer "contract log cursor chain id mismatch")
  else .ok ()

def canonicalFloorCoversLog (update floor : ChainCursor) : Except Failure Bool :=
  if update.chainId ≠ floor.chainId then .error (.indexer .reducer "cursor chain id mismatch")
  else if update.blockNumber < floor.blockNumber then .ok true
  else if floor.blockNumber < update.blockNumber then .ok false
  else if update.blockHash.isNone ∨ floor.blockHash.isNone then
    .error (gap "same-block realtime log has no canonical hash identity")
  else if update.blockHash ≠ floor.blockHash then .error (.indexer .reducer "block hash mismatch")
  else if update.executionBlockNumber ≠ floor.executionBlockNumber then
    .error (gap "same-block realtime log execution context mismatch")
  else .ok ((floor.transactionIndex.isNone && floor.logIndex.isNone) ||
    decide (compareCursor update floor ≠ .gt))

def cursorHasIdentity (current : Option ChainCursor) (observed : ChainCursor) : Bool :=
  current.any fun current => sameIdentity (identity current) (identity observed)

/-- A published cursor is at or beyond a correction tip. -/
def cursorCoversCorrectionTip (current tip : ChainCursor) : Bool :=
  decide (current.chainId = tip.chainId) && decide (tip.blockNumber ≤ current.blockNumber) &&
    (decide (tip.blockNumber < current.blockNumber) ||
      sameIdentity (identity current) (identity tip))

def validateSnapshotCursor (cursor : ChainCursor) (expectedChainId : Nat) : Except Failure Unit :=
  let source (message : String) : Except Failure Unit := .error (.indexer .source message)
  if cursor.chainId ≠ expectedChainId then source "snapshot cursor chain id mismatch"
  else if u64Max < cursor.blockNumber then source "snapshot block is not uint64"
  else if u64Max < cursor.executionBlockNumber then source "snapshot execution block is not uint64"
  else if !isNonzeroHash cursor.blockHash then
    source "snapshot cursor requires a non-zero block hash"
  else if cursor.transactionIndex.isSome ∨ cursor.logIndex.isSome then
    source "snapshot cursor must use a block-level position"
  else if !optionalUint cursor.sourceSequence u64Max then
    source "snapshot source sequence is not uint64"
  else if !optionalUint cursor.sourceSubIndex u32Max then
    source "snapshot source sub-index is not uint32"
  else if cursor.sourceSubIndex.isSome ∧ cursor.sourceSequence.isNone then
    source "snapshot source sub-index requires a source sequence"
  else .ok ()

/-! ### Finality -/

/-- The finalized floor; the guard has no other state. -/
structure FinalityGuard where
  floor : Option ChainCursor
  deriving DecidableEq

namespace FinalityGuard

/-- The guard after a finalized observation, and whether it was taken. -/
def observe (guard : FinalityGuard) (cursor : ChainCursor) :
    Except Failure (FinalityGuard × Bool) :=
  if cursor.commitment ≠ .finalized then .ok (guard, false)
  else if !isNonzeroHash cursor.blockHash then
    .error (gap "finalized cursor requires a non-zero block hash")
  else if guard.floor.any fun floor => cursor.blockNumber < floor.blockNumber then
    .ok (guard, false)
  else if guard.floor.any fun floor => decide (cursor.blockNumber = floor.blockNumber) &&
      !sameIdentity (identity cursor) (identity floor) then
    .error (gap "conflicting finalized block identity")
  else .ok (⟨some { cursor with transactionIndex := none, logIndex := none }⟩, true)

def validateCorrection (guard : FinalityGuard) (c : ChainCorrection) : Except Failure Unit :=
  match guard.floor with
  | none => .ok ()
  | some floor =>
    let ancestor := c.commonAncestor.cursor
    if ancestor.blockNumber < floor.blockNumber then
      .error (gap "correction would roll back finalized state")
    else if ancestor.blockNumber = floor.blockNumber ∧
        ¬ sameIdentity (identity ancestor) (identity floor) then
      .error (gap "correction ancestor conflicts with finalized state")
    else .ok ()

end FinalityGuard

/-! ### What an accepted envelope says -/

variable {chainId : Nat} {branch : List BlockRef}

/-- The blocks of a branch ascend from its parent to its tip. -/
theorem validateBranchFrom_eq_ok {tip parent : BlockRef}
    (h : validateBranchFrom chainId tip parent branch = .ok ()) :
    (∀ block ∈ branch, parent.cursor.blockNumber < block.cursor.blockNumber ∧
      block.cursor.blockNumber ≤ tip.cursor.blockNumber) ∧
    (parent = tip ∨ parent.cursor.blockNumber < tip.cursor.blockNumber) := by
  induction branch generalizing parent with
  | nil =>
    rw [validateBranchFrom, assertBlockRef] at h
    split_ifs at h with hsame
    exact ⟨by simp, .inl hsame.2⟩
  | cons block rest ih =>
    obtain ⟨⟨⟩, -, h⟩ := bind_eq_ok.mp h
    split_ifs at h with hcontiguous hlinked
    obtain ⟨hrest, htip⟩ := ih h
    have hstep : parent.cursor.blockNumber < block.cursor.blockNumber := by
      rw [not_not.mp hcontiguous]
      exact Nat.lt_succ_self _
    have hblock : block.cursor.blockNumber ≤ tip.cursor.blockNumber := by
      rcases htip with rfl | hlt
      · exact le_rfl
      · exact hlt.le
    refine ⟨fun b hb => ?_, .inr (hstep.trans_le hblock)⟩
    rcases mem_cons.mp hb with rfl | hmem
    · exact ⟨hstep, hblock⟩
    · exact ⟨hstep.trans (hrest b hmem).1, (hrest b hmem).2⟩

theorem validateBranch_eq_ok {ancestor tip : BlockRef}
    (h : validateBranch ancestor tip branch = .ok ()) :
    (∀ block ∈ branch, ancestor.cursor.blockNumber < block.cursor.blockNumber ∧
      block.cursor.blockNumber ≤ tip.cursor.blockNumber) ∧
    (ancestor = tip ∨ ancestor.cursor.blockNumber < tip.cursor.blockNumber) := by
  cases branch with
  | nil =>
    rw [validateBranch, assertBlockRef] at h
    split_ifs at h with hsame
    exact ⟨by simp, .inl hsame.2⟩
  | cons block rest => exact validateBranchFrom_eq_ok h

variable {core : Address}

/-- The replacement logs lie on the branch and strictly ascend. -/
theorem validateLogs_eq_ok {newBranch : List BlockRef} {previous : Option ChainCursor}
    {logs : List ContractLog} (h : validateLogs core chainId newBranch previous logs = .ok ()) :
    (∀ log ∈ logs, ∃ block ∈ newBranch, block.cursor.blockNumber = log.cursor.blockNumber) ∧
    (∀ log ∈ logs, ∀ p, previous = some p → cursorKey p < cursorKey log.cursor) ∧
    logs.Pairwise fun log log' => cursorKey log.cursor < cursorKey log'.cursor := by
  induction logs generalizing previous with
  | nil => exact ⟨by simp, by simp, .nil⟩
  | cons log rest ih =>
    obtain ⟨⟨⟩, -, h⟩ := bind_eq_ok.mp h
    obtain ⟨-, h⟩ := ite_error_eq_ok.mp h
    obtain ⟨-, h⟩ := ite_error_eq_ok.mp h
    obtain ⟨-, h⟩ := ite_error_eq_ok.mp h
    obtain ⟨-, h⟩ := ite_error_eq_ok.mp h
    obtain ⟨-, h⟩ := ite_error_eq_ok.mp h
    obtain ⟨-, h⟩ := ite_error_eq_ok.mp h
    cases hfound : newBranch.find? fun block =>
        decide (block.cursor.blockNumber = log.cursor.blockNumber) with
    | none => exact absurd (hfound ▸ h) (by simp)
    | some block =>
      rw [hfound] at h
      obtain ⟨-, h⟩ := ite_error_eq_ok.mp h
      obtain ⟨-, h⟩ := ite_error_eq_ok.mp h
      obtain ⟨-, h⟩ := ite_error_eq_ok.mp h
      obtain ⟨horder, h⟩ := ite_error_eq_ok.mp h
      obtain ⟨hbranch, hafter, hsorted⟩ := ih h
      have hfirst : ∀ log' ∈ rest, cursorKey log.cursor < cursorKey log'.cursor :=
        fun log' hlog' => hafter log' hlog' log.cursor rfl
      have hprevious : ∀ p, previous = some p → cursorKey p < cursorKey log.cursor := by
        rintro p rfl
        simp only [Option.any_some, decide_eq_true_eq, not_not] at horder
        exact compareCursor_eq_gt horder
      refine ⟨?_, ?_, pairwise_cons.mpr ⟨hfirst, hsorted⟩⟩
      · intro log' hlog'
        rcases mem_cons.mp hlog' with rfl | hmem
        · exact ⟨block, mem_of_find?_eq_some hfound, by simpa using List.find?_some hfound⟩
        · exact hbranch log' hmem
      intro log' hlog' p hp
      rcases mem_cons.mp hlog' with rfl | hmem
      · exact hprevious p hp
      · exact lt_trans (hprevious p hp) (hfirst log' hmem)

/-- What the engine uses of an accepted envelope. -/
structure WellFormed (c : ChainCorrection) : Prop where
  tipHash : isNonzeroHash c.newTip.cursor.blockHash = true
  newBranch : ∀ block ∈ c.newBranch,
    c.commonAncestor.cursor.blockNumber < block.cursor.blockNumber ∧
      block.cursor.blockNumber ≤ c.newTip.cursor.blockNumber
  tip : c.commonAncestor = c.newTip ∨
    c.commonAncestor.cursor.blockNumber < c.newTip.cursor.blockNumber
  onBranch : ∀ log ∈ c.replacementLogs,
    ∃ block ∈ c.newBranch, block.cursor.blockNumber = log.cursor.blockNumber
  ordered : c.replacementLogs.Pairwise fun log log' =>
    cursorKey log.cursor < cursorKey log'.cursor

theorem isNonzeroHash_of_validateBlock {block : BlockRef}
    (h : validateBlock block chainId = .ok ()) : isNonzeroHash block.cursor.blockHash = true := by
  obtain ⟨⟨⟩, -, h⟩ := bind_eq_ok.mp h
  split_ifs at h with hchain hnone hzero
  simpa using hzero

variable {c : ChainCorrection}

theorem wellFormed_of_validate
    (h : validateCorrectionEnvelope c core chainId = .ok ()) : WellFormed c := by
  obtain ⟨-, h⟩ := ite_error_eq_ok.mp h
  obtain ⟨-, h⟩ := ite_error_eq_ok.mp h
  obtain ⟨⟨⟩, -, h⟩ := bind_eq_ok.mp h
  obtain ⟨⟨⟩, -, h⟩ := bind_eq_ok.mp h
  obtain ⟨⟨⟩, htip, h⟩ := bind_eq_ok.mp h
  obtain ⟨-, h⟩ := ite_error_eq_ok.mp h
  obtain ⟨⟨⟩, -, h⟩ := bind_eq_ok.mp h
  obtain ⟨⟨⟩, hnew, h⟩ := bind_eq_ok.mp h
  obtain ⟨⟨⟩, -, h⟩ := bind_eq_ok.mp h
  obtain ⟨⟨⟩, hreplacement, -⟩ := bind_eq_ok.mp h
  obtain ⟨hbranch, hend⟩ := validateBranch_eq_ok hnew
  obtain ⟨hon, -, hordered⟩ := validateLogs_eq_ok hreplacement
  exact ⟨isNonzeroHash_of_validateBlock htip, hbranch, hend, hon, hordered⟩

theorem WellFormed.log_bounds (h : WellFormed c) {log : ContractLog}
    (hlog : log ∈ c.replacementLogs) :
    c.commonAncestor.cursor.blockNumber < log.cursor.blockNumber ∧
      log.cursor.blockNumber ≤ c.newTip.cursor.blockNumber := by
  obtain ⟨block, hblock, hnumber⟩ := h.onBranch log hlog
  exact hnumber ▸ h.newBranch block hblock

theorem WellFormed.ancestor_le (h : WellFormed c) :
    c.commonAncestor.cursor.blockNumber ≤ c.newTip.cursor.blockNumber := by
  rcases h.tip with hsame | hlt
  · rw [hsame]
  · exact hlt.le

/-- The finality guard that lets a correction pass takes its new tip. -/
theorem FinalityGuard.observe_newTip {guard : FinalityGuard}
    (hc : WellFormed c) (h : guard.validateCorrection c = .ok ()) :
    ∃ result, guard.observe c.newTip.cursor = .ok result := by
  rw [observe]
  split_ifs with hcommitment hzero hbelow hconflict
  · exact ⟨_, rfl⟩
  · exact absurd hc.tipHash (by simpa using hzero)
  · exact ⟨_, rfl⟩
  · -- a tip at the height of the floor is the ancestor, whose identity was checked
    exfalso
    cases hfloor : guard.floor with
    | none => simp [hfloor] at hconflict
    | some floor =>
      simp only [hfloor, Option.any_some, Bool.and_eq_true, decide_eq_true_eq,
        Bool.not_eq_true'] at hconflict
      simp only [validateCorrection, hfloor] at h
      split_ifs at h with hrollback hidentity
      have hsame : c.commonAncestor = c.newTip := by
        rcases hc.tip with hsame | hlt
        · exact hsame
        · exact absurd (hconflict.1 ▸ hlt) hrollback
      rw [← hsame] at hconflict
      exact hidentity ⟨hconflict.1, by simp [hconflict.2]⟩
  · exact ⟨_, rfl⟩

end Lunarbase.TsClient
