import Lunarbase.Client.Abi
import Lunarbase.Client.Correction
import Lunarbase.Client.Journal
import Lunarbase.Math.Quote
import Lunarbase.Support.Effect

/-!
# Client — Engine

The synchronous quote state machine (`indexer/engine.rs` and its modules `finality`,
`validation`, `bootstrap`, `correction` and `retention`).

A method on `&mut self` is a `Transition`; `into_corrected_core`, which consumes its receiver,
returns the new indexer or an error and nothing else.
-/

namespace Lunarbase.Client

open Math (QuoteState FeeClass)
open Effect (andThen onError)

structure AppliedCorrection where
  fingerprint : B256
  tip : ChainCursor
  deriving DecidableEq

structure QuoteIndexer where
  reducer : QuoteReducer
  deployment : DeploymentConfig
  canonicalFloor : Option ChainCursor
  stableCheckpoint : Option Checkpoint
  finalizedFloor : Option ChainCursor
  optimisticHistory : JournalState
  lastCorrection : Option AppliedCorrection
  deriving DecidableEq

/-- What a method leaves behind, with its result. -/
abbrev Transition (α : Type) := QuoteIndexer × Except IndexerError α

/-! ### Validation -/

def validateCoreLogIdentity (log : ContractLog) (expectedCore : Address) (expectedChainId : Nat) :
    Except IndexerError Unit :=
  if log.address ≠ expectedCore then .error (.reducer .contractAddressMismatch)
  else if log.cursor.chainId ≠ expectedChainId then .error (.reducer .chainIdMismatch)
  else .ok ()

def validateCoreLogIdentities (expectedCore : Address) (expectedChainId : Nat) :
    List ContractLog → Except IndexerError Unit
  | [] => .ok ()
  | log :: rest => do
    validateCoreLogIdentity log expectedCore expectedChainId
    validateCoreLogIdentities expectedCore expectedChainId rest

def snapshotCovers (update snapshot : ChainCursor) : Except IndexerError Bool :=
  if update.chainId ≠ snapshot.chainId then .error (.reducer .chainIdMismatch)
  else if update.blockNumber < snapshot.blockNumber then .ok true
  else if snapshot.blockNumber < update.blockNumber then .ok false
  else match update.blockHash, snapshot.blockHash with
    | some updateHash, some snapshotHash =>
      if updateHash = snapshotHash then
        if update.executionBlockNumber = snapshot.executionBlockNumber then
          .ok (update.commitment.rank ≤ snapshot.commitment.rank)
        else .error (.reducer .blockHashMismatch)
      else .ok false
    | _, _ =>
      .error (.gap "same-block handoff has no hash identity; canonical recovery required")

/-- `snapshot_covers(..).ok() == Some(true)`. -/
def snapshotSurelyCovers (update snapshot : ChainCursor) : Bool :=
  match snapshotCovers update snapshot with
  | .ok covers => covers
  | .error _ => false

def canonicalFloorCoversLog (update floor : ChainCursor) : Except IndexerError Bool :=
  if update.chainId ≠ floor.chainId then .error (.reducer .chainIdMismatch)
  else if update.blockNumber < floor.blockNumber then .ok true
  else if floor.blockNumber < update.blockNumber then .ok false
  else match update.blockHash, floor.blockHash with
    | some updateHash, some floorHash =>
      if updateHash = floorHash then
        if update.executionBlockNumber ≠ floor.executionBlockNumber then
          .error (.reducer .blockHashMismatch)
        else
          .ok ((floor.transactionIndex.isNone && floor.logIndex.isNone) ||
            decide (update.eventOrder ≤ floor.eventOrder))
      else .error (.reducer .blockHashMismatch)
    | _, _ => .error (.gap "same-block realtime log has no canonical hash identity")

def validateVerifiedRouterSnapshot (snapshot : BootstrapSnapshot) (deployment : DeploymentConfig) :
    Except IndexerError Unit :=
  let mismatch : Except IndexerError Unit :=
    .error (.source (.unavailable "snapshot verified-router policy does not match deployment"))
  match deployment.verifiedRouter, snapshot.verifiedRouter with
  | none, none => .ok ()
  | some expected, some actual =>
    if actual.router = expected ∧
        actual.partnerFeeBps.keys.card ≤ saturatingAdd snapshot.state.lanes.keys.card 1 ∧
        ∀ asset ∈ actual.partnerFeeBps.keys,
          (asset = snapshot.state.cash ∨ asset ∈ snapshot.state.lanes) ∧
            (actual.partnerFeeBps.lookup asset).all (fun fee => fee.setWidth 256 ≤ Math.bps) then
      .ok ()
    else mismatch
  | _, _ => mismatch

/-! ### Handoff order -/

def updateCursor : ChainUpdate → Option ChainCursor
  | .head block => some block.cursor
  | .log log => some log.cursor
  | .reorg _ newHead => some newHead.cursor
  | .correction correction => some correction.newTip.cursor
  | .gap cursor _ => cursor

def branchEndOrder (cursor : ChainCursor) (rank : Nat) : List Nat :=
  [cursor.blockNumber, u32Max, u32Max, u64Max, u32Max, rank]

def updateOrder : ChainUpdate → List Nat
  | .head block => block.cursor.eventOrder ++ [0]
  | .log log => log.cursor.eventOrder ++ [1]
  | .correction correction => branchEndOrder correction.newTip.cursor 2
  | .reorg _ newHead => branchEndOrder newHead.cursor 3
  | .gap cursor _ => (cursor.map ChainCursor.eventOrder).getD [u64Max, 0, 0, 0, 0] ++ [4]

/-- Control messages, which the sort never moves and never moves anything across. -/
def isBarrier : ChainUpdate → Bool
  | .head _ | .log _ => false
  | .correction _ | .reorg _ _ | .gap _ _ => true

def sortSegment (segment : List ChainUpdate) : List ChainUpdate :=
  segment.mergeSort fun left right => updateOrder left ≤ updateOrder right

def sortFrom (segment : List ChainUpdate) : List ChainUpdate → List ChainUpdate
  | [] => sortSegment segment
  | update :: rest =>
    if isBarrier update then sortSegment segment ++ update :: sortFrom [] rest
    else sortFrom (segment ++ [update]) rest

def sortChainUpdates (updates : List ChainUpdate) : List ChainUpdate := sortFrom [] updates

/-! ### Finality -/

def requireHash (cursor : ChainCursor) : Except IndexerError Unit :=
  if cursor.blockHash.isNone then .error (.gap "finalized cursor has no immutable block hash")
  else .ok ()

def requireSameIdentity (left right : ChainCursor) : Except IndexerError Unit :=
  if left.executionBlockNumber ≠ right.executionBlockNumber ∨ left.blockHash.isNone ∨
      left.blockHash ≠ right.blockHash then
    .error (.reducer .blockHashMismatch)
  else .ok ()

def validateFloorCoverage (floor candidate : ChainCursor) (context : String) :
    Except IndexerError Unit :=
  if floor.chainId ≠ candidate.chainId then .error (.reducer .chainIdMismatch)
  else if candidate.blockNumber < floor.blockNumber then
    .error (.gap (context ++ " regressed below the finalized floor"))
  else if candidate.blockNumber = floor.blockNumber then requireSameIdentity floor candidate
  else .ok ()

namespace QuoteIndexer

def markNotReady (s : QuoteIndexer) : QuoteIndexer := { s with reducer := s.reducer.markNotReady }

def publishReady (s : QuoteIndexer) : QuoteIndexer := { s with reducer := s.reducer.publishReady }

/-- `if let Err(error) = .. { self.reducer.mark_not_ready(); return Err(error) }`. -/
def failClosed {α : Type} (out : Transition α) : Transition α := onError markNotReady out

def validateFinalizedUpdate (s : QuoteIndexer) (cursor : ChainCursor) : Except IndexerError Unit :=
  if cursor.commitment ≠ .finalized then .ok ()
  else do
    requireHash cursor
    match s.finalizedFloor with
    | none => .ok ()
    | some floor =>
      if cursor.chainId ≠ floor.chainId then .error (.reducer .chainIdMismatch)
      else if cursor.blockNumber = floor.blockNumber then requireSameIdentity floor cursor
      else .ok ()

/-- The finalized floor after an accepted cursor: it only moves up. -/
def raiseFinalized (floor : Option ChainCursor) (cursor : ChainCursor) : Option ChainCursor :=
  if cursor.commitment ≠ .finalized ∨
      floor.any (fun floor => cursor.blockNumber ≤ floor.blockNumber)
  then floor
  else some { cursor with
    transactionIndex := none, logIndex := none, sourceSequence := none, sourceSubIndex := none }

def recordFinalizedUpdate (s : QuoteIndexer) (cursor : ChainCursor) : Transition Unit :=
  match s.validateFinalizedUpdate cursor with
  | .error e => (s, .error e)
  | .ok () => ({ s with finalizedFloor := raiseFinalized s.finalizedFloor cursor }, .ok ())

def validateFinalizedAncestor (s : QuoteIndexer) (ancestor : BlockRef) :
    Except IndexerError Unit :=
  match s.finalizedFloor with
  | none => .ok ()
  | some floor => validateFloorCoverage floor ancestor.cursor "correction"

def validateFinalizedRecovery (s : QuoteIndexer) (snapshot : ChainCursor) :
    Except IndexerError Unit :=
  match s.finalizedFloor with
  | none => .ok ()
  | some floor => do
    validateFloorCoverage floor snapshot "recovery snapshot"
    if snapshot.blockNumber = floor.blockNumber ∧ snapshot.commitment ≠ .finalized then
      .error (.gap "recovery snapshot weakened the finalized floor commitment")
    else .ok ()

/-! ### Logs -/

/-- The end of an accepted log: its identity is retained and its finality recorded. -/
def recordEvent (s : QuoteIndexer) (cursor : ChainCursor) : Transition Unit :=
  { s with
    optimisticHistory := s.optimisticHistory.recordEventIdentity cursor }.recordFinalizedUpdate
    cursor

def applyDecodedLog (bytes : ImageCost) (s : QuoteIndexer)
    (cursor : ChainCursor) (event : Option QuoteEvent) : Transition Unit :=
  andThen (s, s.validateFinalizedUpdate cursor) fun s _ =>
  andThen (s, s.optimisticHistory.validateEventIdentity cursor) fun s _ =>
  match event with
  | none => s.recordEvent cursor
  | some event =>
    match s.reducer.applyWithEffect cursor event with
    | (reducer, .error e) => ({ s with reducer := reducer }, .error (.reducer e))
    | (reducer, .ok changed) =>
      -- the before-image is the reducer the event found, and only a changed one is kept
      let history :=
        if changed then s.optimisticHistory.captureBefore bytes cursor s.reducer
        else s.optimisticHistory
      andThen ({ s with reducer := reducer, optimisticHistory := history }.recordEvent cursor)
        fun s _ => (if changed then { s with lastCorrection := none } else s, .ok ())

/-- Whether the canonical floor already represents the log. -/
def floorCovers (s : QuoteIndexer) (cursor : ChainCursor) : Except IndexerError Bool :=
  match s.canonicalFloor with
  | none => .ok false
  | some floor => canonicalFloorCoversLog cursor floor

/-- `decode_core_event(log)?`. -/
def decodeLog (env : Platform) (log : ContractLog) : Except IndexerError (Option QuoteEvent) :=
  (decodeCoreEvent env log).mapError .decode

/-! ### Corrections -/

def validateCorrectionIdentity (s : QuoteIndexer) (c : ChainCorrection) :
    Except IndexerError Unit := do
  (match s.canonicalFloor with
    | none => .ok ()
    | some floor => validateRollbackFloor (some floor) c.commonAncestor)
  match s.reducer.cursor with
  | none => .error .noCursor
  | some current =>
    if current.chainId ≠ c.oldTip.cursor.chainId ∨
        current.blockNumber ≠ c.oldTip.cursor.blockNumber ∨
        current.executionBlockNumber ≠ c.oldTip.cursor.executionBlockNumber ∨
        current.blockHash.isNone ∨ current.blockHash ≠ c.oldTip.cursor.blockHash then
      .error (correctionGap "correction old tip does not match the published optimistic head")
    else if current.commitment = .finalized then
      .error (correctionGap "correction cannot replace a finalized tip")
    else .ok ()

/-- The checks of a correction against the deployment, made both where the update comes in and
where it is applied. -/
def validateCorrectionForCore (env : Platform) (s : QuoteIndexer) (c : ChainCorrection) :
    Except IndexerError Unit := do
  (c.validate env).mapError .source
  if c.commonAncestor.cursor.chainId ≠ s.deployment.chainId then
    .error (.reducer .chainIdMismatch)
  else validateCoreLogIdentities s.deployment.core s.deployment.chainId c.replacementLogs

/-- An exact retry of the last applied correction, its tip still covered by the published head. -/
def isRetry (env : Platform) (s : QuoteIndexer) (c : ChainCorrection) : Bool :=
  s.lastCorrection.any fun applied =>
    decide (applied.fingerprint = c.fingerprint env) &&
      s.reducer.cursor.any fun current => snapshotSurelyCovers applied.tip current

/-- The published head is the new tip already. -/
def newTipPublished (s : QuoteIndexer) (c : ChainCorrection) : Bool :=
  s.reducer.cursor.any fun current =>
    current.chainId == c.newTip.cursor.chainId &&
      current.blockNumber == c.newTip.cursor.blockNumber &&
      current.executionBlockNumber == c.newTip.cursor.executionBlockNumber &&
      current.blockHash.isSome && current.blockHash == c.newTip.cursor.blockHash

def appliedExactly (env : Platform) (s : QuoteIndexer) (c : ChainCorrection) : Bool :=
  s.lastCorrection.any fun applied =>
    decide (applied.fingerprint = c.fingerprint env) && decide (applied.tip = c.newTip.cursor)

/-- Back to the common ancestor: the first before-image above it, if there is one. -/
def rewindTo (s : QuoteIndexer) (c : ChainCorrection) : Except IndexerError QuoteIndexer := do
  let restore ← s.optimisticHistory.restorePoint c.commonAncestor c.oldBranch
  match (restore.getD s.reducer).rewindHead c.commonAncestor.cursor with
  | (_, .error e) => .error (.reducer e)
  | (reducer, .ok ()) =>
    .ok { s with
      reducer := reducer
      optimisticHistory := s.optimisticHistory.rewindAfter c.commonAncestor }

def recordBranch (s : QuoteIndexer) (branch : List BlockRef) : QuoteIndexer :=
  { s with
    optimisticHistory :=
      branch.foldl (fun history block => history.recordHeadIdentity block.cursor)
        s.optimisticHistory }

def replayLogs (env : Platform) (bytes : ImageCost) :
    QuoteIndexer → List ContractLog → Except IndexerError QuoteIndexer
  | s, [] => .ok s
  | s, log :: rest => do
    let event ← decodeLog env log
    match s.applyDecodedLog bytes log.cursor event with
    | (_, .error e) => .error e
    | (s', .ok ()) => replayLogs env bytes s' rest

/-- The new tip becomes the published head and the correction the last applied one. -/
def finishCorrection (env : Platform) (s : QuoteIndexer) (c : ChainCorrection) :
    Except IndexerError QuoteIndexer :=
  match s.reducer.observeCorrectedHead c.newTip.cursor with
  | (_, .error e) => .error (.reducer e)
  | (reducer, .ok ()) =>
    match { s with reducer := reducer }.recordFinalizedUpdate c.newTip.cursor with
    | (_, .error e) => .error e
    | (s', .ok ()) =>
      .ok { s' with lastCorrection := some ⟨c.fingerprint env, c.newTip.cursor⟩ }

/-- The transition of `into_corrected_core` once the correction is known to be new. -/
def replaceBranch (env : Platform) (bytes : ImageCost) (s : QuoteIndexer)
    (c : ChainCorrection) : Except IndexerError QuoteIndexer := do
  s.validateCorrectionIdentity c
  s.validateFinalizedAncestor c.commonAncestor
  (if s.reducer.ready then .ok () else .error .notReady)
  let rewound ← s.rewindTo c
  let replayed ← (rewound.recordBranch c.newBranch).replayLogs env bytes c.replacementLogs
  replayed.finishCorrection env c

def intoCorrectedCore (env : Platform) (bytes : ImageCost)
    (s : QuoteIndexer) (c : ChainCorrection) : Except IndexerError (QuoteIndexer × Bool) := do
  s.validateCorrectionForCore env c
  if s.isRetry env c then .ok (s, false)
  else if s.newTipPublished c then
    if s.appliedExactly env c then .ok (s, false)
    else .error (correctionGap "correction new tip was observed without a matching applied delta")
  else do
    let next ← s.replaceBranch env bytes c
    .ok (next, true)

def replaceWithCorrection (env : Platform) (bytes : ImageCost)
    (s : QuoteIndexer) (c : ChainCorrection) : Transition Bool :=
  match s.intoCorrectedCore env bytes c with
  | .ok (_, false) => (s, .ok false)
  | .ok (candidate, true) => (candidate, .ok true)
  | .error e => (s.markNotReady, .error e)

def observeCoveredCorrection (env : Platform) (s : QuoteIndexer) (c : ChainCorrection) :
    Transition Unit :=
  let fingerprint := c.fingerprint env
  let recorded : QuoteIndexer := { s with lastCorrection := some ⟨fingerprint, c.newTip.cursor⟩ }
  match s.lastCorrection with
  | none => (recorded, .ok ())
  | some applied =>
    if c.newTip.cursor.blockNumber < applied.tip.blockNumber then (s, .ok ())
    else if c.newTip.cursor.blockNumber = applied.tip.blockNumber then
      if applied.fingerprint ≠ fingerprint then
        (s, .error (correctionGap
          "snapshot-covered correction conflicts with the retained delta identity"))
      else (s, .ok ())
    else (recorded, .ok ())

end QuoteIndexer

end Lunarbase.Client
