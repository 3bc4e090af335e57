import Lunarbase.Client.Engine

/-!
# Client — Indexer

The entry points of the quote state machine: single updates, owned and borrowed, the handoff, the
snapshot bootstrap, and the quotes read from a ready indexer.
-/

namespace Lunarbase.Client

open Math (QuoteState FeeClass QuotePolicy QuoteRequest QuoteOutcome)
open Effect (andThen onError)

namespace QuoteIndexer

def new (state : QuoteState) (deployment : DeploymentConfig) : QuoteIndexer :=
  { reducer := QuoteReducer.new state deployment.feeClass none
    deployment := deployment
    canonicalFloor := none
    stableCheckpoint := none
    finalizedFloor := none
    optimisticHistory := JournalState.empty
    lastCorrection := none }

/-! ### One update -/

/-- An identity check that closes the indexer when it fails. -/
def validateCoreUpdateIdentity (env : Platform) (s : QuoteIndexer) (update : ChainUpdate) :
    Transition Unit :=
  failClosed (s, match update with
    | .log log => validateCoreLogIdentity log s.deployment.core s.deployment.chainId
    | .correction c => s.validateCorrectionForCore env c
    | .head _ | .reorg _ _ | .gap _ _ => .ok ())

/-- The head published after `observe_head`, when it is the observed one. -/
def publishedAs (reducer : QuoteReducer) (cursor : ChainCursor) : Option ChainCursor :=
  reducer.cursor.filter fun published => JournalState.sameIdentity published cursor

/-- The `Head` branch of `apply_validated_update`. -/
def applyHead (s : QuoteIndexer) (cursor : ChainCursor) : Transition Unit :=
  -- the finalized check returns early, without `mark_not_ready`
  andThen (s, s.validateFinalizedUpdate cursor) fun s _ =>
  match s.reducer.observeHead cursor with
  | (reducer, .error e) => ({ s with reducer := reducer }.markNotReady, .error (.reducer e))
  | (reducer, .ok ()) =>
    -- a stale head is ignored by the reducer and must not relabel a retained block
    let history := match publishedAs reducer cursor with
      | none => s.optimisticHistory
      | some published => s.optimisticHistory.recordHeadIdentity published
    { s with reducer := reducer, optimisticHistory := history }.recordFinalizedUpdate cursor

def applyValidatedUpdate (bytes : ImageCost) (s : QuoteIndexer)
    (update : ChainUpdate) (decoder : ContractLog → Option QuoteEvent) : Transition Unit :=
  match update with
  | .log log =>
    if log.removed then (s.markNotReady, .error (.reducer .removedLog))
    else failClosed (s.applyDecodedLog bytes log.cursor (decoder log))
  | .head block => s.applyHead block.cursor
  | .reorg _ _ => (s.markNotReady, .error (.gap "reorg requires canonical recovery"))
  | .correction _ =>
    (s.markNotReady, .error (.gap "optimistic correction requires the correction journal"))
  | .gap _ reason => (s.markNotReady, .error (.gap reason))

def applyUpdate (env : Platform) (bytes : ImageCost) (s : QuoteIndexer)
    (update : ChainUpdate) (decoder : ContractLog → Option QuoteEvent) : Transition Unit :=
  andThen (s.validateCoreUpdateIdentity env update) fun s _ =>
    s.applyValidatedUpdate bytes update decoder

/-- `.map(drop)`. -/
def dropResult {α : Type} (out : Transition α) : Transition Unit :=
  andThen out fun s _ => (s, .ok ())

def applyValidatedCoreUpdate (env : Platform) (bytes : ImageCost)
    (s : QuoteIndexer) (update : ChainUpdate) : Transition Unit :=
  match update with
  | .correction c => dropResult (s.replaceWithCorrection env bytes c)
  | .log log =>
    if log.removed then s.applyValidatedUpdate bytes update fun _ => none
    else
      andThen (s, s.floorCovers log.cursor) fun s covered =>
        if covered then (s, .ok ())
        else
          andThen (s, decodeLog env log) fun s event =>
            s.applyValidatedUpdate bytes update fun _ => event
  | _ => s.applyValidatedUpdate bytes update fun _ => none

/-- Retention normalisation copies the payload into a tight allocation and changes no value. -/
def applyCoreUpdate (env : Platform) (bytes : ImageCost) (s : QuoteIndexer)
    (update : ChainUpdate) : Transition Unit :=
  andThen (s.validateCoreUpdateIdentity env update) fun s _ =>
    s.applyValidatedCoreUpdate env bytes update

def applyCoreLogBorrowedValidated (env : Platform) (bytes : ImageCost)
    (s : QuoteIndexer) (log : ContractLog) : Transition Bool :=
  if log.removed then (s.markNotReady, .error (.reducer .removedLog))
  else
    andThen (s, s.floorCovers log.cursor) fun s covered =>
      if covered then (s, .ok false)
      else
        andThen (s, decodeLog env log) fun s event =>
          andThen (failClosed (s.applyDecodedLog bytes log.cursor event)) fun s _ => (s, .ok true)

def applyCoreLogBorrowed (env : Platform) (bytes : ImageCost)
    (s : QuoteIndexer) (log : ContractLog) : Transition Bool :=
  andThen (failClosed (s, validateCoreLogIdentity log s.deployment.core s.deployment.chainId))
    fun s _ => s.applyCoreLogBorrowedValidated env bytes log

def applyCoreUpdateBorrowed (env : Platform) (bytes : ImageCost)
    (s : QuoteIndexer) (update : ChainUpdate) : Transition Unit :=
  andThen (s.validateCoreUpdateIdentity env update) fun s _ =>
    match update with
    | .correction c => dropResult (s.replaceWithCorrection env bytes c)
    | .log log => dropResult (s.applyCoreLogBorrowedValidated env bytes log)
    | _ => s.applyValidatedUpdate bytes update fun _ => none

/-! ### Batches -/

structure CorrectionNotice where
  commonAncestor : Nat
  oldTipHash : B256
  newTipHash : B256
  replacementLogs : Nat
  deriving DecidableEq

/-- The two hashes are there in a validated correction. -/
def CorrectionNotice.fromValidated (c : ChainCorrection) : CorrectionNotice :=
  ⟨c.commonAncestor.cursor.blockNumber, c.oldTip.cursor.blockHash.getD 0,
    c.newTip.cursor.blockHash.getD 0, c.replacementLogs.length⟩

def applyValidatedCoreUpdateBorrowedWithNotice (env : Platform)
    (bytes : ImageCost) (s : QuoteIndexer) (update : ChainUpdate) :
    Transition (Option CorrectionNotice) :=
  match update with
  | .correction c =>
    andThen (s.replaceWithCorrection env bytes c) fun s applied =>
      (s, .ok (if applied then some (CorrectionNotice.fromValidated c) else none))
  | _ => andThen (s.applyCoreUpdateBorrowed env bytes update) fun s _ => (s, .ok none)

/-- Whether a buffered update is at or before the position the batch starts from.  A foreign chain
closes the indexer; a coverage conflict returns early. -/
def coveredByStart (s : QuoteIndexer) (start : ChainCursor) (update : ChainUpdate) :
    Transition Bool :=
  match updateCursor update with
  | none => (s, .ok false)
  | some cursor =>
    if cursor.chainId ≠ start.chainId then (s.markNotReady, .error (.reducer .chainIdMismatch))
    else (s, snapshotCovers cursor start)

/-- A covered update is skipped, but a covered correction is remembered. -/
def skipCovered (env : Platform) (s : QuoteIndexer) (update : ChainUpdate) : Transition Unit :=
  match update with
  | .correction c => s.observeCoveredCorrection env c
  | _ => (s, .ok ())

def handoffLoop (env : Platform) (bytes : ImageCost) (start : ChainCursor) :
    QuoteIndexer → List ChainUpdate → Transition Unit
  | s, [] => (s.publishReady, .ok ())
  | s, update :: rest =>
    andThen (s.validateCoreUpdateIdentity env update) fun s _ =>
    andThen (s.coveredByStart start update) fun s covered =>
    andThen (if covered then s.skipCovered env update
        else dropResult (s.applyValidatedCoreUpdateBorrowedWithNotice env bytes update)) fun s _ =>
    handoffLoop env bytes start s rest

def applyHandoffBorrowedOrdered (env : Platform) (bytes : ImageCost)
    (s : QuoteIndexer) (buffered : List ChainUpdate) : Transition Unit :=
  match s.reducer.cursor with
  | none => (s, .error .noCursor)
  | some current => s.handoffLoop env bytes current buffered

def applyHandoff (env : Platform) (bytes : ImageCost) (s : QuoteIndexer)
    (buffered : List ChainUpdate) : Transition Unit :=
  s.applyHandoffBorrowedOrdered env bytes (sortChainUpdates buffered)

/-- The checks of a snapshot, made before anything is replaced. -/
def validateSnapshot (s : QuoteIndexer) (snapshot : BootstrapSnapshot) :
    Except IndexerError Unit := do
  (if snapshot.cursor.chainId ≠ s.deployment.chainId then .error (.reducer .chainIdMismatch)
    else .ok ())
  s.validateFinalizedRecovery snapshot.cursor
  s.validateFinalizedUpdate snapshot.cursor
  (if snapshot.implementation ≠ s.deployment.expectedImplementation ∨
      snapshot.implementationCodeHash ≠ s.deployment.expectedImplementationCodeHash then
    .error .codeHashMismatch
    else .ok ())
  validateVerifiedRouterSnapshot snapshot s.deployment

/-- The replacement of the state by the snapshot. -/
def installSnapshot (s : QuoteIndexer) (snapshot : BootstrapSnapshot) : Transition Unit :=
  let reducer := (QuoteReducer.new snapshot.state s.deployment.feeClass snapshot.verifiedRouter
    ).bootstrap snapshot.cursor
  andThen ({ s with reducer := reducer }.recordFinalizedUpdate snapshot.cursor) fun s _ =>
    ({ s with
      canonicalFloor := some snapshot.cursor
      stableCheckpoint := s.reducer.checkpoint s.deployment
      optimisticHistory := s.optimisticHistory.reset snapshot.cursor
      lastCorrection :=
        s.lastCorrection.filter fun applied => snapshotSurelyCovers applied.tip snapshot.cursor },
      .ok ())

def bootstrapLoop (env : Platform) (bytes : ImageCost)
    (start : ChainCursor) :
    QuoteIndexer → List CorrectionNotice → List ChainUpdate → Transition (List CorrectionNotice)
  | s, notices, [] => (s.publishReady, .ok notices)
  | s, notices, update :: rest =>
    andThen (s.validateCoreUpdateIdentity env update) fun s _ =>
    andThen (s.coveredByStart start update) fun s covered =>
    andThen (if covered then andThen (s.skipCovered env update) fun s _ => (s, .ok none)
        else failClosed (s.applyValidatedCoreUpdateBorrowedWithNotice env bytes update))
      fun s notice => bootstrapLoop env bytes start s (notices ++ notice.toList) rest

def bootstrapNormalizedOrdered (env : Platform) (bytes : ImageCost)
    (s : QuoteIndexer) (snapshot : BootstrapSnapshot) (buffered : List ChainUpdate) :
    Transition (List CorrectionNotice) :=
  andThen (s, s.validateSnapshot snapshot) fun s _ =>
  andThen (s.installSnapshot snapshot) fun s _ =>
  s.bootstrapLoop env bytes snapshot.cursor [] buffered

def bootstrapNormalized (env : Platform) (bytes : ImageCost)
    (s : QuoteIndexer) (snapshot : BootstrapSnapshot) (buffered : List ChainUpdate) :
    Transition Unit :=
  dropResult (s.bootstrapNormalizedOrdered env bytes snapshot (sortChainUpdates buffered))

def bootstrap (env : Platform) (bytes : ImageCost) (s : QuoteIndexer)
    (snapshot : BootstrapSnapshot) : Transition Unit :=
  s.bootstrapNormalized env bytes snapshot []

/-! ### Quotes -/

def state (s : QuoteIndexer) : Except IndexerError QuoteState :=
  if s.reducer.ready then .ok s.reducer.data.state else .error .notReady

structure PreparedQuoteSnapshot where
  data : QuoteData
  cursor : ChainCursor
  implementationCodeHash : B256

structure ClientQuote where
  outcome : QuoteOutcome
  cursor : ChainCursor
  executionBlockNumber : Nat
  implementationCodeHash : B256
  mathCompatibilityVersion : String
  feeClass : FeeClass
  verifiedRouter : Option Address

structure ClientBatchQuote where
  outcomes : List QuoteOutcome
  cursor : ChainCursor
  executionBlockNumber : Nat
  implementationCodeHash : B256
  mathCompatibilityVersion : String
  feeClass : FeeClass
  verifiedRouter : Option Address

def maxBatchQuotes : Nat := 256

def prepareSnapshot (s : QuoteIndexer) : Except IndexerError PreparedQuoteSnapshot := do
  let _ ← s.state
  let cursor ← Except.ofOption .noCursor s.reducer.cursor
  .ok ⟨s.reducer.data, cursor, s.deployment.expectedImplementationCodeHash⟩

def PreparedQuoteSnapshot.policyFor (p : PreparedQuoteSnapshot) (request : QuoteRequest) :
    QuotePolicy :=
  ⟨p.data.feeClass, p.data.verifiedRouter.map fun verified =>
    (verified.partnerFeeBps.lookup (Math.feeAssetOf request)).getD 0⟩

def PreparedQuoteSnapshot.quoteOne (p : PreparedQuoteSnapshot) (request : QuoteRequest) :
    Except IndexerError QuoteOutcome :=
  (Math.quote request p.cursor.executionBlockNumber p.data.state (p.policyFor request)).mapError
    .quote

def quote (s : QuoteIndexer) (request : QuoteRequest) : Except IndexerError ClientQuote := do
  let p ← s.prepareSnapshot
  let outcome ← p.quoteOne request
  .ok ⟨outcome, p.cursor, p.cursor.executionBlockNumber, p.implementationCodeHash,
    mathCompatibilityVersion, p.data.feeClass, p.data.verifiedRouter.map (·.router)⟩

def prepareQuoteMany (s : QuoteIndexer) (requests : List QuoteRequest) :
    Except IndexerError PreparedQuoteSnapshot :=
  if maxBatchQuotes < requests.length then
    .error (.invalidRequest "quote_many accepts at most 256 requests")
  else s.prepareSnapshot

def quoteMany (s : QuoteIndexer) (requests : List QuoteRequest) :
    Except IndexerError ClientBatchQuote := do
  let p ← s.prepareQuoteMany requests
  let outcomes ← requests.mapM p.quoteOne
  .ok ⟨outcomes, p.cursor, p.cursor.executionBlockNumber, p.implementationCodeHash,
    mathCompatibilityVersion, p.data.feeClass, p.data.verifiedRouter.map (·.router)⟩

end QuoteIndexer

end Lunarbase.Client
