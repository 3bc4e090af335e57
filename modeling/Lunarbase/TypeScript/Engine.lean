import Lunarbase.TypeScript.Correction

/-!
# TypeScript — Engine

The synchronous quote engine (`indexer/engine.ts`).  A method returns the indexer it leaves behind
with its result, also when it throws: nothing is rolled back but what the method itself keeps apart.

Lifecycle notices are returned, not published; counters and the stable reducer, which only
checkpoints read, are left out.
-/

namespace Lunarbase.TsClient

open Client (ChainCursor BlockRef ContractLog ChainCorrection ChainUpdate Commitment
  DeploymentConfig BootstrapSnapshot Platform)
open Effect (andThen onError)

structure QuoteIndexer where
  reducer : QuoteReducer
  deployment : DeploymentConfig
  correctionLimits : CorrectionJournalLimits
  canonicalFloor : Option ChainCursor
  correctionJournal : CorrectionJournal
  lastAppliedCorrectionFingerprint : Option B256
  lastAppliedCorrectionTip : Option ChainCursor
  finality : FinalityGuard
  deriving DecidableEq

/-- What a method leaves behind, with its result. -/
abbrev Transition (α : Type) := QuoteIndexer × Except Failure α

/-- The payload of a `CorrectionApplied` notice. -/
structure CorrectionNotice where
  commonAncestor : BlockRef
  oldTip : BlockRef
  newTip : BlockRef
  replacementLogCount : Nat
  deriving DecidableEq

def correctionNotice (c : ChainCorrection) : CorrectionNotice :=
  ⟨c.commonAncestor, c.oldTip, c.newTip, c.replacementLogs.length⟩

/-! ### Construction -/

def validateVerifiedRouterSnapshot (snapshot : BootstrapSnapshot) (deployment : DeploymentConfig) :
    Except Failure Unit :=
  let mismatch : Except Failure Unit :=
    .error (.indexer .source "snapshot verified-router policy does not match deployment")
  match deployment.verifiedRouter, snapshot.verifiedRouter with
  | none, none => .ok ()
  | some expected, some actual =>
    if expected = actual.router ∧
        actual.partnerFeeBps.keys.card ≤ snapshot.state.lanes.keys.card + 1 ∧
        ∀ asset ∈ actual.partnerFeeBps.keys,
          (asset = snapshot.state.cash ∨ asset ∈ snapshot.state.lanes) ∧
            (actual.partnerFeeBps.lookup asset).all (fun fee => fee.setWidth 256 ≤ Math.bps) then
      .ok ()
    else mismatch
  | _, _ => mismatch

namespace QuoteIndexer

def markNotReady (s : QuoteIndexer) : QuoteIndexer := { s with reducer := s.reducer.markNotReady }

/-- The end of a constructor: the journal starts at the floor, and a finalized one is kept. -/
def construct (reducer : QuoteReducer) (deployment : DeploymentConfig) (floor : ChainCursor)
    (correctionLimits : CorrectionJournalLimits) : Except Failure QuoteIndexer := do
  validateLimits correctionLimits
  let (finality, _) ← FinalityGuard.observe ⟨none⟩ floor
  .ok
    { reducer := reducer
      deployment := deployment
      correctionLimits := correctionLimits
      canonicalFloor := some floor
      correctionJournal := .new floor correctionLimits
      lastAppliedCorrectionFingerprint := none
      lastAppliedCorrectionTip := none
      finality := finality }

def fromSnapshot (snapshot : BootstrapSnapshot) (deployment : DeploymentConfig)
    (correctionLimits : CorrectionJournalLimits) : Except Failure QuoteIndexer := do
  validateSnapshotCursor snapshot.cursor deployment.chainId
  validateVerifiedRouterSnapshot snapshot deployment
  let indexer ← construct
    ((QuoteReducer.new snapshot.state deployment.feeClass snapshot.verifiedRouter).bootstrap
      snapshot.cursor) deployment snapshot.cursor correctionLimits
  if snapshot.implementation ≠ deployment.expectedImplementation ∨
      snapshot.implementationCodeHash ≠ deployment.expectedImplementationCodeHash then
    .error (.indexer .codeHashMismatch "snapshot implementation identity mismatch")
  else .ok indexer

/-! ### Logs -/

/-- The two objects a log is applied to: the live pair, or a correction's candidate. -/
structure Target where
  reducer : QuoteReducer
  journal : CorrectionJournal
  deriving DecidableEq

def target (s : QuoteIndexer) : Target := ⟨s.reducer, s.correctionJournal⟩

def withTarget (s : QuoteIndexer) (target : Target) : QuoteIndexer :=
  { s with reducer := target.reducer, correctionJournal := target.journal }

/-- Whether the canonical floor already represents the log. -/
def floorCovers (s : QuoteIndexer) (cursor : ChainCursor) : Except Failure Bool :=
  match s.canonicalFloor with
  | none => .ok false
  | some floor => canonicalFloorCoversLog cursor floor

/-- The reducer is changed before the journal records it, which may still throw. -/
def applyEventTo (target : Target) (cursor : ChainCursor) (event : Client.QuoteEvent) :
    Target × Except Failure Bool :=
  match target.reducer.apply cursor event with
  | .error e => (target, .error e)
  | .ok (reducer, none) => ({ target with reducer := reducer }, .ok false)
  | .ok (reducer, some undo) =>
    match target.journal.record cursor undo with
    | (journal, .error e) => (⟨reducer, journal⟩, .error e)
    | (journal, .ok _) => (⟨reducer, journal⟩, .ok true)

/-- What `applyLog` checks before the event: none when the log has nothing to apply. -/
def admitLog (env : Platform) (s : QuoteIndexer) (journal : CorrectionJournal) (log : ContractLog)
    (respectCanonicalFloor : Bool) : Except Failure (Option Client.QuoteEvent) := do
  validateCoreLogIdentity log s.deployment.core s.deployment.chainId
  if log.removed then .error (gap "removed log requires a resolved correction")
  else do
    let covered ← (if respectCanonicalFloor then s.floorCovers log.cursor else .ok false)
    if covered then .ok none
    else do
      let event ← decodeCoreEvent env log
      match event with
      | none => .ok none
      | some event => do
        (if respectCanonicalFloor then journal.validateMutation log.cursor else .ok ())
        .ok (some event)

def applyLog (env : Platform) (s : QuoteIndexer) (target : Target) (log : ContractLog)
    (respectCanonicalFloor : Bool) : Target × Except Failure Bool :=
  match s.admitLog env target.journal log respectCanonicalFloor with
  | .error e => (target, .error e)
  | .ok none => (target, .ok false)
  | .ok (some event) => applyEventTo target log.cursor event

/-! ### Finality -/

def observeFinalized (s : QuoteIndexer) (cursor : ChainCursor) (blockComplete : Bool) :
    Transition Unit :=
  match s.finality.observe cursor with
  | .error e => (s, .error e)
  | .ok (finality, taken) =>
    let s := { s with finality := finality }
    if !taken || !blockComplete || !cursorHasIdentity s.reducer.cursor cursor then (s, .ok ())
    else
      ({ s with
        canonicalFloor := some cursor
        correctionJournal := .new cursor s.correctionLimits }, .ok ())

/-! ### Corrections -/

/-- An exact retry of the last applied correction, its tip still covered by the published head. -/
def isRetry (env : Platform) (s : QuoteIndexer) (c : ChainCorrection) : Bool :=
  decide (s.lastAppliedCorrectionFingerprint = some (correctionFingerprint env c)) &&
    (s.lastAppliedCorrectionTip.any fun tip =>
      sameIdentity (identity tip) (identity c.newTip.cursor)) &&
    s.reducer.cursor.any fun current => cursorCoversCorrectionTip current c.newTip.cursor

/-- The loop over the replacement logs.  The live journal shares undo blocks with the candidate
and sees what is written into them. -/
def replayReplacement (env : Platform) (s : QuoteIndexer) (candidate : Target) :
    List ContractLog → QuoteIndexer × Except Failure Target
  | [] => (s, .ok candidate)
  | log :: rest =>
    match s.applyLog env candidate log false with
    | (candidate', .error e) =>
      ({ s with correctionJournal := s.correctionJournal.seeing candidate'.journal }, .error e)
    | (candidate', .ok _) =>
      replayReplacement env
        { s with correctionJournal := s.correctionJournal.seeing candidate'.journal }
          candidate' rest

/-- The candidate takes the place of the live pair. -/
def publishCandidate (env : Platform) (s : QuoteIndexer) (c : ChainCorrection)
    (candidate : Target) : Transition (Option CorrectionNotice) :=
  match candidate.reducer.observeHead c.newTip.cursor with
  | .error e => (s, .error e)
  | .ok reducer =>
    let journal := c.newBranch.foldl (fun journal block => journal.observe block.cursor)
      candidate.journal
    let s := { s with
      reducer := reducer
      correctionJournal := journal
      lastAppliedCorrectionFingerprint := some (correctionFingerprint env c)
      lastAppliedCorrectionTip := some c.newTip.cursor }
    andThen (s.observeFinalized c.newTip.cursor true) fun s _ =>
      (s, .ok (some (correctionNotice c)))

/-- The checks of a correction that is not a retry: whether there is anything to apply. -/
def admitCorrection (env : Platform) (s : QuoteIndexer) (c : ChainCorrection) :
    Except Failure Bool := do
  s.finality.validateCorrection c
  let shouldApply ← validateCorrectionState c s.reducer.cursor
  if shouldApply then .ok true
  else if s.lastAppliedCorrectionFingerprint = some (correctionFingerprint env c) then .ok false
  else .error (gap "correction new tip has no matching applied envelope")

def applyCorrection (env : Platform) (s : QuoteIndexer) (c : ChainCorrection)
    (envelopeValidated : Bool) : Transition (Option CorrectionNotice) :=
  andThen (s, if envelopeValidated then .ok ()
    else validateCorrectionEnvelope c s.deployment.core s.deployment.chainId) fun s _ =>
  if !s.reducer.ready then
    (s, .error (gap "correction cannot repair invalid quote state; snapshot recovery required"))
  else if s.isRetry env c then (s, .ok none)
  else
    andThen (s, s.admitCorrection env c) fun s shouldApply =>
    if !shouldApply then (s, .ok none)
    else
      andThen (s, s.correctionJournal.candidate s.reducer c.commonAncestor c.oldBranch)
        fun s candidate =>
      andThen (s.replayReplacement env ⟨candidate.1, candidate.2⟩ c.replacementLogs)
        fun s candidate => s.publishCandidate env c candidate

/-! ### Updates -/

def applyCoreLog (env : Platform) (s : QuoteIndexer) (log : ContractLog) : Transition Unit :=
  match s.applyLog env s.target log true with
  | (target, .error e) => (s.withTarget target, .error e)
  | (target, .ok changed) =>
    let s := s.withTarget target
    let s := if changed then
        { s with lastAppliedCorrectionFingerprint := none, lastAppliedCorrectionTip := none }
      else s
    match (if log.cursor.commitment = .finalized then s.reducer.observeHead log.cursor
      else .ok s.reducer) with
    | .error e => (s, .error e)
    | .ok reducer => { s with reducer := reducer }.observeFinalized log.cursor false

def applyCoreHead (s : QuoteIndexer) (head : ChainCursor) : Transition Unit :=
  match s.reducer.observeHead head with
  | .error e => (s, .error e)
  | .ok reducer =>
    let s := { s with reducer := reducer }
    if cursorHasIdentity s.reducer.cursor head then
      { s with correctionJournal := s.correctionJournal.observe head }.observeFinalized head true
    else s.observeFinalized head false

/-- The body of `applyCoreUpdate`, before its `catch`. -/
def dispatch (env : Platform) (s : QuoteIndexer) (update : ChainUpdate) : Transition Unit :=
  match update with
  | .log log => s.applyCoreLog env log
  | .head block => s.applyCoreHead block.cursor
  | .correction c => andThen (s.applyCorrection env c false) fun s _ => (s, .ok ())
  | .reorg _ _ => (s, .error (gap "reorg requires canonical recovery"))
  | .gap _ reason => (s, .error (gap reason))

/-- Errors of another class become an `IndexerError`. -/
def normalize : Failure → Failure
  | .indexer code message => .indexer code message
  | failure => .indexer .reducer failure.message

def applyCoreUpdate (env : Platform) (s : QuoteIndexer) (update : ChainUpdate) : Transition Unit :=
  match s.dispatch env update with
  | (s, .ok ()) => (s, .ok ())
  | (s, .error e) => (s.markNotReady, .error (normalize e))

end QuoteIndexer

end Lunarbase.TsClient
