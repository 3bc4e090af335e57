import Lunarbase.Client.RecoveryStage

/-!
# Client — Runtime

The connected client as two loops over shared state: the source pump (`source_pump`,
`source_stream::consume`, `source_queue::send_update`) and the reducer (`reducer_loop`,
`apply_live_segment`, `recover_until_ready`), with the freshness watchdog.  An action is one atomic
step of one of them: a load or compare-exchange of the admission word, a look at the activity
flag, a queue operation.  Whatever a loop does between two of them no other loop can see.

An action that is not enabled leaves the state as it is: a full queue blocks the pump, an empty one
the reducer.  What the source delivers, what its calls answer and how much of the queue the reducer
sees are arguments of the actions.  Shutdown is left out.
-/

namespace Lunarbase.Client

open Availability

/-! ### Segments -/

def maxOrdinarySegmentUpdates : Nat := 256

def ordinaryCursor : ChainUpdate → Option ChainCursor
  | .head block => some block.cursor
  | .log log => some log.cursor
  | .reorg _ _ | .correction _ | .gap _ _ => none

def ordinaryLogJoins (identity : ChainCursor) : ChainUpdate → Bool
  | .log log =>
    log.cursor.chainId == identity.chainId && log.cursor.blockNumber == identity.blockNumber &&
      log.cursor.executionBlockNumber == identity.executionBlockNumber &&
      log.cursor.blockHash == identity.blockHash
  | _ => false

/-- The logs that join a segment, what stays in the queue, and the update that ended it. -/
def joinSegment (identity : ChainCursor) :
    Nat → List QueuedUpdate → List QueuedUpdate × List QueuedUpdate × List QueuedUpdate
  | 0, updates => ([], updates, [])
  | _ + 1, [] => ([], [], [])
  | room + 1, next :: rest =>
    if ordinaryLogJoins identity next.update then
      let (joined, left, ended) := joinSegment identity room rest
      (next :: joined, left, ended)
    else ([], rest, [next])

/-- `collect_live_segment`: the segment, the queue and the pending updates it leaves.  At most
`visible` updates have arrived when the reducer looks. -/
def collectLiveSegment (first : QueuedUpdate) (visible : Nat) (updates : List QueuedUpdate) :
    List QueuedUpdate × List QueuedUpdate × List QueuedUpdate :=
  match ordinaryCursor first.update with
  | none => ([first], updates, [])
  | some identity =>
    let (joined, left, ended) :=
      joinSegment identity (min visible (maxOrdinarySegmentUpdates - 1)) updates
    (first :: joined, left, ended)

/-- The updates of a segment applied to a private candidate, up to the first that fails. -/
def applySegment (env : Platform) (bytes : ImageCost) :
    QuoteIndexer → Nat → List QueuedUpdate → Except Nat QuoteIndexer
  | candidate, _, [] => .ok candidate
  | candidate, index, queued :: rest =>
    match candidate.applyCoreUpdateBorrowed env bytes queued.update with
    | (candidate', .ok ()) => applySegment env bytes candidate' (index + 1) rest
    | (_, .error _) => .error index

/-! ### State -/

inductive Pump
  /-- At the subscription handshake. -/
  | subscribing
  | connected
  /-- A correction with its admission, on the way to the queue. -/
  | admitting (correction : ChainCorrection) (admission : Option Token)
  /-- A `Gap` on the way to the queue, or to the recovery signal. -/
  | reporting (gap : QueuedUpdate)
  /-- The stream was given up; the activity is marked once more. -/
  | parted
  /-- In the reconnect delay. -/
  | pausing

/-- Where an iteration of `recover_until_ready` is.  A lease is kept from `leased` on. -/
inductive RecoveryPhase
  | revoking
  | looping
  | waiting
  | observed
  | sampled (token : Token)
  | leased (lease : Token)
  | gathered (lease : Token)
  | installed (lease : Token) (publication : Option Token)
  | finished (lease : Token)
  | published

/-- Where the reducer is.  The three looks of `source_activity_lease` are steps of their own. -/
inductive Reducer
  | idle (pending : List QueuedUpdate)
  | collected (segment pending : List QueuedUpdate)
  | observed (segment pending : List QueuedUpdate)
  | sampled (segment pending : List QueuedUpdate) (token : Token)
  | leased (segment pending : List QueuedUpdate) (lease : Option Token)
  | stored (pending : List QueuedUpdate) (lease publication : Option Token)
  | progressed (pending : List QueuedUpdate) (lease : Option Token)
  | controlled (queued : List QueuedUpdate) (prior : Option ChainCursor)
      (publication : Option Token)
  | correcting (item : QueuedUpdate) (pending : List QueuedUpdate) (token : Token)
  | correctionStored (item : QueuedUpdate) (pending : List QueuedUpdate) (token : Token)
      (publication : Option Token)
  | completing (item : QueuedUpdate) (pending : List QueuedUpdate) (token : Token)
  | failed (queued : List QueuedUpdate) (failedIndex : Nat) (prior : Option ChainCursor)
  | recovering (stage : RecoveryStage) (phase : RecoveryPhase)

inductive Watchdog
  | resting
  | sampled (token : Token)
  | expiring (token : Token)

/-- The shared state and the places of the loops.  `terminations` counts the stream terminations
so far, and `outstanding` are those whose `Gap` no installed recovery has dealt with. -/
structure Runtime where
  capacity : Nat
  indexer : QuoteIndexer
  availability : Token
  sourceActive : Bool
  everActive : Bool
  queue : List QueuedUpdate
  signal : RecoverySignal
  pump : Pump
  reducer : Reducer
  watchdog : Watchdog
  terminations : Nat
  outstanding : List Nat

inductive Action
  | receive (update : ChainUpdate)
  | beginAdmission (correction : ChainCorrection)
  | send
  | terminate (cursor : Option ChainCursor) (reason : String)
  | report (direct : Bool)
  | part
  | resubscribe
  | subscribeFailed (reason : String)
  | reconnect
  | collect (visible : Nat)
  | observe
  | sample
  | confirm
  | apply (bytes : ImageCost)
  | completePublication
  | publishAvailable
  | buildCorrection (bytes : ImageCost)
  | completeCorrection
  | beginRecovery
  | revoke
  | resume
  | absorb
  | canonicalHead (head : ChainCursor)
  | retry
  | gather
  | install (snapshot : BootstrapSnapshot) (bytes : ImageCost)
      (backfillValid : Bool)
  | publishRecovered
  | finishRecovery
  | watchdogSample
  | watchdogBegin
  | watchdogFinish (unchanged : Bool)

namespace Runtime

/-! ### The pump -/

def hasRoom (s : Runtime) : Bool := decide (s.queue.length < s.capacity)

/-- `mark_source_inactive`. -/
def markSourceInactive (s : Runtime) : Runtime :=
  { s with
    availability := (invalidateSourceLease s.availability).1
    sourceActive := false }

def receive (s : Runtime) (update : ChainUpdate) : Runtime :=
  match s.pump, ordinaryCursor update with
  | .connected, some _ =>
    if s.hasRoom then
      { s with queue := s.queue ++ [⟨update, none, none, by simp⟩] }
    else s
  | .connected, none =>
    match update with
    | .reorg _ _ =>
      if s.hasRoom then { s with queue := s.queue ++ [⟨update, none, none, by simp⟩] } else s
    | _ => s
  | _, _ => s

/-- `PendingCorrectionAdmission::begin`, before the correction is sent. -/
def beginAdmission (s : Runtime) (correction : ChainCorrection) : Runtime :=
  match s.pump with
  | .connected =>
    { s with
      availability := (beginCorrection s.availability).1
      pump := .admitting correction (beginCorrection s.availability).2 }
  | _ => s

def send (s : Runtime) : Runtime :=
  match s.pump with
  | .admitting correction admission =>
    if s.hasRoom then
      { s with
        queue := s.queue ++ [⟨.correction correction, admission, none, by simp⟩]
        pump := .connected }
    else s
  | _ => s

/-- The stream ended, stalled, failed, or delivered a `Gap` or an update beyond the byte budget. -/
def terminate (s : Runtime) (cursor : Option ChainCursor) (reason : String) : Runtime :=
  match s.pump with
  | .connected =>
    { s.markSourceInactive with
      pump := .reporting ⟨.gap cursor reason, none, some s.terminations, fun _ => rfl⟩
      terminations := s.terminations + 1
      outstanding := s.outstanding ++ [s.terminations] }
  | _ => s

/-- The `Gap` goes into the queue or, while a recovery is active, into its signal. -/
def report (s : Runtime) (direct : Bool) : Runtime :=
  match s.pump with
  | .reporting gap =>
    if direct then
      match s.signal.publishRequirementIfActive gap with
      | (signal, true) => { s with signal := signal, pump := .parted }
      | (_, false) => s
    else if s.hasRoom then { s with queue := s.queue ++ [gap], pump := .parted }
    else s
  | _ => s

def part (s : Runtime) : Runtime :=
  match s.pump with
  | .parted => { s.markSourceInactive with pump := .pausing }
  | _ => s

def resubscribe (s : Runtime) : Runtime :=
  match s.pump with
  | .pausing => { s.markSourceInactive with pump := .subscribing }
  | _ => s

def subscribeFailed (s : Runtime) (reason : String) : Runtime :=
  match s.pump with
  | .subscribing =>
    if s.everActive then
      { s with pump := .reporting ⟨.gap none reason, none, none, by simp⟩ }
    else { s with pump := .parted }
  | _ => s

def reconnect (s : Runtime) : Runtime :=
  match s.pump with
  | .subscribing => { s with sourceActive := true, everActive := true, pump := .connected }
  | _ => s

/-! ### The reducer -/

def collect (s : Runtime) (visible : Nat) : Runtime :=
  match s.reducer with
  | .idle (first :: pending) =>
    let (segment, queue, ended) := collectLiveSegment first visible s.queue
    { s with queue := queue, reducer := .collected segment (pending ++ ended) }
  | .idle [] =>
    match s.queue with
    | [] => s
    | first :: rest =>
      let (segment, queue, ended) := collectLiveSegment first visible rest
      { s with queue := queue, reducer := .collected segment ended }
  | _ => s

/-- The first look at the activity. -/
def observe (s : Runtime) : Runtime :=
  match s.reducer with
  | .collected segment pending =>
    { s with
      reducer := if s.sourceActive then .observed segment pending
        else .leased segment pending none }
  | .recovering stage .waiting =>
    { s with reducer := .recovering stage (if s.sourceActive then .observed else .waiting) }
  | _ => s

/-- The lease is read from the admission word. -/
def sample (s : Runtime) : Runtime :=
  match s.reducer with
  | .observed segment pending => { s with reducer := .sampled segment pending s.availability }
  | .recovering stage .observed =>
    { s with reducer := .recovering stage (.sampled s.availability) }
  | _ => s

/-- The second look: without it there is no lease. -/
def confirm (s : Runtime) : Runtime :=
  match s.reducer with
  | .sampled segment pending token =>
    { s with reducer := .leased segment pending (if s.sourceActive then some token else none) }
  | .recovering stage (.sampled token) =>
    { s with reducer := .recovering stage (if s.sourceActive then .leased token else .looping) }
  | _ => s

/-- A coherent state is stored under publication priority, which is given back in a later step. -/
def store (s : Runtime) (indexer : QuoteIndexer) (reducer : Option Token → Reducer) : Runtime :=
  { s with
    indexer := indexer
    availability := (beginPublication s.availability).1
    reducer := reducer (beginPublication s.availability).2 }

/-- `apply_ordinary_segment`, `apply_control_segment`, or the start of `apply_live_correction`. -/
def apply (env : Platform) (s : Runtime) (bytes : ImageCost) : Runtime :=
  match s.reducer with
  | .leased (first :: rest) pending lease =>
    let prior := s.indexer.reducer.cursor
    match ordinaryCursor first.update with
    | some _ =>
      match applySegment env bytes s.indexer 0 (first :: rest) with
      | .ok candidate => s.store candidate (.stored pending lease)
      | .error index => { s with reducer := .failed (first :: rest ++ pending) index prior }
    | none =>
      match first.update with
      | .correction _ =>
        let item : QueuedUpdate := { first with admission := none }
        match first.admission with
        | some token => { s with reducer := .correcting item pending token }
        | none =>
          match beginCorrection s.availability with
          | (word, some token) =>
            { s with availability := word, reducer := .correcting item pending token }
          | (_, none) => { s with reducer := .failed (item :: pending) 0 prior }
      | update =>
        -- the candidate is stored whether or not it took the update
        match s.indexer.applyCoreUpdateBorrowed env bytes update with
        | (candidate, .ok ()) => s.store candidate (.stored pending lease)
        | (candidate, .error _) => s.store candidate (.controlled (first :: pending) prior)
  | _ => s

/-- The word once the priority, if there was one to take, is given back. -/
def restored (s : Runtime) : Option Token → Token
  | none => s.availability
  | some token => (Availability.completePublication s.availability token).1

def completePublication (s : Runtime) : Runtime :=
  match s.reducer with
  | .stored pending lease publication =>
    { s with availability := s.restored publication, reducer := .progressed pending lease }
  | .controlled queued prior publication =>
    { s with availability := s.restored publication, reducer := .failed queued 0 prior }
  | .correctionStored item pending token publication =>
    { s with availability := s.restored publication, reducer := .completing item pending token }
  | .recovering stage (.installed lease publication) =>
    { s with
      availability := s.restored publication, reducer := .recovering stage (.finished lease) }
  | _ => s

/-- `publish_available_if` after an ordinary segment; its result is not looked at. -/
def publishAvailable (s : Runtime) : Runtime :=
  match s.reducer with
  | .progressed pending lease =>
    { s with
      availability := match lease with
        | none => s.availability
        | some token => (publishIf s.availability token).1
      reducer := .idle pending }
  | _ => s

/-- The correction is built from the stored state and stored in its place.  A failure drops its
admission. -/
def buildCorrection (env : Platform) (s : Runtime) (bytes : ImageCost) :
    Runtime :=
  match s.reducer with
  | .correcting item pending token =>
    match item.update with
    | .correction c =>
      match s.indexer.intoCorrectedCore env bytes c with
      | .ok (candidate, true) => s.store candidate (.correctionStored item pending token)
      | .ok (_, false) => { s with reducer := .completing item pending token }
      | .error _ =>
        { s with
          availability := (failCorrection s.availability token).1
          reducer := .failed (item :: pending) 0 s.indexer.reducer.cursor }
    | _ => s
  | _ => s

def completeCorrection (s : Runtime) : Runtime :=
  match s.reducer with
  | .completing item pending token =>
    { s with
      availability := (Availability.completeCorrection s.availability token).1
      reducer :=
        if (Availability.completeCorrection s.availability token).2 then .idle pending
        else .failed (item :: pending) 0 s.indexer.reducer.cursor }
  | _ => s

/-! ### Recovery -/

def beginRecovery (s : Runtime) : Runtime :=
  match s.reducer with
  | .failed queued failedIndex prior =>
    { s with
      signal := { s.signal with active := true }
      reducer := .recovering (RecoveryStage.newSegment queued failedIndex prior) .revoking }
  | _ => s

/-- `record_transition_failure`. -/
def revoke (s : Runtime) : Runtime :=
  match s.reducer with
  | .recovering stage .revoking =>
    { s with
      availability := (Availability.revoke s.availability).1
      indexer := s.indexer.markNotReady
      reducer := .recovering stage .looping }
  | _ => s

def resume (s : Runtime) : Runtime :=
  match s.reducer with
  | .recovering stage .looping =>
    { s with
      queue := []
      reducer := .recovering ((stage.mergeControl s.signal).absorb s.queue) .waiting }
  | _ => s

def absorb (s : Runtime) : Runtime :=
  match s.reducer with
  | .recovering stage (.leased lease) =>
    { s with queue := [], reducer := .recovering (stage.absorb s.queue) (.leased lease) }
  | _ => s

def canonicalHead (s : Runtime) (head : ChainCursor) : Runtime :=
  match s.reducer with
  | .recovering stage (.leased lease) =>
    if stage.needsCanonicalHead then
      { s with reducer := .recovering (stage.setCanonicalHead head) (.leased lease) }
    else s
  | _ => s

/-- A call of the source failed, or the snapshot did not cover the stage. -/
def retry (s : Runtime) : Runtime :=
  match s.reducer with
  | .recovering stage (.leased _) => { s with reducer := .recovering stage .looping }
  | _ => s

/-- The last look at the queue and the signal before the snapshot is installed. -/
def gather (s : Runtime) : Runtime :=
  match s.reducer with
  | .recovering stage (.leased lease) =>
    let stage := (stage.absorb s.queue).mergeControl s.signal
    { s with
      queue := []
      reducer := .recovering stage
        (if stage.needsCanonicalHead then .looping else .gathered lease) }
  | _ => s

def install (env : Platform) (s : Runtime) (snapshot : BootstrapSnapshot)
    (bytes : ImageCost) (backfillValid : Bool) : Runtime :=
  match s.reducer with
  | .recovering stage (.gathered lease) =>
    match stage.snapshotCovers snapshot.cursor with
    | .ok true =>
      match s.indexer.bootstrapNormalizedOrdered env bytes snapshot
          (sortChainUpdates stage.borrowedUpdates), backfillValid with
      | (candidate, .ok _), true =>
        { s.store candidate fun publication => .recovering stage (.installed lease publication) with
          outstanding := s.outstanding.filter fun n => n ∉ stage.reported }
      | _, _ => { s with reducer := .recovering stage.requireAllUpdates .looping }
    | _ => { s with reducer := .recovering stage .looping }
  | _ => s

def publishRecovered (s : Runtime) : Runtime :=
  match s.reducer with
  | .recovering stage (.finished lease) =>
    { s with
      availability := (publishIf s.availability lease).1
      reducer :=
        if (publishIf s.availability lease).2 then .recovering stage .published
        else .recovering stage.requireAllUpdates .looping }
  | _ => s

/-- The staged updates are dropped when no requirement was raised meanwhile. -/
def finishRecovery (s : Runtime) : Runtime :=
  match s.reducer with
  | .recovering stage .published =>
    match s.signal.finishRecovery stage.expectedGeneration with
    | (signal, true) =>
      { s with
        signal := signal
        availability := (admissions stage.queued).foldl
          (fun word token => (failCorrection word token).1) s.availability
        reducer := .idle [] }
    | (_, false) => { s with reducer := .recovering stage.requireAllUpdates .looping }
  | _ => s

/-! ### The watchdog -/

def watchdogSample (s : Runtime) : Runtime :=
  match s.watchdog with
  | .expiring _ => s
  | _ => { s with watchdog := .sampled s.availability }

def watchdogBegin (s : Runtime) : Runtime :=
  match s.watchdog with
  | .sampled token =>
    { s with
      availability := (beginExpiration s.availability token).1
      watchdog := match (beginExpiration s.availability token).2 with
        | some expiring => .expiring expiring
        | none => .resting }
  | _ => s

def watchdogFinish (s : Runtime) (unchanged : Bool) : Runtime :=
  match s.watchdog with
  | .expiring token =>
    { s with
      availability := (finishExpiration s.availability token unchanged).1
      watchdog := .resting }
  | _ => s

def step (env : Platform) (s : Runtime) : Action → Runtime
  | .receive update => s.receive update
  | .beginAdmission correction => s.beginAdmission correction
  | .send => s.send
  | .terminate cursor reason => s.terminate cursor reason
  | .report direct => s.report direct
  | .part => s.part
  | .resubscribe => s.resubscribe
  | .subscribeFailed reason => s.subscribeFailed reason
  | .reconnect => s.reconnect
  | .collect visible => s.collect visible
  | .observe => s.observe
  | .sample => s.sample
  | .confirm => s.confirm
  | .apply bytes => s.apply env bytes
  | .completePublication => s.completePublication
  | .publishAvailable => s.publishAvailable
  | .buildCorrection bytes => s.buildCorrection env bytes
  | .completeCorrection => s.completeCorrection
  | .beginRecovery => s.beginRecovery
  | .revoke => s.revoke
  | .resume => s.resume
  | .absorb => s.absorb
  | .canonicalHead head => s.canonicalHead head
  | .retry => s.retry
  | .gather => s.gather
  | .install snapshot bytes backfillValid => s.install env snapshot bytes backfillValid
  | .publishRecovered => s.publishRecovered
  | .finishRecovery => s.finishRecovery
  | .watchdogSample => s.watchdogSample
  | .watchdogBegin => s.watchdogBegin
  | .watchdogFinish unchanged => s.watchdogFinish unchanged

end Runtime

end Lunarbase.Client
