import Lunarbase.Client.RecoveryStage
import Lunarbase.EventWorker.Event
import Lunarbase.Support.Run

/-!
# EventWorker — Readiness

The two tasks that share the readiness of the worker: the source pump (`pump.rs`), which connects,
fills the queue and revokes its lease when the stream ends, and the drive loop (`runtime.rs`), which
recovers, empties the queue and publishes readiness for the lease it sampled before.  Each step is
one atomic access of the metrics, the activity channel or the queue.

What an update or a recovery does to the store is not followed here: its outcome is an input of the
step, and only that of a `Gap` is known, which never lets the loop go on.  The ghost fields count
the changes of the activity word and the gaps that were enqueued, processed and recovered from.
-/

namespace Lunarbase.EventWorker

open Client (ChainUpdate ChainCursor u32Max updateCursor)

/-! ### The activity word -/

/-- The word after `advance_source_activity`: the next version, with bit zero as the active flag.
Only the pump advances the word, so that its compare-exchange loop always ends with this value. -/
def advanceSourceActivity (current : BitVec 64) (active : Bool) : BitVec 64 :=
  ((current + 2) &&& ~~~1) ||| (if active then 1 else 0)

def isActiveLease (word : BitVec 64) : Bool := word &&& 1 = 1

def sourceLease (activity : BitVec 64) : Option (BitVec 64) :=
  if isActiveLease activity then some activity else none

/-! ### The queue -/

/-- The bounds of the source queue.  The Gap that stands in for an update that is too large fits,
and the byte budget is counted in 32 bits. -/
structure QueueBounds where
  sourceQueueBound : Nat
  sourceQueueByteBound : Nat
  gapBytes : Nat
  byteBound_le : sourceQueueByteBound ≤ u32Max

/-- An update and its charge. -/
structure SourceUpdate where
  update : ChainUpdate
  bytes : Nat
  deriving DecidableEq

namespace SourceUpdate

/-- The permits an update holds in the byte budget. -/
def permits (queued : SourceUpdate) : Nat := max queued.bytes 1

def isGap (queued : SourceUpdate) : Bool := queued.update.isGap

/-- `normalize_update`. -/
def normalize (bounds : QueueBounds) (queued : SourceUpdate) : SourceUpdate :=
  if queued.bytes ≤ bounds.sourceQueueByteBound then queued
  else
    ⟨.gap (updateCursor queued.update) "source update exceeded event-worker queue byte budget",
      bounds.gapBytes⟩

end SourceUpdate

/-! ### The pump -/

/-- What the pump does after `mark_inactive`.  Only a Gap is sent then. -/
inductive Next where
  | subscribe
  | send (queued : SourceUpdate) (terminal : queued.isGap = true)
  | pause
  | exit
  deriving DecidableEq

/-- Where the pump is.  `revoke`, `unready` and `deactivate` are the steps of `mark_inactive`;
`acquire` to `enqueue` are those of `send`. -/
inductive PumpPc where
  | top
  | revoke (next : Next)
  | unready (next : Next)
  | deactivate (next : Next)
  | subscribe
  | connect
  | activate
  | consume
  | acquire (queued : SourceUpdate)
  | waitBytes (queued : SourceUpdate)
  | reserve (queued : SourceUpdate)
  | waitSlot (queued : SourceUpdate)
  | count (queued : SourceUpdate)
  | enqueue (queued : SourceUpdate)
  | pause
  | stopped
  deriving DecidableEq

def Next.pc : Next → PumpPc
  | .subscribe => .subscribe
  | .send queued _ => .acquire queued
  | .pause => .pause
  | .exit => .stopped

/-- What the stream brings: an update, an error, its end, or nothing within the stall timeout. -/
inductive Arrival where
  | update (update : ChainUpdate)
  | failed (error : String)
  | closed
  | stalled (timeout : String)
  deriving DecidableEq

def Arrival.toUpdate : Arrival → ChainUpdate
  | .update received => received
  | .failed error => .gap none ("source stream failed: " ++ error)
  | .closed => .gap none "source stream closed"
  | .stalled timeout => .gap none ("source stalled for " ++ timeout)

inductive PumpInput where
  | proceed
  | cancelled
  | subscribed
  | subscribeFailed (error : String) (bytes : Nat)
  | arrived (arrival : Arrival) (bytes : Nat)

/-- Where the pump may be cancelled. -/
def PumpPc.awaits : PumpPc → Bool
  | .top | .subscribe | .consume | .acquire _ | .waitBytes _ | .reserve _ | .waitSlot _ | .pause =>
    true
  | _ => false

/-! ### The drive loop -/

/-- The lease the loop sampled, with what the ghosts were then. -/
structure Attempt where
  lease : BitVec 64
  advances : Nat
  enqueued : Nat
  processed : Nat
  connectGaps : Nat
  deriving DecidableEq

/-- Where the drive loop is.  `sampled` to `drained` are the recovery, `askActive` to `unpublish`
the attempt to publish readiness, the last four of them inside `publish_ready_if`. -/
inductive DrivePc where
  | top
  | waiting
  | conflict
  | sample
  | sampled (attempt : Attempt)
  | backfill (attempt : Attempt)
  | drain (attempt : Attempt)
  | drained (attempt : Attempt)
  | askActive (attempt : Attempt)
  | askQueues (attempt : Attempt)
  | load (attempt : Attempt)
  | store (attempt : Attempt)
  | reload (attempt : Attempt)
  | unpublish (attempt : Attempt)
  | live (attempt : Attempt)
  | handling (recovering : Bool) (attempt : Attempt) (queued : SourceUpdate)
  | sleep
  | exiting
  | stopped
  deriving DecidableEq

/-- How handling an update, or reading the canonical logs, ends. -/
inductive Handled where
  | continued
  | recover
  | failed
  | fatal
  | shutdown
  deriving DecidableEq

/-- Where the loop goes when something did not let it go on. -/
def Handled.pc : Handled → DrivePc
  | .continued | .recover => .top
  | .failed => .sleep
  | .fatal | .shutdown => .exiting

/-- A Gap asks for recovery, unless it belongs to another chain. -/
def SourceUpdate.admits (queued : SourceUpdate) (handled : Handled) : Bool :=
  !queued.isGap || handled = .recover || handled = .fatal

inductive DriveInput where
  | proceed
  | shutdown
  | conflict
  | redisBusy
  | outcome (handled : Handled)

/-! ### Both -/

structure Tasks where
  pump : PumpPc
  everActive : Bool
  drive : DrivePc
  ready : Bool
  sourceActivity : BitVec 64
  sourceQueueDepth : Nat
  active : Bool
  queue : List SourceUpdate
  /-- The lease that readiness was last published for. -/
  published : BitVec 64
  /-- The lease of the last connect, and the gaps enqueued before it. -/
  issued : BitVec 64
  gapsAtConnect : Nat
  advances : Nat
  gapsEnqueued : Nat
  gapsProcessed : Nat
  /-- The gaps processed before the last successful recovery began. -/
  gapsRecovered : Nat

namespace Tasks

def initial : Tasks where
  pump := .top
  everActive := false
  drive := .top
  ready := false
  sourceActivity := 0
  sourceQueueDepth := 0
  active := false
  queue := []
  published := 0
  issued := 0
  gapsAtConnect := 0
  advances := 0
  gapsEnqueued := 0
  gapsProcessed := 0
  gapsRecovered := 0

/-- The permits of the byte budget that queued updates hold. -/
def queuedPermits (s : Tasks) : Nat := (s.queue.map SourceUpdate.permits).sum

def setReady (s : Tasks) (ready : Bool) : Tasks := { s with ready := ready }

def advance (s : Tasks) (active : Bool) : Tasks :=
  { s with
    sourceActivity := advanceSourceActivity s.sourceActivity active
    advances := s.advances + 1 }

def enqueue (s : Tasks) (queued : SourceUpdate) : Tasks :=
  { s with
    queue := s.queue ++ [queued]
    gapsEnqueued := s.gapsEnqueued + (if queued.isGap then 1 else 0) }

def pumpStep (bounds : QueueBounds) (s : Tasks) (input : PumpInput) : Tasks :=
  match s.pump, input with
  | .top, .proceed => { s with pump := .revoke .subscribe }
  | .revoke next, .proceed => { s.advance false with pump := .unready next }
  | .unready next, .proceed => { s.setReady false with pump := .deactivate next }
  | .deactivate next, .proceed => { s with active := false, pump := next.pc }
  | .subscribe, .subscribed => { s with everActive := true, pump := .connect }
  | .subscribe, .subscribeFailed error bytes =>
    if s.everActive then
      let queued : SourceUpdate := ⟨.gap none ("source subscribe failed: " ++ error), bytes⟩
      { s with pump := .acquire (queued.normalize bounds) }
    else { s with pump := .revoke .pause }
  | .connect, .proceed =>
    let connected := s.advance true
    { connected with
      issued := connected.sourceActivity
      gapsAtConnect := s.gapsEnqueued
      pump := .activate }
  | .activate, .proceed => { s with active := true, pump := .consume }
  | .consume, .arrived arrival bytes =>
    -- An update that is too large is a Gap from here on, and terminal as well.
    let queued := SourceUpdate.normalize bounds ⟨arrival.toUpdate, bytes⟩
    { s with
      pump := if terminal : queued.isGap then .revoke (.send queued terminal) else .acquire queued }
  | .acquire queued, .proceed =>
    if queued.permits + s.queuedPermits ≤ bounds.sourceQueueByteBound then
      { s with pump := .reserve queued }
    else { s.setReady false with pump := .waitBytes queued }
  | .waitBytes queued, .proceed =>
    if queued.permits + s.queuedPermits ≤ bounds.sourceQueueByteBound then
      { s with pump := .reserve queued }
    else s
  | .reserve queued, .proceed =>
    if s.queue.length < bounds.sourceQueueBound then { s with pump := .count queued }
    else { s.setReady false with pump := .waitSlot queued }
  | .waitSlot queued, .proceed =>
    if s.queue.length < bounds.sourceQueueBound then { s with pump := .count queued } else s
  | .count queued, .proceed =>
    { s with sourceQueueDepth := s.sourceQueueDepth + 1, pump := .enqueue queued }
  | .enqueue queued, .proceed =>
    { s.enqueue queued with pump := if queued.isGap then .revoke .pause else .consume }
  | .pause, .proceed => { s with pump := .top }
  | pc, .cancelled => if pc.awaits then { s with pump := .revoke .exit } else s
  | _, _ => s

/-- `recovery_failure` counts every error, and takes readiness back. -/
def interrupt (s : Tasks) (handled : Handled) : Tasks :=
  { s with
    ready := s.ready && !(handled = .failed || handled = .fatal)
    drive := handled.pc }

def take (s : Tasks) (recovering : Bool) (attempt : Attempt) (queued : SourceUpdate)
    (rest : List SourceUpdate) : Tasks :=
  { s with
    queue := rest
    sourceQueueDepth := s.sourceQueueDepth - 1
    drive := .handling recovering attempt queued }

/-- The lease, with what the ghosts are now. -/
def attemptFor (s : Tasks) (lease : BitVec 64) : Attempt :=
  ⟨lease, s.advances, s.gapsEnqueued, s.gapsProcessed, s.gapsAtConnect⟩

def driveStep (s : Tasks) (input : DriveInput) : Tasks :=
  match s.drive, input with
  | .top, .proceed => { s.setReady false with drive := .waiting }
  | .waiting, .proceed => if s.active then { s with drive := .conflict } else s
  | .waiting, .shutdown => { s with drive := .exiting }
  | .conflict, .conflict => { s.setReady false with drive := .sleep }
  | .conflict, .proceed => { s with drive := .sample }
  | .sample, .proceed =>
    match sourceLease s.sourceActivity with
    | none => { s with drive := .top }
    | some lease =>
      { s with drive := .sampled (s.attemptFor lease) }
  | .sampled attempt, .proceed =>
    { s with drive := if s.active then .backfill attempt else .top }
  | .backfill attempt, .outcome handled =>
    if handled = .continued then { s with drive := .drain attempt } else s.interrupt handled
  | .drain attempt, .proceed =>
    match s.queue with
    | [] => { s with drive := .drained attempt }
    | queued :: rest => s.take true attempt queued rest
  | .drained attempt, .proceed =>
    if s.active then
      { s with gapsRecovered := attempt.processed, drive := .askActive attempt }
    else { s with drive := .top }
  | .askActive attempt, .proceed =>
    { s with drive := if s.active then .askQueues attempt else .live attempt }
  | .askQueues attempt, .proceed =>
    { s with drive := if s.sourceQueueDepth = 0 then .load attempt else .live attempt }
  | .askQueues attempt, .redisBusy => { s with drive := .live attempt }
  | .load attempt, .proceed =>
    { s with
      drive :=
        if s.sourceActivity ≠ attempt.lease ∨ isActiveLease attempt.lease = false then .top
        else .store attempt }
  | .store attempt, .proceed =>
    { s.setReady true with published := attempt.lease, drive := .reload attempt }
  | .reload attempt, .proceed =>
    { s with
      drive := if s.sourceActivity = attempt.lease then .live attempt else .unpublish attempt }
  | .unpublish _, .proceed => { s.setReady false with drive := .top }
  | .live attempt, .proceed =>
    match s.queue with
    | [] => s
    | queued :: rest => s.take false attempt queued rest
  | .live _, .shutdown => { s with drive := .exiting }
  | .handling recovering attempt queued, .outcome handled =>
    if queued.admits handled then
      let processed : Tasks :=
        { s with gapsProcessed := s.gapsProcessed + (if queued.isGap then 1 else 0) }
      if handled = .continued then
        { processed with drive := if recovering then .drain attempt else .askActive attempt }
      else processed.interrupt handled
    else s
  | .sleep, .proceed => { s with drive := .top }
  | .sleep, .shutdown => { s with drive := .exiting }
  | .exiting, .proceed => { s.setReady false with drive := .stopped }
  | _, _ => s

end Tasks

/-- A step of the pump, a step of the drive loop, or one of the counters of the metrics that take
readiness back, from wherever they are called. -/
inductive TaskAction where
  | pump (input : PumpInput)
  | drive (input : DriveInput)
  | unready

def Tasks.perform (bounds : QueueBounds) (s : Tasks) : TaskAction → Tasks
  | .pump input => s.pumpStep bounds input
  | .drive input => s.driveStep input
  | .unready => s.setReady false

end Lunarbase.EventWorker
