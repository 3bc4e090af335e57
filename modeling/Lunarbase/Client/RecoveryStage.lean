import Lunarbase.Client.Availability
import Lunarbase.Client.Indexer

/-!
# Client — RecoveryStage

The updates a recovery holds back (`tasks/recovery_stage.rs`) and the signal between the source
pump and the reducer (`RecoverySignal` in `tasks/source_queue.rs`).

Two ghost fields follow a stream termination through the runtime: a queued `Gap` and a requirement
published out of band carry the number of the termination they report.  No function of the source
reads them.
-/

namespace Lunarbase.Client

open List

def ChainUpdate.isGap : ChainUpdate → Bool
  | .gap _ _ => true
  | _ => false

/-- An update in the queue, with the enqueue-time admission of a correction.  Only a `Gap` reports
a termination. -/
structure QueuedUpdate where
  update : ChainUpdate
  admission : Option Token
  termination : Option Nat
  reports : termination.isSome → update.isGap

/-- The terminations reported by these updates. -/
def reported (queued : List QueuedUpdate) : List Nat := queued.filterMap (·.termination)

/-- The admissions carried by these updates. -/
def admissions (queued : List QueuedUpdate) : List Token := queued.filterMap (·.admission)

@[simp] theorem reported_nil : reported [] = [] := rfl

@[simp] theorem reported_append (left right : List QueuedUpdate) :
    reported (left ++ right) = reported left ++ reported right := filterMap_append

@[simp] theorem reported_cons (queued : QueuedUpdate) (rest : List QueuedUpdate) :
    reported (queued :: rest) = queued.termination.toList ++ reported rest := by
  simp only [reported, filterMap_eq_flatMap_toList, flatMap_cons]

@[simp] theorem admissions_nil : admissions [] = [] := rfl

@[simp] theorem admissions_append (left right : List QueuedUpdate) :
    admissions (left ++ right) = admissions left ++ admissions right := filterMap_append

@[simp] theorem admissions_cons (queued : QueuedUpdate) (rest : List QueuedUpdate) :
    admissions (queued :: rest) = queued.admission.toList ++ admissions rest := by
  simp only [admissions, filterMap_eq_flatMap_toList, flatMap_cons]

/-! ### Requirements -/

/-- The requirement after one more cursor, and whether the two conflict. -/
def mergeRequired (required : Option ChainCursor) (candidate : ChainCursor) :
    Option ChainCursor × Bool :=
  match required with
  | none => (some candidate, false)
  | some current =>
    if current.chainId ≠ candidate.chainId then (required, true)
    else
      let later : Option ChainCursor × Bool :=
        if candidate.eventOrder < current.eventOrder then (required, false)
        else
          let candidate' :=
            if current.blockNumber = candidate.blockNumber ∧
                current.blockHash = candidate.blockHash then
              { candidate with commitment := candidate.commitment.max current.commitment }
            else candidate
          if candidate.eventOrder = current.eventOrder ∧
              candidate'.commitment.rank < current.commitment.rank then (required, false)
          else (some candidate', false)
      if current.blockNumber = candidate.blockNumber then
        match current.blockHash, candidate.blockHash with
        | some currentHash, some candidateHash =>
          if currentHash = candidateHash then
            if current.executionBlockNumber ≠ candidate.executionBlockNumber then (required, true)
            else if candidate.eventOrder < current.eventOrder then
              if current.commitment.rank < candidate.commitment.rank then
                (some { current with commitment := candidate.commitment }, false)
              else (required, false)
            else later
          else if current.commitment = .finalized ∨ candidate.commitment = .finalized then
            (required, true)
          else later
        | _, _ => (required, true)
      else later

def publishedSnapshotCovers (published snapshot : ChainCursor) : Except IndexerError Bool :=
  if published.chainId ≠ snapshot.chainId then .error (.reducer .chainIdMismatch)
  else if published.blockNumber < snapshot.blockNumber then .ok true
  else if snapshot.blockNumber < published.blockNumber then .ok false
  else match published.blockHash, snapshot.blockHash with
    | some publishedHash, some snapshotHash =>
      if publishedHash = snapshotHash then
        if published.executionBlockNumber ≠ snapshot.executionBlockNumber then
          .error (.reducer .blockHashMismatch)
        else .ok (decide (published.commitment.rank ≤ snapshot.commitment.rank))
      else if published.commitment = .finalized then .error (.reducer .blockHashMismatch)
      else .ok (decide (Commitment.canonical.rank ≤ snapshot.commitment.rank) &&
        decide (published.commitment.rank ≤ snapshot.commitment.rank))
    | _, _ => .error (.gap "same-height recovery barrier has no immutable block identity")

/-! ### The signal -/

structure RecoverySignal where
  active : Bool
  required : Option ChainCursor
  conflict : Bool
  needsCanonicalHead : Bool
  generation : BitVec 64
  reported : List Nat

namespace RecoverySignal

def default : RecoverySignal := ⟨false, none, false, false, 0, []⟩

/-- `publish_requirement_if_active`: nothing happens while no recovery is active. -/
def publishRequirementIfActive (signal : RecoverySignal) (gap : QueuedUpdate) :
    RecoverySignal × Bool :=
  if signal.active then
    let raised : RecoverySignal :=
      { signal with
        generation := signal.generation + 1
        reported := signal.reported ++ Client.reported [gap] }
    match updateCursor gap.update with
    | some cursor =>
      let merged := mergeRequired raised.required cursor
      ({ raised with required := merged.1, conflict := raised.conflict || merged.2 }, true)
    | none => ({ raised with needsCanonicalHead := true }, true)
  else (signal, false)

/-- A raised requirement is a new generation, and takes over what the gap reports. -/
theorem publishRequirementIfActive_eq_true {signal signal' : RecoverySignal} {gap : QueuedUpdate}
    (h : signal.publishRequirementIfActive gap = (signal', true)) :
    signal.active = true ∧ signal'.active = true ∧ signal'.generation = signal.generation + 1 ∧
      signal'.reported = signal.reported ++ Client.reported [gap] := by
  rw [publishRequirementIfActive] at h
  split at h
  next hactive =>
    split at h
    · rw [← (Prod.mk.inj h).1]
      exact ⟨hactive, hactive, rfl, rfl⟩
    · rw [← (Prod.mk.inj h).1]
      exact ⟨hactive, hactive, rfl, rfl⟩
  · cases h

/-- `finish_recovery`: a requirement raised since the last look keeps the recovery going. -/
def finishRecovery (signal : RecoverySignal) (expectedGeneration : BitVec 64) :
    RecoverySignal × Bool :=
  if signal.generation ≠ expectedGeneration then (signal, false)
  else ({ default with generation := signal.generation }, true)

end RecoverySignal

/-! ### The stage -/

structure RecoveryStage where
  queued : List QueuedUpdate
  published : Option ChainCursor
  required : Option ChainCursor
  needsCanonicalHead : Bool
  coverageConflict : Bool
  controlGeneration : Option (BitVec 64)
  /-- Terminations taken over from the signal. -/
  controlled : List Nat

namespace RecoveryStage

/-- The terminations the stage has taken in. -/
def reported (stage : RecoveryStage) : List Nat := Client.reported stage.queued ++ stage.controlled

def require (stage : RecoveryStage) (cursor : ChainCursor) : RecoveryStage :=
  let merged := mergeRequired stage.required cursor
  { stage with
    required := merged.1
    coverageConflict := stage.coverageConflict || merged.2 }

/-- A `Gap` without a cursor asks for the canonical head, any other update for its own cursor. -/
def requireUpdate (stage : RecoveryStage) (update : ChainUpdate) : RecoveryStage :=
  match update with
  | .gap none _ => { stage with needsCanonicalHead := true }
  | update => match updateCursor update with
    | none => stage
    | some cursor => stage.require cursor

def push (stage : RecoveryStage) (queued : QueuedUpdate) (failed : Bool) : RecoveryStage :=
  let stage := if failed then stage.requireUpdate queued.update else stage
  let stage := match queued.update with
    | .gap none _ => { stage with needsCanonicalHead := true }
    | _ => stage
  { stage with queued := stage.queued ++ [queued] }

def newSegment (queued : List QueuedUpdate) (failedIndex : Nat) (prior : Option ChainCursor) :
    RecoveryStage :=
  queued.zipIdx.foldl (fun stage item => stage.push item.1 (decide (item.2 = failedIndex)))
    ⟨[], prior, none, false, false, none, []⟩

def absorb (stage : RecoveryStage) (updates : List QueuedUpdate) : RecoveryStage :=
  updates.foldl (fun stage update => stage.push update false) stage

/-- The canonical head stands in for the cursor of every `Gap` without one. -/
def withHead (head : ChainCursor) (queued : QueuedUpdate) : QueuedUpdate :=
  match queued.update with
  | .gap none reason =>
    { queued with update := .gap (some head) reason, reports := fun _ => rfl }
  | _ => queued

def setCanonicalHead (stage : RecoveryStage) (head : ChainCursor) : RecoveryStage :=
  { ({ stage with queued := stage.queued.map (withHead head) }.require head) with
    needsCanonicalHead := false }

def snapshotCovers (stage : RecoveryStage) (snapshot : ChainCursor) : Except IndexerError Bool := do
  (if stage.coverageConflict then .error (.reducer .blockHashMismatch) else .ok ())
  let publishedCovered ← (match stage.published with
    | none => .ok true
    | some published => publishedSnapshotCovers published snapshot)
  if publishedCovered then
    match stage.required with
    | none => .ok true
    | some required => publishedSnapshotCovers required snapshot
  else .ok false

def borrowedUpdates (stage : RecoveryStage) : List ChainUpdate := stage.queued.map (·.update)

def requireAllUpdates (stage : RecoveryStage) : RecoveryStage :=
  stage.queued.foldl (fun stage queued => stage.requireUpdate queued.update) stage

def mergeControl (stage : RecoveryStage) (signal : RecoverySignal) : RecoveryStage :=
  if stage.controlGeneration = some signal.generation then stage
  else
    let merged : RecoveryStage :=
      { stage with
        controlGeneration := some signal.generation
        coverageConflict := stage.coverageConflict || signal.conflict
        needsCanonicalHead := stage.needsCanonicalHead || signal.needsCanonicalHead
        controlled := stage.controlled ++ signal.reported }
    match signal.required with
    | none => merged
    | some required => merged.require required

/-- `control_generation().unwrap_or_default()`. -/
def expectedGeneration (stage : RecoveryStage) : BitVec 64 := stage.controlGeneration.getD 0

/-! ### What a stage takes in

The requirements decide which snapshot is good enough; what follows is about the updates and the
reports, which no requirement changes. -/

/-- Two stages with the same updates and the same control. -/
structure Alike (stage stage' : RecoveryStage) : Prop where
  queued : stage'.queued = stage.queued
  controlled : stage'.controlled = stage.controlled
  controlGeneration : stage'.controlGeneration = stage.controlGeneration

variable (stage : RecoveryStage)

theorem Alike.rfl : Alike stage stage := ⟨Eq.refl _, Eq.refl _, Eq.refl _⟩

theorem Alike.trans {a b c : RecoveryStage} (h : Alike a b) (h' : Alike b c) : Alike a c :=
  ⟨h'.queued.trans h.queued, h'.controlled.trans h.controlled,
    h'.controlGeneration.trans h.controlGeneration⟩

theorem require_alike (cursor : ChainCursor) :
    Alike stage (stage.require cursor) := ⟨Eq.refl _, Eq.refl _, Eq.refl _⟩

theorem requireUpdate_alike (update : ChainUpdate) : Alike stage (stage.requireUpdate update) := by
  unfold requireUpdate
  split
  · exact ⟨Eq.refl _, Eq.refl _, Eq.refl _⟩
  split
  · exact .rfl stage
  · exact require_alike stage _

theorem requireAllUpdates_alike : Alike stage stage.requireAllUpdates := by
  have hfold : ∀ (queued : List QueuedUpdate) (from_ : RecoveryStage), Alike from_
      (queued.foldl (fun stage queued => stage.requireUpdate queued.update) from_) := by
    intro queued
    induction queued with
    | nil => exact fun from_ => .rfl from_
    | cons item rest ih => exact fun from_ => (requireUpdate_alike from_ item.update).trans (ih _)
  exact hfold stage.queued stage

theorem push_queued (item : QueuedUpdate) (failed : Bool) :
    (stage.push item failed).queued = stage.queued ++ [item] ∧
      (stage.push item failed).controlled = stage.controlled ∧
      (stage.push item failed).controlGeneration = stage.controlGeneration := by
  have halike : Alike stage (if failed then stage.requireUpdate item.update else stage) := by
    cases failed with
    | true => exact requireUpdate_alike stage item.update
    | false => exact .rfl stage
  rw [push]
  split
  · exact ⟨congrArg (· ++ [item]) halike.queued, halike.controlled, halike.controlGeneration⟩
  · exact ⟨congrArg (· ++ [item]) halike.queued, halike.controlled, halike.controlGeneration⟩

theorem absorb_queued (updates : List QueuedUpdate) :
    (stage.absorb updates).queued = stage.queued ++ updates ∧
      (stage.absorb updates).controlled = stage.controlled ∧
      (stage.absorb updates).controlGeneration = stage.controlGeneration := by
  induction updates generalizing stage with
  | nil => exact ⟨(append_nil _).symm, rfl, rfl⟩
  | cons item rest ih =>
    obtain ⟨hqueued, hcontrolled, hgeneration⟩ := push_queued stage item false
    obtain ⟨hqueued', hcontrolled', hgeneration'⟩ := ih (stage.push item false)
    refine ⟨?_, hcontrolled'.trans hcontrolled, hgeneration'.trans hgeneration⟩
    exact hqueued'.trans (by rw [hqueued, append_assoc, singleton_append])

theorem newSegment_queued (queued : List QueuedUpdate) (failedIndex : Nat)
    (prior : Option ChainCursor) :
    (newSegment queued failedIndex prior).queued = queued ∧
      (newSegment queued failedIndex prior).controlled = [] ∧
      (newSegment queued failedIndex prior).controlGeneration = none := by
  have hfold : ∀ (items : List (QueuedUpdate × Nat)) (stage : RecoveryStage),
      let stage' := items.foldl
        (fun stage item => stage.push item.1 (decide (item.2 = failedIndex))) stage
      stage'.queued = stage.queued ++ items.map Prod.fst ∧ stage'.controlled = stage.controlled ∧
        stage'.controlGeneration = stage.controlGeneration := by
    intro items
    induction items with
    | nil => exact fun stage => ⟨(append_nil _).symm, rfl, rfl⟩
    | cons item rest ih =>
      intro stage
      obtain ⟨hqueued, hcontrolled, hgeneration⟩ :=
        push_queued stage item.1 (decide (item.2 = failedIndex))
      obtain ⟨hqueued', hcontrolled', hgeneration'⟩ :=
        ih (stage.push item.1 (decide (item.2 = failedIndex)))
      refine ⟨?_, hcontrolled'.trans hcontrolled, hgeneration'.trans hgeneration⟩
      rw [foldl_cons, hqueued', hqueued, append_assoc, map_cons, singleton_append]
  obtain ⟨hqueued, hcontrolled, hgeneration⟩ :=
    hfold queued.zipIdx ⟨[], prior, none, false, false, none, []⟩
  refine ⟨hqueued.trans ?_, hcontrolled, hgeneration⟩
  rw [nil_append, zipIdx_map_fst]

theorem withHead_reports (head : ChainCursor) (queued : QueuedUpdate) :
    (withHead head queued).termination = queued.termination ∧
      (withHead head queued).admission = queued.admission := by
  unfold withHead
  split
  · exact ⟨rfl, rfl⟩
  · exact ⟨rfl, rfl⟩

theorem setCanonicalHead_reported (head : ChainCursor) :
    Client.reported (stage.setCanonicalHead head).queued = Client.reported stage.queued ∧
      admissions (stage.setCanonicalHead head).queued = admissions stage.queued := by
  have hqueued : (stage.setCanonicalHead head).queued = stage.queued.map (withHead head) := rfl
  rw [hqueued]
  constructor
  · rw [Client.reported, filterMap_map]
    exact filterMap_congr fun item _ => (withHead_reports head item).1
  · rw [admissions, filterMap_map]
    exact filterMap_congr fun item _ => (withHead_reports head item).2

theorem mergeControl_queued (signal : RecoverySignal) :
    (stage.mergeControl signal).queued = stage.queued ∧
      (stage.mergeControl signal).controlGeneration = some signal.generation ∧
      ((stage.mergeControl signal).controlled = stage.controlled ++ signal.reported ∨
        (stage.mergeControl signal).controlled = stage.controlled ∧
          stage.controlGeneration = some signal.generation) := by
  rw [mergeControl]
  split
  next hseen => exact ⟨rfl, hseen, .inr ⟨rfl, hseen⟩⟩
  · cases signal.required with
    | none | some required => exact ⟨rfl, rfl, .inl rfl⟩

end RecoveryStage

end Lunarbase.Client
