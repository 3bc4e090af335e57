import Lunarbase.Monad.Steps
import Lunarbase.Support.Run

/-!
# Monad — Normalizer

The normalizer of execution events (`execution.rs`), which insists on ascending source positions of
logs, and what it makes of the events of the lifecycle.

A list of events whose logs ascend passes unchanged (`normalizeStream_of_ascending`).  The lifecycle
stamps removed logs with the record that removes them but replays applied logs under the records
they came in, so a switch that removes and applies logs in one record descends
(`switch_at_end_regresses`).  While no such switch happens (`Feed.Steady`), the events of a run pass
the normalizer one by one (`lifecycle_events_survive`).
-/

namespace Lunarbase.Monad

open Client (Commitment SourceError ChainCursor ChainUpdate BlockRef ContractLog)
open List Option ProposalLifecycle

/-! ### The normalizer -/

def sourceErrorText : SourceError → String
  | .networkMismatch => "source network mismatch"
  | .gap reason => "source gap: " ++ reason
  | .unavailable reason => "source unavailable: " ++ reason

structure MonadSequenceTracker where
  lastSequence : Option Nat
  lastSubIndex : Nat
  deriving DecidableEq, Repr

namespace MonadSequenceTracker

def observeSparse (t : MonadSequenceTracker) (sequence subIndex : Nat) :
    Except SourceError (MonadSequenceTracker × Bool) :=
  match t.lastSequence with
  | none => .ok (⟨some sequence, subIndex⟩, true)
  | some last =>
    if sequence < last then gapError "Monad execution-event sequence regression"
    else if sequence = last ∧ subIndex ≤ t.lastSubIndex then .ok (t, false)
    else if sequence = last then .ok ({ t with lastSubIndex := subIndex }, true)
    else .ok (⟨some sequence, subIndex⟩, true)

def rewind : MonadSequenceTracker := ⟨none, 0⟩

end MonadSequenceTracker

structure MonadExecutionNormalizer where
  chainId : Nat
  tracker : MonadSequenceTracker
  deriving DecidableEq, Repr

namespace MonadExecutionNormalizer

def new (chainId : Nat) : MonadExecutionNormalizer := ⟨chainId, ⟨none, 0⟩⟩

def headRef (chainId : Nat) (head : ExecutionHead) : BlockRef where
  cursor :=
    { chainId := chainId
      blockNumber := head.blockNumber
      executionBlockNumber := head.blockNumber
      blockHash := head.blockHash
      transactionIndex := none
      logIndex := none
      sourceSequence := some head.sequence
      sourceSubIndex := none
      commitment := head.commitment }
  parentHash := head.parentHash

def contractLog (chainId : Nat) (log : ExecutionLog) : ContractLog where
  address := log.address
  transactionHash := none
  topics := log.topics
  data := log.data
  removed := log.removed
  cursor :=
    { chainId := chainId
      blockNumber := log.blockNumber
      executionBlockNumber := log.blockNumber
      blockHash := log.blockHash
      transactionIndex := some log.transactionIndex
      logIndex := some log.logIndex
      sourceSequence := some log.sequence
      sourceSubIndex := some log.sourceSubIndex
      commitment := log.commitment }

def normalizeLog (n : MonadExecutionNormalizer) (log : ExecutionLog) :
    Except SourceError (MonadExecutionNormalizer × Option ChainUpdate) :=
  match n.tracker.observeSparse log.sequence log.sourceSubIndex with
  | .error e => .error e
  | .ok (_, false) => .ok (n, none)
  | .ok (tracker, true) => .ok ({ n with tracker }, some (.log (contractLog n.chainId log)))

def normalize (n : MonadExecutionNormalizer) :
    ExecutionEvent → Except SourceError (MonadExecutionNormalizer × Option ChainUpdate)
  | .head head => .ok (n, some (.head (headRef n.chainId head)))
  | .log log => n.normalizeLog log
  | .reorg oldHead newHead =>
    .ok (n, some (.reorg (headRef n.chainId oldHead) (headRef n.chainId newHead)))
  | .gap cursor reason => .ok ({ n with tracker := .rewind }, some (.gap cursor reason))

/-- The stream ends with a gap at the first event that cannot be normalized. -/
def normalizeStream (n : MonadExecutionNormalizer) : List ExecutionEvent → List ChainUpdate
  | [] => []
  | event :: rest =>
    match n.normalize event with
    | .ok (n', some update) => update :: n'.normalizeStream rest
    | .ok (n', none) => n'.normalizeStream rest
    | .error e => [.gap none (sourceErrorText e)]

/-- The update an event stands for. -/
def updateOf (chainId : Nat) : ExecutionEvent → ChainUpdate
  | .head head => .head (headRef chainId head)
  | .log log => .log (contractLog chainId log)
  | .reorg oldHead newHead => .reorg (headRef chainId oldHead) (headRef chainId newHead)
  | .gap cursor reason => .gap cursor reason

end MonadExecutionNormalizer

/-! ### Ascending logs -/

/-- The order of source positions. -/
def ExecutionLog.Before (a b : ExecutionLog) : Prop :=
  a.sequence < b.sequence ∨ (a.sequence = b.sequence ∧ a.sourceSubIndex < b.sourceSubIndex)

def logsIn (events : List ExecutionEvent) : List ExecutionLog :=
  events.filterMap fun
    | .log log => some log
    | _ => none

theorem logsIn_append (before after : List ExecutionEvent) :
    logsIn (before ++ after) = logsIn before ++ logsIn after :=
  filterMap_append

theorem logsIn_map (logs : List ExecutionLog) (g : ExecutionLog → ExecutionLog) :
    logsIn (logs.map fun log => .log (g log)) = logs.map g := by
  induction logs with
  | nil => rfl
  | cons log rest ih => exact congrArg (g log :: ·) ih

@[simp]
theorem logsIn_head (head : ExecutionHead) : logsIn [.head head] = [] := rfl

@[simp]
theorem logsIn_reorg (oldHead newHead : ExecutionHead) : logsIn [.reorg oldHead newHead] = [] := rfl

/-- The tracker lets a log pass. -/
def MonadSequenceTracker.Below (t : MonadSequenceTracker) (log : ExecutionLog) : Prop :=
  ∀ last, t.lastSequence = some last →
    last < log.sequence ∨ (last = log.sequence ∧ t.lastSubIndex < log.sourceSubIndex)

theorem MonadSequenceTracker.observeSparse_of_below {t : MonadSequenceTracker} {log : ExecutionLog}
    (h : t.Below log) :
    t.observeSparse log.sequence log.sourceSubIndex =
      .ok (⟨some log.sequence, log.sourceSubIndex⟩, true) := by
  unfold observeSparse
  cases hlast : t.lastSequence with
  | none => rfl
  | some last =>
    dsimp only
    rcases h last hlast with hlt | ⟨rfl, hsub⟩
    · rw [if_neg (by omega), if_neg (by omega), if_neg (by omega)]
    · rw [if_neg (lt_irrefl _), if_neg (by omega), if_pos rfl]

/-- Events whose logs ascend pass one by one. -/
theorem MonadExecutionNormalizer.normalizeStream_of_ascending (n : MonadExecutionNormalizer)
    {events : List ExecutionEvent} (hascending : (logsIn events).Pairwise ExecutionLog.Before)
    (hbelow : ∀ log ∈ logsIn events, n.tracker.Below log) :
    n.normalizeStream events = events.map (updateOf n.chainId) := by
  induction events generalizing n with
  | nil => rfl
  | cons event rest ih =>
    cases event with
    | head head | reorg oldHead newHead => exact congrArg (_ :: ·) (ih n hascending hbelow)
    | gap cursor reason =>
      refine congrArg (_ :: ·) (ih { n with tracker := .rewind } hascending fun log _ last h => ?_)
      cases h
    | log log =>
      obtain ⟨hfirst, hrest⟩ := pairwise_cons.mp hascending
      have hpasses : n.normalize (.log log) =
          .ok ({ n with tracker := ⟨some log.sequence, log.sourceSubIndex⟩ },
            some (.log (contractLog n.chainId log))) := by
        unfold normalize
        dsimp only
        unfold normalizeLog
        rw [MonadSequenceTracker.observeSparse_of_below (hbelow log mem_cons_self)]
      unfold normalizeStream
      rw [hpasses]
      refine congrArg (_ :: ·) (ih _ hrest fun later hlater last h => ?_)
      cases h
      exact hfirst later hlater

/-! ### The feed -/

/-- The lifecycle with the last record it has taken and all events it has emitted. -/
structure Feed where
  lifecycle : ProposalLifecycle
  last : Option Nat
  events : List ExecutionEvent

def Feed.start (s : ProposalLifecycle) : Feed := ⟨s, none, []⟩

/-- Only accepted records are followed. -/
def Feed.step (f : Feed) (record : Record) : Feed :=
  match f.lifecycle.process record with
  | (s', .ok out) => ⟨s', some record.sequence, f.events ++ out⟩
  | (_, .error _) => f

/-- A record that comes after the last one and is accepted. -/
def Feed.Follows (f : Feed) (record : Record) : Prop :=
  (∀ last, f.last = some last → last < record.sequence) ∧
    ∃ s' out, f.lifecycle.process record = (s', .ok out)

/-- A switch to `id` at a height removes no log. -/
def ProposalLifecycle.Untaken (s : ProposalLifecycle) (height : Nat) (id : B256) : Prop :=
  ∀ previousId previous, s.published height = some previousId → previousId ≠ id →
    s.proposals.lookup previousId = some previous → previous.logs = []

/-- A stored proposal can be published without its logs: it is published already, or it has none and
the logs of the proposal it replaces do not get between those of the executing one. -/
def ProposalLifecycle.Silent (s : ProposalLifecycle) (id : B256) (proposal : Proposal) : Prop :=
  s.published proposal.blockNumber = some id ∨ (proposal.logs = [] ∧
      (s.Untaken proposal.blockNumber id ∨ s.delivery = .realtime ∨
        ∀ active, s.active = some active → active.logs = []))

/-- The publications that leave the order of the logs alone. -/
def ProposalLifecycle.InOrder (s : ProposalLifecycle) (input : LifecycleInput) : Prop :=
  match input with
  | .finish _ => s.delivery = .blockOrdered → ∀ active, s.active = some active →
      active.logs = [] ∨ s.Untaken active.blockNumber active.id
  | .qc id _ => ∀ proposal, s.proposals.lookup id = some proposal → proposal.state = .proposed →
      s.Silent id proposal
  | .finalized id _ => ∀ proposal, s.proposals.lookup id = some proposal → s.Silent id proposal
  | _ => True

/-- The condition: with removals on, no record removes and replays logs out of order. -/
def Feed.Steady (f : Feed) (record : Record) : Prop :=
  f.Follows record ∧ (f.lifecycle.emitRemovedLogs = true → f.lifecycle.InOrder record.input)

/-! ### What the feed keeps -/

/-- Logs that have been recorded in one proposal, one after another. -/
structure Recorded (logs : List ExecutionLog) : Prop where
  indexed : logs.Pairwise fun a b => a.logIndex < b.logIndex
  ascending : logs.Pairwise ExecutionLog.Before

structure Ordered (f : Feed) : Prop where
  mode : f.lifecycle.delivery ≠ .finalized
  ascending : (logsIn f.events).Pairwise ExecutionLog.Before
  passed : ∀ log ∈ logsIn f.events, ∃ last, f.last = some last ∧ log.sequence ≤ last
  stored : ∀ id proposal, f.lifecycle.proposals.lookup id = some proposal →
    proposal.logs.Pairwise (fun a b => a.logIndex < b.logIndex) ∧
      proposal.publishedCommitment ≠ none ∧
      (f.lifecycle.emitRemovedLogs ≠ true → proposal.logs = [])
  active : ∀ active, f.lifecycle.active = some active →
    Recorded active.logs ∧ (∀ log ∈ active.logs, log.logIndex < active.nextLogIndex) ∧
      (∀ log ∈ active.logs, ∃ last, f.last = some last ∧ log.sequence ≤ last)
  realtime : ∀ active, f.lifecycle.active = some active → f.lifecycle.delivery = .realtime →
    active.publishedCommitment ≠ none ∧ (f.lifecycle.emitRemovedLogs ≠ true → active.logs = [])
  pending : ∀ active, f.lifecycle.active = some active → f.lifecycle.delivery ≠ .realtime →
    ∀ emitted ∈ logsIn f.events, ∀ log ∈ active.logs, emitted.Before log

theorem Ordered.initial {delivery : MonadDeliveryMode} (hmode : delivery ≠ .finalized)
    (emitRemovedLogs : Bool) (limits : LifecycleLimits) :
    Ordered (Feed.start (.new delivery emitRemovedLogs limits)) where
  mode := hmode
  ascending := .nil
  passed _ h := nomatch h
  stored _ _ h := nomatch h
  active _ h := nomatch h
  realtime _ h := nomatch h
  pending _ h := nomatch h

namespace Ordered

variable {f : Feed} {s' : ProposalLifecycle} {out : List ExecutionEvent} {sequence : Nat}
  {id : B256}

/-- A branch switch emits removed logs of the record, in the order of their indices. -/
theorem switch_logs (h : Ordered f) (blockNumber sequence : Nat) (id : B256)
    (blockHash parentHash : Option B256) (commitment : Commitment) :
    ∃ removed, logsIn
        (f.lifecycle.switchBranch sequence id blockNumber blockHash parentHash commitment) =
          removed ∧
      (∀ log ∈ removed, log.sequence = sequence) ∧ removed.Pairwise ExecutionLog.Before ∧
      (f.lifecycle.Untaken blockNumber id → removed = []) := by
  refine ⟨_, rfl, ?_⟩
  unfold switchBranch
  split
  · exact ⟨fun _ h => absurd h not_mem_nil, .nil, fun _ => rfl⟩
  next previousId hpublished =>
    split
    · exact ⟨fun _ h => absurd h not_mem_nil, .nil, fun _ => rfl⟩
    next hne =>
      split
      · exact ⟨fun _ h => absurd h not_mem_nil, .nil, fun _ => rfl⟩
      next previous hstored =>
        split
        · rw [logsIn_append, logsIn_map, logsIn_reorg, append_nil]
          refine ⟨fun log hlog => ?_, ?_, fun huntaken => ?_⟩
          · obtain ⟨before, _, rfl⟩ := mem_map.mp hlog
            rfl
          · exact pairwise_map.mpr ((h.stored previousId previous hstored).1.imp
              fun hindex => .inr ⟨rfl, hindex⟩)
          · rw [huntaken previousId previous hpublished hne hstored]
            rfl
        · exact ⟨fun _ h => absurd h not_mem_nil, .nil, fun _ => rfl⟩

variable {blockNumber : Nat} {commitment : Commitment} {recordBlock : Option Nat}

theorem switch_logs_self {s : ProposalLifecycle} (hpublished : s.published blockNumber = some id) :
    s.Untaken blockNumber id := by
  intro previousId previous hother hne
  exact absurd (Option.some.inj (hother.symm.trans hpublished)) hne

variable {proposal : Proposal}

/-- What the publication of a stored proposal adds: removed logs of the record, or the logs of the
proposal under their own positions. -/
theorem publish_logs (h : Ordered f) (s₁ : ProposalLifecycle)
    (hpublished : s₁.published = f.lifecycle.published)
    (hemit : s₁.emitRemovedLogs = f.lifecycle.emitRemovedLogs)
    (hothers : ∀ other, other ≠ id → s₁.proposals.lookup other = f.lifecycle.proposals.lookup other)
    (hstored : s₁.proposals.lookup id = some proposal)
    (hpublish : s₁.publish sequence id commitment = (s', .ok out)) :
    ∃ removed applied, logsIn out = removed ++ applied ∧
      (∀ log ∈ removed, log.sequence = sequence) ∧ removed.Pairwise ExecutionLog.Before ∧
      (f.lifecycle.Untaken proposal.blockNumber id → removed = []) ∧
      (applied = [] ∨ applied = proposal.logs.map fun log =>
        materializeLog log none proposal.blockHash commitment false) ∧
      (f.lifecycle.published proposal.blockNumber = some id →
        proposal.publishedCommitment ≠ none → applied = []) := by
  obtain ⟨proposal', hstored', rfl, _⟩ := publish_eq_ok hpublish
  cases hstored.symm.trans hstored'
  obtain ⟨removed, hremoved, hstamp, hascending, huntaken⟩ := h.switch_logs proposal.blockNumber
    sequence id (some proposal.blockHash) (some proposal.parentHash) commitment
  rw [switchBranch_congr hpublished hemit hothers, logsIn_append, logsIn_append,
    logsIn_head, append_nil, hremoved, hpublished]
  refine ⟨removed, _, rfl, hstamp, hascending, huntaken, ?_, fun hsame htold => ?_⟩
  · split
    · exact .inr (logsIn_map ..)
    · exact .inl rfl
  rw [if_neg]
  · rfl
  rintro (hnone | hother)
  · exact htold hnone
  · exact hother hsame

/-- The stored proposals after a publication. -/
theorem stored_publish {s₁ : ProposalLifecycle}
    (hstored : ∀ other proposal, s₁.proposals.lookup other = some proposal →
      proposal.logs.Pairwise (fun a b => a.logIndex < b.logIndex) ∧
        (other ≠ id → proposal.publishedCommitment ≠ none ∧
          (s₁.emitRemovedLogs ≠ true → proposal.logs = [])))
    (hpublish : s₁.publish sequence id commitment = (s', .ok out)) :
    ∀ other proposal, s'.proposals.lookup other = some proposal →
      proposal.logs.Pairwise (fun a b => a.logIndex < b.logIndex) ∧
        proposal.publishedCommitment ≠ none ∧ (s₁.emitRemovedLogs ≠ true → proposal.logs = []) := by
  obtain ⟨proposal, hfound, _, _, _, rfl⟩ := publish_eq_ok hpublish
  intro other stored hother
  rcases lookup_insert_eq_some.mp hother with ⟨rfl, rfl⟩ | ⟨hne, hother⟩
  · unfold publishedAs
    split
    next hkept =>
      exact ⟨(hstored other proposal hfound).1, some_ne_none _, fun hoff => absurd hkept.1 hoff⟩
    · exact ⟨.nil, some_ne_none _, fun _ => rfl⟩
  · obtain ⟨hindexed, hrest⟩ := hstored other stored hother
    exact ⟨hindexed, hrest hne⟩

/-- With removals off nothing is stored that could get out of order. -/
theorem inOrder (h : Ordered f) {input : LifecycleInput}
    (hsteady : f.lifecycle.emitRemovedLogs = true → f.lifecycle.InOrder input) :
    f.lifecycle.InOrder input := by
  by_cases hemit : f.lifecycle.emitRemovedLogs = true
  · exact hsteady hemit
  have huntaken : ∀ height id, f.lifecycle.Untaken height id :=
    fun height id previousId previous _ _ hstored =>
      (h.stored previousId previous hstored).2.2 hemit
  cases input with
  | finish blockHash => exact fun _ active _ => .inr (huntaken _ _)
  | qc id blockNumber =>
    exact fun proposal hstored _ => .inr ⟨(h.stored id proposal hstored).2.2 hemit,
      .inl (huntaken _ _)⟩
  | finalized id blockNumber =>
    exact fun proposal hstored => .inr ⟨(h.stored id proposal hstored).2.2 hemit,
      .inl (huntaken _ _)⟩
  | start | verified | fatal | reject | skippedLog | log | ignore => trivial

/-! ### Handlers -/

variable (h : Ordered f) (hlater : ∀ last, f.last = some last → last < sequence)
include h hlater

/-- A log that carries a later record comes after everything emitted. -/
theorem before_of_later {emitted log : ExecutionLog} (hin : emitted ∈ logsIn f.events)
    (hlog : log.sequence = sequence) : emitted.Before log := by
  obtain ⟨last, hlast, hle⟩ := h.passed emitted hin
  have hlt := hlater last hlast
  exact .inl (by omega)

/-- The invariant after a record, from what it emits and what it leaves.  The new logs ascend, come
after everything emitted and before what is still pending. -/
theorem advance (hdelivery : s'.delivery = f.lifecycle.delivery)
    (hemit : s'.emitRemovedLogs = f.lifecycle.emitRemovedLogs)
    (hascending : (logsIn out).Pairwise ExecutionLog.Before)
    (hafter : ∀ emitted ∈ logsIn f.events, ∀ log ∈ logsIn out, emitted.Before log)
    (hbound : ∀ log ∈ logsIn out, log.sequence ≤ sequence)
    (hstored : ∀ id proposal, s'.proposals.lookup id = some proposal →
      proposal.logs.Pairwise (fun a b => a.logIndex < b.logIndex) ∧
        proposal.publishedCommitment ≠ none ∧
        (f.lifecycle.emitRemovedLogs ≠ true → proposal.logs = []))
    (hactive : ∀ active, s'.active = some active →
      Recorded active.logs ∧ (∀ log ∈ active.logs, log.logIndex < active.nextLogIndex) ∧
        (∀ log ∈ active.logs, log.sequence ≤ sequence) ∧
        (f.lifecycle.delivery = .realtime → active.publishedCommitment ≠ none ∧
          (f.lifecycle.emitRemovedLogs ≠ true → active.logs = [])) ∧
        (f.lifecycle.delivery ≠ .realtime →
          (∀ emitted ∈ logsIn f.events, ∀ log ∈ active.logs, emitted.Before log) ∧
          ∀ emitted ∈ logsIn out, ∀ log ∈ active.logs, emitted.Before log)) :
    Ordered ⟨s', some sequence, f.events ++ out⟩ where
  mode := hdelivery ▸ h.mode
  ascending := by
    rw [logsIn_append]
    exact pairwise_append.mpr ⟨h.ascending, hascending, hafter⟩
  passed log hlog := by
    refine ⟨sequence, rfl, ?_⟩
    rw [logsIn_append] at hlog
    rcases mem_append.mp hlog with hold | hnew
    · obtain ⟨last, hlast, hle⟩ := h.passed log hold
      exact hle.trans (hlater last hlast).le
    · exact hbound log hnew
  stored id proposal hp := by
    obtain ⟨hindexed, htold, hdrained⟩ := hstored id proposal hp
    exact ⟨hindexed, htold, fun hoff => hdrained (hemit ▸ hoff)⟩
  active active ha := by
    obtain ⟨hrecorded, hindex, hle, _⟩ := hactive active ha
    exact ⟨hrecorded, hindex, fun log hlog => ⟨sequence, rfl, hle log hlog⟩⟩
  realtime active ha hrealtime := by
    obtain ⟨_, _, _, hlive, _⟩ := hactive active ha
    obtain ⟨htold, hdrained⟩ := hlive (hdelivery ▸ hrealtime)
    exact ⟨htold, fun hoff => hdrained (hemit ▸ hoff)⟩
  pending active ha hmode emitted hin log hlog := by
    obtain ⟨_, _, _, _, hpending⟩ := hactive active ha
    obtain ⟨hold, hnew⟩ := hpending (hdelivery ▸ hmode)
    rw [logsIn_append] at hin
    rcases mem_append.mp hin with hbefore | hout
    · exact hold emitted hbefore log hlog
    · exact hnew emitted hout log hlog

/-- The executing proposal stays as it is. -/
theorem active_same (out : List ExecutionEvent) {active : ActiveProposal}
    (ha : f.lifecycle.active = some active) (hnew : f.lifecycle.delivery ≠ .realtime →
      ∀ emitted ∈ logsIn out, ∀ log ∈ active.logs, emitted.Before log) :
    Recorded active.logs ∧ (∀ log ∈ active.logs, log.logIndex < active.nextLogIndex) ∧
      (∀ log ∈ active.logs, log.sequence ≤ sequence) ∧
      (f.lifecycle.delivery = .realtime → active.publishedCommitment ≠ none ∧
        (f.lifecycle.emitRemovedLogs ≠ true → active.logs = [])) ∧
      (f.lifecycle.delivery ≠ .realtime →
        (∀ emitted ∈ logsIn f.events, ∀ log ∈ active.logs, emitted.Before log) ∧
        ∀ emitted ∈ logsIn out, ∀ log ∈ active.logs, emitted.Before log) := by
  obtain ⟨hrecorded, hindex, hpassed⟩ := h.active active ha
  refine ⟨hrecorded, hindex, fun log hlog => ?_, h.realtime active ha,
    fun hmode => ⟨h.pending active ha hmode, hnew hmode⟩⟩
  obtain ⟨last, hlast, hle⟩ := hpassed log hlog
  exact hle.trans (hlater last hlast).le

theorem start {parentHash : B256}
    (hok : f.lifecycle.start sequence id blockNumber parentHash = (s', .ok out)) :
    Ordered ⟨s', some sequence, f.events ++ out⟩ := by
  obtain ⟨_, ⟨hrealtime, rfl, rfl⟩ | ⟨hmode, rfl, rfl⟩⟩ := start_eq_ok hok
  · obtain ⟨removed, hremoved, hstamp, hascending, _⟩ := h.switch_logs blockNumber sequence id none
      (some parentHash) .realtime
    have hlogs : logsIn (f.lifecycle.switchBranch sequence id blockNumber none (some parentHash)
        .realtime ++ [.head ⟨sequence, blockNumber, none, some parentHash, .realtime⟩]) =
        removed := by
      rw [logsIn_append, logsIn_head, append_nil, hremoved]
    refine h.advance hlater rfl rfl (hlogs ▸ hascending) ?_ ?_ h.stored fun active ha => ?_
    · rw [hlogs]
      exact fun emitted hin log hlog => h.before_of_later hlater hin (hstamp log hlog)
    · rw [hlogs]
      exact fun log hlog => (hstamp log hlog).le
    cases ha
    exact ⟨⟨.nil, .nil⟩, fun _ hlog => absurd hlog not_mem_nil,
      fun _ hlog => absurd hlog not_mem_nil, fun _ => ⟨some_ne_none _, fun _ => rfl⟩,
      fun hmode => absurd hrealtime hmode⟩
  · refine h.advance hlater rfl rfl .nil nofun nofun h.stored fun active ha => ?_
    cases ha
    exact ⟨⟨.nil, .nil⟩, fun _ hlog => absurd hlog not_mem_nil,
      fun _ hlog => absurd hlog not_mem_nil, fun hrealtime => absurd hrealtime hmode,
      fun _ => ⟨fun _ _ _ hlog => absurd hlog not_mem_nil, nofun⟩⟩

theorem log {transactionIndex sourceSubIndex : Nat} {address : Address} {topics : List B256}
    {data : List UInt8}
    (hok :
      f.lifecycle.log sequence recordBlock transactionIndex sourceSubIndex address topics data =
      (s', .ok out)) :
    Ordered ⟨s', some sequence, f.events ++ out⟩ := by
  obtain ⟨active, hactive, hs', rfl⟩ := log_eq_ok hok
  obtain ⟨hrecorded, hindex, hpassed⟩ := h.active active hactive
  -- what was recorded before comes from earlier records
  have hearlier : ∀ log ∈ active.logs, log.sequence < sequence := by
    intro log hlog
    obtain ⟨last, hlast, hle⟩ := hpassed log hlog
    exact hle.trans_lt (hlater last hlast)
  have hnew : ∀ log ∈ logsIn (if f.lifecycle.delivery = .realtime then
      [ExecutionEvent.log
        (active.logOf sequence transactionIndex sourceSubIndex address topics data)]
      else []), f.lifecycle.delivery = .realtime ∧ log.sequence = sequence := by
    intro log hlog
    split at hlog
    next hrealtime =>
      obtain rfl := mem_singleton.mp hlog
      exact ⟨hrealtime, rfl⟩
    · cases hlog
  have hframe : s'.proposals = f.lifecycle.proposals ∧ s'.delivery = f.lifecycle.delivery ∧
      s'.emitRemovedLogs = f.lifecycle.emitRemovedLogs ∧
      ∃ after, s'.active = some after ∧ after.nextLogIndex = active.nextLogIndex + 1 ∧
        after.publishedCommitment = active.publishedCommitment ∧
        (after.logs = active.logs ∨ f.lifecycle.Keeps ∧ after.logs = active.logs ++
          [active.logOf sequence transactionIndex sourceSubIndex address topics data]) := by
    rcases hs' with ⟨_, rfl⟩ | ⟨hkeeps, _, _, _, rfl⟩
    · exact ⟨rfl, rfl, rfl, _, rfl, rfl, rfl, .inl rfl⟩
    · exact ⟨rfl, rfl, rfl, _, rfl, rfl, rfl, .inr ⟨hkeeps, rfl⟩⟩
  obtain ⟨hproposals, hdelivery, hemit, after, hafter, hnext, hcommitment, hlogs⟩ := hframe
  refine h.advance hlater hdelivery hemit ?_
    (fun emitted hin log hlog => h.before_of_later hlater hin (hnew log hlog).2)
    (fun log hlog => (hnew log hlog).2.le) (hproposals ▸ h.stored) fun active' ha => ?_
  · split
    · exact pairwise_singleton ..
    · exact .nil
  cases hafter.symm.trans ha
  rw [hnext, hcommitment]
  rcases hlogs with heq | ⟨hkeeps, heq⟩
  · rw [heq]
    exact ⟨hrecorded, fun log hlog => (hindex log hlog).trans (Nat.lt_succ_self _),
      fun log hlog => (hearlier log hlog).le, h.realtime active hactive,
      fun hmode => ⟨h.pending active hactive hmode,
        fun emitted hin => absurd (hnew emitted hin).1 hmode⟩⟩
  rw [heq]
  refine ⟨⟨?_, ?_⟩, fun log hlog => ?_, fun log hlog => ?_, fun hrealtime => ⟨?_, fun hoff => ?_⟩,
    fun hmode => ⟨fun emitted hin log hlog => ?_,
      fun emitted hin => absurd (hnew emitted hin).1 hmode⟩⟩
  · refine pairwise_append.mpr ⟨hrecorded.indexed, pairwise_singleton .., ?_⟩
    intro log hlog last hlast
    rw [mem_singleton.mp hlast]
    exact hindex log hlog
  · refine pairwise_append.mpr ⟨hrecorded.ascending, pairwise_singleton .., ?_⟩
    intro log hlog last hlast
    rw [mem_singleton.mp hlast]
    exact .inl (hearlier log hlog)
  · rcases mem_append.mp hlog with hold | hlast
    · exact (hindex log hold).trans (Nat.lt_succ_self _)
    rw [mem_singleton.mp hlast]
    exact Nat.lt_succ_self _
  · rcases mem_append.mp hlog with hold | hlast
    · exact (hearlier log hold).le
    rw [mem_singleton.mp hlast]
    exact le_rfl
  · exact (h.realtime active hactive hrealtime).1
  · exact absurd ⟨hrealtime, hoff⟩ hkeeps
  · rcases mem_append.mp hlog with hold | hlast
    · exact h.pending active hactive hmode emitted hin log hold
    rw [mem_singleton.mp hlast]
    exact h.before_of_later hlater hin rfl

theorem finish {blockHash : B256}
    (horder : f.lifecycle.delivery = .blockOrdered → ∀ active, f.lifecycle.active = some active →
      active.logs = [] ∨ f.lifecycle.Untaken active.blockNumber active.id)
    (hok : f.lifecycle.finish sequence recordBlock blockHash = (s', .ok out)) :
    Ordered ⟨s', some sequence, f.events ++ out⟩ := by
  obtain ⟨active, hactive, _, hcases⟩ := finish_eq_ok hok
  obtain ⟨hrecorded, _, hpassed⟩ := h.active active hactive
  have hself : (f.lifecycle.completed active sequence blockHash).proposals.lookup active.id =
      some (active.complete sequence blockHash) := Finmap.lookup_insert _
  have hindexed : (active.complete sequence blockHash).logs.Pairwise
      fun a b => a.logIndex < b.logIndex := pairwise_map.mpr hrecorded.indexed
  rcases hcases with ⟨hmode, hpublish⟩ | ⟨hrealtime, rfl, rfl⟩ | ⟨hmode, _⟩
  · have hnotlive : f.lifecycle.delivery ≠ .realtime :=
      fun hrealtime => nomatch hmode.symm.trans hrealtime
    obtain ⟨removed, applied, hlogs, hstamp, hascending, huntaken, happlied, _⟩ :=
      h.publish_logs (f.lifecycle.completed active sequence blockHash) rfl rfl
        (fun other hne => Finmap.lookup_insert_of_ne _ hne) hself hpublish
    -- the applied logs are those that were pending
    have hpending : ∀ log ∈ applied, ∃ before ∈ active.logs, log.sequence = before.sequence ∧
        log.sourceSubIndex = before.sourceSubIndex := by
      intro log hlog
      rcases happlied with rfl | rfl
      · cases hlog
      obtain ⟨complete, hcomplete, rfl⟩ := mem_map.mp hlog
      obtain ⟨before, hbefore, rfl⟩ := mem_map.mp hcomplete
      exact ⟨before, hbefore, rfl, rfl⟩
    have happly : applied.Pairwise ExecutionLog.Before := by
      rcases happlied with rfl | rfl
      · exact .nil
      · exact pairwise_map.mpr (pairwise_map.mpr hrecorded.ascending)
    have hone : removed = [] ∨ applied = [] := by
      rcases horder hmode active hactive with hnone | hkept
      · refine .inr (eq_nil_iff_forall_not_mem.mpr fun log hlog => ?_)
        obtain ⟨before, hbefore, _⟩ := hpending log hlog
        rw [hnone] at hbefore
        cases hbefore
      · exact .inl (huntaken hkept)
    have hstored := stored_publish (fun other stored hfound => ?_) hpublish
    · obtain ⟨_, _, _, _, _, rfl⟩ := publish_eq_ok hpublish
      refine h.advance hlater rfl rfl ?_ (fun emitted hin log hlog => ?_)
        (fun log hlog => ?_) hstored
        fun after ha => nomatch ha
      · rw [hlogs]
        rcases hone with rfl | rfl
        · exact happly
        rw [append_nil]
        exact hascending
      · rw [hlogs] at hlog
        rcases mem_append.mp hlog with hrem | happ
        · exact h.before_of_later hlater hin (hstamp log hrem)
        obtain ⟨before, hbefore, hsequence, hsub⟩ := hpending log happ
        have hfirst := h.pending active hactive hnotlive emitted hin before hbefore
        unfold ExecutionLog.Before at hfirst ⊢
        rw [hsequence, hsub]
        exact hfirst
      · rw [hlogs] at hlog
        rcases mem_append.mp hlog with hrem | happ
        · exact (hstamp log hrem).le
        obtain ⟨before, hbefore, hsequence, _⟩ := hpending log happ
        obtain ⟨last, hlast, hle⟩ := hpassed before hbefore
        rw [hsequence]
        exact hle.trans (hlater last hlast).le
    · rcases lookup_insert_eq_some.mp hfound with ⟨rfl, rfl⟩ | ⟨-, hfound⟩
      · exact ⟨hindexed, fun hne => absurd rfl hne⟩
      obtain ⟨hindexed', hrest⟩ := h.stored other stored hfound
      exact ⟨hindexed', fun _ => hrest⟩
  · obtain ⟨htold, hdrained⟩ := h.realtime active hactive hrealtime
    refine h.advance hlater rfl rfl .nil nofun nofun (fun other stored hfound => ?_) nofun
    rcases lookup_insert_eq_some.mp hfound with ⟨rfl, rfl⟩ | ⟨-, hfound⟩
    · refine ⟨hindexed, htold, fun hoff => ?_⟩
      unfold ActiveProposal.complete
      rw [hdrained hoff]
      rfl
    · exact h.stored other stored hfound
  · exact absurd hmode h.mode

/-- A stored proposal is published again, without its logs. -/
theorem republish (hstored : f.lifecycle.proposals.lookup id = some proposal)
    (hsilent : f.lifecycle.Silent id proposal) (state : ProposalState) {s₂ : ProposalLifecycle}
    (hpublish : (f.lifecycle.marked id proposal state sequence).publish sequence id commitment =
      (s₂, .ok out)) (hactive : s'.active = s₂.active) (hdelivery : s'.delivery = s₂.delivery)
    (hemit : s'.emitRemovedLogs = s₂.emitRemovedLogs)
    (hfewer : ∀ other stored, s'.proposals.lookup other = some stored →
      s₂.proposals.lookup other = some stored) : Ordered ⟨s', some sequence, f.events ++ out⟩ := by
  have hself : (f.lifecycle.marked id proposal state sequence).proposals.lookup id =
      some { proposal with state := state, lastSequence := sequence } := Finmap.lookup_insert _
  obtain ⟨hindexed, htold, _⟩ := h.stored id proposal hstored
  obtain ⟨removed, applied, hlogs, hstamp, hascending, huntaken, happlied, hsame⟩ :=
    h.publish_logs (f.lifecycle.marked id proposal state sequence) rfl rfl
      (fun other hne => Finmap.lookup_insert_of_ne _ hne) hself hpublish
  have hnone : applied = [] := by
    rcases hsilent with hpublished | ⟨hempty, _⟩
    · exact hsame hpublished htold
    rcases happlied with rfl | rfl
    · rfl
    rw [hempty]
    rfl
  rw [hnone, append_nil] at hlogs
  have hafter := stored_publish (fun other stored hfound => ?_) hpublish
  · obtain ⟨_, _, _, _, _, rfl⟩ := publish_eq_ok hpublish
    refine h.advance hlater hdelivery hemit (hlogs ▸ hascending)
      (fun emitted hin log hlog => h.before_of_later hlater hin (hstamp log (hlogs ▸ hlog)))
      (fun log hlog => (hstamp log (hlogs ▸ hlog)).le)
      (fun other stored hfound => hafter other stored (hfewer other stored hfound))
      fun active ha => ?_
    have ha' : f.lifecycle.active = some active := hactive.symm.trans ha
    refine h.active_same hlater out ha' fun hmode emitted hin log hlog => ?_
    -- a removed log would come between the logs that are pending
    rw [hlogs] at hin
    rcases hsilent with hpublished | ⟨_, hkept | hrealtime | hidle⟩
    · rw [huntaken (switch_logs_self hpublished)] at hin
      cases hin
    · rw [huntaken hkept] at hin
      cases hin
    · exact absurd hrealtime hmode
    · rw [hidle active ha'] at hlog
      cases hlog
  · rcases lookup_insert_eq_some.mp hfound with ⟨rfl, rfl⟩ | ⟨-, hfound⟩
    · exact ⟨hindexed, fun hne => absurd rfl hne⟩
    obtain ⟨hindexed', hrest⟩ := h.stored other stored hfound
    exact ⟨hindexed', fun _ => hrest⟩

/-- No log is emitted and the executing proposal stays as it is. -/
theorem quiet (hdelivery : s'.delivery = f.lifecycle.delivery)
    (hemit : s'.emitRemovedLogs = f.lifecycle.emitRemovedLogs) (hnone : logsIn out = [])
    (hfewer : ∀ other stored, s'.proposals.lookup other = some stored →
      f.lifecycle.proposals.lookup other = some stored)
    (hactive : s'.active = f.lifecycle.active) : Ordered ⟨s', some sequence, f.events ++ out⟩ := by
  refine h.advance hlater hdelivery hemit (hnone ▸ .nil) (fun _ _ _ hlog => ?_) (fun _ hlog => ?_)
    (fun other stored hfound => h.stored other stored (hfewer other stored hfound))
    fun active ha => h.active_same hlater out (hactive ▸ ha) fun _ emitted hin => ?_
  · exact absurd (hnone ▸ hlog) not_mem_nil
  · exact absurd (hnone ▸ hlog) not_mem_nil
  · exact absurd (hnone ▸ hin) not_mem_nil

theorem verified (hok : f.lifecycle.verified sequence blockNumber = (s', .ok out)) :
    Ordered ⟨s', some sequence, f.events ++ out⟩ := by
  rcases verified_eq_ok hok with ⟨rfl, rfl⟩ | ⟨_, _, _, _, _, rfl, _, _, rfl⟩
  · exact h.quiet hlater rfl rfl rfl (fun _ _ => id) rfl
  · exact h.quiet hlater rfl rfl rfl (fun _ _ hfound => (lookup_erase_eq_some.mp hfound).2) rfl

theorem skippedLog {counted : ActiveProposal × Nat}
    (hnext : f.lifecycle.nextLogIndex recordBlock = (s', .ok counted)) :
    Ordered ⟨s', some sequence, f.events ++ []⟩ := by
  obtain ⟨active, hactive, _, hcounted, rfl⟩ := nextLogIndex_eq_ok hnext
  refine h.advance hlater rfl rfl .nil nofun nofun h.stored fun after hafter => ?_
  cases hafter
  obtain ⟨hrecorded, hindex, hrest⟩ := h.active_same hlater [] hactive nofun
  rw [hcounted]
  exact ⟨hrecorded, fun log hlog => (hindex log hlog).trans (Nat.lt_succ_self _), hrest⟩

omit h hlater

variable {record : Record}

theorem handle (h : Ordered f) (hlater : ∀ last, f.last = some last → last < record.sequence)
    (horder : f.lifecycle.InOrder record.input) (hok : f.lifecycle.handle record = (s', .ok out)) :
    Ordered ⟨s', some record.sequence, f.events ++ out⟩ := by
  obtain ⟨sequence, recordBlock, input⟩ := record
  cases input with
  | start id blockNumber parentHash => exact h.start hlater hok
  | finish blockHash => exact h.finish hlater horder hok
  | qc id blockNumber =>
    rcases qc_eq_ok hok with ⟨rfl, rfl⟩ | ⟨proposal, hstored, _, hstate, ⟨hmode, _⟩ | ⟨_, hpublish⟩⟩
    · exact h.quiet hlater rfl rfl rfl (fun _ _ hfound => hfound) rfl
    · exact absurd hmode h.mode
    exact h.republish hlater hstored (horder proposal hstored hstate) .voted hpublish rfl rfl rfl
      fun _ _ hfound => hfound
  | finalized id blockNumber =>
    rcases finalize_eq_ok hok with ⟨rfl, rfl, _⟩ | ⟨proposal, s₂, candidates,
      hstored, _, _, hpublish, _, rfl⟩
    · exact h.quiet hlater rfl rfl rfl (fun _ _ hfound => hfound) rfl
    obtain ⟨_, _, _, heq, hfewer, _⟩ := s₂.abandonOthers_frame id blockNumber candidates
    rw [heq]
    exact h.republish hlater hstored (horder proposal hstored) .finalized hpublish rfl rfl rfl
      hfewer
  | verified blockNumber => exact h.verified hlater hok
  | fatal | reject => cases hok
  | skippedLog =>
    unfold handle at hok
    dsimp only at hok
    split at hok
    · cases hok
    next hnext =>
      cases hok
      exact h.skippedLog hlater hnext
  | log transactionIndex sourceSubIndex address topics data => exact h.log hlater hok
  | ignore =>
    cases hok
    exact h.quiet hlater rfl rfl rfl (fun _ _ => id) rfl

theorem process (h : Ordered f) (hlater : ∀ last, f.last = some last → last < record.sequence)
    (horder : f.lifecycle.InOrder record.input) (hok : f.lifecycle.process record = (s', .ok out)) :
    Ordered ⟨s', some record.sequence, f.events ++ out⟩ := by
  unfold ProposalLifecycle.process at hok
  split at hok
  · exact h.handle hlater horder hok
  split at hok
  · cases hok
  next id blockNumber parentHash hinput =>
    have hsynchronized : Ordered
        { f with lifecycle := { f.lifecycle with synchronized := true } } :=
      ⟨h.mode, h.ascending, h.passed, h.stored, h.active, h.realtime, h.pending⟩
    refine hsynchronized.handle hlater ?_ hok
    trivial
  · cases hok
    exact h.quiet hlater rfl rfl rfl (fun _ _ => id) rfl

end Ordered

/-! ### Runs -/

/-- The lifecycle reports its own gaps as errors, never as events. -/
def GapFree (out : List ExecutionEvent) : Prop := ∀ cursor reason, .gap cursor reason ∉ out

namespace ProposalLifecycle

variable {s s' : ProposalLifecycle} {out : List ExecutionEvent}

theorem gapFree_nil : GapFree [] := fun _ _ => not_mem_nil

theorem gapFree_switchBranch (s : ProposalLifecycle) (sequence : Nat) (id : B256)
    (blockNumber : Nat) (blockHash parentHash : Option B256) (commitment : Commitment) :
    GapFree (s.switchBranch sequence id blockNumber blockHash parentHash commitment) := by
  intro cursor reason
  unfold switchBranch
  split
  · exact not_mem_nil
  split
  · exact not_mem_nil
  split
  · exact not_mem_nil
  simp only [mem_append, mem_singleton, reduceCtorEq, or_false]
  split
  · simp
  · exact not_mem_nil

theorem gapFree_publish {sequence : Nat} {id : B256} {commitment : Commitment}
    (h : s.publish sequence id commitment = (s', .ok out)) : GapFree out := by
  obtain ⟨proposal, _, rfl, _⟩ := publish_eq_ok h
  intro cursor reason
  simp only [mem_append, mem_singleton, reduceCtorEq, or_false, not_or]
  refine ⟨gapFree_switchBranch _ _ _ _ _ _ _ cursor reason, ?_⟩
  split
  · simp [Proposal.applications]
  · exact not_mem_nil

theorem gapFree_handle (h : s.handle record = (s', .ok out)) : GapFree out := by
  obtain ⟨sequence, recordBlock, input⟩ := record
  cases input with
  | start id blockNumber parentHash =>
    rcases start_eq_ok h with ⟨_, ⟨_, _, rfl⟩ | ⟨_, _, rfl⟩⟩
    · intro cursor reason
      simp only [mem_append, mem_singleton, reduceCtorEq, or_false]
      exact gapFree_switchBranch _ _ _ _ _ _ _ cursor reason
    · exact gapFree_nil
  | finish blockHash =>
    obtain ⟨_, _, _, ⟨_, hpublish⟩ | ⟨_, _, rfl⟩ | ⟨_, _, rfl⟩⟩ := finish_eq_ok h
    · exact gapFree_publish hpublish
    · intro cursor reason
      simp
    · exact gapFree_nil
  | qc id blockNumber =>
    rcases qc_eq_ok h with ⟨_, rfl⟩ | ⟨_, _, _, _, ⟨_, _, rfl⟩ | ⟨_, hpublish⟩⟩
    · exact gapFree_nil
    · exact gapFree_nil
    · exact gapFree_publish hpublish
  | finalized id blockNumber =>
    rcases finalize_eq_ok h with ⟨_, rfl, _⟩ | ⟨_, _, _, _, _, _, hpublish, _⟩
    · exact gapFree_nil
    · exact gapFree_publish hpublish
  | verified blockNumber =>
    rcases verified_eq_ok h with ⟨_, rfl⟩ | ⟨_, _, _, _, _, rfl, _⟩
    · exact gapFree_nil
    intro cursor reason
    simp
  | fatal | reject => cases h
  | skippedLog =>
    unfold handle at h
    dsimp only at h
    split at h
    · cases h
    cases h
    exact gapFree_nil
  | log transactionIndex sourceSubIndex address topics data =>
    obtain ⟨_, _, _, rfl⟩ := log_eq_ok h
    intro cursor reason
    split
    · simp
    · exact not_mem_nil
  | ignore =>
    cases h
    exact gapFree_nil

end ProposalLifecycle

theorem Feed.step_of_ok {f : Feed} {s' : ProposalLifecycle} {out : List ExecutionEvent}
    (h : f.lifecycle.process record = (s', .ok out)) :
    f.step record = ⟨s', some record.sequence, f.events ++ out⟩ := by
  unfold Feed.step
  rw [h]

/-- In every run whose records the condition admits, a fresh normalizer turns each event into its
update, in order: no log is suppressed or repeated, and no gap is reported. -/
theorem lifecycle_events_survive {delivery : MonadDeliveryMode} {emitRemovedLogs : Bool}
    {limits : LifecycleLimits} (hmode : delivery ≠ .finalized) {f : Feed}
    (hrun : Run Feed.step Feed.Steady (Feed.start (.new delivery emitRemovedLogs limits)) f)
    (chainId : Nat) :
    (MonadExecutionNormalizer.new chainId).normalizeStream f.events =
        f.events.map (MonadExecutionNormalizer.updateOf chainId) ∧
      ∀ cursor reason, .gap cursor reason ∉
        (MonadExecutionNormalizer.new chainId).normalizeStream f.events := by
  have hkept : Ordered f ∧ GapFree f.events := by
    refine hrun.invariant (P := fun f => Ordered f ∧ GapFree f.events)
      ⟨.initial hmode emitRemovedLogs limits, gapFree_nil⟩
      fun f record h hsteady => ?_
    obtain ⟨⟨hlater, s', out, hok⟩, horder⟩ := hsteady
    rw [Feed.step_of_ok hok]
    refine ⟨h.1.process hlater (h.1.inOrder horder) hok, fun cursor reason hin => ?_⟩
    rcases mem_append.mp hin with hold | hnew
    · exact h.2 cursor reason hold
    rcases process_eq_ok hok with ⟨_, rfl⟩ | ⟨_, hhandle⟩
    · cases hnew
    · exact gapFree_handle hhandle cursor reason hnew
  have hpasses := (MonadExecutionNormalizer.new chainId).normalizeStream_of_ascending
    hkept.1.ascending nofun
  refine ⟨hpasses, fun cursor reason hin => ?_⟩
  rw [hpasses] at hin
  obtain ⟨event, hevent, heq⟩ := mem_map.mp hin
  cases event with
  | gap cursor' reason' => exact hkept.2 cursor' reason' hevent
  | head head | log log | reorg oldHead newHead => cases heq

/-! ### A switch that regresses -/

/-- One proposal of height 5 has logged once and is complete. -/
def deliveredAtFive : Feed :=
  (((Feed.start (.new .blockOrdered true ⟨8, 8, 8⟩)).step ⟨1, some 5, .start 1 5 0⟩).step
    ⟨2, some 5, .log 0 0 7 [] []⟩).step ⟨3, some 5, .finish 101⟩

/-- A second one replaces it at its own end. -/
def replacedAtFive : Feed :=
  ((deliveredAtFive.step ⟨4, some 5, .start 2 5 0⟩).step ⟨5, some 5, .log 0 0 7 [] []⟩).step
    ⟨6, some 5, .finish 102⟩

theorem Feed.follows_of_emitted {f : Feed} (out : List ExecutionEvent) (last : Nat)
    (hlast : f.last.getD 0 = last) (hlater : last < record.sequence)
    (h : f.lifecycle.emitted record = some out) : f.Follows record := by
  refine ⟨fun last' hlast' => ?_, ?_⟩
  · rw [hlast', getD_some] at hlast
    exact hlast ▸ hlater
  · obtain ⟨s', hok⟩ := exists_of_emitted h
    exact ⟨s', out, hok⟩

theorem deliveredAtFive_run : Run Feed.step Feed.Steady
    (Feed.start (.new .blockOrdered true ⟨8, 8, 8⟩)) deliveredAtFive := by
  refine .more (.more (.more .refl ⟨?_, fun _ => trivial⟩) ⟨?_, fun _ => trivial⟩) ⟨?_, ?_⟩
  · exact Feed.follows_of_emitted [] 0 rfl (by decide) (by decide +kernel)
  · exact Feed.follows_of_emitted [] 1 (by decide +kernel) (by decide) (by decide +kernel)
  · exact Feed.follows_of_emitted [.log ⟨2, 0, 5, some 101, 0, 0, 7, [], [], false, .canonical⟩,
        .head ⟨3, 5, some 101, some 0, .canonical⟩] 2 (by decide +kernel) (by decide)
      (by decide +kernel)
  · intro _ _ active _
    refine .inr fun previousId previous hpublished => ?_
    cases hpublished

theorem lifecycle_events_survive_delivered :
    (MonadExecutionNormalizer.new 1).normalizeStream deliveredAtFive.events =
      deliveredAtFive.events.map (MonadExecutionNormalizer.updateOf 1) ∧
    logsIn deliveredAtFive.events ≠ [] := by
  have hmode : MonadDeliveryMode.blockOrdered ≠ .finalized := nofun
  exact ⟨(lifecycle_events_survive hmode deliveredAtFive_run 1).1, by decide +kernel⟩

/-- The removed log carries record 6 and the applied one record 5: the normalizer reports a gap in
the place of the log of the second proposal. -/
theorem switch_at_end_regresses :
    Run Feed.step Feed.Follows (Feed.start (.new .blockOrdered true ⟨8, 8, 8⟩)) replacedAtFive ∧
      .gap none "source gap: Monad execution-event sequence regression" ∈
        (MonadExecutionNormalizer.new 1).normalizeStream replacedAtFive.events ∧
      (MonadExecutionNormalizer.new 1).normalizeStream replacedAtFive.events ≠
        replacedAtFive.events.map (MonadExecutionNormalizer.updateOf 1) := by
  refine ⟨.more (.more (.more (deliveredAtFive_run.weaken fun _ _ h => h.1) ?_) ?_) ?_,
    by decide +kernel, by decide +kernel⟩
  · exact Feed.follows_of_emitted [] 3 (by decide +kernel) (by decide) (by decide +kernel)
  · exact Feed.follows_of_emitted [] 4 (by decide +kernel) (by decide) (by decide +kernel)
  exact Feed.follows_of_emitted [.log ⟨6, 0, 5, some 101, 0, 0, 7, [], [], true, .canonical⟩,
      .reorg ⟨3, 5, some 101, some 0, .canonical⟩ ⟨6, 5, some 102, some 0, .canonical⟩,
      .log ⟨5, 0, 5, some 102, 0, 0, 7, [], [], false, .canonical⟩,
      .head ⟨6, 5, some 102, some 0, .canonical⟩] 5 (by decide +kernel) (by decide)
    (by decide +kernel)

end Lunarbase.Monad
