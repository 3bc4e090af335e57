import Lunarbase.Monad.Lifecycle
import Lunarbase.Support.Update

/-!
# Monad — Steps

What a record that is accepted does to the lifecycle, handler by handler (`process_eq_ok`,
`start_eq_ok`, `log_eq_ok`, `finish_eq_ok`, `qc_eq_ok`, `finalize_eq_ok`, `verified_eq_ok`).  All
publication goes through two functions, whose results are given in full: a branch switch
(`switchBranch_of_published`) and the publication of a stored proposal (`publish_eq_ok`).
-/

namespace Lunarbase.Monad

open Client (Commitment SourceError)
open Except Finmap Option Function

/-- The head under which a proposal was last published. -/
def Proposal.oldHead (previous : Proposal) (blockNumber : Nat) : ExecutionHead :=
  ⟨previous.lastSequence, blockNumber, some previous.blockHash, some previous.parentHash,
    previous.publishedCommitment.getD .realtime⟩

/-- The application of the logs of a proposal. -/
def Proposal.applications (proposal : Proposal) (commitment : Commitment) : List ExecutionEvent :=
  proposal.logs.map fun log => .log (materializeLog log none proposal.blockHash commitment false)

/-- The log of a record of the active proposal. -/
def ActiveProposal.logOf (active : ActiveProposal) (sequence transactionIndex sourceSubIndex : Nat)
    (address : Address) (topics : List B256) (data : List UInt8) : ExecutionLog :=
  { sequence, sourceSubIndex, blockNumber := active.blockNumber, blockHash := none,
    transactionIndex, logIndex := active.nextLogIndex, address, topics, data, removed := false,
    commitment := active.publishedCommitment.getD .realtime }

/-- The stored form of the active proposal. -/
def ActiveProposal.complete (active : ActiveProposal) (sequence : Nat) (blockHash : B256) :
    Proposal where
  blockNumber := active.blockNumber
  blockHash := blockHash
  parentHash := active.parentHash
  lastSequence := sequence
  state := .proposed
  logs := active.logs.map fun (log : ExecutionLog) => { log with blockHash := some blockHash }
  logBytes := active.logBytes
  publishedCommitment := active.publishedCommitment

namespace ProposalLifecycle

variable {s s' : ProposalLifecycle} {sequence blockNumber : Nat} {id : B256}
  {out : List ExecutionEvent}

/-! ### Branches -/

/-- The removal of the logs of a proposal, stamped with the record that causes it. -/
def removals (s : ProposalLifecycle) (sequence : Nat) (previous : Proposal) : List ExecutionEvent :=
  if s.emitRemovedLogs then
    previous.logs.map fun log => .log (materializeLog log (some sequence) previous.blockHash
      (previous.publishedCommitment.getD .realtime) true)
  else []

/-- A branch is taken back when another proposal was published and is complete. -/
theorem switchBranch_of_published {previousId : B256} {previous : Proposal}
    (hpublished : s.published blockNumber = some previousId) (hne : previousId ≠ id)
    (hstored : s.proposals.lookup previousId = some previous) (blockHash parentHash : Option B256)
    (commitment : Commitment) :
    s.switchBranch sequence id blockNumber blockHash parentHash commitment =
      s.removals sequence previous ++ [.reorg (previous.oldHead blockNumber)
          ⟨sequence, blockNumber, blockHash, parentHash, commitment⟩] := by
  rw [switchBranch, hpublished]
  dsimp only
  rw [if_neg hne, hstored]
  rfl

theorem switchBranch_of_none (hpublished : s.published blockNumber = none)
    (blockHash parentHash : Option B256) (commitment : Commitment) :
    s.switchBranch sequence id blockNumber blockHash parentHash commitment = [] := by
  rw [switchBranch, hpublished]

theorem switchBranch_self (hpublished : s.published blockNumber = some id)
    (blockHash parentHash : Option B256) (commitment : Commitment) :
    s.switchBranch sequence id blockNumber blockHash parentHash commitment = [] := by
  rw [switchBranch, hpublished]
  exact if_pos rfl

/-- A switch does not look at the proposal it switches to. -/
theorem switchBranch_congr (hpublished : s'.published = s.published)
    (hemit : s'.emitRemovedLogs = s.emitRemovedLogs)
    (hothers : ∀ other, other ≠ id → s'.proposals.lookup other = s.proposals.lookup other)
    (blockHash parentHash : Option B256) (commitment : Commitment) :
    s'.switchBranch sequence id blockNumber blockHash parentHash commitment =
      s.switchBranch sequence id blockNumber blockHash parentHash commitment := by
  unfold switchBranch
  rw [hpublished, hemit]
  cases s.published blockNumber with
  | none => rfl
  | some previousId =>
    dsimp only
    by_cases heq : previousId = id
    · rw [if_pos heq, if_pos heq]
    · rw [if_neg heq, if_neg heq, hothers previousId heq]

/-- What is left of a proposal once it is published. -/
def publishedAs (s : ProposalLifecycle) (proposal : Proposal) (sequence : Nat)
    (commitment : Commitment) : Proposal :=
  { (if s.emitRemovedLogs ∧ commitment ≠ .finalized then proposal
      else { proposal with logs := [], logBytes := 0 }) with
    lastSequence := sequence, publishedCommitment := some commitment }

theorem publishedAs_frame (s : ProposalLifecycle) (proposal : Proposal) (sequence : Nat)
    (commitment : Commitment) :
    (s.publishedAs proposal sequence commitment).blockNumber = proposal.blockNumber ∧
      (s.publishedAs proposal sequence commitment).blockHash = proposal.blockHash ∧
      (s.publishedAs proposal sequence commitment).state = proposal.state ∧
      ∀ log ∈ (s.publishedAs proposal sequence commitment).logs, log ∈ proposal.logs := by
  unfold publishedAs
  split
  · exact ⟨rfl, rfl, rfl, fun _ h => h⟩
  · exact ⟨rfl, rfl, rfl, fun _ h => absurd h List.not_mem_nil⟩

/-- The publication of a stored proposal succeeds. -/
theorem publish_of_stored {proposal : Proposal} (hstored : s.proposals.lookup id = some proposal)
    (sequence : Nat) (commitment : Commitment) :
    ∃ s' out, s.publish sequence id commitment = (s', .ok out) := by
  unfold publish
  rw [hstored]
  exact ⟨_, _, rfl⟩

theorem publish_eq_ok {commitment : Commitment}
    (h : s.publish sequence id commitment = (s', .ok out)) :
    ∃ proposal, s.proposals.lookup id = some proposal ∧
      out = s.switchBranch sequence id proposal.blockNumber (some proposal.blockHash)
          (some proposal.parentHash) commitment ++
        (if proposal.publishedCommitment = none ∨ s.published proposal.blockNumber ≠ some id then
          proposal.applications commitment else []) ++
        [.head ⟨sequence, proposal.blockNumber, some proposal.blockHash, some proposal.parentHash,
          commitment⟩] ∧
      ∃ pendingLogs pendingBytes, s' = { s with
          proposals := s.proposals.insert id (s.publishedAs proposal sequence commitment)
          published := update s.published proposal.blockNumber (some id)
          pendingLogs := pendingLogs
          pendingBytes := pendingBytes } := by
  unfold publish at h
  split at h
  · cases h
  next proposal hproposal =>
    cases h
    refine ⟨proposal, hproposal, ?_, _, _, rfl⟩
    simp only [isNone_iff_eq_none]
    rfl

/-! ### Records -/

variable {record : Record}

/-- A record is accepted because it is ignored or because its handler accepts it. -/
theorem process_eq_ok (h : s.process record = (s', .ok out)) :
    (s' = s ∧ out = []) ∨
      ∃ synchronized, { s with synchronized := synchronized }.handle record = (s', .ok out) := by
  unfold process at h
  split at h
  · exact .inr ⟨s.synchronized, h⟩
  split at h
  · cases h
  · exact .inr ⟨true, h⟩
  cases h
  exact .inl ⟨rfl, rfl⟩

/-- What an accepted record emits. -/
def emitted (s : ProposalLifecycle) (record : Record) :
    Option (List ExecutionEvent) :=
  match s.process record with
  | (_, .ok out) => some out
  | (_, .error _) => none

theorem exists_of_emitted (h : s.emitted record = some out) :
    ∃ s', s.process record = (s', .ok out) := by
  unfold emitted at h
  split at h
  next s' _ heq =>
    cases h
    exact ⟨s', heq⟩
  · cases h

theorem start_eq_ok {parentHash : B256}
    (h : s.start sequence id blockNumber parentHash = (s', .ok out)) :
    s.active = none ∧ ((s.delivery = .realtime ∧ s' = { s with
            published := update s.published blockNumber (some id)
            active := some ⟨id, blockNumber, parentHash, 0, [], 0, some .realtime⟩ } ∧
          out = s.switchBranch sequence id blockNumber none (some parentHash) .realtime ++
            [.head ⟨sequence, blockNumber, none, some parentHash, .realtime⟩]) ∨
        (s.delivery ≠ .realtime ∧
          s' = { s with active := some ⟨id, blockNumber, parentHash, 0, [], 0, none⟩ } ∧
          out = [])) := by
  obtain ⟨hactive, h⟩ := ite_failed_eq_ok.mp h
  obtain ⟨-, h⟩ := ite_failed_eq_ok.mp h
  refine ⟨not_isSome_iff_eq_none.mp hactive, ?_⟩
  split at h
  next hrealtime =>
    cases h
    exact .inl ⟨hrealtime, rfl, rfl⟩
  next hother =>
    cases h
    exact .inr ⟨hother, rfl, rfl⟩

variable {recordBlock : Option Nat}

theorem nextLogIndex_eq_ok {counted : ActiveProposal} {logIndex : Nat}
    (h : s.nextLogIndex recordBlock = (s', .ok (counted, logIndex))) :
    ∃ active, s.active = some active ∧ logIndex = active.nextLogIndex ∧
      counted = { active with nextLogIndex := active.nextLogIndex + 1 } ∧
      s' = { s with active := some counted } := by
  unfold nextLogIndex at h
  split at h
  · cases h
  next active hactive =>
    obtain ⟨-, h⟩ := ite_failed_eq_ok.mp h
    obtain ⟨-, h⟩ := ite_failed_eq_ok.mp h
    cases h
    exact ⟨active, hactive, rfl, rfl, rfl⟩

/-- Whether the logs of the active proposal are kept. -/
def Keeps (s : ProposalLifecycle) : Prop := ¬ (s.delivery = .realtime ∧ ¬ s.emitRemovedLogs = true)

theorem log_eq_ok {transactionIndex sourceSubIndex : Nat}
    {address : Address} {topics : List B256} {data : List UInt8}
    (h : s.log sequence recordBlock transactionIndex sourceSubIndex address topics data =
      (s', .ok out)) :
    ∃ active, s.active = some active ∧ ((¬ s.Keeps ∧ s' = { s with
            active := some { active with nextLogIndex := active.nextLogIndex + 1 } }) ∨
        (s.Keeps ∧ ∃ logBytes pendingLogs pendingBytes, s' = { s with
            active := some { active with
              nextLogIndex := active.nextLogIndex + 1
              logs := active.logs ++ [active.logOf sequence transactionIndex sourceSubIndex address
                topics data]
              logBytes := logBytes }
            pendingLogs := pendingLogs
            pendingBytes := pendingBytes })) ∧
      out = if s.delivery = .realtime then
        [.log (active.logOf sequence transactionIndex sourceSubIndex address topics data)]
        else [] := by
  unfold log at h
  split at h
  · cases h
  next s₁ counted logIndex hnext =>
    obtain ⟨active, hactive, rfl, rfl, rfl⟩ := nextLogIndex_eq_ok hnext
    refine ⟨active, hactive, ?_⟩
    split at h
    next hdirect =>
      cases h
      exact ⟨.inl ⟨not_not.mpr hdirect, rfl⟩, (if_pos hdirect.1).symm⟩
    next hkeeps =>
      obtain ⟨-, h⟩ := ite_failed_eq_ok.mp h
      cases h
      exact ⟨.inr ⟨hkeeps, _, _, _, rfl⟩, rfl⟩

/-- The state in which the active proposal has become a stored one. -/
def completed (s : ProposalLifecycle) (active : ActiveProposal) (sequence : Nat)
    (blockHash : B256) : ProposalLifecycle :=
  { s with
    active := none
    proposals := s.proposals.insert active.id (active.complete sequence blockHash)
    byHeight := update s.byHeight active.blockNumber
      (some ((s.byHeight active.blockNumber).getD [] ++ [active.id])) }

theorem finish_eq_ok {blockHash : B256}
    (h : s.finish sequence recordBlock blockHash = (s', .ok out)) :
    ∃ active, s.active = some active ∧ s.proposals.lookup active.id = none ∧
      ((s.delivery = .blockOrdered ∧
          (s.completed active sequence blockHash).publish sequence active.id .canonical =
            (s', .ok out)) ∨
        (s.delivery = .realtime ∧ s' = s.completed active sequence blockHash ∧
          out = [.head ⟨sequence, active.blockNumber, some blockHash, some active.parentHash,
            active.publishedCommitment.getD .realtime⟩]) ∨
        (s.delivery = .finalized ∧ s' = s.completed active sequence blockHash ∧ out = [])) := by
  unfold finish at h
  split at h
  · cases h
  next active hactive =>
    obtain ⟨-, h⟩ := ite_failed_eq_ok.mp h
    obtain ⟨hnew, h⟩ := ite_failed_eq_ok.mp h
    refine ⟨active, hactive, not_isSome_iff_eq_none.mp hnew, ?_⟩
    dsimp only at h
    split at h
    next hmode => exact .inl ⟨hmode, h⟩
    next hmode =>
      cases h
      exact .inr (.inl ⟨hmode, rfl, rfl⟩)
    next hmode =>
      cases h
      exact .inr (.inr ⟨hmode, rfl, rfl⟩)

/-- The state in which a stored proposal has got a new consensus state. -/
def marked (s : ProposalLifecycle) (id : B256) (proposal : Proposal) (state : ProposalState)
    (sequence : Nat) : ProposalLifecycle :=
  { s with
    proposals := s.proposals.insert id { proposal with state := state, lastSequence := sequence } }

theorem qc_eq_ok (h : s.qc sequence id blockNumber = (s', .ok out)) :
    (s' = s ∧ out = []) ∨
      ∃ proposal, s.proposals.lookup id = some proposal ∧ proposal.blockNumber = blockNumber ∧
        proposal.state = .proposed ∧
        ((s.delivery = .finalized ∧ s' = s.marked id proposal .voted sequence ∧ out = []) ∨
          (s.delivery ≠ .finalized ∧
            (s.marked id proposal .voted sequence).publish sequence id .canonical =
              (s', .ok out))) := by
  unfold qc at h
  split at h
  · cases h
    exact .inl ⟨rfl, rfl⟩
  next proposal hproposal =>
    obtain ⟨hnumber, h⟩ := ite_failed_eq_ok.mp h
    split at h
    · cases h
      exact .inl ⟨rfl, rfl⟩
    next hstate =>
      refine .inr ⟨proposal, hproposal, not_not.mp hnumber, not_not.mp hstate, ?_⟩
      dsimp only at h
      split at h
      next hmode =>
        cases h
        exact .inl ⟨hmode, rfl, rfl⟩
      next hmode => exact .inr ⟨hmode, h⟩

theorem finalize_eq_ok (h : s.finalize sequence id blockNumber = (s', .ok out)) :
    (s' = s ∧ out = [] ∧ s.proposals.lookup id = none) ∨
      ∃ proposal s₁ candidates, s.proposals.lookup id = some proposal ∧
        proposal.blockNumber = blockNumber ∧ proposal.state ≠ .finalized ∧
        (s.marked id proposal .finalized sequence).publish sequence id .finalized = (s₁, .ok out) ∧
        s₁.byHeight blockNumber = some candidates ∧
        s' = s₁.abandonOthers id blockNumber candidates := by
  unfold finalize at h
  split at h
  next hnone =>
    cases h
    exact .inl ⟨rfl, rfl, hnone⟩
  next proposal hproposal =>
    obtain ⟨hvalid, h⟩ := ite_failed_eq_ok.mp h
    obtain ⟨hnumber, hstate⟩ := not_or.mp hvalid
    dsimp only at h
    split at h
    · cases h
    next s₁ output hpublish =>
      split at h
      · cases h
      next candidates hcandidates =>
        cases h
        exact .inr ⟨proposal, s₁, candidates, hproposal, not_not.mp hnumber, hstate,
          hpublish, hcandidates, rfl⟩

variable {e : SourceError}

/-- A finalization that fails has changed nothing, or has published a proposal whose height has no
list. -/
theorem finalize_eq_error (h : s.finalize sequence id blockNumber = (s', .error e)) :
    s' = s ∨
      ∃ proposal out, s.proposals.lookup id = some proposal ∧ proposal.blockNumber = blockNumber ∧
        (s.marked id proposal .finalized sequence).publish sequence id .finalized = (s', .ok out) ∧
        s.byHeight blockNumber = none := by
  unfold finalize at h
  split at h
  · cases h
  next proposal hproposal =>
    split at h
    · exact .inl (Prod.mk.inj h).1.symm
    next hvalid =>
      obtain ⟨hnumber, _⟩ := not_or.mp hvalid
      dsimp only at h
      split at h
      next _ _ hpublish =>
        obtain ⟨_, _, hstored⟩ := publish_of_stored
          (s := s.marked id proposal .finalized sequence) (lookup_insert _) sequence
          .finalized
        cases hpublish.symm.trans hstored
      next s₁ out hpublish =>
        split at h
        next hnone =>
          cases h
          refine .inr ⟨proposal, out, hproposal, not_not.mp hnumber, hpublish, ?_⟩
          obtain ⟨_, _, _, _, _, rfl⟩ := publish_eq_ok hpublish
          exact hnone
        · cases h

theorem verified_eq_ok (h : s.verified sequence blockNumber = (s', .ok out)) :
    (s' = s ∧ out = []) ∨
      ∃ id proposal, s.byHeight blockNumber = some [id] ∧ s.proposals.lookup id = some proposal ∧
        proposal.state = .finalized ∧
        out = [.head ⟨sequence, proposal.blockNumber, some proposal.blockHash,
          some proposal.parentHash, .finalized⟩] ∧
        ∃ pendingLogs pendingBytes, s' = { s with
            proposals := s.proposals.erase id
            published := update s.published blockNumber none
            byHeight := update s.byHeight blockNumber none
            pendingLogs := pendingLogs
            pendingBytes := pendingBytes } := by
  unfold verified at h
  split at h
  · cases h
    exact .inl ⟨rfl, rfl⟩
  next candidates hcandidates =>
    dsimp only at h
    split at h
    next id =>
      split at h
      · cases h
      next proposal hproposal =>
        obtain ⟨hstate, h⟩ := ite_failed_eq_ok.mp h
        cases h
        refine .inr ⟨id, proposal, hcandidates, hproposal, not_not.mp hstate, rfl, ?_⟩
        unfold removeProposal
        rw [hproposal]
        exact ⟨_, _, rfl⟩
    · cases h

/-- A height that cannot be verified loses its list of proposals all the same. -/
theorem verified_eq_error (h : s.verified sequence blockNumber = (s', .error e)) :
    s' = { s with byHeight := update s.byHeight blockNumber none } := by
  unfold verified at h
  split at h
  · cases h
  dsimp only at h
  split at h
  · split at h
    · cases h
      rfl
    split at h
    · cases h
      rfl
    · cases h
  · cases h
    rfl

/-- Removing proposals takes them out of the stored ones and leaves the branches as they are. -/
theorem removeProposal_frame (s : ProposalLifecycle) (id : B256) :
    ∃ proposals pendingLogs pendingBytes, s.removeProposal id = { s with
          proposals := proposals, pendingLogs := pendingLogs, pendingBytes := pendingBytes } ∧
      ∀ other, proposals.lookup other = if other = id then none else s.proposals.lookup other := by
  unfold removeProposal
  split
  next hnone =>
    refine ⟨_, _, _, rfl, fun other => ?_⟩
    split
    next hother => rw [hother, hnone]
    · rfl
  · refine ⟨_, _, _, rfl, fun other => ?_⟩
    split
    next hother => rw [hother, lookup_erase]
    next hother => exact lookup_erase_ne hother

theorem foldl_removeProposal (ids : List B256) (s : ProposalLifecycle) :
    ∃ proposals pendingLogs pendingBytes, ids.foldl removeProposal s = { s with
          proposals := proposals, pendingLogs := pendingLogs, pendingBytes := pendingBytes } ∧
      ∀ other, proposals.lookup other = if other ∈ ids then none else s.proposals.lookup other := by
  induction ids generalizing s with
  | nil => exact ⟨_, _, _, rfl, fun _ => rfl⟩
  | cons first rest ih =>
    obtain ⟨proposals, pendingLogs, pendingBytes, heq, hlookup⟩ := ih (s.removeProposal first)
    obtain ⟨_, _, _, hfirst, hlookup'⟩ := s.removeProposal_frame first
    rw [hfirst] at heq hlookup
    refine ⟨proposals, pendingLogs, pendingBytes, ?_, fun other => ?_⟩
    · rw [List.foldl_cons, hfirst]
      exact heq
    rw [hlookup, hlookup']
    by_cases hother : other = first
    · simp [hother]
    · simp [hother]

/-- Abandoning leaves only the finalized one of the candidates. -/
theorem abandonOthers_frame (s : ProposalLifecycle) (id : B256) (blockNumber : Nat)
    (candidates : List B256) :
    ∃ proposals pendingLogs pendingBytes, s.abandonOthers id blockNumber candidates = { s with
          byHeight := update s.byHeight blockNumber (some [id])
          published := update s.published blockNumber (some id)
          proposals := proposals, pendingLogs := pendingLogs, pendingBytes := pendingBytes } ∧
      (∀ other proposal, proposals.lookup other = some proposal →
        s.proposals.lookup other = some proposal) ∧
      ∀ other, other = id ∨ other ∉ candidates →
        proposals.lookup other = s.proposals.lookup other := by
  obtain ⟨proposals, pendingLogs, pendingBytes, heq, hlookup⟩ := foldl_removeProposal
    (candidates.filter fun candidate => candidate ≠ id)
    { s with byHeight := update s.byHeight blockNumber (some [id]) }
  refine ⟨proposals, pendingLogs, pendingBytes, ?_, fun other proposal hfound => ?_,
    fun other hother => ?_⟩
  · rw [abandonOthers, heq]
  · rw [hlookup] at hfound
    split at hfound
    · cases hfound
    · exact hfound
  · rw [hlookup, if_neg]
    intro hin
    obtain ⟨hcandidate, hne⟩ := List.mem_filter.mp hin
    rcases hother with heq | hnot
    · exact of_decide_eq_true hne heq
    · exact hnot hcandidate

end ProposalLifecycle

end Lunarbase.Monad
