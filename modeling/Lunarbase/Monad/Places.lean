import Lunarbase.Monad.Steps

/-!
# Monad — Places

Where the proposals of the lifecycle are: a stored proposal is published and listed at its own
height and has only logs of that height, and the active one is not stored (`Placed`).  Every handler
keeps this, whether it accepts its record or not, as long as identifiers are started once.
-/

namespace Lunarbase.Monad

open Client (Commitment SourceError)
open List Finmap

namespace ProposalLifecycle

variable {s s' : ProposalLifecycle} {recorded : Nat → B256 → B256 → Prop}
  {sequence blockNumber : Nat}
  {id : B256} {out : List ExecutionEvent}

/-- Stored proposals are published and listed at their own height; a finalized one that is listed
is recorded as recorded. -/
structure Placed (s : ProposalLifecycle) (recorded : Nat → B256 → B256 → Prop) : Prop where
  published : ∀ height id proposal, s.published height = some id →
    s.proposals.lookup id = some proposal → proposal.blockNumber = height
  listed : ∀ height ids id, s.byHeight height = some ids → id ∈ ids →
    ∃ proposal, s.proposals.lookup id = some proposal ∧ proposal.blockNumber = height ∧
      (proposal.state = .finalized → recorded height id proposal.blockHash)
  logs : ∀ id proposal, s.proposals.lookup id = some proposal →
    ∀ log ∈ proposal.logs, log.blockNumber = proposal.blockNumber
  active : ∀ active, s.active = some active → s.proposals.lookup active.id = none ∧
      (∀ height, s.published height = some active.id → height = active.blockNumber) ∧
      ∀ log ∈ active.logs, log.blockNumber = active.blockNumber

theorem Placed.initial (delivery : MonadDeliveryMode) (emitRemovedLogs : Bool)
    (limits : LifecycleLimits) (recorded : Nat → B256 → B256 → Prop) :
    Placed (ProposalLifecycle.new delivery emitRemovedLogs limits) recorded where
  published _ _ _ h := nomatch h
  listed _ _ _ h := nomatch h
  logs _ _ h := nomatch h
  active _ h := nomatch h

variable {proposal : Proposal} {recorded' : Nat → B256 → B256 → Prop}

section

variable (h : Placed s recorded)

include h

variable {pendingLogs pendingBytes : Nat}

/-- A stored proposal is written again, at its height and with no new logs; its state changes only
towards what is recorded. -/
theorem Placed.rewrite (proposal' : Proposal) (hstored : s.proposals.lookup id = some proposal)
    (hnumber : proposal'.blockNumber = proposal.blockNumber)
    (hlogs : ∀ log ∈ proposal'.logs, log ∈ proposal.logs) {published' : Nat → Option B256}
    (hpublished : ∀ height other, published' height = some other →
      height = proposal.blockNumber ∧ id = other ∨ s.published height = some other)
    (hkeep : ∀ other proposal'' height, other ≠ id → s.proposals.lookup other = some proposal'' →
      recorded height other proposal''.blockHash → recorded' height other proposal''.blockHash)
    (hstate : proposal'.state = .finalized → ∀ ids, s.byHeight proposal.blockNumber = some ids →
      id ∈ ids → recorded' proposal.blockNumber id proposal'.blockHash) :
    Placed { s with
        proposals := s.proposals.insert id proposal', published := published'
        pendingLogs := pendingLogs, pendingBytes := pendingBytes } recorded' := by
  refine ⟨fun height other stored hshown hother => ?_, fun height ids other hids hin => ?_,
    fun other stored hother => ?_, fun active ha => ?_⟩
  · rcases lookup_insert_eq_some.mp hother with ⟨rfl, rfl⟩ | ⟨hne, hother⟩
    · rcases hpublished height other hshown with ⟨rfl, -⟩ | hbefore
      · exact hnumber
      · exact hnumber.trans (h.published height other proposal hbefore hstored)
    · rcases hpublished height other hshown with ⟨-, rfl⟩ | hbefore
      · exact absurd rfl hne
      · exact h.published height other stored hbefore hother
  · obtain ⟨stored, hstored', hat, hrecorded⟩ := h.listed height ids other hids hin
    by_cases heq : other = id
    · subst heq
      cases hstored.symm.trans hstored'
      subst hat
      exact ⟨proposal', lookup_insert _, hnumber, fun hfin => hstate hfin ids hids hin⟩
    · exact ⟨stored, (lookup_insert_of_ne _ heq).trans hstored', hat,
        fun hfin => hkeep other stored height heq hstored' (hrecorded hfin)⟩
  · rcases lookup_insert_eq_some.mp hother with ⟨rfl, rfl⟩ | ⟨-, hother⟩
    · intro log hlog
      rw [hnumber]
      exact h.logs other proposal hstored log (hlogs log hlog)
    · exact h.logs other stored hother
  · obtain ⟨hnew, hplace, hactiveLogs⟩ := h.active active ha
    have hne : active.id ≠ id := by
      rintro rfl
      cases hstored.symm.trans hnew
    refine ⟨(lookup_insert_of_ne _ hne).trans hnew, fun height hshown => ?_, hactiveLogs⟩
    rcases hpublished height _ hshown with ⟨-, rfl⟩ | hbefore
    · exact absurd rfl hne
    · exact hplace height hbefore

/-- The active proposal changes in its counters and logs only, or is given up. -/
theorem Placed.reactivate {active' : Option ActiveProposal}
    (hactive : ∀ active, active' = some active → ∃ before, s.active = some before ∧
      active.id = before.id ∧ active.blockNumber = before.blockNumber ∧
      ∀ log ∈ active.logs, log ∈ before.logs ∨ log.blockNumber = before.blockNumber) :
    Placed { s with active := active', pendingLogs := pendingLogs, pendingBytes := pendingBytes }
      recorded := by
  refine ⟨h.published, h.listed, h.logs, fun active ha => ?_⟩
  obtain ⟨before, hbefore, hid, hnumber, hlogs⟩ := hactive active ha
  obtain ⟨hnew, hplace, hheight⟩ := h.active before hbefore
  rw [hid, hnumber]
  exact ⟨hnew, hplace, fun log hlog => (hlogs log hlog).elim (hheight log) id⟩

theorem Placed.start (hnew : s.proposals.lookup id = none)
    (hfresh : ∀ height, s.published height ≠ some id) (sequence blockNumber : Nat)
    (parentHash : B256) : Placed (s.start sequence id blockNumber parentHash).1 recorded := by
  unfold ProposalLifecycle.start
  split
  · exact h
  split
  · exact h
  split
  · refine ⟨fun height other stored hshown hother => ?_, h.listed, h.logs, fun active ha => ?_⟩
    · rcases update_some_eq_some.mp hshown with ⟨-, rfl⟩ | ⟨-, hbefore⟩
      · cases hnew.symm.trans hother
      · exact h.published height other stored hbefore hother
    cases ha
    refine ⟨hnew, fun height hshown => ?_, fun log hlog => nomatch hlog⟩
    rcases update_some_eq_some.mp hshown with ⟨heq, -⟩ | ⟨-, hbefore⟩
    · exact heq
    · exact absurd hbefore (hfresh height)
  · refine ⟨h.published, h.listed, h.logs, fun active ha => ?_⟩
    cases ha
    exact ⟨hnew, fun height hshown => absurd hshown (hfresh height), fun log hlog => nomatch hlog⟩

theorem Placed.nextLogIndex (recordBlock : Option Nat) :
    Placed (s.nextLogIndex recordBlock).1 recorded := by
  unfold ProposalLifecycle.nextLogIndex
  split
  · exact h
  next active hactive =>
    split
    · exact h
    split
    · exact h
    refine h.reactivate fun counted hcounted => ⟨active, hactive, ?_⟩
    cases hcounted
    exact ⟨rfl, rfl, fun log hlog => .inl hlog⟩

theorem Placed.log (sequence : Nat) (recordBlock : Option Nat)
    (transactionIndex sourceSubIndex : Nat) (address : Address) (topics : List B256)
    (data : List UInt8) :
    Placed (s.log sequence recordBlock transactionIndex sourceSubIndex address topics data).1
      recorded := by
  have hnext := h.nextLogIndex recordBlock
  unfold ProposalLifecycle.log
  split
  next s₁ _ heq =>
    rw [heq] at hnext
    exact hnext
  next s₁ counted logIndex heq =>
    rw [heq] at hnext
    have hcounted : s₁.active = some counted := by
      obtain ⟨_, _, _, _, rfl⟩ := nextLogIndex_eq_ok heq
      rfl
    dsimp only
    split
    · exact hnext
    split
    · exact hnext
    refine hnext.reactivate fun active ha => ⟨counted, hcounted, ?_⟩
    cases ha
    refine ⟨rfl, rfl, fun log hlog => ?_⟩
    rcases mem_append.mp hlog with hold | hlast
    · exact .inl hold
    rw [mem_singleton.mp hlast]
    exact .inr rfl

/-- The active proposal joins the stored ones. -/
theorem Placed.completed {active : ActiveProposal}
    (hactive : s.active = some active) (sequence : Nat) (blockHash : B256) :
    Placed (s.completed active sequence blockHash) recorded := by
  obtain ⟨hnew, hplace, hheight⟩ := h.active active hactive
  -- an identifier that is listed already is another one, since the active one is not stored
  have hold : ∀ height ids other, s.byHeight height = some ids → other ∈ ids →
      ∃ proposal, (s.completed active sequence blockHash).proposals.lookup other = some proposal ∧
        proposal.blockNumber = height ∧
        (proposal.state = .finalized → recorded height other proposal.blockHash) := by
    intro height ids other hids hin
    obtain ⟨proposal, hstored, hat⟩ := h.listed height ids other hids hin
    refine ⟨proposal, lookup_insert_eq_some.mpr (.inr ⟨?_, hstored⟩), hat⟩
    rintro rfl
    cases hnew.symm.trans hstored
  refine ⟨fun height other stored hshown hother => ?_, fun height ids other hids hin => ?_,
    fun other stored hother => ?_, nofun⟩
  · rcases lookup_insert_eq_some.mp hother with ⟨rfl, rfl⟩ | ⟨-, hother⟩
    · exact (hplace height hshown).symm
    · exact h.published height other stored hshown hother
  · rcases update_some_eq_some.mp hids with ⟨rfl, rfl⟩ | ⟨-, hids⟩
    · rcases mem_append.mp hin with hbefore | hlast
      · cases hids : s.byHeight active.blockNumber with
        | none =>
          rw [hids] at hbefore
          cases hbefore
        | some ids =>
          rw [hids] at hbefore
          exact hold _ ids other hids hbefore
      · obtain rfl := mem_singleton.mp hlast
        exact ⟨_, lookup_insert _, rfl, nofun⟩
    · exact hold height ids other hids hin
  · rcases lookup_insert_eq_some.mp hother with ⟨rfl, rfl⟩ | ⟨-, hother⟩
    · intro log hlog
      obtain ⟨before, hbefore, rfl⟩ := mem_map.mp hlog
      exact hheight before hbefore
    · exact h.logs other stored hother

theorem Placed.publish {commitment : Commitment}
    (hpublish : s.publish sequence id commitment = (s', .ok out)) : Placed s' recorded := by
  obtain ⟨proposal, hstored, _, _, _, rfl⟩ := publish_eq_ok hpublish
  obtain ⟨hnumber, hhash, hstate, hlogs⟩ := s.publishedAs_frame proposal sequence commitment
  refine h.rewrite _ hstored hnumber hlogs
    (fun _ _ hp => (update_some_eq_some.mp hp).imp_right And.right) (fun _ _ _ _ _ hkeep => hkeep)
    fun hfin ids hids hin => ?_
  obtain ⟨proposal', hstored', _, hrecorded⟩ := h.listed _ ids id hids hin
  cases hstored.symm.trans hstored'
  rw [hhash]
  exact hrecorded (hstate ▸ hfin)

theorem Placed.finish (sequence : Nat) (recordBlock : Option Nat)
    (blockHash : B256) : Placed (s.finish sequence recordBlock blockHash).1 recorded := by
  unfold ProposalLifecycle.finish
  split
  · exact h
  next active hactive =>
    have hgiven : Placed { s with active := none } recorded :=
      h.reactivate nofun
    have hdone := h.completed hactive sequence blockHash
    dsimp only
    split
    · exact hgiven
    split
    · exact hgiven
    split
    · obtain ⟨s', out, hpublish⟩ := publish_of_stored
        (s := s.completed active sequence blockHash) (lookup_insert _) sequence
        .canonical
      change Placed ((s.completed active sequence blockHash).publish sequence active.id
        .canonical).1 recorded
      rw [hpublish]
      exact hdone.publish hpublish
    · exact hdone
    · exact hdone

/-- A stored proposal gets a new consensus state; when that is the recorded one, it is recorded. -/
theorem Placed.marked (hstored : s.proposals.lookup id = some proposal)
    (state : ProposalState) (sequence : Nat)
    (hkeep : ∀ other proposal' height, other ≠ id → s.proposals.lookup other = some proposal' →
      recorded height other proposal'.blockHash → recorded' height other proposal'.blockHash)
    (hstate : state = .finalized → ∀ ids, s.byHeight proposal.blockNumber = some ids →
      recorded' proposal.blockNumber id proposal.blockHash) :
    Placed (s.marked id proposal state sequence) recorded' :=
  h.rewrite { proposal with state := state, lastSequence := sequence } hstored rfl
    (fun _ hlog => hlog) (fun _ _ hp => .inr hp) hkeep fun hfin ids hids _ => hstate hfin ids hids

theorem Placed.qc (sequence : Nat) (id : B256) (blockNumber : Nat) :
    Placed (s.qc sequence id blockNumber).1 recorded := by
  unfold ProposalLifecycle.qc
  split
  · exact h
  next proposal hstored =>
    have hmarked : Placed (s.marked id proposal .voted sequence) recorded :=
      h.marked hstored .voted sequence (fun _ _ _ _ _ hkeep => hkeep) nofun
    split
    · exact h
    split
    · exact h
    dsimp only
    split
    · exact hmarked
    obtain ⟨s', out, hpublish⟩ := publish_of_stored
      (s := s.marked id proposal .voted sequence) (lookup_insert _) sequence
      .canonical
    change Placed ((s.marked id proposal .voted sequence).publish sequence id
      .canonical).1 recorded
    rw [hpublish]
    exact hmarked.publish hpublish

/-- Only the finalized proposal is left at its height. -/
theorem Placed.abandonOthers
    (hstored : s.proposals.lookup id = some proposal) (hnumber : proposal.blockNumber = blockNumber)
    (hrecorded : proposal.state = .finalized → recorded blockNumber id proposal.blockHash)
    {candidates : List B256} (hcandidates : s.byHeight blockNumber = some candidates) :
    Placed (s.abandonOthers id blockNumber candidates) recorded := by
  obtain ⟨proposals, _, _, heq, hlookup, hkept⟩ := s.abandonOthers_frame id blockNumber candidates
  -- what is listed at another height is not among the candidates of this one
  have hother : ∀ height ids other, height ≠ blockNumber → s.byHeight height = some ids →
      other ∈ ids → other ∉ candidates := by
    intro height ids other hne hids hin hcandidate
    obtain ⟨_, hfirst, hat, _⟩ := h.listed height ids other hids hin
    obtain ⟨_, hsecond, hat', _⟩ := h.listed blockNumber candidates other hcandidates hcandidate
    cases hfirst.symm.trans hsecond
    exact hne (hat.symm.trans hat')
  rw [heq]
  refine ⟨fun height other stored hshown hfound => ?_, fun height ids other hids hin => ?_,
    fun other stored hfound => h.logs other stored (hlookup other stored hfound),
    fun active ha => ?_⟩
  · rcases update_some_eq_some.mp hshown with ⟨rfl, rfl⟩ | ⟨-, hbefore⟩
    · cases hstored.symm.trans (hlookup _ _ hfound)
      exact hnumber
    · exact h.published height other stored hbefore (hlookup _ _ hfound)
  · rcases update_some_eq_some.mp hids with ⟨rfl, rfl⟩ | ⟨hne, hids⟩
    · obtain rfl := mem_singleton.mp hin
      exact ⟨proposal, (hkept other (.inl rfl)).trans hstored, hnumber, hrecorded⟩
    · obtain ⟨stored, hfound, hat⟩ := h.listed height ids other hids hin
      exact ⟨stored, (hkept other (.inr (hother height ids other hne hids hin))).trans hfound, hat⟩
  · obtain ⟨hnew, hplace, hlogs⟩ := h.active active ha
    refine ⟨?_, fun height hshown => ?_, hlogs⟩
    · cases hfound : proposals.lookup active.id with
      | none => rfl
      | some stored => cases hnew.symm.trans (hlookup _ _ hfound)
    · rcases update_some_eq_some.mp hshown with ⟨-, rfl⟩ | ⟨-, hbefore⟩
      · cases hstored.symm.trans hnew
      · exact hplace height hbefore

/-- The height whose list is dropped, with or without its proposal. -/
theorem Placed.verified (sequence blockNumber : Nat) :
    Placed (s.verified sequence blockNumber).1 recorded := by
  rcases hs' : s.verified sequence blockNumber with ⟨s', e | out⟩
  · rw [verified_eq_error hs']
    exact ⟨h.published, fun height ids other hids =>
      h.listed height ids other (update_none_eq_some.mp hids).2, h.logs, h.active⟩
  rcases verified_eq_ok hs' with ⟨rfl, _⟩ | ⟨id, proposal, hlist, hstored, _, _, _, _, rfl⟩
  · exact h
  refine ⟨fun height other stored hp hfound => h.published height other stored
      (update_none_eq_some.mp hp).2 (lookup_erase_eq_some.mp hfound).2,
    fun height ids other hids hin => ?_,
    fun other stored hfound => h.logs other stored (lookup_erase_eq_some.mp hfound).2,
    fun active ha => ?_⟩
  · obtain ⟨hne, hids⟩ := update_none_eq_some.mp hids
    obtain ⟨stored, hfound, hat, hrecorded⟩ := h.listed height ids other hids hin
    refine ⟨stored, lookup_erase_eq_some.mpr ⟨?_, hfound⟩, hat, hrecorded⟩
    rintro rfl
    obtain ⟨_, hfound', hat', _⟩ := h.listed _ _ _ hlist (mem_singleton_self _)
    cases hfound.symm.trans hfound'
    exact hne (hat.symm.trans hat')
  · obtain ⟨hnew, hplace, hlogs⟩ := h.active active ha
    refine ⟨?_, fun height hp => hplace height (update_none_eq_some.mp hp).2, hlogs⟩
    rw [lookup_erase_ne, hnew]
    rintro rfl
    cases hstored.symm.trans hnew

/-- A finalized proposal is recorded. -/
theorem Placed.finalize_ok (hstored : s.proposals.lookup id = some proposal)
    (hkeep : ∀ other proposal' height, other ≠ id → s.proposals.lookup other = some proposal' →
      recorded height other proposal'.blockHash → recorded' height other proposal'.blockHash)
    (hnew : recorded' proposal.blockNumber id proposal.blockHash)
    (hok : s.finalize sequence id blockNumber = (s', .ok out)) : Placed s' recorded' := by
  rcases finalize_eq_ok hok with ⟨_, _, hnone⟩ | ⟨proposal', s₁, candidates, hstored', hnumber, _,
    hpublish, hcandidates, rfl⟩
  · cases hstored.symm.trans hnone
  cases hstored.symm.trans hstored'
  subst hnumber
  have hmarked : Placed (s.marked id proposal .finalized sequence) recorded' :=
    h.marked hstored .finalized sequence hkeep fun _ _ _ => hnew
  have hplaced := hmarked.publish hpublish
  obtain ⟨marked, hfound, _, _, _, rfl⟩ := publish_eq_ok hpublish
  cases (lookup_insert _).symm.trans hfound
  obtain ⟨hnumber, hhash, _⟩ := publishedAs_frame (s.marked id proposal .finalized sequence)
    { proposal with state := .finalized, lastSequence := sequence } sequence .finalized
  refine hplaced.abandonOthers (lookup_insert _) hnumber (fun _ => ?_) hcandidates
  rw [hhash]
  exact hnew

theorem Placed.finalize_error {e : SourceError}
    (herror : s.finalize sequence id blockNumber = (s', .error e)) : Placed s' recorded := by
  rcases finalize_eq_error herror with rfl | ⟨proposal, out, hstored, rfl, hpublish, hnone⟩
  · exact h
  refine (h.marked hstored .finalized sequence (fun _ _ _ _ _ hkeep => hkeep)
    fun _ ids hids => ?_).publish hpublish
  cases hnone.symm.trans hids

/-- The logs of a proposal are logs of its height, also where it is published. -/
structure LogsPlaced (s : ProposalLifecycle) : Prop where
  published : ∀ height id proposal, s.published height = some id →
    s.proposals.lookup id = some proposal → ∀ log ∈ proposal.logs, log.blockNumber = height
  stored : ∀ id proposal, s.proposals.lookup id = some proposal →
    ∀ log ∈ proposal.logs, log.blockNumber = proposal.blockNumber

theorem Placed.logsPlaced : LogsPlaced s where
  published height id proposal hpublished hstored log hlog :=
    (h.logs id proposal hstored log hlog).trans (h.published height id proposal hpublished hstored)
  stored := h.logs

end

theorem LogsPlaced.marked (h : LogsPlaced s) (hstored : s.proposals.lookup id = some proposal)
    (state : ProposalState) (sequence : Nat) :
    LogsPlaced (s.marked id proposal state sequence) := by
  refine ⟨fun height other stored hpublished hfound => ?_, fun other stored hfound => ?_⟩
  · rcases lookup_insert_eq_some.mp hfound with ⟨rfl, rfl⟩ | ⟨-, hfound⟩
    · exact h.published height other proposal hpublished hstored
    · exact h.published height other stored hpublished hfound
  · rcases lookup_insert_eq_some.mp hfound with ⟨rfl, rfl⟩ | ⟨-, hfound⟩
    · exact h.stored other proposal hstored
    · exact h.stored other stored hfound

variable {record : Record}

/-- Every record but a finalization keeps everything in its place, whether it is accepted or not. -/
theorem Placed.handle (h : Placed s recorded)
    (hfresh : ∀ id blockNumber parentHash, record.input = .start id blockNumber parentHash →
      s.proposals.lookup id = none ∧ ∀ height, s.published height ≠ some id)
    (hinput : ∀ id blockNumber, record.input ≠ .finalized id blockNumber) :
    Placed (s.handle record).1 recorded := by
  obtain ⟨sequence, recordBlock, input⟩ := record
  cases input with
  | start id blockNumber parentHash =>
    obtain ⟨hnew, hunpublished⟩ := hfresh id blockNumber parentHash rfl
    exact h.start hnew hunpublished sequence blockNumber parentHash
  | finish blockHash => exact h.finish sequence recordBlock blockHash
  | qc id blockNumber => exact h.qc sequence id blockNumber
  | finalized id blockNumber => exact absurd rfl (hinput id blockNumber)
  | verified blockNumber => exact h.verified sequence blockNumber
  | fatal | reject | ignore => exact h
  | skippedLog =>
    have hnext := h.nextLogIndex recordBlock
    unfold ProposalLifecycle.handle
    dsimp only
    split
    next heq =>
      rw [heq] at hnext
      exact hnext
    next heq =>
      rw [heq] at hnext
      exact hnext
  | log transactionIndex sourceSubIndex address topics data =>
    exact h.log sequence recordBlock transactionIndex sourceSubIndex address topics data

/-- The same from a state that may not be synchronized yet. -/
theorem Placed.process (h : Placed s recorded)
    (hfresh : ∀ id blockNumber parentHash, record.input = .start id blockNumber parentHash →
      s.proposals.lookup id = none ∧ ∀ height, s.published height ≠ some id)
    (hinput : ∀ id blockNumber, record.input ≠ .finalized id blockNumber) :
    Placed (s.process record).1 recorded := by
  unfold ProposalLifecycle.process
  split
  · exact h.handle hfresh hinput
  split
  · exact h
  · have hsynchronized : Placed { s with synchronized := true } recorded :=
      ⟨h.published, h.listed, h.logs, h.active⟩
    exact hsynchronized.handle hfresh hinput
  · exact h

end ProposalLifecycle

end Lunarbase.Monad
