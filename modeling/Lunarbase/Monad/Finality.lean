import Lunarbase.Monad.Places
import Lunarbase.Support.Run

/-!
# Monad — Finality

What may still be published at a height once a proposal is final there.

The lifecycle forgets: a start does not look at the finalized proposal of its height, and an
execution that was going on when another proposal became final goes on.  Both put a competing
proposal in the place of the final one (`start_replaces_finalized`).  While every record that can
publish concerns a height above the finalized ones (`Respects`), nothing is published at a
finalized height but its own head (`finality_irrevocable`).
-/

namespace Lunarbase.Monad

open Client (Commitment SourceError)
open List Finmap

/-- The lifecycle together with what has been finalized: at each height the proposal and the hash
of its block. -/
structure Watched where
  lifecycle : ProposalLifecycle
  final : Nat → Option (B256 × B256)

/-- The heights above every finalized one. -/
def Above (final : Nat → Option (B256 × B256)) (height : Nat) : Prop :=
  ∀ lower pair, final lower = some pair → lower < height

/-- A record that has been accepted may finalize a stored proposal. -/
def finalizes (s : ProposalLifecycle) (record : Record)
    (final : Nat → Option (B256 × B256)) : Nat → Option (B256 × B256) :=
  match s.synchronized, record.input with
  | true, .finalized id blockNumber =>
    match s.proposals.lookup id with
    | some proposal => Function.update final blockNumber (some (id, proposal.blockHash))
    | none => final
  | _, _ => final

def Watched.step (w : Watched) (record : Record) : Watched :=
  match w.lifecycle.process record with
  | (s', .ok _) => ⟨s', finalizes w.lifecycle record w.final⟩
  | (s', .error _) => ⟨s', w.final⟩

def Watched.start (s : ProposalLifecycle) : Watched := ⟨s, fun _ => none⟩

/-- That a proposal is final at a height. -/
def Watched.recorded (w : Watched) (height : Nat) (id blockHash : B256) : Prop :=
  w.final height = some (id, blockHash)

/-- A record that leaves the finalized heights alone: a proposal is started once, and whatever it
concerns is above every finalized height. -/
def Watched.Respects (w : Watched) (record : Record) : Prop :=
  match record.input with
  | .start id blockNumber _ =>
    w.lifecycle.proposals.lookup id = none ∧ (∀ height, w.lifecycle.published height ≠ some id) ∧
      Above w.final blockNumber
  | .log _ _ _ _ _ | .finish _ =>
    ∀ active, w.lifecycle.active = some active → Above w.final active.blockNumber
  | .qc id _ => ∀ proposal, w.lifecycle.proposals.lookup id = some proposal →
      proposal.state = .proposed → Above w.final proposal.blockNumber
  | .finalized id _ => ∀ proposal, w.lifecycle.proposals.lookup id = some proposal →
      Above w.final proposal.blockNumber
  | _ => True

/-- Nothing is published at a finalized height but the head of the proposal that is final there, and
no branch is taken back at or below one. -/
def Irrevocable (final : Nat → Option (B256 × B256)) : ExecutionEvent → Prop
  | .head head => ∀ id blockHash, final head.blockNumber = some (id, blockHash) →
      head.blockHash = some blockHash ∧ head.commitment = .finalized
  | .log log => final log.blockNumber = none
  | .reorg oldHead newHead => Above final oldHead.blockNumber ∧ Above final newHead.blockNumber
  | .gap _ _ => True

/-- A start, an end or a quorum certificate that concerns a height at or below a finalized one. -/
def Watched.Competes (w : Watched) (record : Record) : Prop :=
  match record.input with
  | .start _ blockNumber _ | .qc _ blockNumber => ¬ Above w.final blockNumber
  | .finish _ => ∃ active, w.lifecycle.active = some active ∧ ¬ Above w.final active.blockNumber
  | _ => False

theorem Above.eq_none {final : Nat → Option (B256 × B256)} {height : Nat} (h : Above final height) :
    final height = none := by
  cases hfinal : final height with
  | none => rfl
  | some pair => exact absurd (h height pair hfinal) (lt_irrefl height)

namespace ProposalLifecycle

variable {s s' : ProposalLifecycle} {final : Nat → Option (B256 × B256)}
  {sequence blockNumber : Nat}
  {id : B256} {out : List ExecutionEvent}

/-! ### What is published -/

/-- A branch is taken back only at its own height. -/
theorem LogsPlaced.switchBranch (h : LogsPlaced s) (habove : Above final blockNumber)
    (sequence : Nat) (id : B256) (blockHash parentHash : Option B256) (commitment : Commitment) :
    ∀ event ∈ s.switchBranch sequence id blockNumber blockHash parentHash commitment,
      Irrevocable final event := by
  unfold ProposalLifecycle.switchBranch
  split
  · exact nofun
  next previousId hpublished =>
    split
    · exact nofun
    split
    · exact nofun
    next previous hstored =>
      intro event hin
      rcases mem_append.mp hin with hremoved | hreorg
      · split at hremoved
        · obtain ⟨log, hlog, rfl⟩ := mem_map.mp hremoved
          change final log.blockNumber = none
          rw [h.published blockNumber previousId previous hpublished hstored log hlog]
          exact habove.eq_none
        · cases hremoved
      · obtain rfl := mem_singleton.mp hreorg
        exact ⟨habove, habove⟩

theorem head_irrevocable {head : ExecutionHead} (habove : Above final head.blockNumber) :
    Irrevocable final (.head head) := by
  intro id blockHash hfinal
  cases habove.eq_none.symm.trans hfinal

theorem LogsPlaced.publish_irrevocable (h : LogsPlaced s) {commitment : Commitment}
    (hpublish : s.publish sequence id commitment = (s', .ok out))
    (habove : ∀ proposal, s.proposals.lookup id = some proposal →
      Above final proposal.blockNumber) : ∀ event ∈ out, Irrevocable final event := by
  obtain ⟨proposal, hstored, rfl, _⟩ := publish_eq_ok hpublish
  intro event hin
  rcases mem_append.mp hin with hchange | hhead
  · rcases mem_append.mp hchange with hswitch | happlied
    · exact h.switchBranch (habove proposal hstored) _ _ _ _ _ event hswitch
    split at happlied
    · obtain ⟨log, hlog, rfl⟩ := mem_map.mp happlied
      change final log.blockNumber = none
      rw [h.stored id proposal hstored log hlog]
      exact (habove proposal hstored).eq_none
    · cases happlied
  · obtain rfl := mem_singleton.mp hhead
    exact head_irrevocable (habove proposal hstored)

end ProposalLifecycle

/-! ### Runs -/

open ProposalLifecycle

variable {w : Watched} {record : Record} {s' : ProposalLifecycle} {out : List ExecutionEvent}

theorem Watched.step_of_ok (h : w.lifecycle.process record = (s', .ok out)) :
    w.step record = ⟨s', finalizes w.lifecycle record w.final⟩ := by
  unfold Watched.step
  rw [h]

theorem Watched.step_of_error {e : SourceError} (h : w.lifecycle.process record = (s', .error e)) :
    w.step record = ⟨s', w.final⟩ := by
  unfold Watched.step
  rw [h]

theorem Watched.placed_finalized {sequence blockNumber : Nat}
    {recordBlock : Option Nat} {id : B256} (h : Placed w.lifecycle w.recorded)
    (hr : w.Respects ⟨sequence, recordBlock, .finalized id blockNumber⟩) :
    Placed (w.step ⟨sequence, recordBlock, .finalized id blockNumber⟩).lifecycle
      (w.step ⟨sequence, recordBlock, .finalized id blockNumber⟩).recorded := by
  cases hsync : w.lifecycle.synchronized with
  | false =>
    have hprocess : w.lifecycle.process ⟨sequence, recordBlock, .finalized id blockNumber⟩ =
        (w.lifecycle, .ok []) := by
      unfold process
      rw [hsync]
      rfl
    rw [step_of_ok hprocess, finalizes, hsync]
    exact h
  | true =>
    have hprocess : w.lifecycle.process ⟨sequence, recordBlock, .finalized id blockNumber⟩ =
        w.lifecycle.finalize sequence id blockNumber := by
      unfold process
      rw [hsync]
      rfl
    rcases hs' : w.lifecycle.finalize sequence id blockNumber with ⟨s', e | out⟩
    · rw [step_of_error (hprocess.trans hs')]
      exact h.finalize_error hs'
    rw [step_of_ok (hprocess.trans hs'), finalizes, hsync]
    dsimp only
    split
    next proposal hstored =>
      obtain ⟨_, _, hnone⟩ | ⟨proposal', _, _, hstored', rfl, _⟩ := finalize_eq_ok hs'
      · cases hstored.symm.trans hnone
      cases hstored.symm.trans hstored'
      -- the height of the proposal was above everything that was final
      refine h.finalize_ok hstored (fun other stored height _ _ hfinal => ?_)
        (Function.update_self ..) hs'
      have hne : height ≠ proposal.blockNumber := by
        rintro rfl
        cases (hr proposal hstored).eq_none.symm.trans hfinal
      exact (Function.update_of_ne hne ..).trans hfinal
    next hnone =>
      rcases finalize_eq_ok hs' with ⟨rfl, _⟩ | ⟨_, _, _, hstored, _⟩
      · exact h
      · cases hnone.symm.trans hstored

theorem Watched.placed_step (h : Placed w.lifecycle w.recorded)
    (hr : w.Respects record) : Placed (w.step record).lifecycle (w.step record).recorded := by
  obtain ⟨sequence, recordBlock, input⟩ := record
  by_cases hinput : ∃ id blockNumber, input = .finalized id blockNumber
  · obtain ⟨id, blockNumber, rfl⟩ := hinput
    exact placed_finalized h hr
  have hne : ∀ id blockNumber, input ≠ .finalized id blockNumber :=
    fun id blockNumber heq => hinput ⟨id, blockNumber, heq⟩
  have hfinal : finalizes w.lifecycle ⟨sequence, recordBlock, input⟩ w.final = w.final := by
    unfold finalizes
    split
    next id blockNumber _ heq => exact absurd heq (hne id blockNumber)
    · rfl
  have hplaced : Placed (w.lifecycle.process ⟨sequence, recordBlock, input⟩).1 w.recorded := by
    refine h.process (fun id blockNumber parentHash heq => ?_) hne
    obtain rfl : input = .start id blockNumber parentHash := heq
    exact ⟨hr.1, hr.2.1⟩
  rcases hs' : w.lifecycle.process ⟨sequence, recordBlock, input⟩ with ⟨s', e | out⟩
  · rw [hs'] at hplaced
    rw [step_of_error hs']
    exact hplaced
  · rw [hs'] at hplaced
    rw [step_of_ok hs', hfinal]
    exact hplaced

/-- Whatever an accepted record emits leaves the finalized heights alone. -/
theorem Watched.irrevocable_handle
    (h : Placed w.lifecycle w.recorded) (hr : w.Respects record) {synchronized : Bool}
    (hok : { w.lifecycle with synchronized := synchronized }.handle record = (s', .ok out)) :
    ∀ event ∈ out, Irrevocable w.final event := by
  have hs : Placed { w.lifecycle with synchronized := synchronized } w.recorded :=
    ⟨h.published, h.listed, h.logs, h.active⟩
  have hnothing : ∀ event ∈ ([] : List ExecutionEvent), Irrevocable w.final event :=
    fun event hin => nomatch hin
  obtain ⟨sequence, recordBlock, input⟩ := record
  cases input with
  | start id blockNumber parentHash =>
    obtain ⟨_, _, habove⟩ := hr
    rcases start_eq_ok hok with ⟨_, ⟨_, _, rfl⟩ | ⟨_, _, rfl⟩⟩
    · intro event hin
      rcases mem_append.mp hin with hswitch | hhead
      · exact hs.logsPlaced.switchBranch habove _ _ _ _ _ event hswitch
      obtain rfl := mem_singleton.mp hhead
      exact head_irrevocable habove
    · exact hnothing
  | finish blockHash =>
    obtain ⟨active, hactive, _, ⟨_, hpublish⟩ | ⟨_, _, rfl⟩ | ⟨_, _, rfl⟩⟩ := finish_eq_ok hok
    · refine (hs.completed hactive sequence blockHash).logsPlaced.publish_irrevocable hpublish
        fun proposal hstored => ?_
      cases (lookup_insert _).symm.trans hstored
      exact hr active hactive
    · intro event hin
      obtain rfl := mem_singleton.mp hin
      exact head_irrevocable (hr active hactive)
    · exact hnothing
  | qc id blockNumber =>
    rcases qc_eq_ok hok with ⟨_, rfl⟩ | ⟨proposal, hstored, _, hstate, ⟨_, _, rfl⟩ | ⟨_, hpublish⟩⟩
    · exact hnothing
    · exact hnothing
    refine (hs.logsPlaced.marked hstored .voted sequence).publish_irrevocable hpublish
      fun marked hmarked => ?_
    cases (lookup_insert _).symm.trans hmarked
    exact hr proposal hstored hstate
  | finalized id blockNumber =>
    rcases finalize_eq_ok hok with ⟨_, rfl, _⟩ | ⟨proposal, s₁, candidates, hstored, _, hstate,
      hpublish, _⟩
    · exact hnothing
    refine (hs.logsPlaced.marked hstored .finalized sequence).publish_irrevocable hpublish
      fun marked hmarked => ?_
    cases (lookup_insert _).symm.trans hmarked
    exact hr proposal hstored
  | verified blockNumber =>
    rcases verified_eq_ok hok with ⟨_, rfl⟩ | ⟨id, proposal, hlist, hstored, hstate, rfl, _⟩
    · exact hnothing
    obtain ⟨proposal', hstored', hnumber, hrecorded⟩ :=
      h.listed blockNumber [id] id hlist (mem_singleton_self id)
    cases hstored.symm.trans hstored'
    intro event hin
    obtain rfl := mem_singleton.mp hin
    intro other blockHash hfinal
    rw [hnumber, hrecorded hstate] at hfinal
    obtain ⟨_, rfl⟩ := Prod.mk.inj (Option.some.inj hfinal)
    exact ⟨rfl, rfl⟩
  | fatal | reject => cases hok
  | skippedLog =>
    unfold handle at hok
    dsimp only at hok
    split at hok
    · cases hok
    cases hok
    exact hnothing
  | log transactionIndex sourceSubIndex address topics data =>
    obtain ⟨active, hactive, _, rfl⟩ := log_eq_ok hok
    intro event hin
    split at hin
    · obtain rfl := mem_singleton.mp hin
      exact (hr active hactive).eq_none
    · cases hin
  | ignore =>
    cases hok
    exact hnothing

/-- Of the records that compete with a final proposal only a quorum certificate can arrive, and it
is ignored. -/
theorem Watched.competing_ignored (hr : w.Respects record) (hcompetes : w.Competes record)
    (hok : w.lifecycle.process record = (s', .ok out)) : s' = w.lifecycle ∧ out = [] := by
  obtain ⟨sequence, recordBlock, input⟩ := record
  cases input with
  | start id blockNumber parentHash => exact absurd hr.2.2 hcompetes
  | finish blockHash =>
    obtain ⟨active, hactive, hbelow⟩ := hcompetes
    exact absurd (hr active hactive) hbelow
  | qc id blockNumber =>
    unfold process at hok
    split at hok
    · rcases qc_eq_ok hok with hsame | ⟨proposal, hstored, rfl, hstate, _⟩
      · exact hsame
      · exact absurd (hr proposal hstored hstate) hcompetes
    · obtain ⟨rfl, hout⟩ := Prod.mk.inj hok
      exact ⟨rfl, (Except.ok.inj hout).symm⟩
  | finalized | verified | fatal | reject | skippedLog | log | ignore => exact hcompetes.elim

/-- As long as every record concerns a height above the finalized ones, an accepted record publishes
nothing at a finalized height but the head of the proposal that is final there, takes no branch back
at or below one, and does not follow a competing proposal. -/
theorem finality_irrevocable {delivery : MonadDeliveryMode} {emitRemovedLogs : Bool}
    {limits : LifecycleLimits} {w : Watched} (hrun : Run Watched.step Watched.Respects
      (Watched.start (.new delivery emitRemovedLogs limits)) w) {record : Record}
    (hr : w.Respects record) {s' : ProposalLifecycle} {out : List ExecutionEvent}
    (hok : w.lifecycle.process record = (s', .ok out)) :
    (∀ event ∈ out, Irrevocable w.final event) ∧
      (w.Competes record → s' = w.lifecycle ∧ out = []) := by
  have hplaced : Placed w.lifecycle w.recorded :=
    hrun.invariant (P := fun w => Placed w.lifecycle w.recorded)
      (Placed.initial delivery emitRemovedLogs limits _) fun _ _ h hr => Watched.placed_step h hr
  refine ⟨?_, fun hcompetes => Watched.competing_ignored hr hcompetes hok⟩
  rcases process_eq_ok hok with ⟨_, rfl⟩ | ⟨synchronized, hhandle⟩
  · exact fun event hin => nomatch hin
  · exact Watched.irrevocable_handle hplaced hr hhandle

/-! ### A final proposal that is replaced -/

/-- The lifecycle in which proposal 1 is final at height 5. -/
def finalizedAtFive : Watched :=
  (((Watched.start (.new .realtime true ⟨8, 8, 8⟩)).step ⟨1, some 5, .start 1 5 0⟩).step
    ⟨2, some 5, .finish 101⟩).step ⟨3, some 5, .finalized 1 5⟩

theorem finalizedAtFive_run : Run Watched.step Watched.Respects
    (Watched.start (.new .realtime true ⟨8, 8, 8⟩)) finalizedAtFive := by
  have hnothing : ∀ n, Above (fun _ => none) n := fun n _ _ h => nomatch h
  refine .more (.more (.more .refl ⟨by decide +kernel, ?_, hnothing 5⟩) ?_) ?_
  · exact fun height h => nomatch h
  · exact fun active _ => hnothing active.blockNumber
  · exact fun proposal _ => hnothing proposal.blockNumber

/-- The final proposal is verified. -/
theorem finality_irrevocable_verified :
    ∃ s' out, finalizedAtFive.lifecycle.process ⟨4, some 5, .verified 5⟩ = (s', .ok out) ∧
      out = [.head ⟨4, 5, some 101, some 0, .finalized⟩] ∧
      ∀ event ∈ out, Irrevocable finalizedAtFive.final event := by
  have hemitted : finalizedAtFive.lifecycle.emitted ⟨4, some 5, .verified 5⟩ =
      some [.head ⟨4, 5, some 101, some 0, .finalized⟩] := by decide +kernel
  have hrespects : finalizedAtFive.Respects ⟨4, some 5, .verified 5⟩ := trivial
  obtain ⟨s', hok⟩ := exists_of_emitted hemitted
  exact ⟨s', _, hok, rfl, (finality_irrevocable finalizedAtFive_run hrespects hok).1⟩

/-- A second proposal of a finalized height takes the final one back. -/
theorem start_replaces_finalized :
    ∃ s' out, finalizedAtFive.final 5 = some (1, 101) ∧
      finalizedAtFive.lifecycle.process ⟨4, some 5, .start 2 5 0⟩ = (s', .ok out) ∧
      ¬ ∀ event ∈ out, Irrevocable finalizedAtFive.final event := by
  have hemitted : finalizedAtFive.lifecycle.emitted ⟨4, some 5, .start 2 5 0⟩ =
      some [.reorg ⟨3, 5, some 101, some 0, .finalized⟩ ⟨4, 5, none, some 0, .realtime⟩,
        .head ⟨4, 5, none, some 0, .realtime⟩] := by decide +kernel
  have hfinal : finalizedAtFive.final 5 = some (1, 101) := by decide +kernel
  obtain ⟨s', hok⟩ := exists_of_emitted hemitted
  refine ⟨s', _, hfinal, hok, fun hall => ?_⟩
  exact lt_irrefl 5 ((hall _ (mem_cons_self ..)).1 5 _ hfinal)

end Lunarbase.Monad
