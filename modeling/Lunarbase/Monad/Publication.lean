import Lunarbase.Monad.Ledger

/-!
# Monad — Publication

How one proposal takes the place of another at a height.

A switch between two complete proposals is announced by one reorganization between the removed logs
of the old and the applied logs of the new one, and with removals on the two sides of the account
agree (`publication_consistent`).

The proposal that is still executing is not among the stored ones.  When it is shown and a quorum
certificate of a competitor arrives, nothing takes it back (`open_proposal_not_taken_back`); the
same holds of a height that has been verified, and the logs of a final proposal are gone.
-/

namespace Lunarbase.Monad

open Client (Commitment SourceError)
open List Function Finmap ProposalLifecycle Ledger

variable {l : Ledger} {s' : ProposalLifecycle} {executed' : B256 → Option (Multiset LogContent)}
  {out : List ExecutionEvent} {sequence blockNumber : Nat} {id : B256}

/-! ### Handlers -/

section

variable (h : Audited l)

include h

theorem Audited.not_stored (hnew : l.executed id = none) :
    l.lifecycle.proposals.lookup id = none := by
  cases hstored : l.lifecycle.proposals.lookup id with
  | none => rfl
  | some proposal =>
    obtain ⟨contents, hcontents, _⟩ := h.stored id proposal hstored
    cases hnew.symm.trans hcontents

theorem Audited.not_shown (hnew : l.executed id = none) (height : Nat) :
    l.shown height ≠ some id := by
  intro hs
  obtain ⟨contents, hcontents⟩ := h.known height id hs
  cases hnew.symm.trans hcontents

variable (hbalanced : l.Balanced)

include hbalanced

theorem Audited.start {parentHash : B256} (hnew : l.executed id = none)
    (hrep : l.lifecycle.delivery = .realtime → l.Replaceable blockNumber id)
    (hok : l.lifecycle.start sequence id blockNumber parentHash = (s', .ok out)) :
    l.Books (l.book s' (Function.update l.executed id (some 0)) out) sequence out := by
  have hplaced := h.placed.start (h.not_stored hnew)
    (fun height hp => h.not_shown hnew height (h.shown height id hp))
    sequence blockNumber parentHash
  rw [hok] at hplaced
  have hothers : ∀ other, other ≠ id →
      Function.update l.executed id (some 0) other = l.executed other :=
    fun other hne => update_of_ne hne ..
  obtain ⟨_, ⟨hrealtime, rfl, hout⟩ | ⟨hmode, rfl, rfl⟩⟩ := start_eq_ok hok
  · refine ⟨h.show rfl hothers (update_self ..) hplaced rfl (fun other stored hp _ => hp)
      (hrep hrealtime) rfl (fun stored hp => ?_) (fun active ha => .inr ?_), ?_⟩
    · cases (h.not_stored hnew).symm.trans hp
    · cases ha
      exact ⟨hrealtime, rfl, rfl, rfl, rfl, Option.some_ne_none _, h.not_shown hnew⟩
    refine h.consistent_of_show rfl hothers (update_self ..) hbalanced (hrep hrealtime) none
      (some parentHash) .realtime [] [_] ?_ rfl (fun log hlog => nomatch hlog) (fun _ => ?_)
      (fun height _ hs => absurd hs (h.not_shown hnew height))
      (.inr ⟨rfl, .inr ⟨_, rfl, rfl, rfl⟩⟩)
    · rw [hout, map_nil, append_nil]
      rfl
    · rw [if_neg (h.not_shown hnew blockNumber)]
      rfl
  · have hshows : l.shows { l.lifecycle with
        active := some ⟨id, blockNumber, parentHash, 0, [], 0, none⟩ } = l.shown :=
      shows_of_published h.shown
    refine ⟨h.touch rfl hothers (update_self ..) hplaced rfl (fun other stored hp _ => hp) hshows
      (fun _ _ _ hs => hs) (fun other stored _ => h.final other stored)
      (fun stored hp => ?_) (fun active ha => .inr ?_),
      Audited.consistent_of_quiet hbalanced hshows rfl (fun height other hs => hothers other ?_)
        fun event hin => nomatch hin⟩
    · cases (h.not_stored hnew).symm.trans hp
    · cases ha
      exact ⟨rfl, fun log hlog => absurd hlog not_mem_nil, fun _ => rfl,
        fun hrealtime => absurd hrealtime hmode, fun _ => h.not_shown hnew⟩
    · rintro rfl
      exact h.not_shown hnew height hs

variable {recordBlock : Option Nat}

/-- The executing proposal logs something. -/
theorem Audited.log {transactionIndex sourceSubIndex : Nat} {address : Address} {topics : List B256}
    {data : List UInt8} {active : ActiveProposal} (hactive : l.lifecycle.active = some active)
    {executed' : B256 → Option (Multiset LogContent)}
    (hexecuted' : executed' = Function.update l.executed active.id ((l.executed active.id).map
      ((active.logOf sequence transactionIndex sourceSubIndex address topics data).content ::ₘ ·)))
    (hok :
      l.lifecycle.log sequence recordBlock transactionIndex sourceSubIndex address topics data =
      (s', .ok out)) :
    l.Books (l.book s' executed' out) sequence out := by
  have hplaced := h.placed.log sequence recordBlock transactionIndex sourceSubIndex address topics
    data
  rw [hok] at hplaced
  obtain ⟨active', hactive', hs', hout⟩ := log_eq_ok hok
  cases hactive.symm.trans hactive'
  obtain ⟨contents, hcontents, hmem, hwhole⟩ := h.active active hactive
  -- what a successful log record changes, whether its log is kept or not
  have hframe : s'.published = l.lifecycle.published ∧ s'.proposals = l.lifecycle.proposals ∧
      s'.delivery = l.lifecycle.delivery ∧
      s'.emitRemovedLogs = l.lifecycle.emitRemovedLogs ∧
      ∃ after, s'.active = some after ∧ after.id = active.id ∧
        after.blockNumber = active.blockNumber ∧
        after.publishedCommitment = active.publishedCommitment ∧
        (after.logs = active.logs ∧ l.lifecycle.emitRemovedLogs ≠ true ∨ after.logs = active.logs ++
            [active.logOf sequence transactionIndex sourceSubIndex address topics data]) := by
    rcases hs' with ⟨hkeeps, rfl⟩ | ⟨_, _, _, _, rfl⟩
    · exact ⟨rfl, rfl, rfl, rfl, _, rfl, rfl, rfl, rfl, .inl ⟨rfl, (not_not.mp hkeeps).2⟩⟩
    · exact ⟨rfl, rfl, rfl, rfl, _, rfl, rfl, rfl, rfl, .inr rfl⟩
  obtain ⟨hpublished, hproposals, hdelivery, hemit, after, hafter, hid, hnumber, hcommitment,
    hlogs⟩ := hframe
  have hself : executed' active.id = some
      ((active.logOf sequence transactionIndex sourceSubIndex address topics data).content
        ::ₘ contents) := by
    rw [hexecuted', update_self, hcontents]
    rfl
  have hothers : ∀ other, other ≠ active.id → executed' other = l.executed other := by
    intro other hne
    rw [hexecuted', update_of_ne hne]
  have hshown : l.shows s' = l.shown :=
    shows_of_published fun height id hp => h.shown height id (hpublished ▸ hp)
  refine ⟨h.touch hemit hothers hself hplaced hdelivery (fun other stored hp _ => hproposals ▸ hp)
    hshown (fun _ _ _ hs => hs) (fun other stored _ => h.final other stored)
    (fun stored hp => ?_) (fun active' ha => .inr ?_), ?_⟩
  · cases (h.placed.active active hactive).1.symm.trans (hproposals ▸ hp)
  · cases hafter.symm.trans ha
    rw [hnumber, hcommitment, hpublished]
    refine ⟨hid, fun log hlog => ?_, fun he => ?_, ?_, ?_⟩
    · rcases hlogs with ⟨heq, _⟩ | heq
      · exact Multiset.mem_cons_of_mem (hmem log (heq ▸ hlog))
      rw [heq] at hlog
      rcases mem_append.mp hlog with hold | hlast
      · exact Multiset.mem_cons_of_mem (hmem log hold)
      rw [mem_singleton.mp hlast]
      exact Multiset.mem_cons_self _ _
    · rcases hlogs with ⟨_, hoff⟩ | heq
      · exact absurd he hoff
      rw [heq, hwhole he, map_append, Multiset.cons_coe]
      exact Quotient.sound (perm_append_singleton ..).symm
    · exact h.realtime active hactive
    · exact h.hidden active hactive
  · by_cases hmode : l.lifecycle.delivery = .realtime
    · obtain ⟨hp, _, hplace⟩ := h.realtime active hactive hmode
      have hs : l.shown active.blockNumber = some active.id := h.shown _ _ hp
      have hrep : l.Replaceable active.blockNumber active.id := by
        intro previousId hprevious
        cases hs.symm.trans hprevious
        exact ⟨hp, fun hne => absurd rfl hne⟩
      refine h.consistent_of_show hemit hothers hself hbalanced hrep none none .realtime
        [active.logOf sequence transactionIndex sourceSubIndex address topics data] [] ?_ ?_
        (fun log hlog => ?_) (fun _ => ?_)
        (fun height hheight hother => absurd (hplace height hother) hheight) (.inl hs)
      · rw [hout, if_pos hmode, switchBranch_self hp]
        rfl
      · rw [hpublished, ← hp, update_eq_self]
      · rw [mem_singleton.mp hlog]
        exact ⟨rfl, rfl, Multiset.mem_cons_self _ _⟩
      · rw [if_pos hs, account_of_shown hs hcontents, add_comm]
        rfl
    · rw [if_neg hmode] at hout
      refine Audited.consistent_of_quiet hbalanced hshown hemit (fun height other hs => ?_)
        fun event hin => ?_
      · refine hothers other ?_
        rintro rfl
        exact h.hidden active hactive hmode height hs
      · rw [hout] at hin
        cases hin

/-- The record is accepted and changes nothing. -/
theorem Audited.unchanged : l.Books (l.book l.lifecycle l.executed []) sequence [] := by
  have hshows : l.shows l.lifecycle = l.shown := shows_of_published h.shown
  refine ⟨?_, Audited.consistent_of_quiet hbalanced hshows rfl (fun _ _ _ => rfl) nofun⟩
  rw [book, hshows]
  exact ⟨h.placed, h.shown, h.known, h.stored, h.told, h.final, h.active, h.realtime, h.hidden⟩

theorem Audited.verified (hok : l.lifecycle.verified sequence blockNumber = (s', .ok out)) :
    l.Books (l.book s' l.executed out) sequence out := by
  have hplaced := h.placed.verified sequence blockNumber
  rw [hok] at hplaced
  rcases verified_eq_ok hok with ⟨rfl, rfl⟩ | ⟨id, proposal, hlist, hstored, hfinal, rfl, _, _, heq⟩
  · exact h.unchanged hbalanced
  obtain ⟨contents, hcontents, _⟩ := h.stored id proposal hstored
  obtain ⟨stored, hstored', hnumber, _⟩ :=
    h.placed.listed blockNumber [id] id hlist (mem_singleton_self id)
  cases hstored.symm.trans hstored'
  have hshows : l.shows s' = l.shown := by
    rw [heq]
    exact shows_of_published fun height other hp =>
      h.shown height other (update_none_eq_some.mp hp).2
  subst heq
  refine ⟨h.touch rfl (fun _ _ => rfl) hcontents hplaced rfl
    (fun other stored hp _ => (lookup_erase_eq_some.mp hp).2) hshows (fun _ _ _ hs => hs)
    (fun other stored _ => h.final other stored)
    (fun stored hp => absurd rfl (lookup_erase_eq_some.mp hp).1) (fun active ha => .inl ?_),
    Audited.consistent_of_quiet hbalanced hshows rfl (fun _ _ _ => rfl) fun event hin =>
      ⟨_, mem_singleton.mp hin⟩⟩
  have hne : active.id ≠ id := by
    rintro rfl
    cases (h.placed.active active ha).1.symm.trans hstored
  -- the final proposal was shown at the height, so the executing one is elsewhere
  refine ⟨ha, hne, fun hmode => ?_⟩
  obtain ⟨hp, -, -⟩ := h.realtime active ha hmode
  refine update_none_eq_some.mpr ⟨?_, hp⟩
  rintro rfl
  have hfirst := h.final id proposal hstored hfinal
  rw [hnumber, h.shown _ _ hp] at hfirst
  exact hne (Option.some.inj hfirst)

/-- The executing proposal is complete. -/
theorem Audited.finish {blockHash : B256}
    (hrep : l.lifecycle.delivery = .blockOrdered → ∀ active, l.lifecycle.active = some active →
      l.Replaceable active.blockNumber active.id)
    (hok : l.lifecycle.finish sequence recordBlock blockHash = (s', .ok out)) :
    l.Books (l.book s' l.executed out) sequence out := by
  have hplaced := h.placed.finish sequence recordBlock blockHash
  rw [hok] at hplaced
  obtain ⟨active, hactive, hnew, hcases⟩ := finish_eq_ok hok
  obtain ⟨contents, hcontents, hmem, hwhole⟩ := h.active active hactive
  have hprepared := Prepared.completed l.lifecycle active sequence blockHash
  have hself : (l.lifecycle.completed active sequence blockHash).proposals.lookup active.id =
      some (active.complete sequence blockHash) := lookup_insert _
  have hlogs : ∀ log ∈ (active.complete sequence blockHash).logs,
      log.blockNumber = active.blockNumber ∧ log.content ∈ contents := by
    intro log hlog
    obtain ⟨before, hbefore, rfl⟩ := mem_map.mp hlog
    exact ⟨(h.placed.active active hactive).2.2 before hbefore, hmem before hbefore⟩
  have hall : l.lifecycle.emitRemovedLogs = true →
      contents = ↑((active.complete sequence blockHash).logs.map ExecutionLog.content) := by
    intro he
    rw [hwhole he, ActiveProposal.complete, map_map]
    rfl
  have htold : ∀ height, l.shown height = some active.id →
      (active.complete sequence blockHash).publishedCommitment ≠ none := by
    intro height hs
    by_cases hmode : l.lifecycle.delivery = .realtime
    · exact (h.realtime active hactive hmode).2.1
    · exact absurd hs (h.hidden active hactive hmode height)
  rcases hcases with ⟨hmode, hpublish⟩ | ⟨_, rfl, rfl⟩ | ⟨_, rfl, rfl⟩
  · have hcommitment : Commitment.canonical ≠ .finalized := nofun
    exact h.publish hbalanced hprepared hself hcontents hlogs hall (htold _)
      (hrep hmode active hactive) (fun hc => absurd hc hcommitment) hpublish (.refl _ _) hplaced
  · exact h.write hbalanced hplaced hprepared hcontents hself (fun log hlog => (hlogs log hlog).2)
      hall htold nofun fun _ hin => ⟨_, mem_singleton.mp hin⟩
  · exact h.write hbalanced hplaced hprepared hcontents hself (fun log hlog => (hlogs log hlog).2)
      hall htold nofun nofun

theorem Audited.qc (hrep : ∀ proposal, l.lifecycle.proposals.lookup id = some proposal →
      proposal.state = .proposed → l.Replaceable proposal.blockNumber id)
    (hok : l.lifecycle.qc sequence id blockNumber = (s', .ok out)) :
    l.Books (l.book s' l.executed out) sequence out := by
  have hplaced := h.placed.qc sequence id blockNumber
  rw [hok] at hplaced
  rcases qc_eq_ok hok with ⟨rfl, rfl⟩ | ⟨proposal, hstored, _, hstate, hcases⟩
  · exact h.unchanged hbalanced
  obtain ⟨contents, hcontents, hmem, hwhole⟩ := h.stored id proposal hstored
  have hopen : proposal.state ≠ .finalized := fun hfinal => nomatch hstate.symm.trans hfinal
  have hprepared := Prepared.marked l.lifecycle id proposal .voted sequence
  have hself : (l.lifecycle.marked id proposal .voted sequence).proposals.lookup id =
      some { proposal with state := .voted, lastSequence := sequence } := lookup_insert _
  rcases hcases with ⟨_, rfl, rfl⟩ | ⟨_, hpublish⟩
  · exact h.write hbalanced hplaced hprepared hcontents hself hmem (fun he => hwhole he hopen)
      (fun height hs => h.told height id proposal hs hstored) nofun nofun
  have hcommitment : Commitment.canonical ≠ .finalized := nofun
  exact h.publish hbalanced hprepared hself hcontents
    (fun log hlog => ⟨h.placed.logs id proposal hstored log hlog, hmem log hlog⟩)
    (fun he => hwhole he hopen) (fun hs => h.told _ id proposal hs hstored)
    (hrep proposal hstored hstate) (fun hc => absurd hc hcommitment) hpublish (.refl _ _)
    hplaced

theorem Audited.finalize (hrep : ∀ proposal, l.lifecycle.proposals.lookup id = some proposal →
      l.Replaceable proposal.blockNumber id)
    (hok : l.lifecycle.finalize sequence id blockNumber = (s', .ok out)) :
    l.Books (l.book s' l.executed out) sequence out := by
  rcases finalize_eq_ok hok with ⟨rfl, rfl, _⟩ | ⟨proposal, s₂, candidates,
    hstored, hnumber, hopen, hpublish, _, rfl⟩
  · exact h.unchanged hbalanced
  have hplaced : ProposalLifecycle.Placed (s₂.abandonOthers id blockNumber candidates)
      fun _ _ _ => True :=
    h.placed.finalize_ok hstored (fun _ _ _ _ _ hkeep => hkeep) trivial hok
  obtain ⟨contents, hcontents, hmem, hwhole⟩ := h.stored id proposal hstored
  have hself : (l.lifecycle.marked id proposal .finalized sequence).proposals.lookup id =
      some { proposal with state := .finalized, lastSequence := sequence } :=
    lookup_insert _
  have hshows : s₂.published blockNumber = some id := by
    obtain ⟨proposal', hstored', _, _, _, rfl⟩ := publish_eq_ok hpublish
    cases hself.symm.trans hstored'
    rw [← hnumber]
    exact update_self ..
  exact h.publish hbalanced (.marked l.lifecycle id proposal .finalized sequence) hself hcontents
    (fun log hlog => ⟨h.placed.logs id proposal hstored log hlog, hmem log hlog⟩)
    (fun he => hwhole he hopen) (fun hs => h.told _ id proposal hs hstored)
    (hrep proposal hstored) (fun _ => rfl) hpublish (.abandonOthers hshows candidates) hplaced

end

/-! ### Runs -/

variable {record : Record}

/-- A record that the condition admits, in a synchronized lifecycle. -/
theorem Audited.handle (h : Audited l) (hbalanced : l.Balanced)
    (hsync : l.lifecycle.synchronized = true) (hadmits : l.Admits record)
    (hok : l.lifecycle.handle record = (s', .ok out)) :
    l.Books (l.book s' (l.executes record) out) record.sequence out := by
  obtain ⟨_, hcondition⟩ := hadmits
  obtain ⟨sequence, recordBlock, input⟩ := record
  cases input with
  | start id blockNumber parentHash => exact h.start hbalanced hcondition.1 hcondition.2 hok
  | finish blockHash => exact h.finish hbalanced hcondition hok
  | qc id blockNumber => exact h.qc hbalanced hcondition hok
  | finalized id blockNumber => exact h.finalize hbalanced hcondition hok
  | verified blockNumber => exact h.verified hbalanced hok
  | fatal | reject => cases hok
  | skippedLog =>
    have hplaced := h.placed.nextLogIndex recordBlock
    unfold ProposalLifecycle.handle at hok
    dsimp only at hok
    split at hok
    · cases hok
    next s₁ counted hnext =>
      rw [hnext] at hplaced
      cases hok
      obtain ⟨active, hactive, _, hcounted, rfl⟩ := nextLogIndex_eq_ok hnext
      have hshows : l.shows { l.lifecycle with active := some counted.1 } = l.shown :=
        shows_of_published h.shown
      obtain ⟨contents, hcontents, hmem, hwhole⟩ := h.active active hactive
      refine ⟨h.touch rfl (fun _ _ => rfl) hcontents hplaced rfl (fun other stored hp _ => hp)
        hshows (fun _ _ _ hs => hs) (fun other stored _ => h.final other stored)
        (fun stored hp => ?_) (fun after hafter => .inr ?_),
        Audited.consistent_of_quiet hbalanced hshows rfl (fun _ _ _ => rfl) nofun⟩
      · cases (h.placed.active active hactive).1.symm.trans hp
      cases hafter
      rw [hcounted]
      exact ⟨rfl, hmem, hwhole, h.realtime active hactive, h.hidden active hactive⟩
  | log transactionIndex sourceSubIndex address topics data =>
    obtain ⟨active, hactive, _⟩ := log_eq_ok hok
    refine h.log hbalanced hactive ?_ hok
    unfold executes
    rw [hsync, hactive]
  | ignore =>
    cases hok
    exact h.unchanged hbalanced

theorem Ledger.step_of_ok (h : l.lifecycle.process record = (s', .ok out)) :
    l.step record = l.book s' (l.executes record) out := by
  unfold step
  rw [h]

theorem Audited.step (h : Audited l) (hbalanced : l.Balanced)
    (hadmits : l.Admits record) (hok : l.lifecycle.process record = (s', .ok out)) :
    l.Books (l.step record) record.sequence out := by
  rw [step_of_ok hok]
  unfold process at hok
  split at hok
  next hsync => exact h.handle hbalanced hsync hadmits hok
  next hsync =>
    obtain ⟨sequence, recordBlock, input⟩ := record
    dsimp only at hok
    split at hok
    · cases hok
    next id blockNumber parentHash =>
      -- the first start is handled as any other, once the lifecycle is synchronized
      have hfirst : Audited { l with lifecycle := { l.lifecycle with synchronized := true } } :=
        ⟨⟨h.placed.published, h.placed.listed, h.placed.logs, h.placed.active⟩, h.shown, h.known,
          h.stored, h.told, h.final, h.active, h.realtime, h.hidden⟩
      obtain ⟨haudited, hconsistent⟩ := hfirst.start hbalanced hadmits.2.1 hadmits.2.2 hok
      exact ⟨haudited, hconsistent.change, hconsistent.reorgs, hconsistent.logs,
        hconsistent.balance⟩
    next hfatal hstart =>
      cases hok
      have hexecutes : l.executes ⟨sequence, recordBlock, input⟩ = l.executed := by
        unfold executes
        dsimp only
        split
        next id blockNumber parentHash => exact absurd rfl (hstart id blockNumber parentHash)
        · split
          next hsynchronized _ => exact absurd hsynchronized hsync
          · rfl
        · rfl
      rw [hexecutes]
      exact h.unchanged hbalanced

/-- In every run whose records the condition admits, each record that the condition admits switches
between proposals with one reorganization, applies logs of the proposal that is shown only, and
leaves a balanced account. -/
theorem publication_consistent {delivery : MonadDeliveryMode} {emitRemovedLogs : Bool}
    {limits : LifecycleLimits} {l : Ledger}
    (hrun : Run step Ledger.Admits (start (.new delivery emitRemovedLogs limits)) l)
    {record : Record} (hadmits : l.Admits record) {s' : ProposalLifecycle}
    {out : List ExecutionEvent} (hok : l.lifecycle.process record = (s', .ok out)) :
    Consistent l (l.step record) record.sequence out := by
  have hkept : Audited l ∧ l.Balanced := by
    refine hrun.invariant (P := fun l => Audited l ∧ l.Balanced)
      ⟨.initial delivery emitRemovedLogs limits, fun _ _ => rfl⟩ fun l record h hadmits => ?_
    obtain ⟨s', out, hok⟩ := hadmits.1
    obtain ⟨haudited, hconsistent⟩ := h.1.step h.2 hadmits hok
    exact ⟨haudited, hconsistent.balance⟩
  exact (hkept.1.step hkept.2 hadmits hok).2

/-! ### One run on either side of the condition -/

/-- The log of a record in the runs below. -/
def someLog (transactionIndex : Nat) : LifecycleInput := .log transactionIndex 0 7 [] []

/-- Proposal 1 has logged once, is complete and shown at height 5. -/
def completeAtFive : Ledger :=
  (((Ledger.start (.new .realtime true ⟨8, 8, 8⟩)).step ⟨1, some 5, .start 1 5 0⟩).step
    ⟨2, some 5, someLog 0⟩).step ⟨3, some 5, .finish 101⟩

/-- Proposal 2 executes at the height of the complete proposal 1, which it has replaced. -/
def openAtFive : Ledger :=
  (completeAtFive.step ⟨4, some 5, .start 2 5 0⟩).step ⟨5, some 5, someLog 1⟩

theorem Ledger.accepts_of_emitted (out : List ExecutionEvent)
    (h : l.lifecycle.emitted record = some out) : l.Accepts record := by
  obtain ⟨s', hok⟩ := exists_of_emitted h
  exact ⟨s', out, hok⟩

theorem completeAtFive_run : Run step Ledger.Admits
    (start (.new .realtime true ⟨8, 8, 8⟩)) completeAtFive := by
  refine .more (.more (.more .refl ⟨?_, rfl, ?_⟩) ⟨?_, trivial⟩) ⟨?_, ?_⟩
  · exact accepts_of_emitted [.head ⟨1, 5, none, some 0, .realtime⟩] (by decide +kernel)
  · exact fun _ previousId hs => nomatch hs
  · exact accepts_of_emitted [.log ⟨2, 0, 5, none, 0, 0, 7, [], [], false, .realtime⟩]
      (by decide +kernel)
  · exact accepts_of_emitted [.head ⟨3, 5, some 101, some 0, .realtime⟩] (by decide +kernel)
  · intro hmode
    exact absurd hmode (by decide +kernel)

/-- The start of proposal 2 takes the complete proposal 1 back. -/
def takeBack : List ExecutionEvent :=
  [.log ⟨4, 0, 5, some 101, 0, 0, 7, [], [], true, .realtime⟩,
    .reorg ⟨3, 5, some 101, some 0, .realtime⟩ ⟨4, 5, none, some 0, .realtime⟩,
    .head ⟨4, 5, none, some 0, .realtime⟩]

theorem publication_consistent_start :
    ∃ s', completeAtFive.lifecycle.process ⟨4, some 5, .start 2 5 0⟩ = (s', .ok takeBack) ∧
      Consistent completeAtFive (completeAtFive.step ⟨4, some 5, .start 2 5 0⟩) 4 takeBack := by
  have hemitted : completeAtFive.lifecycle.emitted ⟨4, some 5, .start 2 5 0⟩ = some takeBack := by
    decide +kernel
  obtain ⟨s', hok⟩ := exists_of_emitted hemitted
  have hshown : completeAtFive.shown 5 = some 1 := by decide +kernel
  have hpublished : completeAtFive.lifecycle.published 5 = some 1 := by decide +kernel
  have hstored : ((completeAtFive.lifecycle.proposals.lookup 1).map Proposal.state) =
      some .proposed := by decide +kernel
  have hadmits : completeAtFive.Admits ⟨4, some 5, .start 2 5 0⟩ := by
    refine ⟨⟨s', _, hok⟩, by decide +kernel, fun _ previousId hs => ?_⟩
    cases hshown.symm.trans hs
    obtain ⟨previous, hprevious, hstate⟩ := Option.map_eq_some_iff.mp hstored
    exact ⟨hpublished, fun _ =>
      ⟨previous, hprevious, fun hfinal => nomatch hstate.symm.trans hfinal⟩⟩
  exact ⟨s', hok, publication_consistent completeAtFive_run hadmits hok⟩

theorem openAtFive_run : Run step Ledger.Accepts
    (start (.new .realtime true ⟨8, 8, 8⟩)) openAtFive := by
  refine .more (.more (completeAtFive_run.weaken fun _ _ h => h.1) ?_) ?_
  · exact accepts_of_emitted takeBack (by decide +kernel)
  · exact accepts_of_emitted [.log ⟨5, 0, 5, none, 1, 0, 7, [], [], false, .realtime⟩]
      (by decide +kernel)

/-- A quorum certificate of proposal 1 shows it again in the place of proposal 2, which is still
executing: no reorganization is emitted and the log of proposal 2 is not removed. -/
theorem open_proposal_not_taken_back :
    Run step Ledger.Accepts (start (.new .realtime true ⟨8, 8, 8⟩)) openAtFive ∧
      ∃ s' out, openAtFive.lifecycle.process ⟨6, some 5, .qc 1 5⟩ = (s', .ok out) ∧
        openAtFive.shown 5 = some 2 ∧ (openAtFive.step ⟨6, some 5, .qc 1 5⟩).shown 5 = some 1 ∧
        (∀ oldHead newHead, .reorg oldHead newHead ∉ out) ∧
        ¬ (openAtFive.step ⟨6, some 5, .qc 1 5⟩).Balanced ∧
        ¬ Consistent openAtFive (openAtFive.step ⟨6, some 5, .qc 1 5⟩) 6 out := by
  have hemitted : openAtFive.lifecycle.emitted ⟨6, some 5, .qc 1 5⟩ = some
      [.log ⟨2, 0, 5, some 101, 0, 0, 7, [], [], false, .canonical⟩,
        .head ⟨6, 5, some 101, some 0, .canonical⟩] := by decide +kernel
  obtain ⟨s', hok⟩ := exists_of_emitted hemitted
  have hbalance : ¬ (openAtFive.step ⟨6, some 5, .qc 1 5⟩).Balanced := by
    intro hbalanced
    have hfive := hbalanced (by decide +kernel) 5
    revert hfive
    decide +kernel
  refine ⟨openAtFive_run, s', _, hok, by decide +kernel, by decide +kernel, ?_, hbalance,
    fun hconsistent => hbalance hconsistent.balance⟩
  intro oldHead newHead hin
  rcases mem_cons.mp hin with heq | hin
  · cases heq
  · cases mem_singleton.mp hin

end Lunarbase.Monad
