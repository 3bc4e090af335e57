import Lunarbase.Client.Outstanding
import Lunarbase.Client.Rollback

/-!
# Client — Discontinuity

No quote is admitted across a source discontinuity (`no_admission_across_discontinuity`): from the
termination of a stream until a recovery has dealt with its `Gap` and installed a snapshot, the
admission word admits nothing.

It takes two conditions on the runs.  The reducer must not get a lease for an ordinary segment
while the source is active again and the `Gap` of an earlier stream still waits behind the segment:
with that lease the updates from before the `Gap` open admission again
(`stale_segment_reopens_admission`).  And the versions of the word and of the recovery signal must
not run out.
-/

namespace Lunarbase.Client

open Lease (Guards)
open Availability List Option Reducer

namespace Runtime

/-! ### Steps of the reducer -/

/-- A discontinuity is never taken as an update. -/
theorem applyCoreUpdateBorrowed_of_control (env : Platform)
    (bytes : ImageCost) (ix : QuoteIndexer) {update : ChainUpdate}
    (hordinary : ordinaryCursor update = none) (hcorrection : ∀ c, update ≠ .correction c) :
    (ix.applyCoreUpdateBorrowed env bytes update).2 ≠ .ok () := by
  cases update with
  | head block | log log => exact absurd hordinary (by simp [ordinaryCursor])
  | correction c => exact absurd rfl (hcorrection c)
  | reorg oldHead newHead | gap cursor reason =>
    intro hok
    cases hok

variable {s : Runtime} {reducer : Reducer} {signal : RecoverySignal} {stage stage' : RecoveryStage}
  {queue : List QueuedUpdate}

section

variable (h : Safe s)

include h

theorem Safe.placedAt (hreducer : s.reducer = reducer) : { s with reducer := reducer }.Placed := by
  subst hreducer
  exact h.stage

/-- A step of the reducer that drops no report. -/
theorem Safe.reduce {word : Token} (indexer : QuoteIndexer)
    (hleases : Leases word (s.outstanding = []) (s.pump.held ++ admissions queue ++
      admissions reducer.queued ++ reducer.tokens ++ s.watchdog.held))
    (hplaced : reported s.queue ++ reported s.reducer.queued ++ s.reducer.controlledReports ⊆
      reported queue ++ reported reducer.queued ++ reducer.controlledReports ++ s.signal.reported)
    (hquiet : reducer.isRecovering = false → s.reducer.isRecovering = false) (hstage : { s with
      availability := word, queue := queue, reducer := reducer, indexer := indexer }.Placed) :
    Safe { s with
      availability := word, queue := queue, reducer := reducer, indexer := indexer } := by
  refine ⟨hleases, ?_, fun hr => h.quiet (hquiet hr), h.silent, hstage⟩
  intro n hn
  have hold := h.placed hn
  have hnew := @hplaced n
  simp only [places, mem_append] at hold hnew ⊢
  tauto

/-- The reducer and the queue hold the same updates as before, and no new token. -/
theorem Safe.rearrange
    (hitems : ∀ item, item ∈ queue ++ reducer.queued ↔ item ∈ s.queue ++ s.reducer.queued)
    (htokens : reducer.tokens ⊆ s.reducer.tokens)
    (hcontrolled : s.reducer.controlledReports ⊆ reducer.controlledReports ++ s.signal.reported)
    (hquiet : reducer.isRecovering = false → s.reducer.isRecovering = false)
    (hstage : { s with queue := queue, reducer := reducer }.Placed) :
    Safe { s with queue := queue, reducer := reducer } := by
  refine h.reduce s.indexer ?_ ?_ hquiet hstage
  · refine h.leases.subset fun token => ?_
    have hadmissions : admissions (queue ++ reducer.queued) ⊆
        admissions (s.queue ++ s.reducer.queued) :=
      filterMap_subset _ fun item hitem => (hitems item).mp hitem
    have hmem := @hadmissions token
    have htoken := @htokens token
    simp only [held, admissions_append, mem_append] at hmem ⊢
    tauto
  intro n
  have hreported : reported (s.queue ++ s.reducer.queued) ⊆ reported (queue ++ reducer.queued) :=
    filterMap_subset _ fun item hitem => (hitems item).mpr hitem
  have hmem := @hreported n
  have hn := @hcontrolled n
  simp only [reported_append, mem_append] at hmem hn ⊢
  tauto

theorem Safe.collect (visible : Nat) : Safe (s.collect visible) := by
  unfold Runtime.collect
  split
  next first pending hreducer =>
    obtain ⟨happend, hcollected⟩ := collectLiveSegment_eq first visible s.queue
    refine h.rearrange ?_ (nil_subset _) (by rw [hreducer]; exact nil_subset _)
      (fun _ => by rw [hreducer]; rfl) hcollected
    intro item
    have hmem := congrArg (item ∈ ·) happend
    simp only [hreducer, queued, mem_append, mem_cons, eq_iff_iff] at hmem ⊢
    tauto
  next hreducer =>
    split
    · exact h
    next first rest hqueue =>
      obtain ⟨happend, hcollected⟩ := collectLiveSegment_eq first visible rest
      refine h.rearrange ?_ (nil_subset _) (by rw [hreducer]; exact nil_subset _)
        (fun _ => by rw [hreducer]; rfl) hcollected
      intro item
      have hmem := congrArg (item ∈ ·) happend
      simp only [hreducer, hqueue, queued, mem_append, mem_cons,
        not_mem_nil, eq_iff_iff] at hmem ⊢
      tauto
  · exact h

/-- The reducer goes on with the same updates in its hands, and no new token. -/
structure Continues (old new : Reducer) : Prop where
  queued : new.queued = old.queued
  tokens : new.tokens ⊆ old.tokens
  controlled : new.controlledReports = old.controlledReports
  recovering : new.isRecovering = old.isRecovering

theorem Safe.proceed {old : Reducer} (hreducer : s.reducer = old) (hsame : Continues old reducer)
    (hstage : { s with reducer := reducer }.Placed) : Safe { s with reducer := reducer } := by
  subst hreducer
  refine h.rearrange (fun item => by rw [hsame.queued]) hsame.tokens ?_ (fun hr => ?_) hstage
  · rw [hsame.controlled]
    exact subset_append_left _ _
  · rw [← hsame.recovering]
    exact hr

theorem Safe.observe : Safe s.observe := by
  unfold Runtime.observe
  split
  next segment pending hreducer =>
    have hstage := h.placedAt hreducer
    by_cases hactive : s.sourceActive = true
    · rw [if_pos hactive]
      exact h.proceed hreducer ⟨rfl, nil_subset _, rfl, rfl⟩ hstage
    · rw [if_neg hactive]
      exact h.proceed hreducer ⟨rfl, by simp [tokens], rfl, rfl⟩ hstage
  next stage hreducer =>
    have hstage := h.placedAt hreducer
    by_cases hactive : s.sourceActive = true
    · rw [if_pos hactive]
      exact h.proceed hreducer ⟨rfl, nil_subset _, rfl, rfl⟩ hstage
    · rw [if_neg hactive]
      exact h.proceed hreducer ⟨rfl, nil_subset _, rfl, rfl⟩ hstage
  · exact h

theorem Safe.sample : Safe s.sample := by
  unfold Runtime.sample
  split
  next segment pending hreducer =>
    have hstage := h.placedAt hreducer
    exact h.proceed hreducer ⟨rfl, nil_subset _, rfl, rfl⟩ ⟨hstage, le_rfl⟩
  next stage hreducer =>
    have hstage := h.placedAt hreducer
    exact h.proceed hreducer ⟨rfl, nil_subset _, rfl, rfl⟩ ⟨hstage.1, le_rfl⟩
  · exact h

/-- With no `Gap` waiting behind an ordinary segment, an active source has no termination
outstanding. -/
theorem Safe.clear_of_leasable {segment pending : List QueuedUpdate} {token : Token}
    (hreducer : s.reducer = .sampled segment pending token) (hleasable : s.leasable = true)
    (hordinary : isOrdinary segment = true) (hactive : s.sourceActive = true)
    (hcurrent : token.toNat = s.availability.toNat) : s.outstanding = [] := by
  have hstage := h.placedAt hreducer
  have hwaiting : reported (pending ++ s.queue) = [] := by
    simpa [leasable, hreducer, hordinary, hactive, BitVec.eq_of_toNat_eq hcurrent] using hleasable
  have hquiet := (h.quiet (by rw [hreducer]; rfl)).2
  rw [reported_append, append_eq_nil_iff] at hwaiting
  refine eq_nil_iff_forall_not_mem.mpr fun n hn => ?_
  have hplace := h.placed hn
  simp [places, h.silent hactive, hreducer, queued, controlledReports,
    hstage.1.1 hordinary, hwaiting.1, hwaiting.2, hquiet] at hplace

theorem Safe.confirm (hleasable : s.leasable = true) : Safe s.confirm := by
  unfold Runtime.confirm
  split
  next segment pending token hreducer =>
    have hstage := h.placedAt hreducer
    by_cases hlease : isOrdinary segment = true ∧ s.sourceActive = true
    · have hclear := h.clear_of_leasable hreducer hleasable hlease.1 hlease.2
      refine h.reduce s.indexer ?_ ?_ (fun _ => by rw [hreducer]; rfl) hstage.1
      · refine (h.leases.hold ⟨hstage.2, hclear⟩).subset fun token' => ?_
        simp only [held, hreducer, queued, tokens, hlease, if_true,
          mem_append, toList_some, mem_cons]
        tauto
      · rw [hreducer]
        exact subset_append_left _ _
    -- without a lease there is nothing to publish with
    refine h.proceed hreducer ⟨rfl, ?_, rfl, rfl⟩ hstage.1
    rw [tokens]
    split
    next hordinary =>
      rw [if_neg fun hactive => hlease ⟨hordinary, hactive⟩]
      exact nil_subset _
    · exact nil_subset _
  next stage token hreducer =>
    have hstage := h.placedAt hreducer
    by_cases hactive : s.sourceActive = true
    · rw [if_pos hactive]
      refine h.proceed hreducer ⟨rfl, nil_subset _, rfl, rfl⟩
        ⟨hstage.1, hstage.2, fun _ n hn => ?_⟩
      have hplace := h.placed hn
      simp only [places, h.silent hactive, hreducer, queued,
        controlledReports, mem_append, not_mem_nil] at hplace
      simp only [RecoveryStage.reported, mem_append]
      tauto
    · rw [if_neg hactive]
      exact h.proceed hreducer ⟨rfl, nil_subset _, rfl, rfl⟩ ⟨hstage.1, trivial⟩
  · exact h

/-- The reducer goes on while the word moves. -/
theorem Safe.release {word : Token} {old : Reducer} (hreducer : s.reducer = old)
    (hleases : Leases word (s.outstanding = []) s.held) (hsame : Continues old reducer)
    (hstage : { s with availability := word, reducer := reducer }.Placed) :
    Safe { s with availability := word, reducer := reducer } := by
  subst hreducer
  refine h.reduce s.indexer (hleases.subset fun token => ?_) ?_
    (fun hr => hsame.recovering.symm.trans hr) hstage
  · have hmem := @hsame.tokens token
    simp only [held, hsame.queued, mem_append]
    tauto
  · rw [hsame.queued, hsame.controlled]
    exact subset_append_left _ _

section

variable (hversion : hasVersion s.availability = true)

include hversion

/-- Publication priority moves the word and adds a token. -/
theorem Safe.store (indexer : QuoteIndexer) {reducer : Option Token → Reducer}
    (htokens : ∀ publication, admissions (reducer publication).queued ++
      (reducer publication).tokens ⊆
        publication.toList ++ (admissions s.reducer.queued ++ s.reducer.tokens))
    (hreported : ∀ publication, reported s.reducer.queued ++ s.reducer.controlledReports ⊆
      reported (reducer publication).queued ++ (reducer publication).controlledReports)
    (hrecovering : ∀ publication, (reducer publication).isRecovering = s.reducer.isRecovering)
    (hstage : (s.store indexer reducer).Placed) : Safe (s.store indexer reducer) := by
  refine h.reduce indexer ?_ ?_ (fun hr => (hrecovering _).symm.trans hr) hstage
  · refine (h.leases.beginCorrection hversion).subset fun token => ?_
    have hmem := @htokens (beginPublication s.availability).2 token
    simp only [held, beginPublication, mem_append] at hmem ⊢
    tauto
  intro n
  have hmem := @hreported (beginPublication s.availability).2 n
  simp only [mem_append] at hmem ⊢
  tauto

theorem Safe.apply (env : Platform) (bytes : ImageCost) : Safe (s.apply env bytes) := by
  unfold Runtime.apply
  split
  next first rest pending lease hreducer =>
    have hstage := h.placedAt hreducer
    split
    next cursor hcursor =>
      have hordinary : isOrdinary (first :: rest) = true := by
        rw [isOrdinary, hcursor]
        rfl
      split
      · refine h.store hversion _ (fun publication token => ?_) (fun publication n => ?_)
          (fun publication => by rw [hreducer]; rfl) trivial
        · simp only [hreducer, queued, tokens, hordinary, if_true,
            admissions_append, mem_append]
          tauto
        have hnone := hstage.1 hordinary
        simp only [hreducer, queued, controlledReports, reported_append, hnone, nil_append]
        exact id
      · exact h.proceed hreducer ⟨rfl, nil_subset _, rfl, rfl⟩ trivial
    next hcursor =>
      have hordinary : isOrdinary (first :: rest) = false := by
        rw [isOrdinary, hcursor]
        rfl
      have hrest : rest = [] := by
        have hlength := hstage.2 hordinary
        simpa using hlength
      subst hrest
      split
      · -- the admission of a correction leaves its update and is kept beside it
        next c hc =>
        have hreports : first.termination = none := by
          by_contra hsome
          have hgap := first.reports (isSome_iff_ne_none.mpr hsome)
          rw [hc] at hgap
          exact absurd hgap (by simp [ChainUpdate.isGap])
        have hplaced : reported s.queue ++ reported s.reducer.queued ++
            s.reducer.controlledReports ⊆ reported s.queue ++
              reported ({ first with admission := none } :: pending) ++ [] ++
              s.signal.reported := by
          rw [hreducer]
          exact subset_append_left _ _
        split
        next token hadmission =>
          refine h.reduce s.indexer (h.leases.subset fun token' => ?_) hplaced
            (fun _ => by rw [hreducer]; rfl) hreports
          simp only [held, hreducer, queued, tokens, hadmission,
            admissions_cons, cons_append, nil_append, mem_append,
            mem_cons, toList_some, toList_none, not_mem_nil]
          tauto
        next hadmission =>
          have hbegin := h.leases.beginCorrection hversion
          split
          next word token heq =>
            rw [heq] at hbegin
            refine h.reduce s.indexer (hbegin.subset fun token' => ?_) hplaced
              (fun _ => by rw [hreducer]; rfl) hreports
            simp only [held, hreducer, queued, tokens, hadmission,
              admissions_cons, cons_append, nil_append, toList_some,
              mem_append, mem_cons, not_mem_nil]
            tauto
          · refine h.reduce s.indexer (h.leases.subset fun token' => ?_) hplaced
              (fun _ => by rw [hreducer]; rfl) trivial
            simp only [held, hreducer, queued, tokens, hadmission,
              admissions_cons, cons_append, nil_append, append_nil,
              mem_append]
            tauto
      next hcorrection =>
        have herror := applyCoreUpdateBorrowed_of_control env bytes s.indexer hcursor
          hcorrection
        split
        next hok => exact absurd (congrArg Prod.snd hok) herror
        refine h.store hversion _ (fun publication token => ?_) (fun publication n => ?_)
          (fun publication => by rw [hreducer]; rfl) trivial
        · simp only [hreducer, queued, tokens, cons_append, nil_append, mem_append]
          tauto
        · rw [hreducer]
          exact id
  · exact h

/-- The publication priority is given back. -/
theorem Safe.restored {publication : Option Token} (hsub : publication.toList ⊆ s.reducer.tokens) :
    Leases (s.restored publication) (s.outstanding = []) s.held := by
  cases publication with
  | none => exact h.leases
  | some token =>
    refine h.leases.completeCorrection hversion ?_
    have hmem := hsub (mem_singleton_self token)
    simp only [held, mem_append]
    tauto

theorem Safe.completePublication : Safe s.completePublication := by
  unfold Runtime.completePublication
  split
  next pending lease publication hreducer =>
    exact h.release hreducer (h.restored hversion (by simp [hreducer, tokens]))
      ⟨rfl, by simp [tokens], rfl, rfl⟩ trivial
  next queued prior publication hreducer =>
    exact h.release hreducer (h.restored hversion (by simp [hreducer, tokens]))
      ⟨rfl, nil_subset _, rfl, rfl⟩ trivial
  next item pending token publication hreducer =>
    have hstage := h.placedAt hreducer
    exact h.release hreducer (h.restored hversion (by simp [hreducer, tokens]))
      ⟨rfl, by simp [tokens], rfl, rfl⟩ hstage
  next stage lease publication hreducer =>
    have hstage := h.placedAt hreducer
    exact h.release hreducer (h.restored hversion (by simp [hreducer, tokens]))
      ⟨rfl, by simp [tokens], rfl, rfl⟩ hstage
  · exact h

theorem Safe.publishAvailable : Safe s.publishAvailable := by
  unfold Runtime.publishAvailable
  split
  next pending lease hreducer =>
    refine h.release hreducer ?_ ⟨rfl, nil_subset _, rfl, rfl⟩ trivial
    cases lease with
    | none => exact h.leases
    | some token =>
      exact h.leases.publishIf hversion (by simp [held, hreducer, tokens])
  · exact h

theorem Safe.buildCorrection (env : Platform) (bytes : ImageCost) :
    Safe (s.buildCorrection env bytes) := by
  unfold Runtime.buildCorrection
  split
  next item pending token hreducer =>
    have hstage := h.placedAt hreducer
    split
    · split
      · refine h.store hversion _ (fun publication token' => ?_) (fun publication n => ?_)
          (fun publication => by rw [hreducer]; rfl) hstage
        · simp only [hreducer, queued, tokens, mem_append, mem_cons, not_mem_nil]
          tauto
        · rw [hreducer]
          exact id
      · exact h.proceed hreducer ⟨rfl, by simp [tokens], rfl, rfl⟩ hstage
      · exact h.release hreducer (h.leases.failCorrection hversion token)
          ⟨rfl, nil_subset _, rfl, rfl⟩ trivial
    · exact h
  · exact h

theorem Safe.completeCorrection : Safe s.completeCorrection := by
  unfold Runtime.completeCorrection
  split
  next item pending token hreducer =>
    have hstage : item.termination = none := h.placedAt hreducer
    have hmem : token ∈ s.held := by simp [held, hreducer, tokens]
    have hleases := h.leases.completeCorrection hversion hmem
    by_cases hdone : (Availability.completeCorrection s.availability token).2 = true
    · rw [if_pos hdone]
      refine h.reduce s.indexer (hleases.subset fun token' => ?_) (fun n => ?_)
        (fun _ => by rw [hreducer]; rfl) trivial
      · simp only [held, hreducer, queued, tokens, admissions_cons,
          mem_append, mem_cons, not_mem_nil]
        tauto
      · simp only [hreducer, queued, controlledReports, reported_cons, hstage,
          toList_none, mem_append, not_mem_nil]
        tauto
    · rw [if_neg hdone]
      exact h.release hreducer hleases ⟨rfl, nil_subset _, rfl, rfl⟩ trivial
  · exact h

end

end

/-! ### Steps of the recovery -/

theorem SeenControl.mono (h : SeenControl signal stage)
    (hgeneration : stage'.controlGeneration = stage.controlGeneration)
    (hcontrolled : stage'.controlled = stage.controlled) : SeenControl signal stage' := by
  intro generation heq
  rw [hcontrolled]
  exact h generation (hgeneration.symm.trans heq)

/-- A look at the signal sees all of it. -/
theorem SeenControl.mergeControl (h : SeenControl signal stage) :
    signal.reported ⊆ (stage.mergeControl signal).controlled ∧
      stage.controlled ⊆ (stage.mergeControl signal).controlled := by
  obtain ⟨-, -, hcontrolled | ⟨hcontrolled, hseen⟩⟩ := stage.mergeControl_queued signal
  · rw [hcontrolled]
    exact ⟨subset_append_right _ _, subset_append_left _ _⟩
  · rw [hcontrolled]
    exact ⟨(h signal.generation hseen).current rfl, List.Subset.refl _⟩

theorem SeenControl.merged (h : SeenControl signal stage) :
    SeenControl signal (stage.mergeControl signal) := by
  intro generation heq
  obtain rfl : signal.generation = generation :=
    Option.some.inj ((stage.mergeControl_queued signal).2.1.symm.trans heq)
  exact .take h.mergeControl.1

section

variable (h : Safe s)

include h

theorem Safe.beginRecovery : Safe s.beginRecovery := by
  unfold Runtime.beginRecovery
  split
  next queued failedIndex prior hreducer =>
    obtain ⟨hqueued, hcontrolled, hgeneration⟩ :=
      RecoveryStage.newSegment_queued queued failedIndex prior
    refine ⟨?_, ?_, fun hr => absurd hr (by simp [isRecovering]), h.silent, ?_, trivial⟩
    · refine h.leases.subset fun token => ?_
      simp only [held, hreducer, Reducer.queued, Reducer.tokens, hqueued]
      exact id
    · refine List.Subset.trans h.placed fun n => ?_
      simp only [places, hreducer, Reducer.queued, Reducer.controlledReports, hqueued,
        hcontrolled]
      exact id
    · intro generation heq
      rw [hgeneration] at heq
      cases heq
  · exact h

/-- The stage takes in the queue. -/
theorem Safe.takeIn {phase phase' : RecoveryPhase} (hreducer : s.reducer = .recovering stage phase)
    (hqueued : stage'.queued = stage.queued ++ s.queue)
    (hcontrolled : stage.controlled ⊆ stage'.controlled)
    (htokens : (recovering stage' phase').tokens = [])
    (hstage : { s with queue := [], reducer := .recovering stage' phase' }.Placed) :
    Safe { s with queue := [], reducer := .recovering stage' phase' } := by
  refine h.rearrange (fun item => ?_) ?_ ?_ (fun hr => absurd hr (by simp [isRecovering])) hstage
  · simp only [hreducer, queued, hqueued, nil_append, mem_append]
    tauto
  · rw [htokens]
    exact nil_subset _
  · rw [hreducer]
    exact List.Subset.trans hcontrolled (subset_append_left _ _)

theorem Safe.resume : Safe s.resume := by
  unfold Runtime.resume
  split
  next stage hreducer =>
    have hstage := h.placedAt hreducer
    obtain ⟨hqueued, hcontrolled, hgeneration⟩ :=
      (stage.mergeControl s.signal).absorb_queued s.queue
    refine h.takeIn hreducer ?_ ?_ rfl ⟨hstage.1.merged.mono hgeneration hcontrolled, trivial⟩
    · rw [hqueued, (stage.mergeControl_queued s.signal).1]
    rw [hcontrolled]
    exact hstage.1.mergeControl.2
  · exact h

theorem Safe.absorb : Safe s.absorb := by
  unfold Runtime.absorb
  split
  next stage lease hreducer =>
    have hstage := h.placedAt hreducer
    obtain ⟨hqueued, hcontrolled, hgeneration⟩ := stage.absorb_queued s.queue
    refine h.takeIn hreducer hqueued ?_ rfl ⟨hstage.1.mono hgeneration hcontrolled,
      hstage.2.mono fun hin => List.Subset.trans hin fun n => ?_⟩
    · rw [hcontrolled]
      exact List.Subset.refl _
    · simp only [RecoveryStage.reported, hqueued, hcontrolled, reported_append, mem_append]
      tauto
  · exact h

theorem Safe.canonicalHead (head : ChainCursor) : Safe (s.canonicalHead head) := by
  unfold Runtime.canonicalHead
  split
  next stage lease hreducer =>
    have hstage := h.placedAt hreducer
    split
    · obtain ⟨hreported, hadmissions⟩ := stage.setCanonicalHead_reported head
      refine h.reduce s.indexer (h.leases.subset fun token => ?_) (fun n => ?_)
        (fun hr => absurd hr (by simp [isRecovering])) ⟨hstage.1, ?_⟩
      · simp only [held, hreducer, queued, tokens, hadmissions]
        exact id
      · simp only [hreducer, queued, controlledReports, hreported, mem_append]
        tauto
      refine hstage.2.mono fun hin => List.Subset.trans hin fun n => ?_
      simp only [RecoveryStage.reported, hreported]
      exact id
    · exact h
  · exact h

/-- The recovery starts over with the same updates and the same control. -/
theorem Safe.loopBack {phase : RecoveryPhase} (hreducer : s.reducer = .recovering stage phase)
    (halike : stage.Alike stage') : Safe { s with reducer := .recovering stage' .looping } := by
  have hstage := h.placedAt hreducer
  exact h.proceed hreducer ⟨halike.queued, nil_subset _, halike.controlled, rfl⟩
    ⟨hstage.1.mono halike.controlGeneration halike.controlled, trivial⟩

theorem Safe.retry : Safe s.retry := by
  unfold Runtime.retry
  split
  next stage lease hreducer => exact h.loopBack hreducer (.rfl stage)
  · exact h

/-- **The last look before the installation finds every termination in the stage**, as long as the
lease is current. -/
theorem Safe.gather : Safe s.gather := by
  unfold Runtime.gather
  split
  next stage lease hreducer =>
    have hstage := h.placedAt hreducer
    obtain ⟨hqueued, hcontrolled, hgeneration⟩ := stage.absorb_queued s.queue
    have hseen := hstage.1.mono hgeneration hcontrolled
    have hmerged := (stage.absorb s.queue).mergeControl_queued s.signal
    have hkept : stage.controlled ⊆ ((stage.absorb s.queue).mergeControl s.signal).controlled :=
      hcontrolled ▸ hseen.mergeControl.2
    dsimp only
    split
    · exact h.takeIn hreducer (hmerged.1.trans hqueued) hkept rfl ⟨hseen.merged, trivial⟩
    refine h.takeIn hreducer (hmerged.1.trans hqueued) hkept rfl ⟨hseen.merged,
      hstage.2.mono fun hin => List.Subset.trans hin fun n => ?_, ?_⟩
    · have hsub := hseen.mergeControl.1
      have hsignal := @hsub n
      have hn := @hkept n
      simp only [RecoveryStage.reported, hmerged.1, hqueued, reported_append, mem_append]
      tauto
    · rw [hmerged.2.1]
      rfl
  · exact h

variable (hversion : hasVersion s.availability = true)

include hversion

theorem Safe.revoke : Safe s.revoke := by
  unfold Runtime.revoke
  split
  next stage hreducer =>
    have hstage := h.placedAt hreducer
    refine h.reduce _ ((h.leases.revoke hversion).subset fun token => ?_) ?_
      (fun hr => absurd hr (by simp [isRecovering])) ⟨hstage.1, trivial⟩
    · simp only [held, hreducer, queued, tokens]
      exact id
    · rw [hreducer]
      exact subset_append_left _ _
  · exact h

theorem Safe.install (env : Platform) (snapshot : BootstrapSnapshot) (bytes : ImageCost)
    (backfillValid : Bool) : Safe (s.install env snapshot bytes backfillValid) := by
  unfold Runtime.install
  split
  next stage lease hreducer =>
    have hstage := h.placedAt hreducer
    obtain ⟨hseen, hlease, hgeneration⟩ := hstage
    split
    · split
      · -- the lease of the recovery is now worth that nothing is outstanding
        have hdealt : Guards s.availability.toNat
            ((s.outstanding.filter fun n => n ∉ stage.reported) = []) lease.toNat := by
          refine hlease.mono fun hin => filter_eq_nil_iff.mpr fun n hn => ?_
          simpa using hin hn
        have hfewer : Leases s.availability
            ((s.outstanding.filter fun n => n ∉ stage.reported) = []) s.held :=
          h.leases.mono fun hclear => by rw [hclear]; rfl
        refine ⟨((hfewer.hold hdealt).beginCorrection hversion).subset fun token => ?_, ?_,
          fun hr => absurd hr (by simp [Runtime.store, isRecovering]), h.silent, hseen,
          hgeneration⟩
        · simp only [held, Runtime.store, hreducer, queued, tokens,
            beginPublication, mem_append, mem_cons]
          tauto
        intro n hn
        have hplace := h.placed (mem_filter.mp hn).1
        simpa only [places, Runtime.store, hreducer, queued, controlledReports] using hplace
      · exact h.loopBack hreducer stage.requireAllUpdates_alike
    · exact h.loopBack hreducer (.rfl stage)
  · exact h

theorem Safe.publishRecovered : Safe s.publishRecovered := by
  unfold Runtime.publishRecovered
  split
  next stage lease hreducer =>
    have hstage := h.placedAt hreducer
    obtain ⟨hseen, hsome⟩ := hstage
    have hmem : lease ∈ s.held := by simp [held, hreducer, tokens]
    have hleases := h.leases.publishIf hversion hmem
    by_cases hpublished : (publishIf s.availability lease).2 = true
    · have hclear := h.leases.clear_of_current hmem (current_of_publishIf hpublished)
      obtain ⟨generation, hgeneration⟩ := isSome_iff_exists.mp hsome
      rw [if_pos hpublished]
      refine h.release hreducer hleases ⟨rfl, nil_subset _, rfl, rfl⟩ ⟨hseen, ?_, fun _ => ?_⟩
      · rw [RecoveryStage.expectedGeneration, hgeneration]
        exact (hseen generation hgeneration).behind
      · rw [hclear]
        exact nil_subset _
    · have halike := stage.requireAllUpdates_alike
      rw [if_neg hpublished]
      exact h.release hreducer hleases ⟨halike.queued, nil_subset _, halike.controlled, rfl⟩
        ⟨hseen.mono halike.controlGeneration halike.controlled, trivial⟩
  · exact h

/-- **A recovery that ends leaves no termination behind**: those that came after its last look are
still with the pump or in the queue. -/
theorem Safe.finishRecovery : Safe s.finishRecovery := by
  unfold Runtime.finishRecovery
  split
  next stage hreducer =>
    have hstage := h.placedAt hreducer
    obtain ⟨hseen, hleft⟩ := hstage
    rw [RecoverySignal.finishRecovery]
    by_cases hraised : s.signal.generation ≠ stage.expectedGeneration
    · rw [if_pos hraised]
      exact h.loopBack hreducer stage.requireAllUpdates_alike
    rw [if_neg hraised]
    have hsame : stage.expectedGeneration.toNat = s.signal.generation.toNat :=
      congrArg BitVec.toNat (not_not.mp hraised).symm
    have hsub : admissions stage.queued ⊆ s.held := by
      intro token
      simp only [held, hreducer, queued, mem_append]
      tauto
    refine ⟨(h.leases.failAll hversion hsub).subset fun token => ?_, fun n hn => ?_,
      fun _ => ⟨rfl, rfl⟩, h.silent, trivial⟩
    · simp only [held, hreducer, queued, tokens, admissions_nil, mem_append, not_mem_nil]
      tauto
    have hplace := hleft.current hsame hn
    simp only [places, mem_append] at hplace ⊢
    tauto
  · exact h

end

/-! ### Runs -/

theorem Safe.step (env : Platform) (h : Safe s) (action : Action)
    (hcautious : s.cautious action = true) : Safe (s.step env action) := by
  simp only [cautious, Bool.and_eq_true] at hcautious
  obtain ⟨⟨hversion, hgeneration⟩, haction⟩ := hcautious
  cases action with
  | receive update => exact h.receive update
  | beginAdmission correction => exact h.beginAdmission hversion correction
  | send => exact h.send
  | terminate cursor reason => exact h.terminate hversion cursor reason
  | report direct => exact h.report (of_decide_eq_true hgeneration) direct
  | part => exact h.part hversion
  | resubscribe => exact h.resubscribe hversion
  | subscribeFailed reason => exact h.subscribeFailed reason
  | reconnect => exact h.reconnect
  | collect visible => exact h.collect visible
  | observe => exact h.observe
  | sample => exact h.sample
  | confirm => exact h.confirm haction
  | apply bytes => exact h.apply hversion env bytes
  | completePublication => exact h.completePublication hversion
  | publishAvailable => exact h.publishAvailable hversion
  | buildCorrection bytes => exact h.buildCorrection hversion env bytes
  | completeCorrection => exact h.completeCorrection hversion
  | beginRecovery => exact h.beginRecovery
  | revoke => exact h.revoke hversion
  | resume => exact h.resume
  | absorb => exact h.absorb
  | canonicalHead head => exact h.canonicalHead head
  | retry => exact h.retry
  | gather => exact h.gather
  | install snapshot bytes backfillValid =>
    exact h.install hversion env snapshot bytes backfillValid
  | publishRecovered => exact h.publishRecovered hversion
  | finishRecovery => exact h.finishRecovery hversion
  | watchdogSample => exact h.watchdogSample
  | watchdogBegin => exact h.watchdogBegin hversion
  | watchdogFinish unchanged => exact h.watchdogFinish hversion unchanged

/-- The client once `connect` has installed its first snapshot: the loops are about to run, and what
was received meanwhile is in the queue. -/
structure Started (s : Runtime) : Prop where
  running : state s.availability ≠ stopping
  connected : s.pump = .connected
  idle : s.reducer = .idle []
  resting : s.watchdog = .resting
  queue : admissions s.queue = [] ∧ reported s.queue = []
  signal : s.signal.active = false ∧ s.signal.reported = []
  outstanding : s.outstanding = []

theorem Started.safe (h : Started s) : Safe s where
  leases := by
    refine ⟨h.running, fun _ => h.outstanding, fun token ht => ?_⟩
    simp [held, h.connected, h.idle, h.resting, h.queue.1, Pump.held, queued,
      tokens, Watchdog.held] at ht
  placed := by
    rw [h.outstanding]
    exact nil_subset _
  quiet _ := h.signal
  silent _ := by
    rw [h.connected]
    rfl
  stage := by
    unfold Placed
    simp only [h.idle]

end Runtime

/-- **No admission across a discontinuity.**  Whatever the order in which the pump, the reducer and
the watchdog take their steps: while quotes are admitted, every stream termination so far has been
dealt with by an installed recovery. -/
theorem no_admission_across_discontinuity (env : Platform) {start t : Runtime}
    (hstart : start.Started)
    (hrun : Run (Runtime.step env) (fun s action => s.cautious action = true) start t) :
    isAvailable t.availability = true → t.outstanding = [] := by
  have hsafe : t.Safe := hrun.invariant hstart.safe fun s action h hg => h.step env action hg
  exact hsafe.leases.admitted

/-! ### A run through a disconnect, and one that reopens admission too early -/

/-- A ready client. -/
def smallRuntime : Runtime where
  capacity := 4
  indexer := smallStart
  availability := next new ready
  sourceActive := true
  everActive := true
  queue := []
  signal := .default
  pump := .connected
  reducer := .idle []
  watchdog := .resting
  terminations := 0
  outstanding := []

theorem smallRuntime_started : smallRuntime.Started where
  running := by decide
  connected := rfl
  idle := rfl
  resting := rfl
  queue := ⟨rfl, rfl⟩
  signal := ⟨rfl, rfl⟩
  outstanding := rfl

/-- The stream ends and comes back. -/
def disconnect : List Action :=
  [.terminate none "ended", .report false, .part, .resubscribe, .reconnect]

/-- A segment from the queue: its lease, its state, its publication. -/
def segmentTurn : List Action :=
  [.collect 0, .observe, .sample, .confirm, .apply freeImages, .completePublication]

/-- The recovery that follows, from a snapshot of block 1. -/
def recoveryTurn : List Action :=
  [.beginRecovery, .revoke, .resume, .observe, .sample, .confirm, .canonicalHead (blockAt 1 0xb1),
    .gather, .install { smallSnapshot with cursor := blockAt 1 0xb1 } freeImages true,
    .completePublication, .publishRecovered, .finishRecovery]

/-- A head is processed, the stream ends and comes back, and its `Gap` is recovered from. -/
def recoveredRun : List Action :=
  .receive (.head (blockRef 1 0xb1 0xb0)) :: segmentTurn ++ .publishAvailable :: disconnect ++
    segmentTurn ++ recoveryTurn

theorem no_admission_across_discontinuity_recovered :
    let t := recoveredRun.foldl (Runtime.step referencePlatform) smallRuntime
    (state t.availability = ready ∧ t.terminations = 1) ∧ t.outstanding = [] := by
  have hready : state (recoveredRun.foldl (Runtime.step referencePlatform)
      smallRuntime).availability = ready ∧
      (recoveredRun.foldl (Runtime.step referencePlatform) smallRuntime).terminations = 1 := by
    decide +kernel
  refine ⟨hready, no_admission_across_discontinuity referencePlatform smallRuntime_started
    (Run.ofList Runtime.cautious .refl (by decide +kernel)) (decide_eq_true (.inl hready.1))⟩

/-- A head waits in the queue when the stream ends and comes back. -/
def staleRun : List Action :=
  .receive (.head (blockRef 1 0xb1 0xb0)) :: disconnect ++ segmentTurn ++ [.publishAvailable]

/-- **A segment from before a disconnect reopens admission.**  The source is active again when the
reducer takes the old head from the queue, so the lease it gets is the word as the disconnect left
it; the publication with that lease succeeds, with the `Gap` still in the queue. -/
theorem stale_segment_reopens_admission :
    ∃ start t : Runtime, start.Started ∧
      Run (Runtime.step referencePlatform) (fun _ _ => True) start t ∧
      state t.availability = ready ∧ t.outstanding ≠ [] := by
  refine ⟨smallRuntime, staleRun.foldl (Runtime.step referencePlatform) smallRuntime,
    smallRuntime_started, ?_, by decide +kernel, by decide +kernel⟩
  exact Run.foldl .refl _

end Lunarbase.Client
