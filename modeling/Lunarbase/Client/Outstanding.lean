import Lunarbase.Client.Runtime

/-!
# Client — Outstanding

Where the report of a stream termination and the tokens of the admission word are while the client
runs, and the invariant that follows them (`Runtime.Safe`): admission is closed as long as a
termination is outstanding, every outstanding termination is somewhere on its way from the pump to
the recovery stage, and every token is worth, while it is current, that none is outstanding.

Here are the steps of the pump and of the watchdog; those of the reducer are in `Discontinuity`.
-/

namespace Lunarbase.Client

open Lease (Guards)
open Availability List

/-! ### Where terminations and tokens are -/

def Pump.reported : Pump → List Nat
  | .reporting gap => Client.reported [gap]
  | _ => []

def Pump.held : Pump → List Token
  | .admitting _ admission => admission.toList
  | .reporting gap => gap.admission.toList
  | _ => []

def Watchdog.held : Watchdog → List Token
  | .expiring token => [token]
  | _ => []

namespace Reducer

/-- The updates in the reducer's hands. -/
def queued : Reducer → List QueuedUpdate
  | .idle pending => pending
  | .collected segment pending => segment ++ pending
  | .observed segment pending => segment ++ pending
  | .sampled segment pending _ => segment ++ pending
  | .leased segment pending _ => segment ++ pending
  | .stored pending _ _ => pending
  | .progressed pending _ => pending
  | .controlled queued _ _ => queued
  | .correcting item pending _ => item :: pending
  | .correctionStored item pending _ _ => item :: pending
  | .completing item pending _ => item :: pending
  | .failed queued _ _ => queued
  | .recovering stage _ => stage.queued

/-- Terminations the reducer has taken over from the signal. -/
def controlledReports : Reducer → List Nat
  | .recovering stage _ => stage.controlled
  | _ => []

def isRecovering : Reducer → Bool
  | .recovering _ _ => true
  | _ => false

/-- The segment is one of heads and logs. -/
def isOrdinary : List QueuedUpdate → Bool
  | first :: _ => (ordinaryCursor first.update).isSome
  | [] => false

/-- The tokens the reducer may publish with. -/
def tokens : Reducer → List Token
  | .leased segment _ lease => if isOrdinary segment then lease.toList else []
  | .stored _ lease publication => lease.toList ++ publication.toList
  | .progressed _ lease => lease.toList
  | .controlled _ _ publication => publication.toList
  | .correcting _ _ token => [token]
  | .correctionStored _ _ token publication => token :: publication.toList
  | .completing _ _ token => [token]
  | .recovering _ (.installed lease publication) => lease :: publication.toList
  | .recovering _ (.finished lease) => [lease]
  | _ => []

/-- What `collect_live_segment` collects: ordinary updates, none of which is a report, or one
update of another kind. -/
def Collected (segment : List QueuedUpdate) : Prop :=
  (isOrdinary segment = true → reported segment = []) ∧
    (isOrdinary segment = false → segment.length ≤ 1)

end Reducer

theorem QueuedUpdate.termination_of_ordinary {queued : QueuedUpdate}
    (h : (ordinaryCursor queued.update).isSome = true) : queued.termination = none := by
  by_contra hsome
  have hgap := queued.reports (Option.isSome_iff_ne_none.mpr hsome)
  cases hupdate : queued.update with
  | gap cursor reason => simp [hupdate, ordinaryCursor] at h
  | head block => simp [hupdate, ChainUpdate.isGap] at hgap
  | log log | reorg oldHead newHead | correction c => simp [hupdate, ChainUpdate.isGap] at hgap

/-- A segment takes a front of the queue, with the update that ended it behind. -/
theorem joinSegment_eq (identity : ChainCursor) (room : Nat) (updates : List QueuedUpdate) :
    (joinSegment identity room updates).1 ++ ((joinSegment identity room updates).2.2 ++
        (joinSegment identity room updates).2.1) = updates ∧
      reported (joinSegment identity room updates).1 = [] := by
  induction room generalizing updates with
  | zero => exact ⟨rfl, rfl⟩
  | succ room ih =>
    cases updates with
    | nil => exact ⟨rfl, rfl⟩
    | cons next rest =>
      obtain ⟨happend, hreported⟩ := ih rest
      rw [joinSegment]
      split
      next hjoins =>
        have hlog : (ordinaryCursor next.update).isSome = true := by
          cases hupdate : next.update with
          | log log => rfl
          | head block | reorg oldHead newHead => simp [hupdate, ordinaryLogJoins] at hjoins
          | correction c | gap cursor reason => simp [hupdate, ordinaryLogJoins] at hjoins
        refine ⟨congrArg (next :: ·) happend, ?_⟩
        simp [QueuedUpdate.termination_of_ordinary hlog, hreported]
      · exact ⟨rfl, rfl⟩

theorem collectLiveSegment_eq (first : QueuedUpdate) (visible : Nat) (updates : List QueuedUpdate) :
    (collectLiveSegment first visible updates).1 ++
        ((collectLiveSegment first visible updates).2.2 ++
          (collectLiveSegment first visible updates).2.1) = first :: updates ∧
      Reducer.Collected (collectLiveSegment first visible updates).1 := by
  rw [collectLiveSegment]
  cases hcursor : ordinaryCursor first.update with
  | none => exact ⟨rfl, by simp [Reducer.isOrdinary, hcursor], fun _ => le_rfl⟩
  | some identity =>
    obtain ⟨happend, hreported⟩ :=
      joinSegment_eq identity (min visible (maxOrdinarySegmentUpdates - 1)) updates
    have hordinary : (ordinaryCursor first.update).isSome = true := by rw [hcursor]; rfl
    refine ⟨congrArg (first :: ·) happend, fun _ => ?_, fun hnot => ?_⟩
    · simp [QueuedUpdate.termination_of_ordinary hordinary, hreported]
    · exact absurd (hordinary.symm.trans hnot) (by simp)

namespace Runtime

def held (s : Runtime) : List Token :=
  s.pump.held ++ admissions s.queue ++ admissions s.reducer.queued ++ s.reducer.tokens ++
    s.watchdog.held

def places (s : Runtime) : List Nat :=
  s.pump.reported ++ reported s.queue ++ reported s.reducer.queued ++
    s.reducer.controlledReports ++ s.signal.reported

/-! ### The invariant -/

/-- What a recovery has seen of the signal.  As long as no requirement was raised since, it has
seen everything. -/
def SeenControl (signal : RecoverySignal) (stage : RecoveryStage) : Prop :=
  ∀ generation, stage.controlGeneration = some generation →
    Guards signal.generation.toNat (signal.reported ⊆ stage.controlled) generation.toNat

/-- What the reducer relies on where it is: an ordinary segment and a correction report nothing, a
sampled token is not ahead of the word, and the lease of a recovery is worth that every outstanding
termination is on its way into the stage, later that it is in the stage.  Once the recovery has
published, its view of the signal is worth that it leaves no termination behind. -/
def Placed (s : Runtime) : Prop :=
  match s.reducer with
  | .collected segment _ | .observed segment _ | .leased segment _ _ =>
    Reducer.Collected segment
  | .sampled segment _ token =>
    Reducer.Collected segment ∧ token.toNat ≤ s.availability.toNat
  | .correcting item _ _ | .correctionStored item _ _ _ | .completing item _ _ =>
    item.termination = none
  | .recovering stage phase =>
    SeenControl s.signal stage ∧ match phase with
      | .sampled token => token.toNat ≤ s.availability.toNat
      | .leased lease =>
        Guards s.availability.toNat
          (s.outstanding ⊆ stage.reported ++ reported s.queue ++ s.signal.reported) lease.toNat
      | .gathered lease =>
        Guards s.availability.toNat (s.outstanding ⊆ stage.reported) lease.toNat ∧
          stage.controlGeneration.isSome = true
      | .installed _ _ | .finished _ => stage.controlGeneration.isSome = true
      | .published =>
        Guards s.signal.generation.toNat (s.outstanding ⊆ s.pump.reported ++ reported s.queue)
          stage.expectedGeneration.toNat
      | _ => True
  | _ => True

structure Safe (s : Runtime) : Prop where
  leases : Leases s.availability (s.outstanding = []) s.held
  placed : s.outstanding ⊆ s.places
  quiet : s.reducer.isRecovering = false → s.signal.active = false ∧ s.signal.reported = []
  silent : s.sourceActive = true → s.pump.reported = []
  stage : s.Placed

/-! ### The condition on runs -/

/-- No `Gap` waits behind the ordinary segment that is about to be leased with the current token. -/
def leasable (s : Runtime) : Bool :=
  match s.reducer with
  | .sampled segment pending token =>
    !(Reducer.isOrdinary segment && s.sourceActive && token == s.availability) ||
      (reported (pending ++ s.queue)).isEmpty
  | _ => true

/-- The condition under which admission keeps its promise. -/
def cautious (s : Runtime) (action : Action) : Bool :=
  hasVersion s.availability && decide (s.signal.generation.toNat + 1 < 2 ^ 64) && match action with
    | .confirm => s.leasable
    | _ => true

/-! ### Steps of the pump and of the watchdog -/

/-- What the reducer relies on survives what the other loops do. -/
theorem Placed.frame {s s' : Runtime} (h : s.Placed) (hreducer : s'.reducer = s.reducer)
    (hword : s.availability.toNat < s'.availability.toNat ∨
      s'.availability = s.availability ∧ s'.outstanding ⊆ s.outstanding)
    (hqueue : reported s.queue ⊆ reported s'.queue)
    (hsignal : s'.signal = s.signal ∨ s.signal.generation.toNat < s'.signal.generation.toNat ∧
      s.signal.reported ⊆ s'.signal.reported)
    (hleft : s'.signal = s.signal → s.outstanding ⊆ s.pump.reported ++ reported s.queue →
      s'.outstanding ⊆ s'.pump.reported ++ reported s'.queue) : s'.Placed := by
  have hle : ∀ n : Nat, n ≤ s.availability.toNat → n ≤ s'.availability.toNat := by
    intro n hn
    rcases hword with hlt | ⟨heq, -⟩
    · exact hn.trans hlt.le
    rw [heq]
    exact hn
  have hguards : ∀ {P Q : Prop} {n : Nat}, Guards s.availability.toNat P n →
      (s'.outstanding ⊆ s.outstanding → P → Q) → Guards s'.availability.toNat Q n := by
    intro P Q n hg hPQ
    rcases hword with hlt | ⟨heq, hsub⟩
    · exact hg.advance hlt
    rw [heq]
    exact hg.mono (hPQ hsub)
  have hreports : s.signal.reported ⊆ s'.signal.reported := by
    rcases hsignal with heq | ⟨-, hsub⟩
    · rw [heq]
      exact List.Subset.refl _
    · exact hsub
  unfold Placed at h ⊢
  rw [hreducer]
  cases hr : s.reducer with
  | recovering stage phase =>
    simp only [hr] at h ⊢
    obtain ⟨hseen, hphase⟩ := h
    constructor
    · intro generation hgeneration
      rcases hsignal with heq | ⟨hlt, -⟩
      · rw [heq]
        exact hseen generation hgeneration
      · exact (hseen generation hgeneration).advance hlt
    cases phase with
    | sampled token => exact hle _ hphase
    | leased lease =>
      refine hguards hphase fun hsub hP n hn => ?_
      rcases mem_append.mp (hP (hsub hn)) with hstage | hsig
      · rcases mem_append.mp hstage with hin | hq
        · simp [hin]
        · simp [hqueue hq]
      · simp [hreports hsig]
    | gathered lease =>
      exact ⟨hguards hphase.1 fun hsub hP n hn => hP (hsub hn), hphase.2⟩
    | published =>
      rcases hsignal with heq | ⟨hlt, -⟩
      · rw [heq]
        exact hphase.mono (hleft heq)
      · exact hphase.advance hlt
    | revoking | looping | waiting | observed => trivial
    | installed lease publication | finished lease => exact hphase
  | sampled segment pending token =>
    simp only [hr] at h ⊢
    exact ⟨h.1, hle _ h.2⟩
  | idle pending | stored pending lease publication | failed queued failedIndex prior => trivial
  | collected segment pending | correcting item pending token => simpa only [hr] using h
  | observed segment pending | leased segment pending lease => simpa only [hr] using h
  | progressed pending lease | controlled queued prior publication => trivial
  | correctionStored item pending token publication => simpa only [hr] using h
  | completing item pending token => simpa only [hr] using h

variable {s : Runtime}

section

variable (h : Safe s)

include h

/-- An update that carries neither a token nor a report. -/
theorem Safe.enqueue (item : QueuedUpdate) (hadmission : item.admission = none)
    (htermination : item.termination = none) : Safe { s with queue := s.queue ++ [item] } where
  leases := by simpa [held, hadmission] using h.leases
  placed := by simpa [places, htermination] using h.placed
  quiet := h.quiet
  silent := h.silent
  stage := by
    refine h.stage.frame rfl (.inr ⟨rfl, List.Subset.refl _⟩) ?_ (.inl rfl) ?_
    · simp
    intro _ hleft
    simpa [htermination] using hleft

theorem Safe.receive (update : ChainUpdate) : Safe (s.receive update) := by
  unfold Runtime.receive
  split
  · split
    · exact h.enqueue _ rfl rfl
    · exact h
  · split
    · split
      · exact h.enqueue _ rfl rfl
      · exact h
    · exact h
  · exact h

theorem Safe.send : Safe s.send := by
  unfold Runtime.send
  split
  next correction admission hpump =>
    split
    · refine ⟨?_, ?_, h.quiet, fun _ => rfl, ?_⟩
      · refine h.leases.subset ?_
        intro token
        simp only [held, Pump.held, hpump, admissions_append, admissions_cons, admissions_nil,
          mem_append, append_nil, not_mem_nil]
        tauto
      · simpa [places, Pump.reported, hpump] using h.placed
      · refine h.stage.frame rfl (.inr ⟨rfl, List.Subset.refl _⟩) ?_ (.inl rfl) ?_
        · simp
        · simp [Pump.reported, hpump]
    · exact h
  · exact h

theorem Safe.report (hgeneration : s.signal.generation.toNat + 1 < 2 ^ 64)
    (direct : Bool) : Safe (s.report direct) := by
  unfold Runtime.report
  split
  next gap hpump =>
    cases direct with
    | false =>
      rw [if_neg Bool.false_ne_true]
      split
      · refine ⟨?_, ?_, h.quiet, fun _ => rfl, ?_⟩
        · refine h.leases.subset fun token => ?_
          simp only [held, Pump.held, hpump, admissions_append, admissions_cons,
            admissions_nil, mem_append, append_nil, not_mem_nil]
          tauto
        · refine List.Subset.trans h.placed fun n => ?_
          simp only [places, Pump.reported, hpump, reported_append, mem_append, not_mem_nil]
          tauto
        · refine h.stage.frame rfl (.inr ⟨rfl, List.Subset.refl _⟩) ?_ (.inl rfl) ?_
          · simp
          intro _ hleft
          refine List.Subset.trans hleft fun n => ?_
          simp only [Pump.reported, hpump, reported_append, mem_append, not_mem_nil]
          tauto
      · exact h
    | true =>
      rw [if_pos rfl]
      rcases hpublish : s.signal.publishRequirementIfActive gap with ⟨signal, published⟩
      cases published with
      | false => exact h
      | true =>
        obtain ⟨hactive, -, hnext, hreported⟩ :=
          RecoverySignal.publishRequirementIfActive_eq_true hpublish
        have hlt : s.signal.generation.toNat < signal.generation.toNat := by
          have hone : (1 : BitVec 64).toNat = 1 := rfl
          rw [hnext, BitVec.toNat_add, hone]
          omega
        refine ⟨?_, ?_, ?_, fun _ => rfl, ?_⟩
        · refine h.leases.subset fun token => ?_
          simp only [held, Pump.held, hpump, mem_append, not_mem_nil]
          tauto
        · refine List.Subset.trans h.placed fun n => ?_
          simp only [places, Pump.reported, hpump, hreported, mem_append, not_mem_nil]
          tauto
        · -- requirements are raised during a recovery only
          intro hrecovering
          exact absurd (hactive.symm.trans (h.quiet hrecovering).1) (by simp)
        · refine h.stage.frame rfl (.inr ⟨rfl, List.Subset.refl _⟩) (List.Subset.refl _)
            (.inr ⟨hlt, ?_⟩) ?_
          · rw [hreported]
            exact subset_append_left _ _
          · intro hsame
            exact absurd (congrArg (·.generation.toNat) hsame) hlt.ne'
  · exact h

/-- The pump goes on with nothing in its hands. -/
theorem Safe.withPump {pump : Pump} (active ever : Bool) (hheld : pump.held = s.pump.held)
    (hnone : pump.reported = []) (hreported : s.pump.reported = []) :
    Safe { s with sourceActive := active, everActive := ever, pump := pump } := by
  refine ⟨?_, ?_, h.quiet, fun _ => hnone, ?_⟩
  · simpa only [held, hheld] using h.leases
  · simpa only [places, hnone, hreported] using h.placed
  refine h.stage.frame rfl (.inr ⟨rfl, List.Subset.refl _⟩) (List.Subset.refl _) (.inl rfl)
    fun _ hleft => ?_
  simpa only [hnone, hreported] using hleft

theorem Safe.subscribeFailed (reason : String) : Safe (s.subscribeFailed reason) := by
  unfold Runtime.subscribeFailed
  split
  next hpump =>
    split
    · exact h.withPump s.sourceActive s.everActive (by rw [hpump]; rfl) rfl (by rw [hpump]; rfl)
    · exact h.withPump s.sourceActive s.everActive (by rw [hpump]; rfl) rfl (by rw [hpump]; rfl)
  · exact h

theorem Safe.reconnect : Safe s.reconnect := by
  unfold Runtime.reconnect
  split
  next hpump => exact h.withPump true true (by rw [hpump]; rfl) rfl (by rw [hpump]; rfl)
  · exact h

/-- A step of the watchdog. -/
theorem Safe.withWatchdog {word : Token} {watchdog : Watchdog}
    (hleases : Leases word (s.outstanding = [])
      (s.pump.held ++ admissions s.queue ++ admissions s.reducer.queued ++ s.reducer.tokens ++
        watchdog.held)) (hmoved : Moved s.availability word) :
    Safe { s with availability := word, watchdog := watchdog } := by
  refine ⟨hleases, h.placed, h.quiet, h.silent, ?_⟩
  refine h.stage.frame rfl ?_ (List.Subset.refl _) (.inl rfl) fun _ hleft => hleft
  rcases hmoved with hsame | hlt
  · exact .inr ⟨hsame, List.Subset.refl _⟩
  · exact .inl hlt

theorem Safe.watchdogSample : Safe s.watchdogSample := by
  unfold Runtime.watchdogSample
  split
  · exact h
  refine h.withWatchdog (h.leases.subset fun token => ?_) (.inl rfl)
  simp only [held, Watchdog.held, mem_append, append_nil]
  tauto

section

variable (hversion : hasVersion s.availability = true)

include hversion

theorem Safe.beginAdmission (correction : ChainCorrection) :
    Safe (s.beginAdmission correction) := by
  unfold Runtime.beginAdmission
  split
  next hpump =>
    refine ⟨?_, ?_, h.quiet, fun _ => rfl, ?_⟩
    · refine (h.leases.beginCorrection hversion).subset ?_
      simp [held, Pump.held, hpump, append_assoc]
    · simpa [places, Pump.reported, hpump] using h.placed
    refine h.stage.frame rfl ?_ (List.Subset.refl _) (.inl rfl) ?_
    · rcases beginCorrection_moved hversion with hsame | hlt
      · exact .inr ⟨hsame, List.Subset.refl _⟩
      · exact .inl hlt
    · simp [Pump.reported, hpump]
  · exact h

/-- **A termination outdates every lease**, and its report is with the pump. -/
theorem Safe.terminate (cursor : Option ChainCursor) (reason : String) :
    Safe (s.terminate cursor reason) := by
  unfold Runtime.terminate
  split
  next hpump =>
    refine ⟨?_, ?_, h.quiet, fun hactive => absurd hactive (by simp [markSourceInactive]), ?_⟩
    · refine (h.leases.invalidateSourceLease hversion _).subset ?_
      simp [held, Pump.held, hpump, markSourceInactive]
    · intro n hn
      rcases mem_append.mp hn with hold | hnew
      · have := h.placed hold
        simp only [places, Pump.reported, hpump, nil_append] at this
        simp only [places, markSourceInactive, append_assoc, mem_append] at this ⊢
        exact .inr this
      · simp [places, Pump.reported, mem_singleton.mp hnew]
    · refine h.stage.frame rfl (.inl (lt_invalidateSourceLease hversion h.leases.running))
        (List.Subset.refl _) (.inl rfl) ?_
      intro _ hleft n hn
      rcases mem_append.mp hn with hold | hnew
      · have := hleft hold
        simp only [Pump.reported, hpump, nil_append] at this
        exact mem_append_right _ this
      · simp [Pump.reported, mem_singleton.mp hnew]
  · exact h

/-- A mark of inactivity changes the word and the activity, and nothing that is kept somewhere. -/
theorem Safe.markInactive {pump : Pump} (hheld : pump.held = s.pump.held)
    (hreported : pump.reported = s.pump.reported) :
    Safe { s.markSourceInactive with pump := pump } := by
  refine ⟨?_, ?_, h.quiet, fun hactive => absurd hactive (by simp [markSourceInactive]), ?_⟩
  · refine (h.leases.invalidateSourceLease hversion _).subset fun token => ?_
    simp only [held, hheld, markSourceInactive]
    exact id
  · simpa only [places, hreported, markSourceInactive] using h.placed
  · refine h.stage.frame rfl (.inl (lt_invalidateSourceLease hversion h.leases.running))
      (List.Subset.refl _) (.inl rfl) fun _ hleft => ?_
    simpa only [hreported, markSourceInactive] using hleft

theorem Safe.part : Safe s.part := by
  unfold Runtime.part
  split
  next hpump => exact h.markInactive hversion (by rw [hpump]; rfl) (by rw [hpump]; rfl)
  · exact h

theorem Safe.resubscribe : Safe s.resubscribe := by
  unfold Runtime.resubscribe
  split
  next hpump => exact h.markInactive hversion (by rw [hpump]; rfl) (by rw [hpump]; rfl)
  · exact h

theorem Safe.watchdogBegin : Safe s.watchdogBegin := by
  unfold Runtime.watchdogBegin
  split
  next token hwatchdog =>
    refine h.withWatchdog ((h.leases.beginExpiration hversion token).subset ?_)
      (beginExpiration_moved hversion token)
    cases (beginExpiration s.availability token).2 with
    | none => simp [held, Watchdog.held, hwatchdog]
    | some expiring =>
      intro token'
      simp only [held, Watchdog.held, hwatchdog, mem_append, Option.toList_some,
        mem_singleton, not_mem_nil]
      tauto
  · exact h

theorem Safe.watchdogFinish (unchanged : Bool) : Safe (s.watchdogFinish unchanged) := by
  unfold Runtime.watchdogFinish
  split
  next token hwatchdog =>
    have hmem : token ∈ s.held := by simp [held, Watchdog.held, hwatchdog]
    refine h.withWatchdog
      ((h.leases.finishExpiration hversion hmem unchanged).subset fun token' => ?_)
      (finishExpiration_moved hversion token unchanged)
    simp only [held, Watchdog.held, mem_append, append_nil]
    tauto
  · exact h

end

end

end Runtime

end Lunarbase.Client
