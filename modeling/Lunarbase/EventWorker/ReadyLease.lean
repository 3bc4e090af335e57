import Lunarbase.EventWorker.Readiness

/-!
# EventWorker — ReadyLease

Readiness and the lease it was published for.  Outside of `mark_inactive` and `publish_ready_if` a
worker that reports ready has published the lease that is current (`Reported`).

`publish_ready_if` compares the lease, stores `true` and compares again.  A stream that ends between
the first comparison and the store, and a reconnect after it, make the worker ready for a lease
that is gone, until the second comparison takes it back (`ready_after_reconnect`).  If no lease is
revoked between the two, readiness is only ever published for the lease of the last connect, after
a recovery that began when all earlier gaps had been processed (`readiness_follows_lease`).

The word has a version of 63 bits.  Between the sample of a lease and its publication no gap is
processed and the queue is bounded, so that the word cannot come round to the same version.
-/

namespace Lunarbase.EventWorker

open Client (u32Max)
open List BitVec Bool Nat

/-! ### Versions -/

theorem isActiveLease_iff {word : BitVec 64} : isActiveLease word = true ↔ word.toNat % 2 = 1 := by
  have hmod : (word &&& 1).toNat = word.toNat % 2 := by
    exact and_two_pow_sub_one_eq_mod word.toNat 1
  rw [isActiveLease, decide_eq_true_iff, ← toNat_inj, hmod]
  rfl

theorem toNat_advanceSourceActivity (word : BitVec 64) (active : Bool) :
    (advanceSourceActivity word active).toNat =
      (2 * (word.toNat / 2 + 1) + (if active then 1 else 0)) % 2 ^ 64 := by
  have hmask : (~~~1 : BitVec 64) = BitVec.allOnes 64 <<< 1 := by decide
  have hflag : (if active then 1 else 0 : BitVec 64).toNat = if active then 1 else 0 := by
    cases active <;> rfl
  have hlt : (if active then 1 else 0 : Nat) < 2 ^ 1 := by
    cases active <;> decide
  have hbase : (((word + 2) >>> 1) <<< 1 : BitVec 64).toNat =
      2 ^ 1 * ((word.toNat + 2) % 2 ^ 64 / 2) := by
    simp
    omega
  rw [advanceSourceActivity, hmask, ← shiftLeft_ushiftRight, toNat_or, hbase, hflag,
    ← two_pow_add_eq_or_of_lt hlt]
  have hword := word.isLt
  split <;> omega

/-- The next version, with the flag. -/
theorem advanceSourceActivity_version (word : BitVec 64) (active : Bool) :
    (advanceSourceActivity word active).toNat / 2 = (word.toNat / 2 + 1) % 2 ^ 63 ∧
      isActiveLease (advanceSourceActivity word active) = active := by
  have htoNat := toNat_advanceSourceActivity word active
  constructor
  · rw [htoNat]
    cases active <;> simp <;> omega
  · rw [Bool.eq_iff_iff, isActiveLease_iff, htoNat]
    cases active <;> simp

/-! ### The pump -/

namespace PumpPc

/-- Inside `mark_inactive`, with readiness still to be taken back. -/
def unreadying : PumpPc → Bool
  | .unready _ => true
  | _ => false

/-- The lease is revoked, and no other one was taken. -/
def revoked : PumpPc → Bool
  | .unready _ | .deactivate _ | .subscribe | .connect => true
  | _ => false

/-- The permits of the byte budget that the pump holds itself. -/
def held : PumpPc → Nat
  | .reserve queued | .waitSlot queued | .count queued | .enqueue queued => queued.permits
  | _ => 0

/-- How often the word was advanced at most since the last Gap, in a cycle of the pump. -/
def spent : PumpPc → Nat
  | .revoke .pause => 0
  | .unready .pause | .deactivate .pause | .pause | .top | .revoke .subscribe => 1
  | .unready .subscribe | .deactivate .subscribe | .subscribe | .connect => 2
  | .activate | .consume | .revoke (.send _ _) => 3
  | .unready (.send _ _) | .deactivate (.send _ _) | .revoke .exit => 4
  | .unready .exit | .deactivate .exit | .stopped => 5
  | .acquire queued | .waitBytes queued | .reserve queued | .waitSlot queued | .count queued
  | .enqueue queued => if queued.isGap then 4 else 3

theorem spent_le (pc : PumpPc) : pc.spent ≤ 5 := by
  unfold spent
  split <;> first | split <;> decide | decide

theorem of_awaits {pc : PumpPc} (h : pc.awaits = true) :
    pc.unreadying = false ∧ pc.spent ≤ (revoke .exit).spent := by
  cases pc with
  | acquire queued | waitBytes queued | reserve queued | waitSlot queued =>
    refine ⟨rfl, ?_⟩
    simp only [spent]
    split <;> decide
  | top | subscribe | consume | pause => exact ⟨rfl, by decide⟩
  | revoke _ | unready _ | deactivate _ | connect | activate | count _ | enqueue _ | stopped =>
    cases h

end PumpPc

/-- The gaps among these updates. -/
def gapsIn (updates : List SourceUpdate) : Nat := updates.countP SourceUpdate.isGap

namespace Tasks

variable {bounds : QueueBounds} {s s' : Tasks}

/-- What a step of the pump may do. -/
inductive PumpMoves (bounds : QueueBounds) (s : Tasks) : Tasks → Prop where
  | rests : PumpMoves bounds s s
  | goes {old pc : PumpPc} {everActive ready active : Bool} {depth : Nat} (hpc : s.pump = old)
      (hready : ready = true → s.ready = true ∧ old.unreadying = false)
      (hrevoked : pc.revoked = true → old.revoked = true)
      (hever : s.everActive = true → everActive = true ∧ old.spent ≤ pc.spent)
      (hconnect : pc = .connect → everActive = true)
      (hheld : pc.held ≤ old.held ∨ pc.held + s.queuedPermits ≤ bounds.sourceQueueByteBound) :
      PumpMoves bounds s { s with
        pump := pc, everActive := everActive, ready := ready, active := active
        sourceQueueDepth := depth }
  | revokes {next : Next} (hpc : s.pump = .revoke next) :
      PumpMoves bounds s { s.advance false with pump := .unready next }
  | connects (hpc : s.pump = .connect) :
      PumpMoves bounds s { s.advance true with
        issued := (s.advance true).sourceActivity
        gapsAtConnect := s.gapsEnqueued
        pump := .activate }
  | enqueues {queued : SourceUpdate} (hpc : s.pump = .enqueue queued) :
      PumpMoves bounds s { s.enqueue queued with
        pump := if queued.isGap then .revoke .pause else .consume }

/-- A step of `send` that only moves on. -/
theorem PumpMoves.sends {old pc : PumpPc} {ready : Bool} {depth : Nat} (hpc : s.pump = old)
    (hready : ready = true → s.ready = true) (hold : old.unreadying = false)
    (hpcs : pc.revoked = false ∧ pc ≠ .connect) (hspent : old.spent ≤ pc.spent)
    (hheld : pc.held ≤ old.held ∨ pc.held + s.queuedPermits ≤ bounds.sourceQueueByteBound) :
    PumpMoves bounds s { s with pump := pc, ready := ready, sourceQueueDepth := depth } :=
  .goes hpc (fun h => ⟨hready h, hold⟩) (fun h => absurd h (by simp [hpcs.1]))
    (fun h => ⟨h, hspent⟩) (fun h => absurd h hpcs.2) hheld

theorem pumpStep_moves (bounds : QueueBounds) (s : Tasks) (input : PumpInput) :
    PumpMoves bounds s (s.pumpStep bounds input) := by
  have hdown : ∀ {P : Prop}, false = true → P := fun h => by cases h
  unfold pumpStep
  split
  next hpc => exact .sends hpc id rfl ⟨rfl, by simp⟩ le_rfl (.inl le_rfl)
  next hpc => exact .revokes hpc
  next next hpc =>
    refine .goes hpc hdown (fun _ => rfl) (fun h => ⟨h, ?_⟩) (fun h => by cases h) (.inl le_rfl)
    cases next <;> exact le_rfl
  next next hpc =>
    refine .goes hpc (fun h => ⟨h, rfl⟩) (fun _ => rfl) (fun h => ⟨h, ?_⟩) (fun h => ?_) ?_
    · cases next with
      | send queued terminal => simp [Next.pc, PumpPc.spent, terminal]
      | subscribe | pause | exit => exact le_rfl
    · cases next <;> cases h
    · cases next <;> exact .inl le_rfl
  next hpc =>
    exact .goes hpc (fun h => ⟨h, rfl⟩) (fun _ => rfl) (fun _ => ⟨rfl, le_refl 2⟩)
      (fun _ => rfl) (.inl (le_refl 0))
  next hpc =>
    split
    · refine .sends hpc id rfl ⟨rfl, by simp⟩ ?_ (.inl le_rfl)
      simp only [PumpPc.spent]
      split <;> decide
    next hnever =>
      exact .goes hpc (fun h => ⟨h, rfl⟩) (fun _ => rfl) (fun h => absurd h hnever)
        (fun h => by cases h) (.inl le_rfl)
  next hpc => exact .connects hpc
  next hpc =>
    exact .goes hpc (fun h => ⟨h, rfl⟩) (fun h => by cases h) (fun h => ⟨h, le_refl 3⟩)
      (fun h => by cases h) (.inl (le_refl 0))
  next hpc =>
    dsimp only
    split
    · exact .sends hpc id rfl ⟨rfl, by simp⟩ le_rfl (.inl le_rfl)
    refine .sends hpc id rfl ⟨rfl, by simp⟩ ?_ (.inl le_rfl)
    simp only [PumpPc.spent]
    split <;> decide
  next hpc =>
    split
    next hroom => exact .sends hpc id rfl ⟨rfl, by simp⟩ le_rfl (.inr hroom)
    · exact .sends hpc hdown rfl ⟨rfl, by simp⟩ le_rfl (.inl le_rfl)
  next hpc =>
    split
    next hroom => exact .sends hpc id rfl ⟨rfl, by simp⟩ le_rfl (.inr hroom)
    · exact .rests
  next hpc =>
    split
    · exact .sends hpc id rfl ⟨rfl, by simp⟩ le_rfl (.inl le_rfl)
    · exact .sends hpc hdown rfl ⟨rfl, by simp⟩ le_rfl (.inl le_rfl)
  next hpc =>
    split
    · exact .sends hpc id rfl ⟨rfl, by simp⟩ le_rfl (.inl le_rfl)
    · exact .rests
  next hpc => exact .sends hpc id rfl ⟨rfl, by simp⟩ le_rfl (.inl le_rfl)
  next hpc => exact .enqueues hpc
  next hpc => exact .sends hpc id rfl ⟨rfl, by simp⟩ le_rfl (.inl le_rfl)
  next pc _ =>
    split
    next hawaits =>
      obtain ⟨hunready, hspent⟩ := PumpPc.of_awaits hawaits
      exact .sends rfl id hunready ⟨rfl, by simp⟩ hspent (.inl (zero_le _))
    · exact .rests
  · exact .rests

end Tasks

/-! ### The drive loop -/

namespace DrivePc

/-- The lease the loop works with. -/
def attempt : DrivePc → Option Attempt
  | .sampled a | .backfill a | .drain a | .drained a | .askActive a | .askQueues a | .load a
  | .store a | .reload a | .unpublish a | .live a | .handling _ a _ => some a
  | _ => none

/-- The update that was taken from the queue and is not processed yet. -/
def inHand : DrivePc → List SourceUpdate
  | .handling _ _ queued => [queued]
  | _ => []

/-- The recovery found the queue empty. -/
def emptied : DrivePc → Bool
  | .drained _ | .askActive _ | .askQueues _ | .load _ | .store _ | .reload _ | .unpublish _
  | .live _ | .handling false _ _ => true
  | _ => false

/-- The recovery succeeded. -/
def recovered : DrivePc → Bool
  | .drained _ => false
  | pc => pc.emptied

/-- Inside `publish_ready_if`, after the store. -/
def publishing : DrivePc → Bool
  | .reload _ | .unpublish _ => true
  | _ => false

theorem of_attempt_eq_none {pc : DrivePc} (h : pc.attempt = none) :
    pc.inHand = [] ∧ pc.emptied = false ∧ pc.recovered = false := by
  cases pc <;> first | exact ⟨rfl, rfl, rfl⟩ | cases h

theorem inHand_length_le (pc : DrivePc) : pc.inHand.length ≤ 1 := by
  cases pc <;> simp [inHand]

end DrivePc

namespace Tasks

variable {bounds : QueueBounds} {s s' : Tasks}

/-- What a step of the drive loop may do. -/
inductive DriveMoves (s : Tasks) : Tasks → Prop where
  | rests : DriveMoves s s
  | goes {old pc : DrivePc} {ready : Bool} (hpc : s.drive = old)
      (hready : ready = true → s.ready = true ∧ (old.publishing = true → pc.publishing = true))
      (hattempt : pc.attempt = none ∨ pc.attempt = old.attempt)
      (hinHand : pc.inHand = [] ∧ old.inHand = [])
      (hemptied : pc.emptied = true → old.emptied = true)
      (hrecovered : pc.recovered = true → old.recovered = true)
      (hload : ∀ a, pc = .store a → s.sourceActivity = a.lease ∧ isActiveLease a.lease = true)
      (hreload : ∀ a, pc ≠ .reload a) : DriveMoves s { s with drive := pc, ready := ready }
  | samples (hpc : s.drive = .sample) (hactive : isActiveLease s.sourceActivity = true) :
      DriveMoves s { s with drive := .sampled (s.attemptFor s.sourceActivity) }
  | takes {recovering : Bool} {a : Attempt} {queued : SourceUpdate} {rest : List SourceUpdate}
      (hpc : s.drive = .drain a ∧ recovering = true ∨ s.drive = .live a ∧ recovering = false)
      (hqueue : s.queue = queued :: rest) : DriveMoves s (s.take recovering a queued rest)
  | goesOn {recovering : Bool} {a : Attempt} {queued : SourceUpdate}
      (hpc : s.drive = .handling recovering a queued) (hgap : queued.isGap = false) :
      DriveMoves s { s with drive := if recovering then .drain a else .askActive a }
  | interrupts {recovering : Bool} {a : Attempt} {queued : SourceUpdate} {handled : Handled}
      (hpc : s.drive = .handling recovering a queued) :
      DriveMoves s ({ s with
        gapsProcessed := s.gapsProcessed + (if queued.isGap then 1 else 0) }.interrupt handled)
  | empties {a : Attempt} (hpc : s.drive = .drain a) (hqueue : s.queue = []) :
      DriveMoves s { s with drive := .drained a }
  | recovers {a : Attempt} (hpc : s.drive = .drained a) :
      DriveMoves s { s with gapsRecovered := a.processed, drive := .askActive a }
  | stores {a : Attempt} (hpc : s.drive = .store a) :
      DriveMoves s { s.setReady true with published := a.lease, drive := .reload a }
  | confirms {a : Attempt} (hpc : s.drive = .reload a) (hcurrent : s.sourceActivity = a.lease) :
      DriveMoves s { s with drive := .live a }

variable {old pc : DrivePc}

/-- Back to the top, to sleep, or out: the lease is dropped. -/
theorem DriveMoves.leaves {ready : Bool} (hpc : s.drive = old)
    (hready : ready = true → s.ready = true ∧ old.publishing = false) (hold : old.inHand = [])
    (hattempt : pc.attempt = none) : DriveMoves s { s with drive := pc, ready := ready } := by
  have hnew := DrivePc.of_attempt_eq_none hattempt
  refine .goes hpc (fun h => ⟨(hready h).1, fun h' => ?_⟩) (.inl hattempt) ⟨hnew.1, hold⟩
    (fun h => ?_) (fun h => ?_) (fun a h => ?_) (fun a h => ?_)
  · exact absurd h' (by simp [(hready h).2])
  · exact absurd h (by simp [hnew.2.1])
  · exact absurd h (by simp [hnew.2.2])
  · rw [h] at hattempt
    cases hattempt
  · rw [h] at hattempt
    cases hattempt

/-- One step further with the same lease. -/
theorem DriveMoves.steps (hpc : s.drive = old)
    (hold : old.publishing = false ∧ old.inHand = []) (hattempt : pc.attempt = old.attempt)
    (hinHand : pc.inHand = []) (hemptied : pc.emptied = true → old.emptied = true)
    (hrecovered : pc.recovered = true → old.recovered = true)
    (hnew : ∀ a, pc ≠ .store a ∧ pc ≠ .reload a) : DriveMoves s { s with drive := pc } :=
  .goes hpc (fun h => ⟨h, fun h' => absurd h' (by simp [hold.1])⟩) (.inr hattempt)
    ⟨hinHand, hold.2⟩ hemptied hrecovered (fun a h => absurd h (hnew a).1) fun a => (hnew a).2

theorem interrupt_moves {a : Attempt} (hpc : s.drive = .backfill a) (handled : Handled) :
    DriveMoves s (s.interrupt handled) := by
  refine .leaves hpc (fun h => ⟨(and_eq_true_iff.mp h).1, rfl⟩) rfl ?_
  cases handled <;> rfl

theorem driveStep_moves (s : Tasks) (input : DriveInput) : DriveMoves s (s.driveStep input) := by
  have hdown : ∀ {P : Prop}, false = true → P := fun h => by cases h
  unfold driveStep
  split
  next hpc => exact .leaves hpc hdown rfl rfl
  next hpc =>
    split
    · exact .leaves hpc (fun h => ⟨h, rfl⟩) rfl rfl
    · exact .rests
  next hpc => exact .leaves hpc (fun h => ⟨h, rfl⟩) rfl rfl
  next hpc => exact .leaves hpc hdown rfl rfl
  next hpc => exact .leaves hpc (fun h => ⟨h, rfl⟩) rfl rfl
  next hpc =>
    rw [sourceLease]
    by_cases hactive : isActiveLease s.sourceActivity = true
    · rw [if_pos hactive]
      exact .samples hpc hactive
    · rw [if_neg hactive]
      exact .leaves hpc (fun h => ⟨h, rfl⟩) rfl rfl
  next hpc =>
    split
    · exact .steps hpc ⟨rfl, rfl⟩ rfl rfl hdown hdown (by simp)
    · exact .leaves hpc (fun h => ⟨h, rfl⟩) rfl rfl
  next handled hpc =>
    split
    · exact .steps hpc ⟨rfl, rfl⟩ rfl rfl hdown hdown (by simp)
    · exact interrupt_moves hpc handled
  next hpc =>
    split
    next hqueue => exact .empties hpc hqueue
    next queued rest hqueue => exact .takes (.inl ⟨hpc, rfl⟩) hqueue
  next hpc =>
    split
    · exact .recovers hpc
    · exact .leaves hpc (fun h => ⟨h, rfl⟩) rfl rfl
  next hpc => split <;> exact .steps hpc ⟨rfl, rfl⟩ rfl rfl id id (by simp)
  next hpc => split <;> exact .steps hpc ⟨rfl, rfl⟩ rfl rfl id id (by simp)
  next hpc => exact .steps hpc ⟨rfl, rfl⟩ rfl rfl id id (by simp)
  next hpc =>
    split
    · exact .leaves hpc (fun h => ⟨h, rfl⟩) rfl rfl
    next hcurrent =>
      obtain ⟨hsame, hactive⟩ := not_or.mp hcurrent
      refine .goes hpc (fun h => ⟨h, hdown⟩) (.inr rfl) ⟨rfl, rfl⟩ id id ?_ (by simp)
      rintro a ⟨⟩
      exact ⟨not_not.mp hsame, eq_true_of_not_eq_false hactive⟩
  next hpc => exact .stores hpc
  next a hpc =>
    by_cases hcurrent : s.sourceActivity = a.lease
    · rw [if_pos hcurrent]
      exact .confirms hpc hcurrent
    · rw [if_neg hcurrent]
      exact .goes hpc (fun h => ⟨h, id⟩) (.inr rfl) ⟨rfl, rfl⟩ id id (by simp) (by simp)
  next hpc => exact .leaves hpc hdown rfl rfl
  next hpc =>
    split
    · exact .rests
    next queued rest hqueue => exact .takes (.inr ⟨hpc, rfl⟩) hqueue
  next hpc => exact .leaves hpc (fun h => ⟨h, rfl⟩) rfl rfl
  next recovering a queued handled hpc =>
    split
    next hadmits =>
      dsimp only
      split
      next hcontinued =>
        have hgap : queued.isGap = false := by
          rw [hcontinued, SourceUpdate.admits] at hadmits
          simpa using hadmits
        simpa [hgap] using DriveMoves.goesOn hpc hgap
      · exact .interrupts hpc
    · exact .rests
  next hpc => exact .leaves hpc (fun h => ⟨h, rfl⟩) rfl rfl
  next hpc => exact .leaves hpc (fun h => ⟨h, rfl⟩) rfl rfl
  next hpc => exact .leaves hpc hdown rfl rfl
  · exact .rests

/-! ### The report -/

/-- Readiness and the lease it was published for. -/
structure Reported (s : Tasks) : Prop where
  active : s.ready = true → isActiveLease s.published = true
  current : s.ready = true → s.published = s.sourceActivity ∨ s.pump.unreadying = true ∨
    s.drive.publishing = true
  revoked : s.pump.revoked = true → isActiveLease s.sourceActivity = false
  storing : ∀ a, s.drive = .store a → isActiveLease a.lease = true
  stored : ∀ a, s.drive = .reload a → s.published = a.lease

namespace Reported

theorem initial : Reported initial where
  active := fun h => by cases h
  current := fun h => by cases h
  revoked := fun h => by cases h
  storing := fun _ h => by cases h
  stored := fun _ h => by cases h

theorem pump (h : Reported s) (hmoves : PumpMoves bounds s s') : Reported s' := by
  cases hmoves with
  | rests => exact h
  | goes hpc hready hrevoked _ _ _ =>
    subst hpc
    refine ⟨fun hnow => h.active (hready hnow).1, fun hnow => ?_, h.revoked ∘ hrevoked, h.storing,
      h.stored⟩
    obtain ⟨hwas, hnot⟩ := hready hnow
    exact (h.current hwas).imp_right (.imp_left fun hin => absurd hin (by simp [hnot]))
  | revokes hpc =>
    refine ⟨h.active, fun _ => .inr (.inl rfl), fun _ => ?_, h.storing, h.stored⟩
    exact (advanceSourceActivity_version s.sourceActivity false).2
  | connects hpc =>
    refine ⟨h.active, fun hready => ?_, fun hrevoked => (by cases hrevoked), h.storing, h.stored⟩
    -- The word was revoked, so that no lease that was published could be current.
    have hinactive : isActiveLease s.sourceActivity = false := h.revoked (by rw [hpc]; rfl)
    rcases h.current hready with hsame | hunready | hpublishing
    · have hactive := h.active hready
      rw [hsame, hinactive] at hactive
      cases hactive
    · rw [hpc] at hunready
      cases hunready
    · exact .inr (.inr hpublishing)
  | enqueues hpc =>
    refine ⟨h.active, fun hready => ?_, fun hrevoked => ?_, h.storing, h.stored⟩
    · refine (h.current hready).imp_right (.imp_left fun hunready => ?_)
      rw [hpc] at hunready
      cases hunready
    · split at hrevoked <;> cases hrevoked

/-- A step of the drive loop that does not publish. -/
theorem driven (h : Reported s) {pc : DrivePc} {ready : Bool} {queue : List SourceUpdate}
    {depth processed recovered : Nat} (hready : ready = true →
      s.ready = true ∧ (s.drive.publishing = true → pc.publishing = true))
    (hstore : ∀ a, pc = .store a → isActiveLease a.lease = true) (hreload : ∀ a, pc ≠ .reload a) :
    Reported { s with
      drive := pc, ready := ready, queue := queue, sourceQueueDepth := depth
      gapsProcessed := processed, gapsRecovered := recovered } where
  active := fun hnow => h.active (hready hnow).1
  current := fun hnow => (h.current (hready hnow).1).imp_right (.imp_right (hready hnow).2)
  revoked := h.revoked
  storing := hstore
  stored := fun a ha => absurd ha (hreload a)

theorem drive (h : Reported s) (hmoves : DriveMoves s s') : Reported s' := by
  cases hmoves with
  | rests => exact h
  | goes hpc hready _ _ _ _ hload hreload =>
    subst hpc
    exact h.driven hready (fun a ha => (hload a ha).2) hreload
  | samples hpc _ | empties hpc _ | recovers hpc =>
    exact h.driven (fun hnow => ⟨hnow, by simp [hpc, DrivePc.publishing]⟩) (by simp) (by simp)
  | takes hpc _ =>
    refine h.driven (fun hnow => ⟨hnow, ?_⟩) (by simp) (by simp)
    rcases hpc with ⟨hpc, -⟩ | ⟨hpc, -⟩ <;> simp [hpc, DrivePc.publishing]
  | goesOn hpc _ =>
    refine h.driven (fun hnow => ⟨hnow, by simp [hpc, DrivePc.publishing]⟩) ?_ ?_
    · intro a ha
      split at ha <;> cases ha
    · intro a ha
      split at ha <;> cases ha
  | @interrupts _ _ _ handled hpc =>
    refine h.driven (fun hnow => ⟨(and_eq_true_iff.mp hnow).1, ?_⟩) ?_ ?_
    · simp [hpc, DrivePc.publishing]
    · cases handled <;> simp [Handled.pc]
    · cases handled <;> simp [Handled.pc]
  | stores hpc =>
    refine ⟨fun _ => h.storing _ hpc, fun _ => .inr (.inr rfl), h.revoked,
      fun a hstore => (by cases hstore), fun a hreload => ?_⟩
    cases hreload
    rfl
  | confirms hpc hcurrent =>
    exact ⟨h.active, fun _ => .inl ((h.stored _ hpc).trans hcurrent.symm), h.revoked,
      fun a hstore => (by cases hstore), fun a hreload => (by cases hreload)⟩

theorem perform (h : Reported s) (bounds : QueueBounds) (action : TaskAction) :
    Reported (s.perform bounds action) := by
  cases action with
  | pump input => exact h.pump (pumpStep_moves bounds s input)
  | drive input => exact h.drive (driveStep_moves s input)
  | unready =>
    exact ⟨fun hready => (by cases hready), fun hready => (by cases hready), h.revoked, h.storing,
      h.stored⟩

end Reported

/-! ### The books -/

/-- What is known of a lease since it was sampled: the word has advanced at most four times for
each Gap enqueued since, and no Gap has been processed. -/
structure Holds (s : Tasks) (a : Attempt) : Prop where
  ever : s.everActive = true
  version : a.lease.toNat / 2 = a.advances % 2 ^ 63
  since : a.advances ≤ s.advances
  bound : s.advances ≤ a.advances + 4 * (s.gapsEnqueued - a.enqueued) + s.pump.spent
  enqueued : a.enqueued ≤ s.gapsEnqueued
  processed : s.gapsProcessed = a.processed
  connectGaps : a.connectGaps ≤ a.enqueued
  processed_le : a.processed ≤ a.enqueued
  same : s.advances = a.advances → s.gapsAtConnect = a.connectGaps

structure Consistent (bounds : QueueBounds) (s : Tasks) : Prop where
  version : s.sourceActivity.toNat / 2 = s.advances % 2 ^ 63
  issued : isActiveLease s.sourceActivity = true → s.issued = s.sourceActivity ∧ s.everActive = true
  connect : s.pump = .connect → s.everActive = true
  permits : s.pump.held + s.queuedPermits ≤ bounds.sourceQueueByteBound
  gaps : s.gapsEnqueued = s.gapsProcessed + gapsIn (s.drive.inHand ++ s.queue)
  atConnect : s.gapsAtConnect ≤ s.gapsEnqueued
  holds : ∀ a ∈ s.drive.attempt, Holds s a
  emptied : ∀ a ∈ s.drive.attempt, s.drive.emptied = true → a.connectGaps ≤ a.processed
  recovered : ∀ a ∈ s.drive.attempt, s.drive.recovered = true → s.gapsRecovered = a.processed

theorem length_le_permits (updates : List SourceUpdate) :
    updates.length ≤ (updates.map SourceUpdate.permits).sum := by
  induction updates with
  | nil => exact le_rfl
  | cons queued rest ih =>
    have hone : 1 ≤ queued.permits := le_max_right _ _
    rw [length_cons, map_cons, sum_cons]
    omega

namespace Consistent

theorem initial (bounds : QueueBounds) : Consistent bounds initial where
  version := rfl
  issued := fun h => absurd h (by decide)
  connect := fun h => by cases h
  permits := zero_le _
  gaps := rfl
  atConnect := le_rfl
  holds := fun _ h => by cases h
  emptied := fun _ h => by cases h
  recovered := fun _ h => by cases h

variable {a : Attempt} (h : Consistent bounds s)

include h

/-- Since the lease was sampled the word did not come round: a current lease is still the one that
was sampled. -/
theorem advances_eq (ha : a ∈ s.drive.attempt)
    (hcurrent : s.sourceActivity = a.lease) : s.advances = a.advances := by
  have hholds := h.holds a ha
  have hgaps : gapsIn (s.drive.inHand ++ s.queue) ≤ 1 + u32Max := by
    have hcount : gapsIn (s.drive.inHand ++ s.queue) ≤ (s.drive.inHand ++ s.queue).length :=
      countP_le_length
    have hhand := s.drive.inHand_length_le
    have hqueue := length_le_permits s.queue
    have hpermits := h.permits
    have hbound := bounds.byteBound_le
    rw [length_append] at hcount
    rw [queuedPermits] at hpermits
    omega
  have hversion := h.version
  rw [hcurrent, hholds.version] at hversion
  have hspent := s.pump.spent_le
  have hbound := hholds.bound
  have hsince := hholds.since
  have hbooks := h.gaps
  have hprocessed := hholds.processed
  have hle := hholds.processed_le
  rw [u32Max] at hgaps
  omega

/-! The pump -/

/-- The word advances, and the pump has spent one more of what it may between two gaps. -/
theorem holds_advance (ha : a ∈ s.drive.attempt) {pc : PumpPc}
    (hspent : s.pump.spent + 1 ≤ pc.spent) (active : Bool) (issued : BitVec 64) (gaps : Nat) :
    Holds { s.advance active with pump := pc, issued := issued, gapsAtConnect := gaps } a := by
  have hholds := h.holds a ha
  have hbound := hholds.bound
  have hsince := hholds.since
  refine { hholds with since := ?_, bound := ?_, same := fun hsame => ?_ }
  · exact hsince.trans (le_succ _)
  · simp only [advance]
    omega
  · simp only [advance] at hsame
    omega

theorem version_advance (active : Bool) :
    (s.advance active).sourceActivity.toNat / 2 = (s.advance active).advances % 2 ^ 63 := by
  have hversion := h.version
  simp only [advance]
  rw [(advanceSourceActivity_version s.sourceActivity active).1, hversion]
  omega

theorem enqueue {queued : SourceUpdate}
    (hpc : s.pump = .enqueue queued) : Consistent bounds { s.enqueue queued with
      pump := if queued.isGap then .revoke .pause else .consume } := by
  have hpermits := h.permits
  have hgaps := h.gaps
  rw [hpc] at hpermits
  have hqueued : (s.enqueue queued).queuedPermits = s.queuedPermits + queued.permits := by
    simp [queuedPermits, Tasks.enqueue]
  refine ⟨h.version, h.issued, fun hconnect => ?_, ?_, ?_, ?_, fun a ha => ?_, h.emptied,
    h.recovered⟩
  · split at hconnect <;> cases hconnect
  · have hheld : (if queued.isGap then PumpPc.revoke .pause else PumpPc.consume).held = 0 := by
      split <;> rfl
    change _ + (s.enqueue queued).queuedPermits ≤ _
    rw [hheld, hqueued, zero_add, add_comm]
    exact hpermits
  · simp only [Tasks.enqueue, gapsIn, countP_append, countP_singleton] at hgaps ⊢
    omega
  · exact h.atConnect.trans (le_add_right _ _)
  · have hholds := h.holds a ha
    have hbound := hholds.bound
    have henqueued := hholds.enqueued
    rw [hpc] at hbound
    refine { hholds with bound := ?_, enqueued := henqueued.trans (le_add_right _ _) }
    by_cases hgap : queued.isGap = true
    · simp only [PumpPc.spent, hgap, if_true] at hbound
      simp only [Tasks.enqueue, hgap, if_true, PumpPc.spent]
      omega
    · simp only [PumpPc.spent, hgap] at hbound
      simp only [Tasks.enqueue, hgap, PumpPc.spent]
      simpa using hbound

theorem pump (hmoves : PumpMoves bounds s s') : Consistent bounds s' := by
  have hpermits := h.permits
  cases hmoves with
  | rests => exact h
  | goes hpc _ _ hever hconnect hheld =>
    subst hpc
    refine ⟨h.version, fun hactive => ?_, hconnect, ?_, h.gaps, h.atConnect, fun a ha => ?_,
      h.emptied, h.recovered⟩
    · exact ⟨(h.issued hactive).1, (hever (h.issued hactive).2).1⟩
    · change _ + s.queuedPermits ≤ _
      dsimp only
      omega
    · have hholds := h.holds a ha
      obtain ⟨hnow, hspent⟩ := hever hholds.ever
      exact { hholds with ever := hnow, bound := hholds.bound.trans (Nat.add_le_add_left hspent _) }
  | @revokes next hpc =>
    refine ⟨h.version_advance false, fun hactive => ?_, fun hconnect => (by cases hconnect),
      (Nat.add_le_add_right (Nat.zero_le _) _).trans hpermits, h.gaps, h.atConnect,
      fun a ha => h.holds_advance ha ?_ _ _ _, h.emptied, h.recovered⟩
    · have hinactive := (advanceSourceActivity_version s.sourceActivity false).2
      exact absurd hactive (by simp [advance, hinactive])
    · rw [hpc]
      cases next <;> exact le_rfl
  | connects hpc =>
    refine ⟨h.version_advance true, fun _ => ⟨rfl, h.connect hpc⟩,
      fun hconnect => (by cases hconnect), (Nat.add_le_add_right (Nat.zero_le _) _).trans hpermits,
      h.gaps, le_rfl, fun a ha => h.holds_advance ha ?_ _ _ _, h.emptied, h.recovered⟩
    rw [hpc]
    exact le_rfl
  | enqueues hpc => exact h.enqueue hpc

/-! The drive loop -/

section Drive

variable {pc : DrivePc} {ready : Bool} {published : BitVec 64} {queue : List SourceUpdate}
  {depth processed recovered : Nat}

/-- A step of the drive loop, from what it does to the queue and to its lease. -/
theorem ofDrive (hpermits : (queue.map SourceUpdate.permits).sum ≤ s.queuedPermits)
    (hgaps : processed + gapsIn (pc.inHand ++ queue) =
      s.gapsProcessed + gapsIn (s.drive.inHand ++ s.queue))
    (hholds : ∀ a ∈ pc.attempt, Holds { s with gapsProcessed := processed } a)
    (hemptied : ∀ a ∈ pc.attempt, pc.emptied = true → a.connectGaps ≤ a.processed)
    (hrecovered : ∀ a ∈ pc.attempt, pc.recovered = true → recovered = a.processed) :
    Consistent bounds { s with
      drive := pc, ready := ready, published := published, queue := queue
      sourceQueueDepth := depth, gapsProcessed := processed, gapsRecovered := recovered } where
  version := h.version
  issued := h.issued
  connect := h.connect
  permits := (Nat.add_le_add_left hpermits _).trans h.permits
  gaps := h.gaps.trans hgaps.symm
  atConnect := h.atConnect
  holds := fun a ha => { hholds a ha with }
  emptied := hemptied
  recovered := hrecovered

/-- A step that keeps the lease and processes no Gap. -/
theorem keeps (hpermits : (queue.map SourceUpdate.permits).sum ≤ s.queuedPermits)
    (hgaps : gapsIn (pc.inHand ++ queue) = gapsIn (s.drive.inHand ++ s.queue))
    (hattempt : ∀ a ∈ pc.attempt, a ∈ s.drive.attempt)
    (hemptied : pc.emptied = true → s.drive.emptied = true ∨
      ∀ a ∈ s.drive.attempt, a.connectGaps ≤ a.processed)
    (hrecovered : pc.recovered = true → s.drive.recovered = true ∧ recovered = s.gapsRecovered ∨
      ∀ a ∈ s.drive.attempt, recovered = a.processed) :
    Consistent bounds { s with
      drive := pc, ready := ready, published := published, queue := queue
      sourceQueueDepth := depth, gapsRecovered := recovered } := by
  refine h.ofDrive hpermits (by rw [hgaps]) (fun a ha => h.holds a (hattempt a ha))
    (fun a ha hempty => ?_) (fun a ha hdone => ?_)
  · rcases hemptied hempty with hwas | hall
    · exact h.emptied a (hattempt a ha) hwas
    · exact hall a (hattempt a ha)
  · rcases hrecovered hdone with ⟨hwas, rfl⟩ | hall
    · exact h.recovered a (hattempt a ha) hwas
    · exact hall a (hattempt a ha)

end Drive

/-- The recovery finds the queue empty: every Gap was processed, and before the lease was
sampled. -/
theorem connectGaps_le_of_drain (hpc : s.drive = .drain a)
    (hqueue : s.queue = []) : a.connectGaps ≤ a.processed := by
  have hholds := h.holds a (by rw [hpc]; rfl)
  have hconnect := hholds.connectGaps
  have henqueued := hholds.enqueued
  have hprocessed := hholds.processed
  have hgaps := h.gaps
  rw [hpc, hqueue] at hgaps
  simp only [gapsIn, DrivePc.inHand, append_nil, countP_nil] at hgaps
  omega

theorem drive (hmoves : DriveMoves s s') : Consistent bounds s' := by
  cases hmoves with
  | rests => exact h
  | goes hpc _ hattempt hinHand hemptied hrecovered _ _ =>
    subst hpc
    refine h.keeps le_rfl (by rw [hinHand.1, hinHand.2]) (fun a ha => ?_) (.inl ∘ hemptied)
      (fun hdone => .inl ⟨hrecovered hdone, rfl⟩)
    rcases hattempt with hnone | hsame
    · rw [hnone] at ha
      cases ha
    · exact hsame ▸ ha
  | samples hpc hactive =>
    refine h.ofDrive le_rfl (by rw [hpc]; rfl) (fun a ha => ?_)
      (fun a ha hemptied => (by cases hemptied)) (fun a ha hrecovered => (by cases hrecovered))
    cases ha
    refine ⟨(h.issued hactive).2, h.version, le_rfl, ?_, le_rfl, rfl, h.atConnect, ?_, fun _ => rfl⟩
    · exact (le_add_right _ _).trans (le_add_right _ _)
    · exact (le_add_right _ _).trans_eq h.gaps.symm
  | @takes recovering a queued rest hpc hqueue =>
    have hpermits : (rest.map SourceUpdate.permits).sum ≤ s.queuedPermits := by
      simp only [queuedPermits, hqueue, map_cons, sum_cons]
      exact le_add_left _ _
    rcases hpc with ⟨hpc, rfl⟩ | ⟨hpc, rfl⟩
    · exact h.keeps hpermits (by rw [hpc, hqueue]; rfl) (by rw [hpc]; exact fun _ => id)
        (fun hempty => by cases hempty) (fun hdone => by cases hdone)
    · exact h.keeps hpermits (by rw [hpc, hqueue]; rfl) (by rw [hpc]; exact fun _ => id)
        (fun _ => .inl (by rw [hpc]; rfl)) (fun _ => .inl ⟨by rw [hpc]; rfl, rfl⟩)
  | @goesOn recovering a queued hpc hgap =>
    have hgaps : gapsIn s.queue = gapsIn (s.drive.inHand ++ s.queue) := by
      rw [hpc]
      simp [gapsIn, DrivePc.inHand, hgap]
    cases recovering with
    | true =>
      exact h.keeps le_rfl hgaps (by rw [hpc]; exact fun _ => id)
        (fun hempty => by cases hempty) (fun hdone => by cases hdone)
    | false =>
      exact h.keeps le_rfl hgaps (by rw [hpc]; exact fun _ => id)
        (fun _ => .inl (by rw [hpc]; rfl)) (fun _ => .inl ⟨by rw [hpc]; rfl, rfl⟩)
  | @interrupts recovering a queued handled hpc =>
    have hnone : handled.pc.attempt = none ∧ handled.pc.inHand = [] := by
      cases handled <;> exact ⟨rfl, rfl⟩
    have hnever : ∀ {b : Attempt} {P : Prop}, b ∈ handled.pc.attempt → P := by
      intro b P hb
      rw [hnone.1] at hb
      cases hb
    refine h.ofDrive le_rfl ?_ (fun b hb => hnever hb) (fun b hb => hnever hb)
      (fun b hb => hnever hb)
    rw [hpc, hnone.2]
    simp only [gapsIn, DrivePc.inHand, nil_append, singleton_append, countP_cons]
    omega
  | @empties a hpc hqueue =>
    refine h.keeps le_rfl (by rw [hpc]; rfl) (by rw [hpc]; exact fun _ => id)
      (fun _ => .inr fun b hb => ?_) (fun hdone => by cases hdone)
    rw [hpc] at hb
    cases hb
    exact h.connectGaps_le_of_drain hpc hqueue
  | @recovers a hpc =>
    refine h.keeps le_rfl (by rw [hpc]; rfl) (by rw [hpc]; exact fun _ => id)
      (fun _ => .inl (by rw [hpc]; rfl)) (fun _ => .inr fun b hb => ?_)
    rw [hpc] at hb
    cases hb
    rfl
  | stores hpc | confirms hpc _ =>
    exact h.keeps le_rfl (by rw [hpc]; rfl) (by rw [hpc]; exact fun _ => id)
      (fun _ => .inl (by rw [hpc]; rfl)) (fun _ => .inl ⟨by rw [hpc]; rfl, rfl⟩)

theorem perform (action : TaskAction) : Consistent bounds (s.perform bounds action) := by
  cases action with
  | pump input => exact h.pump (pumpStep_moves bounds s input)
  | drive input => exact h.drive (driveStep_moves s input)
  | unready =>
    exact h.keeps le_rfl rfl (fun _ => id) .inl (fun hdone => .inl ⟨hdone, rfl⟩)

end Consistent

/-! ### Publication -/

/-- No lease is revoked between the first comparison of `publish_ready_if` and its store. -/
def undisturbed (s : Tasks) (action : TaskAction) : Bool :=
  match action, s.pump, s.drive with
  | .pump _, .revoke _, .store _ => false
  | _, _, _ => true

/-- Between the comparison and the store the lease stays current. -/
def Stays (s : Tasks) : Prop := ∀ a, s.drive = .store a → s.sourceActivity = a.lease

theorem Stays.pump (h : Stays s) (hreported : Reported s) (hmoves : PumpMoves bounds s s')
    (hundisturbed : ∀ next a, s.pump = .revoke next → s.drive ≠ .store a) : Stays s' := by
  cases hmoves with
  | rests | goes _ _ _ _ _ _ | enqueues _ => exact h
  | revokes hpc => exact fun a hstore => absurd hstore (hundisturbed _ a hpc)
  | connects hpc =>
    -- A pump that connects has no lease that could be current.
    intro a hstore
    have hactive := hreported.storing a hstore
    rw [← h a hstore, hreported.revoked (by rw [hpc]; rfl)] at hactive
    cases hactive

theorem Stays.drive (h : Stays s) (hmoves : DriveMoves s s') : Stays s' := by
  cases hmoves with
  | rests => exact h
  | goes _ _ _ _ _ _ hload _ => exact fun a hstore => (hload a hstore).1
  | samples _ _ | takes _ _ | empties _ _ | recovers _ | stores _ | confirms _ _ =>
    exact fun a hstore => by cases hstore
  | goesOn _ _ =>
    intro a hstore
    split at hstore <;> cases hstore
  | @interrupts _ _ _ handled _ =>
    intro a hstore
    cases handled <;> cases hstore

variable {action : TaskAction}

theorem Stays.perform (h : Stays s) (hreported : Reported s)
    (hundisturbed : s.undisturbed action = true) : Stays (s.perform bounds action) := by
  cases action with
  | pump input =>
    refine h.pump hreported (pumpStep_moves bounds s input) fun next a hpc hstore => ?_
    simp [undisturbed, hpc, hstore] at hundisturbed
  | drive input => exact h.drive (driveStep_moves s input)
  | unready => exact h

theorem PumpMoves.ready (hmoves : PumpMoves bounds s s') (hafter : s'.ready = true) :
    s.ready = true := by
  cases hmoves with
  | goes _ hready _ _ _ _ => exact (hready hafter).1
  | rests | revokes _ | connects _ | enqueues _ => exact hafter

/-- Only the store of `publish_ready_if` makes the worker ready. -/
theorem DriveMoves.store_of_ready (hmoves : DriveMoves s s') (hbefore : s.ready = false)
    (hafter : s'.ready = true) : ∃ a, s.drive = .store a ∧ s'.published = a.lease := by
  cases hmoves with
  | stores hpc => exact ⟨_, hpc, rfl⟩
  | goes _ hready _ _ _ _ _ _ => exact absurd (hready hafter).1 (by simp [hbefore])
  | interrupts _ =>
    exact absurd (and_eq_true_iff.mp hafter).1 (by simp [hbefore])
  | rests | samples _ _ | takes _ _ | goesOn _ _ | empties _ _ | recovers _ | confirms _ _ =>
    exact absurd hafter (by simp [hbefore, take])

theorem store_of_ready (hbefore : s.ready = false)
    (hafter : (s.perform bounds action).ready = true) :
    ∃ a, s.drive = .store a ∧ (s.perform bounds action).published = a.lease := by
  cases action with
  | pump input =>
    exact absurd ((pumpStep_moves bounds s input).ready hafter) (by simp [hbefore])
  | drive input => exact (driveStep_moves s input).store_of_ready hbefore hafter
  | unready => cases hafter

end Tasks

/-- **Readiness follows the lease.**  In every interleaving, outside of `mark_inactive` and of
`publish_ready_if` a worker that is ready has published the current lease.  When no lease is revoked
between the first comparison of `publish_ready_if` and its store, the worker becomes ready only for
the lease of the last connect, after a recovery that began with every Gap processed that was
enqueued before that connect. -/
theorem readiness_follows_lease (bounds : QueueBounds) (s : Tasks) :
    (Run (Tasks.perform bounds) (fun _ _ => True) .initial s → s.ready = true →
        s.pump.unreadying = false → s.drive.publishing = false → s.published = s.sourceActivity) ∧
      (Run (Tasks.perform bounds) (fun s action => s.undisturbed action = true) .initial s →
        ∀ action, s.ready = false → (s.perform bounds action).ready = true →
          (s.perform bounds action).published = s.issued ∧ s.issued = s.sourceActivity ∧
            s.gapsAtConnect ≤ s.gapsRecovered) := by
  constructor
  · intro hrun hready hunready hpublishing
    have hreported : s.Reported :=
      hrun.invariant Tasks.Reported.initial fun _ action h _ => h.perform bounds action
    rcases hreported.current hready with hcurrent | hin | hin
    · exact hcurrent
    · exact absurd hin (by simp [hunready])
    · exact absurd hin (by simp [hpublishing])
  intro hrun action hbefore hafter
  obtain ⟨hreported, hconsistent, hstays⟩ :
      s.Reported ∧ s.Consistent bounds ∧ s.Stays := by
    refine hrun.invariant (P := fun s => s.Reported ∧ s.Consistent bounds ∧ s.Stays)
      ⟨.initial, .initial bounds, fun a h => by cases h⟩ ?_
    rintro s action ⟨hreported, hconsistent, hstays⟩ hundisturbed
    exact ⟨hreported.perform bounds action, hconsistent.perform action,
      hstays.perform hreported hundisturbed⟩
  obtain ⟨a, hstore, hpublished⟩ := Tasks.store_of_ready hbefore hafter
  have hcurrent := hstays a hstore
  have hactive : isActiveLease s.sourceActivity = true := hcurrent ▸ hreported.storing a hstore
  obtain ⟨hissued, -⟩ := hconsistent.issued hactive
  have ha : a ∈ s.drive.attempt := by rw [hstore]; rfl
  refine ⟨hpublished.trans (hcurrent.symm.trans hissued.symm), hissued, ?_⟩
  have hsame := (hconsistent.holds a ha).same (hconsistent.advances_eq ha hcurrent)
  rw [hsame, hconsistent.recovered a ha (by rw [hstore]; rfl)]
  exact hconsistent.emptied a ha (by rw [hstore]; rfl)

def smallQueue : QueueBounds := ⟨4, 4096, 128, by decide⟩

/-- The drive loop recovers and compares the lease. -/
def recoverAndCompare : List TaskAction :=
  List.replicate 5 (.drive .proceed) ++ [.drive (.outcome .continued)] ++
    List.replicate 5 (.drive .proceed)

/-- The pump connects first. -/
def connectAndRecover : List TaskAction :=
  List.replicate 4 (.pump .proceed) ++ [.pump .subscribed] ++ List.replicate 2 (.pump .proceed) ++
    recoverAndCompare

/-- The stream ends, its Gap is enqueued, and the pump connects again. -/
def endAndReconnect : List TaskAction :=
  [.pump (.arrived .closed 100)] ++ List.replicate 15 (.pump .proceed) ++ [.pump .subscribed] ++
    List.replicate 2 (.pump .proceed)

/-- A ready worker whose stream ends takes the Gap from the queue and recovers once more. -/
def recoverTwice : List TaskAction :=
  connectAndRecover ++ List.replicate 2 (.drive .proceed) ++ endAndReconnect ++
    [.drive .proceed, .drive (.outcome .recover)] ++ recoverAndCompare

theorem readiness_follows_lease_reconnected :
    ∃ s, Run (Tasks.perform smallQueue) (fun s action => s.undisturbed action = true) .initial s ∧
      s.gapsAtConnect = 1 ∧ s.gapsAtConnect ≤ s.gapsRecovered ∧
      (s.perform smallQueue (.drive .proceed)).ready = true ∧
      (s.perform smallQueue (.drive .proceed)).published = s.issued := by
  have hchecked : checkAll (Tasks.perform smallQueue) Tasks.undisturbed .initial recoverTwice =
      true := by decide +kernel
  have hrun := Run.ofList Tasks.undisturbed .refl hchecked
  have hafter : ((recoverTwice.foldl (Tasks.perform smallQueue) .initial).perform smallQueue
      (.drive .proceed)).ready = true := by decide +kernel
  obtain ⟨hpublished, -, hgaps⟩ := (readiness_follows_lease smallQueue _).2 hrun (.drive .proceed)
    (by decide +kernel) hafter
  exact ⟨_, hrun, by decide +kernel, hgaps, hafter, hpublished⟩

/-- **Ready after a reconnect.**  The loop has compared its lease; the stream ends, a Gap is
enqueued and the pump connects again; then the store makes the worker ready for the lease before,
with the Gap still in the queue. -/
theorem ready_after_reconnect :
    ∃ s, Run (Tasks.perform smallQueue) (fun _ _ => True) .initial s ∧ s.ready = false ∧
      (s.perform smallQueue (.drive .proceed)).ready = true ∧
      (s.perform smallQueue (.drive .proceed)).published ≠ s.issued ∧
      s.gapsRecovered < s.gapsAtConnect := by
  have hrun : Run (Tasks.perform smallQueue) (fun _ _ => True) .initial
      ((connectAndRecover ++ endAndReconnect).foldl (Tasks.perform smallQueue) .initial) :=
    Run.refl.foldl _
  exact ⟨_, hrun, by decide +kernel, by decide +kernel, by decide +kernel, by decide +kernel⟩

end Lunarbase.EventWorker
