import Lunarbase.Client.JournalOps
import Lunarbase.Client.Finality

/-!
# Client — Quotable

Whether an applied correction leaves an indexer that may be quoted from.  The correction publishes
the readiness of the reducer it restores, which is the one of a before-image: readiness as it was
when a log changed the data.  Logs are applied whether the indexer is ready or not, so an image
can be unready, and a handoff that publishes readiness again does not touch the images.
-/

namespace Lunarbase.Client

open QuoteIndexer

/-- Every before-image is ready. -/
def ReadyImages (s : QuoteIndexer) : Prop :=
  ∀ b ∈ s.optimisticHistory.blocks, b.before.ready = true

/-- A log that changes the data arrives at a ready indexer. -/
def ChangesWhenReady (s : QuoteIndexer) : Stage → Prop
  | .log _ cursor event => s.Changes cursor event → s.reducer.ready = true
  | _ => True

variable {env : Platform}

/-- Ready images make an applied correction ready. -/
theorem ReadyImages.corrected {bytes : ImageCost}
    {s next : QuoteIndexer} {c : ChainCorrection} (hs : ReadyImages s)
    (h : s.intoCorrectedCore env bytes c = .ok (next, true)) : next.reducer.ready = true := by
  obtain ⟨-, h⟩ := intoCorrectedCore_eq_ok_true h
  obtain ⟨-, restore, hrestore, hready⟩ := journals_replaceBranch h
  obtain ⟨-, -, -, hs_ready, -⟩ := replaceBranch_eq_ok h
  rw [hready]
  exact JournalState.restored_of_images (P := (·.ready = true)) hs_ready hs hrestore

theorem ReadyImages.takes {s t : QuoteIndexer} {stage : Stage} (hs : ReadyImages s)
    (h : Takes env s stage t) (hguard : ChangesWhenReady s stage) : ReadyImages t := by
  have hjournal : Journals (fun r => r.ready = true) s t := by
    refine journals_takes h ?_ ?_
    · rintro bytes cursor event rfl hchanges
      exact hguard hchanges
    · rintro bytes c rfl r hr
      exact hr.trans (hs.corrected h)
  intro b hb
  rcases hjournal.mem hb with hold | hnew
  · exact hs b hold
  · exact hnew

/-- **An applied correction leaves a ready indexer**, after every run of calls in which no log
changes the data of an indexer that is not ready. -/
theorem corrected_indexer_ready {state : Math.QuoteState} {deployment : DeploymentConfig}
    {s next : QuoteIndexer} {bytes : ImageCost} {c : ChainCorrection}
    (hrun : Run (Request.step env) (fun s request => request.Within env ChangesWhenReady s)
      (QuoteIndexer.new state deployment) s)
    (h : s.intoCorrectedCore env bytes c = .ok (next, true)) : next.reducer.ready = true := by
  have himages : ReadyImages s := by
    refine Request.invariant_of_within (P := ReadyImages)
      (fun _ _ _ htakes hguard hs => hs.takes htakes hguard) ?_ hrun
    intro b hb
    cases hb
  exact himages.corrected h

/-- Block 5, with its log, and block 6 are replaced by one block. -/
def replaceFromFour : ChainCorrection :=
  { replaceFive with
    oldTip := blockRef 6 0xb6 0xb5
    oldBranch := [blockRef 5 0xb5 0xb4, blockRef 6 0xb6 0xb5] }

/-- The calls up to head 6, on an indexer that stays ready. -/
def readyRequests : List Request :=
  [unpricedCall (.applyCoreUpdate (.head (blockRef 4 0xb4 0xb3))),
    unpricedCall (.applyCoreUpdate (.log (multiplierLog 5 0xb5 20000))),
    unpricedCall (.applyCoreUpdate (.head (blockRef 6 0xb6 0xb5)))]

theorem within_of_takes {s : QuoteIndexer} {request : Request} (stage : Stage)
    (h : Takes env s stage (request.step env s)) (hready : s.reducer.ready = true) :
    request.Within env ChangesWhenReady s := by
  refine ⟨[stage], .one ⟨h, ?_⟩⟩
  cases stage with
  | log bytes cursor event => exact fun _ => hready
  | _ => trivial

/-- The bootstrap installs the snapshot and publishes. -/
theorem run_smallStart :
    Run (Request.step referencePlatform)
      (fun s request => request.Within referencePlatform ChangesWhenReady s) freshIndexer
      smallStart := by
  have hinstall : freshIndexer.installSnapshot smallSnapshot =
      ((freshIndexer.installSnapshot smallSnapshot).1, .ok ()) := Prod.ext rfl (by decide +kernel)
  have hpublish : smallStart = (freshIndexer.installSnapshot smallSnapshot).1.publishReady := by
    decide +kernel
  refine .more (i := unpricedCall (.bootstrapNormalized smallSnapshot [])) .refl
    ⟨[.install smallSnapshot, .publish], .more ⟨⟨by decide +kernel, hinstall⟩, trivial⟩ ?_⟩
  exact .one ⟨hpublish, trivial⟩

theorem corrected_indexer_ready_replayed :
    ∃ next, (readyRequests.foldl (Request.step referencePlatform) smallStart).intoCorrectedCore
        referencePlatform freeImages replaceFromFour = .ok (next, true) ∧
      next.reducer.ready = true := by
  obtain ⟨next, hnext, -⟩ := exists_of_appliedWith
    ((readyRequests.foldl (Request.step referencePlatform) smallStart).intoCorrectedCore
      referencePlatform freeImages replaceFromFour) (fun _ => true) (by decide +kernel)
  refine ⟨next, hnext,
    corrected_indexer_ready (.more (.more (.more run_smallStart ?_) ?_) ?_) hnext⟩
  · exact within_of_takes (.head (blockAt 4 0xb4)) (Prod.ext rfl (by decide +kernel))
      (by decide +kernel)
  · exact within_of_takes (.log freeImages (multiplierLog 5 0xb5 20000).cursor
      (some (.blacklistFeeMultiplierSet 20000))) (Prod.ext (by decide +kernel) (by decide +kernel))
      (by decide +kernel)
  · exact within_of_takes (.head (blockAt 6 0xb6)) (Prod.ext rfl (by decide +kernel))
      (by decide +kernel)

/-- A gap revokes readiness, the log of block 5 is applied all the same, and an empty handoff
publishes readiness again. -/
def reopenedRequests : List Request :=
  [unpricedCall (.bootstrapNormalized smallSnapshot []),
    unpricedCall (.applyCoreUpdate (.head (blockRef 4 0xb4 0xb3))),
    unpricedCall (.applyCoreUpdate (.gap none "subscription lagged")),
    unpricedCall (.applyCoreUpdate (.log (multiplierLog 5 0xb5 20000))),
    unpricedCall (.applyHandoff []),
    unpricedCall (.applyCoreUpdate (.head (blockRef 6 0xb6 0xb5)))]

/-- **A correction takes readiness away.**  The indexer is ready, the correction is applied, and
the indexer it leaves is not ready. -/
theorem correction_leaves_unready :
    ∃ s next, Run (Request.step referencePlatform) (fun _ _ => True) freshIndexer s ∧
      s.reducer.ready = true ∧
      s.intoCorrectedCore referencePlatform freeImages replaceFromFour = .ok (next, true) ∧
      next.reducer.ready = false := by
  obtain ⟨next, hnext, hready⟩ := exists_of_appliedWith
    ((after reopenedRequests).intoCorrectedCore referencePlatform freeImages replaceFromFour)
    (fun next => !next.reducer.ready) (by decide +kernel)
  exact ⟨after reopenedRequests, next, Run.foldl .refl _, by decide +kernel, hnext,
    by simpa using hready⟩

end Lunarbase.Client
