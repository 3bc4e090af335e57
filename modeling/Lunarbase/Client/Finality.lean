import Lunarbase.Client.Stages

/-!
# Client — Finality

The finalized floor over every run of the indexer (`finality.rs`).  The floor is written in one
place, `raiseFinalized`, which replaces it by a strictly higher block only.  Every stage of a call
keeps the floor (`keeps_takes`), so what a call leaves behind, also when it fails, keeps it.

* `finalized_floor_irrevocable`: in every run the floor is kept; a correction that is applied goes
  back to a block the floor allows; a snapshot that the floor does not allow is refused and
  nothing changes.
* `retry_accepted_below_floor`: a correction that is answered as known is not compared with the
  floor.  It succeeds although its common ancestor has been finalized over in the meantime.
-/

namespace Lunarbase.Client

open Effect (forEach Moves)
open Except

/-! ### The order of floors -/

/-- The floor stays, or gives way to a strictly higher block. -/
def FloorKept (floor floor' : Option ChainCursor) : Prop :=
  ∀ f, floor = some f → ∃ f', floor' = some f' ∧ (f' = f ∨ f.blockNumber < f'.blockNumber)

/-- At or above the floor, and the floor's own block at its height. -/
def FloorAllows (floor : Option ChainCursor) (cursor : ChainCursor) : Prop :=
  ∀ f, floor = some f → f.blockNumber ≤ cursor.blockNumber ∧ (cursor.blockNumber = f.blockNumber →
      cursor.blockHash = f.blockHash ∧ cursor.executionBlockNumber = f.executionBlockNumber)

theorem FloorKept.refl (floor : Option ChainCursor) : FloorKept floor floor :=
  fun f h => ⟨f, h, .inl rfl⟩

theorem FloorKept.trans {a b c : Option ChainCursor} (hab : FloorKept a b) (hbc : FloorKept b c) :
    FloorKept a c := by
  intro f hf
  obtain ⟨f', hf', hstep⟩ := hab f hf
  obtain ⟨f'', hf'', hstep'⟩ := hbc f' hf'
  refine ⟨f'', hf'', ?_⟩
  rcases hstep with rfl | hlt
  · exact hstep'
  rcases hstep' with rfl | hlt'
  · exact .inr hlt
  · exact .inr (hlt.trans hlt')

theorem floorKept_raise (floor : Option ChainCursor) (cursor : ChainCursor) :
    FloorKept floor (QuoteIndexer.raiseFinalized floor cursor) := by
  intro f hf
  rw [QuoteIndexer.raiseFinalized]
  split_ifs with h
  · exact ⟨f, hf, .inl rfl⟩
  refine ⟨_, rfl, .inr ?_⟩
  obtain ⟨-, habove⟩ := not_or.mp h
  simpa [hf] using habove

variable {cursor : ChainCursor}

theorem floorAllows_of_coverage {f : ChainCursor} {context : String}
    (h : validateFloorCoverage f cursor context = .ok ()) : FloorAllows (some f) cursor := by
  rintro _ ⟨⟩
  rw [validateFloorCoverage] at h
  split_ifs at h with hchain hbelow hsame
  · refine ⟨hsame.ge, fun _ => ?_⟩
    rw [requireSameIdentity] at h
    split_ifs at h with hidentity
    simp only [not_or, not_not] at hidentity
    exact ⟨hidentity.2.2.symm, hidentity.1.symm⟩
  · exact ⟨not_lt.mp hbelow, fun heq => absurd heq hsame⟩

namespace QuoteIndexer

variable {env : Platform} {bytes : ImageCost} {s : QuoteIndexer}

/-- The second indexer keeps the finalized floor of the first. -/
def Keeps (s t : QuoteIndexer) : Prop := FloorKept s.finalizedFloor t.finalizedFloor

theorem Keeps.refl (s : QuoteIndexer) : Keeps s s := FloorKept.refl _

theorem Keeps.trans (a b c : QuoteIndexer) (hab : Keeps a b) (hbc : Keeps b c) : Keeps a c :=
  FloorKept.trans hab hbc

variable {t : QuoteIndexer} {c : ChainCorrection}

theorem Keeps.raise (h : t.finalizedFloor = raiseFinalized s.finalizedFloor cursor) :
    Keeps s t := by
  rw [Keeps, h]
  exact floorKept_raise _ _

/-! ### Stages -/

variable {out : Except IndexerError Unit}

theorem keeps_applyDecodedLog {event : Option QuoteEvent}
    (h : s.applyDecodedLog bytes cursor event = (t, out)) : Keeps s t := by
  rcases applyDecodedLog_cases h with
    ⟨e, -, rfl⟩ | ⟨-, -, -, -, rfl⟩ | ⟨new, data, changed, -, -, -, -, -, -, rfl⟩
  · exact Keeps.refl t
  · exact Keeps.raise rfl
  · exact Keeps.raise rfl

/-- The indexer that replays the replacement logs is rebuilt from a before-image, but its floor is
the one of the indexer that was replaced. -/
theorem keeps_replayLogs {logs : List ContractLog} (h : s.replayLogs env bytes logs = .ok t) :
    Keeps s t :=
  replayLogs_invariant h (Keeps.refl s) fun _ _ _ _ _ _ happly hkept =>
    Keeps.trans _ _ _ hkept (keeps_applyDecodedLog happly)

theorem keeps_replaceBranch (h : s.replaceBranch env bytes c = .ok t) : Keeps s t := by
  obtain ⟨rewound, replayed, -, -, hrewound, hreplayed, hfinish⟩ := replaceBranch_eq_ok h
  obtain ⟨restore, -, hrestored⟩ := rewindTo_eq_ok hrewound
  have hrewind : Keeps s (rewound.recordBranch c.newBranch) := by
    rw [hrestored]
    exact FloorKept.refl s.finalizedFloor
  have hlast : Keeps replayed t := Keeps.raise (by rw [finishCorrection_eq_ok hfinish])
  exact Keeps.trans _ _ _ (Keeps.trans _ _ _ hrewind (keeps_replayLogs hreplayed)) hlast

theorem keeps_observeCoveredCorrection
    (h : s.observeCoveredCorrection env c = (t, out)) : Keeps s t := by
  rcases observeCoveredCorrection_cases h with ⟨e, -, rfl⟩ | ⟨-, rfl⟩ | ⟨-, rfl, -⟩
  · exact Keeps.refl t
  · exact Keeps.refl t
  · exact Keeps.refl s

variable {snapshot : BootstrapSnapshot}

theorem keeps_installSnapshot (h : s.installSnapshot snapshot = (t, .ok ())) : Keeps s t := by
  exact Keeps.raise (by rw [installSnapshot_eq_ok h])

/-- **Every stage keeps the floor.** -/
theorem keeps_takes {stage : Stage} (h : Takes env s stage t) : Keeps s t := by
  cases stage with
  | close | publish => exact h ▸ Keeps.refl s
  | log bytes cursor event => exact keeps_applyDecodedLog h
  | head cursor =>
    rcases applyHead_cases h with ⟨e, hout, -⟩ | ⟨reducer, -, -, rfl⟩
    · cases hout
    · exact Keeps.raise rfl
  | correct bytes c => exact keeps_replaceBranch (intoCorrectedCore_eq_ok_true h).2
  | remember c => exact keeps_observeCoveredCorrection h
  | install snapshot => exact keeps_installSnapshot h.2

theorem keeps_of_staged (h : Staged env s t) : Keeps s t :=
  h.invariant (P := Keeps s)
    (fun _ _ _ htakes hkept => Keeps.trans _ _ _ hkept (keeps_takes htakes))
    (Keeps.refl s)

/-- **A correction that is applied goes back to a block the floor allows.** -/
theorem floorAllows_of_applied {next : QuoteIndexer}
    (h : s.intoCorrectedCore env bytes c = .ok (next, true)) :
    FloorAllows s.finalizedFloor c.commonAncestor.cursor := by
  obtain ⟨-, h⟩ := intoCorrectedCore_eq_ok_true h
  obtain ⟨⟨⟩, -, h⟩ := bind_eq_ok.mp h
  obtain ⟨⟨⟩, hancestor, -⟩ := bind_eq_ok.mp h
  rw [validateFinalizedAncestor] at hancestor
  cases hfloor : s.finalizedFloor with
  | none => exact fun f hf => nomatch hf
  | some f =>
    simp only [hfloor] at hancestor
    exact floorAllows_of_coverage hancestor

/-! ### Snapshots -/

theorem floorAllows_of_validateSnapshot
    (h : s.validateSnapshot snapshot = .ok ()) : FloorAllows s.finalizedFloor snapshot.cursor := by
  obtain ⟨⟨⟩, -, h⟩ := bind_eq_ok.mp h
  obtain ⟨⟨⟩, hrecovery, -⟩ := bind_eq_ok.mp h
  rw [validateFinalizedRecovery] at hrecovery
  cases hfloor : s.finalizedFloor with
  | none => exact fun f hf => nomatch hf
  | some f =>
    simp only [hfloor] at hrecovery
    obtain ⟨⟨⟩, hcoverage, -⟩ := bind_eq_ok.mp hrecovery
    exact floorAllows_of_coverage hcoverage

end QuoteIndexer

/-! ### Runs -/

open QuoteIndexer

theorem Request.keeps_step (env : Platform) (s : QuoteIndexer) (request : Request) :
    Keeps s (request.step env s) := keeps_of_staged (request.staged env s)

/-- Some update of a batch is `update`, and the updates before it lead to `t`. -/
def BatchReaches (step : QuoteIndexer → ChainUpdate → Transition PUnit) (s : QuoteIndexer)
    (updates : List ChainUpdate) (t : QuoteIndexer) (update : ChainUpdate) : Prop :=
  ∃ done rest, updates = done ++ update :: rest ∧ forEach step s done = (t, .ok ⟨⟩)

/-- The call takes up `update` in the state `t`: at once, or in its turn in a batch. -/
def Call.TakesUp (env : Platform) (bytes : ImageCost) (s : QuoteIndexer)
    (t : QuoteIndexer) (update : ChainUpdate) : Call → Prop
  | .applyCoreUpdate u | .applyCoreUpdateBorrowed u => t = s ∧ update = u
  | .applyCoreLogBorrowed log => t = s ∧ update = .log log
  | .applyHandoff buffered =>
    ∃ start, s.reducer.cursor = some start ∧
      BatchReaches (handoffStep env bytes start) s (sortChainUpdates buffered) t update
  | .applyHandoffBorrowedOrdered buffered =>
    ∃ start, s.reducer.cursor = some start ∧
      BatchReaches (handoffStep env bytes start) s buffered t update
  | .bootstrapNormalized snapshot buffered =>
    s.validateSnapshot snapshot = .ok () ∧
      BatchReaches (bootstrapStep env bytes snapshot.cursor) (s.installSnapshot snapshot).1
        (sortChainUpdates buffered) t update

theorem Call.TakesUp.keeps {env : Platform} {bytes : ImageCost} {s t : QuoteIndexer}
    {update : ChainUpdate} {call : Call} (h : call.TakesUp env bytes s t update) : Keeps s t := by
  have hhandoff : ∀ start updates, BatchReaches (handoffStep env bytes start) s updates t update →
      Keeps s t := by
    rintro start updates ⟨done, rest, -, hdone⟩
    have hstaged : Moves (StagedBy env fun _ => True) s
        (forEach (handoffStep env bytes start) s done) :=
      staged_handoff start done fun _ _ => trivial
    rw [hdone] at hstaged
    exact keeps_of_staged (StagedBy.staged hstaged)
  cases call with
  | applyCoreUpdate u => exact h.1 ▸ Keeps.refl s
  | applyCoreUpdateBorrowed u | applyCoreLogBorrowed log => exact h.1 ▸ Keeps.refl s
  | applyHandoff buffered | applyHandoffBorrowedOrdered buffered =>
    obtain ⟨start, -, hbatch⟩ := h
    exact hhandoff start _ hbatch
  | bootstrapNormalized snapshot buffered =>
    obtain ⟨hvalid, done, rest, -, hdone⟩ := h
    have hstaged : Moves (StagedBy env fun _ => True) (s.installSnapshot snapshot).1
        (forEach (bootstrapStep env bytes snapshot.cursor) (s.installSnapshot snapshot).1 done) :=
      staged_bootstrap _ done fun _ _ => trivial
    rw [hdone] at hstaged
    obtain ⟨installed, hinstall, -⟩ := installSnapshot_of_valid hvalid
    rw [hinstall] at hstaged
    exact Keeps.trans _ _ _ (keeps_installSnapshot hinstall)
      (keeps_of_staged (StagedBy.staged hstaged))

/-- What finality promises in a state of a run, whatever is asked next. -/
structure Irrevocable (env : Platform) (s : QuoteIndexer) : Prop where
  /-- The floor is kept, whether the request is accepted or rejected. -/
  floor : ∀ request : Request, Keeps s (request.step env s)
  /-- A correction that a call applies goes back to a block the floor allows at that moment. -/
  correction : ∀ (call : Call) bytes t c next, call.TakesUp env bytes s t (.correction c) →
    t.intoCorrectedCore env bytes c = .ok (next, true) →
      Keeps s t ∧ FloorAllows t.finalizedFloor c.commonAncestor.cursor
  /-- A correction that is answered as known changes nothing. -/
  known : ∀ bytes c s', s.intoCorrectedCore env bytes c = .ok (s', false) →
    s.replaceWithCorrection env bytes c = (s, .ok false)
  /-- A snapshot that the floor does not allow is refused, and nothing changes. -/
  snapshot : ∀ bytes snapshot buffered, FloorAllows s.finalizedFloor snapshot.cursor ∨
    ∃ e, s.bootstrapNormalized env bytes snapshot buffered = (s, .error e)

theorem irrevocable (env : Platform) (s : QuoteIndexer) : Irrevocable env s where
  floor := fun request => request.keeps_step env s
  correction := fun _ _ _ _ _ htaken happlied => ⟨htaken.keeps, floorAllows_of_applied happlied⟩
  known := by
    intro bytes c s' h
    rw [replaceWithCorrection, h]
  snapshot := by
    intro bytes snapshot buffered
    cases hvalid : s.validateSnapshot snapshot with
    | ok u => exact .inl (floorAllows_of_validateSnapshot hvalid)
    | error e => exact .inr ⟨e, bootstrapNormalized_of_refused hvalid buffered⟩

/-- **Finality is irrevocable.**  In every run of requests, accepted or rejected, the floor is the
one of the start or a higher block, and what is asked next cannot undo it. -/
theorem finalized_floor_irrevocable {env : Platform} {start s : QuoteIndexer}
    (h : Run (Request.step env) (fun _ _ => True) start s) : Keeps start s ∧ Irrevocable env s :=
  ⟨h.invariant (P := Keeps start) (Keeps.refl start) fun _ request hkept _ =>
      Keeps.trans _ _ _ hkept (request.keeps_step env _),
    irrevocable env s⟩

/-! ### A run with a finalized branch -/

def unpricedCall (call : Call) : Request := ⟨.call call, freeImages⟩

def freshIndexer : QuoteIndexer := .new smallSnapshot.state smallDeployment

/-- A bootstrap, head 4, an event at block 5, head 6, and block 6 replaced. -/
def replacedRun : List Request :=
  [unpricedCall (.bootstrapNormalized smallSnapshot []),
    unpricedCall (.applyHandoff [.head (blockRef 4 0xb4 0xb3)]),
    unpricedCall (.applyCoreLogBorrowed (multiplierLog 5 0xb5 20000)),
    unpricedCall (.applyCoreUpdate (.head (blockRef 6 0xb6 0xb5))),
    unpricedCall (.applyCoreUpdate (.correction replaceSix))]

def finalized (block : BlockRef) : ChainUpdate :=
  .head { block with cursor := { block.cursor with commitment := .finalized } }

/-- The state after a list of requests to a fresh indexer. -/
def after (requests : List Request) : QuoteIndexer :=
  requests.foldl (Request.step referencePlatform) freshIndexer

/-- After block 6 has been replaced, head 5 is finalized; a correction that goes back to block 5 is
applied all the same. -/
def finalizedFive : List Request := replacedRun ++ [unpricedCall (.applyCoreUpdate
  (finalized (blockRef 5 0xb5 0xb4)))]

def replaceSixAgain : ChainCorrection :=
  { replaceSix with
    oldTip := blockRef 6 0xd6 0xb5
    newTip := blockRef 6 0xe6 0xb5
    oldBranch := [blockRef 6 0xd6 0xb5]
    newBranch := [blockRef 6 0xe6 0xb5] }

theorem finalized_floor_irrevocable_at_floor :
    (∃ f, (after finalizedFive).finalizedFloor = some f ∧ f.blockNumber = 5) ∧
      Irrevocable referencePlatform (after finalizedFive) ∧
      ∃ next, (after finalizedFive).intoCorrectedCore referencePlatform freeImages
          replaceSixAgain = .ok (next, true) ∧
        FloorAllows (after finalizedFive).finalizedFloor replaceSixAgain.commonAncestor.cursor := by
  obtain ⟨-, hpromise⟩ := finalized_floor_irrevocable (Run.foldl .refl finalizedFive)
  obtain ⟨next, hnext, -⟩ := exists_of_appliedWith
    ((after finalizedFive).intoCorrectedCore referencePlatform freeImages replaceSixAgain)
    (fun _ => true) (by decide +kernel)
  have hallowed := hpromise.correction (.applyCoreUpdate (.correction replaceSixAgain)) freeImages
    _ _ next ⟨rfl, rfl⟩ hnext
  have hfloor : (after finalizedFive).finalizedFloor =
      some { blockAt 5 0xb5 with commitment := .finalized } := by decide +kernel
  exact ⟨⟨_, hfloor, rfl⟩, hpromise, next, hnext, hallowed.2⟩

/-- **A known correction is accepted below the floor.**  Block 6 is replaced, the replacement is
finalized, and the correction is delivered once more: it succeeds, although it names block 5 as its
common ancestor and the floor is at 6. -/
theorem retry_accepted_below_floor :
    ∃ s s' f, Run (Request.step referencePlatform) (fun _ _ => True) freshIndexer s ∧
      (Call.applyCoreUpdate (.correction replaceSix)).perform referencePlatform freeImages s =
        (s', .ok ()) ∧
      s.finalizedFloor = some f ∧ replaceSix.commonAncestor.cursor.blockNumber < f.blockNumber := by
  have hfloor : (after (replacedRun ++ [unpricedCall (.applyCoreUpdate
      (finalized (blockRef 6 0xd6 0xb5)))])).finalizedFloor =
        some { blockAt 6 0xd6 with commitment := .finalized } := by decide +kernel
  exact ⟨_, _, _, Run.foldl .refl _, Prod.ext rfl (by decide +kernel), hfloor, by decide⟩

end Lunarbase.Client
