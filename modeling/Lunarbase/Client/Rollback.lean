import Lunarbase.Client.History
import Lunarbase.Client.Reference

/-!
# Client — Rollback

An applied correction is rollback plus replay (`correction_is_rollback_and_replay`): the published
data are what the snapshot, the events surviving at the common ancestor and the replacement events
give, in this order.

It holds along orderly runs.  Three behaviours of the source break it, and `Orderly` excludes
exactly them: `rewind_head` forgets the retained event, after which a log below an accepted event
is taken as new, and a head may rename a block whose events were applied; and `insert_identity`
makes an evicted identity the rollback floor even where the floor is higher already.
-/

namespace Lunarbase.Client

open Rollback (replay upTo restoreAt)
open List QuoteIndexer JournalState Bool AcceptedEvent

variable {restore : Option QuoteReducer} {j : JournalState}

/-- The restored reducer holds the data the journal restores. -/
theorem restorePoint_data {ancestor : BlockRef} {oldBranch : List BlockRef}
    (h : j.restorePoint ancestor oldBranch = .ok restore) (reducer : QuoteReducer) :
    (restore.getD reducer).data =
      restoreAt OptimisticBlock.number OptimisticBlock.data j.blocks reducer.data
        ancestor.cursor.blockNumber := by
  obtain ⟨-, -, rfl⟩ := restorePoint_eq_ok h
  have haffected : j.affected ancestor =
      j.blocks.filter fun b => ancestor.cursor.blockNumber < b.number := rfl
  rw [restoreAt, haffected]
  cases j.blocks.filter fun b => decide (ancestor.cursor.blockNumber < b.number) with
  | nil => rfl
  | cons first rest => rfl

variable {c : ChainCorrection} {history : List AcceptedEvent} {snapshot : QuoteData}
  {s : QuoteIndexer} {bytes : ImageCost} {env : Platform} {floor : ChainCursor}

/-- On the branch of an ancestor the journal accepts, the height alone decides who survives. -/
theorem survivors_eq_upTo {current : QuoteData}
    (hinv : JournalInv snapshot floor j history history current)
    (hsome : c.commonAncestor.cursor.blockHash.isSome)
    (h : j.restorePoint c.commonAncestor c.oldBranch = .ok restore) :
    survivors c history =
      upTo number history c.commonAncestor.cursor.blockNumber := by
  obtain ⟨hfloor, hancestor, -⟩ := restorePoint_eq_ok h
  refine filter_congr fun e he => ?_
  rw [onBranch, Bool.eq_iff_iff]
  simp only [or_eq_true, and_eq_true, decide_eq_true_eq]
  constructor
  · rintro (hlt | ⟨heq, -⟩)
    · exact hlt.le
    · exact heq.le
  intro hle
  rcases Nat.lt_or_eq_of_le hle with hlt | heq
  · exact .inl hlt
  refine .inr ⟨heq, ?_⟩
  rcases hinv.hash_of_ancestor hfloor hancestor hsome he heq with hnone | hsame
  · exact .inl (Option.isNone_iff_eq_none.mpr hnone)
  · exact .inr hsame

/-- Going back to the common ancestor: the history is what survives there. -/
theorem rewindTo_journal {rewound : QuoteIndexer}
    (hinv : JournalInv snapshot floor s.optimisticHistory history history s.reducer.data)
    (hsome : c.commonAncestor.cursor.blockHash.isSome) (h : s.rewindTo c = .ok rewound) :
    JournalInv snapshot floor rewound.optimisticHistory (survivors c history)
      (survivors c history) rewound.reducer.data ∧
    rewound.optimisticHistory = s.optimisticHistory.rewindAfter c.commonAncestor ∧
    rewound.reducer.eventCursor = none := by
  obtain ⟨restore, hrestore, rfl⟩ := rewindTo_eq_ok h
  refine ⟨?_, rfl, rfl⟩
  rw [survivors_eq_upTo hinv hsome hrestore]
  obtain ⟨hfloor, -, -⟩ := restorePoint_eq_ok hrestore
  rw [hinv.atFloor] at hfloor
  rw [restorePoint_data hrestore]
  exact hinv.rewind (validateRollbackFloor_eq_ok hfloor).1

variable {next start : QuoteIndexer}

/-- The data of an applied correction, from those of the state it was applied to. -/
theorem correction_data (hs : Consistent snapshot s history)
    (h : s.intoCorrectedCore env bytes c = .ok (next, true)) :
    replay effect snapshot
      (survivors c history ++ replacementEvents env c.replacementLogs) =
        some next.reducer.data := by
  obtain ⟨floor, hinv, -⟩ := hs
  obtain ⟨hvalid, hreplace⟩ := intoCorrectedCore_eq_ok_true h
  obtain ⟨hsome, -, -, hsorted⟩ := ChainCorrection.validate_spec (validate_of_forCore hvalid)
  obtain ⟨rewound, replayed, -, -, hrewind, hreplay, hfinish⟩ :=
    replaceBranch_eq_ok hreplace
  obtain ⟨hrewound, -, hcursor⟩ := rewindTo_journal hinv hsome hrewind
  have hrising : Rising (rewound.recordBranch c.newBranch).reducer.eventCursor
      c.replacementLogs := ⟨hsorted, fun previous hp => absurd (hcursor.symm.trans hp) (by simp)⟩
  have hdata := replayLogs_data hrising hreplay
  rw [Rollback.replay_append, hrewound.journaled.replay_all]
  obtain rfl := finishCorrection_eq_ok hfinish
  exact hdata

/-- An applied correction replaces the part of the history above the ancestor. -/
theorem correction_consistent (hs : Consistent snapshot s history)
    (hsafe : safeBranch (s.optimisticHistory.rewindAfter c.commonAncestor) c.newBranch = true)
    (h : s.intoCorrectedCore env bytes c = .ok (next, true)) :
    Consistent snapshot next (survivors c history ++ replacementEvents env c.replacementLogs) := by
  obtain ⟨floor, hinv, hbound⟩ := hs
  obtain ⟨hvalid, hreplace⟩ := intoCorrectedCore_eq_ok_true h
  obtain ⟨hsome, habove, hbranch, hsorted⟩ :=
    ChainCorrection.validate_spec (validate_of_forCore hvalid)
  obtain ⟨rewound, replayed, -, -, hrewind, hreplay, hfinish⟩ :=
    replaceBranch_eq_ok hreplace
  obtain ⟨hrewound, hjournal, hcursor⟩ := rewindTo_journal hinv hsome hrewind
  -- everything that survives is at or below the ancestor, every new block above it
  have hbelow : ∀ block ∈ c.newBranch, ∀ e ∈ survivors c history,
      e.number < block.cursor.blockNumber :=
    fun block hblock e he => (number_le_of_survivor he).trans_lt (habove block hblock)
  have hbound' : rewound.optimisticHistory.identities.length ≤ maxOptimisticHistoryBlocks := by
    rw [hjournal]
    exact (List.rdropWhile_prefix _ _).length_le.trans hbound
  obtain ⟨floor₁, -, hinv₁, hbound₁, hcovers⟩ :=
    recordBranch_journal hrewound hbound' (hjournal ▸ hsafe) hbelow
  have hrising : Rising (rewound.recordBranch c.newBranch).reducer.eventCursor
      c.replacementLogs := ⟨hsorted, fun previous hp => absurd (hcursor.symm.trans hp) (by simp)⟩
  obtain ⟨floor₂, hinv₂, hbound₂⟩ := replayLogs_journal hinv₁ hbound₁ hrising
    (fun log hlog => hcovers _ (.inl (hbranch log hlog)))
    (fun log hlog e he => by
      obtain ⟨block, hblock, hnum⟩ := hbranch log hlog
      exact hnum ▸ (hbelow block hblock e he).le) hreplay
  obtain rfl := finishCorrection_eq_ok hfinish
  exact ⟨floor₂, hinv₂, hbound₂⟩

/-! ### Runs -/

/-- One orderly update keeps the journal good for the history. -/
theorem deliver_consistent {t : Traced} {d : Delivery}
    (ht : Consistent snapshot t.indexer t.history) (hd : Orderly env t d) :
    Consistent snapshot (deliver env t d).indexer (deliver env t d).history := by
  obtain ⟨update, bytes⟩ := d
  cases update with
  | log log =>
    rcases hstep : t.indexer.applyCoreUpdate env bytes (.log log) with ⟨s', out⟩
    simp only [deliver, historyAfter, hstep]
    obtain ⟨hlow, hsafe⟩ := and_eq_true_iff.mp hd
    rcases applyCoreUpdate_log_cases hstep with
      ⟨e, rfl, rfl | rfl⟩ | ⟨rfl, hcovered, rfl⟩ | ⟨event, rfl, hcovered, hdecode, happly⟩
    · exact ht
    · exact ht
    · simpa [acceptedLog, hcovered] using ht
    have haccepted : acceptedLog env t.indexer log = acceptedEvent t.indexer log.cursor event := by
      simp [acceptedLog, hcovered, hdecode]
    rw [haccepted] at hlow
    simp only [all_eq_true, decide_eq_true_eq] at hlow
    simp only [hdecode, not_eq_true'] at hsafe
    obtain ⟨floor, hinv, hbound⟩ := ht
    obtain ⟨floor', -, hinv', hbound', -⟩ :=
      applyDecodedLog_journal hinv hbound hlow hsafe happly
    rw [haccepted]
    exact ⟨floor', hinv', hbound'⟩
  | head block =>
    rcases hstep : t.indexer.applyHead block.cursor with ⟨s', out⟩
    simp only [deliver, historyAfter, applyCoreUpdate_head, hstep]
    rcases applyHead_cases hstep with
      ⟨e, -, rfl | rfl⟩ | ⟨reducer, -, hobserve, rfl⟩
    · exact ht
    · exact ht
    obtain ⟨cursor, rfl⟩ := QuoteReducer.observeHead_ok hobserve
    obtain ⟨floor, hinv, hbound⟩ := ht
    simp only [Orderly, orderly, orderlyHead, hobserve] at hd
    cases hpublished : publishedAs
        { t.indexer.reducer with cursor := cursor } block.cursor with
    | none => exact ⟨floor, hinv, hbound⟩
    | some published =>
      simp only [hpublished, and_eq_true, all_eq_true, decide_eq_true_eq, not_eq_true'] at hd
      have hsame := (Option.filter_eq_some_iff.mp hpublished).2
      simp only [JournalState.sameIdentity, and_eq_true, beq_iff_eq] at hsame
      obtain ⟨⟨⟨-, hnumber⟩, -⟩, hhash⟩ := hsame
      obtain ⟨floor', -, hinv', hbound', -⟩ := hinv.record true hbound hd.2
        fun _ e he hnum => hhash ▸ hd.1 e he (hnum.trans hnumber)
      exact ⟨floor', hinv', hbound'⟩
  | reorg oldHead newHead | gap cursor reason => exact ht
  | correction c =>
    rcases hstep : t.indexer.applyCoreUpdate env bytes (.correction c) with ⟨s', out⟩
    rcases applyCoreUpdate_correction_cases hstep with
      ⟨e, e', -, rfl, hinto⟩ | ⟨s₁, -, hinto, rfl⟩ | ⟨-, hinto⟩
    · simp only [deliver, historyAfter, hstep, hinto]
      exact ht
    · simp only [deliver, historyAfter, hstep, hinto]
      exact ht
    · simp only [deliver, historyAfter, hstep, hinto]
      exact correction_consistent ht hd hinto

/-- The data a snapshot installs in a deployment. -/
def BootstrapSnapshot.data (snapshot : BootstrapSnapshot) (deployment : DeploymentConfig) :
    QuoteData :=
  ⟨snapshot.state, deployment.feeClass, snapshot.verifiedRouter⟩

variable {snapshot : BootstrapSnapshot}

/-- A bootstrapped indexer holds the snapshot and an empty journal at its cursor. -/
theorem bootstrap_eq_ok (h : s.bootstrap env bytes snapshot = (start, .ok ())) :
    start.reducer = ⟨snapshot.data s.deployment, some snapshot.cursor, none, none, true⟩ ∧
      start.optimisticHistory = s.optimisticHistory.reset snapshot.cursor ∧
      start.canonicalFloor = some snapshot.cursor ∧ start.deployment = s.deployment := by
  have hsort : sortChainUpdates [] = [] := by simp [sortChainUpdates, sortFrom, sortSegment]
  rw [bootstrap, bootstrapNormalized, hsort, dropResult] at h
  obtain ⟨s₁, notices, hordered, hlast⟩ := Effect.andThen_eq_ok.mp h
  obtain ⟨s₂, ⟨⟩, hvalid, hrest⟩ := Effect.andThen_eq_ok.mp hordered
  obtain ⟨s₃, ⟨⟩, hinstall, hloop⟩ := Effect.andThen_eq_ok.mp hrest
  obtain ⟨rfl, -⟩ := Prod.mk.inj hvalid
  cases hlast
  cases hloop
  obtain rfl := installSnapshot_eq_ok hinstall
  exact ⟨rfl, rfl, rfl, rfl⟩

/-- **An orderly run keeps the journal good for the history it stands for.** -/
theorem run_consistent {t : Traced} (hstart : s.bootstrap env bytes snapshot = (start, .ok ()))
    (hrun : Run (deliver env) (Orderly env) ⟨start, []⟩ t) :
    Consistent (snapshot.data s.deployment) t.indexer t.history := by
  refine hrun.invariant (P := fun t => Consistent _ t.indexer t.history) ?_
    fun _ _ => deliver_consistent
  obtain ⟨hreducer, hjournal, -⟩ := bootstrap_eq_ok hstart
  refine ⟨snapshot.cursor, ?_, ?_⟩
  · rw [hreducer, hjournal]
    exact .start _ _ _
  · rw [hjournal]
    exact Nat.zero_le _

/-- **An applied correction is rollback plus replay.**  After any orderly run from a bootstrap, a
correction that is applied publishes the data of the snapshot, the surviving events and the
replacement events, applied in this order. -/
theorem correction_is_rollback_and_replay {env : Platform} {bytes bytes' : ImageCost}
    {s start next : QuoteIndexer} {snapshot : BootstrapSnapshot} {t : Traced} {c : ChainCorrection}
    (hstart : s.bootstrap env bytes snapshot = (start, .ok ()))
    (hrun : Run (deliver env) (Orderly env) ⟨start, []⟩ t)
    (h : t.indexer.intoCorrectedCore env bytes' c = .ok (next, true)) :
    replay effect (snapshot.data s.deployment)
      (survivors c t.history ++ replacementEvents env c.replacementLogs) = some next.reducer.data :=
  correction_data (run_consistent hstart hrun) h

/-! ### An orderly run, and one that is not -/

/-- No before-image is charged anything. -/
def freeImages : ImageCost := fun _ _ => 0

def unpriced (update : ChainUpdate) : Delivery := ⟨update, freeImages⟩

def smallStart : QuoteIndexer :=
  ((new smallSnapshot.state smallDeployment).bootstrap referencePlatform freeImages
    smallSnapshot).1

/-- The correction was applied and the result passes the test. -/
def appliedWith (out : Except IndexerError (QuoteIndexer × Bool)) (test : QuoteIndexer → Bool) :
    Bool :=
  match out with
  | .ok (next, true) => test next
  | _ => false

theorem exists_of_appliedWith (out : Except IndexerError (QuoteIndexer × Bool))
    (test : QuoteIndexer → Bool) (h : appliedWith out test = true) :
    ∃ next, out = .ok (next, true) ∧ test next = true := by
  rcases out with e | ⟨next, applied⟩
  · simp [appliedWith] at h
  cases applied with
  | false => simp [appliedWith] at h
  | true => exact ⟨next, rfl, h⟩

theorem smallStart_eq :
    (new smallSnapshot.state smallDeployment).bootstrap referencePlatform freeImages
      smallSnapshot = (smallStart, .ok ()) := by
  refine Prod.ext rfl ?_
  decide +kernel

/-- An event at block 5 and the head 6. -/
def upToSix : List Delivery :=
  [unpriced (.log (multiplierLog 5 0xb5 20000)), unpriced (.head (blockRef 6 0xb6 0xb5))]

/-- Block 6 is replaced, without logs. -/
def replaceSix : ChainCorrection where
  commonAncestor := blockRef 5 0xb5 0xb4
  oldTip := blockRef 6 0xb6 0xb5
  newTip := blockRef 6 0xd6 0xb5
  oldBranch := [blockRef 6 0xb6 0xb5]
  newBranch := [blockRef 6 0xd6 0xb5]
  replacementLogs := []
  retainedBytes := 1024

/-- Head 4 is seen first, so that a correction may go back to it. -/
def orderlyUpdates : List Delivery :=
  unpriced (.head (blockRef 4 0xb4 0xb3)) :: upToSix ++ [unpriced (.correction replaceSix)]

theorem correction_is_rollback_and_replay_orderly :
    ∃ next,
      (orderlyUpdates.foldl (deliver referencePlatform) ⟨smallStart, []⟩).indexer.intoCorrectedCore
        referencePlatform freeImages replaceFive = .ok (next, true) ∧
      replay effect (smallSnapshot.data smallDeployment) (survivors replaceFive
          (orderlyUpdates.foldl (deliver referencePlatform) ⟨smallStart, []⟩).history ++
            replacementEvents referencePlatform replaceFive.replacementLogs) =
          some next.reducer.data := by
  obtain ⟨next, hnext, -⟩ := exists_of_appliedWith
    ((orderlyUpdates.foldl (deliver referencePlatform) ⟨smallStart, []⟩
      ).indexer.intoCorrectedCore referencePlatform freeImages replaceFive) (fun _ => true)
    (by decide +kernel)
  exact ⟨next, hnext, correction_is_rollback_and_replay smallStart_eq
    (Run.ofList (orderly referencePlatform) .refl (by decide +kernel)) hnext⟩

/-- The same fork, its replacement without logs. -/
def emptyFive : ChainCorrection := { replaceFive with replacementLogs := [] }

/-- A log of block 4 that arrives after block 6 was replaced, its effect on top of block 5's. -/
def lateUpdates : List Delivery :=
  upToSix ++ [unpriced (.correction replaceSix), unpriced (.log (multiplierLog 4 0xb4 30000))]

/-- After these updates the correction is applied, and publishes something else than rollback plus
replay gives. -/
def misapplied (updates : List Delivery) (c : ChainCorrection) : Bool :=
  let t := updates.foldl (deliver referencePlatform) ⟨smallStart, []⟩
  appliedWith (t.indexer.intoCorrectedCore referencePlatform freeImages c) fun next =>
    decide (replay effect (smallSnapshot.data smallDeployment)
      (survivors c t.history ++ replacementEvents referencePlatform c.replacementLogs) ≠
        some next.reducer.data)

/-- **A late log is lost by a correction.**  The replacement of block 6 makes the reducer forget
the event of block 5, a log of block 4 is then taken as new, and a correction that goes back to
block 4 restores the state from before block 5: the surviving event of block 4 has no effect. -/
theorem late_log_lost_by_correction :
    ∃ (s start : QuoteIndexer) (t : Traced) (c : ChainCorrection) (next : QuoteIndexer),
      s.bootstrap referencePlatform freeImages smallSnapshot = (start, .ok ()) ∧
      Run (deliver referencePlatform) (fun _ _ => True) ⟨start, []⟩ t ∧
      t.indexer.intoCorrectedCore referencePlatform freeImages c = .ok (next, true) ∧
      replay effect (smallSnapshot.data s.deployment)
        (survivors c t.history ++ replacementEvents referencePlatform c.replacementLogs) ≠
          some next.reducer.data := by
  have hmisapplied : misapplied lateUpdates emptyFive = true := by decide +kernel
  obtain ⟨next, hnext, htest⟩ := exists_of_appliedWith _ _ hmisapplied
  refine ⟨_, smallStart, lateUpdates.foldl (deliver referencePlatform) ⟨smallStart, []⟩, emptyFive,
    next, smallStart_eq, ?_, hnext, of_decide_eq_true htest⟩
  exact Run.foldl .refl _

/-- The head `n` of a chain whose hashes count up. -/
def chainHead (n : Nat) : BlockRef :=
  blockRef n (BitVec.ofNat 256 (1000 + n)) (BitVec.ofNat 256 (999 + n))

/-- The image of block 10 is too large to be kept, which puts the floor there; then the identity
window fills up and the identities of the blocks 1 to 3 are evicted. -/
def longUpdates : List Delivery :=
  (List.range' 1 9).map (fun n => unpriced (.head (chainHead n))) ++
    ⟨.log (multiplierLog 10 1010 20000), fun _ _ => maxOptimisticHistoryBytes + 1⟩ ::
      (List.range' 10 123).map fun n => unpriced (.head (chainHead n))

def backToFive : ChainCorrection :=
  { replaceSix with
    commonAncestor := chainHead 5
    oldTip := chainHead 132
    newTip := chainHead 5
    oldBranch := (List.range' 6 127).map chainHead
    newBranch := [] }

end Lunarbase.Client
