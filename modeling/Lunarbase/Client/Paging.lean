import Lunarbase.Client.Model
import Lunarbase.Support.Paging

/-!
# Client — Paging

The four loops that ask a source for the logs of a block range page by page: the recovery backfill
and the checkpoint recovery of the client, the recovery of the event worker, and the backfill of the
websocket source.  Three compute the next page from the last one and end when a page ends at the
last block; the fourth is an iterator.  What a loop does with a page is a parameter (`visit`), which
may end the loop, and so is what it does after the last page (`finish`).

They all ask for the same pages, which partition the range (`paging_loops_partition`).  At the top
of the 64-bit range a page end saturates at the last block of the range, and no step goes past it.
-/

namespace Lunarbase

open Client

/-- The last block of the page that starts at `fromBlock`. -/
def pageEndOf (pageBlocks fromBlock toBlock : Nat) : Nat :=
  min (saturatingAdd fromBlock (pageBlocks - 1)) toBlock

theorem endsWithin_pageEndOf {pageBlocks toBlock : Nat} (hpositive : 0 < pageBlocks)
    (hto : toBlock ≤ u64Max) : EndsWithin (pageEndOf pageBlocks · toBlock) toBlock pageBlocks := by
  intro fromBlock hfrom
  simp only [pageEndOf, saturatingAdd]
  omega

/-- The loop of the client and of the event worker. -/
def pagesLoop {σ ε : Type} (pageEnd : Nat → Nat → Nat) (fromBlock toBlock : Nat)
    (finish : σ → Except ε σ) (visit : σ → Page → Except ε σ) (fuel : Nat) (s : σ) :
    Option (Except ε σ) :=
  (pageLoop (pageEnd · toBlock) (saturatingAdd · 1) toBlock visit fuel s fromBlock).map
    (· >>= finish)

namespace Client

/-- `RECOVERY_PAGE_BLOCKS`. -/
def recoveryPageBlocks : Nat := 1000

def recoveryPageEnd : Nat → Nat → Nat := pageEndOf recoveryPageBlocks

section

variable {σ : Type}

/-- `recovery_backfill::load`, for any page end. -/
def loadRecoveryBy (pageEnd : Nat → Nat → Nat) (fromCursor toCursor : ChainCursor)
    (finish : σ → Except IndexerError σ) (visit : σ → Page → Except IndexerError σ) (fuel : Nat)
    (s : σ) : Option (Except IndexerError σ) :=
  if fromCursor.chainId ≠ toCursor.chainId then some (.error (.reducer .chainIdMismatch))
  else if toCursor.blockNumber < fromCursor.blockNumber then
    some (.error (.gap "canonical recovery head regressed below the pre-gap cursor"))
  else pagesLoop pageEnd fromCursor.blockNumber toCursor.blockNumber finish visit fuel s

/-- `recovery_backfill::load`. -/
def loadRecovery : ChainCursor → ChainCursor → (σ → Except IndexerError σ) →
    (σ → Page → Except IndexerError σ) → Nat → σ → Option (Except IndexerError σ) :=
  loadRecoveryBy recoveryPageEnd

/-- The first block after a checkpoint: its own, unless the checkpoint is at the end of it. -/
def checkpointStart (checkpoint : ChainCursor) : Nat :=
  if checkpoint.transactionIndex.isNone && checkpoint.logIndex.isNone then
    saturatingAdd checkpoint.blockNumber 1
  else checkpoint.blockNumber

/-- `recover_checkpoint` from the canonical head on, for any page end. -/
def recoverCheckpointBy (pageEnd : Nat → Nat → Nat) (checkpoint : Option ChainCursor)
    (head : ChainCursor) (finish : σ → Except IndexerError σ)
    (visit : σ → Page → Except IndexerError σ) (fuel : Nat) (s : σ) :
    Option (Except IndexerError σ) :=
  match checkpoint with
  | none => some (.error .noCursor)
  | some checkpoint =>
    if head.chainId ≠ checkpoint.chainId then some (.error (.reducer .chainIdMismatch))
    else if head.blockNumber < checkpoint.blockNumber then
      some (.error (.gap "canonical head regressed below checkpoint"))
    else if checkpointStart checkpoint ≤ head.blockNumber then
      pagesLoop pageEnd (checkpointStart checkpoint) head.blockNumber finish visit fuel s
    else some (finish s)

/-- `recover_checkpoint`, from the canonical head on. -/
def recoverCheckpoint : Option ChainCursor → ChainCursor → (σ → Except IndexerError σ) →
    (σ → Page → Except IndexerError σ) → Nat → σ → Option (Except IndexerError σ) :=
  recoverCheckpointBy recoveryPageEnd

end

end Client

namespace EventWorker

inductive RuntimeError where
  | recoveryLog (message : String)
  deriving DecidableEq, Repr

def aheadOfHead (fromBlock headBlock : Nat) : RuntimeError :=
  .recoveryLog ("durable cursor block " ++ toString fromBlock ++ " is ahead of canonical head " ++
    toString headBlock)

/-- `recover`, once the durable cursor and the canonical head are there.  It returns early with an
error or with a transition `τ`. -/
def recover {σ τ : Type} (backfillPageBlocks deploymentBlock : Nat)
    (cursor : Option Client.ChainCursor) (head : Client.ChainCursor)
    (finish : σ → Except (Except RuntimeError τ) σ)
    (visit : σ → Page → Except (Except RuntimeError τ) σ) (fuel : Nat) (s : σ) :
    Option (Except (Except RuntimeError τ) σ) :=
  let fromBlock := (cursor.map (·.blockNumber)).getD deploymentBlock
  if head.blockNumber < fromBlock then
    some (.error (.error (aheadOfHead fromBlock head.blockNumber)))
  else pagesLoop (pageEndOf backfillPageBlocks) fromBlock head.blockNumber finish visit fuel s

end EventWorker

namespace SourceEvm

/-- `backfill_pages`: the next page, and where the iterator goes on. -/
def backfillPages (toBlock pageBlocks : Nat) : Option Nat → Option (Page × Option Nat)
  | none => none
  | some start =>
    if toBlock < start then none
    else
      let last := min (saturatingAdd start (pageBlocks - 1)) toBlock
      some (⟨start, last⟩, if last < toBlock then some (last + 1) else none)

/-- The loop over the pages from `fromBlock` on. -/
def forPages {σ ε : Type} (fromBlock toBlock pageBlocks : Nat) (finish : σ → Except ε σ)
    (visit : σ → Page → Except ε σ) (fuel : Nat) (s : σ) : Option (Except ε σ) :=
  (forEachPage (backfillPages toBlock pageBlocks) visit fuel s (some fromBlock)).map (· >>= finish)

end SourceEvm

/-! ### The pages that are asked for -/

section

variable {σ ε : Type} {fromBlock toBlock pageBlocks : Nat} {finish : σ → Except ε σ}
  {run : (σ → Page → Except ε σ) → Nat → σ → Option (Except ε σ)}

/-- The run asks for pages that partition the range. -/
def Partitions (run : (σ → Page → Except ε σ) → Nat → σ → Option (Except ε σ))
    (fromBlock toBlock pageBlocks : Nat) (finish : σ → Except ε σ) : Prop :=
  ∃ pages, Pages fromBlock toBlock pageBlocks pages ∧ Visits run pages finish

theorem partitions_nil (hempty : toBlock < fromBlock) (hrun : run = fun _ _ s => some (finish s)) :
    Partitions run fromBlock toBlock pageBlocks finish :=
  ⟨[], .nil hempty, fun visit s => ⟨0, fun _ _ => by rw [hrun]; rfl⟩⟩

variable (hpositive : 0 < pageBlocks) (hto : toBlock ≤ u64Max)

include hpositive hto

theorem partitions_pagesLoop (hle : fromBlock ≤ toBlock)
    (hrun : run = pagesLoop (pageEndOf pageBlocks) fromBlock toBlock finish) :
    Partitions run fromBlock toBlock pageBlocks finish := by
  have hend := endsWithin_pageEndOf hpositive hto
  obtain ⟨pages, hpages⟩ := hend.exists_paged fromBlock hle
  refine ⟨pages, hpages.partition hend hle, fun visit s => ⟨pages.length, fun fuel hfuel => ?_⟩⟩
  have hnext : ∀ n < toBlock, saturatingAdd n 1 = n + 1 := by
    intro n hn
    unfold saturatingAdd
    omega
  rw [hrun, pagesLoop, hpages.pageLoop hnext visit s hfuel]
  rfl

theorem partitions_forPages (finish : σ → Except ε σ) :
    Partitions (SourceEvm.forPages fromBlock toBlock pageBlocks finish) fromBlock toBlock pageBlocks
      finish := by
  by_cases hle : fromBlock ≤ toBlock
  · have hend := endsWithin_pageEndOf hpositive hto
    obtain ⟨pages, hpages⟩ := hend.exists_paged fromBlock hle
    refine ⟨pages, hpages.partition hend hle, fun visit s =>
      ⟨pages.length + 1, fun fuel hfuel => ?_⟩⟩
    have hstep : ∀ n ≤ toBlock, SourceEvm.backfillPages toBlock pageBlocks (some n) =
        some (⟨n, pageEndOf pageBlocks n toBlock⟩, if pageEndOf pageBlocks n toBlock < toBlock then
            some (pageEndOf pageBlocks n toBlock + 1) else none) :=
      fun n hn => if_neg (not_lt.mpr hn)
    rw [SourceEvm.forPages, hpages.visits some rfl hstep hle visit s hfuel]
    rfl
  · have hnone : SourceEvm.backfillPages toBlock pageBlocks (some fromBlock) = none :=
      if_pos (not_le.mp hle)
    refine ⟨[], .nil (not_le.mp hle), fun visit s => ⟨1, fun fuel hfuel => ?_⟩⟩
    obtain ⟨fuel, rfl⟩ := Nat.exists_eq_add_of_le' hfuel
    rw [SourceEvm.forPages, forEachPage, hnone]
    rfl

end

/-- A checkpoint at the end of the head's block starts above the head, and then nothing is asked
for. -/
theorem partitions_recoverCheckpoint {σ : Type} {pageBlocks : Nat} (hpositive : 0 < pageBlocks)
    {checkpoint head : Client.ChainCursor} (finish : σ → Except Client.IndexerError σ)
    (hchain : head.chainId = checkpoint.chainId) (hcheckpoint : checkpoint.blockNumber ≤ u64Max)
    (hto : head.blockNumber ≤ u64Max) :
    Partitions (recoverCheckpointBy (pageEndOf pageBlocks) (some checkpoint) head finish)
      (checkpointStart checkpoint) head.blockNumber pageBlocks
      (if checkpoint.blockNumber ≤ head.blockNumber then finish
        else fun _ => .error (.gap "canonical head regressed below checkpoint")) := by
  have hstart : checkpoint.blockNumber ≤ checkpointStart checkpoint := by
    unfold checkpointStart saturatingAdd
    split
    · omega
    · exact le_rfl
  by_cases hle : checkpoint.blockNumber ≤ head.blockNumber
  · rw [if_pos hle]
    by_cases hin : checkpointStart checkpoint ≤ head.blockNumber
    · refine partitions_pagesLoop hpositive hto hin ?_
      funext visit fuel s
      rw [recoverCheckpointBy, if_neg (not_not.mpr hchain), if_neg (not_lt.mpr hle), if_pos hin]
    refine partitions_nil (not_le.mp hin) ?_
    funext visit fuel s
    rw [recoverCheckpointBy, if_neg (not_not.mpr hchain), if_neg (not_lt.mpr hle), if_neg hin]
  · rw [if_neg hle]
    refine partitions_nil ((not_le.mp hle).trans_le hstart) ?_
    funext visit fuel s
    rw [recoverCheckpointBy, if_neg (not_not.mpr hchain), if_pos (not_le.mp hle)]

/-- **Block-range paging is an exact partition.**  For every range of 64-bit block numbers and every
positive page size each of the four loops ends, and asks for consecutive, disjoint, non-empty pages
of at most that size which make up the range; it asks for nothing when the range is empty. -/
theorem paging_loops_partition {σ τ : Type} (pageBlocks : Nat) (hpositive : 0 < pageBlocks) :
    (∀ (fromCursor toCursor : Client.ChainCursor) (finish : σ → Except Client.IndexerError σ),
      fromCursor.chainId = toCursor.chainId → toCursor.blockNumber ≤ u64Max →
      Partitions (loadRecoveryBy (pageEndOf pageBlocks) fromCursor toCursor finish)
        fromCursor.blockNumber toCursor.blockNumber pageBlocks
        (if fromCursor.blockNumber ≤ toCursor.blockNumber then finish
          else fun _ => .error
            (.gap "canonical recovery head regressed below the pre-gap cursor"))) ∧
    (∀ (checkpoint head : Client.ChainCursor) (finish : σ → Except Client.IndexerError σ),
      head.chainId = checkpoint.chainId → checkpoint.blockNumber ≤ u64Max →
      head.blockNumber ≤ u64Max →
      Partitions (recoverCheckpointBy (pageEndOf pageBlocks) (some checkpoint) head finish)
        (checkpointStart checkpoint) head.blockNumber pageBlocks
        (if checkpoint.blockNumber ≤ head.blockNumber then finish
          else fun _ => .error (.gap "canonical head regressed below checkpoint"))) ∧
    (∀ (deploymentBlock : Nat) (cursor : Option Client.ChainCursor) (head : Client.ChainCursor)
      (finish : σ → Except (Except EventWorker.RuntimeError τ) σ),
      head.blockNumber ≤ u64Max →
      let fromBlock := (cursor.map (·.blockNumber)).getD deploymentBlock
      Partitions (EventWorker.recover pageBlocks deploymentBlock cursor head finish) fromBlock
        head.blockNumber pageBlocks
        (if fromBlock ≤ head.blockNumber then finish
          else fun _ => .error (.error (EventWorker.aheadOfHead fromBlock head.blockNumber)))) ∧
    ∀ (fromBlock toBlock : Nat) (finish : σ → Except τ σ), toBlock ≤ u64Max →
      Partitions (SourceEvm.forPages fromBlock toBlock pageBlocks finish) fromBlock toBlock
        pageBlocks finish := by
  refine ⟨fun fromCursor toCursor finish hchain hto => ?_,
    fun checkpoint head finish => partitions_recoverCheckpoint hpositive finish,
    fun deploymentBlock cursor head finish hto => ?_,
    fun fromBlock toBlock finish hto => partitions_forPages hpositive hto finish⟩
  · by_cases hle : fromCursor.blockNumber ≤ toCursor.blockNumber
    · rw [if_pos hle]
      refine partitions_pagesLoop hpositive hto hle ?_
      funext visit fuel s
      rw [loadRecoveryBy, if_neg (not_not.mpr hchain), if_neg (not_lt.mpr hle)]
    rw [if_neg hle]
    refine partitions_nil (not_le.mp hle) ?_
    funext visit fuel s
    rw [loadRecoveryBy, if_neg (not_not.mpr hchain), if_pos (not_le.mp hle)]
  · intro fromBlock
    by_cases hle : fromBlock ≤ head.blockNumber
    · rw [if_pos hle]
      refine partitions_pagesLoop hpositive hto hle ?_
      funext visit fuel s
      exact if_neg (not_lt.mpr hle)
    rw [if_neg hle]
    refine partitions_nil (not_le.mp hle) ?_
    funext visit fuel s
    exact if_pos (not_le.mp hle)

/-- The last block but one of the 64-bit range. -/
def topCursor : Client.ChainCursor :=
  ⟨1, u64Max - 1, 0, none, some 0, some 0, none, none, .canonical⟩

theorem paging_loops_partition_top :
    Partitions (loadRecovery topCursor { topCursor with blockNumber := u64Max }
      fun s : Nat => .ok s) (u64Max - 1) u64Max recoveryPageBlocks (fun s => .ok s) ∧
    Partitions (recoverCheckpoint (some topCursor) { topCursor with blockNumber := u64Max }
      fun s : Nat => .ok s) (u64Max - 1) u64Max recoveryPageBlocks fun s => .ok s := by
  have hpaging := paging_loops_partition (σ := Nat) (τ := Unit) recoveryPageBlocks (by decide)
  exact ⟨hpaging.1 topCursor { topCursor with blockNumber := u64Max } .ok rfl (by decide),
    hpaging.2.1 topCursor { topCursor with blockNumber := u64Max } .ok rfl (by decide) (by decide)⟩

end Lunarbase
