import Lunarbase.Support.Effect
import Lunarbase.TypeScript.Reducer

/-!
# TypeScript — Journal

The bounded undo journal (`indexer/correction_journal.ts`).  A ring buffer is a list with the
oldest entry first, and the identity lookup by number is a search in it: an identity is pushed only
when its number is not there.

An undo block is an object that several journals may hold.  `ref` is its identity: two entries with
the same `ref` are one object, and what one journal writes into it the others see (`seeing`).  The
parent hash of a block and the eviction counter are not read by anything modelled.
-/

namespace Lunarbase.TsClient

open Client (ChainCursor BlockRef)
open Effect (andThen)
open List

def entryOverheadBytes : Nat := 192
def maxCorrectionHistoryBlocks : Nat := 128
def maxCorrectionHistoryBytes : Nat := 16 * 1024 * 1024

structure CorrectionJournalLimits where
  blockCapacity : Nat
  byteCapacity : Nat
  deriving DecidableEq, Repr

def validateLimits (limits : CorrectionJournalLimits) : Except Failure Unit :=
  if limits.blockCapacity = 0 then
    .error (.indexer .invalidRequest "correction history block capacity must be positive")
  else if maxCorrectionHistoryBlocks < limits.blockCapacity then
    .error (.indexer .invalidRequest "correction history block capacity must be at most 128")
  else if limits.byteCapacity < 1024 then
    .error (.indexer .invalidRequest "correction history byte capacity must be at least 1024")
  else if maxCorrectionHistoryBytes < limits.byteCapacity then
    .error (.indexer .invalidRequest "correction history byte capacity must be at most 16 MiB")
  else .ok ()

/-! ### Identities -/

structure CursorIdentity where
  chainId : Nat
  blockNumber : Nat
  executionBlockNumber : Nat
  blockHash : Option B256
  deriving DecidableEq, Repr

def identity (cursor : ChainCursor) : CursorIdentity :=
  ⟨cursor.chainId, cursor.blockNumber, cursor.executionBlockNumber, cursor.blockHash⟩

/-- The same block: a hash is there on both sides and everything agrees. -/
def sameIdentity (left right : CursorIdentity) : Bool := left.blockHash.isSome && left == right

def assertHash (left right : CursorIdentity) (message : String) : Except Failure Unit :=
  if sameIdentity left right then .ok () else .error (gap message)

structure UndoBlock where
  ref : Nat
  block : ChainCursor
  undos : List ReducerUndo
  bytes : Nat
  deriving DecidableEq

namespace UndoBlock

def number (entry : UndoBlock) : Nat := entry.block.blockNumber

/-- Every before-image of the block put back, the last one first. -/
def revert (entry : UndoBlock) (d : Client.QuoteData) : Client.QuoteData :=
  entry.undos.foldr (fun undo d => restoreReducerUndo d undo) d

end UndoBlock

structure CorrectionJournal where
  rollbackFloor : ChainCursor
  limits : CorrectionJournalLimits
  blocks : List UndoBlock
  observedBlocks : List CursorIdentity
  observedEvictionFloor : Option Nat
  retainedBytes : Nat
  /-- The identity of the next undo block. -/
  nextRef : Nat
  deriving DecidableEq

namespace CorrectionJournal

def new (rollbackFloor : ChainCursor) (limits : CorrectionJournalLimits) : CorrectionJournal :=
  ⟨rollbackFloor, limits, [], [], none, 0, 0⟩

def observedByNumber (j : CorrectionJournal) (number : Nat) : Option CursorIdentity :=
  j.observedBlocks.find? fun observed => observed.blockNumber = number

def evictObserved (j : CorrectionJournal) : CorrectionJournal :=
  match j.observedBlocks with
  | [] => j
  | removed :: rest =>
    { j with
      observedBlocks := rest
      observedEvictionFloor :=
        if j.observedEvictionFloor.all fun floor => floor < removed.blockNumber then
          some removed.blockNumber
        else j.observedEvictionFloor }

/-- The end of `observe` and `pushObserved`: an identity of the same number is overwritten. -/
def pushObserved (j : CorrectionJournal) (observed : CursorIdentity) : CorrectionJournal :=
  match j.observedByNumber observed.blockNumber with
  | some _ =>
    { j with
      observedBlocks := j.observedBlocks.map fun retained =>
        if retained.blockNumber = observed.blockNumber then observed else retained }
  | none =>
    let j := if j.observedBlocks.length = j.limits.blockCapacity then j.evictObserved else j
    { j with observedBlocks := j.observedBlocks ++ [observed] }

def observe (j : CorrectionJournal) (cursor : ChainCursor) : CorrectionJournal :=
  if cursor.blockHash.isNone then j else j.pushObserved (identity cursor)

def validateMutation (j : CorrectionJournal) (cursor : ChainCursor) : Except Failure Unit :=
  if cursor.blockHash.isNone then .error (gap "optimistic state mutation has no block hash")
  else if j.observedEvictionFloor.any fun floor => cursor.blockNumber ≤ floor then
    .error (gap "optimistic mutation is outside retained block identity history")
  else
    match j.observedByNumber cursor.blockNumber with
    | none => .ok ()
    | some observed =>
      assertHash observed (identity cursor)
        "optimistic mutation conflicts with observed block identity"

/-- Another entry of `additional` bytes does not fit. -/
def lacksRoom (limits : CorrectionJournalLimits) (additional : Nat) (addsBlock : Bool)
    (blocks : List UndoBlock) (retainedBytes : Nat) : Bool :=
  (addsBlock && decide (limits.blockCapacity ≤ blocks.length)) ||
    decide (limits.byteCapacity < retainedBytes + additional)

/-- The loop of `makeRoom` over the blocks.  What was evicted stays evicted when it throws. -/
def makeRoomLoop (additional : Nat) (addsBlock : Bool) (protectedEntry : Option Nat)
    (j : CorrectionJournal) : List UndoBlock → CorrectionJournal × Except Failure PUnit
  | [] =>
    ({ j with blocks := [] }, if lacksRoom j.limits additional addsBlock [] j.retainedBytes then
        .error (gap "optimistic journal byte budget exceeded within one block")
      else .ok ⟨⟩)
  | oldest :: rest =>
    if lacksRoom j.limits additional addsBlock (oldest :: rest) j.retainedBytes then
      if protectedEntry = some oldest.ref then
        ({ j with blocks := oldest :: rest },
          .error (gap "optimistic journal byte budget exceeded within one block"))
      else
        makeRoomLoop additional addsBlock protectedEntry { j with
            retainedBytes := j.retainedBytes - oldest.bytes
            rollbackFloor := oldest.block } rest
    else ({ j with blocks := oldest :: rest }, .ok ⟨⟩)

def makeRoom (j : CorrectionJournal) (additional : Nat) (addsBlock : Bool)
    (protectedEntry : Option Nat) : CorrectionJournal × Except Failure PUnit :=
  makeRoomLoop additional addsBlock protectedEntry j j.blocks

/-- `entry.undos.push(undo)`, in whatever journal holds the object. -/
def appendUndo (j : CorrectionJournal) (ref : Nat) (undo : ReducerUndo) (bytes : Nat) :
    CorrectionJournal :=
  { j with
    blocks := j.blocks.map fun entry =>
      if entry.ref = ref then
        { entry with undos := entry.undos ++ [undo], bytes := entry.bytes + bytes }
      else entry
    retainedBytes := j.retainedBytes + bytes }

/-- A new entry for the block of `cursor`. -/
def pushEntry (j : CorrectionJournal) (cursor : ChainCursor) (undo : ReducerUndo)
    (entryBytes : Nat) : CorrectionJournal :=
  { j with
    blocks := j.blocks ++ [⟨j.nextRef, cursor, [undo], entryBytes⟩]
    retainedBytes := j.retainedBytes + entryBytes
    nextRef := j.nextRef + 1 }

/-- The end of `record`, for a block that has no entry. -/
def recordEntry (j : CorrectionJournal) (cursor : ChainCursor) (undo : ReducerUndo)
    (entryBytes : Nat) : CorrectionJournal × Except Failure PUnit :=
  if j.limits.byteCapacity < entryBytes then
    (j, .error (gap "optimistic journal entry exceeds its byte budget"))
  else
    andThen (j.makeRoom entryBytes true none) fun j _ =>
    if j.blocks.length = j.limits.blockCapacity then
      (j, .error (gap "optimistic journal count budget exceeded"))
    else ((j.pushEntry cursor undo entryBytes).observe cursor, .ok ⟨⟩)

def record (j : CorrectionJournal) (cursor : ChainCursor) (undo : ReducerUndo) :
    CorrectionJournal × Except Failure PUnit :=
  let bytes := reducerUndoRetainedBytes undo
  if cursor.blockHash.isNone then (j, .error (gap "optimistic state mutation has no block hash"))
  else
    match j.blocks.getLast? with
    | none => j.recordEntry cursor undo (entryOverheadBytes + bytes)
    | some last =>
      if last.number = cursor.blockNumber then
        andThen (j, assertHash (identity last.block) (identity cursor)
          "multiple hashes observed for one journal block") fun j _ =>
        andThen (j.makeRoom bytes false (some last.ref)) fun j _ =>
        (j.appendUndo last.ref undo bytes, .ok ⟨⟩)
      else if cursor.blockNumber < last.number then
        (j, .error (gap "optimistic journal block regression"))
      else j.recordEntry cursor undo (entryOverheadBytes + bytes)

/-! ### Candidates -/

/-- The search of `validateAncestor` through the blocks, up to the first one above the ancestor. -/
def ancestorEntry (number : Nat) : List UndoBlock → Option UndoBlock
  | [] => none
  | entry :: rest =>
    if entry.number = number then some entry
    else if number < entry.number then none
    else ancestorEntry number rest

def validateAncestor (j : CorrectionJournal) (ancestor : BlockRef) : Except Failure Unit :=
  if ancestor.cursor.chainId ≠ j.rollbackFloor.chainId then
    .error (gap "correction ancestor chain id mismatch")
  else if ancestor.cursor.blockNumber < j.rollbackFloor.blockNumber then
    .error (gap "correction exceeds retained optimistic history")
  else if ancestor.cursor.blockNumber = j.rollbackFloor.blockNumber then
    assertHash (identity j.rollbackFloor) (identity ancestor.cursor)
      "correction ancestor conflicts with rollback floor"
  else
    match ancestorEntry ancestor.cursor.blockNumber j.blocks with
    | some entry =>
      assertHash (identity entry.block) (identity ancestor.cursor)
        "correction ancestor conflicts with journal history"
    | none =>
      match j.observedByNumber ancestor.cursor.blockNumber with
      | some observed =>
        assertHash observed (identity ancestor.cursor)
          "correction ancestor conflicts with observed block history"
      | none => .error (gap "correction ancestor identity is not retained")

/-- The loop over the blocks; `branch` is what the offset into the old branch has not passed. -/
def validateOldBlocks (ancestorNumber : Nat) (branch : List BlockRef) :
    List UndoBlock → Except Failure Unit
  | [] => .ok ()
  | entry :: rest =>
    if entry.number ≤ ancestorNumber then validateOldBlocks ancestorNumber branch rest
    else
      let branch := branch.dropWhile fun block => block.cursor.blockNumber < entry.number
      match branch.head? with
      | none => .error (gap "old correction branch does not cover retained optimistic state")
      | some block =>
        if block.cursor.blockNumber ≠ entry.number then
          .error (gap "old correction branch does not cover retained optimistic state")
        else do
          assertHash (identity entry.block) (identity block.cursor)
            "old correction branch conflicts with retained optimistic state"
          validateOldBlocks ancestorNumber branch rest

def validateObserved (ancestorNumber : Nat) (oldBranch : List BlockRef) :
    List CursorIdentity → Except Failure Unit
  | [] => .ok ()
  | observed :: rest =>
    if observed.blockNumber ≤ ancestorNumber then validateObserved ancestorNumber oldBranch rest
    else
      match oldBranch.find? fun block => block.cursor.blockNumber = observed.blockNumber with
      | none => .error (gap "old correction branch does not cover observed block history")
      | some block => do
        assertHash observed (identity block.cursor)
          "old correction branch conflicts with observed block history"
        validateObserved ancestorNumber oldBranch rest

def validateOldBranch (j : CorrectionJournal) (ancestorNumber : Nat) (oldBranch : List BlockRef) :
    Except Failure Unit := do
  validateOldBlocks ancestorNumber oldBranch j.blocks
  validateObserved ancestorNumber oldBranch j.observedBlocks

/-- The retained prefix: the same undo blocks, and copies of the identities. -/
def prefixUpTo (j : CorrectionJournal) (ancestorNumber : Nat) : CorrectionJournal :=
  let kept := j.blocks.takeWhile fun entry => entry.number ≤ ancestorNumber
  let observed := j.observedBlocks.filter fun observed => observed.blockNumber ≤ ancestorNumber
  observed.foldl pushObserved { new j.rollbackFloor j.limits with
      blocks := kept
      retainedBytes := (kept.map (·.bytes)).sum
      observedEvictionFloor := j.observedEvictionFloor
      nextRef := j.nextRef }

/-- The reducer with every undo block above the ancestor reverted, the last one first. -/
def revertAbove (j : CorrectionJournal) (current : QuoteReducer) (ancestorNumber : Nat) :
    QuoteReducer :=
  { current with
    data := Rollback.undoAbove UndoBlock.number UndoBlock.revert j.blocks current.data
      ancestorNumber }

def candidate (j : CorrectionJournal) (current : QuoteReducer) (commonAncestor : BlockRef)
    (oldBranch : List BlockRef) : Except Failure (QuoteReducer × CorrectionJournal) := do
  j.validateAncestor commonAncestor
  j.validateOldBranch commonAncestor.cursor.blockNumber oldBranch
  let reducer ← (j.revertAbove current commonAncestor.cursor.blockNumber).prepareCorrection
    commonAncestor.cursor
  .ok (reducer, j.prefixUpTo commonAncestor.cursor.blockNumber)

/-- The journal after another one wrote into the undo blocks they share. -/
def seeing (j other : CorrectionJournal) : CorrectionJournal :=
  { j with
    blocks := j.blocks.map fun entry =>
      (other.blocks.find? fun written => written.ref = entry.ref).getD entry }

/-! ### What the operations do to the records -/

/-- Two journals that can roll back the same: only identities and budgets differ. -/
structure SameRecords (j j' : CorrectionJournal) : Prop where
  blocks : j'.blocks = j.blocks
  floor : j'.rollbackFloor = j.rollbackFloor
  nextRef : j'.nextRef = j.nextRef

theorem SameRecords.trans {j j' j'' : CorrectionJournal} (h : SameRecords j j')
    (h' : SameRecords j' j'') : SameRecords j j'' :=
  ⟨h'.blocks.trans h.blocks, h'.floor.trans h.floor, h'.nextRef.trans h.nextRef⟩

variable (j : CorrectionJournal)

theorem pushObserved_sameRecords (observed : CursorIdentity) :
    SameRecords j (j.pushObserved observed) := by
  rw [pushObserved]
  split
  · exact ⟨rfl, rfl, rfl⟩
  split_ifs
  · rw [evictObserved]
    split
    · exact ⟨rfl, rfl, rfl⟩
    · exact ⟨rfl, rfl, rfl⟩
  · exact ⟨rfl, rfl, rfl⟩

theorem observe_sameRecords (cursor : ChainCursor) : SameRecords j (j.observe cursor) := by
  rw [observe]
  split_ifs
  · exact ⟨rfl, rfl, rfl⟩
  · exact pushObserved_sameRecords j _

theorem foldl_sameRecords {α : Type} (step : CorrectionJournal → α → CorrectionJournal)
    (hstep : ∀ j a, SameRecords j (step j a)) (items : List α) (j : CorrectionJournal) :
    SameRecords j (items.foldl step j) := by
  induction items generalizing j with
  | nil => exact ⟨rfl, rfl, rfl⟩
  | cons a rest ih => exact (hstep j a).trans (ih (step j a))

theorem prefixUpTo_records (n : Nat) :
    (j.prefixUpTo n).blocks = j.blocks.takeWhile (fun entry => entry.number ≤ n) ∧
      (j.prefixUpTo n).rollbackFloor = j.rollbackFloor ∧ (j.prefixUpTo n).nextRef = j.nextRef := by
  have h := foldl_sameRecords pushObserved pushObserved_sameRecords
    (j.observedBlocks.filter fun observed => observed.blockNumber ≤ n)
    { new j.rollbackFloor j.limits with
      blocks := j.blocks.takeWhile fun entry => entry.number ≤ n
      retainedBytes := ((j.blocks.takeWhile fun entry => entry.number ≤ n).map (·.bytes)).sum
      observedEvictionFloor := j.observedEvictionFloor
      nextRef := j.nextRef }
  exact ⟨h.blocks, h.floor, h.nextRef⟩

/-- The oldest blocks are gone, and the last of them is the floor. -/
structure Evicted (dropped : List UndoBlock) (j j' : CorrectionJournal) : Prop where
  blocks : j.blocks = dropped ++ j'.blocks
  floor : j'.rollbackFloor = (dropped.getLast?.map UndoBlock.block).getD j.rollbackFloor
  nextRef : j'.nextRef = j.nextRef

theorem Evicted.refl : Evicted [] j j := ⟨rfl, rfl, rfl⟩

variable {j j' : CorrectionJournal}

theorem Evicted.cons {oldest : UndoBlock} {rest dropped : List UndoBlock} {bytes : Nat}
    (hblocks : j.blocks = oldest :: rest)
    (h : Evicted dropped
      { j with blocks := rest, retainedBytes := bytes, rollbackFloor := oldest.block } j') :
    Evicted (oldest :: dropped) j j' where
  blocks := by rw [hblocks, cons_append, ← h.blocks]
  floor := by
    rw [h.floor]
    cases dropped with
    | nil => rfl
    | cons b more => rfl
  nextRef := h.nextRef

theorem makeRoomLoop_evicted (additional : Nat) (addsBlock : Bool) (protectedEntry : Option Nat)
    (blocks : List UndoBlock) (j : CorrectionJournal) :
    ∃ dropped, Evicted dropped { j with blocks := blocks }
        (makeRoomLoop additional addsBlock protectedEntry j blocks).1 ∧
      ∀ b ∈ dropped, protectedEntry ≠ some b.ref := by
  -- the loop stops at the blocks it is left with, or drops the oldest and goes on
  induction blocks generalizing j with
  | nil => exact ⟨[], .refl _, by simp⟩
  | cons oldest rest ih =>
    rw [makeRoomLoop]
    split_ifs with hroom hprotected
    · exact ⟨[], .refl _, by simp⟩
    · obtain ⟨dropped, hevicted, hfree⟩ := ih { j with
          retainedBytes := j.retainedBytes - oldest.bytes
          rollbackFloor := oldest.block }
      refine ⟨oldest :: dropped, .cons rfl hevicted, ?_⟩
      intro b hb
      rcases mem_cons.mp hb with rfl | hmore
      · exact hprotected
      · exact hfree b hmore
    · exact ⟨[], .refl _, by simp⟩

theorem makeRoom_evicted (additional : Nat) (addsBlock : Bool) (protectedEntry : Option Nat) :
    ∃ dropped, Evicted dropped j (j.makeRoom additional addsBlock protectedEntry).1 ∧
      ∀ b ∈ dropped, protectedEntry ≠ some b.ref :=
  makeRoomLoop_evicted additional addsBlock protectedEntry j.blocks j

/-- What `record` leaves: it threw, perhaps after evictions; or the before-image is in the last
entry; or in a new one. -/
inductive Recorded (j : CorrectionJournal) (cursor : ChainCursor) (undo : ReducerUndo) :
    CorrectionJournal × Except Failure PUnit → Prop where
  | failed {dropped j' e} : Evicted dropped j j' → Recorded j cursor undo (j', .error e)
  | appended {dropped kept last j₁ bytes} : Evicted dropped j j₁ →
      j₁.blocks = kept ++ [last] → last.number = cursor.blockNumber →
      last.block.blockHash = cursor.blockHash →
      Recorded j cursor undo (j₁.appendUndo last.ref undo bytes, .ok ⟨⟩)
  | pushed {dropped j₁ bytes j'} : Evicted dropped j j₁ →
      (∀ last, j.blocks.getLast? = some last → last.number < cursor.blockNumber) →
      SameRecords (j₁.pushEntry cursor undo bytes) j' → Recorded j cursor undo (j', .ok ⟨⟩)

theorem assertHash_eq_ok {left right : CursorIdentity} {message : String}
    (h : assertHash left right message = .ok ()) : left.blockHash.isSome ∧ left = right := by
  rw [assertHash] at h
  split_ifs at h with hsame
  simpa [sameIdentity] using hsame

/-- The protected last entry stays. -/
theorem Evicted.keeps_last {dropped : List UndoBlock} {last : UndoBlock}
    (h : Evicted dropped j j') (hlast : j.blocks.getLast? = some last)
    (hfree : ∀ b ∈ dropped, b.ref ≠ last.ref) : ∃ kept, j'.blocks = kept ++ [last] := by
  rw [h.blocks] at hlast
  rcases eq_nil_or_concat j'.blocks with hnil | ⟨kept, last', hkept⟩
  · rw [hnil, append_nil] at hlast
    exact absurd rfl (hfree last (mem_of_getLast? hlast))
  · rw [hkept, concat_eq_append, ← append_assoc, List.getLast?_concat] at hlast
    exact ⟨kept, by rw [hkept, concat_eq_append, Option.some.inj hlast]⟩

theorem recordEntry_recorded {cursor : ChainCursor} (undo : ReducerUndo) (bytes : Nat)
    (habove : ∀ last, j.blocks.getLast? = some last → last.number < cursor.blockNumber) :
    Recorded j cursor undo (j.recordEntry cursor undo bytes) := by
  rw [recordEntry]
  split_ifs with hbytes
  · exact .failed (.refl j)
  obtain ⟨dropped, hevicted, -⟩ := j.makeRoom_evicted bytes true none
  rcases hroom : j.makeRoom bytes true none with ⟨j₁, e | ⟨⟨⟩⟩⟩
  · rw [hroom] at hevicted
    exact .failed hevicted
  rw [hroom] at hevicted
  dsimp only [andThen]
  split_ifs with hfull
  · exact .failed hevicted
  · exact .pushed hevicted habove (observe_sameRecords _ cursor)

theorem record_recorded (cursor : ChainCursor) (undo : ReducerUndo) :
    Recorded j cursor undo (j.record cursor undo) := by
  rw [record]
  split_ifs with hhash
  · exact .failed (.refl j)
  cases hlast : j.blocks.getLast? with
  | none => exact recordEntry_recorded undo _ (by simp [hlast])
  | some last =>
    dsimp only
    split_ifs with hsame hbelow
    · cases hidentity : assertHash (identity last.block) (identity cursor)
          "multiple hashes observed for one journal block" with
      | error e => exact .failed (.refl j)
      | ok =>
        obtain ⟨-, heq⟩ := assertHash_eq_ok hidentity
        obtain ⟨dropped, hevicted, hfree⟩ :=
          j.makeRoom_evicted (reducerUndoRetainedBytes undo) false (some last.ref)
        obtain ⟨kept, hkept⟩ := hevicted.keeps_last hlast fun b hb href =>
          hfree b hb (congrArg some href.symm)
        dsimp only [andThen]
        rcases hroom : j.makeRoom (reducerUndoRetainedBytes undo) false (some last.ref) with
          ⟨j₁, e | ⟨⟨⟩⟩⟩
        · rw [hroom] at hevicted
          exact .failed hevicted
        · rw [hroom] at hevicted hkept
          exact .appended hevicted hkept hsame (congrArg CursorIdentity.blockHash heq)
    · exact .failed (.refl j)
    · refine recordEntry_recorded undo _ ?_
      intro last' hlast'
      obtain rfl := Option.some.inj (hlast.symm.trans hlast')
      exact lt_of_le_of_ne (not_lt.mp hbelow) hsame

/-- The entries strictly ascend, so the retained prefix is what is not above the ancestor. -/
theorem takeWhile_eq_filter {blocks : List UndoBlock} (n : Nat)
    (hsorted : blocks.Pairwise fun b b' => b.number < b'.number) :
    blocks.takeWhile (fun entry => entry.number ≤ n) =
      blocks.filter fun entry => entry.number ≤ n := by
  induction blocks with
  | nil => rfl
  | cons b rest ih =>
    obtain ⟨hfirst, hrest⟩ := pairwise_cons.mp hsorted
    by_cases hb : b.number ≤ n
    · simp only [takeWhile_cons, filter_cons, hb, decide_true, if_true, ih hrest]
    have hnone : rest.filter (fun entry => entry.number ≤ n) = [] :=
      filter_eq_nil_iff.mpr fun b' hb' => by
        simpa using (not_le.mp hb).trans (hfirst b' hb')
    simp [hb, hnone]

end CorrectionJournal

end Lunarbase.TsClient
