import Lunarbase.Client.Reducer
import Mathlib.Data.List.DropRight

/-!
# Client — Journal

The optimistic journal (`indexer/engine/correction.rs`, `correction/identity.rs`): sparse
before-images of the blocks that changed quote data, a separately bounded window of block
identities, and the floor below which nothing can be rolled back.

The size of a before-image depends on hash-map capacities and not only on the contents; it is the
argument `bytes`, an `ImageCost`.
-/

namespace Lunarbase.Client

def maxOptimisticHistoryBlocks : Nat := 128
def maxOptimisticHistoryBytes : Nat := 64 * 1024 * 1024

structure OptimisticBlock where
  cursor : ChainCursor
  before : QuoteReducer
  retainedBytes : Nat
  deriving DecidableEq

/-- What a before-image is charged, at the cursor it is made for. -/
abbrev ImageCost := ChainCursor → QuoteReducer → Nat

structure JournalState where
  blocks : List OptimisticBlock
  identities : List ChainCursor
  retainedBytes : Nat
  rollbackFloor : Option ChainCursor
  budgetEvictions : Nat
  generation : Nat
  deriving DecidableEq

def correctionGap (reason : String) : IndexerError := .gap reason

def validateRollbackFloor (floor : Option ChainCursor) (ancestor : BlockRef) :
    Except IndexerError Unit :=
  match floor with
  | none => .ok ()
  | some floor =>
    if ancestor.cursor.chainId ≠ floor.chainId ∨ ancestor.cursor.blockNumber < floor.blockNumber ∨
        (ancestor.cursor.blockNumber = floor.blockNumber ∧
          (floor.executionBlockNumber ≠ ancestor.cursor.executionBlockNumber ∨
            floor.blockHash ≠ ancestor.cursor.blockHash)) then
      .error (correctionGap "correction ancestor is older than retained optimistic history")
    else .ok ()

namespace JournalState

def empty : JournalState := ⟨[], [], 0, none, 0, 0⟩

def bumpGeneration (j : JournalState) : JournalState :=
  { j with generation := saturatingAdd j.generation 1 }

/-- The floor excludes a block of this height. -/
def atOrBelowFloor (j : JournalState) (number : Nat) : Bool :=
  j.rollbackFloor.any fun floor => number ≤ floor.blockNumber

def reset (j : JournalState) (floor : ChainCursor) : JournalState :=
  { blocks := []
    identities := []
    retainedBytes := 0
    rollbackFloor := some floor
    budgetEvictions := j.budgetEvictions
    generation := saturatingAdd j.generation 1 }

/-- The same block, as the journal and the identity window compare it. -/
def sameIdentity (left right : ChainCursor) : Bool :=
  left.chainId == right.chainId && left.blockNumber == right.blockNumber &&
    left.executionBlockNumber == right.executionBlockNumber && left.blockHash == right.blockHash

def needsCapture (j : JournalState) (cursor : ChainCursor) : Bool :=
  !j.blocks.getLast?.any fun block => sameIdentity block.cursor cursor

/-! ### Evictions -/

def dropFront (j : JournalState) (budgetEviction : Bool) : JournalState :=
  match j.blocks with
  | [] => j
  | block :: rest =>
    { j with
      blocks := rest
      retainedBytes := j.retainedBytes - block.retainedBytes
      rollbackFloor := some block.cursor
      budgetEvictions :=
        if budgetEviction then saturatingAdd j.budgetEvictions 1 else j.budgetEvictions }

def overBudget (j : JournalState) : Bool :=
  maxOptimisticHistoryBlocks < j.blocks.length || maxOptimisticHistoryBytes < j.retainedBytes

/-- `drop_front` while `test` holds of the journal, at most `fuel` times. -/
def dropFrontWhile (test : JournalState → Bool) (budgetEviction : Bool) :
    Nat → JournalState → JournalState
  | 0, j => j
  | fuel + 1, j =>
    if test j then dropFrontWhile test budgetEviction fuel (j.dropFront budgetEviction) else j

/-- The loop ends at the latest when every before-image is gone. -/
def enforceLimits (j : JournalState) : JournalState :=
  dropFrontWhile overBudget true j.blocks.length j

/-- The oldest before-image is of a block at or below `number`. -/
def frontAtOrBelow (number : Nat) (j : JournalState) : Bool :=
  j.blocks.head?.any fun block => block.cursor.blockNumber ≤ number

def captureBefore (bytes : ImageCost) (j : JournalState)
    (cursor : ChainCursor) (reducer : QuoteReducer) : JournalState :=
  if !j.needsCapture cursor then j
  else
    let retainedBytes := bytes cursor reducer
    enforceLimits { j.bumpGeneration with
        retainedBytes := saturatingAdd j.retainedBytes retainedBytes
        blocks := j.blocks ++ [⟨cursor, reducer, retainedBytes⟩] }

def advanceFloor (j : JournalState) (floor : ChainCursor) : JournalState :=
  let j' := dropFrontWhile (frontAtOrBelow floor.blockNumber) false j.blocks.length j.bumpGeneration
  { j' with
    identities := j'.identities.dropWhile fun cursor => cursor.blockNumber ≤ floor.blockNumber
    rollbackFloor := some floor }

/-! ### Identities -/

def retainedIdentity (j : JournalState) (number : Nat) : Option ChainCursor :=
  j.identities.find? fun retained => retained.blockNumber = number

def validateEventIdentity (j : JournalState) (cursor : ChainCursor) : Except IndexerError Unit :=
  match j.retainedIdentity cursor.blockNumber with
  | none =>
    if j.atOrBelowFloor cursor.blockNumber then
      .error (correctionGap "event identity is older than retained optimistic history")
    else .ok ()
  | some retained =>
    if retained.chainId ≠ cursor.chainId ∨
        retained.executionBlockNumber ≠ cursor.executionBlockNumber ∨
        ¬ (retained.blockHash = cursor.blockHash ∨
          (retained.blockHash.isNone ∧ cursor.blockHash.isSome)) then
      .error (correctionGap "event identity disagrees with retained optimistic history")
    else .ok ()

/-- One round of the loop of `insert_identity`: the lowest identity is evicted, with every
before-image at or below it, and becomes the floor. -/
def evictIdentity (j : JournalState) : JournalState :=
  match j.identities with
  | [] => j
  | evicted :: rest =>
    let j₁ := { j with identities := rest }
    let j₂ := dropFrontWhile (frontAtOrBelow evicted.blockNumber) true j₁.blocks.length j₁
    let j₃ := { j₂ with rollbackFloor := some evicted }
    if frontAtOrBelow evicted.blockNumber j₁ then j₃.bumpGeneration else j₃

def evictIdentities : Nat → JournalState → JournalState
  | 0, j => j
  | fuel + 1, j =>
    if maxOptimisticHistoryBlocks < j.identities.length then
      evictIdentities fuel j.evictIdentity
    else j

def insertIdentity (j : JournalState) (cursor : ChainCursor) : JournalState :=
  let below := j.identities.takeWhile fun retained => retained.blockNumber ≤ cursor.blockNumber
  let above := j.identities.dropWhile fun retained => retained.blockNumber ≤ cursor.blockNumber
  let j' := { j with identities := below ++ cursor :: above }
  evictIdentities j'.identities.length j'

/-- The retained identity of this height, replaced. -/
def replaceIdentity (cursor : ChainCursor) : List ChainCursor → List ChainCursor
  | [] => []
  | retained :: rest =>
    if retained.blockNumber = cursor.blockNumber then cursor :: rest
    else retained :: replaceIdentity cursor rest

def recordIdentity (j : JournalState) (cursor : ChainCursor) (replace : Bool) : JournalState :=
  if j.atOrBelowFloor cursor.blockNumber then j
  else match j.retainedIdentity cursor.blockNumber with
    | some retained =>
      if !replace && retained.chainId == cursor.chainId &&
          retained.executionBlockNumber == cursor.executionBlockNumber &&
          retained.blockHash == cursor.blockHash then j
      else { j with identities := replaceIdentity cursor j.identities }
    | none => j.insertIdentity cursor

def recordEventIdentity (j : JournalState) (cursor : ChainCursor) : JournalState :=
  j.recordIdentity cursor false

def recordHeadIdentity (j : JournalState) (cursor : ChainCursor) : JournalState :=
  j.recordIdentity cursor true

/-! ### Rewinding -/

/-- The block a correction's abandoned branch has at the height of `cursor`, when it is the same
block. -/
def matchesBranch (ancestor : BlockRef) (oldBranch : List BlockRef) (cursor : ChainCursor)
    (beyond mismatch : String) : Except IndexerError Unit :=
  match oldBranch[cursor.blockNumber - ancestor.cursor.blockNumber - 1]? with
  | none => .error (correctionGap beyond)
  | some expected =>
    if cursor.chainId ≠ expected.cursor.chainId ∨
        cursor.executionBlockNumber ≠ expected.cursor.executionBlockNumber ∨
        cursor.blockHash.isNone ∨ cursor.blockHash ≠ expected.cursor.blockHash then
      .error (correctionGap mismatch)
    else .ok ()

def matchesBranchAll (ancestor : BlockRef) (oldBranch : List BlockRef) (beyond mismatch : String) :
    List ChainCursor → Except IndexerError Unit
  | [] => .ok ()
  | cursor :: rest => do
    matchesBranch ancestor oldBranch cursor beyond mismatch
    matchesBranchAll ancestor oldBranch beyond mismatch rest

def validateRetainedBranch (j : JournalState) (ancestor : BlockRef) (oldBranch : List BlockRef) :
    Except IndexerError Unit :=
  matchesBranchAll ancestor oldBranch "retained identity extends beyond the abandoned branch"
    "retained identity does not match the abandoned branch"
    (j.identities.filter fun cursor => ancestor.cursor.blockNumber < cursor.blockNumber)

/-- The ancestor is the retained identity of its height; above the floor there has to be one. -/
def validateAncestorIdentity (j : JournalState) (ancestor : BlockRef) :
    Except IndexerError Unit :=
  match j.retainedIdentity ancestor.cursor.blockNumber with
  | none =>
    if j.rollbackFloor.all fun floor => floor.blockNumber < ancestor.cursor.blockNumber then
      .error (correctionGap "correction ancestor identity is not retained")
    else .ok ()
  | some retained =>
    if retained.chainId ≠ ancestor.cursor.chainId ∨
        retained.executionBlockNumber ≠ ancestor.cursor.executionBlockNumber ∨
        retained.blockHash.isNone ∨ retained.blockHash ≠ ancestor.cursor.blockHash then
      .error (correctionGap
        "correction ancestor identity disagrees with retained optimistic history")
    else .ok ()

/-- The before-images of blocks above the ancestor. -/
def affected (j : JournalState) (ancestor : BlockRef) : List OptimisticBlock :=
  j.blocks.filter fun block => ancestor.cursor.blockNumber < block.cursor.blockNumber

def restorePoint (j : JournalState) (ancestor : BlockRef) (oldBranch : List BlockRef) :
    Except IndexerError (Option QuoteReducer) := do
  validateRollbackFloor j.rollbackFloor ancestor
  j.validateAncestorIdentity ancestor
  j.validateRetainedBranch ancestor oldBranch
  matchesBranchAll ancestor oldBranch "journal extends beyond the abandoned branch"
    "journal block identity does not match the abandoned branch"
    ((j.affected ancestor).map OptimisticBlock.cursor)
  .ok ((j.affected ancestor).head?.map OptimisticBlock.before)

def rewindAfter (j : JournalState) (ancestor : BlockRef) : JournalState :=
  let popped := j.blocks.rtakeWhile fun block =>
    ancestor.cursor.blockNumber < block.cursor.blockNumber
  let j' := if popped = [] then j else j.bumpGeneration
  { j' with
    blocks := j.blocks.rdropWhile fun block =>
      ancestor.cursor.blockNumber < block.cursor.blockNumber
    retainedBytes := popped.foldr (fun block bytes => bytes - block.retainedBytes) j.retainedBytes
    identities := j.identities.rdropWhile fun cursor =>
      ancestor.cursor.blockNumber < cursor.blockNumber }

end JournalState

end Lunarbase.Client
