import Lunarbase.Client.Stages

/-!
# Client — JournalOps

The journal as a machine of its own: its six operations, in any order and with any arguments.

* The bounds hold in every run (`Bounded.perform`): at most 128 identities, strictly ascending, at
  most 128 before-images within 64 MiB, and the byte count is their sum.
* The order does not: nothing keeps an image from being captured below an earlier one, and an
  identity evicted from a full window becomes the floor whatever the floor is.  Where neither
  happens the images are in block order, the floor only rises, and no correction goes back below
  an evicted image (`journal_in_order`).
* `disordered_journal`: both happen in runs of the quote indexer.

Every stage of a call acts on the journal through these operations (`journal_of_takes`).
-/

namespace Lunarbase.Client

open List Bool Nat

inductive JournalOp where
  | captureBefore (cursor : ChainCursor) (reducer : QuoteReducer) (bytes : Nat)
  | recordHeadIdentity (cursor : ChainCursor)
  | recordEventIdentity (cursor : ChainCursor)
  | advanceFloor (floor : ChainCursor)
  | rewindAfter (ancestor : BlockRef)
  | reset (floor : ChainCursor)

def JournalOp.isReset : JournalOp → Bool
  | .reset _ => true
  | _ => false

def imageBytes (blocks : List OptimisticBlock) : Nat := (blocks.map (·.retainedBytes)).sum

theorem imageBytes_append (left right : List OptimisticBlock) :
    imageBytes (left ++ right) = imageBytes left + imageBytes right := by
  simp [imageBytes]

namespace JournalState

def perform (j : JournalState) : JournalOp → JournalState
  | .captureBefore cursor reducer bytes => j.captureBefore (fun _ _ => bytes) cursor reducer
  | .recordHeadIdentity cursor => j.recordHeadIdentity cursor
  | .recordEventIdentity cursor => j.recordEventIdentity cursor
  | .advanceFloor floor => j.advanceFloor floor
  | .rewindAfter ancestor => j.rewindAfter ancestor
  | .reset floor => j.reset floor

/-! ### Dropping images -/

/-- The floor after the images `dropped` are gone. -/
def floorAfter (floor : Option ChainCursor) (dropped : List OptimisticBlock) : Option ChainCursor :=
  match dropped.getLast? with
  | none => floor
  | some block => some block.cursor

/-- The images `dropped` have left at the front. -/
structure Drops (j j' : JournalState) (dropped : List OptimisticBlock) : Prop where
  blocks : j.blocks = dropped ++ j'.blocks
  identities : j'.identities = j.identities
  bytes : j'.retainedBytes = j.retainedBytes - imageBytes dropped
  floor : j'.rollbackFloor = floorAfter j.rollbackFloor dropped

theorem Drops.refl (j : JournalState) : Drops j j [] := ⟨rfl, rfl, rfl, rfl⟩

variable {j j' : JournalState} {dropped : List OptimisticBlock} {block : OptimisticBlock}

theorem drops_dropFront {rest : List OptimisticBlock} (budgetEviction : Bool)
    (h : j.blocks = block :: rest) : Drops j (j.dropFront budgetEviction) [block] := by
  rw [dropFront, h]
  exact ⟨h, rfl, by simp [imageBytes], rfl⟩

theorem Drops.cons {j'' : JournalState} (h : Drops j j' [block])
    (h' : Drops j' j'' dropped) : Drops j j'' (block :: dropped) := by
  refine ⟨?_, h'.identities.trans h.identities, ?_, ?_⟩
  · rw [h.blocks, h'.blocks, singleton_append, cons_append]
  · rw [h'.bytes, h.bytes, Nat.sub_sub, ← imageBytes_append, singleton_append]
  rw [h'.floor, h.floor]
  simp only [floorAfter, List.getLast?_cons]
  cases dropped.getLast? with
  | none => rfl
  | some last => rfl

/-- A loop over the front drops images until its test fails or none is left. -/
theorem drops_dropFrontWhile (test : JournalState → Bool) (budgetEviction : Bool) {fuel : Nat}
    (hfuel : j.blocks.length ≤ fuel) :
    ∃ dropped, Drops j (dropFrontWhile test budgetEviction fuel j) dropped ∧
      (test (dropFrontWhile test budgetEviction fuel j) = false ∨
        (dropFrontWhile test budgetEviction fuel j).blocks = []) := by
  induction fuel generalizing j with
  | zero => exact ⟨[], .refl j, .inr (length_eq_zero_iff.mp (le_zero.mp hfuel))⟩
  | succ fuel ih =>
    rw [dropFrontWhile]
    by_cases htest : test j = true
    · rw [if_pos htest]
      cases hblocks : j.blocks with
      | nil =>
        have hsame : j.dropFront budgetEviction = j := by rw [dropFront, hblocks]
        rw [hsame]
        exact ih (by simp [hblocks])
      | cons block rest =>
        have hdrop := drops_dropFront budgetEviction hblocks
        have hrest : (j.dropFront budgetEviction).blocks = rest := by
          simpa [hblocks] using hdrop.blocks.symm
        rw [hblocks, length_cons] at hfuel
        obtain ⟨dropped, hdropped, hstop⟩ := ih (j := j.dropFront budgetEviction)
          (by rw [hrest]; exact le_of_succ_le_succ hfuel)
        exact ⟨block :: dropped, hdrop.cons hdropped, hstop⟩
    · rw [if_neg htest]
      exact ⟨[], .refl j, .inl (not_eq_true _ ▸ htest)⟩

/-- The loop up to a height drops the images at or below it. -/
theorem drops_frontAtOrBelow (number : Nat) (budgetEviction : Bool) (j : JournalState) :
    ∃ dropped, Drops j
        (dropFrontWhile (frontAtOrBelow number) budgetEviction j.blocks.length j) dropped ∧
      (dropFrontWhile (frontAtOrBelow number) budgetEviction j.blocks.length j).blocks =
        j.blocks.dropWhile fun b => decide (b.number ≤ number) := by
  obtain ⟨dropped, hdropped, -⟩ :=
    drops_dropFrontWhile (frontAtOrBelow number) budgetEviction (j := j) le_rfl
  exact ⟨dropped, hdropped, dropFrontWhile_blocks number budgetEviction le_rfl⟩

/-! ### Bounds -/

/-- The window and the images are within their bounds, and the byte count is exact. -/
structure Bounded (j : JournalState) : Prop where
  ascending : Ascending j.identities
  identities : j.identities.length ≤ maxOptimisticHistoryBlocks
  blocks : j.blocks.length ≤ maxOptimisticHistoryBlocks
  exact : j.retainedBytes = imageBytes j.blocks
  bytes : j.retainedBytes ≤ maxOptimisticHistoryBytes

theorem bounded_empty : Bounded empty := by
  refine ⟨.nil, ?_, ?_, rfl, ?_⟩ <;> exact zero_le _

theorem Bounded.drops (h : Bounded j) (hdrops : Drops j j' dropped) : Bounded j' where
  ascending := hdrops.identities ▸ h.ascending
  identities := hdrops.identities ▸ h.identities
  blocks := by
    have hlength := h.blocks
    rw [hdrops.blocks, length_append] at hlength
    exact (le_add_left _ _).trans hlength
  exact := by
    rw [hdrops.bytes, h.exact, hdrops.blocks, imageBytes_append, Nat.add_sub_cancel_left]
  bytes := by
    rw [hdrops.bytes]
    exact (sub_le _ _).trans h.bytes

/-- Other identities, a floor, and the counters the bounds do not speak of. -/
theorem Bounded.congr (h : Bounded j) (hblocks : j'.blocks = j.blocks)
    (hbytes : j'.retainedBytes = j.retainedBytes) (hascending : Ascending j'.identities)
    (hidentities : j'.identities.length ≤ maxOptimisticHistoryBlocks) : Bounded j' :=
  ⟨hascending, hidentities, hblocks ▸ h.blocks, by rw [hbytes, hblocks]; exact h.exact,
    hbytes ▸ h.bytes⟩

/-- A new image, and the budget enforced.  The addition saturates only for an image that alone
exceeds the budget, and then the loop drops everything. -/
theorem Bounded.captureBefore (h : Bounded j) (cursor : ChainCursor) (reducer : QuoteReducer)
    (bytes : Nat) : Bounded (j.captureBefore (fun _ _ => bytes) cursor reducer) := by
  rw [JournalState.captureBefore]
  split_ifs
  · exact h
  let j₁ : JournalState := { j.bumpGeneration with
    retainedBytes := saturatingAdd j.retainedBytes bytes
    blocks := j.blocks ++ [⟨cursor, reducer, bytes⟩] }
  show Bounded (enforceLimits j₁)
  obtain ⟨dropped, hdrops, hstop⟩ := drops_dropFrontWhile overBudget true (j := j₁) le_rfl
  change Drops j₁ (enforceLimits j₁) dropped at hdrops
  change overBudget (enforceLimits j₁) = false ∨ (enforceLimits j₁).blocks = [] at hstop
  have htotal : imageBytes j₁.blocks = j.retainedBytes + bytes := by
    rw [h.exact]
    simp [j₁, imageBytes]
  have hsplit : imageBytes j₁.blocks =
      imageBytes dropped + imageBytes (enforceLimits j₁).blocks := by
    rw [hdrops.blocks, imageBytes_append]
  have hretained : (enforceLimits j₁).retainedBytes =
      min (imageBytes j₁.blocks) u64Max - imageBytes dropped := by
    rw [hdrops.bytes, htotal]
    rfl
  -- what is left is counted exactly: when the addition saturated, nothing is left
  have hexact : (enforceLimits j₁).retainedBytes = imageBytes (enforceLimits j₁).blocks := by
    rcases le_total (imageBytes j₁.blocks) u64Max with hle | hsaturated
    · rw [hretained, Nat.min_eq_left hle, hsplit, Nat.add_sub_cancel_left]
    have hempty : (enforceLimits j₁).blocks = [] := by
      rcases hstop with hwithin | hempty
      · by_contra hne
        have hdropped : imageBytes dropped ≤ j.retainedBytes := by
          obtain ⟨kept, hkept⟩ : ∃ kept, j.blocks = dropped ++ kept := by
            have hsame : j.blocks ++ [⟨cursor, reducer, bytes⟩] =
                dropped ++ (enforceLimits j₁).blocks := hdrops.blocks
            obtain ⟨init, last, hlast⟩ := eq_nil_or_concat'
              (enforceLimits j₁).blocks |>.resolve_left hne
            rw [hlast, ← append_assoc] at hsame
            exact ⟨init, (append_inj_left' hsame rfl)⟩
          rw [h.exact, hkept, imageBytes_append]
          exact le_add_right _ _
        have hover : ¬ maxOptimisticHistoryBytes < (enforceLimits j₁).retainedBytes := by
          simp only [overBudget, or_eq_false_iff, decide_eq_false_iff_not] at hwithin
          exact hwithin.2
        have hbytes := h.bytes
        have hroom : 2 * maxOptimisticHistoryBytes < u64Max := by decide
        omega
      · exact hempty
    rw [hempty] at hsplit ⊢
    rw [hretained, min_eq_right hsaturated]
    simp only [imageBytes, map_nil, sum_nil, add_zero] at hsplit ⊢
    exact Nat.sub_eq_zero_of_le (hsplit ▸ hsaturated)
  have hwithin : (enforceLimits j₁).blocks.length ≤ maxOptimisticHistoryBlocks ∧
      (enforceLimits j₁).retainedBytes ≤ maxOptimisticHistoryBytes := by
    rcases hstop with hwithin | hempty
    · simpa [overBudget] using hwithin
    rw [hexact, hempty]
    exact ⟨zero_le _, zero_le _⟩
  exact ⟨hdrops.identities ▸ h.ascending, hdrops.identities ▸ h.identities, hwithin.1, hexact,
    hwithin.2⟩

/-- An evicted identity leaves with the images up to its height. -/
theorem evictIdentity_drops {first : ChainCursor} {rest : List ChainCursor}
    (h : j.identities = first :: rest) :
    ∃ dropped, j.blocks = dropped ++ j.evictIdentity.blocks ∧
      j.evictIdentity.retainedBytes = j.retainedBytes - imageBytes dropped := by
  obtain ⟨dropped, hdrops, -⟩ :=
    drops_frontAtOrBelow first.blockNumber true { j with identities := rest }
  refine ⟨dropped, ?_⟩
  simp only [evictIdentity, h]
  split
  · exact ⟨hdrops.blocks, hdrops.bytes⟩
  · exact ⟨hdrops.blocks, hdrops.bytes⟩

variable {b : OptimisticBlock} {cursor : ChainCursor} {op : JournalOp}

theorem mem_blocks_evictIdentities {fuel : Nat} (hb : b ∈ (evictIdentities fuel j).blocks) :
    b ∈ j.blocks := by
  induction fuel generalizing j with
  | zero => exact hb
  | succ fuel ih =>
    rw [evictIdentities] at hb
    split_ifs at hb
    · have hevicted := ih hb
      cases hids : j.identities with
      | nil => simpa [evictIdentity, hids] using hevicted
      | cons first rest =>
        obtain ⟨dropped, hblocks, -⟩ := evictIdentity_drops hids
        rw [hblocks]
        exact mem_append_right _ hevicted
    · exact hb

/-- The images of a journal that lost some at the front, whatever became of the rest. -/
theorem Bounded.of_suffix (h : Bounded j) (hblocks : j.blocks = dropped ++ j'.blocks)
    (hbytes : j'.retainedBytes = j.retainedBytes - imageBytes dropped)
    (hascending : Ascending j'.identities)
    (hidentities : j'.identities.length ≤ maxOptimisticHistoryBlocks) : Bounded j' := by
  have hdrops : Drops j { j' with
      identities := j.identities, rollbackFloor := floorAfter j.rollbackFloor dropped } dropped :=
    ⟨hblocks, rfl, hbytes, rfl⟩
  exact (h.drops hdrops).congr rfl rfl hascending hidentities

theorem Bounded.recordIdentity (h : Bounded j) (cursor : ChainCursor) (replace : Bool) :
    Bounded (j.recordIdentity cursor replace) := by
  rw [JournalState.recordIdentity]
  split_ifs
  · exact h
  cases hretained : j.retainedIdentity cursor.blockNumber with
  | some retained =>
    dsimp only
    split_ifs
    · exact h
    refine h.congr rfl rfl ?_ ?_
    · have hmap := replaceIdentity_map cursor j.identities
      have hascending := pairwise_map.mpr h.ascending
      exact pairwise_map.mp (hmap ▸ hascending)
    · have hlength := congrArg List.length (replaceIdentity_map cursor j.identities)
      rw [length_map, length_map] at hlength
      exact hlength.trans_le h.identities
  | none =>
    have hnew := retainedIdentity_eq_none.mp hretained
    have hascending := inserted_sorted h.ascending hnew
    have hlength := length_inserted cursor j.identities
    show Bounded (j.insertIdentity cursor)
    rw [insertIdentity_eq cursor h.identities]
    split_ifs with hroom
    · exact h.congr rfl rfl hascending (hlength.trans_le hroom)
    -- the window was full: its lowest identity leaves
    obtain ⟨first, rest, hcons⟩ : ∃ first rest, inserted cursor j.identities = first :: rest :=
      exists_cons_of_length_pos (by rw [hlength]; exact succ_pos _)
    obtain ⟨dropped, hblocks, hbytes⟩ :=
      evictIdentity_drops (j := { j with identities := inserted cursor j.identities }) hcons
    obtain ⟨-, hidentities, -⟩ :=
      evictIdentity_eq { j with identities := inserted cursor j.identities } hcons
    rw [hcons] at hascending hlength
    refine h.of_suffix hblocks hbytes ?_ ?_
    · rw [hidentities]
      exact hascending.of_cons
    · rw [hidentities]
      exact (Nat.succ.inj hlength).trans_le h.identities

theorem Bounded.advanceFloor (h : Bounded j) (floor : ChainCursor) :
    Bounded (j.advanceFloor floor) := by
  obtain ⟨dropped, hdrops, -⟩ := drops_frontAtOrBelow floor.blockNumber false j.bumpGeneration
  have hbumped : Bounded j.bumpGeneration := h.congr rfl rfl h.ascending h.identities
  have hdropped := hbumped.drops hdrops
  refine hdropped.congr rfl rfl ?_ ?_
  · exact hdropped.ascending.sublist (dropWhile_sublist _)
  · exact (dropWhile_sublist _).length_le.trans hdropped.identities

theorem rewound_bytes (popped : List OptimisticBlock) (bytes : Nat) :
    popped.foldr (fun block bytes => bytes - block.retainedBytes) bytes =
      bytes - imageBytes popped := by
  induction popped with
  | nil => rfl
  | cons block rest ih =>
    rw [foldr_cons, ih, Nat.sub_sub, Nat.add_comm]
    simp [imageBytes]

theorem Bounded.rewindAfter (h : Bounded j) (ancestor : BlockRef) :
    Bounded (j.rewindAfter ancestor) := by
  have hsplit := rdropWhile_append_rtakeWhile (p := fun block : OptimisticBlock =>
      decide (ancestor.cursor.blockNumber < block.cursor.blockNumber)) (l := j.blocks)
  have hbytes : (j.rewindAfter ancestor).retainedBytes =
      imageBytes (j.rewindAfter ancestor).blocks := by
    have htotal := congrArg imageBytes hsplit
    rw [imageBytes_append, ← h.exact] at htotal
    simp only [JournalState.rewindAfter]
    rw [rewound_bytes, ← htotal, Nat.add_sub_cancel]
  have hshorter : (j.rewindAfter ancestor).blocks.length ≤ j.blocks.length :=
    (List.rdropWhile_prefix _ _).length_le
  refine ⟨?_, ?_, hshorter.trans h.blocks, hbytes, ?_⟩
  · exact h.ascending.sublist (List.rdropWhile_prefix _ _).sublist
  · exact (List.rdropWhile_prefix _ _).length_le.trans h.identities
  simp only [JournalState.rewindAfter]
  rw [rewound_bytes]
  exact (sub_le _ _).trans h.bytes

/-- **Every operation keeps the bounds.** -/
theorem Bounded.perform (h : Bounded j) (op : JournalOp) : Bounded (j.perform op) := by
  cases op with
  | captureBefore cursor reducer bytes => exact h.captureBefore cursor reducer bytes
  | recordHeadIdentity cursor => exact h.recordIdentity cursor true
  | recordEventIdentity cursor => exact h.recordIdentity cursor false
  | advanceFloor floor => exact h.advanceFloor floor
  | rewindAfter ancestor => exact h.rewindAfter ancestor
  | reset floor => exact bounded_empty.congr rfl rfl .nil (zero_le _)

/-! ### Order -/

/-- The images are in block order, none below the floor. -/
structure Ordered (j : JournalState) : Prop where
  rising : j.blocks.Pairwise fun b b' => b.number ≤ b'.number
  above : ∀ floor, j.rollbackFloor = some floor → ∀ b ∈ j.blocks, floor.blockNumber ≤ b.number

/-- The floor is where it was or higher. -/
def Raised (floor floor' : Option ChainCursor) : Prop :=
  ∀ f, floor = some f → ∃ f', floor' = some f' ∧ f.blockNumber ≤ f'.blockNumber

/-- No image of the list is above the floor. -/
def Buried (floor : Option ChainCursor) (blocks : List OptimisticBlock) : Prop :=
  ∀ b ∈ blocks, ∃ f, floor = some f ∧ b.number ≤ f.blockNumber

theorem Raised.refl (floor : Option ChainCursor) : Raised floor floor := fun f h => ⟨f, h, le_rfl⟩

theorem Raised.to {floor : Option ChainCursor} {floor' : ChainCursor}
    (h : ∀ f, floor = some f → f.blockNumber ≤ floor'.blockNumber) : Raised floor (some floor') :=
  fun f hf => ⟨floor', rfl, h f hf⟩

theorem Buried.raised {floor floor' : Option ChainCursor} {blocks : List OptimisticBlock}
    (h : Buried floor blocks) (hraised : Raised floor floor') : Buried floor' blocks := by
  intro b hb
  obtain ⟨f, hf, hle⟩ := h b hb
  obtain ⟨f', hf', hle'⟩ := hraised f hf
  exact ⟨f', hf', hle.trans hle'⟩

/-- Dropping at the front of an ordered journal: the floor is the last image dropped. -/
theorem Ordered.drops (h : Ordered j) (hdrops : Drops j j' dropped) :
    Ordered j' ∧ Raised j.rollbackFloor j'.rollbackFloor ∧ Buried j'.rollbackFloor dropped := by
  obtain ⟨hblocks, -, -, hfloor⟩ := hdrops
  have hrising := h.rising
  rw [hblocks, pairwise_append] at hrising
  obtain ⟨hdropped, hkept, hacross⟩ := hrising
  rcases eq_nil_or_concat' dropped with rfl | ⟨init, last, rfl⟩
  · have hsame : j'.rollbackFloor = j.rollbackFloor := hfloor
    refine ⟨⟨hkept, fun f hf b hb => ?_⟩, hsame ▸ Raised.refl _, by simp [Buried]⟩
    exact h.above f (hsame ▸ hf) b (hblocks ▸ hb)
  have hlast : j'.rollbackFloor = some last.cursor := by simpa [floorAfter] using hfloor
  rw [hlast]
  have hmem : last ∈ init ++ [last] := mem_append_right _ mem_cons_self
  refine ⟨⟨hkept, ?_⟩, Raised.to fun f hf => ?_, fun b hb => ⟨last.cursor, rfl, ?_⟩⟩
  · intro f hf b hb
    obtain rfl : last.cursor = f := Option.some.inj (hlast.symm.trans hf)
    exact hacross last hmem b hb
  · exact h.above f hf last (hblocks ▸ mem_append_left _ hmem)
  · rcases mem_append.mp hb with hinit | hsame
    · exact (pairwise_append.mp hdropped).2.2 b hinit last mem_cons_self
    · exact (congrArg OptimisticBlock.number (mem_singleton.mp hsame)).le

/-- A floor set at `floor` over the images above it. -/
theorem Ordered.floorAt {floor : ChainCursor} (h : Ordered j)
    (hblocks : j.blocks = dropped ++ j'.blocks)
    (hdropped : j'.blocks = j.blocks.dropWhile fun b => decide (b.number ≤ floor.blockNumber))
    (hfloor : j'.rollbackFloor = some floor)
    (hraised : ∀ f, j.rollbackFloor = some f → f.blockNumber ≤ floor.blockNumber) :
    Ordered j' ∧ Raised j.rollbackFloor j'.rollbackFloor ∧ Buried j'.rollbackFloor dropped := by
  have htaken : dropped = j.blocks.takeWhile fun b => decide (b.number ≤ floor.blockNumber) := by
    refine append_cancel_right (?_ : dropped ++ j'.blocks = _ ++ j'.blocks)
    rw [← hblocks, hdropped, takeWhile_append_dropWhile]
  rw [hfloor]
  refine ⟨⟨?_, ?_⟩, Raised.to hraised, fun b hb => ⟨floor, rfl, ?_⟩⟩
  · rw [hdropped]
    exact h.rising.sublist (dropWhile_sublist _)
  · intro f hf b hb
    obtain rfl : floor = f := Option.some.inj (hfloor.symm.trans hf)
    rw [hdropped] at hb
    have hrising : j.blocks.Pairwise fun b b' => b.number ≤ b'.number := h.rising
    exact (Rollback.lt_of_mem_dropWhile hrising hb).le
  · rw [htaken] at hb
    simpa using mem_takeWhile_imp hb

/-- What the operation has to respect: an image is captured at or above the last one and the floor,
an identity is not recorded into a full window that reaches below the floor, and the floor is not
set back. -/
def orderly (j : JournalState) : JournalOp → Bool
  | .captureBefore cursor _ _ =>
    !j.needsCapture cursor ||
      (j.blocks.getLast?.all (fun last => last.number ≤ cursor.blockNumber) &&
        j.rollbackFloor.all fun floor => floor.blockNumber ≤ cursor.blockNumber)
  | .recordHeadIdentity cursor | .recordEventIdentity cursor => !j.lowersFloor cursor
  | .advanceFloor floor => j.rollbackFloor.all fun f => f.blockNumber ≤ floor.blockNumber
  | .rewindAfter _ | .reset _ => true

/-- The images an operation evicts.  A rewind takes images off the other end and a reset starts
over. -/
def evicted (j : JournalState) (op : JournalOp) : List OptimisticBlock :=
  match op with
  | .captureBefore cursor reducer bytes =>
    if j.needsCapture cursor then
      (j.blocks ++ [OptimisticBlock.mk cursor reducer bytes]).take
        (j.blocks.length + 1 - (j.perform op).blocks.length)
    else []
  | .recordHeadIdentity _ | .recordEventIdentity _ | .advanceFloor _ =>
    j.blocks.take (j.blocks.length - (j.perform op).blocks.length)
  | .rewindAfter _ | .reset _ => []

theorem take_of_append {α : Type*} {whole left right : List α} (h : whole = left ++ right) :
    whole.take (whole.length - right.length) = left := by
  rw [h, length_append, Nat.add_sub_cancel, take_left']
  rfl

/-- What one operation does to the order and to the floor. -/
def Stays (j j' : JournalState) (evicted : List OptimisticBlock) : Prop :=
  Ordered j' ∧ Raised j.rollbackFloor j'.rollbackFloor ∧ Buried j'.rollbackFloor evicted

section

variable (h : Ordered j)

include h

theorem Ordered.stays : Stays j j [] :=
  ⟨h, Raised.refl _, by simp [Buried]⟩

theorem Ordered.captureBefore {reducer : QuoteReducer} {bytes : Nat}
    (horderly : j.orderly (.captureBefore cursor reducer bytes) = true) :
    Stays j (j.perform (.captureBefore cursor reducer bytes))
      (j.evicted (.captureBefore cursor reducer bytes)) := by
  cases hneeds : j.needsCapture cursor with
  | false =>
    have hsame : j.perform (.captureBefore cursor reducer bytes) = j := by
      simp [perform, JournalState.captureBefore, hneeds]
    have hnone : j.evicted (.captureBefore cursor reducer bytes) = [] := by
      simp [evicted, hneeds]
    rw [hsame, hnone]
    exact h.stays
  | true =>
    simp only [orderly, hneeds, Bool.not_true, Bool.false_or, Bool.and_eq_true,
      Option.all_eq_true, decide_eq_true_eq] at horderly
    obtain ⟨hlast, hfloor⟩ := horderly
    let j₁ : JournalState := { j.bumpGeneration with
      retainedBytes := saturatingAdd j.retainedBytes bytes
      blocks := j.blocks ++ [⟨cursor, reducer, bytes⟩] }
    have hperform : j.perform (.captureBefore cursor reducer bytes) = enforceLimits j₁ := by
      simp [perform, JournalState.captureBefore, hneeds, j₁]
    -- every image is at or below the last one, and that one below the new one
    have hbelow : ∀ b ∈ j.blocks, b.number ≤ cursor.blockNumber := by
      rcases eq_nil_or_concat' j.blocks with hnil | ⟨init, last, hinit⟩
      · simp [hnil]
      have hrising := h.rising
      rw [hinit] at hlast hrising ⊢
      have hle : last.number ≤ cursor.blockNumber := hlast last (by simp)
      intro b hb
      rcases mem_append.mp hb with hmem | hsame
      · exact ((pairwise_append.mp hrising).2.2 b hmem last mem_cons_self).trans hle
      · exact mem_singleton.mp hsame ▸ hle
    have hextended : Ordered j₁ := by
      refine ⟨pairwise_append.mpr ⟨h.rising, pairwise_singleton _ _, ?_⟩, ?_⟩
      · intro b hb b' hb'
        exact mem_singleton.mp hb' ▸ hbelow b hb
      intro f hf b hb
      rcases mem_append.mp hb with hmem | hsame
      · exact h.above f hf b hmem
      · exact mem_singleton.mp hsame ▸ hfloor f hf
    obtain ⟨dropped, hdrops, -⟩ := drops_dropFrontWhile overBudget true (j := j₁) le_rfl
    have hevicted : j.evicted (.captureBefore cursor reducer bytes) = dropped := by
      have hblocks : j.blocks ++ [OptimisticBlock.mk cursor reducer bytes] =
          dropped ++ (enforceLimits j₁).blocks := hdrops.blocks
      have htake := take_of_append hblocks
      rw [length_append, length_singleton] at htake
      rw [evicted, if_pos hneeds, hperform]
      exact htake
    rw [hperform, hevicted]
    exact hextended.drops hdrops

theorem Ordered.recordIdentity (hbounded : Bounded j) (replace : Bool)
    (horderly : j.lowersFloor cursor = false) :
    Stays j (j.recordIdentity cursor replace)
      (j.blocks.take (j.blocks.length - (j.recordIdentity cursor replace).blocks.length)) := by
  -- whatever the case, the images are those of a suffix
  have hsame : ∀ j', j'.blocks = j.blocks → j'.rollbackFloor = j.rollbackFloor →
      Stays j j' (j.blocks.take (j.blocks.length - j'.blocks.length)) := by
    intro j' hblocks hfloor
    rw [hblocks, Nat.sub_self, take_zero]
    exact ⟨⟨hblocks ▸ h.rising, by rw [hblocks, hfloor]; exact h.above⟩, hfloor ▸ Raised.refl _,
      by simp [Buried]⟩
  rw [JournalState.recordIdentity]
  split_ifs with hbelow
  · exact hsame j rfl rfl
  cases hretained : j.retainedIdentity cursor.blockNumber with
  | some retained =>
    dsimp only
    split_ifs
    · exact hsame j rfl rfl
    · exact hsame _ rfl rfl
  | none =>
    show Stays j (j.insertIdentity cursor) _
    rw [insertIdentity_eq cursor hbounded.identities]
    split_ifs with hroom
    · exact hsame _ rfl rfl
    have hlength := length_inserted cursor j.identities
    obtain ⟨first, rest, hcons⟩ : ∃ first rest, inserted cursor j.identities = first :: rest :=
      exists_cons_of_length_pos (by rw [hlength]; exact succ_pos _)
    let j₁ : JournalState := { j with identities := inserted cursor j.identities }
    obtain ⟨dropped, hblocks, -⟩ := evictIdentity_drops (j := j₁) hcons
    obtain ⟨hfloor, -, hkept⟩ := evictIdentity_eq j₁ hcons
    have htaken : j.blocks.take (j.blocks.length - j₁.evictIdentity.blocks.length) = dropped :=
      take_of_append hblocks
    rw [htaken]
    refine Ordered.floorAt h hblocks hkept hfloor fun f hf => ?_
    -- the evicted identity is the new one, which is above the floor, or the lowest of the window
    have hcursor : f.blockNumber < cursor.blockNumber := by
      simpa [atOrBelowFloor, hf] using hbelow
    have hfirst : first ∈ inserted cursor j.identities := hcons ▸ mem_cons_self
    rcases mem_inserted.mp hfirst with rfl | hmem
    · exact hcursor.le
    have hlowest : j.identities.head? = some first := by
      have hsorted := inserted_sorted hbounded.ascending (retainedIdentity_eq_none.mp hretained)
      cases hids : j.identities with
      | nil => simp [hids] at hmem
      | cons lowest others =>
        have hlow : lowest ∈ first :: rest := by
          rw [← hcons]
          exact mem_inserted.mpr (.inr (hids ▸ mem_cons_self))
        rw [hids] at hmem
        rcases mem_cons.mp hmem with rfl | hother
        · rfl
        have hascending := hbounded.ascending
        rw [hids] at hascending
        have hlt := (pairwise_cons.mp hascending).1 first hother
        rw [hcons] at hsorted
        rcases mem_cons.mp hlow with rfl | hrest
        · exact absurd hlt (lt_irrefl _)
        · exact absurd hlt ((pairwise_cons.mp hsorted).1 lowest hrest).asymm
    by_contra hlt
    have hfull : maxOptimisticHistoryBlocks ≤ j.identities.length := not_lt.mp hroom
    have hlowers : j.lowersFloor cursor = true := by
      simp only [lowersFloor, hretained, Option.isNone_none, Bool.true_and, hf,
        Option.any_some, hlowest, and_eq_true, decide_eq_true_eq]
      exact ⟨hfull, hcursor, not_le.mp hlt⟩
    exact absurd (hlowers.symm.trans horderly) (by simp)

theorem Ordered.advanceFloor {floor : ChainCursor}
    (horderly : j.orderly (.advanceFloor floor) = true) :
    Stays j (j.advanceFloor floor)
      (j.blocks.take (j.blocks.length - (j.advanceFloor floor).blocks.length)) := by
  obtain ⟨dropped, hdrops, hkept⟩ := drops_frontAtOrBelow floor.blockNumber false j.bumpGeneration
  have hblocks : j.blocks = dropped ++ (j.advanceFloor floor).blocks := hdrops.blocks
  rw [take_of_append hblocks]
  refine h.floorAt hblocks hkept rfl fun f hf => ?_
  simpa [orderly, hf] using horderly

theorem Ordered.rewindAfter (ancestor : BlockRef) : Stays j (j.rewindAfter ancestor) [] := by
  have hfront : (j.rewindAfter ancestor).blocks <+: j.blocks := List.rdropWhile_prefix _ _
  have hfloor := j.rewindAfter_rollbackFloor ancestor
  refine ⟨⟨h.rising.sublist hfront.sublist, ?_⟩, hfloor ▸ Raised.refl _, by simp [Buried]⟩
  intro f hf b hb
  exact h.above f (hfloor ▸ hf) b (hfront.subset hb)

/-- **An orderly operation keeps the order and raises the floor over what it evicts.** -/
theorem Ordered.perform (hbounded : Bounded j) (horderly : j.orderly op = true)
    (hreset : op.isReset = false) : Stays j (j.perform op) (j.evicted op) := by
  cases op with
  | captureBefore cursor reducer bytes => exact h.captureBefore horderly
  | recordHeadIdentity cursor =>
    exact h.recordIdentity hbounded true (by simpa [orderly] using horderly)
  | recordEventIdentity cursor =>
    exact h.recordIdentity hbounded false (by simpa [orderly] using horderly)
  | advanceFloor floor => exact h.advanceFloor horderly
  | rewindAfter ancestor => exact h.rewindAfter ancestor
  | reset floor => cases hreset

end

end JournalState

/-! ### Stages -/

/-- The reducer an operation offers as a before-image. -/
def JournalOp.image : JournalOp → Option QuoteReducer
  | .captureBefore _ reducer _ => some reducer
  | _ => none

/-- An image of the journal was there before, or is the one the operation offers. -/
theorem JournalState.mem_blocks_perform {j : JournalState} (hb : b ∈ (j.perform op).blocks) :
    b ∈ j.blocks ∨ op.image = some b.before := by
  have hrecord : ∀ cursor replace, b ∈ (j.recordIdentity cursor replace).blocks → b ∈ j.blocks := by
    intro cursor replace hb
    rw [recordIdentity] at hb
    split_ifs at hb
    · exact hb
    cases hretained : j.retainedIdentity cursor.blockNumber with
    | some retained =>
      simp only [hretained] at hb
      split_ifs at hb <;> exact hb
    | none =>
      simp only [hretained] at hb
      exact mem_blocks_evictIdentities
        (j := { j with identities := inserted cursor j.identities }) hb
  cases op with
  | captureBefore cursor reducer bytes =>
    rw [perform, captureBefore] at hb
    split_ifs at hb
    · exact .inl hb
    obtain ⟨dropped, hdrops, -⟩ := drops_dropFrontWhile overBudget true
      (j := { j.bumpGeneration with
        retainedBytes := saturatingAdd j.retainedBytes bytes
        blocks := j.blocks ++ [⟨cursor, reducer, bytes⟩] }) le_rfl
    have hmem : b ∈ j.blocks ++ [⟨cursor, reducer, bytes⟩] := by
      have hblocks := hdrops.blocks
      simp only at hblocks
      rw [hblocks]
      exact mem_append_right _ hb
    rcases mem_append.mp hmem with hold | hnew
    · exact .inl hold
    · exact .inr (congrArg (some ∘ OptimisticBlock.before) (mem_singleton.mp hnew)).symm
  | recordHeadIdentity cursor => exact .inl (hrecord cursor true hb)
  | recordEventIdentity cursor => exact .inl (hrecord cursor false hb)
  | advanceFloor floor =>
    obtain ⟨dropped, hdrops, -⟩ := drops_frontAtOrBelow floor.blockNumber false j.bumpGeneration
    have hblocks : j.blocks = dropped ++ (j.advanceFloor floor).blocks := hdrops.blocks
    exact .inl (hblocks ▸ mem_append_right _ hb)
  | rewindAfter ancestor => exact .inl ((List.rdropWhile_prefix _ _).subset hb)
  | reset floor => cases hb

namespace QuoteIndexer

/-- The second indexer has the journal of the first after operations whose images satisfy `P`. -/
def Journals (P : QuoteReducer → Prop) (s t : QuoteIndexer) : Prop :=
  ∃ ops : List JournalOp, t.optimisticHistory = ops.foldl JournalState.perform s.optimisticHistory ∧
    ∀ op ∈ ops, ∀ reducer, op.image = some reducer → P reducer

variable {env : Platform} {bytes : ImageCost} {P : QuoteReducer → Prop}
  {s t u : QuoteIndexer}

theorem Journals.same (h : t.optimisticHistory = s.optimisticHistory) : Journals P s t :=
  ⟨[], h, by simp⟩

theorem Journals.one (op : JournalOp) (h : t.optimisticHistory = s.optimisticHistory.perform op)
    (himage : ∀ reducer, op.image = some reducer → P reducer) : Journals P s t :=
  ⟨[op], h, by simpa using himage⟩

theorem Journals.trans (hst : Journals P s t) (htu : Journals P t u) : Journals P s u := by
  obtain ⟨ops, hops, himages⟩ := hst
  obtain ⟨ops', hops', himages'⟩ := htu
  refine ⟨ops ++ ops', by rw [hops', hops, foldl_append], ?_⟩
  intro op hop
  rcases mem_append.mp hop with hmem | hmem
  · exact himages op hmem
  · exact himages' op hmem

/-- The images of a journal after such operations. -/
theorem Journals.mem (h : Journals P s t) (hb : b ∈ t.optimisticHistory.blocks) :
    b ∈ s.optimisticHistory.blocks ∨ P b.before := by
  obtain ⟨ops, hops, himages⟩ := h
  rw [hops] at hb
  clear hops
  generalize s.optimisticHistory = j at hb ⊢
  induction ops generalizing j with
  | nil => exact .inl hb
  | cons op rest ih =>
    rcases ih (fun op' hop' => himages op' (mem_cons_of_mem _ hop')) (j.perform op) hb with
      hmem | himage
    · rcases JournalState.mem_blocks_perform hmem with hold | hnew
      · exact .inl hold
      · exact .inr (himages op mem_cons_self _ hnew)
    · exact .inr himage

/-- A log changes the quote data of the indexer it arrives at. -/
def Changes (s : QuoteIndexer) (cursor : ChainCursor) (event : Option QuoteEvent) : Prop :=
  ∃ new, event = some new ∧ (s.reducer.applyWithEffect cursor new).2 = .ok true

theorem journals_applyDecodedLog {event : Option QuoteEvent}
    (h : s.applyDecodedLog bytes cursor event = (t, .ok ()))
    (himage : s.Changes cursor event → P s.reducer) :
    Journals P s t ∧ t.reducer.ready = s.reducer.ready := by
  rcases applyDecodedLog_cases h with
    ⟨e, hout, -⟩ | ⟨-, -, -, -, rfl⟩ |
    ⟨new, data, changed, -, -, rfl, hadmitted, heffect, hcaptured, rfl⟩
  · cases hout
  · exact ⟨.one (.recordEventIdentity cursor) rfl (by simp [JournalOp.image]), rfl⟩
  refine ⟨?_, rfl⟩
  cases changed with
  | false =>
    exact .one (.recordEventIdentity cursor) (by simp [hcaptured, JournalState.perform])
      (by simp [JournalOp.image])
  | true =>
    have hchanges : s.Changes cursor (some new) :=
      ⟨new, rfl, by simp [QuoteReducer.applyWithEffect, hadmitted, heffect]⟩
    refine ⟨[.captureBefore cursor s.reducer (bytes cursor s.reducer),
      .recordEventIdentity cursor], by simp only [hcaptured]; rfl, ?_⟩
    simpa [JournalOp.image] using himage hchanges

theorem journals_recordBranch (branch : List BlockRef) : Journals P s (s.recordBranch branch) := by
  refine ⟨branch.map fun block => .recordHeadIdentity block.cursor, ?_, ?_⟩
  · rw [recordBranch, foldl_map]
    rfl
  intro op hop
  obtain ⟨block, -, rfl⟩ := mem_map.mp hop
  simp [JournalOp.image]

theorem journals_replayLogs {logs : List ContractLog} (h : s.replayLogs env bytes logs = .ok t)
    (himage : ∀ r, r.ready = s.reducer.ready → P r) :
    Journals P s t ∧ t.reducer.ready = s.reducer.ready := by
  refine replayLogs_invariant (P := fun t => Journals P s t ∧ t.reducer.ready = s.reducer.ready) h
    ⟨.same rfl, rfl⟩ ?_
  rintro log - event - u u' happly ⟨hjournal, hready⟩
  obtain ⟨hnext, hready'⟩ := journals_applyDecodedLog happly fun _ => himage _ hready
  exact ⟨hjournal.trans hnext, hready'.trans hready⟩

/-- An applied correction rewinds the journal, names the new branch and captures as its logs are
replayed; it publishes the readiness of the reducer it restored. -/
theorem journals_replaceBranch {c : ChainCorrection} (h : s.replaceBranch env bytes c = .ok t) :
    (∀ P : QuoteReducer → Prop, (∀ r, r.ready = t.reducer.ready → P r) → Journals P s t) ∧
    ∃ restore, s.optimisticHistory.restorePoint c.commonAncestor c.oldBranch = .ok restore ∧
      t.reducer.ready = (restore.getD s.reducer).ready := by
  obtain ⟨rewound, replayed, -, -, hrewound, hreplayed, hfinish⟩ := replaceBranch_eq_ok h
  obtain ⟨restore, hrestore, hrewound⟩ := rewindTo_eq_ok hrewound
  have hfinish := finishCorrection_eq_ok hfinish
  have hready : t.reducer.ready = replayed.reducer.ready := by rw [hfinish]
  have hreplay : replayed.reducer.ready = (rewound.recordBranch c.newBranch).reducer.ready :=
    (journals_replayLogs (P := fun _ => True) hreplayed fun _ _ => trivial).2
  refine ⟨fun P hP => ?_, restore, hrestore, ?_⟩
  · have hrewind : Journals P s rewound :=
      .one (.rewindAfter c.commonAncestor) (by rw [hrewound]; rfl) (by simp [JournalOp.image])
    have hlogs : Journals P (rewound.recordBranch c.newBranch) replayed :=
      (journals_replayLogs hreplayed fun r hr => hP r (hr.trans (hreplay.symm.trans hready.symm))).1
    have hlast : Journals P replayed t := .same (by rw [hfinish])
    exact hrewind.trans ((journals_recordBranch c.newBranch).trans (hlogs.trans hlast))
  · rw [hready, hreplay, hrewound]
    rfl

variable {stage : Stage}

/-- **A stage acts on the journal through its operations.**  The images it offers are the reducer
a log found, or reducers of a replay. -/
theorem journals_takes (h : Takes env s stage t)
    (hlog : ∀ bytes cursor event, stage = .log bytes cursor event → s.Changes cursor event →
      P s.reducer)
    (hcorrect : ∀ bytes c, stage = .correct bytes c → ∀ r, r.ready = t.reducer.ready → P r) :
    Journals P s t := by
  cases stage with
  | close | publish => exact .same (by rw [h]; rfl)
  | log bytes cursor event => exact (journals_applyDecodedLog h (hlog bytes cursor event rfl)).1
  | head cursor =>
    rcases applyHead_cases h with ⟨e, hout, -⟩ | ⟨reducer, -, -, rfl⟩
    · cases hout
    cases hpublished : publishedAs reducer cursor with
    | none => exact .same (by simp)
    | some published =>
      exact .one (.recordHeadIdentity published) (by simp [JournalState.perform])
        (by simp [JournalOp.image])
  | correct bytes c =>
    exact (journals_replaceBranch (intoCorrectedCore_eq_ok_true h).2).1 P (hcorrect bytes c rfl)
  | remember c =>
    rcases observeCoveredCorrection_cases h with ⟨e, -, rfl⟩ | ⟨-, rfl⟩ | ⟨-, rfl, -⟩
    · exact .same rfl
    · exact .same rfl
    · exact .same rfl
  | install snapshot =>
    obtain rfl := installSnapshot_eq_ok h.2
    exact .one (.reset snapshot.cursor) rfl (by simp [JournalOp.image])

/-- The journal of every run is reached by its operations. -/
theorem journal_of_takes (h : Takes env s stage t) :
    ∃ ops, t.optimisticHistory = List.foldl JournalState.perform s.optimisticHistory ops := by
  obtain ⟨ops, hops, -⟩ := journals_takes (P := fun _ => True) h (fun _ _ _ _ _ => trivial)
    fun _ _ _ _ _ => trivial
  exact ⟨ops, hops⟩

/-! ### Data -/

/-- The data now and in every before-image satisfy `Q`. -/
structure DataHeld (Q : QuoteData → Prop) (s : QuoteIndexer) : Prop where
  current : Q s.reducer.data
  images : ∀ b ∈ s.optimisticHistory.blocks, Q b.before.data

variable {Q : QuoteData → Prop}

theorem DataHeld.journals (hs : DataHeld Q s) (hdata : Q t.reducer.data)
    (h : Journals (fun r => Q r.data) s t) : DataHeld Q t :=
  ⟨hdata, fun b hb => (h.mem hb).elim (hs.images b) id⟩

/-- An accepted event keeps `Q`. -/
def KeptBy (Q : QuoteData → Prop) (event : QuoteEvent) : Prop :=
  ∀ d d' changed, Q d → d.applyEvent event = (d', .ok changed) → Q d'

theorem DataHeld.applyDecodedLog {event : Option QuoteEvent} (hs : DataHeld Q s)
    (hevent : ∀ new, event = some new → KeptBy Q new)
    (h : s.applyDecodedLog bytes cursor event = (t, .ok ())) : DataHeld Q t := by
  refine hs.journals ?_ (journals_applyDecodedLog h fun _ => hs.current).1
  rcases applyDecodedLog_cases h with
    ⟨e, hout, -⟩ | ⟨-, -, -, -, rfl⟩ | ⟨new, data, changed, -, -, hnew, -, heffect, -, rfl⟩
  · cases hout
  · exact hs.current
  · exact hevent new hnew _ _ _ hs.current heffect

/-- A correction restores an image, or keeps the data, and replays from there. -/
theorem DataHeld.corrected {c : ChainCorrection} (hs : DataHeld Q s)
    (hevents : ∀ log ∈ c.replacementLogs, ∀ event, decodeLog env log = .ok (some event) →
      KeptBy Q event) (h : s.intoCorrectedCore env bytes c = .ok (t, true)) : DataHeld Q t := by
  obtain ⟨-, h⟩ := intoCorrectedCore_eq_ok_true h
  obtain ⟨rewound, replayed, -, -, hrewound, hreplayed, hfinish⟩ := replaceBranch_eq_ok h
  obtain ⟨restore, hrestore, hrewound⟩ := rewindTo_eq_ok hrewound
  obtain rfl := finishCorrection_eq_ok hfinish
  have hrestored : Q (rewound.recordBranch c.newBranch).reducer.data := by
    rw [hrewound]
    exact JournalState.restored_of_images (P := fun r => Q r.data) hs.current hs.images hrestore
  have hrewind : Journals (fun r => Q r.data) s rewound :=
    .one (.rewindAfter c.commonAncestor) (by rw [hrewound]; rfl) (by simp [JournalOp.image])
  have hstart := hrewind.trans (journals_recordBranch c.newBranch)
  have hreplay := replayLogs_invariant hreplayed (hs.journals hrestored hstart)
    fun log hlog event hdecode _ _ happly hu => hu.applyDecodedLog
      (fun new hnew => hevents log hlog new (hnew ▸ hdecode)) happly
  exact hreplay.journals hreplay.current (.same rfl)

/-- The event is one the stage applies. -/
inductive Carries (env : Platform) : Stage → QuoteEvent → Prop
  | log (bytes : ImageCost) (cursor : ChainCursor) (event : QuoteEvent) :
      Carries env (.log bytes cursor (some event)) event
  | correct (bytes : ImageCost) {c : ChainCorrection} {log : ContractLog} {event : QuoteEvent}
      (hlog : log ∈ c.replacementLogs) (h : decodeLog env log = .ok (some event)) :
      Carries env (.correct bytes c) event

/-- **What the events of a stage and its snapshot keep, the stage keeps**, also when it goes back to
a before-image. -/
theorem DataHeld.takes (hs : DataHeld Q s) (h : Takes env s stage t)
    (hevents : ∀ event, Carries env stage event → KeptBy Q event)
    (hsnapshot : ∀ snapshot, stage = .install snapshot →
      Q ⟨snapshot.state, s.deployment.feeClass, snapshot.verifiedRouter⟩) : DataHeld Q t := by
  cases stage with
  | close | publish =>
    obtain rfl := h
    exact hs.journals hs.current (.same rfl)
  | log bytes cursor event =>
    refine hs.applyDecodedLog (fun new hnew => hevents new ?_) h
    rw [hnew]
    exact .log bytes cursor new
  | head cursor =>
    refine hs.journals ?_ (journals_takes h (by simp) (by simp))
    rcases applyHead_cases h with ⟨e, hout, -⟩ | ⟨reducer, -, hobserve, rfl⟩
    · cases hout
    obtain ⟨published, rfl⟩ := QuoteReducer.observeHead_ok hobserve
    exact hs.current
  | correct bytes c =>
    exact hs.corrected (fun _ hlog _ hdecode => hevents _ (.correct bytes hlog hdecode)) h
  | remember c =>
    rcases observeCoveredCorrection_cases h with ⟨e, hout, -⟩ | ⟨-, rfl⟩ | ⟨-, rfl, -⟩
    · cases hout
    · exact hs
    · exact hs.journals hs.current (.same rfl)
  | install snapshot =>
    refine hs.journals ?_ (journals_takes h (by simp) (by simp))
    obtain rfl := installSnapshot_eq_ok h.2
    exact hsnapshot snapshot rfl

end QuoteIndexer

/-! ### Runs -/

/-- A journal with the images evicted from it since it was last reset. -/
structure TracedJournal where
  journal : JournalState
  evicted : List OptimisticBlock

def TracedJournal.step (t : TracedJournal) (op : JournalOp) : TracedJournal :=
  ⟨t.journal.perform op, if op.isReset then [] else t.evicted ++ t.journal.evicted op⟩

open JournalState (Bounded Ordered Raised Buried bounded_empty)

/-- The invariant of orderly runs. -/
structure TracedJournal.InOrder (t : TracedJournal) : Prop where
  bounded : Bounded t.journal
  ordered : Ordered t.journal
  buried : Buried t.journal.rollbackFloor t.evicted

theorem TracedJournal.InOrder.step {t : TracedJournal} (h : t.InOrder)
    (horderly : t.journal.orderly op = true) : (t.step op).InOrder := by
  cases hreset : op.isReset with
  | true =>
    cases op with
    | reset floor =>
      refine ⟨h.bounded.perform (.reset floor), ⟨.nil, ?_⟩, ?_⟩
      · intro f hf b hb
        cases hb
      · simp [TracedJournal.step, hreset, Buried]
    | _ => cases hreset
  | false =>
    obtain ⟨hordered, hraised, hburied⟩ := h.ordered.perform h.bounded horderly hreset
    refine ⟨h.bounded.perform op, hordered, ?_⟩
    intro b hb
    simp only [TracedJournal.step, hreset, false_eq_true, if_false] at hb
    rcases mem_append.mp hb with hold | hnew
    · exact h.buried.raised hraised b hold
    · exact hburied b hnew

/-- **The journal is in order along orderly runs**: within its bounds, the images in block order,
the floor rising with every operation but a reset, and no correction admitted below an image that
was evicted. -/
theorem journal_in_order {t : TracedJournal}
    (h : Run TracedJournal.step (fun t op => t.journal.orderly op = true) ⟨.empty, []⟩ t) :
    Bounded t.journal ∧
    (t.journal.blocks.Pairwise fun b b' => b.number ≤ b'.number) ∧
    (∀ op, t.journal.orderly op = true → op.isReset = false →
      Raised t.journal.rollbackFloor (t.journal.perform op).rollbackFloor) ∧
    ∀ ancestor oldBranch restore, t.journal.restorePoint ancestor oldBranch = .ok restore →
      ∀ b ∈ t.evicted, b.number ≤ ancestor.cursor.blockNumber := by
  have hinit : TracedJournal.InOrder ⟨.empty, []⟩ :=
    ⟨bounded_empty, ⟨.nil, fun f hf b hb => absurd hb (by simp [JournalState.empty])⟩,
      by simp [Buried]⟩
  have hinorder : t.InOrder :=
    h.invariant (P := TracedJournal.InOrder) hinit fun _ _ ht horderly => ht.step horderly
  refine ⟨hinorder.bounded, hinorder.ordered.rising, ?_, ?_⟩
  · intro op horderly hreset
    exact (hinorder.ordered.perform hinorder.bounded horderly hreset).2.1
  intro ancestor oldBranch restore hrestore b hb
  obtain ⟨f, hf, hle⟩ := hinorder.buried b hb
  obtain ⟨hfloor, -, -⟩ := JournalState.restorePoint_eq_ok hrestore
  rw [hf] at hfloor
  exact hle.trans (validateRollbackFloor_eq_ok hfloor).1

/-- An image in block 5, and one in block 6 that is larger than the budget: both are evicted. -/
def evictingOps : List JournalOp :=
  [.reset (blockAt 0 0xb0), .captureBefore (blockAt 5 0xb5) smallStart.reducer 64,
    .recordEventIdentity (blockAt 5 0xb5),
    .captureBefore (blockAt 6 0xb6) smallStart.reducer (maxOptimisticHistoryBytes + 1),
    .recordEventIdentity (blockAt 6 0xb6)]

theorem journal_in_order_evicting :
    ∃ t : TracedJournal, t.evicted.map OptimisticBlock.number = [5, 6] ∧ Bounded t.journal ∧
      (t.journal.restorePoint (blockRef 6 0xb6 0xb5) []).isOk = true ∧
      ∀ restore, t.journal.restorePoint (blockRef 6 0xb6 0xb5) [] = .ok restore →
        ∀ b ∈ t.evicted, b.number ≤ 6 := by
  have hrun : Run TracedJournal.step (fun t op => t.journal.orderly op = true) ⟨.empty, []⟩
      (evictingOps.foldl TracedJournal.step ⟨.empty, []⟩) :=
    Run.ofList (fun (t : TracedJournal) op => t.journal.orderly op) .refl (by decide +kernel)
  obtain ⟨hbounded, -, -, hadmits⟩ := journal_in_order hrun
  exact ⟨_, by decide +kernel, hbounded, by decide +kernel, fun restore => hadmits _ _ restore⟩

/-- **The indexer puts its journal out of order.**  A log of block 4 is taken as new after block 6
was replaced, and captured behind the image of block 5.  A large image of block 10 is evicted, the
window fills up, and the identity of block 3 becomes the floor: a correction back to block 5 is
admitted again. -/
theorem disordered_journal :
    ∃ late before after : Traced,
      Run (deliver referencePlatform) (fun _ _ => True) ⟨smallStart, []⟩ late ∧
      late.indexer.optimisticHistory.blocks.map OptimisticBlock.number = [5, 4] ∧
      Run (deliver referencePlatform) (fun _ _ => True) ⟨smallStart, []⟩ before ∧
      before.indexer.optimisticHistory.rollbackFloor.map (·.blockNumber) = some 10 ∧
      Run (deliver referencePlatform) (fun _ _ => True) before after ∧
      after.indexer.optimisticHistory.rollbackFloor.map (·.blockNumber) = some 3 ∧
      (after.indexer.optimisticHistory.restorePoint backToFive.commonAncestor
        backToFive.oldBranch).isOk = true := by
  refine ⟨lateUpdates.foldl (deliver referencePlatform) ⟨smallStart, []⟩,
    (longUpdates.take 10).foldl (deliver referencePlatform) ⟨smallStart, []⟩,
    (longUpdates.drop 10).foldl (deliver referencePlatform)
      ((longUpdates.take 10).foldl (deliver referencePlatform) ⟨smallStart, []⟩),
    Run.foldl .refl _, by decide +kernel, Run.foldl .refl _, by decide +kernel,
    Run.foldl .refl _, by decide +kernel, by decide +kernel⟩

end Lunarbase.Client
