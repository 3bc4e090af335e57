import Lunarbase.EventWorker.Chain

/-!
# EventWorker — Window

Startup: the canonical window is read back from the store (`redis_store/window.rs`).

When the index is a chain, loading succeeds and gives the blocks of the heights that are mapped
without a gap up to the canonical head, as many as the limit allows (`Chained.load_eq_ok`).  A
height that is filled in below can break the chain, and then the worker does not start again
(`filled_gap_not_loadable`).
-/

namespace Lunarbase.EventWorker

open Client (BlockRef ContractLog ChainCursor saturatingAdd u64Max)
open List Except Option Nat

structure JournalWindow where
  blocks : List BlockRef
  finalized : Option BlockRef
  deriving DecidableEq

/-- What a window may take: blocks, bytes, and the size of a `BlockRef` in memory. -/
structure WindowLimits where
  maxBlocks : Nat
  maxBytes : Nat
  sizeOfBlockRef : Nat

/-- The block of a header. -/
def HeaderEnvelope.block (header : HeaderEnvelope) : BlockRef :=
  ⟨⟨header.chainId, header.blockNumber, header.executionBlockNumber, some header.blockHash, none,
    none, none, none, .canonical⟩, some header.parentHash⟩

def blockText (block : BlockRef) : Option Text := block.cursor.blockHash.map hashText

namespace Store

def loadHeader (s : Store) (hash : Text) : Except StoreError HeaderEnvelope :=
  .ofOption (.journal ("durable header " ++ String.ofList hash ++ " is missing")) (s.headers hash)

/-- The loop over the retained heights. -/
def loadBlocks (s : Store) (chainId : Nat) (limits : WindowLimits) (blocks : List BlockRef)
    (charged : Nat) : List (Nat × Text) → Except StoreError (List BlockRef)
  | [] => .ok blocks
  | (height, hash) :: rest => do
    let payload ← .ofOption
      (.journal ("canonical header " ++ String.ofList hash ++ " is missing")) (s.headers hash)
    let charged := saturatingAdd (saturatingAdd charged payload.text.length) limits.sizeOfBlockRef
    if limits.maxBytes < charged then
      .error (.correctionBudget "durable fork window byte limit exceeded")
    else do
      let block ← (decodeHeader payload chainId).mapError .event
      if block.cursor.blockNumber ≠ height ∨ blockText block ≠ some hash then
        journalError "canonical height/header identity mismatch"
      else if blocks.getLast?.any fun previous =>
          block.cursor.blockNumber ≠ saturatingAdd previous.cursor.blockNumber 1 ∨
            block.parentHash ≠ previous.cursor.blockHash then
        journalError "durable canonical headers are disconnected"
      else s.loadBlocks chainId limits (blocks ++ [block]) charged rest

def loadFinalized (s : Store) (chainId : Nat) : Except StoreError (Option BlockRef) :=
  match s.finalizedHead with
  | none => .ok none
  | some hash => do
    let payload ← s.loadHeader hash
    let block ← (decodeHeader payload chainId).mapError .event
    if blockText block ≠ some hash then
      journalError "finalized head key disagrees with header identity"
    else .ok (some { block with cursor := { block.cursor with commitment := .finalized } })

/-- The first height that the limit leaves. -/
def firstHeight (limits : WindowLimits) (canonicalNumber : Nat) : Nat :=
  saturatingAdd canonicalNumber 1 - limits.maxBlocks

/-- The heights after the last that is not mapped, with their hashes. -/
def retainedHeights (heights : List Nat) (hashes : List (Option Text)) :
    Except StoreError (List (Nat × Text)) :=
  ((heights.zip hashes).drop ((hashes.rposition isNone).elim 0 (· + 1))).mapM
    fun (height, hash) =>
      .ofOption (.journal "canonical suffix contains an internal gap")
        (hash.map fun hash => (height, hash))

def load (s : Store) (chainId : Nat) (limits : WindowLimits) : Except StoreError JournalWindow :=
  if limits.maxBlocks = 0 ∨ limits.maxBytes = 0 then
    journalError "invalid durable fork-window limits"
  else match s.canonicalHead with
    | none =>
      if s.finalizedHead.isSome then journalError "finalized head exists without canonical head"
      else .ok ⟨[], none⟩
    | some canonicalHash => do
      let payload ← s.loadHeader canonicalHash
      let canonical ← (decodeHeader payload chainId).mapError .event
      if blockText canonical ≠ some canonicalHash then
        journalError "canonical head key disagrees with header identity"
      else do
        let first := firstHeight limits canonical.cursor.blockNumber
        let heights := range' first (canonical.cursor.blockNumber + 1 - first)
        let hashes := heights.map fun height => s.canonicalHeight (decimal height)
        if hashes.getLast?.join ≠ some canonicalHash then
          journalError "canonical head is absent from the height index"
        else do
          let retained ← retainedHeights heights hashes
          let blocks ← s.loadBlocks chainId limits [] 0 retained
          let finalized ← s.loadFinalized chainId
          .ok ⟨blocks, finalized⟩

/-! ### Reading one header -/

variable {s : Store} {w : Worker} {chainId : Nat} {limits : WindowLimits} {header : HeaderEnvelope}

theorem decodeHeader_of_valid (h : header.Valid chainId) :
    decodeHeader header chainId = .ok header.block := by
  obtain ⟨hversion, hchain, hhash, hparent⟩ := h
  rw [decodeHeader, if_neg]
  · rfl
  rintro (hne | hne | hzero | hzero)
  · exact hne hversion
  · exact hne hchain
  · exact hhash hzero
  · exact hparent hzero

theorem Chained.blockText_eq (h : Chained chainId s) {hash : Text}
    (hheader : s.headers hash = some header) : blockText header.block = some hash :=
  congrArg some (h.stored hash header hheader).1.symm

/-- The upper block is the child of the lower. -/
def Child (lower upper : BlockRef) : Prop :=
  upper.cursor.blockNumber = lower.cursor.blockNumber + 1 ∧
    upper.parentHash = lower.cursor.blockHash

/-! ### The blocks -/

/-- What the blocks of these heights are charged. -/
def windowCharge (s : Store) (limits : WindowLimits) (pairs : List (Nat × Text)) : Nat :=
  (pairs.map fun pair =>
    (s.headers pair.2).elim 0 (·.text.length) + limits.sizeOfBlockRef).sum

/-- The block that is mapped at a height. -/
def Holds (s : Store) (block : BlockRef) (height : Nat) : Prop :=
  ∃ hash header, s.canonicalHeight (decimal height) = some hash ∧ s.headers hash = some header ∧
    block = header.block ∧ header.blockNumber = height

variable {height start count : Nat}

theorem Chained.holds (h : Chained chainId s) {hash : Text}
    (hmapped : s.canonicalHeight (decimal height) = some hash) :
    ∃ header, s.headers hash = some header ∧ header.blockNumber = height ∧ height < 10 ^ 14 := by
  obtain ⟨header, hheader, hname, hbound⟩ := h.mapped _ _ hmapped
  have hnumber := decimal_injective hname
  exact ⟨header, hheader, hnumber.symm, hnumber ▸ hbound⟩

/-- Neighbouring heights hold a block and its child. -/
theorem Chained.child (h : Chained chainId s) {lower upper : BlockRef}
    (hlower : s.Holds lower height) (hupper : s.Holds upper (height + 1)) : Child lower upper := by
  obtain ⟨lowerHash, lowerHeader, hlowerMapped, hlowerHeader, rfl, hlowerNumber⟩ := hlower
  obtain ⟨upperHash, upperHeader, hupperMapped, hupperHeader, rfl, hupperNumber⟩ := hupper
  refine ⟨hupperNumber.trans (congrArg (· + 1) hlowerNumber.symm), congrArg some ?_⟩
  have hlink := h.linked height _ _ _ hlowerMapped hupperMapped hupperHeader
  exact hashText_injective (hlink.trans (h.stored _ _ hlowerHeader).1)

theorem saturatingAdd_le (a b : Nat) : saturatingAdd a b ≤ a + b := min_le_left _ _

variable {blocks : List BlockRef}

/-- The loop succeeds over heights that are mapped one after the other. -/
theorem Chained.loadBlocks_eq_ok (h : Chained chainId s) (limits : WindowLimits)
    (hashOf : Nat → Text) (hmapped : ∀ height, start ≤ height → height < start + count →
      s.canonicalHeight (decimal height) = some (hashOf height))
    (hprevious : ∀ previous ∈ blocks.getLast?, ∃ height, height + 1 = start ∧
      s.Holds previous height) {charged : Nat} (hbudget : charged + s.windowCharge limits
      ((range' start count).map fun height => (height, hashOf height)) ≤ limits.maxBytes) :
    ∃ later, s.loadBlocks chainId limits blocks charged
        ((range' start count).map fun height => (height, hashOf height)) =
        .ok (blocks ++ later) ∧
      List.Forall₂ s.Holds later (range' start count) := by
  induction count generalizing start blocks charged with
  | zero => exact ⟨[], by rw [append_nil]; rfl, .nil⟩
  | succ count ih =>
    have hfirst := hmapped start le_rfl (by omega)
    obtain ⟨header, hheader, hnumber, hbound⟩ := h.holds hfirst
    have hholds : s.Holds header.block start := ⟨_, header, hfirst, hheader, rfl, hnumber⟩
    rw [range'_succ, map_cons, windowCharge, map_cons, sum_cons] at hbudget
    rw [hheader, elim_some] at hbudget
    have hcharge : saturatingAdd (saturatingAdd charged header.text.length)
        limits.sizeOfBlockRef ≤ charged + (header.text.length + limits.sizeOfBlockRef) := by
      have houter := saturatingAdd_le (saturatingAdd charged header.text.length)
        limits.sizeOfBlockRef
      have hinner := saturatingAdd_le charged header.text.length
      omega
    -- the rest of the loop, with this block as the previous one
    have hlast : ∀ previous ∈ (blocks ++ [header.block]).getLast?, ∃ height,
        height + 1 = start + 1 ∧ s.Holds previous height := by
      intro previous hprev
      rw [getLast?_concat, mem_some_iff] at hprev
      exact ⟨start, rfl, hprev ▸ hholds⟩
    have hrest : ∀ height, start + 1 ≤ height → height < start + 1 + count →
        s.canonicalHeight (decimal height) = some (hashOf height) :=
      fun height hlow hhigh => hmapped height (by omega) (by omega)
    have hleft : saturatingAdd (saturatingAdd charged header.text.length) limits.sizeOfBlockRef +
        s.windowCharge limits
          ((range' (start + 1) count).map fun height => (height, hashOf height)) ≤
        limits.maxBytes := by
      rw [windowCharge]
      omega
    obtain ⟨later, hlater, hall⟩ := ih hrest hlast hleft
    refine ⟨header.block :: later, ?_, .cons hholds hall⟩
    have hcharged : ¬ limits.maxBytes < saturatingAdd
        (saturatingAdd charged header.text.length) limits.sizeOfBlockRef := by omega
    have hidentity : ¬ (header.block.cursor.blockNumber ≠ start ∨
        blockText header.block ≠ some (hashOf start)) := by
      rw [not_or, not_not, not_not]
      exact ⟨hnumber, h.blockText_eq hheader⟩
    have hconnected : ¬ (blocks.getLast?.any fun previous =>
        header.block.cursor.blockNumber ≠ saturatingAdd previous.cursor.blockNumber 1 ∨
          header.block.parentHash ≠ previous.cursor.blockHash) = true := by
      intro hany
      obtain ⟨previous, hsome, hne⟩ := (any_eq_true _ _).mp hany
      obtain ⟨height, rfl, hbelow⟩ := hprevious previous hsome
      obtain ⟨hnext, hparent⟩ := h.child hbelow hholds
      have hsaturate : saturatingAdd previous.cursor.blockNumber 1 =
          previous.cursor.blockNumber + 1 := by
        refine min_eq_left ?_
        rw [← hnext]
        exact (hnumber.trans_lt hbound).le.trans (by decide)
      rcases of_decide_eq_true hne with hnumbers | hparents
      · exact hnumbers (hnext.trans hsaturate.symm)
      · exact hparents hparent
    rw [range'_succ, map_cons, loadBlocks, hheader, ofOption_some, ok_bind]
    rw [if_neg hcharged, decodeHeader_of_valid (h.stored _ _ hheader).2]
    change (Except.ok header.block >>= _) = _
    rw [ok_bind, if_neg hidentity, if_neg hconnected, hlater, append_assoc]
    rfl

/-! ### The heights -/

/-- The retained heights run from after the last gap to the last height. -/
theorem retainedHeights_eq_ok (hashAt : Nat → Option Text) {first count : Nat}
    (hlast : (hashAt (first + count)).isSome = true) :
    ∃ start, first ≤ start ∧ start ≤ first + count ∧
      (∀ height, start ≤ height → height < first + (count + 1) → (hashAt height).isSome = true) ∧
      (start = first ∨ hashAt (start - 1) = none) ∧
      retainedHeights (range' first (count + 1)) ((range' first (count + 1)).map hashAt) =
        .ok ((range' start (first + (count + 1) - start)).map fun height =>
          (height, (hashAt height).getD [])) := by
  -- where the heights start that come after the last gap
  obtain ⟨skip, hskip, hle, hmapped, hgap⟩ : ∃ skip,
      (((range' first (count + 1)).map hashAt).rposition isNone).elim 0 (· + 1) = skip ∧
      skip ≤ count ∧
      (∀ height, first + skip ≤ height → height < first + (count + 1) →
        (hashAt height).isSome = true) ∧
      (skip = 0 ∨ hashAt (first + skip - 1) = none) := by
    cases hposition : ((range' first (count + 1)).map hashAt).rposition isNone with
    | none =>
      refine ⟨0, rfl, zero_le _, fun height hlow hhigh => ?_, .inl rfl⟩
      have hin : hashAt height ∈ (range' first (count + 1)).map hashAt :=
        mem_map_of_mem (mem_range'_1.mpr ⟨hlow, hhigh⟩)
      have hsome := rposition_eq_none hposition _ hin
      rwa [isNone_eq_false_iff] at hsome
    | some i =>
      obtain ⟨⟨hash, hat, hnone⟩, hlater⟩ := rposition_eq_some hposition
      have hi : i < count + 1 := by
        have hlength := (List.getElem?_eq_some_iff.mp hat).1
        simpa using hlength
      rw [List.getElem?_map, List.getElem?_range' hi, one_mul, map_some] at hat
      have hempty : hashAt (first + i) = none := by
        rw [some.inj hat]
        exact isNone_iff_eq_none.mp hnone
      refine ⟨i + 1, rfl, ?_, fun height hlow hhigh => ?_, .inr hempty⟩
      · by_contra hgt
        obtain rfl : i = count := by omega
        rw [hempty] at hlast
        cases hlast
      have hin : hashAt height ∈ ((range' first (count + 1)).map hashAt).drop (i + 1) := by
        rw [← map_drop, drop_range']
        refine mem_map_of_mem (mem_range'_1.mpr ⟨?_, ?_⟩)
        · omega
        · omega
      have hsome := hlater _ hin
      rwa [isNone_eq_false_iff] at hsome
  refine ⟨first + skip, le_add_right _ _, by omega, hmapped, ?_, ?_⟩
  · rcases hgap with rfl | hnone
    · exact .inl rfl
    · exact .inr hnone
  rw [retainedHeights, hskip, ← map_prod_left_eq_zip, ← map_drop, drop_range',
    Nat.mul_one, Nat.add_sub_add_left]
  refine mapM_eq_ok.mpr (forall₂_map_left_iff.mpr (forall₂_map_right_iff.mpr ?_))
  refine forall₂_same.mpr fun height hheight => ?_
  obtain ⟨hlow, hhigh⟩ := mem_range'_1.mp hheight
  obtain ⟨hash, hhash⟩ := isSome_iff_exists.mp (hmapped height hlow (by omega))
  rw [hhash]
  rfl

/-! ### The window -/

/-- The blocks are those of the heights mapped without a gap up to the canonical head, as many of
them as the limit leaves. -/
structure Suffix (s : Store) (limits : WindowLimits) (canonicalNumber : Nat)
    (blocks : List BlockRef) : Prop where
  linked : blocks.IsChain Child
  heights : ∃ start, canonicalNumber + 1 - limits.maxBlocks ≤ start ∧ start ≤ canonicalNumber ∧
    List.Forall₂ s.Holds blocks (range' start (canonicalNumber + 1 - start)) ∧
    (start = canonicalNumber + 1 - limits.maxBlocks ∨
      s.canonicalHeight (decimal (start - 1)) = none)

theorem Chained.isChain (h : Chained chainId s)
    (hholds : List.Forall₂ s.Holds blocks (range' start count)) : blocks.IsChain Child := by
  induction count generalizing start blocks with
  | zero =>
    cases hholds
    exact .nil
  | succ count ih =>
    cases hholds with
    | cons hfirst hrest =>
      cases count with
      | zero =>
        cases hrest
        exact .singleton _
      | succ count =>
        have hchain := ih hrest
        cases hrest with
        | cons hsecond _ => exact .cons_cons (h.child hfirst hsecond) hchain

theorem Chained.loadFinalized_eq_ok (h : Chained chainId s) :
    ∃ finalized, s.loadFinalized chainId = .ok finalized ∧
      finalized.bind blockText = s.finalizedHead := by
  unfold loadFinalized
  cases hfinalized : s.finalizedHead with
  | none => exact ⟨none, rfl, rfl⟩
  | some hash =>
    obtain ⟨header, hheader⟩ := h.finalized hash hfinalized
    have hidentity : ¬ blockText header.block ≠ some hash := not_not.mpr (h.blockText_eq hheader)
    refine ⟨some { header.block with
      cursor := { header.block.cursor with commitment := .finalized } }, ?_, ?_⟩
    · dsimp only
      rw [loadHeader, hheader, ofOption_some, ok_bind,
        decodeHeader_of_valid (h.stored _ _ hheader).2]
      change (Except.ok header.block >>= _) = _
      rw [ok_bind, if_neg hidentity]
    · exact h.blockText_eq hheader

/-- **A chain can be loaded.**  With enough bytes loading succeeds and gives the longest linked
suffix that the limit on blocks leaves. -/
theorem Chained.load_eq_ok (h : Chained chainId s) (maxBlocks sizeOfBlockRef : Nat)
    (hblocks : 0 < maxBlocks) :
    ∃ enough, ∀ maxBytes, 0 < maxBytes → enough ≤ maxBytes →
      ∃ window, s.load chainId ⟨maxBlocks, maxBytes, sizeOfBlockRef⟩ = .ok window ∧
        window.finalized.bind blockText = s.finalizedHead ∧
        ∀ hash, s.canonicalHead = some hash → ∃ header, s.headers hash = some header ∧
          s.Suffix ⟨maxBlocks, maxBytes, sizeOfBlockRef⟩ header.blockNumber window.blocks := by
  have hlimits : ∀ maxBytes, 0 < maxBytes → ¬ (maxBlocks = 0 ∨ maxBytes = 0) := by omega
  cases hcanonical : s.canonicalHead with
  | none =>
    have hfinalized := (h.started hcanonical).1
    refine ⟨0, fun maxBytes hbytes _ => ⟨⟨[], none⟩, ?_, hfinalized.symm, fun hash hsome => ?_⟩⟩
    · rw [load, if_neg (hlimits maxBytes hbytes), hcanonical, hfinalized]
      rfl
    · cases hsome
  | some canonicalHash =>
    obtain ⟨header, hheader, hmapped, -⟩ := h.head _ hcanonical
    obtain ⟨header', hheader', -, hbound⟩ := h.mapped _ _ hmapped
    cases hheader.symm.trans hheader'
    obtain ⟨first, hfirst⟩ : ∃ first, header.blockNumber + 1 - maxBlocks = first := ⟨_, rfl⟩
    obtain ⟨count, hcount⟩ : ∃ count, header.blockNumber = first + count :=
      ⟨header.blockNumber - first, by omega⟩
    have hlast : (s.canonicalHeight (decimal (first + count))).isSome = true := by
      rw [← hcount, hmapped]
      rfl
    obtain ⟨start, hlow, hhigh, hall, hgap, hretained⟩ :=
      retainedHeights_eq_ok (fun height => s.canonicalHeight (decimal height)) hlast
    obtain ⟨finalized, hfinalized, hfinalizedHash⟩ := h.loadFinalized_eq_ok
    refine ⟨s.windowCharge ⟨maxBlocks, 0, sizeOfBlockRef⟩
      ((range' start (first + (count + 1) - start)).map fun height =>
        (height, (s.canonicalHeight (decimal height)).getD [])), fun maxBytes hbytes henough => ?_⟩
    have hhashes : ∀ height, start ≤ height → height < start + (first + (count + 1) - start) →
        s.canonicalHeight (decimal height) =
          some ((s.canonicalHeight (decimal height)).getD []) := by
      intro height hstart hend
      obtain ⟨hash, hhash⟩ := isSome_iff_exists.mp (hall height hstart (by omega))
      rw [hhash]
      rfl
    have hbudget : 0 + s.windowCharge ⟨maxBlocks, maxBytes, sizeOfBlockRef⟩
        ((range' start (first + (count + 1) - start)).map fun height =>
          (height, (s.canonicalHeight (decimal height)).getD [])) ≤ maxBytes := by
      rw [zero_add]
      exact henough
    have hprevious : ∀ previous ∈ ([] : List BlockRef).getLast?, ∃ height, height + 1 = start ∧
        s.Holds previous height := fun previous hnone => nomatch hnone
    obtain ⟨blocks, hload, hholds⟩ := h.loadBlocks_eq_ok ⟨maxBlocks, maxBytes, sizeOfBlockRef⟩
      _ hhashes hprevious hbudget
    refine ⟨⟨blocks, finalized⟩, ?_, hfinalizedHash, fun hash hsome => ?_⟩
    · have hidentity : ¬ blockText header.block ≠ some canonicalHash :=
        not_not.mpr (h.blockText_eq hheader)
      have hsaturate : firstHeight ⟨maxBlocks, maxBytes, sizeOfBlockRef⟩
          header.block.cursor.blockNumber = first := by
        have hsmall : saturatingAdd header.blockNumber 1 = header.blockNumber + 1 :=
          min_eq_left (succ_le_of_lt (hbound.trans (by decide)))
        rw [← hfirst, ← hsmall]
        rfl
      have hheights : header.block.cursor.blockNumber + 1 - first = count + 1 := by
        change header.blockNumber + 1 - first = count + 1
        omega
      have hjoin : ¬ (((range' first (count + 1)).map fun height =>
          s.canonicalHeight (decimal height)).getLast?.join ≠ some canonicalHash) := by
        rw [getLast?_map, getLast?_range', if_neg (succ_ne_zero count),
          map_some, join_some, not_not, ← hmapped, hcount]
        rfl
      rw [load, if_neg (hlimits maxBytes hbytes), hcanonical]
      dsimp only
      rw [loadHeader, hheader, ofOption_some, ok_bind,
        decodeHeader_of_valid (h.stored _ _ hheader).2]
      change (Except.ok header.block >>= _) = _
      rw [ok_bind, if_neg hidentity, hsaturate, hheights, if_neg hjoin, hretained,
        ok_bind, hload, ok_bind, hfinalized, ok_bind, nil_append]
    · cases hsome
      refine ⟨header, hheader, h.isChain hholds, start, ?_⟩
      rw [hfirst]
      rw [← add_assoc, ← hcount] at hholds
      exact ⟨hlow, hcount ▸ hhigh, hholds, hgap⟩

/-- The canonical index is a chain that can be loaded, and whose finalized head only rises. -/
structure Loadable (w : Worker) (chainId : Nat) (s : Store) : Prop where
  linked : ∀ number lower upper, s.canonicalHeight (decimal number) = some lower →
    s.canonicalHeight (decimal (number + 1)) = some upper →
    ∃ header, s.headers upper = some header ∧ hashText header.parentHash = lower
  head : ∀ hash, s.canonicalHead = some hash → ∃ header, s.headers hash = some header ∧
    s.canonicalHeight (decimal header.blockNumber) = some hash
  finalized : ∀ hash, s.finalizedHead = some hash → ∃ header, s.headers hash = some header ∧
    ∀ call, ∃ hash' header', (s.perform w call).finalizedHead = some hash' ∧
      (s.perform w call).headers hash' = some header' ∧ header.blockNumber ≤ header'.blockNumber
  window : ∀ maxBlocks sizeOfBlockRef, 0 < maxBlocks →
    ∃ enough, ∀ maxBytes, 0 < maxBytes → enough ≤ maxBytes →
      ∃ window, s.load chainId ⟨maxBlocks, maxBytes, sizeOfBlockRef⟩ = .ok window ∧
        window.finalized.bind blockText = s.finalizedHead ∧
        ∀ hash, s.canonicalHead = some hash → ∃ header, s.headers hash = some header ∧
          s.Suffix ⟨maxBlocks, maxBytes, sizeOfBlockRef⟩ header.blockNumber window.blocks

theorem Chained.loadable (h : Chained chainId s) : s.Loadable w chainId where
  linked := by
    intro number lower upper hlower hupper
    obtain ⟨header, hheader, -, -⟩ := h.mapped _ _ hupper
    exact ⟨header, hheader, h.linked number lower upper header hlower hupper hheader⟩
  head := by
    intro hash hcanonical
    obtain ⟨header, hheader, hmapped, -⟩ := h.head hash hcanonical
    exact ⟨header, hheader, hmapped⟩
  finalized := by
    intro hash hfinalized
    obtain ⟨header, hheader⟩ := h.finalized hash hfinalized
    exact ⟨header, hheader, fun call => perform_finalizedHead hfinalized hheader call⟩
  window := h.load_eq_ok

end Store

/-- **The canonical index is a loadable chain** in every store that a worker reaches by orderly
calls: those it accepts have blocks of its chain with a parent, each head the parent of the block
mapped above it, each correction from the canonical block of its ancestor's height. -/
theorem canonical_index_loadable (w : Worker) (chainId : Nat) {s : Store}
    (hrun : Run (Store.perform w) (Store.Orderly w chainId) (Store.initial w.fingerprint) s) :
    s.Loadable w chainId :=
  (Store.chained_of_run hrun).loadable

theorem canonical_index_loadable_small : (returningStore 2).Loadable smallWorker 1 := by
  have hroot : Store.Orderly smallWorker 1 (Store.initial smallWorker.fingerprint)
      (.head rootBlock) := fun _ => ⟨⟨rfl, by decide, by decide⟩, nofun⟩
  have hempty : (returningStore 1).canonicalHeight (decimal 3) = none := by decide +kernel
  have hsecond : Store.Orderly smallWorker 1 (returningStore 1) (.head (secondBlock 0xa2)) :=
    fun _ => ⟨⟨rfl, by decide, by decide⟩,
      fun _ _ _ _ hmapped => absurd (hempty.symm.trans hmapped) (some_ne_none _).symm⟩
  exact canonical_index_loadable smallWorker 1 (.more (.more .refl hroot) hsecond)

/-! ### A gap that is filled -/

/-- A finalized block 3 whose parent is not yet known. -/
def thirdBlock : BlockRef := blockOf 3 0xa3 0xb2 .finalized

/-- Blocks 1 and 3 are finalized; then a block 2 comes that is not the parent of block 3. -/
def filledStore : Store :=
  (((Store.initial smallWorker.fingerprint).perform smallWorker (.head rootBlock)).perform
    smallWorker (.head thirdBlock)).perform smallWorker (.head (secondBlock 0xa2))

/-- **A filled gap breaks the chain.**  The head script does not look at the height above: block 2
is accepted below block 3 of another branch, and the window cannot be loaded any more. -/
theorem filled_gap_not_loadable :
    ∃ (w : Worker) (chainId : Nat) (s : Store),
      Run (Store.perform w) (fun _ call => ∀ block ∈ call.blocks, Fits chainId block)
        (Store.initial w.fingerprint) s ∧
      ¬ s.Loadable w chainId ∧
      s.load chainId ⟨10, 100000, 200⟩ =
        .error (.journal "durable canonical headers are disconnected") := by
  have hfits : ∀ number hash parent commitment, number < 10 ^ 14 → parent ≠ 0 →
      ∀ block ∈ (Call.head (blockOf number hash parent commitment)).blocks, Fits 1 block := by
    intro number hash parent commitment hnumber hparent block hblock
    rw [mem_singleton.mp hblock]
    exact ⟨rfl, fun hzero => hparent (some.inj hzero), hnumber⟩
  refine ⟨smallWorker, 1, filledStore, .more (.more (.more .refl ?_) ?_) ?_,
    fun hloadable => ?_, ?_⟩
  · exact hfits 1 0xa1 0xa0 .finalized (by decide) (by decide)
  · exact hfits 3 0xa3 0xb2 .finalized (by decide) (by decide)
  · exact hfits 2 0xa2 0xa1 .canonical (by decide) (by decide)
  · have hstate : filledStore.canonicalHeight (decimal 2) = some (hashText 0xa2) ∧
        filledStore.canonicalHeight (decimal 3) = some (hashText 0xa3) ∧
        (filledStore.headers (hashText 0xa3)).map (·.parentHash) = some 0xb2 := by
      decide +kernel
    obtain ⟨hlower, hupper, hparent⟩ := hstate
    obtain ⟨header, hheader, hlink⟩ := hloadable.linked 2 _ _ hlower hupper
    rw [hheader, map_some] at hparent
    rw [some.inj hparent] at hlink
    exact absurd (hashText_injective hlink) (by decide)
  · decide +kernel

end Lunarbase.EventWorker
