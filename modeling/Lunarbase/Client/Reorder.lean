import Lunarbase.Client.Engine
import Lunarbase.Support.SortedMap
import Mathlib.Data.List.Lex

/-!
# Client — Reorder

The bounded buffer that puts decoded updates in order (`state/ordering.rs`).  An update waits under
a key that sorts it within its block: heads and logs by position, corrections and reorganizations at
the end of the block they lead to.  A watermark releases everything that is not after it.

The buffer charges the memory of what it holds, so the updates here come with the capacities of
their buffers (`HeldUpdate`), which the charge reads and `normalize_for_retention` changes.
-/

namespace Lunarbase.Client

open List Nat SortedMap

/-! ### Memory -/

/-- `saturating_mul` on 64 bits. -/
def saturatingMul (a b : Nat) : Nat := min (a * b) u64Max

/-- The sizes of the source's types in memory. -/
structure Layout where
  contractLog : Nat
  blockRef : Nat
  chainCorrection : Nat
  chainUpdate : Nat

/-- A log with the capacity of its topics and the length of the allocation behind its payload,
which the payload may be a slice of. -/
structure HeldLog where
  log : ContractLog
  topicsCapacity : Nat
  dataBacking : Nat
  deriving DecidableEq, Repr

namespace HeldLog

/-- `size_of::<B256>()` is 32. -/
def retainedBytes (sizes : Layout) (held : HeldLog) : Nat :=
  saturatingAdd (saturatingAdd sizes.contractLog (saturatingMul held.topicsCapacity 32))
    held.log.data.length

/-- `exact_owned_bytes`: the payload is moved to an allocation of its own length. -/
def normalizeForRetention (held : HeldLog) : HeldLog :=
  { held with dataBacking := held.log.data.length }

@[simp] theorem retainedBytes_normalize (sizes : Layout) (held : HeldLog) :
    held.normalizeForRetention.retainedBytes sizes = held.retainedBytes sizes := rfl

end HeldLog

/-- A correction with the capacities of its vectors. -/
structure HeldCorrection where
  commonAncestor : BlockRef
  oldTip : BlockRef
  newTip : BlockRef
  oldBranch : List BlockRef
  oldBranchCapacity : Nat
  newBranch : List BlockRef
  newBranchCapacity : Nat
  replacementLogs : List HeldLog
  replacementLogsCapacity : Nat
  deriving DecidableEq, Repr

namespace HeldCorrection

def retainedBytes (sizes : Layout) (held : HeldCorrection) : Nat :=
  let branches :=
    saturatingMul (saturatingAdd held.oldBranchCapacity held.newBranchCapacity) sizes.blockRef
  let logs :=
    saturatingAdd (saturatingMul held.replacementLogsCapacity sizes.contractLog)
      (held.replacementLogs.foldl
        (fun bytes log => saturatingAdd bytes (log.retainedBytes sizes - sizes.contractLog)) 0)
  saturatingAdd (saturatingAdd sizes.chainCorrection branches) logs

def normalizeForRetention (held : HeldCorrection) : HeldCorrection :=
  { held with replacementLogs := held.replacementLogs.map HeldLog.normalizeForRetention }

@[simp] theorem retainedBytes_normalize (sizes : Layout) (held : HeldCorrection) :
    held.normalizeForRetention.retainedBytes sizes = held.retainedBytes sizes := by
  simp only [retainedBytes, normalizeForRetention, foldl_map, HeldLog.retainedBytes_normalize]

/-- The correction as the reducer sees it. -/
def value (sizes : Layout) (held : HeldCorrection) : ChainCorrection where
  commonAncestor := held.commonAncestor
  oldTip := held.oldTip
  newTip := held.newTip
  oldBranch := held.oldBranch
  newBranch := held.newBranch
  replacementLogs := held.replacementLogs.map HeldLog.log
  retainedBytes := held.retainedBytes sizes

end HeldCorrection

/-- An update with the capacities of its buffers. -/
inductive HeldUpdate where
  | head (block : BlockRef)
  | log (held : HeldLog)
  | reorg (oldHead newHead : BlockRef)
  | correction (held : HeldCorrection)
  | gap (cursor : Option ChainCursor) (reason : String) (reasonCapacity : Nat)
  deriving DecidableEq, Repr

namespace HeldUpdate

/-- The update as the reducer sees it. -/
def value (sizes : Layout) : HeldUpdate → ChainUpdate
  | .head block => .head block
  | .log held => .log held.log
  | .reorg oldHead newHead => .reorg oldHead newHead
  | .correction held => .correction (held.value sizes)
  | .gap cursor reason _ => .gap cursor reason

def retainedBytes (sizes : Layout) (held : HeldUpdate) : Nat :=
  let dynamic := match held with
    | .log held => held.retainedBytes sizes - sizes.contractLog
    | .gap _ _ reasonCapacity => reasonCapacity
    | .correction held => held.retainedBytes sizes
    | .head _ | .reorg _ _ => 0
  saturatingAdd sizes.chainUpdate dynamic

def normalizeForRetention : HeldUpdate → HeldUpdate
  | .log held => .log held.normalizeForRetention
  | .correction held => .correction held.normalizeForRetention
  | held => held

@[simp] theorem retainedBytes_normalize (sizes : Layout) (held : HeldUpdate) :
    held.normalizeForRetention.retainedBytes sizes = held.retainedBytes sizes := by
  cases held with
  | log held | correction held => simp [normalizeForRetention, retainedBytes]
  | head _ | reorg _ _ | gap _ _ _ => rfl

/-- Normalization changes allocations only. -/
@[simp] theorem value_normalize (sizes : Layout) (held : HeldUpdate) :
    held.normalizeForRetention.value sizes = held.value sizes := by
  cases held with
  | correction held =>
    have hlogs : HeldLog.log ∘ HeldLog.normalizeForRetention = HeldLog.log := rfl
    simp only [normalizeForRetention, value, HeldCorrection.value,
      HeldCorrection.retainedBytes_normalize]
    simp only [HeldCorrection.normalizeForRetention, map_map, hlogs]
  | log _ | head _ | reorg _ _ | gap _ _ _ => rfl

end HeldUpdate

/-! ### Keys -/

def cursorKey (cursor : ChainCursor) (rank : Nat) : List Nat := cursor.eventOrder ++ [rank]

def branchEndKey (cursor : ChainCursor) (rank : Nat) : List Nat :=
  [cursor.blockNumber, u32Max, u32Max, u64Max, u32Max, rank]

def updateKey : ChainUpdate → List Nat
  | .head block => cursorKey block.cursor 0
  | .log log => cursorKey log.cursor 1
  | .correction correction => branchEndKey correction.newTip.cursor 2
  | .reorg _ newHead => branchEndKey newHead.cursor 3
  | .gap cursor _ => (cursor.map (cursorKey · 4)).getD [u64Max, 0, 0, 0, 0, 4]

/-- A cursor with neither a transaction nor a log index. -/
def ChainCursor.isBlockLevel (cursor : ChainCursor) : Bool :=
  cursor.transactionIndex.isNone && cursor.logIndex.isNone

def watermarkKey (cursor : ChainCursor) : List Nat :=
  if cursor.isBlockLevel then
    [cursor.blockNumber, u32Max, u32Max, u64Max, u32Max, 255]
  else cursor.eventOrder ++ [255]

/-! ### The buffer -/

structure CursorReorderBuffer where
  capacity : Nat
  byteCapacity : Nat
  pendingBytes : Nat
  pending : SortedMap (List Nat) HeldUpdate
  poisoned : Bool

namespace CursorReorderBuffer

def withLimits (capacity byteCapacity : Nat) : Except SourceError CursorReorderBuffer :=
  if capacity = 0 ∨ byteCapacity = 0 then
    .error (.unavailable "reorder buffer count and byte capacities must be non-zero")
  else .ok ⟨capacity, byteCapacity, 0, .empty, false⟩

def defaultBytesPerUpdate : Nat := 64 * 1024

def new (capacity : Nat) : Except SourceError CursorReorderBuffer :=
  withLimits capacity (saturatingMul capacity defaultBytesPerUpdate)

variable (sizes : Layout)

/-- A rejected update poisons the buffer.  The sum of the charges does not overflow: it stays
within the byte limit. -/
def push (buffer : CursorReorderBuffer) (update : HeldUpdate) :
    CursorReorderBuffer × Except SourceError Unit :=
  if buffer.poisoned then
    (buffer, .error (.gap "reorder buffer is poisoned; resnapshot required"))
  else
    let key := updateKey (update.value sizes)
    if buffer.pending.containsKey key then
      ({ buffer with poisoned := true }, .error (.gap "multiple updates share one cursor"))
    else
      let updateBytes := update.retainedBytes sizes
      if buffer.capacity ≤ buffer.pending.entries.length ∨
          buffer.byteCapacity - buffer.pendingBytes < updateBytes then
        ({ buffer with poisoned := true },
          .error (.gap "reorder buffer count or byte budget exceeded; resnapshot required"))
      else
        ({ buffer with
            pendingBytes := buffer.pendingBytes + updateBytes
            pending := buffer.pending.insert key update.normalizeForRetention }, .ok ())

def remove (buffer : CursorReorderBuffer) (key : List Nat) :
    Option (HeldUpdate × CursorReorderBuffer) :=
  (buffer.pending.take key).map fun taken =>
    (taken.1, { buffer with
      pendingBytes := buffer.pendingBytes - taken.1.retainedBytes sizes
      pending := taken.2 })

/-- The updates of these keys, taken out one after another. -/
def removeAll (buffer : CursorReorderBuffer) :
    List (List Nat) → CursorReorderBuffer × List HeldUpdate
  | [] => (buffer, [])
  | key :: rest =>
    match buffer.remove sizes key with
    | none => buffer.removeAll rest
    | some (update, buffer') =>
      let drained := buffer'.removeAll rest
      (drained.1, update :: drained.2)

def drainThrough (buffer : CursorReorderBuffer) (watermark : ChainCursor) :
    CursorReorderBuffer × List HeldUpdate :=
  let keys := (buffer.pending.upTo (watermarkKey watermark)).map Prod.fst
  buffer.removeAll sizes keys

def drainAll (buffer : CursorReorderBuffer) : CursorReorderBuffer × List HeldUpdate :=
  ({ buffer with pendingBytes := 0, pending := .empty }, buffer.pending.values)

end CursorReorderBuffer

/-! ### What a key says -/

/-- The block of an update; a gap without a cursor is after every block. -/
def updateHeight : ChainUpdate → Nat
  | .head block => block.cursor.blockNumber
  | .log log => log.cursor.blockNumber
  | .correction correction => correction.newTip.cursor.blockNumber
  | .reorg _ newHead => newHead.cursor.blockNumber
  | .gap cursor _ => (cursor.map ChainCursor.blockNumber).getD u64Max

/-- The position of an update: the end of its block for a correction or a reorganization. -/
def updatePosition : ChainUpdate → List Nat
  | .head block => block.cursor.eventOrder
  | .log log => log.cursor.eventOrder
  | .correction correction => [correction.newTip.cursor.blockNumber, u32Max, u32Max, u64Max, u32Max]
  | .reorg _ newHead => [newHead.cursor.blockNumber, u32Max, u32Max, u64Max, u32Max]
  | .gap cursor _ => (cursor.map ChainCursor.eventOrder).getD [u64Max, 0, 0, 0, 0]

/-- The update is not after the watermark: a block-level watermark is the end of its block. -/
def NotAfter (watermark : ChainCursor) (update : ChainUpdate) : Prop :=
  if watermark.isBlockLevel then updateHeight update ≤ watermark.blockNumber
  else updatePosition update ≤ watermark.eventOrder

instance (watermark : ChainCursor) (update : ChainUpdate) :
    Decidable (NotAfter watermark update) :=
  inferInstanceAs (Decidable (if watermark.isBlockLevel then _ else _))

/-- The positions of a cursor are the numbers its fields can hold. -/
structure ChainCursor.InRange (cursor : ChainCursor) : Prop where
  transactionIndex : cursor.transactionIndex.getD 0 ≤ u32Max
  logIndex : cursor.logIndex.getD 0 ≤ u32Max
  sourceSequence : cursor.sourceSequence.getD 0 ≤ u64Max
  sourceSubIndex : cursor.sourceSubIndex.getD 0 ≤ u32Max

def UpdateInRange (update : ChainUpdate) : Prop :=
  ∀ cursor ∈ updateCursor update, cursor.InRange

/-- The order of the updates at one position. -/
def updateRank : ChainUpdate → Nat
  | .head _ => 0
  | .log _ => 1
  | .correction _ => 2
  | .reorg _ _ => 3
  | .gap _ _ => 4

theorem updateRank_le (update : ChainUpdate) : updateRank update ≤ 4 := by
  cases update <;> simp [updateRank]

theorem updateKey_eq (update : ChainUpdate) :
    updateKey update = updatePosition update ++ [updateRank update] := by
  cases update with
  | gap cursor _ => cases cursor <;> rfl
  | head _ | log _ | correction _ | reorg _ _ => rfl

theorem ChainCursor.InRange.eventOrder {cursor : ChainCursor} (h : cursor.InRange) :
    ∃ t l q i, cursor.eventOrder = [cursor.blockNumber, t, l, q, i] ∧
      t ≤ u32Max ∧ l ≤ u32Max ∧ q ≤ u64Max ∧ i ≤ u32Max := by
  refine ⟨_, _, _, _, rfl, h.transactionIndex, h.logIndex, ?_, ?_⟩
  · split
    · exact h.sourceSequence
    · exact zero_le _
  · split
    · exact h.sourceSubIndex
    · exact zero_le _

variable {update : ChainUpdate}

/-- A position starts with the block, and no position in the block is beyond its end. -/
theorem updatePosition_eq (h : UpdateInRange update) :
    ∃ t l q i, updatePosition update = [updateHeight update, t, l, q, i] ∧
      t ≤ u32Max ∧ l ≤ u32Max ∧ q ≤ u64Max ∧ i ≤ u32Max := by
  cases update with
  | head block => exact (h block.cursor rfl).eventOrder
  | log log => exact (h log.cursor rfl).eventOrder
  | correction correction => exact ⟨_, _, _, _, rfl, le_rfl, le_rfl, le_rfl, le_rfl⟩
  | reorg _ newHead => exact ⟨_, _, _, _, rfl, le_rfl, le_rfl, le_rfl, le_rfl⟩
  | gap cursor _ =>
    cases cursor with
    | none => exact ⟨0, 0, 0, 0, rfl, zero_le _, zero_le _, zero_le _, zero_le _⟩
    | some cursor => exact (h cursor rfl).eventOrder

/-- The key of an update does not exceed the key of a watermark exactly when the update is not
after the watermark. -/
theorem updateKey_le_watermarkKey_iff (watermark : ChainCursor) (h : UpdateInRange update) :
    updateKey update ≤ watermarkKey watermark ↔ NotAfter watermark update := by
  obtain ⟨t, l, q, i, hposition, ht, hl, hq, hi⟩ := updatePosition_eq h
  have hrank := updateRank_le update
  rw [watermarkKey, NotAfter, ← not_lt, updateKey_eq]
  split
  · rw [hposition, ← not_lt, not_iff_not]
    simp only [cons_append, nil_append, cons_lt_cons_iff, lt_irrefl, and_false, or_false]
    omega
  rw [← not_lt, not_iff_not, Digits.append_lt_append_iff (by rw [hposition]; rfl), or_iff_left]
  rintro ⟨-, hlast⟩
  simp only [cons_lt_cons_iff, lt_irrefl, and_false, or_false] at hlast
  omega

def ChainUpdate.isLog : ChainUpdate → Bool
  | .log _ => true
  | _ => false

def ChainUpdate.endsBranch : ChainUpdate → Bool
  | .correction _ | .reorg _ _ => true
  | _ => false

/-- A log is before a correction or reorganization to its block. -/
theorem updateKey_log_lt {log ending : ChainUpdate} (hrange : UpdateInRange log)
    (hlog : log.isLog) (hending : ending.endsBranch)
    (hheight : updateHeight ending = updateHeight log) : updateKey log < updateKey ending := by
  obtain ⟨t, l, q, i, hposition, ht, hl, hq, hi⟩ := updatePosition_eq hrange
  have hlogRank : updateRank log = 1 := by
    cases log with
    | log _ => rfl
    | head _ | correction _ | reorg _ _ | gap _ _ => cases hlog
  obtain ⟨hendRank, hend⟩ : 2 ≤ updateRank ending ∧ updatePosition ending =
      [updateHeight ending, u32Max, u32Max, u64Max, u32Max] := by
    cases ending with
    | correction _ => exact ⟨le_rfl, rfl⟩
    | reorg _ _ => exact ⟨le_succ 2, rfl⟩
    | head _ | log _ | gap _ _ => cases hending
  rw [updateKey_eq, updateKey_eq, hposition, hend, hlogRank, hheight]
  simp only [cons_append, nil_append, cons_lt_cons_iff, and_false, or_false,
    lt_irrefl, false_or, true_and]
  omega

/-! ### Order of release -/

section Release

variable (sizes : Layout)

/-- The keys of the updates increase strictly. -/
def Increasing (updates : List HeldUpdate) : Prop :=
  updates.Pairwise fun earlier later =>
    updateKey (earlier.value sizes) < updateKey (later.value sizes)

/-- No log comes after a correction or reorganization to its block. -/
def LogsFirst (updates : List HeldUpdate) : Prop :=
  updates.Pairwise fun earlier later =>
    (earlier.value sizes).endsBranch → (later.value sizes).isLog →
      updateHeight (earlier.value sizes) ≠ updateHeight (later.value sizes)

variable {sizes}

theorem Increasing.logsFirst {updates : List HeldUpdate} (h : Increasing sizes updates)
    (hrange : ∀ update ∈ updates, UpdateInRange (update.value sizes)) :
    LogsFirst sizes updates := by
  refine h.imp_of_mem fun {earlier later} _ hlater hlt hends hlog hheight => ?_
  exact lt_asymm hlt (updateKey_log_lt (hrange later hlater) hlog hends hheight)

end Release

/-! ### One operation -/

/-- The charge of these updates. -/
def charge (sizes : Layout) (updates : List HeldUpdate) : Nat :=
  (updates.map (HeldUpdate.retainedBytes sizes)).sum

@[simp] theorem charge_nil (sizes : Layout) : charge sizes [] = 0 := rfl

@[simp] theorem charge_cons (sizes : Layout) (update : HeldUpdate) (rest : List HeldUpdate) :
    charge sizes (update :: rest) = update.retainedBytes sizes + charge sizes rest :=
  sum_cons

@[simp] theorem charge_append (sizes : Layout) (left right : List HeldUpdate) :
    charge sizes (left ++ right) = charge sizes left + charge sizes right := by
  rw [charge, map_append, List.sum_append]
  rfl

theorem charge_perm {sizes : Layout} {left right : List HeldUpdate} (h : left.Perm right) :
    charge sizes left = charge sizes right := (h.map _).sum_eq

namespace CursorReorderBuffer

variable {sizes : Layout} {buffer buffer' : CursorReorderBuffer} {update : HeldUpdate}

theorem push_eq_ok (h : buffer.push sizes update = (buffer', .ok ())) :
    buffer.pending.containsKey (updateKey (update.value sizes)) = false ∧
      buffer.pending.entries.length < buffer.capacity ∧
      update.retainedBytes sizes ≤ buffer.byteCapacity - buffer.pendingBytes ∧
      buffer' = { buffer with
        pendingBytes := buffer.pendingBytes + update.retainedBytes sizes
        pending := buffer.pending.insert (updateKey (update.value sizes))
          update.normalizeForRetention } := by
  rw [push] at h
  dsimp only at h
  split at h
  · cases h
  split at h
  · cases h
  next hfree =>
    split at h
    · cases h
    next hroom =>
      obtain ⟨hcount, hbytes⟩ := not_or.mp hroom
      exact ⟨Bool.eq_false_iff.mpr hfree, not_le.mp hcount, not_lt.mp hbytes,
        (Prod.mk.inj h).1.symm⟩

/-- A rejected update only poisons the buffer. -/
theorem push_eq_error {e : SourceError} (h : buffer.push sizes update = (buffer', .error e)) :
    buffer' = { buffer with poisoned := true } := by
  rw [push] at h
  dsimp only at h
  split at h
  next hpoisoned =>
    rw [← (Prod.mk.inj h).1, ← hpoisoned]
  split at h
  · exact (Prod.mk.inj h).1.symm
  split at h
  · exact (Prod.mk.inj h).1.symm
  · cases h

theorem push_of_poisoned (h : buffer.poisoned = true) :
    ∃ e, buffer.push sizes update = (buffer, .error e) := by
  rw [push, if_pos h]
  exact ⟨_, rfl⟩

/-- Taking out the least keys one after another. -/
theorem removeAll_front {taken kept : List (List Nat × HeldUpdate)}
    {hsorted : (taken ++ kept).Pairwise fun a b => a.1 < b.1}
    (h : buffer.pending = ⟨taken ++ kept, hsorted⟩) :
    buffer.removeAll sizes (taken.map Prod.fst) = ({ buffer with
          pendingBytes := buffer.pendingBytes - charge sizes (taken.map Prod.snd)
          pending := ⟨kept, (pairwise_append.mp hsorted).2.1⟩ }, taken.map Prod.snd) := by
  induction taken generalizing buffer with
  | nil =>
    have hpending : buffer.pending = ⟨kept, hsorted⟩ := h
    rw [map_nil, removeAll, map_nil, charge_nil, Nat.sub_zero, ← hpending]
  | cons entry rest ih =>
    have hfront := take_front hsorted
    have hremove : buffer.remove sizes entry.1 = some (entry.2, { buffer with
        pendingBytes := buffer.pendingBytes - entry.2.retainedBytes sizes
        pending := ⟨rest ++ kept, hsorted.of_cons⟩ }) := by
      rw [remove, h]
      exact congrArg (Option.map _) hfront
    rw [map_cons, removeAll, hremove]
    dsimp only
    rw [ih rfl, map_cons, charge_cons, Nat.sub_sub]

/-- A drain takes exactly the entries up to the watermark. -/
theorem drainThrough_eq (buffer : CursorReorderBuffer) (watermark : ChainCursor) :
    buffer.drainThrough sizes watermark = ({ buffer with
          pendingBytes := buffer.pendingBytes -
            charge sizes ((buffer.pending.upTo (watermarkKey watermark)).map Prod.snd)
          pending := buffer.pending.above (watermarkKey watermark) },
        (buffer.pending.upTo (watermarkKey watermark)).map Prod.snd) := by
  have hsplit := buffer.pending.upTo_append_above (watermarkKey watermark)
  have hsorted : (buffer.pending.upTo (watermarkKey watermark) ++
      (buffer.pending.above (watermarkKey watermark)).entries).Pairwise
        fun a b => a.1 < b.1 := hsplit ▸ buffer.pending.sorted
  rw [drainThrough, removeAll_front (SortedMap.ext hsplit.symm : buffer.pending = ⟨_, hsorted⟩)]

/-- What holds of the buffer at all times. -/
structure Valid (sizes : Layout) (buffer : CursorReorderBuffer) : Prop where
  keyed : ∀ entry ∈ buffer.pending.entries, entry.1 = updateKey (entry.2.value sizes)
  inRange : ∀ update ∈ buffer.pending.values, UpdateInRange (update.value sizes)
  charged : buffer.pendingBytes = charge sizes buffer.pending.values
  count : buffer.pending.entries.length ≤ buffer.capacity
  bytes : buffer.pendingBytes ≤ buffer.byteCapacity

namespace Valid

theorem increasing (h : buffer.Valid sizes) : Increasing sizes buffer.pending.values := by
  rw [Increasing, values, pairwise_map]
  refine buffer.pending.sorted.imp_of_mem fun {earlier later} hearlier hlater hlt => ?_
  rw [← h.keyed earlier hearlier, ← h.keyed later hlater]
  exact hlt

theorem push (h : buffer.Valid sizes) (hrange : UpdateInRange (update.value sizes))
    (hpush : buffer.push sizes update = (buffer', .ok ())) :
    buffer'.Valid sizes ∧
      buffer'.pending.values.Perm (update.normalizeForRetention :: buffer.pending.values) := by
  obtain ⟨hfree, hcount, hbytes, rfl⟩ := push_eq_ok hpush
  have hentries := insert_perm update.normalizeForRetention hfree
  have hvalues : (buffer.pending.insert (updateKey (update.value sizes))
      update.normalizeForRetention).values.Perm
        (update.normalizeForRetention :: buffer.pending.values) := hentries.map Prod.snd
  refine ⟨⟨fun entry hentry => ?_, fun other hother => ?_, ?_, ?_, ?_⟩, hvalues⟩
  · rcases mem_cons.mp (hentries.mem_iff.mp hentry) with rfl | hin
    · rw [HeldUpdate.value_normalize]
    · exact h.keyed entry hin
  · rcases mem_cons.mp (hvalues.mem_iff.mp hother) with rfl | hin
    · rwa [HeldUpdate.value_normalize]
    · exact h.inRange other hin
  · rw [charge_perm hvalues, charge_cons, HeldUpdate.retainedBytes_normalize, ← h.charged]
    exact add_comm _ _
  · rw [hentries.length_eq]
    exact hcount
  · have := h.bytes
    dsimp only
    omega

theorem poison (h : buffer.Valid sizes) : Valid sizes { buffer with poisoned := true } :=
  ⟨h.keyed, h.inRange, h.charged, h.count, h.bytes⟩

theorem drainAll (buffer : CursorReorderBuffer) : (buffer.drainAll).1.Valid sizes := by
  refine ⟨fun entry hentry => ?_, fun update hupdate => ?_, rfl, zero_le _, zero_le _⟩
  · cases hentry
  · cases hupdate

/-- What a watermark releases, and what it leaves. -/
theorem drainThrough (h : buffer.Valid sizes) (watermark : ChainCursor) :
    (buffer.drainThrough sizes watermark).1.Valid sizes ∧ (buffer.drainThrough sizes watermark).2 =
        buffer.pending.values.filter (fun update => NotAfter watermark (update.value sizes)) ∧
      (buffer.drainThrough sizes watermark).2 ++
          (buffer.drainThrough sizes watermark).1.pending.values = buffer.pending.values := by
  have hsplit := buffer.pending.upTo_append_above (watermarkKey watermark)
  have hvalues : (buffer.pending.upTo (watermarkKey watermark)).map Prod.snd ++
      (buffer.pending.above (watermarkKey watermark)).values = buffer.pending.values := by
    rw [values, values, ← map_append, hsplit]
  have hkept : ∀ entry ∈ (buffer.pending.above (watermarkKey watermark)).entries,
      entry ∈ buffer.pending.entries := fun entry hentry => (mem_above.mp hentry).1
  rw [drainThrough_eq]
  refine ⟨⟨fun entry hentry => h.keyed entry (hkept entry hentry), fun update hupdate => ?_, ?_,
    (length_filter_le _ _).trans h.count, (sub_le _ _).trans h.bytes⟩, ?_, hvalues⟩
  · refine h.inRange update ?_
    rw [← hvalues]
    exact mem_append_right _ hupdate
  · rw [h.charged, ← hvalues, charge_append, Nat.add_sub_cancel_left]
  · rw [values, filter_map]
    refine congrArg (List.map Prod.snd) (filter_congr fun entry hentry => ?_)
    have hrange := h.inRange entry.2 (mem_map_of_mem hentry)
    rw [h.keyed entry hentry]
    exact decide_eq_decide.mpr (updateKey_le_watermarkKey_iff watermark hrange)

end Valid

/-! ### Runs -/

inductive Operation where
  | push (update : HeldUpdate)
  | drainThrough (watermark : ChainCursor)
  | drainAll

inductive Reply where
  | pushed (result : Except SourceError Unit)
  | drained (updates : List HeldUpdate)

variable (sizes) in
def perform (buffer : CursorReorderBuffer) : Operation → CursorReorderBuffer × Reply
  | .push update => (buffer.push sizes update).map id .pushed
  | .drainThrough watermark => (buffer.drainThrough sizes watermark).map id .drained
  | .drainAll => buffer.drainAll.map id .drained

variable (sizes) in
/-- The buffer after a list of operations, and each of them with its reply. -/
def performAll (buffer : CursorReorderBuffer) :
    List Operation → CursorReorderBuffer × List (Operation × Reply)
  | [] => (buffer, [])
  | operation :: rest =>
    let next := buffer.perform sizes operation
    let after := next.1.performAll rest
    (after.1, (operation, next.2) :: after.2)

/-- The update an operation added, as the buffer holds it. -/
def acceptedBy : Operation × Reply → List HeldUpdate
  | (.push update, .pushed (.ok ())) => [update.normalizeForRetention]
  | _ => []

def releasedBy : Operation × Reply → List HeldUpdate
  | (_, .drained updates) => updates
  | _ => []

/-- The updates that pushes accepted. -/
def accepted (trace : List (Operation × Reply)) : List HeldUpdate := trace.flatMap acceptedBy

/-- The updates that drains returned, one drain after another. -/
def released (trace : List (Operation × Reply)) : List HeldUpdate := trace.flatMap releasedBy

def Operation.InRange (sizes : Layout) : Operation → Prop
  | .push update => UpdateInRange (update.value sizes)
  | _ => True

/-- The key is at or below the watermark of this drain; a drain of everything has none, and counts
as far as what it returned. -/
def Passed (sizes : Layout) : Operation × Reply → List Nat → Prop
  | (.drainThrough watermark, _), key => key ≤ watermarkKey watermark
  | (.drainAll, .drained updates), key => ∃ update ∈ updates, key ≤ updateKey (update.value sizes)
  | _, _ => False

/-- No update at or below an earlier watermark was accepted after it. -/
def OnTime (sizes : Layout) (trace : List (Operation × Reply)) : Prop :=
  trace.Pairwise fun earlier later =>
    ∀ update ∈ acceptedBy later, ¬Passed sizes earlier (updateKey (update.value sizes))

theorem Passed.of_le {step : Operation × Reply} {key key' : List Nat} (h : Passed sizes step key)
    (hle : key' ≤ key) : Passed sizes step key' := by
  obtain ⟨operation, reply⟩ := step
  cases operation with
  | push _ => cases h
  | drainThrough watermark => exact hle.trans h
  | drainAll =>
    cases reply with
    | pushed _ => cases h
    | drained updates =>
      obtain ⟨update, hmem, hkey⟩ := h
      exact ⟨update, hmem, hle.trans hkey⟩

/-- What one operation does: a push adds an update or poisons, a drain takes updates out from the
front. -/
inductive Step (sizes : Layout) (buffer : CursorReorderBuffer) :
    Operation × Reply → CursorReorderBuffer → Prop where
  | added {update : HeldUpdate} {buffer' : CursorReorderBuffer}
      (h : buffer.push sizes update = (buffer', .ok ())) :
      Step sizes buffer (.push update, .pushed (.ok ())) buffer'
  | rejected (update : HeldUpdate) (e : SourceError) :
      Step sizes buffer (.push update, .pushed (.error e)) { buffer with poisoned := true }
  | drainedThrough (watermark : ChainCursor) :
      Step sizes buffer (.drainThrough watermark, .drained (buffer.drainThrough sizes watermark).2)
        (buffer.drainThrough sizes watermark).1
  | drainedAll : Step sizes buffer (.drainAll, .drained buffer.drainAll.2) buffer.drainAll.1

theorem perform_step (sizes : Layout) (buffer : CursorReorderBuffer) (operation : Operation) :
    Step sizes buffer (operation, (buffer.perform sizes operation).2)
      (buffer.perform sizes operation).1 := by
  cases operation with
  | push update =>
    cases hpush : buffer.push sizes update with
    | mk buffer' result =>
      rw [perform, hpush]
      cases result with
      | ok _ => exact .added hpush
      | error e =>
        rw [push_eq_error hpush]
        exact .rejected update e
  | drainThrough watermark => exact .drainedThrough watermark
  | drainAll => exact .drainedAll

variable {step : Operation × Reply} {trace : List (Operation × Reply)}
  {operations : List Operation}

/-- The buffer stays valid, and what was there and what was added is what was taken out and what is
there. -/
theorem Step.conserves (h : Step sizes buffer step buffer') (hvalid : buffer.Valid sizes)
    (hrange : step.1.InRange sizes) :
    (buffer'.Valid sizes ∧ buffer'.capacity = buffer.capacity ∧
        buffer'.byteCapacity = buffer.byteCapacity) ∧
      (buffer.pending.values ++ acceptedBy step).Perm
        (releasedBy step ++ buffer'.pending.values) := by
  cases h with
  | added hpush =>
    obtain ⟨hnext, hperm⟩ := hvalid.push hrange hpush
    refine ⟨⟨hnext, ?_⟩, .trans (perm_append_singleton _ _) hperm.symm⟩
    obtain ⟨-, -, -, rfl⟩ := push_eq_ok hpush
    exact ⟨rfl, rfl⟩
  | rejected _ _ => exact ⟨⟨hvalid.poison, rfl, rfl⟩, .of_eq (append_nil _)⟩
  | drainedThrough watermark =>
    obtain ⟨hnext, -, hfront⟩ := hvalid.drainThrough watermark
    refine ⟨⟨hnext, ?_⟩, .of_eq ((append_nil _).trans hfront.symm)⟩
    rw [drainThrough_eq]
    exact ⟨rfl, rfl⟩
  | drainedAll => exact ⟨⟨.drainAll buffer, rfl, rfl⟩, .refl _⟩

theorem performAll_cons (sizes : Layout) (buffer : CursorReorderBuffer) (operation : Operation)
    (rest : List Operation) :
    ∃ step next, Step sizes buffer step next ∧ step.1 = operation ∧
      buffer.performAll sizes (operation :: rest) =
        ((next.performAll sizes rest).1, step :: (next.performAll sizes rest).2) :=
  ⟨_, _, perform_step sizes buffer operation, rfl, rfl⟩

theorem performAll_conserves (hvalid : buffer.Valid sizes)
    (hrange : ∀ operation ∈ operations, operation.InRange sizes)
    (h : buffer.performAll sizes operations = (buffer', trace)) :
    (buffer'.Valid sizes ∧ buffer'.capacity = buffer.capacity ∧
        buffer'.byteCapacity = buffer.byteCapacity) ∧
      (buffer.pending.values ++ accepted trace).Perm
        (released trace ++ buffer'.pending.values) := by
  induction operations generalizing buffer trace with
  | nil =>
    cases h
    exact ⟨⟨hvalid, rfl, rfl⟩, .of_eq (append_nil _)⟩
  | cons operation rest ih =>
    obtain ⟨step, next, hstep, rfl, hall⟩ := performAll_cons sizes buffer operation rest
    cases hall.symm.trans h
    obtain ⟨⟨hnext, hcapacity, hbytes⟩, hone⟩ := hstep.conserves hvalid (hrange _ mem_cons_self)
    obtain ⟨⟨hvalid', hcapacity', hbytes'⟩, hrest⟩ := ih hnext
      (fun operation hmem => hrange operation (mem_cons_of_mem _ hmem)) rfl
    refine ⟨⟨hvalid', hcapacity'.trans hcapacity, hbytes'.trans hbytes⟩, ?_⟩
    rw [accepted, released, flatMap_cons, flatMap_cons, ← append_assoc,
      append_assoc (releasedBy step)]
    refine (hone.append_right _).trans ?_
    rw [append_assoc]
    exact hrest.append_left _

theorem performAll_operations (sizes : Layout) (buffer : CursorReorderBuffer)
    (operations : List Operation) :
    (buffer.performAll sizes operations).2.map Prod.fst = operations := by
  induction operations generalizing buffer with
  | nil => rfl
  | cons operation rest ih => exact congrArg (operation :: ·) (ih _)

theorem accepted_inRange (hrange : ∀ operation ∈ operations, operation.InRange sizes)
    (h : buffer.performAll sizes operations = (buffer', trace)) :
    ∀ update ∈ accepted trace, UpdateInRange (update.value sizes) := by
  intro update hmem
  obtain ⟨⟨operation, reply⟩, hstep, hadded⟩ := mem_flatMap.mp hmem
  have hoperation : operation ∈ operations := by
    rw [← performAll_operations sizes buffer operations, h]
    exact mem_map_of_mem hstep
  cases operation with
  | push pushed =>
    cases reply with
    | pushed result =>
      cases result with
      | ok _ =>
        rw [mem_singleton.mp hadded, HeldUpdate.value_normalize]
        exact hrange _ hoperation
      | error _ => cases hadded
    | drained _ => cases hadded
  | drainThrough _ | drainAll => cases reply <;> cases hadded

/-- What the drains so far have returned is in order, and each of it was passed by a drain that
passed nothing of what is still there. -/
structure Ordered (sizes : Layout) (trace : List (Operation × Reply))
    (buffer : CursorReorderBuffer) : Prop where
  increasing : Increasing sizes (released trace)
  passed : ∀ update ∈ released trace,
    ∃ step ∈ trace, Passed sizes step (updateKey (update.value sizes))
  waiting : ∀ update ∈ buffer.pending.values, ∀ step ∈ trace,
    ¬Passed sizes step (updateKey (update.value sizes))

namespace Ordered

section

variable (h : Ordered sizes trace buffer)

include h

/-- What was returned is before what is still there. -/
theorem lt {update : HeldUpdate} (hout : update ∈ released trace)
    {other : HeldUpdate} (hin : other ∈ buffer.pending.values) :
    updateKey (update.value sizes) < updateKey (other.value sizes) := by
  obtain ⟨step, hstep, hpassed⟩ := h.passed update hout
  by_contra hle
  exact h.waiting other hin step hstep (hpassed.of_le (not_lt.mp hle))

/-- A drain returns the front of what is there, passing it and nothing else. -/
theorem drain (hvalid : buffer.Valid sizes)
    (hfront : releasedBy step ++ buffer'.pending.values = buffer.pending.values)
    (hpassed : ∀ update ∈ releasedBy step, Passed sizes step (updateKey (update.value sizes)))
    (hkept : ∀ update ∈ buffer'.pending.values,
      ¬Passed sizes step (updateKey (update.value sizes))) :
    Ordered sizes (trace ++ [step]) buffer' := by
  have hout : released (trace ++ [step]) = released trace ++ releasedBy step := by
    rw [released, flatMap_append, flatMap_singleton]
    rfl
  have hstill : ∀ update ∈ buffer'.pending.values, update ∈ buffer.pending.values := fun _ hmem =>
    hfront ▸ mem_append_right _ hmem
  have hwas : ∀ update ∈ releasedBy step, update ∈ buffer.pending.values := fun _ hmem =>
    hfront ▸ mem_append_left _ hmem
  refine ⟨?_, fun update hmem => ?_, fun update hmem other hother => ?_⟩
  · have hnew : Increasing sizes (releasedBy step) :=
      (pairwise_append.mp (hfront.symm ▸ hvalid.increasing :
        Increasing sizes (releasedBy step ++ buffer'.pending.values))).1
    rw [hout]
    exact pairwise_append.mpr
      ⟨h.increasing, hnew, fun update hmem other hother => h.lt hmem (hwas other hother)⟩
  · rw [hout] at hmem
    rcases mem_append.mp hmem with hold | hnew
    · obtain ⟨earlier, hearlier, hpast⟩ := h.passed update hold
      exact ⟨earlier, mem_append_left _ hearlier, hpast⟩
    · exact ⟨step, by simp, hpassed update hnew⟩
  · rcases mem_append.mp hother with hold | hnew
    · exact h.waiting update (hstill update hmem) other hold
    rw [mem_singleton.mp hnew]
    exact hkept update hmem

/-- An operation that returns nothing keeps the order, if what it adds was not passed. -/
theorem quiet (hnone : releasedBy step = []) (hnever : ∀ key, ¬Passed sizes step key)
    (hthere : ∀ update ∈ buffer'.pending.values,
      update ∈ acceptedBy step ∨ update ∈ buffer.pending.values)
    (hontime : ∀ earlier ∈ trace, ∀ update ∈ acceptedBy step,
      ¬Passed sizes earlier (updateKey (update.value sizes))) :
    Ordered sizes (trace ++ [step]) buffer' := by
  have hout : released (trace ++ [step]) = released trace := by
    rw [released, flatMap_append, flatMap_singleton, hnone, append_nil]
    rfl
  refine ⟨hout ▸ h.increasing, fun update hmem => ?_, fun update hmem other hother => ?_⟩
  · obtain ⟨earlier, hearlier, hpast⟩ := h.passed update (hout ▸ hmem)
    exact ⟨earlier, mem_append_left _ hearlier, hpast⟩
  rcases mem_append.mp hother with hold | hnew
  · rcases hthere update hmem with hadded | hwas
    · exact hontime other hold update hadded
    · exact h.waiting update hwas other hold
  · rw [mem_singleton.mp hnew]
    exact hnever _

theorem next (hvalid : buffer.Valid sizes) (hstep : Step sizes buffer step buffer')
    (hrange : step.1.InRange sizes) (hontime : ∀ earlier ∈ trace, ∀ update ∈ acceptedBy step,
      ¬Passed sizes earlier (updateKey (update.value sizes))) :
    Ordered sizes (trace ++ [step]) buffer' := by
  cases hstep with
  | added hpush =>
    refine h.quiet rfl (fun _ => id) (fun other hother => ?_) hontime
    exact (mem_cons.mp ((hvalid.push hrange hpush).2.mem_iff.mp hother)).imp_left
      fun heq => mem_singleton.mpr heq
  | rejected _ _ => exact h.quiet rfl (fun _ => id) (fun _ hother => .inr hother) hontime
  | drainedThrough watermark =>
    refine h.drain hvalid (hvalid.drainThrough watermark).2.2 ?_ ?_
    · rintro update (hmem : update ∈ (buffer.drainThrough sizes watermark).2)
      rw [(hvalid.drainThrough watermark).2.1] at hmem
      obtain ⟨hwas, hnotAfter⟩ := mem_filter.mp hmem
      exact (updateKey_le_watermarkKey_iff watermark (hvalid.inRange update hwas)).mpr
        (of_decide_eq_true hnotAfter)
    intro update hmem hle
    rw [drainThrough_eq] at hmem
    obtain ⟨entry, hentry, rfl⟩ := mem_map.mp hmem
    obtain ⟨hwas, habove⟩ := mem_above.mp hentry
    rw [hvalid.keyed entry hwas] at habove
    exact absurd habove (not_lt.mpr hle)
  | drainedAll =>
    refine h.drain hvalid (append_nil _) (fun update hmem => ⟨update, hmem, le_rfl⟩) ?_
    intro update hmem
    cases hmem

theorem performAll (hvalid : buffer.Valid sizes)
    (hrange : ∀ operation ∈ operations, operation.InRange sizes) {later : List (Operation × Reply)}
    (hall : buffer.performAll sizes operations = (buffer', later))
    (hontime : OnTime sizes (trace ++ later)) : Ordered sizes (trace ++ later) buffer' := by
  induction operations generalizing buffer trace later with
  | nil =>
    cases hall
    rwa [append_nil]
  | cons operation rest ih =>
    obtain ⟨step, next, hstep, rfl, hcons⟩ := performAll_cons sizes buffer operation rest
    cases hcons.symm.trans hall
    have hrange' := hrange _ mem_cons_self
    have hnext := h.next hvalid hstep hrange' fun earlier hearlier =>
      (pairwise_append.mp hontime).2.2 earlier hearlier step mem_cons_self
    rw [append_cons] at hontime ⊢
    exact ih hnext (hstep.conserves hvalid hrange').1.1
      (fun operation hmem => hrange operation (mem_cons_of_mem _ hmem)) rfl hontime

end

end Ordered

/-- A poisoned buffer rejects every push from then on. -/
theorem performAll_of_poisoned (hpoisoned : buffer.poisoned = true)
    (h : buffer.performAll sizes operations = (buffer', trace)) :
    ∀ step ∈ trace, ∀ update, step.1 = .push update → ∃ e, step.2 = .pushed (.error e) := by
  induction operations generalizing buffer trace with
  | nil =>
    obtain ⟨-, rfl⟩ := Prod.mk.inj h
    intro step hstep
    cases hstep
  | cons operation rest ih =>
    obtain ⟨step, next, hstep, rfl, hall⟩ := performAll_cons sizes buffer operation rest
    cases hall.symm.trans h
    have hfirst : next.poisoned = true ∧
        ∀ update, step.1 = .push update → ∃ e, step.2 = .pushed (.error e) := by
      cases hstep with
      | added hpush =>
        obtain ⟨e, herror⟩ := push_of_poisoned hpoisoned
        exact absurd (Prod.mk.inj (hpush.symm.trans herror)).2 (by simp)
      | rejected _ e => exact ⟨rfl, fun _ _ => ⟨e, rfl⟩⟩
      | drainedThrough watermark =>
        rw [drainThrough_eq]
        exact ⟨hpoisoned, fun _ heq => by cases heq⟩
      | drainedAll => exact ⟨hpoisoned, fun _ heq => by cases heq⟩
    intro other hother
    rcases mem_cons.mp hother with rfl | hin
    · exact hfirst.2
    · exact ih hfirst.1 rfl other hin

theorem valid_of_withLimits (sizes : Layout) {capacity byteCapacity : Nat}
    (h : withLimits capacity byteCapacity = .ok buffer) :
    buffer.Valid sizes ∧ buffer.pending = .empty ∧ buffer.capacity = capacity ∧
      buffer.byteCapacity = byteCapacity := by
  rw [withLimits] at h
  split at h
  · cases h
  cases h
  refine ⟨⟨fun entry hentry => ?_, fun update hupdate => ?_, rfl, zero_le _, zero_le _⟩,
    rfl, rfl, rfl⟩
  · cases hentry
  · cases hupdate

/-- **The reorder buffer neither loses nor duplicates.**  After any operations on a new buffer the
charge is that of what is pending and the limits are kept; what was accepted has been returned once
or is pending; a watermark returns what is not after it, in order, and so does the concatenation of
all drains when nothing came late; and a rejected push leaves what is pending and ends the
pushing. -/
theorem reorder_buffer_conserves {capacity byteCapacity : Nat} {fresh : CursorReorderBuffer}
    (hnew : withLimits capacity byteCapacity = .ok fresh)
    (hrange : ∀ operation ∈ operations, operation.InRange sizes)
    (hall : fresh.performAll sizes operations = (buffer, trace)) :
    (buffer.pendingBytes = (buffer.pending.values.map (HeldUpdate.retainedBytes sizes)).sum ∧
        buffer.pending.values.length ≤ capacity ∧ buffer.pendingBytes ≤ byteCapacity) ∧
      (accepted trace).Perm (released trace ++ buffer.pending.values) ∧
      (∀ watermark, (buffer.drainThrough sizes watermark).2 = buffer.pending.values.filter
              (fun update => NotAfter watermark (update.value sizes)) ∧
          Increasing sizes (buffer.drainThrough sizes watermark).2 ∧
          LogsFirst sizes (buffer.drainThrough sizes watermark).2) ∧
      (buffer.drainAll.2 = buffer.pending.values ∧ Increasing sizes buffer.drainAll.2 ∧
        LogsFirst sizes buffer.drainAll.2) ∧
      (OnTime sizes trace → Increasing sizes (released trace) ∧ LogsFirst sizes (released trace)) ∧
      ∀ update e poisoned, buffer.push sizes update = (poisoned, .error e) →
        poisoned.pending = buffer.pending ∧ ∀ later, ∀ step ∈ (poisoned.performAll sizes later).2,
            ∀ other, step.1 = .push other → ∃ e', step.2 = .pushed (.error e') := by
  obtain ⟨hfresh, hempty, hcapacity, hbyteCapacity⟩ := valid_of_withLimits sizes hnew
  obtain ⟨⟨hvalid, hcapacity', hbytes'⟩, hconserved⟩ := performAll_conserves hfresh hrange hall
  rw [hempty] at hconserved
  refine ⟨⟨hvalid.charged, ?_, ?_⟩, hconserved, fun watermark => ?_, ?_, fun hontime => ?_, ?_⟩
  · rw [values, length_map]
    exact hvalid.count.trans_eq (hcapacity'.trans hcapacity)
  · exact hvalid.bytes.trans_eq (hbytes'.trans hbyteCapacity)
  · obtain ⟨-, hout, -⟩ := hvalid.drainThrough watermark
    have hincreasing : Increasing sizes (buffer.drainThrough sizes watermark).2 :=
      hout ▸ hvalid.increasing.filter _
    refine ⟨hout, hincreasing, hincreasing.logsFirst fun update hmem => ?_⟩
    rw [hout] at hmem
    exact hvalid.inRange update (mem_filter.mp hmem).1
  · exact ⟨rfl, hvalid.increasing, hvalid.increasing.logsFirst hvalid.inRange⟩
  · have hstart : Ordered sizes [] fresh := by
      refine ⟨.nil, fun update hmem => ?_, fun update _ step hstep => ?_⟩
      · cases hmem
      · cases hstep
    have hordered := (hstart.performAll hfresh hrange hall hontime).increasing
    refine ⟨hordered, hordered.logsFirst fun update hmem => ?_⟩
    refine accepted_inRange hrange hall update (hconserved.mem_iff.mpr ?_)
    exact mem_append_left _ hmem
  · intro update e poisoned hpush
    rw [push_eq_error hpush]
    exact ⟨rfl, fun later => performAll_of_poisoned rfl rfl⟩

def smallLayout : Layout := ⟨200, 160, 800, 320⟩

/-- A cursor of block five of chain one. -/
def waitingCursor (position : Option Nat) : ChainCursor :=
  ⟨1, 5, 5, some 0xa5, position, position, none, none, .realtime⟩

/-- A reorganization to block five, and a log of that block that is decoded after it. -/
def lateLogOperations : List Operation :=
  [.push (.reorg ⟨waitingCursor none, none⟩ ⟨waitingCursor none, none⟩),
    .push (.log ⟨⟨0xc0, none, [1], [7], false, waitingCursor (some 0)⟩, 4, 1024⟩),
    .drainThrough (waitingCursor none)]

/-- The log is charged for its topics and its own payload, and released first. -/
theorem reorder_buffer_conserves_late_log :
    ∃ fresh buffer trace, withLimits 2 4096 = .ok fresh ∧
      fresh.performAll smallLayout lateLogOperations = (buffer, trace) ∧
      released trace = [.log ⟨⟨0xc0, none, [1], [7], false, waitingCursor (some 0)⟩, 4, 1⟩,
          .reorg ⟨waitingCursor none, none⟩ ⟨waitingCursor none, none⟩] ∧
      LogsFirst smallLayout (released trace) := by
  have hcursor : ∀ position, position = none ∨ position = some 0 →
      (waitingCursor position).InRange := by
    rintro position (rfl | rfl) <;> exact ⟨by decide, by decide, by decide, by decide⟩
  have hrange : ∀ operation ∈ lateLogOperations, operation.InRange smallLayout := by
    intro operation hmem
    rcases mem_cons.mp hmem with rfl | hmem
    · rintro cursor ⟨⟩
      exact hcursor none (.inl rfl)
    rcases mem_cons.mp hmem with rfl | hmem
    · rintro cursor ⟨⟩
      exact hcursor (some 0) (.inr rfl)
    · rw [mem_singleton.mp hmem]
      trivial
  have hnew : withLimits 2 4096 = .ok ⟨2, 4096, 0, .empty, false⟩ := rfl
  refine ⟨_, _, _, hnew, rfl, by decide +kernel, ?_⟩
  refine ((reorder_buffer_conserves hnew hrange rfl).2.2.2.2.1 ?_).2
  -- Nothing is pushed after the one watermark.
  have hpushes : lateLogOperations.Pairwise fun earlier _ => ∃ update, earlier = .push update := by
    simp [lateLogOperations]
  rw [← performAll_operations smallLayout ⟨2, 4096, 0, .empty, false⟩ lateLogOperations,
    pairwise_map] at hpushes
  refine hpushes.imp ?_
  rintro ⟨earlier, reply⟩ later ⟨update, rfl⟩ other _ hpassed
  exact hpassed

end CursorReorderBuffer

end Lunarbase.Client
