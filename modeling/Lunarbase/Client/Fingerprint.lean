import Lunarbase.Client.Correction
import Lunarbase.Support.Encoding

/-!
# Client — Fingerprint

What the fingerprint of a correction (`model/correction.rs`) tells.  The hashed bytes can be read
back field by field: numbers have fixed lengths, an optional value has a flag in front and a list
its length.
-/

namespace Lunarbase.Client

open List

/-- The numbers of the cursor are ones its fields can hold. -/
structure ChainCursor.Fits (c : ChainCursor) : Prop where
  chainId : c.chainId ≤ u64Max
  blockNumber : c.blockNumber ≤ u64Max
  executionBlockNumber : c.executionBlockNumber ≤ u64Max
  transactionIndex : ∀ n ∈ c.transactionIndex, n ≤ u32Max
  logIndex : ∀ n ∈ c.logIndex, n ≤ u32Max

structure ContractLog.Fits (l : ContractLog) : Prop where
  cursor : l.cursor.Fits
  topics : l.topics.length ≤ u64Max
  data : l.data.length ≤ u64Max

/-! ### The hashed fields -/

abbrev ChainCursor.hashed (c : ChainCursor) :=
  (c.chainId, c.blockNumber, c.executionBlockNumber, c.blockHash, c.transactionIndex, c.logIndex)

abbrev BlockRef.hashed (b : BlockRef) := (b.cursor.hashed, b.parentHash)

abbrev ContractLog.hashed (l : ContractLog) :=
  (l.address, l.transactionHash, l.topics, l.data, l.removed, l.cursor.hashed)

namespace ChainCorrection

abbrev hashed (c : ChainCorrection) :=
  (c.commonAncestor.hashed, c.oldTip.hashed, c.newTip.hashed, c.oldBranch.map BlockRef.hashed,
    c.newBranch.map BlockRef.hashed, c.replacementLogs.map ContractLog.hashed)

structure Fits (c : ChainCorrection) : Prop where
  blocks : ∀ block ∈ c.blocks, block.cursor.Fits
  logs : ∀ log ∈ c.replacementLogs, log.Fits
  oldBranch : c.oldBranch.length ≤ u64Max
  newBranch : c.newBranch.length ≤ u64Max
  replacementLogs : c.replacementLogs.length ≤ u64Max

/-! ### Reading the bytes -/

theorem length_beBytes (len n : Nat) : (beBytes len n).length = len := by simp [beBytes]

theorem beBytes_inj {len m n : Nat} (hm : m < 256 ^ len) (hn : n < 256 ^ len)
    (h : beBytes len m = beBytes len n) : m = n := by
  refine Digits.map_padDigits_inj (by decide) ?_ hm hn h
  intro d hd e he hbyte
  have hnat := congrArg UInt8.toNat hbyte
  rwa [UInt8.toNat_ofNat_of_lt' hd, UInt8.toNat_ofNat_of_lt' he] at hnat

theorem hashOptionalHash_eq :
    hashOptionalHash = flagged 0 1 fun value : B256 => beBytes 32 value.toNat := by
  funext hash
  cases hash <;> rfl

theorem hashOptionalU32_eq : hashOptionalU32 = flagged 0 1 (beBytes 4) := by
  funext value
  cases value <;> rfl

theorem reads_beBytes (len : Nat) : Reads (beBytes len) (· < 256 ^ len) id :=
  .of_length (length_beBytes len) fun _ _ => beBytes_inj

theorem reads_u64 : Reads (beBytes 8) (· ≤ u64Max) id :=
  (reads_beBytes 8).field id fun _ h => Nat.lt_of_le_of_lt h (by decide)

theorem reads_u32 : Reads (beBytes 4) (· ≤ u32Max) id :=
  (reads_beBytes 4).field id fun _ h => Nat.lt_of_le_of_lt h (by decide)

theorem reads_word {w len : Nat} (h : 2 ^ w = 256 ^ len) :
    Reads (fun word : BitVec w => beBytes len word.toNat) (fun _ => True) id :=
  .of_length (fun _ => length_beBytes len _) fun a b _ _ hsame =>
    BitVec.eq_of_toNat_eq (beBytes_inj (h ▸ a.isLt) (h ▸ b.isLt) hsame)

theorem reads_hash : Reads (fun hash : B256 => beBytes 32 hash.toNat) (fun _ => True) id :=
  reads_word (by decide)

theorem reads_address : Reads (fun a : Address => beBytes 20 a.toNat) (fun _ => True) id :=
  reads_word (by decide)

theorem reads_hashOptionalHash : Reads hashOptionalHash (fun _ => True) id := by
  rw [hashOptionalHash_eq]
  exact (reads_hash.flagged (by decide)).imp (fun _ _ _ _ => trivial) fun _ _ h => by simpa using h

theorem reads_hashOptionalU32 :
    Reads hashOptionalU32 (fun value => ∀ n ∈ value, n ≤ u32Max) id := by
  rw [hashOptionalU32_eq]
  exact (reads_u32.flagged (by decide)).imp (fun _ => id) fun _ _ h => by simpa using h

theorem reads_topics : Reads (fun topics : List B256 => beBytes 8 topics.length ++
    topics.flatMap fun topic => beBytes 32 topic.toNat) (·.length ≤ u64Max) id :=
  (reads_u64.counted reads_hash).imp (fun _ h => ⟨h, fun _ _ => trivial⟩)
    fun _ _ h => by simpa using h

theorem reads_data : Reads (fun data : List UInt8 => beBytes 8 data.length ++ data)
    (·.length ≤ u64Max) id := reads_u64.counted_self

theorem reads_removed :
    Reads (fun removed : Bool => [if removed then (1 : UInt8) else 0]) (fun _ => True) id :=
  .of_length (fun _ => rfl) fun a b _ _ h => by revert h; cases a <;> cases b <;> decide

theorem reads_hashCursor : Reads hashCursor ChainCursor.Fits ChainCursor.hashed :=
  ((reads_u64.field _ fun _ h => h.chainId).append <|
    (reads_u64.field _ fun _ h => h.blockNumber).append <|
    (reads_u64.field _ fun _ h => h.executionBlockNumber).append <|
    (reads_hashOptionalHash.field _ fun _ _ => trivial).append <|
    (reads_hashOptionalU32.field _ fun _ h => h.transactionIndex).append <|
    reads_hashOptionalU32.field _ fun _ h => h.logIndex).congr fun c => by
      simp only [hashCursor, append_assoc]

theorem reads_hashBlock : Reads hashBlock (·.cursor.Fits) BlockRef.hashed :=
  (reads_hashCursor.field _ fun _ h => h).append <|
    reads_hashOptionalHash.field _ fun _ _ => trivial

theorem reads_hashLog : Reads hashLog ContractLog.Fits ContractLog.hashed :=
  ((reads_address.field _ fun _ _ => trivial).append <|
    (reads_hashOptionalHash.field _ fun _ _ => trivial).append <|
    (reads_topics.field _ fun _ h => h.topics).append <|
    (reads_data.field _ fun _ h => h.data).append <|
    (reads_removed.field _ fun _ _ => trivial).append <|
    reads_hashCursor.field _ fun _ h => h.cursor).congr fun l => by
      simp only [hashLog, append_assoc]

/-- A correction can be read when its blocks and logs can. -/
theorem reads_fields {β γ : Type} {block : BlockRef → List UInt8} {log : ContractLog → List UInt8}
    {readBlock : BlockRef → β} {readLog : ContractLog → γ}
    (hblock : Reads block (·.cursor.Fits) readBlock) (hlog : Reads log ContractLog.Fits readLog) :
    Reads (fun c : ChainCorrection => block c.commonAncestor ++ (block c.oldTip ++
      (block c.newTip ++ ((beBytes 8 c.oldBranch.length ++ c.oldBranch.flatMap block) ++
        ((beBytes 8 c.newBranch.length ++ c.newBranch.flatMap block) ++
          (beBytes 8 c.replacementLogs.length ++ c.replacementLogs.flatMap log)))))) Fits
      fun c => (readBlock c.commonAncestor, readBlock c.oldTip, readBlock c.newTip,
        c.oldBranch.map readBlock, c.newBranch.map readBlock, c.replacementLogs.map readLog) :=
  have hbranch := reads_u64.counted hblock
  (hblock.field _ fun _ h => h.blocks _ (by simp [blocks])).append <|
    (hblock.field _ fun _ h => h.blocks _ (by simp [blocks])).append <|
    (hblock.field _ fun _ h => h.blocks _ (by simp [blocks])).append <|
    (hbranch.field _ fun _ h =>
      ⟨h.oldBranch, fun b hb => h.blocks b (by simp [blocks, hb])⟩).append <|
    (hbranch.field _ fun _ h =>
      ⟨h.newBranch, fun b hb => h.blocks b (by simp [blocks, hb])⟩).append <|
    (reads_u64.counted hlog).field _ fun _ h => ⟨h.replacementLogs, h.logs⟩

/-- The hashed bytes determine the hashed fields. -/
theorem hashed_of_fingerprintBytes {c c' : ChainCorrection} (hc : c.Fits) (hc' : c'.Fits)
    (h : c.fingerprintBytes = c'.fingerprintBytes) : c.hashed = c'.hashed := by
  simp only [fingerprintBytes, append_assoc] at h
  refine (reads_fields reads_hashBlock reads_hashLog).read_eq hc hc' ?_
  simpa only [append_assoc] using append_cancel_left h

end ChainCorrection

end Lunarbase.Client
