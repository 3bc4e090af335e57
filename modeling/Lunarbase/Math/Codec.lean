import Lunarbase.Math.Slot0
import Lunarbase.Support.Packed

/-!
# Math — Codec

The packed lane word and its native view are the same data.  Reading every field and putting them
together again is the identity, in both directions (`encodeLaneSlot0_decodeLaneSlot0`,
`decodeLaneSlot0_encodeLaneSlot0`); a setter replaces its own field of the view and nothing else.

The eleven fields cover the word, so an equation between views is an equation between words.
-/

namespace Lunarbase.Math

open Word

open Word (readField writeField Part packFields)
open List BitVec Nat LaneSlot0

/-- Every field of the view fits its place in the word. -/
structure LaneSlot0.Fits (fields : LaneSlot0) : Prop where
  price : fields.price.toNat < 2 ^ priceBits
  askFeeBps : fields.askFeeBps.toNat < 2 ^ feeBits
  bidFeeBps : fields.bidFeeBps.toNat < 2 ^ feeBits
  pricePushThreshold : fields.pricePushThreshold.toNat < 2 ^ thresholdBits
  latestUpdateBlock : fields.latestUpdateBlock < 2 ^ blockBits
  reservedHighBits : fields.reservedHighBits.toNat < 2 ^ reservedBits

/-! ### The layout -/

/-- Where the fields are, from the lowest. -/
def slot0Layout : List (Nat × Nat) :=
  [(priceShift, priceBits), (askFeeShift, feeBits), (bidFeeShift, feeBits),
    (thresholdShift, thresholdBits), (thresholdEnabledShift, 1), (updateBlockShift, blockBits),
    (existsShift, 1), (pausedShift, 1), (blockDelayShift, blockDelayBits),
    (slippageKShift, slippageKBits), (reservedShift, reservedBits)]

def LaneSlot0.parts (fields : LaneSlot0) : List (Part 256) :=
  [⟨priceShift, priceBits, fields.price.setWidth 256⟩,
    ⟨askFeeShift, feeBits, fields.askFeeBps.setWidth 256⟩,
    ⟨bidFeeShift, feeBits, fields.bidFeeBps.setWidth 256⟩,
    ⟨thresholdShift, thresholdBits, fields.pricePushThreshold.setWidth 256⟩,
    ⟨thresholdEnabledShift, 1, boolWord fields.thresholdEnabled⟩,
    ⟨updateBlockShift, blockBits, BitVec.ofNat 256 fields.latestUpdateBlock⟩,
    ⟨existsShift, 1, boolWord fields.exists_⟩,
    ⟨pausedShift, 1, boolWord fields.paused⟩,
    ⟨blockDelayShift, blockDelayBits, fields.blockDelay.setWidth 256⟩,
    ⟨slippageKShift, slippageKBits, fields.slippageKBps.setWidth 256⟩,
    ⟨reservedShift, reservedBits, fields.reservedHighBits.setWidth 256⟩]

variable (fields : LaneSlot0)

theorem LaneSlot0.parts_layout :
    fields.parts.map (fun part => (part.shift, part.bits)) = slot0Layout := rfl

/-- The layout as it is used: fields of the word, apart, and without a gap. -/
theorem slot0Layout_covers :
    ∀ i < 256, ∃ field ∈ slot0Layout, field.1 ≤ i ∧ i < field.1 + field.2 := by
  decide +kernel

theorem LaneSlot0.parts_apart : fields.parts.Pairwise Part.Apart := by
  have hlayout : slot0Layout.Pairwise fun field other =>
      Word.Apart field.1 field.2 other.1 other.2 := by decide
  rw [← fields.parts_layout, pairwise_map] at hlayout
  exact hlayout

theorem LaneSlot0.parts_inside {part : Part 256} (hpart : part ∈ fields.parts) :
    part.shift + part.bits ≤ 256 ∧ part.bits < 256 := by
  have hlayout : ∀ field ∈ slot0Layout, field.1 + field.2 ≤ 256 ∧ field.2 < 256 := by decide
  rw [← fields.parts_layout] at hlayout
  exact hlayout _ (mem_map_of_mem hpart)

theorem toNat_boolWord_lt (b : Bool) : (boolWord b).toNat < 2 ^ 1 := by
  cases b with
  | true | false => decide

variable {fields : LaneSlot0}

theorem LaneSlot0.Fits.parts_fit (h : fields.Fits) :
    ∀ part ∈ fields.parts, part.value.toNat < 2 ^ part.bits := by
  have hblock : (BitVec.ofNat 256 fields.latestUpdateBlock).toNat < 2 ^ blockBits := by
    exact (mod_le _ _).trans_lt h.latestUpdateBlock
  simp only [parts, forall_mem_cons, not_mem_nil, false_imp_iff, implies_true,
    and_true, Word.toNat_setWidth_of_le (show 128 ≤ 256 by decide),
    Word.toNat_setWidth_of_le (show 32 ≤ 256 by decide),
    Word.toNat_setWidth_of_le (show 16 ≤ 256 by decide),
    Word.toNat_setWidth_of_le (show 8 ≤ 256 by decide)]
  exact ⟨h.price, h.askFeeBps, h.bidFeeBps, h.pricePushThreshold, toNat_boolWord_lt _, hblock,
    toNat_boolWord_lt _, toNat_boolWord_lt _, fields.blockDelay.isLt, fields.slippageKBps.isLt,
    h.reservedHighBits⟩

/-! ### Encoding -/

theorem validateNative_eq_ok {value bits : Nat} {field : String} (hbits : bits < 128) :
    validateNative value bits field = .ok () ↔ value < 2 ^ bits := by
  rw [validateNative]
  split
  next h => simpa using h.2
  next h => simpa using Nat.lt_of_not_le fun hle => h ⟨hbits, hle⟩

theorem or_boolWord (word : U256) (b : Bool) (shift : Nat) :
    (if b then word ||| (1 <<< shift) else word) = word ||| boolWord b <<< shift := by
  cases b with
  | true => rfl
  | false => simp [boolWord]

variable {word : U256}

/-- Encoding succeeds on the views that fit, and puts their fields into place. -/
theorem encodeLaneSlot0_eq_ok :
    encodeLaneSlot0 fields = .ok word ↔ fields.Fits ∧ word = packFields 0 fields.parts := by
  simp only [encodeLaneSlot0, Except.bind_eq_ok,
    validateNative_eq_ok (show priceBits < 128 by decide),
    validateNative_eq_ok (show feeBits < 128 by decide),
    validateNative_eq_ok (show thresholdBits < 128 by decide),
    validateNative_eq_ok (show blockBits < 128 by decide),
    validateNative_eq_ok (show reservedBits < 128 by decide), or_boolWord, Except.ok.injEq]
  have hpack : packFields 0 fields.parts = fields.price.setWidth 256
      ||| (fields.askFeeBps.setWidth 256 <<< askFeeShift)
      ||| (fields.bidFeeBps.setWidth 256 <<< bidFeeShift)
      ||| (fields.pricePushThreshold.setWidth 256 <<< thresholdShift)
      ||| boolWord fields.thresholdEnabled <<< thresholdEnabledShift
      ||| (BitVec.ofNat 256 fields.latestUpdateBlock <<< updateBlockShift)
      ||| boolWord fields.exists_ <<< existsShift
      ||| boolWord fields.paused <<< pausedShift
      ||| (fields.blockDelay.setWidth 256 <<< blockDelayShift)
      ||| (fields.slippageKBps.setWidth 256 <<< slippageKShift)
      ||| (fields.reservedHighBits.setWidth 256 <<< reservedShift) := by
    simp [packFields, parts, priceShift]
  rw [← hpack]
  constructor
  · rintro ⟨-, hprice, -, hask, -, hbid, -, hthreshold, -, hblock, -, hreserved, rfl⟩
    exact ⟨⟨hprice, hask, hbid, hthreshold, hblock, hreserved⟩, rfl⟩
  · rintro ⟨⟨hprice, hask, hbid, hthreshold, hblock, hreserved⟩, rfl⟩
    exact ⟨(), hprice, (), hask, (), hbid, (), hthreshold, (), hblock, (), hreserved, rfl⟩

/-! ### Decoding -/

theorem boolWord_eq_one (b : Bool) : decide (boolWord b = 1) = b := by
  cases b with
  | true => rfl
  | false => rfl

theorem boolWord_readField (word : U256) (shift : Nat) :
    boolWord (decide (readField word shift 1 = 1)) = readField word shift 1 := by
  have hlt : (readField word shift 1).toNat < 2 ^ 1 := readField_lt (by decide)
  by_cases h : readField word shift 1 = 1
  · rw [decide_eq_true h, h]
    rfl
  rw [decide_eq_false h]
  refine eq_of_toNat_eq ?_
  have hne : (readField word shift 1).toNat ≠ 1 := fun hone => h (eq_of_toNat_eq hone)
  have hzero : (readField word shift 1).toNat = 0 := by omega
  exact hzero.symm

variable {v bits : Nat}

theorem setWidth_setWidth_of_lt (hv : v ≤ 256) (h : word.toNat < 2 ^ v) :
    (word.setWidth v).setWidth 256 = word := by
  refine eq_of_toNat_eq ?_
  rw [Word.toNat_setWidth_of_le hv, toNat_setWidth, mod_eq_of_lt h]

theorem setWidth_readField (word : U256) (shift : Nat) (hbits : bits < 256)
    (hle : bits ≤ v) (hv : v ≤ 256) :
    ((readField word shift bits).setWidth v).setWidth 256 = readField word shift bits :=
  setWidth_setWidth_of_lt hv
    ((readField_lt hbits).trans_le (Nat.pow_le_pow_right (by decide) hle))

theorem toNat_setWidth_readField (word : U256) (shift : Nat) (hbits : bits < 256) :
    ((readField word shift bits).setWidth v).toNat < 2 ^ bits := by
  rw [toNat_setWidth]
  exact (mod_le _ _).trans_lt (readField_lt hbits)

theorem decodeLaneSlot0_fits (word : U256) : (decodeLaneSlot0 word).Fits where
  price := toNat_setWidth_readField word priceShift (by decide)
  askFeeBps := toNat_setWidth_readField word askFeeShift (by decide)
  bidFeeBps := toNat_setWidth_readField word bidFeeShift (by decide)
  pricePushThreshold := toNat_setWidth_readField word thresholdShift (by decide)
  latestUpdateBlock := readField_lt (by decide)
  reservedHighBits := toNat_setWidth_readField word reservedShift (by decide)

/-- The parts of the view of a word are its fields. -/
theorem decodeLaneSlot0_parts (word : U256) :
    ∀ part ∈ (decodeLaneSlot0 word).parts, part.value = readField word part.shift part.bits := by
  simp only [parts, decodeLaneSlot0, forall_mem_cons, not_mem_nil,
    false_imp_iff, implies_true, and_true]
  refine ⟨setWidth_readField _ _ ?_ ?_ ?_, setWidth_readField _ _ ?_ ?_ ?_,
    setWidth_readField _ _ ?_ ?_ ?_, setWidth_readField _ _ ?_ ?_ ?_, boolWord_readField _ _,
    ofNat_toNat _ _ |>.trans (setWidth_eq _), boolWord_readField _ _,
    boolWord_readField _ _, setWidth_readField _ _ ?_ ?_ ?_, setWidth_readField _ _ ?_ ?_ ?_,
    setWidth_readField _ _ ?_ ?_ ?_⟩ <;> decide

/-- **Encoding undoes decoding**: every word is the encoding of its view. -/
theorem encodeLaneSlot0_decodeLaneSlot0 (word : U256) :
    encodeLaneSlot0 (decodeLaneSlot0 word) = .ok word := by
  refine encodeLaneSlot0_eq_ok.mpr ⟨decodeLaneSlot0_fits word, (packFields_readFields ?_
    (decodeLaneSlot0_parts word) fun i hi => ?_).symm⟩
  · intro part hpart
    exact (parts_inside _ hpart).2
  obtain ⟨field, hfield, hin⟩ := slot0Layout_covers i hi
  rw [← (decodeLaneSlot0 word).parts_layout] at hfield
  obtain ⟨part, hpart, rfl⟩ := mem_map.mp hfield
  exact ⟨part, hpart, hin⟩

theorem setWidth_setWidth_256 (value : BitVec v) (hv : v ≤ 256) :
    (value.setWidth 256).setWidth v = value := by
  refine eq_of_toNat_eq ?_
  rw [toNat_setWidth, Word.toNat_setWidth_of_le hv, mod_eq_of_lt value.isLt]

/-- **Decoding undoes encoding**, wherever a view can be encoded. -/
theorem decodeLaneSlot0_encodeLaneSlot0
    (h : encodeLaneSlot0 fields = .ok word) : decodeLaneSlot0 word = fields := by
  obtain ⟨hfits, rfl⟩ := encodeLaneSlot0_eq_ok.mp h
  have hread : ∀ part ∈ fields.parts,
      readField (packFields 0 fields.parts) part.shift part.bits = part.value := fun part hpart =>
    readField_packFields hpart (fields.parts_inside hpart).1 (fields.parts_inside hpart).2
      hfits.parts_fit fields.parts_apart
  have hblock : (BitVec.ofNat 256 fields.latestUpdateBlock).toNat = fields.latestUpdateBlock := by
    exact mod_eq_of_lt (hfits.latestUpdateBlock.trans (by decide))
  generalize packFields 0 fields.parts = word at hread
  simp only [parts, forall_mem_cons, not_mem_nil, false_imp_iff, implies_true,
    and_true] at hread
  obtain ⟨hprice, hask, hbid, hthreshold, henabled, hupdate, hexists, hpaused, hdelay, hk,
    hreserved⟩ := hread
  simp only [decodeLaneSlot0, hprice, hask, hbid, hthreshold, henabled, hupdate, hexists, hpaused,
    hdelay, hk, hreserved, boolWord_eq_one, hblock,
    setWidth_setWidth_256 _ (show 128 ≤ 256 by decide),
    setWidth_setWidth_256 _ (show 32 ≤ 256 by decide),
    setWidth_setWidth_256 _ (show 16 ≤ 256 by decide),
    setWidth_setWidth_256 _ (show 8 ≤ 256 by decide)]

/-! ### Accessors -/

section Accessors

variable (word : U256)

theorem toNat_laneSlot0Price : (laneSlot0Price word).toNat = (decodeLaneSlot0 word).price.toNat :=
  (Word.toNat_setWidth_readField (by decide) (by decide)).symm

theorem toNat_laneSlot0AskFeeBps :
    (laneSlot0AskFeeBps word).toNat = (decodeLaneSlot0 word).askFeeBps.toNat :=
  (Word.toNat_setWidth_readField (by decide) (by decide)).symm

theorem toNat_laneSlot0BidFeeBps :
    (laneSlot0BidFeeBps word).toNat = (decodeLaneSlot0 word).bidFeeBps.toNat :=
  (Word.toNat_setWidth_readField (by decide) (by decide)).symm

end Accessors

/-! ### Setters -/

section Setters

variable (word : U256)

theorem setLaneSlot0Exists_view (value : Bool) :
    decodeLaneSlot0 (setLaneSlot0Exists word value) =
      { decodeLaneSlot0 word with exists_ := value } := by
  simp (disch := decide) only [setLaneSlot0Exists, decodeLaneSlot0,
    readField_writeField_of_apart, readField_writeField,
    and_fieldMask_of_lt (show 1 < 256 by decide) (toNat_boolWord_lt value), boolWord_eq_one]

theorem setLaneSlot0Paused_view (paused : Bool) :
    decodeLaneSlot0 (setLaneSlot0Paused word paused) =
      { decodeLaneSlot0 word with paused := paused } := by
  simp (disch := decide) only [setLaneSlot0Paused, decodeLaneSlot0,
    readField_writeField_of_apart, readField_writeField,
    and_fieldMask_of_lt (show 1 < 256 by decide) (toNat_boolWord_lt paused), boolWord_eq_one]

theorem setLaneSlot0BlockDelay_view (blockDelay : BitVec 8) :
    decodeLaneSlot0 (setLaneSlot0BlockDelay word blockDelay) =
      { decodeLaneSlot0 word with blockDelay := blockDelay } := by
  have hfits : (blockDelay.setWidth 256).toNat < 2 ^ blockDelayBits := by
    exact blockDelay.isLt
  simp (disch := decide) only [setLaneSlot0BlockDelay, decodeLaneSlot0,
    readField_writeField_of_apart, readField_writeField,
    and_fieldMask_of_lt (show blockDelayBits < 256 by decide) hfits,
    setWidth_setWidth_256 blockDelay (show 8 ≤ 256 by decide)]

theorem setLaneSlot0SlippageKBps_view (slippageKBps : BitVec 32) :
    decodeLaneSlot0 (setLaneSlot0SlippageKBps word slippageKBps) =
      { decodeLaneSlot0 word with slippageKBps := slippageKBps } := by
  have hfits : (slippageKBps.setWidth 256).toNat < 2 ^ slippageKBits := by
    exact slippageKBps.isLt
  simp (disch := decide) only [setLaneSlot0SlippageKBps, decodeLaneSlot0,
    readField_writeField_of_apart, readField_writeField,
    and_fieldMask_of_lt (show slippageKBits < 256 by decide) hfits,
    setWidth_setWidth_256 slippageKBps (show 32 ≤ 256 by decide)]

variable {pricePushThreshold : BitVec 8} {enabled : Bool}

/-- The threshold is written when it fits seven bits. -/
theorem setLaneSlot0PricePushThreshold_eq_ok {word word' : U256} :
    setLaneSlot0PricePushThreshold word pricePushThreshold enabled = .ok word' ↔
      pricePushThreshold.toNat < 2 ^ thresholdBits ∧
        word' = writeField (writeField word (pricePushThreshold.setWidth 256) thresholdShift
          thresholdBits) (boolWord enabled) thresholdEnabledShift 1 := by
  rw [setLaneSlot0PricePushThreshold, Except.bind_eq_ok]
  simp only [validateNative_eq_ok (show thresholdBits < 128 by decide), Except.ok.injEq]
  exact ⟨fun ⟨_, hfits, h⟩ => ⟨hfits, h.symm⟩, fun ⟨hfits, h⟩ => ⟨(), hfits, h.symm⟩⟩

theorem setLaneSlot0PricePushThreshold_view {word word' : U256}
    (h : setLaneSlot0PricePushThreshold word pricePushThreshold enabled = .ok word') :
    decodeLaneSlot0 word' = { decodeLaneSlot0 word with
        pricePushThreshold := pricePushThreshold
        thresholdEnabled := enabled } := by
  obtain ⟨hfits, rfl⟩ := setLaneSlot0PricePushThreshold_eq_ok.mp h
  have hfits' : (pricePushThreshold.setWidth 256).toNat < 2 ^ thresholdBits := by
    rwa [Word.toNat_setWidth_of_le (by decide)]
  simp (disch := decide) only [decodeLaneSlot0,
    readField_writeField_of_apart, readField_writeField,
    and_fieldMask_of_lt (show 1 < 256 by decide) (toNat_boolWord_lt enabled), boolWord_eq_one,
    and_fieldMask_of_lt (show thresholdBits < 256 by decide) hfits',
    setWidth_setWidth_256 pricePushThreshold (show 8 ≤ 256 by decide)]

end Setters

/-! ### The family of setters -/

/-- A setter with its argument. -/
inductive Slot0Setter where
  | exists_ (value : Bool)
  | paused (paused : Bool)
  | pricePushThreshold (pricePushThreshold : BitVec 8) (enabled : Bool)
  | blockDelay (blockDelay : BitVec 8)
  | slippageKBps (slippageKBps : BitVec 32)
  deriving DecidableEq, Repr

namespace Slot0Setter

def run (word : U256) : Slot0Setter → Except MathError U256
  | .exists_ value => .ok (setLaneSlot0Exists word value)
  | .paused value => .ok (setLaneSlot0Paused word value)
  | .pricePushThreshold threshold enabled => setLaneSlot0PricePushThreshold word threshold enabled
  | .blockDelay value => .ok (setLaneSlot0BlockDelay word value)
  | .slippageKBps value => .ok (setLaneSlot0SlippageKBps word value)

/-- The argument fits the field. -/
def Fits : Slot0Setter → Prop
  | .pricePushThreshold threshold _ => threshold.toNat < 2 ^ thresholdBits
  | _ => True

/-- What the setter does to the view. -/
def edit (fields : LaneSlot0) : Slot0Setter → LaneSlot0
  | .exists_ value => { fields with exists_ := value }
  | .paused value => { fields with paused := value }
  | .pricePushThreshold threshold enabled =>
    { fields with pricePushThreshold := threshold, thresholdEnabled := enabled }
  | .blockDelay value => { fields with blockDelay := value }
  | .slippageKBps value => { fields with slippageKBps := value }

/-- The bits that are the setter's own. -/
def Owns (i : Nat) : Slot0Setter → Prop
  | .exists_ _ => existsShift ≤ i ∧ i < existsShift + 1
  | .paused _ => pausedShift ≤ i ∧ i < pausedShift + 1
  | .pricePushThreshold _ _ => thresholdShift ≤ i ∧ i < thresholdEnabledShift + 1
  | .blockDelay _ => blockDelayShift ≤ i ∧ i < blockDelayShift + blockDelayBits
  | .slippageKBps _ => slippageKShift ≤ i ∧ i < slippageKShift + slippageKBits

variable {word word' : U256} {setter : Slot0Setter}

theorem exists_run : (∃ word', setter.run word = .ok word') ↔ setter.Fits := by
  cases setter with
  | pricePushThreshold threshold enabled =>
    refine ⟨?_, fun hfits => ⟨_, setLaneSlot0PricePushThreshold_eq_ok.mpr ⟨hfits, rfl⟩⟩⟩
    rintro ⟨word', h⟩
    exact (setLaneSlot0PricePushThreshold_eq_ok.mp h).1
  | exists_ value => exact iff_of_true ⟨_, rfl⟩ trivial
  | paused value | blockDelay value | slippageKBps value => exact iff_of_true ⟨_, rfl⟩ trivial

theorem run_view (h : setter.run word = .ok word') :
    decodeLaneSlot0 word' = setter.edit (decodeLaneSlot0 word) := by
  cases setter with
  | pricePushThreshold threshold enabled => exact setLaneSlot0PricePushThreshold_view h
  | exists_ value => cases h; exact setLaneSlot0Exists_view word value
  | paused value => cases h; exact setLaneSlot0Paused_view word value
  | blockDelay value => cases h; exact setLaneSlot0BlockDelay_view word value
  | slippageKBps value => cases h; exact setLaneSlot0SlippageKBps_view word value

/-- A setter leaves every bit outside its field as it was. -/
theorem run_frame (h : setter.run word = .ok word') {i : Nat} (hi : ¬ setter.Owns i) :
    word'.getLsbD i = word.getLsbD i := by
  cases setter with
  | pricePushThreshold threshold enabled =>
    obtain ⟨-, rfl⟩ := setLaneSlot0PricePushThreshold_eq_ok.mp h
    have hout : ¬ (thresholdEnabledShift ≤ i ∧ i < thresholdEnabledShift + 1) := fun hin =>
      hi ⟨le_trans (by decide) hin.1, hin.2⟩
    have hout' : ¬ (thresholdShift ≤ i ∧ i < thresholdShift + thresholdBits) := fun hin =>
      hi ⟨hin.1, hin.2.trans_le (by decide)⟩
    rw [getLsbD_writeField (by decide) (by decide), if_neg hout,
      getLsbD_writeField (by decide) (by decide), if_neg hout']
  | exists_ value | paused value | blockDelay value | slippageKBps value =>
    cases h
    exact (getLsbD_writeField (by decide) (by decide) i).trans (if_neg hi)

end Slot0Setter

end Lunarbase.Math
