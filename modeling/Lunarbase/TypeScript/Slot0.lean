import Lunarbase.Math.Codec
import Lunarbase.TypeScript.Agreement

/-!
# TypeScript — Slot0

The lane word in TypeScript (`packages/math/src/slot0.ts`): decoder, setters and encoder over
`bigint`, and their agreement with the Rust codec.  A `number` field is an integer; the source
refuses one that is not.
-/

namespace Lunarbase.Ts

open Except (Agree)
open Nat Except

/-- What the functions of `slot0.ts` throw. -/
inductive Slot0Error where
  | math (error : MathError)
  | range (message : String)
  deriving DecidableEq, Repr

structure LaneSlot0 where
  price : Int
  askFeeBps : Int
  bidFeeBps : Int
  pricePushThreshold : Int
  thresholdEnabled : Bool
  latestUpdateBlock : Int
  exists_ : Bool
  paused : Bool
  blockDelay : Int
  slippageKBps : Int
  reservedHighBits : Int
  deriving DecidableEq, Repr

def fieldMask (bits : Nat) : Int := (1 : Int) <<< bits - 1

def readField (word : Int) (shift bits : Nat) : Int := Int.land (word >>> shift) (fieldMask bits)

def validateField (value : Int) (bits : Nat) (field : String) : Except MathError Unit := do
  let _ ← assertU256 value field
  if fieldMask bits < value then
    .error ⟨.fieldOverflow, field ++ " does not fit in " ++ toString bits ++ " bits"⟩
  else .ok ()

def isSafeInteger (value : Int) : Bool := decide (-(2 ^ 53 - 1) ≤ value ∧ value ≤ 2 ^ 53 - 1)

/-- The test of a `number` field against its largest value. -/
def validateNumber (value maximum : Int) (message : String) : Except Slot0Error Unit :=
  if !isSafeInteger value ∨ value < 0 ∨ maximum < value then .error (.range message) else .ok ()

def decodeLaneSlot0 (word : Int) : Except MathError LaneSlot0 := do
  let _ ← assertU256 word "slot0"
  .ok
    { price := readField word 0 112
      askFeeBps := readField word 112 20
      bidFeeBps := readField word 132 20
      pricePushThreshold := readField word 152 7
      thresholdEnabled := readField word 159 1 = 1
      latestUpdateBlock := readField word 160 40
      exists_ := readField word 200 1 = 1
      paused := readField word 201 1 = 1
      blockDelay := readField word 202 8
      slippageKBps := readField word 210 32
      reservedHighBits := word >>> (242 : Nat) }

def replaceField (word value : Int) (shift bits : Nat) : Except MathError Int :=
  let mask := fieldMask bits <<< shift
  assertU256 (Int.lor (Int.land word (Int.lnot mask)) (Int.land value (fieldMask bits) <<< shift))
    "slot0"

/-- `flag ? 1n : 0n`. -/
def flagWord (flag : Bool) : Int := if flag then 1 else 0

def setLaneSlot0Exists (word : Int) (value : Bool) : Except Slot0Error Int :=
  (replaceField word (flagWord value) 200 1).mapError .math

def setLaneSlot0Paused (word : Int) (paused : Bool) : Except Slot0Error Int :=
  (replaceField word (flagWord paused) 201 1).mapError .math

def setLaneSlot0PricePushThreshold (word pricePushThreshold : Int) (enabled : Bool) :
    Except Slot0Error Int := do
  validateNumber pricePushThreshold 0x7f "pricePushThreshold does not fit uint7"
  let updated ← (replaceField word pricePushThreshold 152 7).mapError .math
  (replaceField updated (flagWord enabled) 159 1).mapError .math

def setLaneSlot0BlockDelay (word blockDelay : Int) : Except Slot0Error Int := do
  validateNumber blockDelay 0xff "blockDelay does not fit uint8"
  (replaceField word blockDelay 202 8).mapError .math

def setLaneSlot0SlippageKBps (word slippageKBps : Int) : Except Slot0Error Int := do
  validateNumber slippageKBps 0xffffffff "slippageKBps does not fit uint32"
  (replaceField word slippageKBps 210 32).mapError .math

def encodeLaneSlot0 (fields : LaneSlot0) : Except Slot0Error Int := do
  (validateField fields.price 112 "price").mapError .math
  (validateField fields.askFeeBps 20 "askFeeBps").mapError .math
  (validateField fields.bidFeeBps 20 "bidFeeBps").mapError .math
  (validateField fields.pricePushThreshold 7 "pricePushThreshold").mapError .math
  (validateField fields.latestUpdateBlock 40 "latestUpdateBlock").mapError .math
  validateNumber fields.blockDelay 0xff "blockDelay does not fit uint8"
  validateNumber fields.slippageKBps 0xffffffff "slippageKBps does not fit uint32"
  (validateField fields.reservedHighBits 14 "reservedHighBits").mapError .math
  let word := Int.lor (Int.lor (Int.lor fields.price (fields.askFeeBps <<< (112 : Nat)))
    (fields.bidFeeBps <<< (132 : Nat))) (fields.pricePushThreshold <<< (152 : Nat))
  let word := if fields.thresholdEnabled then Int.lor word ((1 : Int) <<< (159 : Nat)) else word
  let word := Int.lor word (fields.latestUpdateBlock <<< (160 : Nat))
  let word := if fields.exists_ then Int.lor word ((1 : Int) <<< (200 : Nat)) else word
  let word := if fields.paused then Int.lor word ((1 : Int) <<< (201 : Nat)) else word
  let word := Int.lor word (fields.blockDelay <<< (202 : Nat))
  let word := Int.lor word (fields.slippageKBps <<< (210 : Nat))
  let word := Int.lor word (fields.reservedHighBits <<< (242 : Nat))
  (assertU256 word "slot0").mapError .math

/-! ### Integers that are words -/

theorem fieldMask_eq (bits : Nat) : fieldMask bits = ((2 ^ bits - 1 : Nat) : Int) := by
  rw [fieldMask, Int.shiftLeft_eq, one_mul, Int.natCast_sub Nat.one_le_two_pow, Int.natCast_pow]
  rfl

variable {bits shift v : Nat} {value : Int}

theorem readField_word (word : U256) (shift : Nat) (h : bits < 256) :
    readField word.toNat shift bits = ((Word.readField word shift bits).toNat : Int) := by
  rw [readField, fieldMask_eq, land_shift word shift bits h]

theorem readField_eq_one (word : U256) (shift : Nat) :
    readField word.toNat shift 1 = 1 ↔ Word.readField word shift 1 = 1 := by
  exact flag_word word shift

theorem lor_word (x y : U256) : Int.lor x.toNat y.toNat = ((x ||| y).toNat : Int) := by
  rfl

theorem land_word (x y : U256) : Int.land x.toNat y.toNat = ((x &&& y).toNat : Int) := by
  rfl

/-- `x & ~y` on integers is `x & ~y` on words: the bits that the complement of an integer has
beyond the word meet none of `x`. -/
theorem land_lnot_word (x y : U256) :
    Int.land x.toNat (Int.lnot y.toNat) = ((x &&& ~~~y).toNat : Int) := by
  have hdiff : Nat.ldiff x.toNat y.toNat = (x &&& ~~~y).toNat := by
    refine eq_of_testBit_eq fun i => ?_
    rw [testBit_ldiff]
    change (x.getLsbD i && !y.getLsbD i) = (x &&& ~~~y).getLsbD i
    by_cases hi : i < 256
    · simp [hi]
    · simp [BitVec.getLsbD_of_ge x i (Nat.le_of_not_lt hi)]
  rw [← hdiff]
  rfl

theorem shiftLeft_word {value : U256} (hin : shift + bits ≤ 256) (hvalue : value.toNat < 2 ^ bits) :
    (value.toNat : Int) <<< shift = ((value <<< shift).toNat : Int) := by
  have hlt : value.toNat <<< shift < 2 ^ 256 := by
    rw [shiftLeft_eq]
    calc value.toNat * 2 ^ shift < 2 ^ bits * 2 ^ shift :=
          Nat.mul_lt_mul_of_pos_right hvalue (Nat.two_pow_pos shift)
      _ = 2 ^ (bits + shift) := (pow_add 2 bits shift).symm
      _ ≤ 2 ^ 256 := Nat.pow_le_pow_right (by decide) (by omega)
  rw [BitVec.toNat_shiftLeft, mod_eq_of_lt hlt]
  exact (Int.natCast_shiftLeft value.toNat shift).symm

theorem fieldMask_word (h : bits < 256) :
    fieldMask bits = ((Word.fieldMask 256 bits).toNat : Int) := by
  rw [fieldMask_eq, Word.toNat_fieldMask h]

theorem replaceField_word (word value : U256) (hin : shift + bits ≤ 256) (h : bits < 256) :
    replaceField word.toNat value.toNat shift bits =
      .ok ((Word.writeField word value shift bits).toNat : Int) := by
  have hmask : (Word.fieldMask 256 bits).toNat < 2 ^ bits := by
    rw [Word.toNat_fieldMask h]
    exact Nat.sub_lt (Nat.two_pow_pos bits) Nat.one_pos
  have hvalue : (value &&& Word.fieldMask 256 bits).toNat < 2 ^ bits := by
    exact and_lt_two_pow _ hmask
  rw [replaceField, fieldMask_word h, shiftLeft_word hin hmask, land_lnot_word, land_word,
    shiftLeft_word hin hvalue, lor_word, assertU256_word, Word.writeField]

/-! ### Decoding -/

/-- The native view with its numbers as integers. -/
def ofNative (fields : Math.LaneSlot0) : LaneSlot0 where
  price := fields.price.toNat
  askFeeBps := fields.askFeeBps.toNat
  bidFeeBps := fields.bidFeeBps.toNat
  pricePushThreshold := fields.pricePushThreshold.toNat
  thresholdEnabled := fields.thresholdEnabled
  latestUpdateBlock := fields.latestUpdateBlock
  exists_ := fields.exists_
  paused := fields.paused
  blockDelay := fields.blockDelay.toNat
  slippageKBps := fields.slippageKBps.toNat
  reservedHighBits := fields.reservedHighBits.toNat

/-- The highest field is what is left above it. -/
theorem shiftRight_word (word : U256) (h : bits < 256) (htop : shift + bits = 256) :
    (word.toNat : Int) >>> shift = ((Word.readField word shift bits).toNat : Int) := by
  have hlt : word.toNat / 2 ^ shift < 2 ^ bits := by
    refine Nat.div_lt_of_lt_mul ?_
    rw [← pow_add, htop]
    exact word.isLt
  rw [Word.toNat_readField h, mod_eq_of_lt hlt, ← shiftRight_eq_div_pow]
  rfl

theorem decodeLaneSlot0_word (word : U256) :
    decodeLaneSlot0 word.toNat = .ok (ofNative (Math.decodeLaneSlot0 word)) := by
  rw [decodeLaneSlot0, assertU256_word, ok_bind]
  have hreserved := shiftRight_word word (show Math.reservedBits < 256 by decide)
    (show 242 + Math.reservedBits = 256 by decide)
  simp only [readField_eq_one, hreserved]
  simp (disch := decide) only [readField_word, ofNative, Math.decodeLaneSlot0,
    Word.toNat_setWidth_readField]
  rfl

/-! ### Rejections -/

/-- Both reject, for the same field and the same width. -/
def SameRejection : Math.MathError → Slot0Error → Prop
  | .fieldOverflow field bits, .math e =>
    e = ⟨.fieldOverflow, field ++ " does not fit in " ++ toString bits ++ " bits"⟩
  | .fieldOverflow field bits, .range message =>
    message = field ++ " does not fit uint" ++ toString bits
  | _, _ => False

theorem validateField_eq_ok {field : String} (hbits : bits ≤ 256) :
    validateField value bits field = .ok () ↔ 0 ≤ value ∧ value < 2 ^ bits := by
  have hle : (2 : Int) ^ bits ≤ 2 ^ 256 := pow_le_pow_right₀ (by decide) hbits
  have hmask : fieldMask bits = 2 ^ bits - 1 := by rw [fieldMask, Int.shiftLeft_eq, one_mul]
  rw [validateField, assertU256, hmask, U256_MAX]
  split
  case isTrue h =>
    exact iff_of_false (by simp) (by omega)
  case isFalse h =>
    rw [ok_bind, ite_error_eq_ok]
    exact ⟨fun hok => by omega, fun hok => ⟨by omega, rfl⟩⟩

variable {maximum : Int}

theorem validateNumber_eq_ok {message : String} (hmax : maximum ≤ 2 ^ 53 - 1) :
    validateNumber value maximum message = .ok () ↔ 0 ≤ value ∧ value ≤ maximum := by
  rw [validateNumber, ite_error_eq_ok]
  simp only [isSafeInteger, Bool.not_eq_true', decide_eq_false_iff_not, and_true]
  omega

theorem validateField_agree {value : Nat} (field : String) (hbits : bits < 128)
    (hvalue : value < 2 ^ 256) :
    Agree SameRejection (fun _ _ => True) (Math.validateNative value bits field)
      ((validateField value bits field).mapError .math) := by
  have hmask : fieldMask bits < value ↔ 2 ^ bits ≤ value := by
    rw [fieldMask_eq]
    have := Nat.two_pow_pos bits
    omega
  rw [Math.validateNative, validateField, assertU256_lt hvalue, ok_bind]
  by_cases h : 2 ^ bits ≤ value
  · rw [if_pos ⟨hbits, h⟩, if_pos (hmask.mpr h)]
    exact .error rfl
  · rw [if_neg fun hno => h hno.2, if_neg fun hno => h (hmask.mp hno)]
    exact .ok trivial

/-! ### Setters -/

/-- A setter of the TypeScript codec, at the arguments of the Rust one. -/
def runSetter (word : Int) : Math.Slot0Setter → Except Slot0Error Int
  | .exists_ value => setLaneSlot0Exists word value
  | .paused value => setLaneSlot0Paused word value
  | .pricePushThreshold threshold enabled =>
    setLaneSlot0PricePushThreshold word threshold.toNat enabled
  | .blockDelay value => setLaneSlot0BlockDelay word value.toNat
  | .slippageKBps value => setLaneSlot0SlippageKBps word value.toNat

theorem flagWord_eq (flag : Bool) : flagWord flag = ((Math.boolWord flag).toNat : Int) := by
  cases flag with
  | true => rfl
  | false => rfl

theorem replaceField_flag (word : U256) (flag : Bool) (hin : shift + 1 ≤ 256) :
    replaceField word.toNat (flagWord flag) shift 1 =
      .ok ((Word.writeField word (Math.boolWord flag) shift 1).toNat : Int) := by
  rw [flagWord_eq, replaceField_word word _ hin (by decide)]

theorem replaceField_native (word : U256) (value : BitVec v) (hv : v ≤ 256)
    (hin : shift + bits ≤ 256) (h : bits < 256) :
    replaceField word.toNat value.toNat shift bits =
      .ok ((Word.writeField word (value.setWidth 256) shift bits).toNat : Int) := by
  rw [← replaceField_word word _ hin h, Word.toNat_setWidth_of_le hv]

theorem validateNumber_native (value : BitVec v) (message : String) (hmax : maximum ≤ 2 ^ 53 - 1)
    (hv : (2 : Int) ^ v ≤ maximum + 1) : validateNumber value.toNat maximum message = .ok () := by
  have hlt : ((value.toNat : Nat) : Int) < 2 ^ v := by exact_mod_cast value.isLt
  exact (validateNumber_eq_ok hmax).mpr ⟨by omega, by omega⟩

theorem runSetter_agree (word : U256) (setter : Math.Slot0Setter) :
    Agree SameRejection IsWord (setter.run word) (runSetter word.toNat setter) := by
  cases setter with
  | exists_ value =>
    rw [runSetter, setLaneSlot0Exists, replaceField_flag word value (by decide)]
    exact .ok rfl
  | paused value =>
    rw [runSetter, setLaneSlot0Paused, replaceField_flag word value (by decide)]
    exact .ok rfl
  | blockDelay value =>
    rw [runSetter, setLaneSlot0BlockDelay, validateNumber_native value _ (by decide) (by decide),
      ok_bind, replaceField_native word value (by decide) (by decide) (by decide)]
    exact .ok rfl
  | slippageKBps value =>
    rw [runSetter, setLaneSlot0SlippageKBps,
      validateNumber_native value _ (by decide) (by decide), ok_bind,
      replaceField_native word value (by decide) (by decide) (by decide)]
    exact .ok rfl
  | pricePushThreshold threshold enabled =>
    rw [runSetter, setLaneSlot0PricePushThreshold, Math.Slot0Setter.run,
      Math.setLaneSlot0PricePushThreshold]
    by_cases h : threshold.toNat < 2 ^ Math.thresholdBits
    · have hnumber : validateNumber (threshold.toNat : Int) 0x7f
          "pricePushThreshold does not fit uint7" = .ok () := by
        rw [validateNumber_eq_ok (by decide)]
        change threshold.toNat < 128 at h
        omega
      rw [hnumber, (Math.validateNative_eq_ok (by decide)).mpr h, ok_bind, ok_bind,
        replaceField_native word threshold (by decide) (by decide) (by decide)]
      change Agree _ _ (.ok _) ((replaceField _ (flagWord enabled) 159 1).mapError Slot0Error.math)
      rw [replaceField_flag _ enabled (by decide)]
      exact .ok rfl
    · have hnumber : validateNumber (threshold.toNat : Int) 0x7f
          "pricePushThreshold does not fit uint7" =
            .error (.range "pricePushThreshold does not fit uint7") := by
        change ¬ threshold.toNat < 128 at h
        exact if_pos (.inr (.inr (by omega)))
      have hnative : Math.validateNative threshold.toNat Math.thresholdBits "pricePushThreshold" =
          .error (.fieldOverflow "pricePushThreshold" Math.thresholdBits) :=
        if_pos ⟨by decide, Nat.le_of_not_lt h⟩
      rw [hnumber, hnative]
      have hmessage : "pricePushThreshold does not fit uint7" =
          "pricePushThreshold" ++ " does not fit uint" ++ toString Math.thresholdBits := by decide
      exact .error hmessage

/-! ### Encoding -/

theorem shiftLeft_native (value : BitVec v) (hv : v ≤ 256) (hin : shift + bits ≤ 256)
    (hvalue : value.toNat < 2 ^ bits) :
    (value.toNat : Int) <<< shift = ((value.setWidth 256 <<< shift).toNat : Int) := by
  rw [← Word.toNat_setWidth_of_le hv] at hvalue
  rw [← shiftLeft_word hin hvalue, Word.toNat_setWidth_of_le hv]

theorem lor_flag (word : U256) (flag : Bool) (hin : shift + 1 ≤ 256) :
    (if flag then Int.lor word.toNat ((1 : Int) <<< shift) else word.toNat) =
      ((word ||| Math.boolWord flag <<< shift).toNat : Int) := by
  cases flag with
  | true =>
    have hone : (1 : Int) <<< shift = ((Math.boolWord true <<< shift).toNat : Int) :=
      shiftLeft_word hin (by decide : (Math.boolWord true).toNat < 2 ^ 1)
    rw [if_pos rfl, hone, lor_word]
  | false => simp [Math.boolWord]

theorem encodeLaneSlot0_agree (fields : Math.LaneSlot0)
    (hblock : fields.latestUpdateBlock < 2 ^ 64) :
    Agree SameRejection IsWord (Math.encodeLaneSlot0 fields)
      (encodeLaneSlot0 (ofNative fields)) := by
  have hwide : ∀ {v : Nat} (value : BitVec v), v ≤ 256 → value.toNat < 2 ^ 256 := fun value hv =>
    value.isLt.trans_le (Nat.pow_le_pow_right (by decide) hv)
  refine (validateField_agree "price" (by decide) (hwide _ (by decide))).bind fun _ _ hprice _ => ?_
  refine (validateField_agree "askFeeBps" (by decide) (hwide _ (by decide))).bind
    fun _ _ hask _ => ?_
  refine (validateField_agree "bidFeeBps" (by decide) (hwide _ (by decide))).bind
    fun _ _ hbid _ => ?_
  refine (validateField_agree "pricePushThreshold" (by decide) (hwide _ (by decide))).bind
    fun _ _ hthreshold _ => ?_
  refine (validateField_agree "latestUpdateBlock" (by decide) (hblock.trans (by decide))).bind
    fun _ _ hupdate _ => ?_
  have hdelay : validateNumber (ofNative fields).blockDelay 0xff "blockDelay does not fit uint8" =
      .ok () := validateNumber_native fields.blockDelay _ (by decide) (by decide)
  have hk : validateNumber (ofNative fields).slippageKBps 0xffffffff
      "slippageKBps does not fit uint32" = .ok () :=
    validateNumber_native fields.slippageKBps _ (by decide) (by decide)
  rw [hdelay, ok_bind, hk, ok_bind]
  refine (validateField_agree "reservedHighBits" (by decide) (hwide _ (by decide))).bind
    fun _ _ hreserved _ => ?_
  rw [Math.validateNative_eq_ok (by decide)] at hprice hask hbid hthreshold hupdate hreserved
  have hupdate' : (BitVec.ofNat 256 fields.latestUpdateBlock).toNat = fields.latestUpdateBlock := by
    exact mod_eq_of_lt (hupdate.trans (by decide))
  have hshift : (fields.latestUpdateBlock : Int) <<< (160 : Nat) =
      ((BitVec.ofNat 256 fields.latestUpdateBlock <<< 160).toNat : Int) := by
    have hin : 160 + Math.blockBits ≤ 256 := by decide
    rw [← shiftLeft_word hin (hupdate'.trans_lt hupdate), hupdate']
  have hlow : ((fields.price.toNat : Nat) : Int) = ((fields.price.setWidth 256).toNat : Int) := by
    rw [Word.toNat_setWidth_of_le (by decide)]
  simp only [ofNative, Math.or_boolWord, hlow, hshift,
    shiftLeft_native _ (show 32 ≤ 256 by decide) (show 112 + Math.feeBits ≤ 256 by decide) hask,
    shiftLeft_native _ (show 32 ≤ 256 by decide) (show 132 + Math.feeBits ≤ 256 by decide) hbid,
    shiftLeft_native _ (show 8 ≤ 256 by decide) (show 152 + Math.thresholdBits ≤ 256 by decide)
      hthreshold,
    shiftLeft_native _ (show 8 ≤ 256 by decide) (show 202 + 8 ≤ 256 by decide)
      fields.blockDelay.isLt,
    shiftLeft_native _ (show 32 ≤ 256 by decide) (show 210 + 32 ≤ 256 by decide)
      fields.slippageKBps.isLt,
    shiftLeft_native _ (show 16 ≤ 256 by decide) (show 242 + Math.reservedBits ≤ 256 by decide)
      hreserved,
    lor_word, lor_flag _ _ (show 159 + 1 ≤ 256 by decide),
    lor_flag _ _ (show 200 + 1 ≤ 256 by decide), lor_flag _ _ (show 201 + 1 ≤ 256 by decide),
    assertU256_word]
  exact .ok rfl

/-- Every integer of the record fits its place in the word. -/
structure LaneSlot0.Fits (fields : LaneSlot0) : Prop where
  price : 0 ≤ fields.price ∧ fields.price < 2 ^ 112
  askFeeBps : 0 ≤ fields.askFeeBps ∧ fields.askFeeBps < 2 ^ 20
  bidFeeBps : 0 ≤ fields.bidFeeBps ∧ fields.bidFeeBps < 2 ^ 20
  pricePushThreshold : 0 ≤ fields.pricePushThreshold ∧ fields.pricePushThreshold < 2 ^ 7
  latestUpdateBlock : 0 ≤ fields.latestUpdateBlock ∧ fields.latestUpdateBlock < 2 ^ 40
  blockDelay : 0 ≤ fields.blockDelay ∧ fields.blockDelay < 2 ^ 8
  slippageKBps : 0 ≤ fields.slippageKBps ∧ fields.slippageKBps < 2 ^ 32
  reservedHighBits : 0 ≤ fields.reservedHighBits ∧ fields.reservedHighBits < 2 ^ 14

/-- Only a record that fits is encoded. -/
theorem encodeLaneSlot0_fits {fields : LaneSlot0} {n : Int} (h : encodeLaneSlot0 fields = .ok n) :
    fields.Fits := by
  have hfield : ∀ {value : Int} {bits : Nat} {field : String} {a : Unit}, bits ≤ 256 →
      (validateField value bits field).mapError Slot0Error.math = .ok a →
        0 ≤ value ∧ value < 2 ^ bits := by
    intro value bits field a hbits hok
    cases hcheck : validateField value bits field with
    | ok _ => exact (validateField_eq_ok hbits).mp hcheck
    | error e => rw [hcheck] at hok; cases hok
  obtain ⟨_, hprice, h⟩ := bind_eq_ok.mp h
  obtain ⟨_, hask, h⟩ := bind_eq_ok.mp h
  obtain ⟨_, hbid, h⟩ := bind_eq_ok.mp h
  obtain ⟨_, hthreshold, h⟩ := bind_eq_ok.mp h
  obtain ⟨_, hupdate, h⟩ := bind_eq_ok.mp h
  obtain ⟨_, hdelay, h⟩ := bind_eq_ok.mp h
  obtain ⟨_, hk, h⟩ := bind_eq_ok.mp h
  obtain ⟨_, hreserved, -⟩ := bind_eq_ok.mp h
  rw [validateNumber_eq_ok (by decide)] at hdelay hk
  exact ⟨hfield (by decide) hprice, hfield (by decide) hask, hfield (by decide) hbid,
    hfield (by decide) hthreshold, hfield (by decide) hupdate, ⟨hdelay.1, by omega⟩,
    ⟨hk.1, by omega⟩, hfield (by decide) hreserved⟩

/-- The native view of a record that fits. -/
def LaneSlot0.toNative (fields : LaneSlot0) : Math.LaneSlot0 where
  price := BitVec.ofInt 128 fields.price
  askFeeBps := BitVec.ofInt 32 fields.askFeeBps
  bidFeeBps := BitVec.ofInt 32 fields.bidFeeBps
  pricePushThreshold := BitVec.ofInt 8 fields.pricePushThreshold
  thresholdEnabled := fields.thresholdEnabled
  latestUpdateBlock := fields.latestUpdateBlock.toNat
  exists_ := fields.exists_
  paused := fields.paused
  blockDelay := BitVec.ofInt 8 fields.blockDelay
  slippageKBps := BitVec.ofInt 32 fields.slippageKBps
  reservedHighBits := BitVec.ofInt 16 fields.reservedHighBits

theorem toNat_ofInt (hv : bits ≤ v) (h : 0 ≤ value ∧ value < 2 ^ bits) :
    ((BitVec.ofInt v value).toNat : Int) = value := by
  have hlt : value < 2 ^ v := h.2.trans_le (pow_le_pow_right₀ (by decide) hv)
  rw [BitVec.toNat_ofInt, Int.toNat_of_nonneg (Int.emod_nonneg _ (by positivity)), Int.natCast_pow]
  exact Int.emod_eq_of_lt h.1 hlt

variable {fields : LaneSlot0}

theorem LaneSlot0.Fits.ofNative_toNative (h : fields.Fits) : ofNative fields.toNative = fields := by
  simp only [ofNative, LaneSlot0.toNative, toNat_ofInt (show 112 ≤ 128 by decide) h.price,
    toNat_ofInt (show 20 ≤ 32 by decide) h.askFeeBps,
    toNat_ofInt (show 20 ≤ 32 by decide) h.bidFeeBps,
    toNat_ofInt (show 7 ≤ 8 by decide) h.pricePushThreshold,
    toNat_ofInt (le_refl 8) h.blockDelay, toNat_ofInt (le_refl 32) h.slippageKBps,
    toNat_ofInt (show 14 ≤ 16 by decide) h.reservedHighBits,
    Int.toNat_of_nonneg h.latestUpdateBlock.1]

theorem LaneSlot0.Fits.toNative (h : fields.Fits) : fields.toNative.Fits := by
  have hnat : ∀ {value : Int} {bits v : Nat}, bits ≤ v → 0 ≤ value ∧ value < 2 ^ bits →
      (BitVec.ofInt v value).toNat < 2 ^ bits := by
    intro value bits v hv hin
    have hlt := hin.2
    rw [← toNat_ofInt hv hin] at hlt
    exact_mod_cast hlt
  have hblock : fields.latestUpdateBlock.toNat < 2 ^ 40 := by
    have := h.latestUpdateBlock
    omega
  exact ⟨hnat (by decide) h.price, hnat (by decide) h.askFeeBps, hnat (by decide) h.bidFeeBps,
    hnat (by decide) h.pricePushThreshold, hblock, hnat (by decide) h.reservedHighBits⟩

/-- Encoding succeeds on the records that fit, with the word of the Rust codec. -/
theorem LaneSlot0.Fits.encode (h : fields.Fits) :
    ∃ word, Math.encodeLaneSlot0 fields.toNative = .ok word ∧
      encodeLaneSlot0 fields = .ok (word.toNat : Int) := by
  have hnative := Math.encodeLaneSlot0_eq_ok.mpr ⟨h.toNative, rfl⟩
  have hagree :=
    encodeLaneSlot0_agree fields.toNative (h.toNative.latestUpdateBlock.trans (by decide))
  rw [h.ofNative_toNative, hnative] at hagree
  refine ⟨_, hnative, ?_⟩
  generalize encodeLaneSlot0 fields = result at hagree
  cases hagree with
  | ok hword => rw [hword]

/-! ### The codec -/

/-- **The codec is a bijection with separate fields, and the same in both languages.**  Words and
the views that fit are in correspondence; a setter edits its own field and leaves every other bit
alone; on words, native records and setters the TypeScript codec returns the same words, fields
and rejections, and it encodes exactly the integer records that fit. -/
theorem slot0_codec_bijective :
    (∀ word : U256, Math.encodeLaneSlot0 (Math.decodeLaneSlot0 word) = .ok word) ∧
    (∀ fields : Math.LaneSlot0, ((∃ word, Math.encodeLaneSlot0 fields = .ok word) ↔ fields.Fits) ∧
      ∀ word, Math.encodeLaneSlot0 fields = .ok word → Math.decodeLaneSlot0 word = fields) ∧
    (∀ (setter : Math.Slot0Setter) (word : U256),
      ((∃ word', setter.run word = .ok word') ↔ setter.Fits) ∧
      ∀ word', setter.run word = .ok word' →
        Math.decodeLaneSlot0 word' = setter.edit (Math.decodeLaneSlot0 word) ∧
        ∀ i, ¬ setter.Owns i → word'.getLsbD i = word.getLsbD i) ∧
    (∀ word : U256, decodeLaneSlot0 word.toNat = .ok (ofNative (Math.decodeLaneSlot0 word))) ∧
    (∀ fields : Math.LaneSlot0, fields.latestUpdateBlock < 2 ^ 64 →
      Agree SameRejection IsWord (Math.encodeLaneSlot0 fields)
        (encodeLaneSlot0 (ofNative fields))) ∧
    (∀ fields : LaneSlot0, (∃ n, encodeLaneSlot0 fields = .ok n) ↔ fields.Fits) ∧
    (∀ (setter : Math.Slot0Setter) (word : U256),
      Agree SameRejection IsWord (setter.run word) (runSetter word.toNat setter)) := by
  refine ⟨Math.encodeLaneSlot0_decodeLaneSlot0, fun fields => ⟨?_, ?_⟩, fun setter word => ⟨?_, ?_⟩,
    decodeLaneSlot0_word, encodeLaneSlot0_agree, fun fields => ⟨?_, ?_⟩,
    fun setter word => runSetter_agree word setter⟩
  · exact ⟨fun ⟨word, h⟩ => (Math.encodeLaneSlot0_eq_ok.mp h).1,
      fun hfits => ⟨_, Math.encodeLaneSlot0_eq_ok.mpr ⟨hfits, rfl⟩⟩⟩
  · exact fun word h => Math.decodeLaneSlot0_encodeLaneSlot0 h
  · exact Math.Slot0Setter.exists_run
  · exact fun word' h => ⟨Math.Slot0Setter.run_view h, fun i hi => Math.Slot0Setter.run_frame h hi⟩
  · exact fun ⟨n, h⟩ => encodeLaneSlot0_fits h
  intro hfits
  obtain ⟨word, -, h⟩ := hfits.encode
  exact ⟨_, h⟩

/-- Pausing the lane of a word with price seven. -/
theorem slot0_codec_bijective_paused_lane :
    Math.encodeLaneSlot0 (Math.decodeLaneSlot0 7) = .ok 7 ∧
    Math.decodeLaneSlot0 (Math.setLaneSlot0Paused 7 true) =
      { Math.decodeLaneSlot0 7 with paused := true } ∧
    (Math.setLaneSlot0Paused 7 true).getLsbD 242 = (7 : U256).getLsbD 242 ∧
    (Math.decodeLaneSlot0 7).latestUpdateBlock < 2 ^ 64 ∧
    Agree SameRejection IsWord (Math.encodeLaneSlot0 (Math.decodeLaneSlot0 7))
      (encodeLaneSlot0 (ofNative (Math.decodeLaneSlot0 7))) := by
  obtain ⟨hround, hencode, hsetter, -, hagree, -, -⟩ := slot0_codec_bijective
  obtain ⟨hview, hframe⟩ := (hsetter (.paused true) 7).2 _ rfl
  have hblock : (Math.decodeLaneSlot0 7).latestUpdateBlock < 2 ^ 64 := by decide +kernel
  have hout : ¬ (Math.Slot0Setter.paused true).Owns 242 := fun hin => absurd hin.2 (by decide)
  exact ⟨hround 7, hview, hframe 242 hout, hblock, hagree _ hblock⟩

end Lunarbase.Ts
