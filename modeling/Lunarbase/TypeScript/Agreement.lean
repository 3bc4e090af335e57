import Lunarbase.Math.Quote
import Lunarbase.Support.Digits
import Lunarbase.TypeScript.Quote
import Mathlib.Tactic.NormNum

/-!
# TypeScript — Agreement

The two quote engines agree.  A 256-bit word and its integer value are related, an address and its
canonical string, a state and any state that stores the related values; then each function of one
engine agrees with its namesake in the other: it returns the related result, or fails with the
same kind of error.
-/

namespace Lunarbase.Ts

open Except (Agree)
open List BitVec Nat Except

/-! ### What is related -/

/-- The same kind of failure. -/
def SameKind : Math.MathError → MathError → Prop
  | .divisionByZero, e => e.code = .divisionByZero
  | .overflow, e => e.code = .overflow
  | .fieldOverflow _ _, e => e.code = .fieldOverflow

/-- A word and its value. -/
def IsWord {w : Nat} (x : BitVec w) (n : Int) : Prop := n = x.toNat

/-- A fallible word and a fallible value in step. -/
abbrev AgreeWord := Agree SameKind (IsWord (w := 256))

def hexChar (d : Nat) : Char := if d < 10 then Char.ofNat (48 + d) else Char.ofNat (87 + d)

/-- The canonical form of an address: `0x` and forty lower-case hexadecimal digits. -/
def canonicalAddress (a : Lunarbase.Address) : Address :=
  String.ofList ('0' :: 'x' :: (Digits.padDigits 16 40 a.toNat).map hexChar)

theorem hexChar_toLower : ∀ d < 16, (hexChar d).toLower = hexChar d := by decide

theorem hexChar_inj : ∀ d < 16, ∀ e < 16, hexChar d = hexChar e → d = e := by decide

theorem toLowerCase_canonicalAddress (a : Lunarbase.Address) :
    toLowerCase (canonicalAddress a) = canonicalAddress a := by
  have hdigits : ((Digits.padDigits 16 40 a.toNat).map hexChar).map Char.toLower =
      (Digits.padDigits 16 40 a.toNat).map hexChar := by
    rw [map_map]
    refine map_congr_left fun d hd => ?_
    exact hexChar_toLower d (Digits.lt_of_mem_padDigits (by decide) hd)
  apply String.toList_inj.mp
  rw [toLowerCase, String.toList_map, canonicalAddress, String.toList_ofList, map_cons,
    map_cons, hdigits]
  rfl

theorem canonicalAddress_inj {a b : Lunarbase.Address} :
    canonicalAddress a = canonicalAddress b ↔ a = b := by
  refine ⟨fun h => ?_, fun h => by rw [h]⟩
  have hlist := congrArg String.toList h
  simp only [canonicalAddress, String.toList_ofList, List.cons.injEq, true_and] at hlist
  have hbound : ∀ c : Lunarbase.Address, c.toNat < 16 ^ 40 := fun c => c.isLt.trans_eq (by norm_num)
  exact eq_of_toNat_eq
    (Digits.map_padDigits_inj (by decide) hexChar_inj (hbound a) (hbound b) hlist)

/-! ### Arithmetic -/

section

variable {x y d : U256} {n : Nat}

theorem assertU256_lt (h : n < 2 ^ 256) (label : String) : assertU256 n label = .ok n := by
  rw [assertU256, if_neg (by unfold U256_MAX; omega)]

theorem assertU256_ge (h : 2 ^ 256 ≤ n) (label : String) :
    assertU256 n label = .error ⟨.overflow, label ++ " is outside uint256"⟩ := by
  rw [assertU256, if_pos (by unfold U256_MAX; omega)]

@[simp] theorem assertU256_word (x : U256) (label : String) :
    assertU256 x.toNat label = .ok ↑x.toNat := assertU256_lt x.isLt label

/-- A result that is checked only at the end agrees with a computation that returns the same
number where it fits and overflows where it does not. -/
theorem agree_assertU256 {r : Except Math.MathError U256} {label : String}
    (hok : ∀ {a}, r = .ok a ↔ a.toNat = n)
    (herr : ∀ {e}, r = .error e ↔ 2 ^ 256 ≤ n ∧ .overflow = e) :
    AgreeWord r (assertU256 n label) := by
  by_cases h : n < 2 ^ 256
  · have hr : r = .ok (BitVec.ofNat 256 n) :=
      hok.mpr (by rw [toNat_ofNat, mod_eq_of_lt h])
    rw [hr, assertU256_lt h]
    exact .ok (by rw [IsWord, toNat_ofNat, mod_eq_of_lt h])
  · have hge : 2 ^ 256 ≤ n := Nat.le_of_not_lt h
    rw [herr.mpr ⟨hge, rfl⟩, assertU256_ge hge]
    exact .error rfl

theorem checkedAdd_agree : AgreeWord (Math.checkedAdd x y) (checkedAdd x.toNat y.toNat) := by
  simp only [checkedAdd, assertU256_word, ok_bind]
  exact agree_assertU256 Math.checkedAdd_eq_ok Math.checkedAdd_eq_error

theorem checkedMul_agree : AgreeWord (Math.checkedMul x y) (checkedMul x.toNat y.toNat) := by
  simp only [checkedMul, assertU256_word, ok_bind]
  exact agree_assertU256 Math.checkedMul_eq_ok Math.checkedMul_eq_error

theorem checkedSub_agree : AgreeWord (Math.checkedSub x y) (checkedSub x.toNat y.toNat) := by
  simp only [checkedSub, assertU256_word, ok_bind]
  by_cases h : x.toNat < y.toNat
  · rw [Math.checkedSub_eq_error.mpr ⟨h, rfl⟩, if_pos (by exact_mod_cast h)]
    exact .error rfl
  have hle : y.toNat ≤ x.toNat := Nat.le_of_not_lt h
  have hsub : (x - y).toNat = x.toNat - y.toNat := toNat_sub_of_le hle
  have hok : Math.checkedSub x y = .ok (x - y) := Math.checkedSub_eq_ok.mpr (by omega)
  rw [hok, if_neg (by exact_mod_cast h)]
  refine .ok ?_
  rw [IsWord, hsub, cast_sub hle]

theorem ensureDenominator_word (hd : d ≠ 0) : ensureDenominator d.toNat = .ok () := by
  have hpos := Math.toNat_ne_zero.mp hd
  simp only [ensureDenominator, assertU256_word, ok_bind]
  rw [if_neg (by omega)]

theorem fullMulDivDown_agree (hd : d ≠ 0) :
    AgreeWord (Math.fullMulDivDown x y d) (fullMulDivDown x.toNat y.toNat d.toNat) := by
  simp only [fullMulDivDown, assertU256_word, ensureDenominator_word hd, ok_bind]
  exact agree_assertU256 (Math.fullMulDivDown_eq_ok hd) (Math.fullMulDivDown_eq_error hd)

theorem ceilDiv_cast {n m : Nat} (hm : 0 < m) :
    (n : Int).tdiv m + (if (n : Int).tmod m = 0 then 0 else 1) = ((n ⌈/⌉ m : Nat) : Int) := by
  have hmod : (n : Int).tmod m = ((n % m : Nat) : Int) := rfl
  rw [hmod, Word.ceilDiv_eq_div_add hm]
  by_cases h : n % m = 0
  · rw [if_pos h, if_pos (by exact_mod_cast h)]; rfl
  · rw [if_neg h, if_neg (by exact_mod_cast h)]; rfl

theorem fullMulDivUp_agree (hd : d ≠ 0) :
    AgreeWord (Math.fullMulDivUp x y d) (fullMulDivUp x.toNat y.toNat d.toNat) := by
  simp only [fullMulDivUp, assertU256_word, ensureDenominator_word hd, ok_bind]
  rw [← cast_mul, ceilDiv_cast (Math.toNat_ne_zero.mp hd)]
  exact agree_assertU256 (Math.fullMulDivUp_eq_ok hd) (Math.fullMulDivUp_eq_error hd)

theorem mulDivDown256_agree (hd : d ≠ 0) :
    AgreeWord (Math.mulDivDown256 x y d) (mulDivDown256 x.toNat y.toNat d.toNat) := by
  simp only [mulDivDown256, Math.mulDivDown256, hd, if_false, assertU256_word,
    ensureDenominator_word hd, ok_bind]
  refine checkedMul_agree.bind ?_
  rintro p _ _ rfl
  exact .ok (by rw [IsWord, toNat_udiv]; rfl)

end

/-! ### Fees -/

section

variable {x y c : U256}

theorem word_eq_zero : x = 0 ↔ (x.toNat : Int) = 0 := by
  rw [← toNat_inj]
  exact_mod_cast Iff.rfl

theorem word_lt : x < y ↔ (x.toNat : Int) < y.toNat := by
  exact_mod_cast Iff.rfl

theorem word_le : x ≤ y ↔ (x.toNat : Int) ≤ y.toNat := by
  exact_mod_cast Iff.rfl

@[simp] theorem toNat_wad : (Math.wad.toNat : Int) = WAD := rfl

@[simp] theorem toNat_bps : (Math.bps.toNat : Int) = BPS := rfl

theorem bps_ne_zero : Math.bps ≠ 0 := by decide

theorem wad_ne_zero : Math.wad ≠ 0 := by decide

theorem isWord_zero : IsWord (0 : U256) 0 := rfl

/-- The two ways the engines cap a value. -/
theorem isWord_cap :
    IsWord (if x ≤ c then x else c) (if (c.toNat : Int) < x.toNat then ↑c.toNat else ↑x.toNat) := by
  by_cases h : x ≤ c
  · rw [if_pos h, if_neg (by rw [word_le] at h; omega)]; rfl
  · rw [if_neg h, if_pos (by rw [word_le] at h; omega)]; rfl

variable {price amount anchor feeBps : U256} {toAsset : Bool}

theorem quoteLaneExactIn_agree :
    AgreeWord (Math.quoteLaneExactIn price amount toAsset)
      (quoteLaneExactIn price.toNat amount.toNat toAsset) := by
  refine Agree.ite word_eq_zero (fun _ => .ok isWord_zero) fun hp => ?_
  exact Agree.ite Iff.rfl (fun _ => fullMulDivDown_agree hp)
    fun _ => fullMulDivDown_agree wad_ne_zero

theorem quoteLaneExactOut_agree :
    AgreeWord (Math.quoteLaneExactOut price amount toAsset)
      (quoteLaneExactOut price.toNat amount.toNat toAsset) := by
  refine Agree.ite word_eq_zero (fun _ => .ok isWord_zero) fun hp => ?_
  exact Agree.ite Iff.rfl (fun _ => fullMulDivUp_agree wad_ne_zero) fun _ => fullMulDivUp_agree hp

theorem quoteLaneExactInFee_agree :
    AgreeWord (Math.quoteLaneExactInFee anchor feeBps)
      (quoteLaneExactInFee anchor.toNat feeBps.toNat) := by
  refine Agree.ite (or_congr word_eq_zero word_eq_zero) (fun _ => .ok isWord_zero) fun _ => ?_
  refine (checkedAdd_agree (x := Math.bps)).bind ?_
  rintro denominator _ hsum rfl
  have hne : denominator ≠ 0 := by
    rw [Math.toNat_ne_zero, Math.checkedAdd_eq_ok.mp hsum]
    exact Nat.add_pos_left (by decide) _
  exact fullMulDivUp_agree hne

theorem quoteLaneExactOutFee_agree :
    AgreeWord (Math.quoteLaneExactOutFee anchor feeBps)
      (quoteLaneExactOutFee anchor.toNat feeBps.toNat) :=
  Agree.ite (or_congr word_eq_zero word_eq_zero) (fun _ => .ok isWord_zero)
    fun _ => fullMulDivUp_agree bps_ne_zero

theorem quoteLaneSlippageBps_agree {cash principal k : U256} :
    AgreeWord (Math.quoteLaneSlippageBps cash principal k)
      (quoteLaneSlippageBps cash.toNat principal.toNat k.toNat) := by
  refine Agree.ite (or_congr word_eq_zero (or_congr word_eq_zero word_eq_zero))
    (fun _ => .ok isWord_zero) fun h => ?_
  refine (fullMulDivUp_agree (fun hz => h (.inr (.inl hz)))).bind ?_
  rintro raw _ _ rfl
  -- one engine rounds with a remainder, the other by adding before it divides
  have hle : raw.toNat ⌈/⌉ 10 < 2 ^ 256 := by
    have := raw.isLt
    rw [ceilDiv_eq_add_pred_div]
    omega
  have hceil : Math.ceilDiv raw Math.slippageScale = .ok (BitVec.ofNat 256 (raw.toNat ⌈/⌉ 10)) := by
    rw [Math.ceilDiv_eq_ok (by decide), toNat_ofNat, mod_eq_of_lt hle]
    rfl
  have hrounded : ((raw.toNat : Int) + SLIPPAGE_SCALE - 1).tdiv SLIPPAGE_SCALE =
      ((BitVec.ofNat 256 (raw.toNat ⌈/⌉ 10)).toNat : Int) := by
    rw [toNat_ofNat, mod_eq_of_lt hle, ceilDiv_eq_add_pred_div,
      show (raw.toNat : Int) + SLIPPAGE_SCALE - 1 = ((raw.toNat + 10 - 1 : Nat) : Int) by
        unfold SLIPPAGE_SCALE; omega]
    rfl
  rw [hceil, ok_bind, hrounded]
  exact .ok (isWord_cap (c := Math.maxSlippageBps))

theorem quoteLaneWeightedSlippageKBps_agree {p₁ k₁ p₂ k₂ : U256} :
    AgreeWord (Math.quoteLaneWeightedSlippageKBps p₁ k₁ p₂ k₂)
      (quoteLaneWeightedSlippageKBps p₁.toNat k₁.toNat p₂.toNat k₂.toNat) := by
  refine checkedAdd_agree.bind ?_
  rintro total _ _ rfl
  refine Agree.ite word_eq_zero (fun _ => .ok isWord_zero) fun hne => ?_
  refine (fullMulDivUp_agree hne).bind ?_
  rintro first _ _ rfl
  refine (fullMulDivUp_agree hne).bind ?_
  rintro second _ _ rfl
  refine checkedAdd_agree.bind ?_
  rintro sum _ _ rfl
  exact .ok (isWord_cap (c := Math.bps))

/-- The checked multiplication never fails here: the fee is below the quotient it was compared
with, or the multiplier is zero. -/
theorem calculateFeeBpsForRouter_word (whitelisted : Bool) (multiplier feeBps : U256) :
    ∃ fee, Math.calculateFeeBpsForRouter whitelisted multiplier feeBps = .ok fee ∧
      IsWord fee (calculateFeeBpsForRouter whitelisted multiplier.toNat feeBps.toNat) := by
  unfold Math.calculateFeeBpsForRouter calculateFeeBpsForRouter
  have hcap := isWord_cap (x := feeBps) (c := Math.bps)
  generalize (if feeBps ≤ Math.bps then feeBps else Math.bps) = fee at hcap
  rw [IsWord, toNat_bps] at hcap
  simp only [hcap]
  by_cases hw : whitelisted
  · simp only [hw, if_true]
    exact ⟨_, rfl, rfl⟩
  simp only [hw, Bool.false_eq_true, if_false]
  have hcond : (multiplier ≠ 0 ∧ Math.bps / multiplier < fee) ↔
      ((multiplier.toNat : Int) ≠ 0 ∧ BPS.tdiv multiplier.toNat < fee.toNat) := by
    rw [word_lt, toNat_udiv]
    exact and_congr word_eq_zero.not Iff.rfl
  by_cases hc : multiplier ≠ 0 ∧ Math.bps / multiplier < fee
  · rw [if_pos hc, if_pos (hcond.mp hc)]
    exact ⟨_, rfl, rfl⟩
  rw [if_neg hc, if_neg (hcond.not.mp hc)]
  have hmul : fee.toNat * multiplier.toNat < 2 ^ 256 := by
    by_cases hz : multiplier = 0
    · rw [hz]; simp
    have hle : fee.toNat ≤ Math.bps.toNat / multiplier.toNat := by
      have := not_and.mp hc hz
      exact Nat.le_of_not_lt this
    calc fee.toNat * multiplier.toNat
        ≤ Math.bps.toNat / multiplier.toNat * multiplier.toNat := mul_le_mul_right _ hle
      _ ≤ Math.bps.toNat := div_mul_le_self _ _
      _ < 2 ^ 256 := Math.bps.isLt
  have hprod : ((fee * multiplier).toNat : Int) = fee.toNat * multiplier.toNat := by
    rw [toNat_mul, mod_eq_of_lt hmul, cast_mul]
  have hok : Math.checkedMul fee multiplier = .ok (fee * multiplier) :=
    Math.checkedMul_eq_ok.mpr (by exact_mod_cast hprod)
  rw [hok, ok_bind, ← hprod]
  exact ⟨_, rfl, isWord_cap (c := Math.bps)⟩

/-- A pair of words and the pair of their values. -/
def IsWordPair (p : U256 × U256) (q : Int × Int) : Prop := IsWord p.1 q.1 ∧ IsWord p.2 q.2

theorem splitFee_agree {fee partnerBps : U256} :
    Agree SameKind IsWordPair (Math.splitFee fee partnerBps)
      (splitFee fee.toNat partnerBps.toNat) := by
  refine Agree.ite word_eq_zero (fun _ => .ok ⟨rfl, rfl⟩) fun _ => ?_
  have hpartner : AgreeWord
      (if partnerBps = 0 then .ok 0 else Math.mulDivDown256 fee partnerBps Math.bps)
      (if (partnerBps.toNat : Int) = 0 then .ok 0
        else mulDivDown256 fee.toNat partnerBps.toNat BPS) :=
    Agree.ite word_eq_zero (fun _ => .ok isWord_zero) fun _ => mulDivDown256_agree bps_ne_zero
  refine hpartner.bind ?_
  rintro partner _ _ rfl
  refine checkedSub_agree.bind ?_
  rintro treasury _ _ rfl
  exact .ok ⟨rfl, rfl⟩

end

/-! ### Lane words -/

variable (word : U256)

/-- Shift and mask on integers read the same field as shift and mask on words. -/
theorem land_shift (shift bits : Nat) (h : bits < 256) :
    Int.land ((word.toNat : Int) >>> shift) ((2 ^ bits - 1 : Nat) : Int) =
      ((Word.readField word shift bits).toNat : Int) := by
  have hfield : word.toNat >>> shift &&& (2 ^ bits - 1) =
      (Word.readField word shift bits).toNat := by
    rw [Word.toNat_readField h, and_two_pow_sub_one_eq_mod, shiftRight_eq_div_pow]
  rw [← hfield]
  rfl

theorem laneSlot0Field_word (shift bits : Nat) (h : bits < 256) :
    laneSlot0Field word.toNat shift ((2 ^ bits - 1 : Nat) : Int) =
      .ok ((Word.readField word shift bits).toNat : Int) := by
  rw [laneSlot0Field, assertU256_word, ok_bind, land_shift word shift bits h]

theorem laneSlot0Price_word :
    laneSlot0Price word.toNat = .ok ((Math.laneSlot0Price word).toNat : Int) := by
  have h := land_shift word 0 112 (by decide)
  rw [laneSlot0Price, assertU256_word, ok_bind]
  exact congrArg ok h

theorem laneSlot0AskFeeBps_word :
    laneSlot0AskFeeBps word.toNat = .ok ((Math.laneSlot0AskFeeBps word).toNat : Int) :=
  laneSlot0Field_word word _ 20 (by decide)

theorem laneSlot0BidFeeBps_word :
    laneSlot0BidFeeBps word.toNat = .ok ((Math.laneSlot0BidFeeBps word).toNat : Int) :=
  laneSlot0Field_word word _ 20 (by decide)

theorem laneSlot0LatestUpdateBlock_word :
    laneSlot0LatestUpdateBlock word.toNat = .ok (Math.laneSlot0LatestUpdateBlock word : Int) :=
  laneSlot0Field_word word _ 40 (by decide)

theorem laneSlot0BlockDelay_word :
    laneSlot0BlockDelay word.toNat = .ok ((Math.laneSlot0BlockDelay word).toNat : Int) := by
  rw [Math.laneSlot0BlockDelay, Math.blockDelayBits,
    Word.toNat_setWidth_readField (by decide) (by decide)]
  exact laneSlot0Field_word word _ 8 (by decide)

theorem laneSlot0SlippageKBps_word :
    laneSlot0SlippageKBps word.toNat =
      .ok (((Math.laneSlot0SlippageKBps word).setWidth 256 : U256).toNat : Int) := by
  rw [Word.toNat_setWidth_of_le (by decide), Math.laneSlot0SlippageKBps, Math.slippageKBits,
    Word.toNat_setWidth_readField (by decide) (by decide)]
  exact laneSlot0Field_word word _ 32 (by decide)

theorem flag_word (shift : Nat) :
    Int.land ((word.toNat : Int) >>> shift) 1 = 1 ↔ Word.readField word shift 1 = 1 := by
  have h := land_shift word shift 1 (by decide)
  rw [show (((2 ^ 1 - 1 : Nat) : Int)) = 1 from rfl] at h
  rw [h, ← toNat_inj]
  exact_mod_cast Iff.rfl

end Lunarbase.Ts
