import Lunarbase.Math.Monotone
import Mathlib.GroupTheory.GroupAction.Ring

/-!
# Math — Terms

The arithmetic of a quote over the natural numbers.  A path has one or two legs, each of them a
lane; a leg brings its fee, its principal and its slippage coefficient.  Without a bound on
numbers a quote is four formulas: the cash that passes between the legs, the anchor, the rate of
the fee and the rate of the whole spread.

Each function of the engine returns the word of its formula, if that is a word.
-/

namespace Lunarbase.Math

open List Except Nat

/-! ### Formulas -/

/-- Exact-in conversion at a price. -/
def convertIn (price amount : Nat) (cashToAsset : Bool) : Nat :=
  if cashToAsset then amount * wad.toNat / price else amount * price / wad.toNat

/-- Exact-out conversion at a price. -/
def convertOut (price amount : Nat) (cashToAsset : Bool) : Nat :=
  if cashToAsset then amount * price ⌈/⌉ wad.toNat else amount * wad.toNat ⌈/⌉ price

/-- What a rate takes from an anchor, or adds to it. -/
def spread (exactIn : Bool) (anchor rate : Nat) : Nat :=
  anchor * rate ⌈/⌉ if exactIn then bps.toNat + rate else bps.toNat

/-- The fee rate of a leg: the raw fee, capped, times the multiplier of the caller, capped. -/
def effectiveFee (whitelisted : Bool) (multiplier raw : Nat) : Nat :=
  min bps.toNat (min raw bps.toNat * if whitelisted then 1 else multiplier)

def slippageRate (cash principal k : Nat) : Nat :=
  min maxSlippageBps.toNat ((cash * k ⌈/⌉ principal) ⌈/⌉ slippageScale.toNat)

/-- One lane of a path, in the direction it is taken. -/
structure Leg where
  rawFee : Nat
  principal : Nat
  k : Nat

/-- The principal behind a path. -/
def legsPrincipal (legs : List Leg) : Nat := (legs.map Leg.principal).sum

/-- The slippage coefficient of a path: a lane's own, or the weighted one of a route, which is
capped. -/
def legsK : List Leg → Nat
  | [leg] => leg.k
  | legs => min bps.toNat (legs.map fun leg => leg.principal * leg.k ⌈/⌉ legsPrincipal legs).sum

def legsFee (whitelisted : Bool) (multiplier : Nat) (legs : List Leg) : Nat :=
  (legs.map fun leg => effectiveFee whitelisted multiplier leg.rawFee).sum

/-- The rate of the whole spread: the slippage is charged once for each leg. -/
def legsTotal (whitelisted : Bool) (multiplier cash : Nat) (legs : List Leg) : Nat :=
  legsFee whitelisted multiplier legs +
    legs.length * slippageRate cash (legsPrincipal legs) (legsK legs)

/-! ### Words -/

theorem toNat_bps : bps.toNat = 1000000 := rfl

theorem toNat_wad : wad.toNat = 1000000000000000000 := rfl

theorem toNat_min (x cap : U256) : (if x ≤ cap then x else cap).toNat = min cap.toNat x.toNat := by
  split
  next h => exact (min_eq_right (BitVec.le_def.mp h)).symm
  next h =>
    rw [BitVec.le_def, not_le] at h
    exact (min_eq_left h.le).symm

theorem toNat_eq_zero {x : U256} : x.toNat = 0 ↔ x = 0 := by
  rw [← BitVec.toNat_inj]
  rfl

theorem exists_toNat {n : Nat} (h : n < 2 ^ 256) : ∃ word : U256, word.toNat = n :=
  ⟨BitVec.ofNat 256 n, (BitVec.toNat_ofNat n 256).trans (mod_eq_of_lt h)⟩

variable {price amount a rate anchor : U256} {toAsset : Bool}

theorem ok_zero_iff {n : Nat} (hn : n = 0) :
    (.ok 0 : Except MathError U256) = .ok a ↔ a.toNat = n := by
  rw [hn, toNat_eq_zero, ok.injEq, eq_comm]

theorem quoteLaneExactIn_eq_ok :
    quoteLaneExactIn price amount toAsset = .ok a ↔
      a.toNat = convertIn price.toNat amount.toNat toAsset := by
  rw [quoteLaneExactIn, convertIn]
  by_cases hprice : price = 0
  · rw [if_pos hprice]
    exact ok_zero_iff (by simp [hprice])
  rw [if_neg hprice]
  cases toAsset with
  | true => rw [if_pos rfl, if_pos rfl, fullMulDivDown_eq_ok hprice]
  | false =>
    rw [if_neg Bool.false_ne_true, if_neg Bool.false_ne_true, fullMulDivDown_eq_ok wad_ne_zero]

theorem quoteLaneExactOut_eq_ok :
    quoteLaneExactOut price amount toAsset = .ok a ↔
      a.toNat = convertOut price.toNat amount.toNat toAsset := by
  rw [quoteLaneExactOut, convertOut]
  by_cases hprice : price = 0
  · rw [if_pos hprice]
    refine ok_zero_iff ?_
    cases toAsset with
    | true | false => simp [hprice]
  rw [if_neg hprice]
  cases toAsset with
  | true => rw [if_pos rfl, if_pos rfl, fullMulDivUp_eq_ok wad_ne_zero]
  | false =>
    rw [if_neg Bool.false_ne_true, if_neg Bool.false_ne_true, fullMulDivUp_eq_ok hprice]

/-- The formula of `modeConvert`. -/
def convert (mode : QuoteMode) (price amount : Nat) (cashToAsset : Bool) : Nat :=
  if mode.isExactIn then convertIn price amount cashToAsset else convertOut price amount cashToAsset

theorem modeConvert_eq_ok {mode : QuoteMode} :
    modeConvert mode price amount toAsset = .ok a ↔
      a.toNat = convert mode price.toNat amount.toNat toAsset := by
  cases mode with
  | exactIn => exact quoteLaneExactIn_eq_ok
  | exactOut => exact quoteLaneExactOut_eq_ok

theorem principalCashValue_eq_ok {lane : LaneState} :
    principalCashValue lane = .ok a ↔
      a.toNat =
        convertIn (laneSlot0Price lane.slot0).toNat lane.totalPrincipalAmount.toNat false := by
  have hwide : (lane.totalPrincipalAmount.setWidth 256).toNat = lane.totalPrincipalAmount.toNat :=
    Word.toNat_setWidth_of_le (by decide)
  rw [principalCashValue]
  split
  next h =>
    rw [← hwide, h]
    exact ok_zero_iff (by simp [convertIn])
  · rw [quoteLaneExactIn_eq_ok, hwide]

theorem modeFee_eq_ok {exactIn : Bool} (hrate : rate.toNat + bps.toNat < 2 ^ 256) :
    modeFee exactIn anchor rate = .ok a ↔ a.toNat = spread exactIn anchor.toNat rate.toNat := by
  have hzero : anchor = 0 ∨ rate = 0 → spread exactIn anchor.toNat rate.toNat = 0 := by
    rintro (rfl | rfl)
    · simp [spread]
    · simp [spread]
  rw [modeFee]
  cases exactIn with
  | true =>
    rw [if_pos rfl, quoteLaneExactInFee]
    split
    next h => exact ok_zero_iff (hzero h)
    have hsum : (bps + rate).toNat = bps.toNat + rate.toNat := by
      rw [BitVec.toNat_add, mod_eq_of_lt (by omega)]
    have hadd : checkedAdd bps rate = .ok (bps + rate) := checkedAdd_eq_ok.mpr hsum
    have hne : bps + rate ≠ 0 := by
      rw [toNat_ne_zero, hsum, toNat_bps]
      omega
    rw [hadd, ok_bind, fullMulDivUp_eq_ok hne, hsum, spread, if_pos rfl]
  | false =>
    rw [if_neg Bool.false_ne_true, quoteLaneExactOutFee]
    split
    next h => exact ok_zero_iff (hzero h)
    · rw [fullMulDivUp_eq_ok (by decide), spread, if_neg Bool.false_ne_true]

/-- The division guard of the multiplier decides whether the product exceeds the cap. -/
theorem div_lt_iff_of_ne_zero {cap fee multiplier : U256} (h : multiplier ≠ 0) :
    cap / multiplier < fee ↔ cap.toNat < fee.toNat * multiplier.toNat := by
  rw [BitVec.lt_def, BitVec.toNat_udiv, div_lt_iff_lt_mul (toNat_ne_zero.mp h)]

/-- The fee of a leg is charged at its effective rate, whatever the multiplier. -/
theorem calculateFeeBpsForRouter_eq_ok {whitelisted : Bool} {multiplier raw : U256} :
    calculateFeeBpsForRouter whitelisted multiplier raw = .ok a ↔
      a.toNat = effectiveFee whitelisted multiplier.toNat raw.toNat := by
  have hfee := toNat_min raw bps
  rw [calculateFeeBpsForRouter, effectiveFee]
  generalize (if raw ≤ bps then raw else bps) = fee at hfee
  have hcap : fee.toNat ≤ bps.toNat := hfee ▸ min_le_left _ _
  rw [min_comm raw.toNat, ← hfee]
  cases whitelisted with
  | true =>
    rw [if_pos rfl, if_pos rfl, mul_one, min_eq_right hcap, ok.injEq, ← BitVec.toNat_inj,
      eq_comm]
  | false =>
    rw [if_neg Bool.false_ne_true, if_neg Bool.false_ne_true]
    split
    next h =>
      have hlt := (div_lt_iff_of_ne_zero h.1).mp h.2
      rw [min_eq_left hlt.le, ok.injEq, ← BitVec.toNat_inj, eq_comm]
    next h =>
      have hle : fee.toNat * multiplier.toNat ≤ bps.toNat := by
        by_cases hm : multiplier = 0
        · simp [hm]
        · exact Nat.le_of_not_lt fun hlt => h ⟨hm, (div_lt_iff_of_ne_zero hm).mpr hlt⟩
      have hword : (fee * multiplier).toNat = fee.toNat * multiplier.toNat := by
        rw [BitVec.toNat_mul, mod_eq_of_lt (hle.trans_lt bps.isLt)]
      rw [checkedMul_eq_ok.mpr hword, ok_bind, ok.injEq, ← BitVec.toNat_inj,
        toNat_min, hword, eq_comm]

theorem quoteLaneSlippageBps_eq_ok {cash principal k : U256} :
    quoteLaneSlippageBps cash principal k = .ok a ↔
      cash.toNat * k.toNat ⌈/⌉ principal.toNat < 2 ^ 256 ∧
        a.toNat = slippageRate cash.toNat principal.toNat k.toNat := by
  rw [quoteLaneSlippageBps, slippageRate]
  split
  next h =>
    have hzero : cash.toNat * k.toNat ⌈/⌉ principal.toNat = 0 := by
      rcases h with rfl | rfl | rfl
      · simp
      · simp
      · simp
    rw [hzero, zero_ceilDiv]
    simpa using ok_zero_iff (a := a) rfl
  next h =>
    simp only [not_or] at h
    constructor
    · intro hok
      obtain ⟨raw, hraw, hok⟩ := bind_eq_ok.mp hok
      obtain ⟨rounded, hrounded, hok⟩ := bind_eq_ok.mp hok
      rw [fullMulDivUp_eq_ok h.2.1] at hraw
      rw [ceilDiv_eq_ok (by decide), hraw] at hrounded
      rw [← ok.inj hok, toNat_min, hrounded]
      exact ⟨hraw ▸ raw.isLt, rfl⟩
    rintro ⟨hword, ha⟩
    obtain ⟨raw, hraw⟩ := exists_toNat hword
    obtain ⟨rounded, hrounded⟩ : ∃ rounded : U256,
        rounded.toNat = raw.toNat ⌈/⌉ slippageScale.toNat :=
      exists_toNat ((ceilDiv_le_iff_le_mul (by decide)).mpr (Nat.le_mul_of_pos_left _ (by decide))
        |>.trans_lt raw.isLt)
    refine bind_eq_ok.mpr ⟨raw, (fullMulDivUp_eq_ok h.2.1).mpr hraw, ?_⟩
    refine bind_eq_ok.mpr ⟨rounded, (ceilDiv_eq_ok (by decide)).mpr hrounded, ?_⟩
    rw [ok.injEq, ← BitVec.toNat_inj, toNat_min, hrounded, hraw, ha]

/-- A weighted term is at most its coefficient, so only the total principal can be too large. -/
theorem quoteLaneWeightedSlippageKBps_eq_ok {p k p' k' : U256} (fee fee' : Nat)
    (hk : k.toNat < 2 ^ 255) (hk' : k'.toNat < 2 ^ 255) :
    quoteLaneWeightedSlippageKBps p k p' k' = .ok a ↔ p.toNat + p'.toNat < 2 ^ 256 ∧
      a.toNat = legsK [⟨fee, p.toNat, k.toNat⟩, ⟨fee', p'.toNat, k'.toNat⟩] := by
  have hlegs : legsK [⟨fee, p.toNat, k.toNat⟩, ⟨fee', p'.toNat, k'.toNat⟩] = min bps.toNat
      (p.toNat * k.toNat ⌈/⌉ (p.toNat + p'.toNat) +
        p'.toNat * k'.toNat ⌈/⌉ (p.toNat + p'.toNat)) := by
    simp [legsK, legsPrincipal]
  rw [hlegs, quoteLaneWeightedSlippageKBps]
  by_cases hsum : p.toNat + p'.toNat < 2 ^ 256
  · obtain ⟨total, htotal⟩ := exists_toNat hsum
    rw [checkedAdd_eq_ok.mpr htotal, ok_bind, ← htotal]
    split
    next h =>
      rw [ok_zero_iff (n := 0) rfl, h]
      simp
    next h =>
      have hpos : 0 < total.toNat := toNat_ne_zero.mp h
      have hterm : ∀ {q j : U256}, q.toNat ≤ total.toNat →
          q.toNat * j.toNat ⌈/⌉ total.toNat ≤ j.toNat := fun hq =>
        (ceilDiv_le_iff_le_mul hpos).mpr (mul_le_mul_right _ hq)
      have hterm₁ := hterm (q := p) (j := k) (by omega)
      have hterm₂ := hterm (q := p') (j := k') (by omega)
      obtain ⟨first, hfirst⟩ := exists_toNat (hterm₁.trans_lt k.isLt)
      obtain ⟨second, hsecond⟩ := exists_toNat (hterm₂.trans_lt k'.isLt)
      obtain ⟨sum, hsum'⟩ : ∃ sum : U256, sum.toNat = first.toNat + second.toNat :=
        exists_toNat (by omega)
      rw [(fullMulDivUp_eq_ok h).mpr hfirst, ok_bind, (fullMulDivUp_eq_ok h).mpr hsecond,
        ok_bind, checkedAdd_eq_ok.mpr hsum', ok_bind, ok.injEq,
        ← BitVec.toNat_inj, toNat_min, hsum', hfirst, hsecond, eq_comm]
      exact (and_iff_right total.isLt).symm
  · have herror : checkedAdd p p' = .error .overflow :=
      checkedAdd_eq_error.mpr ⟨Nat.le_of_not_lt hsum, rfl⟩
    rw [herror, error_bind]
    exact iff_of_false (by simp) fun h => hsum h.1

/-! ### Bounds -/

section Bounds

variable {price amount cash anchor rate : Nat}

/-- Rounding up to a positive denominator does not exceed the dividend. -/
theorem ceilDiv_le_self (a d : Nat) : a ⌈/⌉ d ≤ a := by
  by_cases hd : 0 < d
  · exact (ceilDiv_le_iff_le_mul hd).mpr (Nat.le_mul_of_pos_left a hd)
  rw [Nat.eq_zero_of_not_pos hd, ceilDiv_zero]
  exact zero_le a

/-- The cash of an amount below `2 ^ 128`, at any price of 112 bits. -/
theorem convert_to_cash_lt (hprice : price < 2 ^ 112) (hamount : amount < 2 ^ 128) :
    convertIn price amount false < 2 ^ 182 ∧ convertOut price amount true < 2 ^ 182 := by
  have hproduct : amount * price ≤ (2 ^ 128 - 1) * (2 ^ 112 - 1) :=
    Nat.mul_le_mul (by omega) (by omega)
  rw [convertIn, convertOut, if_neg Bool.false_ne_true, if_pos rfl, toNat_wad]
  refine ⟨(div_lt_iff_lt_mul (by decide)).mpr (by omega), ?_⟩
  have hceil : amount * price ⌈/⌉ 1000000000000000000 ≤ 2 ^ 182 - 1 :=
    (ceilDiv_le_iff_le_mul (by decide)).mpr (by omega)
  omega

/-- From cash at a price of at least one unit, the anchor. -/
theorem convert_from_cash_lt (price : Nat) (hcash : cash < 2 ^ 182) :
    convertIn price cash true < 2 ^ 242 ∧ convertOut price cash false < 2 ^ 242 := by
  have hproduct : cash * wad.toNat < 2 ^ 242 := by
    rw [toNat_wad]
    omega
  exact ⟨(div_le_self _ _).trans_lt hproduct, (ceilDiv_le_self _ _).trans_lt hproduct⟩

theorem spread_le (exactIn : Bool) (anchor : Nat) (hrate : rate ≤ 3000000) :
    spread exactIn anchor rate ≤ 3 * anchor := by
  have hproduct : anchor * rate ≤ anchor * 3000000 := mul_le_mul_left anchor hrate
  rw [spread, toNat_bps]
  refine (ceilDiv_le_iff_le_mul (by split <;> omega)).mpr ?_
  split
  · rw [add_mul]
    omega
  · omega

/-- A larger rate takes no less, also where it enters the denominator. -/
theorem spread_mono {rate' : Nat} (exactIn : Bool) (anchor : Nat) (h : rate ≤ rate') :
    spread exactIn anchor rate ≤ spread exactIn anchor rate' := by
  cases exactIn with
  | false =>
    simp only [spread, Bool.false_eq_true, if_false]
    exact ceilDiv_mono (by decide) (mul_le_mul_left anchor h)
  | true =>
    simp only [spread, if_true]
    have hpos : 0 < bps.toNat + rate := Nat.add_pos_left (by decide) rate
    have hpos' : 0 < bps.toNat + rate' := Nat.add_pos_left (by decide) rate'
    have hceil := Word.mul_le_ceilDiv_mul (a := anchor * rate') hpos'
    generalize anchor * rate' ⌈/⌉ (bps.toNat + rate') = c at hceil
    refine (ceilDiv_le_iff_le_mul hpos).mpr ?_
    by_cases hc : anchor ≤ c
    · calc anchor * rate ≤ c * rate := mul_le_mul_right rate hc
        _ ≤ (bps.toNat + rate) * c := by rw [add_mul, mul_comm c]; omega
    -- what the anchor has over `c`, at the larger rate, is covered by `bps * c`
    obtain ⟨rest, rfl⟩ := Nat.exists_eq_add_of_lt (Nat.lt_of_not_le hc)
    have hrest : (rest + 1) * rate ≤ (rest + 1) * rate' := mul_le_mul_left _ h
    have hsplit : ∀ n, (c + rest + 1) * n = c * n + (rest + 1) * n := fun n => by ring
    have hsplit' : ∀ n, c * (bps.toNat + n) = bps.toNat * c + c * n := fun n => by ring
    rw [hsplit, hsplit'] at hceil
    rw [hsplit, mul_comm (bps.toNat + rate), hsplit']
    omega

theorem effectiveFee_le (whitelisted : Bool) (multiplier raw : Nat) :
    effectiveFee whitelisted multiplier raw ≤ 1000000 := min_le_left _ _

theorem slippageRate_le (cash principal k : Nat) : slippageRate cash principal k ≤ 100000 :=
  min_le_left _ _

theorem legsFee_le (whitelisted : Bool) (multiplier : Nat) (legs : List Leg) :
    legsFee whitelisted multiplier legs ≤ legs.length * 1000000 := by
  induction legs with
  | nil => exact le_refl 0
  | cons leg rest ih =>
    have hleg := effectiveFee_le whitelisted multiplier leg.rawFee
    simp only [legsFee, map_cons, sum_cons, length_cons] at ih ⊢
    omega

theorem legsTotal_le (whitelisted : Bool) (multiplier cash : Nat) {legs : List Leg}
    (hlegs : legs.length ≤ 2) : legsTotal whitelisted multiplier cash legs ≤ 3000000 := by
  have hfee := legsFee_le whitelisted multiplier legs
  have hslippage : legs.length * slippageRate cash (legsPrincipal legs) (legsK legs) ≤
      legs.length * 100000 := mul_le_mul_left _ (slippageRate_le _ _ _)
  rw [legsTotal]
  omega

end Bounds

/-! ### Dearer legs -/

/-- The same principal, at no smaller fee and no smaller slippage coefficient. -/
structure Leg.Dearer (leg leg' : Leg) : Prop where
  rawFee : leg.rawFee ≤ leg'.rawFee
  principal : leg.principal = leg'.principal
  k : leg.k ≤ leg'.k

section Dearer

variable {whitelisted : Bool} {multiplier multiplier' cash : Nat} {legs legs' : List Leg}

theorem effectiveFee_mono {raw raw' : Nat} (hmultiplier : multiplier ≤ multiplier')
    (hraw : raw ≤ raw') :
    effectiveFee whitelisted multiplier raw ≤ effectiveFee whitelisted multiplier' raw' := by
  refine min_le_min_left _ (Nat.mul_le_mul (min_le_min_right _ hraw) ?_)
  cases whitelisted with
  | true => exact le_refl 1
  | false => exact hmultiplier

theorem slippageRate_mono {principal k k' : Nat} (hk : k ≤ k') :
    slippageRate cash principal k ≤ slippageRate cash principal k' := by
  refine min_le_min_left _ (ceilDiv_mono (by decide) ?_)
  by_cases hprincipal : 0 < principal
  · exact ceilDiv_mono hprincipal (mul_le_mul_left cash hk)
  · rw [Nat.eq_zero_of_not_pos hprincipal, ceilDiv_zero, ceilDiv_zero]

theorem legsPrincipal_congr (h : List.Forall₂ Leg.Dearer legs legs') :
    legsPrincipal legs = legsPrincipal legs' := by
  induction h with
  | nil => rfl
  | cons hleg _ ih =>
    simp only [legsPrincipal, map_cons, sum_cons] at ih ⊢
    rw [hleg.principal, ih]

theorem legsFee_mono (hmultiplier : multiplier ≤ multiplier')
    (h : List.Forall₂ Leg.Dearer legs legs') :
    legsFee whitelisted multiplier legs ≤ legsFee whitelisted multiplier' legs' := by
  induction h with
  | nil => exact le_refl 0
  | cons hleg _ ih =>
    exact Nat.add_le_add (effectiveFee_mono hmultiplier hleg.rawFee) ih

/-- The weighted terms, each rounded up, over one common total. -/
theorem weightedK_mono (total : Nat) (h : List.Forall₂ Leg.Dearer legs legs') :
    (legs.map fun leg => leg.principal * leg.k ⌈/⌉ total).sum ≤
      (legs'.map fun leg => leg.principal * leg.k ⌈/⌉ total).sum := by
  induction h with
  | nil => exact le_refl 0
  | cons hleg _ ih =>
    simp only [map_cons, sum_cons]
    refine Nat.add_le_add ?_ ih
    by_cases htotal : 0 < total
    · rw [hleg.principal]
      exact ceilDiv_mono htotal (mul_le_mul_left _ hleg.k)
    · rw [Nat.eq_zero_of_not_pos htotal, ceilDiv_zero, ceilDiv_zero]

theorem legsK_mono (h : List.Forall₂ Leg.Dearer legs legs') : legsK legs ≤ legsK legs' := by
  have hweighted :
      min bps.toNat (legs.map fun leg => leg.principal * leg.k ⌈/⌉ legsPrincipal legs).sum ≤
      min bps.toNat (legs'.map fun leg => leg.principal * leg.k ⌈/⌉ legsPrincipal legs').sum := by
    rw [legsPrincipal_congr h]
    exact min_le_min_left _ (weightedK_mono _ h)
  cases h with
  | nil => exact hweighted
  | cons hleg hrest =>
    cases hrest with
    | nil => exact hleg.k
    | cons _ _ => exact hweighted

theorem legsTotal_mono (hmultiplier : multiplier ≤ multiplier')
    (h : List.Forall₂ Leg.Dearer legs legs') :
    legsTotal whitelisted multiplier cash legs ≤ legsTotal whitelisted multiplier' cash legs' := by
  rw [legsTotal, legsTotal, ← h.length_eq, ← legsPrincipal_congr h]
  exact Nat.add_le_add (legsFee_mono hmultiplier h)
    (mul_le_mul_left _ (slippageRate_mono (legsK_mono h)))

end Dearer

end Lunarbase.Math
