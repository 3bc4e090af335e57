import Lunarbase.Support.Outcome
import Lunarbase.Support.Word

/-!
# Math — Arithmetic

The fixed-width primitives of the quote engine (`arithmetic.rs`, `types.rs`).  `U256` is a
256-bit word; the full-width products go through a 512-bit intermediate.  Every function has one
specification over natural numbers, stated beside it: which result it returns, and when it reports
`overflow`.
-/

namespace Lunarbase

open Except BitVec Nat Word

/-- 256-bit EVM word. -/
abbrev U256 := BitVec 256

/-- 20-byte EVM account. -/
abbrev Address := BitVec 160

/-- 32-byte hash. -/
abbrev B256 := BitVec 256

namespace Math

/-- Failures of the arithmetic. -/
inductive MathError where
  | divisionByZero
  | overflow
  | fieldOverflow (field : String) (bits : Nat)
  deriving DecidableEq, Repr

/-- Fixed-point scale of prices. -/
def wad : U256 := 1000000000000000000#256

/-- Fee denominator. -/
def bps : U256 := 1000000#256

/-- Divisor applied to the raw slippage expression. -/
def slippageScale : U256 := 10#256

/-- Largest slippage charged. -/
def maxSlippageBps : U256 := 100000#256

def checkedAdd (x y : U256) : Except MathError U256 := .ofOption .overflow (Word.checkedAdd x y)

def checkedSub (x y : U256) : Except MathError U256 := .ofOption .overflow (Word.checkedSub x y)

def checkedMul (x y : U256) : Except MathError U256 := .ofOption .overflow (Word.checkedMul x y)

def ceilDiv (x denominator : U256) : Except MathError U256 :=
  if denominator = 0 then .error .divisionByZero
  else
    let quotient := x / denominator
    let remainder := x % denominator
    if remainder = 0 then .ok quotient else checkedAdd quotient 1

/-- `floor (x * y / denominator)` through a 512-bit product. -/
def fullMulDivDown (x y denominator : U256) : Except MathError U256 :=
  if denominator = 0 then .error .divisionByZero
  else
    let product := wideningMul 512 x y
    let quotient := product / denominator.setWidth 512
    .ofOption .overflow (checkedNarrow 256 quotient)

/-- `ceil (x * y / denominator)` through a 512-bit product. -/
def fullMulDivUp (x y denominator : U256) : Except MathError U256 :=
  if denominator = 0 then .error .divisionByZero
  else do
    let product := wideningMul 512 x y
    let denominator512 : BitVec 512 := denominator.setWidth 512
    let quotient := product / denominator512
    let remainder := product % denominator512
    let quotient ←
      (if remainder ≠ 0 then .ofOption .overflow (Word.checkedAdd quotient 1) else .ok quotient)
    .ofOption .overflow (checkedNarrow 256 quotient)

/-- `floor (x * y / denominator)` with the product itself checked at 256 bits. -/
def mulDivDown256 (x y denominator : U256) : Except MathError U256 :=
  if denominator = 0 then .error .divisionByZero
  else do
    let product ← checkedMul x y
    .ok (product / denominator)

/-! ### Specifications -/

section

variable {x y d r : U256} {e : MathError}

theorem toNat_ne_zero : d ≠ 0 ↔ 0 < d.toNat := by
  rw [Nat.pos_iff_ne_zero, ne_eq, ne_eq, ← toNat_inj]
  rfl

theorem checkedAdd_eq_ok : checkedAdd x y = .ok r ↔ r.toNat = x.toNat + y.toNat := by
  simp [checkedAdd, checkedAdd_eq_some]

theorem checkedAdd_eq_error :
    checkedAdd x y = .error e ↔ 2 ^ 256 ≤ x.toNat + y.toNat ∧ .overflow = e := by
  simp [checkedAdd, checkedAdd_eq_none]

theorem checkedSub_eq_ok : checkedSub x y = .ok r ↔ r.toNat + y.toNat = x.toNat := by
  simp [checkedSub, checkedSub_eq_some]

theorem checkedSub_eq_error : checkedSub x y = .error e ↔ x.toNat < y.toNat ∧ .overflow = e := by
  simp [checkedSub, checkedSub_eq_none]

theorem checkedMul_eq_ok : checkedMul x y = .ok r ↔ r.toNat = x.toNat * y.toNat := by
  simp [checkedMul, checkedMul_eq_some]

theorem checkedMul_eq_error :
    checkedMul x y = .error e ↔ 2 ^ 256 ≤ x.toNat * y.toNat ∧ .overflow = e := by
  simp [checkedMul, checkedMul_eq_none]

theorem toNat_setWidth_512 : (d.setWidth 512).toNat = d.toNat :=
  Word.toNat_setWidth_of_le (by decide)

theorem toNat_product : (wideningMul 512 x y).toNat = x.toNat * y.toNat :=
  toNat_wideningMul (by decide) (by decide)

theorem fullMulDivDown_eq_ok (hd : d ≠ 0) :
    fullMulDivDown x y d = .ok r ↔ r.toNat = x.toNat * y.toNat / d.toNat := by
  rw [fullMulDivDown, if_neg hd, ofOption_eq_ok, checkedNarrow_eq_some,
    toNat_udiv, toNat_product, toNat_setWidth_512]

theorem fullMulDivDown_eq_error (hd : d ≠ 0) :
    fullMulDivDown x y d = .error e ↔ 2 ^ 256 ≤ x.toNat * y.toNat / d.toNat ∧ .overflow = e := by
  rw [fullMulDivDown, if_neg hd, ofOption_eq_error, checkedNarrow_eq_none,
    toNat_udiv, toNat_product, toNat_setWidth_512]

/-- The 512-bit quotient of a rounded-up division never wraps: the rounded quotient of a product
of two words is below `2 ^ 512`. -/
theorem fullMulDivUp_eq (hd : d ≠ 0) :
    ∃ q : BitVec 512, q.toNat = x.toNat * y.toNat ⌈/⌉ d.toNat ∧
      fullMulDivUp x y d = .ofOption .overflow (Word.checkedNarrow 256 q) := by
  have hpos : 0 < d.toNat := toNat_ne_zero.mp hd
  have hxy : x.toNat * y.toNat + 1 < 2 ^ 512 := Word.mul_add_one_lt (by decide) (by decide)
  have hq : (Word.wideningMul 512 x y / d.setWidth 512).toNat = x.toNat * y.toNat / d.toNat := by
    rw [toNat_udiv, toNat_product, toNat_setWidth_512]
  have hr : (Word.wideningMul 512 x y % d.setWidth 512).toNat = x.toNat * y.toNat % d.toNat := by
    rw [toNat_umod, toNat_product, toNat_setWidth_512]
  have hle : x.toNat * y.toNat / d.toNat ≤ x.toNat * y.toNat := div_le_self _ _
  by_cases hrem : Word.wideningMul 512 x y % d.setWidth 512 = 0
  · refine ⟨Word.wideningMul 512 x y / d.setWidth 512, ?_, ?_⟩
    · have hz : x.toNat * y.toNat % d.toNat = 0 := by
        rw [← hr, hrem]
        exact toNat_zero
      rw [hq, Word.ceilDiv_eq_div_add hpos, if_pos hz, add_zero]
    · simp only [fullMulDivUp, hd, hrem, if_false, ne_eq, not_true_eq_false, ok_bind]
  have hnz : x.toNat * y.toNat % d.toNat ≠ 0 := by
    rw [← hr]
    exact fun h => hrem (eq_of_toNat_eq (h.trans toNat_zero.symm))
  have hsum : (Word.wideningMul 512 x y / d.setWidth 512).toNat + (1 : BitVec 512).toNat
      < 2 ^ 512 := by
    rw [hq, Word.toNat_one (by decide)]
    exact (Nat.add_le_add_right hle 1).trans_lt hxy
  refine ⟨Word.wideningMul 512 x y / d.setWidth 512 + 1, ?_, ?_⟩
  · rw [toNat_add_of_lt hsum, hq, Word.ceilDiv_eq_div_add hpos, if_neg hnz,
      Word.toNat_one (by decide)]
  · simp only [fullMulDivUp, hd, hrem, if_false, ne_eq, not_false_eq_true, if_true,
      Word.checkedAdd, hsum, ofOption_some, ok_bind]

theorem fullMulDivUp_eq_ok (hd : d ≠ 0) :
    fullMulDivUp x y d = .ok r ↔ r.toNat = x.toNat * y.toNat ⌈/⌉ d.toNat := by
  obtain ⟨q, hq, hf⟩ := fullMulDivUp_eq (x := x) (y := y) hd
  rw [hf, ofOption_eq_ok, checkedNarrow_eq_some, hq]

theorem fullMulDivUp_eq_error (hd : d ≠ 0) :
    fullMulDivUp x y d = .error e ↔ 2 ^ 256 ≤ x.toNat * y.toNat ⌈/⌉ d.toNat ∧ .overflow = e := by
  obtain ⟨q, hq, hf⟩ := fullMulDivUp_eq (x := x) (y := y) hd
  rw [hf, ofOption_eq_error, checkedNarrow_eq_none, hq]

/-- A rounded-up quotient is never larger than the dividend, so it always fits. -/
theorem ceilDiv_eq_ok (hd : d ≠ 0) : ceilDiv x d = .ok r ↔ r.toNat = x.toNat ⌈/⌉ d.toNat := by
  have hpos : 0 < d.toNat := toNat_ne_zero.mp hd
  have hrem : x % d = 0 ↔ x.toNat % d.toNat = 0 := by
    rw [← toNat_inj, toNat_umod]
    rfl
  rw [ceilDiv, if_neg hd, ceilDiv_eq_div_add hpos]
  by_cases h : x % d = 0
  · rw [if_pos h, if_pos (hrem.mp h), Except.ok.injEq, ← toNat_inj, toNat_udiv, add_zero, eq_comm]
  rw [if_neg h, if_neg (hrem.not.mp h), checkedAdd_eq_ok, toNat_udiv]
  rfl

theorem mulDivDown256_eq_ok (hd : d ≠ 0) :
    mulDivDown256 x y d = .ok r ↔
      x.toNat * y.toNat < 2 ^ 256 ∧ r.toNat = x.toNat * y.toNat / d.toNat := by
  rw [mulDivDown256, if_neg hd, bind_eq_ok]
  constructor
  · rintro ⟨p, hp, hr⟩
    rw [checkedMul_eq_ok] at hp
    rw [Except.ok.injEq] at hr
    rw [← hr, toNat_udiv, ← hp]
    exact ⟨p.isLt, rfl⟩
  rintro ⟨hlt, hr⟩
  refine ⟨BitVec.ofNat 256 (x.toNat * y.toNat), ?_, ?_⟩
  · rw [checkedMul_eq_ok, toNat_ofNat, mod_eq_of_lt hlt]
  · rw [Except.ok.injEq, ← toNat_inj, toNat_udiv, toNat_ofNat, mod_eq_of_lt hlt, hr]

end

end Math

end Lunarbase
