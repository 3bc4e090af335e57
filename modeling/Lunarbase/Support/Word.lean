import Mathlib.Data.Nat.Bitwise
import Mathlib.Algebra.Order.Floor.Div
import Mathlib.Tactic.Common
import Mathlib.Tactic.Ring

/-!
# Support — Word

Fixed-width words.  The checked operations return `none` where the mathematical result does not
fit, and each has one characterisation: it returns `r` exactly when `r` *is* the mathematical
result.  The wide product and the checked narrowing are the two halves of a multiplication whose
intermediate is allowed to be wider than its result.

A packed word is read and written field by field; `readField` and `writeField` take the position
and the width of the field.
-/

namespace Lunarbase

open BitVec Nat

namespace Word

variable {w v : Nat}

/-! ### Checked operations -/

/-- The sum, where it fits. -/
def checkedAdd (x y : BitVec w) : Option (BitVec w) :=
  if x.toNat + y.toNat < 2 ^ w then some (x + y) else none

/-- The difference, where it is not negative. -/
def checkedSub (x y : BitVec w) : Option (BitVec w) :=
  if y.toNat ≤ x.toNat then some (x - y) else none

/-- The product, where it fits. -/
def checkedMul (x y : BitVec w) : Option (BitVec w) :=
  if x.toNat * y.toNat < 2 ^ w then some (x * y) else none

/-- The same value at width `v`, where it fits. -/
def checkedNarrow (v : Nat) (x : BitVec w) : Option (BitVec v) :=
  if x.toNat < 2 ^ v then some (x.setWidth v) else none

/-- The product taken at width `v`. -/
def wideningMul (v : Nat) (x y : BitVec w) : BitVec v := x.setWidth v * y.setWidth v

variable {r x y word : BitVec w} {bits shift : Nat}

theorem checkedAdd_eq_some : checkedAdd x y = some r ↔ r.toNat = x.toNat + y.toNat := by
  unfold checkedAdd
  split
  case isTrue h =>
    rw [Option.some.injEq, ← toNat_inj, toNat_add, mod_eq_of_lt h, eq_comm]
  case isFalse h =>
    have := r.isLt
    simp only [reduceCtorEq, false_iff]
    omega

theorem checkedAdd_eq_none : checkedAdd x y = none ↔ 2 ^ w ≤ x.toNat + y.toNat := by
  unfold checkedAdd
  split <;> simp <;> omega

theorem checkedSub_eq_some : checkedSub x y = some r ↔ r.toNat + y.toNat = x.toNat := by
  unfold checkedSub
  split
  case isTrue h =>
    rw [Option.some.injEq, ← toNat_inj, toNat_sub_of_le (le_def.mpr h)]
    omega
  case isFalse h =>
    simp only [reduceCtorEq, false_iff]
    omega

theorem checkedSub_eq_none : checkedSub x y = none ↔ x.toNat < y.toNat := by
  unfold checkedSub
  split <;> simp <;> omega

theorem checkedMul_eq_some : checkedMul x y = some r ↔ r.toNat = x.toNat * y.toNat := by
  unfold checkedMul
  split
  case isTrue h =>
    rw [Option.some.injEq, ← toNat_inj, toNat_mul, mod_eq_of_lt h, eq_comm]
  case isFalse h =>
    have := r.isLt
    simp only [reduceCtorEq, false_iff]
    omega

theorem checkedMul_eq_none : checkedMul x y = none ↔ 2 ^ w ≤ x.toNat * y.toNat := by
  unfold checkedMul
  split <;> simp <;> omega

theorem checkedNarrow_eq_some {r : BitVec v} : checkedNarrow v x = some r ↔ r.toNat = x.toNat := by
  unfold checkedNarrow
  split
  case isTrue h =>
    rw [Option.some.injEq, ← toNat_inj, toNat_setWidth, mod_eq_of_lt h, eq_comm]
  case isFalse h =>
    have := r.isLt
    simp only [reduceCtorEq, false_iff]
    omega

theorem checkedNarrow_eq_none : checkedNarrow v x = none ↔ 2 ^ v ≤ x.toNat := by
  unfold checkedNarrow
  split <;> simp <;> omega

theorem toNat_one (hw : 0 < w) : (1 : BitVec w).toNat = 1 := by
  rw [ofNat_eq_ofNat, toNat_ofNat, Nat.mod_eq_of_lt (Nat.one_lt_two_pow (by omega))]

theorem toNat_setWidth_of_le (h : w ≤ v) : (x.setWidth v).toNat = x.toNat := by
  rw [toNat_setWidth, Nat.mod_eq_of_lt (x.isLt.trans_le (Nat.pow_le_pow_right (by omega) h))]

/-- Twice the width holds the product of two words, and one more. -/
theorem mul_add_one_lt (hw : 0 < w) (h : 2 * w ≤ v) : x.toNat * y.toNat + 1 < 2 ^ v := by
  have hx : x.toNat ≤ 2 ^ w - 1 := le_pred_of_lt x.isLt
  have hy : y.toNat ≤ 2 ^ w - 1 := le_pred_of_lt y.isLt
  obtain ⟨m, hm⟩ : ∃ m, 2 ^ w = m + 2 :=
    ⟨2 ^ w - 2, by have := Nat.one_lt_two_pow (n := w) (by omega); omega⟩
  calc x.toNat * y.toNat + 1 ≤ (2 ^ w - 1) * (2 ^ w - 1) + 1 := by
        exact Nat.add_le_add_right (Nat.mul_le_mul hx hy) 1
    _ < 2 ^ w * 2 ^ w := by rw [hm]; simp only [add_succ_sub_one]; ring_nf; omega
    _ = 2 ^ (2 * w) := by rw [← pow_add]; congr 1; omega
    _ ≤ 2 ^ v := Nat.pow_le_pow_right (by omega) h

/-- At twice the width no product of two words wraps. -/
theorem toNat_wideningMul (hw : 0 < w) (h : 2 * w ≤ v) :
    (wideningMul v x y).toNat = x.toNat * y.toNat := by
  have hp : x.toNat * y.toNat + 1 < 2 ^ v := mul_add_one_lt hw h
  rw [wideningMul, toNat_mul, toNat_setWidth_of_le (by omega),
    toNat_setWidth_of_le (by omega), mod_eq_of_lt (by omega)]

/-- Rounding up, as a quotient and a correction for the remainder. -/
theorem ceilDiv_eq_div_add {a d : Nat} (hd : 0 < d) :
    a ⌈/⌉ d = a / d + if a % d = 0 then 0 else 1 := by
  rw [ceilDiv_eq_add_pred_div]
  have hdiv := div_add_mod a d
  have hmod := mod_lt a hd
  split
  case isTrue h =>
    rw [Nat.add_zero, Nat.div_eq_iff hd]
    have : a = a / d * d := by rw [mul_comm]; omega
    omega
  case isFalse h =>
    rw [Nat.div_eq_iff hd, Nat.add_mul, Nat.mul_comm]
    omega

theorem mul_le_ceilDiv_mul {a d : Nat} (hd : 0 < d) : a ≤ a ⌈/⌉ d * d := by
  rw [mul_comm]
  exact le_smul_ceilDiv hd

/-! ### Packed fields -/

/-- The low `bits` bits. -/
def fieldMask (w bits : Nat) : BitVec w := (1#w <<< bits) - 1#w

/-- The `bits` bits of `word` above position `shift`. -/
def readField (word : BitVec w) (shift bits : Nat) : BitVec w :=
  (word >>> shift) &&& fieldMask w bits

/-- `word` with the field of `bits` bits above `shift` replaced by the low bits of `value`. -/
def writeField (word value : BitVec w) (shift bits : Nat) : BitVec w :=
  let shiftedMask := fieldMask w bits <<< shift
  (word &&& ~~~shiftedMask) ||| ((value &&& fieldMask w bits) <<< shift)

theorem toNat_fieldMask (h : bits < w) : (fieldMask w bits).toNat = 2 ^ bits - 1 := by
  have hlt : 2 ^ bits < 2 ^ w := Nat.pow_lt_pow_right (by omega) h
  have hone : (1#w).toNat = 1 := by
    rw [toNat_ofNat, Nat.mod_eq_of_lt (Nat.one_lt_two_pow (by omega))]
  have hshift : (1#w <<< bits).toNat = 2 ^ bits := by
    rw [toNat_shiftLeft, hone, Nat.shiftLeft_eq, one_mul, Nat.mod_eq_of_lt hlt]
  have hle : 1#w ≤ 1#w <<< bits := by
    rw [le_def, hone, hshift]
    exact Nat.one_le_two_pow
  rw [fieldMask, toNat_sub_of_le hle, hshift, hone]

theorem toNat_readField (h : bits < w) :
    (readField word shift bits).toNat = word.toNat / 2 ^ shift % 2 ^ bits := by
  rw [readField, toNat_and, toNat_fieldMask h, toNat_ushiftRight,
    and_two_pow_sub_one_eq_mod, shiftRight_eq_div_pow]

theorem readField_lt (h : bits < w) : (readField word shift bits).toNat < 2 ^ bits := by
  rw [toNat_readField h]
  exact Nat.mod_lt _ (Nat.two_pow_pos bits)

/-- A field keeps its value in a type that is wide enough for it. -/
theorem toNat_setWidth_readField (h : bits < w) (hle : bits ≤ v) :
    ((readField word shift bits).setWidth v).toNat = (readField word shift bits).toNat := by
  rw [toNat_setWidth, mod_eq_of_lt]
  exact (readField_lt h).trans_le (Nat.pow_le_pow_right (by omega) hle)

end Word

end Lunarbase
