import Mathlib.Algebra.Group.Nat.Defs
import Mathlib.Algebra.Order.Ring.Nat
import Mathlib.Data.List.DropRight
import Mathlib.Tactic.Common

/-!
# Support — LuaNumber

Numbers of a Lua script that come from decimal texts.  Lua keeps a number as a double, so a natural
number is read as the nearest one with 53 significant bits (`toDouble`), and `tostring` writes it
with `%.14g`: from `10 ^ 14` on in scientific form, with fourteen digits.

Rounding is monotone, so a strict comparison of two numbers read this way is one of the numbers
themselves (`lt_of_toDouble_lt`).
-/

namespace Lunarbase.Lua

open Nat

/-- `n / unit` rounded to the nearest integer, ties to even. -/
def roundHalfEven (n unit : Nat) : Nat :=
  if 2 * (n % unit) < unit ∨ (2 * (n % unit) = unit ∧ n / unit % 2 = 0) then n / unit
  else n / unit + 1

/-- The nearest double. -/
def toDouble (n : Nat) : Nat :=
  if n < 2 ^ 53 then n
  else roundHalfEven n (2 ^ (n.log2 - 52)) * 2 ^ (n.log2 - 52)

/-- `tonumber` of a decimal text. -/
def tonumber (text : List Char) : Nat := toDouble (Nat.ofDigitChars 10 text 0)

/-- The digits of a mantissa without the zeros at its end, a point after the first. -/
def mantissa (digits : List Char) : List Char :=
  match digits.rdropWhile (· = '0') with
  | [] => []
  | first :: [] => [first]
  | first :: rest => first :: '.' :: rest

/-- `%.14g` of a number with more than fourteen digits. -/
def scientific (n : Nat) : List Char :=
  let length := (Nat.toDigits 10 n).length
  let rounded := roundHalfEven n (10 ^ (length - 14))
  -- rounding up may carry into one more digit
  let (digits, exponent) :=
    if rounded = 10 ^ 14 then (10 ^ 13, length) else (rounded, length - 1)
  mantissa (Nat.toDigits 10 digits) ++ 'e' :: '+' :: Nat.toDigits 10 exponent

def tostring (n : Nat) : List Char := if n < 10 ^ 14 then Nat.toDigits 10 n else scientific n

/-- What `tonumber` reads back from `tostring`: the digits beyond the fourteenth are lost. -/
def reread (n : Nat) : Nat :=
  if n < 10 ^ 14 then toDouble n
  else
    let unit := 10 ^ ((Nat.toDigits 10 n).length - 14)
    toDouble (roundHalfEven n unit * unit)

variable {n m : Nat}

theorem tostring_of_lt (h : n < 10 ^ 14) : tostring n = Nat.toDigits 10 n := if_pos h

theorem div_le_roundHalfEven (n unit : Nat) : n / unit ≤ roundHalfEven n unit := by
  rw [roundHalfEven]
  split
  · exact le_rfl
  · exact le_succ _

theorem roundHalfEven_le (n unit : Nat) : roundHalfEven n unit ≤ n / unit + 1 := by
  rw [roundHalfEven]
  split
  · exact le_succ _
  · exact le_rfl

theorem roundHalfEven_mono (unit : Nat) (h : m ≤ n) :
    roundHalfEven m unit ≤ roundHalfEven n unit := by
  have hquotient : m / unit ≤ n / unit := Nat.div_le_div_right h
  rcases hquotient.lt_or_eq with hlt | heq
  · calc roundHalfEven m unit ≤ m / unit + 1 := roundHalfEven_le m unit
      _ ≤ n / unit := hlt
      _ ≤ roundHalfEven n unit := div_le_roundHalfEven n unit
  -- on one quotient the remainders are ordered like the numbers
  have hremainder : m % unit ≤ n % unit := by
    have hm := div_add_mod m unit
    have hn := div_add_mod n unit
    rw [heq] at hm
    omega
  unfold roundHalfEven
  rw [heq]
  split
  · split
    · exact le_rfl
    · exact le_succ _
  next hup =>
    rw [if_neg ?_]
    rintro (hlow | ⟨htie, heven⟩)
    · exact hup (.inl (by omega))
    · exact hup (by omega)

/-- A double is at least the power of two below the number, and at most the next one. -/
theorem toDouble_bounds (h : 2 ^ 53 ≤ n) :
    2 ^ n.log2 ≤ toDouble n ∧ toDouble n ≤ 2 ^ (n.log2 + 1) := by
  have hpos : n ≠ 0 := by omega
  have hlog : 53 ≤ n.log2 := (le_log2 hpos).mpr h
  have hlow : 2 ^ 52 * 2 ^ (n.log2 - 52) = 2 ^ n.log2 := by
    rw [← pow_add]
    congr 1
    omega
  have hhigh : 2 ^ 53 * 2 ^ (n.log2 - 52) = 2 ^ (n.log2 + 1) := by
    rw [← pow_add]
    congr 1
    omega
  have hunit : 0 < 2 ^ (n.log2 - 52) := Nat.pow_pos (by decide)
  rw [toDouble, if_neg (not_lt.mpr h)]
  constructor
  · rw [← hlow]
    refine mul_le_mul_right _ (le_trans ?_ (div_le_roundHalfEven _ _))
    rw [le_div_iff_mul_le hunit, hlow]
    exact (le_log2 hpos).mp le_rfl
  rw [← hhigh]
  refine mul_le_mul_right _ (le_trans (roundHalfEven_le _ _) ?_)
  refine succ_le_of_lt ((div_lt_iff_lt_mul hunit).mpr ?_)
  rw [hhigh]
  exact lt_log2_self

theorem toDouble_of_lt (h : n < 2 ^ 53) : toDouble n = n := if_pos h

theorem reread_of_lt (h : n < 10 ^ 14) : reread n = n := by
  rw [reread, if_pos h, toDouble_of_lt (by omega)]

theorem toDouble_mono (h : m ≤ n) : toDouble m ≤ toDouble n := by
  by_cases hm : m < 2 ^ 53
  · rw [toDouble_of_lt hm]
    by_cases hn : n < 2 ^ 53
    · rw [toDouble_of_lt hn]
      exact h
    have hlog : 53 ≤ n.log2 := (le_log2 (by omega)).mpr (not_lt.mp hn)
    calc m ≤ 2 ^ 53 := hm.le
      _ ≤ 2 ^ n.log2 := Nat.pow_le_pow_right (by decide) hlog
      _ ≤ toDouble n := (toDouble_bounds (not_lt.mp hn)).1
  have hn : 2 ^ 53 ≤ n := (not_lt.mp hm).trans h
  have hlogs : m.log2 ≤ n.log2 :=
    (le_log2 (by omega)).mpr (((le_log2 (by omega)).mp le_rfl).trans h)
  rcases hlogs.lt_or_eq with hlt | heq
  · calc toDouble m ≤ 2 ^ (m.log2 + 1) := (toDouble_bounds (not_lt.mp hm)).2
      _ ≤ 2 ^ n.log2 := Nat.pow_le_pow_right (by decide) hlt
      _ ≤ toDouble n := (toDouble_bounds hn).1
  · rw [toDouble, if_neg hm, toDouble, if_neg (not_lt.mpr hn), heq]
    exact mul_le_mul_right _ (roundHalfEven_mono _ h)

/-- What compares as smaller is smaller. -/
theorem lt_of_toDouble_lt (h : toDouble m < toDouble n) : m < n :=
  not_le.mp fun hle => absurd (toDouble_mono hle) (not_le.mpr h)

@[simp] theorem tonumber_toDigits (n : Nat) : tonumber (Nat.toDigits 10 n) = toDouble n :=
  congrArg toDouble ofDigitChars_ten_toDigits

end Lunarbase.Lua
