import Mathlib.Algebra.Group.Nat.Defs
import Mathlib.Data.List.Basic
import Mathlib.Data.List.Lex
import Mathlib.Data.Nat.Log
import Mathlib.Order.Interval.Set.Defs
import Mathlib.Order.Lattice
import Mathlib.Tactic.Common
import Mathlib.Tactic.Tauto

/-!
# Support — Digits

Numbers written with a fixed number of digits.  `padDigits base len n` are the `len` low digits of
`n`, most significant first; below `base ^ len` they determine the number and are in its order.
-/

namespace Lunarbase.Digits

open List Nat

/-- The `len` low digits of `n` in `base`, most significant first. -/
def padDigits (base : Nat) : Nat → Nat → List Nat
  | 0, _ => []
  | len + 1, n => padDigits base len (n / base) ++ [n % base]

@[simp] theorem length_padDigits (base len n : Nat) : (padDigits base len n).length = len := by
  induction len generalizing n with
  | zero => rfl
  | succ len ih => simp [padDigits, ih]

theorem lt_of_mem_padDigits {base len n d : Nat} (hb : 0 < base) (h : d ∈ padDigits base len n) :
    d < base := by
  induction len generalizing n with
  | zero => cases h
  | succ len ih =>
    rcases mem_append.mp h with h | h
    · exact ih h
    rw [mem_singleton.mp h]
    exact mod_lt _ hb

variable {α : Type*} {render : Nat → α}

/-- Below `base ^ len` a number is determined by its rendered digits, for any rendering that keeps
the digits apart. -/
theorem map_padDigits_inj {base len m n : Nat} (hb : 0 < base)
    (hr : ∀ d < base, ∀ e < base, render d = render e → d = e)
    (hm : m < base ^ len) (hn : n < base ^ len)
    (h : (padDigits base len m).map render = (padDigits base len n).map render) : m = n := by
  induction len generalizing m n with
  | zero => simp only [pow_zero, lt_one_iff] at hm hn; rw [hm, hn]
  | succ len ih =>
    simp only [padDigits, map_append] at h
    obtain ⟨hhigh, hlow⟩ := append_inj' h rfl
    have hdiv : m / base = n / base := by
      refine ih ?_ ?_ hhigh
      · exact Nat.div_lt_of_lt_mul (by rwa [Nat.pow_succ, Nat.mul_comm] at hm)
      · exact Nat.div_lt_of_lt_mul (by rwa [Nat.pow_succ, Nat.mul_comm] at hn)
    have hmod : m % base = n % base :=
      hr _ (mod_lt _ hb) _ (mod_lt _ hb) (by simpa using hlow)
    rw [← div_add_mod m base, hdiv, hmod, div_add_mod]

/-- Behind parts of one length the rests decide. -/
theorem append_lt_append_iff [LinearOrder α] {x y : List α} :
    ∀ {a b : List α}, a.length = b.length → (a ++ x < b ++ y ↔ a < b ∨ a = b ∧ x < y)
  | [], [], _ => by simp
  | c :: a, d :: b, h => by
      have ih := append_lt_append_iff (x := x) (y := y) (Nat.succ.inj h)
      simp only [cons_append, cons_lt_cons_iff, ih, List.cons.injEq]
      tauto

variable {base len n : Nat}

/-- Below `base ^ len` the rendered digits are in the order of the numbers, for any rendering that
keeps the order of the digits. -/
theorem strictMonoOn_map_padDigits [LinearOrder α]
    (hb : 0 < base) (hr : ∀ e < base, ∀ d < e, render d < render e) (len : Nat) :
    StrictMonoOn (fun n => (padDigits base len n).map render) (Set.Iio (base ^ len)) := by
  induction len with
  | zero =>
    intro m hm n hn h
    simp only [pow_zero, Set.mem_Iio] at hm hn
    omega
  | succ len ih =>
    intro m hm n hn h
    have hm' : m / base < base ^ len := by rwa [div_lt_iff_lt_mul hb, ← pow_succ]
    have hn' : n / base < base ^ len := by rwa [div_lt_iff_lt_mul hb, ← pow_succ]
    simp only [padDigits, map_append]
    rw [append_lt_append_iff (by simp)]
    rcases (Nat.div_le_div_right (c := base) h.le).lt_or_eq with hlt | heq
    · exact .inl (ih hm' hn' hlt)
    have hlow : m % base < n % base := by
      have hmod := div_add_mod m base
      have hmod' := div_add_mod n base
      rw [heq] at hmod
      omega
    refine .inr ⟨by rw [heq], ?_⟩
    simpa [cons_lt_cons_iff] using hr _ (mod_lt n hb) _ hlow

/-- A number that needs all its digits is written the same with and without padding. -/
theorem map_padDigits_eq_toDigits (hlow : 10 ^ len ≤ n) (hhigh : n < 10 ^ (len + 1)) :
    (padDigits 10 (len + 1) n).map Nat.digitChar = Nat.toDigits 10 n := by
  induction len generalizing n with
  | zero =>
    have hmod : n % 10 = n := mod_eq_of_lt (by simpa using hhigh)
    rw [toDigits_of_lt_base (by simpa using hhigh)]
    simp [padDigits, hmod]
  | succ len ih =>
    have hbase : 10 ≤ n := by
      exact le_trans (le_self_pow (succ_ne_zero len) 10) hlow
    rw [padDigits, map_append, ih, toDigits_of_base_le (by decide) hbase]
    · rfl
    · rw [le_div_iff_mul_le (by decide), ← pow_succ]
      exact hlow
    · rw [div_lt_iff_lt_mul (by decide), ← pow_succ]
      exact hhigh

/-- The padded digits are those of the number. -/
theorem ofDigitChars_padDigits (h : n < 10 ^ len) :
    Nat.ofDigitChars 10 ((padDigits 10 len n).map Nat.digitChar) 0 = n := by
  induction len generalizing n with
  | zero =>
    have hzero : n = 0 := by simpa using h
    rw [hzero]
    rfl
  | succ len ih =>
    have hdigit : (Nat.digitChar (n % 10)).toNat - '0'.toNat = n % 10 := by
      rw [toNat_digitChar_of_lt_ten (mod_lt _ (by decide))]
      exact Nat.add_sub_cancel_left 48 (n % 10)
    have hdiv : n / 10 < 10 ^ len := by
      rw [div_lt_iff_lt_mul (by decide), ← pow_succ]
      exact h
    have hfront := ih hdiv
    rw [Nat.ofDigitChars] at hfront ⊢
    rw [padDigits, map_append, foldl_append, hfront]
    change 10 * (n / 10) + ((Nat.digitChar (n % 10)).toNat - '0'.toNat) = n
    rw [hdigit]
    exact div_add_mod n 10

end Lunarbase.Digits
