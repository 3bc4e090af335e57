import Lunarbase.Support.Word
import Mathlib.Data.List.Pairwise

/-!
# Support — Packed

Words made of bit fields.  A field is a position and a width; a word is read field by field
(`Word.readField`), written one field at a time (`Word.writeField`), or put together from all of
them (`packFields`).

* `readField_writeField`, `readField_writeField_of_apart`: a write is seen by a read of its own
  field and by no read of a field apart from it;
* `readField_packFields`, `packFields_readFields`: putting together fields that are apart, and
  reading fields that cover the word, undo each other.
-/

namespace Lunarbase

open BitVec Bool Nat

namespace Word

variable {w : Nat} {word value : BitVec w} {shift bits shift' bits' : Nat}

/-- Two fields without a common bit. -/
def Apart (shift bits shift' bits' : Nat) : Prop := shift + bits ≤ shift' ∨ shift' + bits' ≤ shift

instance : Decidable (Apart shift bits shift' bits') := inferInstanceAs (Decidable (_ ∨ _))

theorem getLsbD_fieldMask (h : bits < w) (i : Nat) :
    (fieldMask w bits).getLsbD i = decide (i < bits) := by
  rw [BitVec.getLsbD, toNat_fieldMask h, testBit_two_pow_sub_one]

theorem getLsbD_readField (h : bits < w) (i : Nat) :
    (readField word shift bits).getLsbD i = (word.getLsbD (shift + i) && decide (i < bits)) := by
  rw [readField, getLsbD_and, getLsbD_ushiftRight, getLsbD_fieldMask h]

/-- The bits of the field are those of the value, the others are as before. -/
theorem getLsbD_writeField (h : shift + bits ≤ w) (hbits : bits < w) (i : Nat) :
    (writeField word value shift bits).getLsbD i =
      if shift ≤ i ∧ i < shift + bits then value.getLsbD (i - shift) else word.getLsbD i := by
  simp only [writeField, getLsbD_or, getLsbD_and, getLsbD_not,
    getLsbD_shiftLeft, getLsbD_fieldMask hbits]
  by_cases hi : i < w
  · by_cases hlow : i < shift
    · simp [hi, hlow, not_le.mpr hlow]
    have hle : shift ≤ i := Nat.le_of_not_lt hlow
    by_cases hin : i < shift + bits
    · have hoff : i - shift < bits := by omega
      simp [hi, hlow, hle, hin, hoff]
    · have hoff : ¬ i - shift < bits := by omega
      simp [hi, hlow, hin, hoff]
  · have hout : ¬ (shift ≤ i ∧ i < shift + bits) := by omega
    rw [if_neg hout, getLsbD_of_ge word i (Nat.le_of_not_lt hi)]
    simp [hi]

theorem readField_writeField_of_apart (h : shift + bits ≤ w) (hbits : bits < w) (hbits' : bits' < w)
    (hapart : Apart shift bits shift' bits') :
    readField (writeField word value shift bits) shift' bits' = readField word shift' bits' := by
  refine eq_of_getLsbD_eq fun i _ => ?_
  rw [getLsbD_readField hbits', getLsbD_readField hbits', getLsbD_writeField h hbits]
  by_cases hi : i < bits'
  · have hout : ¬ (shift ≤ shift' + i ∧ shift' + i < shift + bits) := by
      rintro ⟨hle, hlt⟩
      rcases hapart with habove | hbelow
      · omega
      · omega
    rw [if_neg hout]
  · simp [hi]

/-- A field reads back as what was written, cut to its width. -/
theorem readField_writeField (h : shift + bits ≤ w) (hbits : bits < w) :
    readField (writeField word value shift bits) shift bits = value &&& fieldMask w bits := by
  refine eq_of_getLsbD_eq fun i _ => ?_
  rw [getLsbD_readField hbits, getLsbD_writeField h hbits, getLsbD_and, getLsbD_fieldMask hbits]
  by_cases hi : i < bits
  · have hin : shift ≤ shift + i ∧ shift + i < shift + bits := by omega
    rw [if_pos hin, Nat.add_sub_cancel_left]
  · simp [hi]

theorem and_fieldMask_of_lt (hbits : bits < w) (hvalue : value.toNat < 2 ^ bits) :
    value &&& fieldMask w bits = value := by
  refine eq_of_toNat_eq ?_
  rw [toNat_and, toNat_fieldMask hbits, and_two_pow_sub_one_eq_mod, mod_eq_of_lt hvalue]

/-- A value has no bit beyond a width that it fits into. -/
theorem lt_of_getLsbD (hvalue : value.toNat < 2 ^ bits) {i : Nat} (hi : value.getLsbD i = true) :
    i < bits := by
  by_contra hge
  have hzero : value.toNat.testBit i = false :=
    Nat.testBit_lt_two_pow
      (hvalue.trans_le (Nat.pow_le_pow_right (by decide) (Nat.le_of_not_lt hge)))
  rw [BitVec.getLsbD, hzero] at hi
  cases hi

/-! ### Whole words -/

/-- A field and what it holds. -/
structure Part (w : Nat) where
  shift : Nat
  bits : Nat
  value : BitVec w

/-- No two of the parts have a common bit. -/
def Part.Apart (part other : Part w) : Prop :=
  Word.Apart part.shift part.bits other.shift other.bits

instance : Std.Symm (Part.Apart (w := w)) := ⟨fun _ _ => Or.symm⟩

/-- The parts of a word, put into place one after the other. -/
def packFields (start : BitVec w) (parts : List (Part w)) : BitVec w :=
  parts.foldl (fun word part => word ||| part.value <<< part.shift) start

theorem getLsbD_packFields (start : BitVec w) (parts : List (Part w)) (i : Nat) :
    (packFields start parts).getLsbD i = true ↔ start.getLsbD i = true ∨
      ∃ part ∈ parts, part.shift ≤ i ∧ i < w ∧ part.value.getLsbD (i - part.shift) = true := by
  induction parts generalizing start with
  | nil => simp [packFields]
  | cons part rest ih =>
    have hstep : packFields start (part :: rest) =
        packFields (start ||| part.value <<< part.shift) rest := rfl
    rw [hstep, ih, getLsbD_or, getLsbD_shiftLeft]
    simp only [or_eq_true, and_eq_true, decide_eq_true_eq, not_eq_true',
      decide_eq_false_iff_not, not_lt, List.exists_mem_cons_iff]
    constructor
    · rintro ((hstart | ⟨⟨hi, hle⟩, hbit⟩) | hrest)
      · exact .inl hstart
      · exact .inr (.inl ⟨hle, hi, hbit⟩)
      · exact .inr (.inr hrest)
    rintro (hstart | ⟨hle, hi, hbit⟩ | hrest)
    · exact .inl (.inl hstart)
    · exact .inl (.inr ⟨⟨hi, hle⟩, hbit⟩)
    · exact .inr hrest

variable {parts : List (Part w)}

/-- What is put into a field apart from the others is read back. -/
theorem readField_packFields {part : Part w} (hmem : part ∈ parts)
    (hin : part.shift + part.bits ≤ w) (hbits : part.bits < w)
    (hfits : ∀ other ∈ parts, other.value.toNat < 2 ^ other.bits)
    (hapart : parts.Pairwise Part.Apart) :
    readField (packFields 0 parts) part.shift part.bits = part.value := by
  refine eq_of_getLsbD_eq fun i _ => eq_iff_iff.mpr ?_
  rw [getLsbD_readField hbits, and_eq_true, decide_eq_true_eq, getLsbD_packFields]
  constructor
  · rintro ⟨hzero | ⟨other, hother, hle, -, hbit⟩, hi⟩
    · simp at hzero
    by_cases heq : other = part
    · rwa [heq, Nat.add_sub_cancel_left] at hbit
    have hlt := lt_of_getLsbD (hfits other hother) hbit
    rcases hapart.forall hother hmem heq with habove | hbelow
    · omega
    · omega
  · intro hbit
    have hi : i < part.bits := lt_of_getLsbD (hfits part hmem) hbit
    refine ⟨.inr ⟨part, hmem, le_add_right _ _, by omega, ?_⟩, hi⟩
    rwa [Nat.add_sub_cancel_left]

/-- A word is put together again from fields that cover it. -/
theorem packFields_readFields (hbits : ∀ part ∈ parts, part.bits < w)
    (hread : ∀ part ∈ parts, part.value = readField word part.shift part.bits)
    (hcover : ∀ i < w, ∃ part ∈ parts, part.shift ≤ i ∧ i < part.shift + part.bits) :
    packFields 0 parts = word := by
  refine eq_of_getLsbD_eq fun i hi => eq_iff_iff.mpr ?_
  rw [getLsbD_packFields]
  constructor
  · rintro (hzero | ⟨part, hpart, hle, -, hbit⟩)
    · simp at hzero
    rw [hread part hpart, getLsbD_readField (hbits part hpart), and_eq_true,
      Nat.add_sub_cancel' hle] at hbit
    exact hbit.1
  intro hbit
  obtain ⟨part, hpart, hle, hlt⟩ := hcover i hi
  refine .inr ⟨part, hpart, hle, hi, ?_⟩
  rw [hread part hpart, getLsbD_readField (hbits part hpart), Nat.add_sub_cancel' hle, hbit,
    Bool.true_and]
  exact decide_eq_true (by omega)

end Word

end Lunarbase
