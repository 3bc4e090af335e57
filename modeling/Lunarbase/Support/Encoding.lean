import Mathlib.Data.List.Basic
import Mathlib.Tactic.Common

/-!
# Support — Encoding

Encodings that can be read back from the front of a longer message: where two messages agree, so
do their first fields and what follows them.
-/

namespace Lunarbase

open List

variable {α β γ δ : Type*}

/-- A message that starts with an encoded value determines the encoding and the rest. -/
def Delimited (encode : α → List β) : Prop :=
  ∀ ⦃a b : α⦄ ⦃rest rest' : List β⦄, encode a ++ rest = encode b ++ rest' →
    encode a = encode b ∧ rest = rest'

variable {encode : α → List β}

theorem Delimited.of_length {n : Nat} (h : ∀ a, (encode a).length = n) : Delimited encode :=
  fun a b _ _ hsame => append_inj hsame ((h a).trans (h b).symm)

/-- A flag in front says whether a value follows. -/
def flagged (absent present : β) (encode : α → List β) : Option α → List β
  | none => [absent]
  | some a => present :: encode a

/-! ### Reading back -/

/-- What is read off the values at the front of two equal messages is the same, and so is what
follows. -/
def Reads (encode : α → List β) (ok : α → Prop) (read : α → γ) : Prop :=
  ∀ ⦃a b : α⦄ ⦃rest rest' : List β⦄, ok a → ok b → encode a ++ rest = encode b ++ rest' →
    read a = read b ∧ rest = rest'

namespace Reads

variable {encode : α → List β} {ok : α → Prop} {read : α → γ}

theorem of_length {n : Nat} (h : ∀ a, (encode a).length = n)
    (hread : ∀ ⦃a b⦄, ok a → ok b → encode a = encode b → read a = read b) :
    Reads encode ok read := by
  intro a b rest rest' ha hb hsame
  obtain ⟨hfront, hrest⟩ := append_inj hsame ((h a).trans (h b).symm)
  exact ⟨hread ha hb hfront, hrest⟩

section

variable (h : Reads encode ok read)

include h

/-- The value may be a field of a larger one. -/
theorem field {whole : δ → Prop} (part : δ → α) (hpart : ∀ d, whole d → ok (part d)) :
    Reads (fun d => encode (part d)) whole fun d => read (part d) :=
  fun a b _ _ ha hb hsame => h (hpart a ha) (hpart b hb) hsame

variable {encode' : α → List β}

theorem congr (heq : ∀ a, encode' a = encode a) :
    Reads encode' ok read := fun a b _ _ ha hb hsame => h ha hb (heq a ▸ heq b ▸ hsame)

variable {read' : α → δ}

theorem imp {ok' : α → Prop} (hok : ∀ a, ok' a → ok a)
    (hread : ∀ a b, read a = read b → read' a = read' b) : Reads encode ok' read' :=
  fun a b _ _ ha hb hsame => (h (hok a ha) (hok b hb) hsame).imp_left (hread a b)

theorem read_eq {a b : α} (ha : ok a) (hb : ok b) (hsame : encode a = encode b) : read a = read b :=
  (h ha hb (congrArg (· ++ []) hsame)).1

theorem append (h' : Reads encode' ok read') :
    Reads (fun a => encode a ++ encode' a) ok fun a => (read a, read' a) := by
  intro a b rest rest' ha hb hsame
  rw [append_assoc, append_assoc] at hsame
  obtain ⟨hfirst, hsame⟩ := h ha hb hsame
  obtain ⟨hsecond, hrest⟩ := h' ha hb hsame
  exact ⟨Prod.ext hfirst hsecond, hrest⟩

end

theorem flagged {absent present : β} (hflags : absent ≠ present) (h : Reads encode ok read) :
    Reads (flagged absent present encode) (fun value => ∀ a ∈ value, ok a) (Option.map read) := by
  intro a b rest rest' ha hb hsame
  cases a with
  | none =>
    cases b with
    | none => exact ⟨rfl, (List.cons.inj hsame).2⟩
    | some b => exact absurd (List.cons.inj hsame).1 hflags
  | some a =>
    cases b with
    | none => exact absurd (List.cons.inj hsame).1.symm hflags
    | some b =>
      obtain ⟨hvalue, hrest⟩ := h (ha a rfl) (hb b rfl) (List.cons.inj hsame).2
      exact ⟨congrArg some hvalue, hrest⟩

variable {count : Nat → List β} {fits : Nat → Prop}

/-- A list behind its length. -/
theorem counted (hcount : Reads count fits id) (h : Reads encode ok read) :
    Reads (fun l : List α => count l.length ++ l.flatMap encode)
      (fun l => fits l.length ∧ ∀ a ∈ l, ok a) (List.map read) := by
  rintro l l' rest rest' ⟨hl, hall⟩ ⟨hl', hall'⟩ hboth
  rw [append_assoc, append_assoc] at hboth
  obtain ⟨hlength, hsame⟩ := hcount hl hl' hboth
  clear hl hl' hboth
  induction l generalizing l' with
  | nil =>
    cases l' with
    | nil => exact ⟨rfl, hsame⟩
    | cons _ _ => cases hlength
  | cons a l ih =>
    cases l' with
    | nil => cases hlength
    | cons a' l' =>
      rw [flatMap_cons, flatMap_cons, append_assoc, append_assoc] at hsame
      obtain ⟨hhead, hsame⟩ := h (hall a mem_cons_self) (hall' a' mem_cons_self) hsame
      obtain ⟨htail, hrest⟩ := ih (fun x hx => hall x (mem_cons_of_mem _ hx))
        (fun x hx => hall' x (mem_cons_of_mem _ hx)) (Nat.succ.inj hlength) hsame
      exact ⟨congrArg₂ List.cons hhead htail, hrest⟩

/-- A list of symbols behind its length. -/
theorem counted_self (hcount : Reads count fits id) :
    Reads (fun l : List β => count l.length ++ l) (fun l => fits l.length) id := by
  intro l l' rest rest' hl hl' hsame
  rw [append_assoc, append_assoc] at hsame
  obtain ⟨hlength, hsame⟩ := hcount hl hl' hsame
  exact append_inj hsame hlength

end Reads

theorem Delimited.flagged {absent present : β} (hflags : absent ≠ present)
    (h : Delimited encode) : Delimited (flagged absent present encode) := by
  intro a b rest rest' hsame
  have hreads : Reads encode (fun _ => True) encode := fun _ _ _ _ _ _ hsame => h hsame
  obtain ⟨hread, hrest⟩ :=
    hreads.flagged hflags (fun _ _ => trivial) (fun _ _ => trivial) hsame
  refine ⟨?_, hrest⟩
  cases a <;> cases b <;> simp_all [Lunarbase.flagged]

end Lunarbase
