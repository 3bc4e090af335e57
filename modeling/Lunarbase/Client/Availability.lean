import Lunarbase.Support.Lease
import Mathlib.Algebra.Group.Nat.Defs
import Mathlib.Order.Nat

/-!
# Client — Availability

The quote-admission word (`client_types/availability.rs`): the low three bits are the state, the
rest is a version that every transition advances.  Each operation is given as the transition of
its last atomic step, a load or a compare-exchange: it maps the word it finds to the word it leaves
and its result.
-/

namespace Lunarbase.Client

open List BitVec

abbrev Token := BitVec 64

namespace Availability

def stateMask : BitVec 64 := 0b111
def invalid : BitVec 64 := 0
def ready : BitVec 64 := 1
def publishing : BitVec 64 := 2
def expiring : BitVec 64 := 3
def stopping : BitVec 64 := 4

def state (token : Token) : BitVec 64 := token &&& stateMask

def next (token : Token) (target : BitVec 64) : Token :=
  (token + (stateMask + 1) - (token &&& stateMask)) ||| target

def new : Token := invalid

def compareExchange (word expected target : Token) : Token × Bool :=
  if word = expected then (target, true) else (word, false)

def publishIf (word expected : Token) : Token × Bool :=
  if state expected = stopping then (word, false)
  else if state expected = ready ∨ state expected = publishing then
    (word, decide (word = expected))
  else compareExchange word expected (next expected ready)

def isAvailable (word : Token) : Bool :=
  decide (state word = ready ∨ state word = publishing ∨ state word = expiring)

def beginCorrection (word : Token) : Token × Option Token :=
  if state word = ready ∨ state word = expiring then
    (next word publishing, some (next word publishing))
  else (word, none)

def completeCorrection (word correcting : Token) : Token × Bool :=
  compareExchange word correcting (next correcting ready)

def beginPublication (word : Token) : Token × Option Token := beginCorrection word

def completePublication (word publishing : Token) : Token × Bool :=
  completeCorrection word publishing

def failCorrection (word correcting : Token) : Token × Bool :=
  compareExchange word correcting (next correcting invalid)

def transitionToTerminal (word : Token) (target : BitVec 64) : Token × Bool :=
  if state word = target ∨ state word = stopping then (word, false)
  else (next word target, true)

def revoke (word : Token) : Token × Bool := transitionToTerminal word invalid

def invalidateSourceLease (word : Token) : Token × Bool :=
  if state word = stopping then (word, false) else (next word invalid, true)

def stop (word : Token) : Token × Bool := transitionToTerminal word stopping

def beginExpiration (word readyToken : Token) : Token × Option Token :=
  if state readyToken ≠ ready then (word, none)
  else if word = readyToken then (next readyToken expiring, some (next readyToken expiring))
  else (word, none)

def finishExpiration (word expiring : Token) (unchanged : Bool) : Token × Bool :=
  let out := compareExchange word expiring (next expiring (if unchanged then invalid else ready))
  (out.1, out.2 && unchanged)

/-! ### Versions -/

/-- The version has not run out: the next transition is a new word. -/
def hasVersion (word : Token) : Bool := decide (word.toNat + 8 < 2 ^ 64)

theorem toNat_and_stateMask (token : Token) : (token &&& stateMask).toNat = token.toNat % 8 := by
  exact Nat.and_two_pow_sub_one_eq_mod token.toNat 3

variable {target : BitVec 64} {token word : Token}

section

variable (htarget : target.toNat < 8) (h : hasVersion token = true)

include htarget h

theorem toNat_next : (next token target).toNat = 8 * (token.toNat / 8 + 1) + target.toNat := by
  have hroom := of_decide_eq_true h
  have hbase : (token + (stateMask + 1) - (token &&& stateMask)).toNat =
      2 ^ 3 * (token.toNat / 8 + 1) := by
    rw [toNat_sub, toNat_add, toNat_and_stateMask]
    simp [stateMask]
    omega
  rw [next, toNat_or, hbase, ← Nat.two_pow_add_eq_or_of_lt htarget]

/-- **A transition leaves a word that was never there.** -/
theorem toNat_lt_next : token.toNat < (next token target).toNat := by
  rw [toNat_next htarget h]
  omega

theorem state_next : state (next token target) = target := by
  refine eq_of_toNat_eq ?_
  rw [state, toNat_and_stateMask, toNat_next htarget h]
  omega

/-- The word stayed, or was replaced by one that was never there. -/
def Moved (word word' : Token) : Prop := word' = word ∨ word.toNat < word'.toNat

theorem Moved.next : Moved token (next token target) :=
  .inr (toNat_lt_next htarget h)

end

theorem compareExchange_cases (word expected target : Token) :
    compareExchange word expected target = (word, false) ∧ word ≠ expected ∨
      compareExchange word expected target = (target, true) ∧ word = expected := by
  by_cases h : word = expected
  · exact .inr ⟨if_pos h, h⟩
  · exact .inl ⟨if_neg h, h⟩

section

variable (h : hasVersion word = true)

include h

theorem beginCorrection_moved : Moved word (beginCorrection word).1 := by
  rw [beginCorrection]
  split
  · exact .next (by decide) h
  · exact .inl rfl

theorem beginExpiration_moved (token : Token) : Moved word (beginExpiration word token).1 := by
  rw [beginExpiration]
  split
  · exact .inl rfl
  split
  next hcurrent =>
    subst hcurrent
    exact .next (by decide) h
  · exact .inl rfl

theorem finishExpiration_moved (token : Token) (unchanged : Bool) :
    Moved word (finishExpiration word token unchanged).1 := by
  rcases compareExchange_cases word token (next token (if unchanged then invalid else ready)) with
    ⟨hsame, -⟩ | ⟨hmoved, rfl⟩
  · exact .inl (congrArg Prod.fst hsame)
  rw [finishExpiration, hmoved]
  cases unchanged with
  | true | false => exact .next (by decide) h

theorem lt_invalidateSourceLease (hrunning : state word ≠ stopping) :
    word.toNat < (invalidateSourceLease word).1.toNat := by
  rw [invalidateSourceLease, if_neg hrunning]
  exact toNat_lt_next (by decide) h

end

/-- A publication that succeeds found the word it expected. -/
theorem current_of_publishIf (h : (publishIf word token).2 = true) : word = token := by
  rw [publishIf] at h
  split at h
  · cases h
  split at h
  · exact of_decide_eq_true h
  rcases compareExchange_cases word token (next token ready) with ⟨hsame, -⟩ | ⟨-, hcurrent⟩
  · rw [hsame] at h
    cases h
  · exact hcurrent

/-! ### What a lease is worth -/

/-- Quotes are admitted only while `clear` holds, and whoever holds one of these tokens finds
`clear` true as long as the token is current. -/
structure Leases (word : Token) (clear : Prop) (held : List Token) : Prop where
  running : state word ≠ stopping
  admitted : isAvailable word = true → clear
  held : ∀ token ∈ held, Lease.Guards word.toNat clear token.toNat

namespace Leases

variable {clear clear' : Prop} {held : List Token}

section

variable (h : Leases word clear held)

include h

theorem mono (hclear : clear → clear') : Leases word clear' held :=
  ⟨h.running, fun ha => hclear (h.admitted ha), fun token ht => (h.held token ht).mono hclear⟩

theorem subset {held' : List Token} (hsub : held' ⊆ held) : Leases word clear held' :=
  ⟨h.running, h.admitted, fun token ht => h.held token (hsub ht)⟩

theorem clear_of_current (ht : token ∈ held) (heq : word = token) : clear :=
  (h.held token ht).current (congrArg BitVec.toNat heq.symm)

/-- Every transition outdates the tokens held; a word that admits quotes needs `clear`. -/
theorem advance {word' : Token} (hlt : word.toNat < word'.toNat) (hrunning : state word' ≠ stopping)
    (hadmitted : isAvailable word' = true → clear') : Leases word' clear' held :=
  ⟨hrunning, hadmitted, fun token ht => (h.held token ht).advance hlt⟩

/-- One more token that is worth `clear`. -/
theorem hold (hguards : Lease.Guards word.toNat clear token.toNat) :
    Leases word clear (token :: held) := by
  refine ⟨h.running, h.admitted, fun token' ht => ?_⟩
  rcases mem_cons.mp ht with rfl | hmem
  · exact hguards
  · exact h.held token' hmem

/-- A new token is current, and worth `clear`. -/
theorem take (hclear : clear) : Leases word clear (word :: held) :=
  h.hold (.take hclear)

theorem clear_of_admitting (hstate : state word = ready ∨ state word = expiring) : clear := by
  refine h.admitted (decide_eq_true ?_)
  rcases hstate with hready | hexpiring
  · exact .inl hready
  · exact .inr (.inr hexpiring)

variable (hversion : hasVersion word = true)

include hversion

/-- A word whose state admits no quotes can be moved to whatever becomes of `clear`. -/
theorem close (clear' : Prop) : Leases (next word invalid) clear' held := by
  have hstate : state (next word invalid) = invalid := state_next (by decide) hversion
  refine h.advance (toNat_lt_next (by decide) hversion) ?_ ?_
  · rw [hstate]
    decide
  intro havailable
  rw [isAvailable, hstate] at havailable
  exact absurd havailable (by decide)

theorem openTo (hclear : clear) (htarget : target.toNat < 8) (hne : target ≠ stopping) :
    Leases (next word target) clear held := by
  refine h.advance (toNat_lt_next htarget hversion) ?_ fun _ => hclear
  rw [state_next htarget hversion]
  exact hne

theorem beginCorrection :
    Leases (Availability.beginCorrection word).1 clear
      ((Availability.beginCorrection word).2.toList ++ held) := by
  rw [Availability.beginCorrection]
  by_cases hstate : state word = ready ∨ state word = expiring
  · rw [if_pos hstate]
    have hclear := h.clear_of_admitting hstate
    exact (h.openTo hversion hclear (by decide) (by decide)).take hclear
  · rw [if_neg hstate]
    exact h

theorem compareExchange (ht : token ∈ held) (htarget : target.toNat < 8) (hne : target ≠ stopping) :
    Leases (Availability.compareExchange word token (next token target)).1 clear held := by
  rcases compareExchange_cases word token (next token target) with ⟨hsame, -⟩ | ⟨hmoved, rfl⟩
  · rw [hsame]
    exact h
  · rw [hmoved]
    exact h.openTo hversion (h.clear_of_current ht rfl) htarget hne

theorem completeCorrection
    (ht : token ∈ held) : Leases (Availability.completeCorrection word token).1 clear held :=
  h.compareExchange hversion ht (by decide) (by decide)

theorem publishIf
    (ht : token ∈ held) : Leases (Availability.publishIf word token).1 clear held := by
  rw [Availability.publishIf]
  split
  · exact h
  split
  · exact h
  · exact h.compareExchange hversion ht (by decide) (by decide)

theorem failCorrection
    (token : Token) : Leases (Availability.failCorrection word token).1 clear held := by
  rw [Availability.failCorrection]
  rcases compareExchange_cases word token (next token invalid) with ⟨hsame, -⟩ | ⟨hmoved, rfl⟩
  · rw [hsame]
    exact h
  · rw [hmoved]
    exact h.close hversion clear

/-- Dropped admissions: at most one of them is current, and it closes the word. -/
theorem failAll {tokens : List Token} (hsub : tokens ⊆ held) :
    Leases (tokens.foldl (fun word token => (Availability.failCorrection word token).1) word) clear
      held := by
  -- once the word has moved it is ahead of every token that is left
  have hstays : ∀ (tokens : List Token) (word' : Token),
      (∀ token ∈ tokens, token.toNat < word'.toNat) →
        tokens.foldl (fun word token => (Availability.failCorrection word token).1) word' =
          word' := by
    intro tokens
    induction tokens with
    | nil => exact fun word' _ => rfl
    | cons token rest ih =>
      intro word' hbehind
      have hne : word' ≠ token := fun heq => (hbehind token mem_cons_self).ne (heq ▸ rfl)
      rw [foldl_cons, Availability.failCorrection, Availability.compareExchange, if_neg hne]
      exact ih word' fun token' ht => hbehind token' (mem_cons_of_mem _ ht)
  induction tokens with
  | nil => exact h
  | cons token rest ih =>
    rw [foldl_cons]
    rcases compareExchange_cases word token (next token invalid) with ⟨hsame, -⟩ | ⟨hmoved, rfl⟩
    · rw [Availability.failCorrection, hsame]
      exact ih fun token' ht => hsub (mem_cons_of_mem _ ht)
    rw [Availability.failCorrection, hmoved, hstays]
    · exact h.close hversion clear
    intro token' ht
    exact (h.held token' (hsub (mem_cons_of_mem _ ht))).behind.trans_lt
      (toNat_lt_next (by decide) hversion)

theorem revoke : Leases (Availability.revoke word).1 clear held := by
  rw [Availability.revoke, transitionToTerminal]
  split
  · exact h
  · exact h.close hversion clear

/-- A disconnect outdates every lease, whatever becomes of `clear`. -/
theorem invalidateSourceLease
    (clear' : Prop) : Leases (Availability.invalidateSourceLease word).1 clear' held := by
  rw [Availability.invalidateSourceLease, if_neg h.running]
  exact h.close hversion clear'

theorem beginExpiration (token : Token) :
    Leases (Availability.beginExpiration word token).1 clear
      ((Availability.beginExpiration word token).2.toList ++ held) := by
  rw [Availability.beginExpiration]
  by_cases hready : state token = ready
  · rw [if_neg (not_not.mpr hready)]
    by_cases hcurrent : word = token
    · subst hcurrent
      have hclear := h.clear_of_admitting (.inl hready)
      rw [if_pos rfl]
      exact (h.openTo hversion hclear (by decide) (by decide)).take hclear
    · rw [if_neg hcurrent]
      exact h
  · rw [if_pos hready]
    exact h

theorem finishExpiration (ht : token ∈ held) (unchanged : Bool) :
    Leases (Availability.finishExpiration word token unchanged).1 clear held := by
  cases unchanged with
  | true | false => exact h.compareExchange hversion ht (by decide) (by decide)

end

end Leases

end Availability

end Lunarbase.Client
