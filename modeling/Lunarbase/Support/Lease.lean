import Mathlib.Order.Basic
import Mathlib.Tactic.Common

/-!
# Support — Lease

A word that only grows, and readings of it that are kept for later.  Whoever holds a reading may
act on it when the word still has that value: nothing has advanced the word in between, so what
held when the reading was taken holds still.

`Guards word P held` is this bargain.  It starts when `P` is known (`Guards.take`), survives
everything that advances the word, whatever that does to `P` (`Guards.advance`), and is redeemed by
comparing (`Guards.current`).
-/

namespace Lunarbase.Lease

variable {α : Type*} [Preorder α] {word word' held : α} {P Q : Prop}

/-- The reading is not ahead of the word, and as long as it is current `P` holds. -/
structure Guards (word : α) (P : Prop) (held : α) : Prop where
  behind : held ≤ word
  current : held = word → P

theorem Guards.take (h : P) : Guards word P word := ⟨le_rfl, fun _ => h⟩

/-- An advance outdates every reading, so that nothing is promised for them any more. -/
theorem Guards.advance (h : Guards word P held) (hlt : word < word') : Guards word' Q held :=
  ⟨h.behind.trans hlt.le, fun heq => absurd (heq ▸ h.behind) hlt.not_ge⟩

theorem Guards.mono (h : Guards word P held) (hPQ : P → Q) : Guards word Q held :=
  ⟨h.behind, fun heq => hPQ (h.current heq)⟩

end Lunarbase.Lease
