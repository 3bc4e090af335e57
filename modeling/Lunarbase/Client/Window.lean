import Lunarbase.Client.Journal
import Lunarbase.Support.Outcome
import Lunarbase.Support.Rollback

/-!
# Client — Window

The optimistic journal keeps two bounded records of the chain: before-images of the blocks that
changed quote data and, separately, the identities of the blocks it has seen.  `JournalInv` says
what the two are worth against the history of accepted events: every height a correction may go
back to is restored exactly (`Rollback.Journaled`), and the identity found there names the block
its events came from (`Named`).

The operations keep it, each by one lemma: evicting by budget, naming a block, evicting a named
block, and rewinding.
-/

namespace Lunarbase.Client

open Rollback (replay upTo restoreAt Journaled)
open List JournalState Nat

/-- An event the reducer took as new, at its position. -/
structure AcceptedEvent where
  cursor : ChainCursor
  event : QuoteEvent
  deriving DecidableEq

namespace AcceptedEvent

def number (e : AcceptedEvent) : Nat := e.cursor.blockNumber

def hash (e : AcceptedEvent) : Option B256 := e.cursor.blockHash

/-- The effect of an event on quote data; none when the reducer would reject it. -/
def effect (d : QuoteData) (e : AcceptedEvent) : Option QuoteData :=
  match d.applyEvent e.event with
  | (d', .ok _) => some d'
  | (_, .error _) => none

end AcceptedEvent

namespace OptimisticBlock

def number (b : OptimisticBlock) : Nat := b.cursor.blockNumber

def data (b : OptimisticBlock) : QuoteData := b.before.data

end OptimisticBlock

/-! ### Names -/

/-- A window is kept in the order of its heights. -/
abbrev Ascending (identities : List ChainCursor) : Prop :=
  identities.Pairwise fun c c' => c.blockNumber < c'.blockNumber

/-- What the retained identities say about the blocks of the events `named`. -/
structure Named (floor : ChainCursor) (identities : List ChainCursor)
    (named : List AcceptedEvent) : Prop where
  sorted : Ascending identities
  /-- An identity with a hash contradicts no event of its height. -/
  agree : ∀ id ∈ identities, ∀ e ∈ named, e.number = id.blockNumber →
    id.blockHash = none ∨ e.hash = none ∨ e.hash = id.blockHash
  /-- Above the floor an identity without a hash stands for events without one. -/
  blank : ∀ id ∈ identities, floor.blockNumber < id.blockNumber → id.blockHash = none →
    ∀ e ∈ named, e.number = id.blockNumber → e.hash = none
  /-- Above the floor every event's height has an identity. -/
  known : ∀ e ∈ named, floor.blockNumber < e.number → ∃ id ∈ identities, id.blockNumber = e.number
  /-- At the floor the floor itself stands in for a missing identity. -/
  floorAgree : (∀ id ∈ identities, id.blockNumber ≠ floor.blockNumber) →
    ∀ e ∈ named, e.number = floor.blockNumber →
      floor.blockHash = none ∨ e.hash = none ∨ e.hash = floor.blockHash

namespace Named

variable {floor : ChainCursor} {identities : List ChainCursor} {named : List AcceptedEvent}

theorem start (floor : ChainCursor) : Named floor [] [] where
  sorted := .nil
  agree := by simp
  blank := by simp
  known := by simp
  floorAgree := by simp

/-- The list has `c`'s hash at its height and is otherwise the old one. -/
structure Renames (c : ChainCursor) (identities identities' : List ChainCursor) : Prop where
  sorted : Ascending identities'
  new : ∀ id ∈ identities', (id.blockNumber = c.blockNumber ∧ id.blockHash = c.blockHash) ∨
    (id.blockNumber ≠ c.blockNumber ∧ id ∈ identities)
  old : ∀ id ∈ identities, ∃ id' ∈ identities', id'.blockNumber = id.blockNumber
  there : ∃ id' ∈ identities', id'.blockNumber = c.blockNumber

/-- New events stand at the height of `c`, and no event there contradicts its hash. -/
structure NamesAt (c : ChainCursor) (named named' : List AcceptedEvent) : Prop where
  named : ∀ e ∈ named', e ∈ named ∨ e.number = c.blockNumber
  hash : ∀ e ∈ named', e.number = c.blockNumber → e.hash = none ∨ e.hash = c.blockHash

/-- Naming the height of `c`. -/
theorem name (h : Named floor identities named) {c : ChainCursor} {identities' : List ChainCursor}
    {named' : List AcceptedEvent} (hfloor : floor.blockNumber < c.blockNumber)
    (hids : Renames c identities identities') (hevents : NamesAt c named named') :
    Named floor identities' named' where
  sorted := hids.sorted
  agree := by
    intro id hid e he hnum
    rcases hids.new id hid with ⟨hn, hh⟩ | ⟨hn, hmem⟩
    · rw [hh]
      exact .inr (hevents.hash e he (hnum.trans hn))
    rcases hevents.named e he with hin | hat
    · exact h.agree id hmem e hin hnum
    · exact absurd (hnum.symm.trans hat) hn
  blank := by
    intro id hid hlt hnone e he hnum
    rcases hids.new id hid with ⟨hn, hh⟩ | ⟨hn, hmem⟩
    · rcases hevents.hash e he (hnum.trans hn) with h₁ | h₁
      · exact h₁
      · exact h₁.trans (hh.symm.trans hnone)
    · rcases hevents.named e he with hin | hat
      · exact h.blank id hmem hlt hnone e hin hnum
      · exact absurd (hnum.symm.trans hat) hn
  known := by
    intro e he hlt
    rcases hevents.named e he with hin | hat
    · obtain ⟨id, hid, hnum⟩ := h.known e hin hlt
      obtain ⟨id', hid', hnum'⟩ := hids.old id hid
      exact ⟨id', hid', hnum'.trans hnum⟩
    · obtain ⟨id', hid', hnum'⟩ := hids.there
      exact ⟨id', hid', hnum'.trans hat.symm⟩
  floorAgree := by
    intro hmiss e he hnum
    rcases hevents.named e he with hin | hat
    · refine h.floorAgree (fun id hid heq => ?_) e hin hnum
      obtain ⟨id', hid', hnum'⟩ := hids.old id hid
      exact hmiss id' hid' (hnum'.trans heq)
    · exact absurd (hnum.symm.trans hat) (Nat.ne_of_lt hfloor)

/-- A higher floor, at a height that has an identity or no named event. -/
theorem raise (h : Named floor identities named) {floor' : ChainCursor}
    (hle : floor.blockNumber ≤ floor'.blockNumber)
    (hat : (∃ id ∈ identities, id.blockNumber = floor'.blockNumber) ∨
      ∀ e ∈ named, e.number ≠ floor'.blockNumber) : Named floor' identities named where
  sorted := h.sorted
  agree := h.agree
  blank := fun id hid hlt => h.blank id hid (hle.trans_lt hlt)
  known := fun e he hlt => h.known e he (hle.trans_lt hlt)
  floorAgree := by
    intro hmiss e he hnum
    rcases hat with ⟨id, hid, hid'⟩ | hnone
    · exact absurd hid' (hmiss id hid)
    · exact absurd hnum (hnone e he)

variable {first : ChainCursor} {rest : List ChainCursor}

/-- The lowest identity, evicted, becomes the floor. -/
theorem evict (h : Named floor (first :: rest) named)
    (hle : floor.blockNumber ≤ first.blockNumber) : Named first rest named where
  sorted := h.sorted.of_cons
  agree := fun id hid => h.agree id (mem_cons_of_mem _ hid)
  blank := fun id hid hlt => h.blank id (mem_cons_of_mem _ hid) (hle.trans_lt hlt)
  known := by
    intro e he hlt
    obtain ⟨id, hid, hnum⟩ := h.known e he (hle.trans_lt hlt)
    rcases mem_cons.mp hid with rfl | hmem
    · exact absurd hnum (Nat.ne_of_lt hlt)
    · exact ⟨id, hmem, hnum⟩
  floorAgree := fun _ e he hnum => h.agree first mem_cons_self e he hnum

/-- Forgetting identities and events above an ancestor at or above the floor. -/
theorem rewind (h : Named floor identities named) {a : Nat} (ha : floor.blockNumber ≤ a) :
    Named floor (identities.filter fun id => id.blockNumber ≤ a)
      (upTo AcceptedEvent.number named a) where
  sorted := h.sorted.filter _
  agree := fun id hid e he =>
    h.agree id (mem_filter.mp hid).1 e (mem_filter.mp he).1
  blank := fun id hid hlt hnone e he =>
    h.blank id (mem_filter.mp hid).1 hlt hnone e (mem_filter.mp he).1
  known := by
    intro e he hlt
    obtain ⟨hmem, hle⟩ := mem_filter.mp he
    obtain ⟨id, hid, hnum⟩ := h.known e hmem hlt
    exact ⟨id, mem_filter.mpr ⟨hid, by simpa [hnum] using hle⟩, hnum⟩
  floorAgree := by
    intro hmiss e he hnum
    refine h.floorAgree (fun id hid heq => ?_) e (mem_filter.mp he).1 hnum
    exact hmiss id (mem_filter.mpr ⟨hid, by simpa [heq] using ha⟩) heq

end Named

/-! ### The invariant -/

/-- The journal `j` against the accepted events `items`, of which `named` have had their block
recorded: the two differ only between the two halves of one accepted log. -/
structure JournalInv (snapshot : QuoteData) (floor : ChainCursor) (j : JournalState)
    (named items : List AcceptedEvent) (current : QuoteData) : Prop where
  atFloor : j.rollbackFloor = some floor
  names : Named floor j.identities named
  journaled : Journaled AcceptedEvent.effect AcceptedEvent.number OptimisticBlock.number
    OptimisticBlock.data snapshot floor.blockNumber items j.blocks current
  /-- A before-image's height has an identity as soon as an event of it is named. -/
  retained : ∀ b ∈ j.blocks, (∃ id ∈ j.identities, id.blockNumber = b.number) ∨
    ∀ e ∈ named, e.number ≠ b.number
  /-- Identities below the floor are left over only under a floor that an event set. -/
  anchored : (∃ e ∈ items, e.number = floor.blockNumber) ∨
    ∀ id ∈ j.identities, floor.blockNumber ≤ id.blockNumber

theorem JournalInv.start (snapshot : QuoteData) (floor : ChainCursor) (j : JournalState) :
    JournalInv snapshot floor (j.reset floor) [] [] snapshot where
  atFloor := rfl
  names := .start floor
  journaled := .start snapshot _
  retained := by simp [JournalState.reset]
  anchored := .inr (by simp [JournalState.reset])

variable {snapshot current : QuoteData} {floor : ChainCursor} {j : JournalState}
  {named named' items : List AcceptedEvent}

/-! ### Dropping before-images -/

theorem JournalState.dropFront_identities (j : JournalState) (budgetEviction : Bool) :
    (j.dropFront budgetEviction).identities = j.identities := by
  rw [dropFront]
  cases j.blocks with
  | nil => rfl
  | cons b rest => rfl

theorem JournalState.dropFrontWhile_identities (test : JournalState → Bool) (budgetEviction : Bool)
    (fuel : Nat) (j : JournalState) :
    (dropFrontWhile test budgetEviction fuel j).identities = j.identities := by
  induction fuel generalizing j with
  | zero => rfl
  | succ fuel ih =>
    rw [dropFrontWhile]
    split
    · rw [ih, dropFront_identities]
    · rfl

/-- With fuel for every image, the loop over the front drops the images up to `number`. -/
theorem JournalState.dropFrontWhile_blocks (number : Nat) (budgetEviction : Bool) {fuel : Nat}
    {j : JournalState} (hfuel : j.blocks.length ≤ fuel) :
    (dropFrontWhile (frontAtOrBelow number) budgetEviction fuel j).blocks =
      j.blocks.dropWhile fun b => decide (b.number ≤ number) := by
  induction fuel generalizing j with
  | zero =>
    have hnil : j.blocks = [] := length_eq_zero_iff.mp (le_zero.mp hfuel)
    simp [dropFrontWhile, hnil]
  | succ fuel ih =>
    rw [dropFrontWhile]
    cases hblocks : j.blocks with
    | nil => simp [frontAtOrBelow, hblocks]
    | cons b rest =>
      have hrest : (j.dropFront budgetEviction).blocks = rest := by simp [dropFront, hblocks]
      by_cases hb : b.number ≤ number
      · have htest : frontAtOrBelow number j = true := by
          simpa [frontAtOrBelow, hblocks, OptimisticBlock.number] using hb
        rw [if_pos htest, ih (by simpa [hrest, hblocks] using hfuel), hrest,
          dropWhile_cons_of_pos (by simpa using hb)]
      have htest : frontAtOrBelow number j = false := by
        simpa [frontAtOrBelow, hblocks, OptimisticBlock.number] using hb
      rw [htest, dropWhile_cons_of_neg (by simpa using hb)]
      simpa using hblocks

/-- What an evicted identity takes along. -/
theorem JournalState.evictIdentity_eq (j : JournalState) (hids : j.identities = first :: rest) :
    j.evictIdentity.rollbackFloor = some first ∧ j.evictIdentity.identities = rest ∧
      j.evictIdentity.blocks =
        j.blocks.dropWhile fun b => decide (b.number ≤ first.blockNumber) := by
  have hblocks := dropFrontWhile_blocks first.blockNumber true
    (j := { j with identities := rest }) le_rfl
  have hidents := dropFrontWhile_identities (frontAtOrBelow first.blockNumber) true j.blocks.length
    { j with identities := rest }
  simp only [evictIdentity, hids]
  split
  · exact ⟨rfl, hidents, hblocks⟩
  · exact ⟨rfl, hidents, hblocks⟩

namespace JournalInv

variable (h : JournalInv snapshot floor j named items current)

include h

theorem dropFront (budgetEviction : Bool)
    {b : OptimisticBlock} {rest : List OptimisticBlock} (hblocks : j.blocks = b :: rest) :
    JournalInv snapshot b.cursor (j.dropFront budgetEviction) named items current := by
  have hj : (j.dropFront budgetEviction).blocks = rest ∧
      (j.dropFront budgetEviction).rollbackFloor = some b.cursor := by
    simp [JournalState.dropFront, hblocks]
  have hmem : b ∈ j.blocks := hblocks ▸ mem_cons_self
  have hids := j.dropFront_identities budgetEviction
  refine ⟨hj.2, ?_, ?_, ?_, ?_⟩
  · rw [hids]
    exact h.names.raise (h.journaled.aboveFloor b hmem) (h.retained b hmem)
  · rw [hj.1]
    exact (hblocks ▸ h.journaled).dropFront
  · rw [hj.1, hids]
    exact fun b' hb' => h.retained b' (hblocks ▸ mem_cons_of_mem _ hb')
  · exact .inl (h.journaled.witnessed b hmem)

/-- A loop of drops raises the floor to the last dropped image, if it moves it at all. -/
theorem dropFrontWhile (test : JournalState → Bool) (budgetEviction : Bool) (fuel : Nat) :
    ∃ (floor' : ChainCursor) (dropped : List OptimisticBlock),
      floor.blockNumber ≤ floor'.blockNumber ∧
      j.blocks = dropped ++ (JournalState.dropFrontWhile test budgetEviction fuel j).blocks ∧
      (dropped = [] ∧ floor' = floor ∨ ∃ b, dropped.getLast? = some b ∧ floor' = b.cursor) ∧
      JournalInv snapshot floor' (JournalState.dropFrontWhile test budgetEviction fuel j) named
        items current := by
  induction fuel generalizing j floor with
  | zero => exact ⟨floor, [], le_rfl, rfl, .inl ⟨rfl, rfl⟩, h⟩
  | succ fuel ih =>
    rw [JournalState.dropFrontWhile]
    split
    · cases hblocks : j.blocks with
      | nil =>
        have hsame : j.dropFront budgetEviction = j := by
          simp [JournalState.dropFront, hblocks]
        rw [hsame]
        obtain ⟨floor', dropped, hle, hsplit, hrest⟩ := ih h
        exact ⟨floor', dropped, hle, hblocks.symm.trans hsplit, hrest⟩
      | cons b rest =>
        have hmem : b ∈ j.blocks := hblocks ▸ mem_cons_self
        have hrest : (j.dropFront budgetEviction).blocks = rest := by
          simp [JournalState.dropFront, hblocks]
        obtain ⟨floor', dropped, hle, hsplit, hfrom, hinv⟩ :=
          ih (h.dropFront budgetEviction hblocks)
        rw [hrest] at hsplit
        refine ⟨floor', b :: dropped, (h.journaled.aboveFloor b hmem).trans hle,
          by rw [cons_append, ← hsplit], .inr ?_, hinv⟩
        rcases hfrom with ⟨rfl, rfl⟩ | ⟨last, hlast, rfl⟩
        · exact ⟨b, rfl, rfl⟩
        cases dropped with
        | nil => simp at hlast
        | cons b' more => exact ⟨last, by simpa using hlast, rfl⟩
    · exact ⟨floor, [], le_rfl, rfl, .inl ⟨rfl, rfl⟩, h⟩

/-- The lowest identity leaves the window, with every image at or below it. -/
theorem evict (hids : j.identities = first :: rest) (hle : floor.blockNumber ≤ first.blockNumber) :
    JournalInv snapshot first j.evictIdentity named items current := by
  obtain ⟨hfloor, hidents, hblocks⟩ := j.evictIdentity_eq hids
  have hnames := hids ▸ h.names
  have hfirst : ∀ id ∈ rest, first.blockNumber < id.blockNumber :=
    (pairwise_cons.mp hnames.sorted).1
  refine ⟨hfloor, hidents ▸ hnames.evict hle, hblocks ▸ h.journaled.dropThrough hle, ?_, ?_⟩
  · intro b hb
    rw [hblocks] at hb
    have habove := Rollback.lt_of_mem_dropWhile h.journaled.sorted hb
    rcases h.retained b ((dropWhile_sublist _).subset hb) with ⟨id, hid, hnum⟩ | hnone
    · rw [hids] at hid
      rcases mem_cons.mp hid with rfl | hmem
      · exact absurd hnum (Nat.ne_of_lt habove)
      · exact .inl ⟨id, hidents ▸ hmem, hnum⟩
    · exact .inr hnone
  · exact .inr fun id hid => (hfirst id (hidents ▸ hid)).le

end JournalInv

/-! ### Recording identities -/

namespace JournalState

variable {n : Nat} {id c : ChainCursor} {identities : List ChainCursor}

theorem retainedIdentity_eq_none :
    j.retainedIdentity n = none ↔ ∀ id ∈ j.identities, id.blockNumber ≠ n := by
  simp [retainedIdentity]

theorem retainedIdentity_eq_some (h : j.retainedIdentity n = some id) :
    id ∈ j.identities ∧ id.blockNumber = n :=
  ⟨mem_of_find?_eq_some h, by simpa using List.find?_some h⟩

theorem atOrBelowFloor_iff {floor : ChainCursor} (h : j.rollbackFloor = some floor) :
    j.atOrBelowFloor n = true ↔ n ≤ floor.blockNumber := by
  simp [atOrBelowFloor, h]

/-- The heights at which a log needs no new identity. -/
def Covers (floor : ChainCursor) (identities : List ChainCursor) (n : Nat) : Prop :=
  n ≤ floor.blockNumber ∨ ∃ id ∈ identities, id.blockNumber = n

/-- Recording the identity of `c` evicts, from a full window, an identity below the floor: the
floor, which becomes the evicted identity, is lowered. -/
def lowersFloor (j : JournalState) (c : ChainCursor) : Bool :=
  (j.retainedIdentity c.blockNumber).isNone && maxOptimisticHistoryBlocks ≤ j.identities.length &&
    j.rollbackFloor.any fun floor => floor.blockNumber < c.blockNumber &&
      j.identities.head?.any fun lowest => lowest.blockNumber < floor.blockNumber

/-- The window with `c` at its place. -/
def inserted (c : ChainCursor) (identities : List ChainCursor) : List ChainCursor :=
  (identities.takeWhile fun id => id.blockNumber ≤ c.blockNumber) ++
    c :: identities.dropWhile fun id => id.blockNumber ≤ c.blockNumber

theorem inserted_perm (c : ChainCursor) (identities : List ChainCursor) :
    inserted c identities ~ c :: identities :=
  perm_middle.trans (.cons c (.of_eq takeWhile_append_dropWhile))

theorem mem_inserted : id ∈ inserted c identities ↔ id = c ∨ id ∈ identities :=
  (inserted_perm c identities).mem_iff.trans mem_cons

theorem length_inserted (c : ChainCursor) (identities : List ChainCursor) :
    (inserted c identities).length = identities.length + 1 :=
  (inserted_perm c identities).length_eq

theorem replaceIdentity_map (c : ChainCursor) (identities : List ChainCursor) :
    (replaceIdentity c identities).map ChainCursor.blockNumber =
      identities.map ChainCursor.blockNumber := by
  induction identities with
  | nil => rfl
  | cons id rest ih =>
    rw [replaceIdentity]
    split
    next h => simp [h]
    · simp [ih]

section

variable (hsorted : Ascending identities)

include hsorted

/-- A window has one identity a height. -/
theorem eq_of_number_eq {id' : ChainCursor} (hid : id ∈ identities) (hid' : id' ∈ identities)
    (h : id.blockNumber = id'.blockNumber) : id = id' :=
  inj_on_of_nodup_map (pairwise_map.mpr (hsorted.imp fun hlt => hlt.ne)) hid hid' h

theorem inserted_sorted (hnew : ∀ id ∈ identities, id.blockNumber ≠ c.blockNumber) :
    Ascending (inserted c identities) := by
  have hbelow : ∀ id ∈ identities.takeWhile fun id => decide (id.blockNumber ≤ c.blockNumber),
      id.blockNumber < c.blockNumber := by
    intro id hid
    have hle : id.blockNumber ≤ c.blockNumber := by simpa using mem_takeWhile_imp hid
    exact lt_of_le_of_ne hle (hnew id ((takeWhile_sublist _).subset hid))
  have habove : ∀ id ∈ identities.dropWhile fun id => decide (id.blockNumber ≤ c.blockNumber),
      c.blockNumber < id.blockNumber := fun id hid =>
    Rollback.lt_of_mem_dropWhile (hsorted.imp fun h => h.le) hid
  refine pairwise_append.mpr ⟨hsorted.sublist (takeWhile_sublist _),
    pairwise_cons.mpr ⟨habove, hsorted.sublist (dropWhile_sublist _)⟩, ?_⟩
  intro id hid id' hid'
  rcases mem_cons.mp hid' with rfl | hmem
  · exact hbelow id hid
  · exact (hbelow id hid).trans (habove id' hmem)

theorem mem_replaceIdentity (h : id ∈ replaceIdentity c identities) :
    id = c ∨ (id.blockNumber ≠ c.blockNumber ∧ id ∈ identities) := by
  induction identities with
  | nil => simp [replaceIdentity] at h
  | cons first rest ih =>
    obtain ⟨hfirst, hrest⟩ := pairwise_cons.mp hsorted
    rw [replaceIdentity] at h
    split at h
    next heq =>
      rcases mem_cons.mp h with rfl | hmem
      · exact .inl rfl
      · exact .inr ⟨(heq ▸ hfirst id hmem).ne', mem_cons_of_mem _ hmem⟩
    next hne =>
      rcases mem_cons.mp h with rfl | hmem
      · exact .inr ⟨hne, mem_cons_self⟩
      rcases ih hrest hmem with rfl | ⟨hnum, hold⟩
      · exact .inl rfl
      · exact .inr ⟨hnum, mem_cons_of_mem _ hold⟩

end

theorem evictIdentities_of_le {fuel : Nat} (h : j.identities.length ≤ maxOptimisticHistoryBlocks) :
    evictIdentities fuel j = j := by
  cases fuel with
  | zero => rfl
  | succ fuel => rw [evictIdentities, if_neg (not_lt.mpr h)]

/-- A window within its bound evicts at most once. -/
theorem insertIdentity_eq (c : ChainCursor)
    (hbound : j.identities.length ≤ maxOptimisticHistoryBlocks) :
    j.insertIdentity c = if j.identities.length < maxOptimisticHistoryBlocks then
        { j with identities := inserted c j.identities }
      else { j with identities := inserted c j.identities }.evictIdentity := by
  have hlen := length_inserted c j.identities
  have hins : j.insertIdentity c = evictIdentities (inserted c j.identities).length
      { j with identities := inserted c j.identities } := rfl
  rw [hins, hlen]
  split
  next hlt => exact evictIdentities_of_le (hlen.trans_le hlt)
  next hge =>
    have hover : maxOptimisticHistoryBlocks < (inserted c j.identities).length := by
      rw [hlen]
      exact lt_succ_of_le (not_lt.mp hge)
    rw [evictIdentities, if_pos hover]
    refine evictIdentities_of_le ?_
    obtain ⟨first, rest, hcons⟩ := exists_cons_of_length_pos (zero_lt_of_lt hover)
    rw [(evictIdentity_eq { j with identities := inserted c j.identities } hcons).2.1]
    rw [hcons, length_cons] at hlen
    exact (Nat.succ.inj hlen).trans_le hbound

end JournalState

namespace JournalInv

variable {c : ChainCursor}

/-- The journal is good above some floor that is not below `floor`, holds no more identities than
its bound and covers the heights given. -/
abbrev Kept (snapshot : QuoteData) (floor : ChainCursor) (j : JournalState)
    (named items : List AcceptedEvent) (current : QuoteData) (heights : Nat → Prop) : Prop :=
  ∃ floor' : ChainCursor, floor.blockNumber ≤ floor'.blockNumber ∧
    JournalInv snapshot floor' j named items current ∧
    j.identities.length ≤ maxOptimisticHistoryBlocks ∧
    ∀ n, heights n → JournalState.Covers floor' j.identities n

variable (h : JournalInv snapshot floor j named items current)
  (hfloor : floor.blockNumber < c.blockNumber) (hevents : Named.NamesAt c named named')

include h hfloor hevents

/-- `Named.name` for the whole journal. -/
theorem name {identities' : List ChainCursor} (hids : Named.Renames c j.identities identities') :
    JournalInv snapshot floor { j with identities := identities' } named' items current where
  atFloor := h.atFloor
  names := h.names.name hfloor hids hevents
  journaled := h.journaled
  retained := by
    intro b hb
    rcases h.retained b hb with ⟨id, hid, hnum⟩ | hnone
    · obtain ⟨id', hid', hnum'⟩ := hids.old id hid
      exact .inl ⟨id', hid', hnum'.trans hnum⟩
    by_cases hat : b.number = c.blockNumber
    · obtain ⟨id', hid', hnum'⟩ := hids.there
      exact .inl ⟨id', hid', hnum'.trans hat.symm⟩
    refine .inr fun e he heq => ?_
    rcases hevents.named e he with hin | hc
    · exact hnone e hin heq
    · exact hat (heq.symm.trans hc)
  anchored := by
    rcases h.anchored with hevent | hbelow
    · exact .inl hevent
    refine .inr fun id hid => ?_
    rcases hids.new id hid with ⟨hnum, -⟩ | ⟨-, hmem⟩
    · exact hnum ▸ hfloor.le
    · exact hbelow id hmem

/-- A retained height is named again, or keeps a name with the same hash. -/
theorem renameIdentity {id : ChainCursor} (replace : Bool)
    (hid : j.retainedIdentity c.blockNumber = some id) :
    JournalInv snapshot floor (j.recordIdentity c replace) named' items current ∧
      (j.recordIdentity c replace).identities.map ChainCursor.blockNumber =
        j.identities.map ChainCursor.blockNumber := by
  obtain ⟨hmem, hnum⟩ := retainedIdentity_eq_some hid
  have hnot : j.atOrBelowFloor c.blockNumber ≠ true := by
    rw [Ne, atOrBelowFloor_iff h.atFloor]
    exact not_le.mpr hfloor
  rw [JournalState.recordIdentity, if_neg hnot, hid]
  dsimp only
  split
  · -- the same identity: nothing is written
    next hsame =>
      simp only [Bool.and_eq_true, beq_iff_eq] at hsame
      have hkeep : ∀ id' ∈ j.identities,
          (id'.blockNumber = c.blockNumber ∧ id'.blockHash = c.blockHash) ∨
            (id'.blockNumber ≠ c.blockNumber ∧ id' ∈ j.identities) := by
        intro id' hid'
        by_cases hc : id'.blockNumber = c.blockNumber
        · obtain rfl := eq_of_number_eq h.names.sorted hid' hmem (hc.trans hnum.symm)
          exact .inl ⟨hc, hsame.2⟩
        · exact .inr ⟨hc, hid'⟩
      exact ⟨h.name hfloor hevents ⟨h.names.sorted, hkeep, fun id' hid' => ⟨id', hid', rfl⟩,
        id, hmem, hnum⟩, rfl⟩
  · have hmap := replaceIdentity_map c j.identities
    refine ⟨?_, hmap⟩
    have hnums : ∀ id' ∈ j.identities, ∃ id'' ∈ JournalState.replaceIdentity c j.identities,
        id''.blockNumber = id'.blockNumber := by
      intro id' hid'
      have : id'.blockNumber ∈
          (JournalState.replaceIdentity c j.identities).map ChainCursor.blockNumber :=
        hmap ▸ mem_map_of_mem hid'
      obtain ⟨id'', hid'', heq⟩ := mem_map.mp this
      exact ⟨id'', hid'', heq⟩
    refine h.name hfloor hevents ⟨?_, ?_, hnums, ?_⟩
    · have hsorted := pairwise_map.mpr h.names.sorted
      rw [← hmap] at hsorted
      exact pairwise_map.mp hsorted
    · intro id' hid'
      rcases mem_replaceIdentity h.names.sorted hid' with rfl | hold
      · exact .inl ⟨rfl, rfl⟩
      · exact .inr hold
    · obtain ⟨id'', hid'', heq⟩ := hnums id hmem
      exact ⟨id'', hid'', heq.trans hnum⟩

/-- A height without an identity gets one; a full window gives up its lowest. -/
theorem newIdentity (replace : Bool) (hbound : j.identities.length ≤ maxOptimisticHistoryBlocks)
    (hsafe : j.lowersFloor c = false) (hnone : j.retainedIdentity c.blockNumber = none) :
    Kept snapshot floor (j.recordIdentity c replace) named' items current fun n =>
      n = c.blockNumber ∨ ∃ id ∈ j.identities, id.blockNumber = n := by
  have hnew := retainedIdentity_eq_none.mp hnone
  have hnot : j.atOrBelowFloor c.blockNumber ≠ true := by
    rw [Ne, atOrBelowFloor_iff h.atFloor]
    exact not_le.mpr hfloor
  have hinv : JournalInv snapshot floor
      { j with identities := JournalState.inserted c j.identities } named' items current := by
    refine h.name hfloor hevents ⟨inserted_sorted h.names.sorted hnew, ?_,
      fun id hid => ⟨id, mem_inserted.mpr (.inr hid), rfl⟩, c, mem_inserted.mpr (.inl rfl), rfl⟩
    intro id hid
    rcases mem_inserted.mp hid with rfl | hmem
    · exact .inl ⟨rfl, rfl⟩
    · exact .inr ⟨hnew id hmem, hmem⟩
  have hlen := length_inserted c j.identities
  have hheights : ∀ n, n = c.blockNumber ∨ (∃ id ∈ j.identities, id.blockNumber = n) →
      ∃ id ∈ JournalState.inserted c j.identities, id.blockNumber = n := by
    rintro n (rfl | ⟨id, hid, rfl⟩)
    · exact ⟨c, mem_inserted.mpr (.inl rfl), rfl⟩
    · exact ⟨id, mem_inserted.mpr (.inr hid), rfl⟩
  rw [JournalState.recordIdentity, if_neg hnot, hnone]
  dsimp only
  rw [insertIdentity_eq c hbound]
  split
  next hlt =>
    exact ⟨floor, le_rfl, hinv, hlen.trans_le hlt, fun n hn => .inr (hheights n hn)⟩
  next hge =>
    obtain ⟨first, rest, hcons⟩ : ∃ first rest,
        JournalState.inserted c j.identities = first :: rest :=
      exists_cons_of_length_pos (hlen ▸ succ_pos _)
    -- the evicted identity is `c` itself or the lowest of a full window
    have hle : floor.blockNumber ≤ first.blockNumber := by
      by_contra hlt
      have hmem : first ∈ JournalState.inserted c j.identities := hcons ▸ mem_cons_self
      rcases mem_inserted.mp hmem with rfl | hold
      · exact hlt hfloor.le
      cases hids : j.identities with
      | nil => simp [hids] at hold
      | cons lowest others =>
        have hfirst : first.blockNumber ≤ lowest.blockNumber := by
          have : lowest ∈ first :: rest :=
            hcons ▸ mem_inserted.mpr (.inr (hids ▸ mem_cons_self))
          rcases mem_cons.mp this with rfl | hrest
          · exact le_rfl
          · exact ((pairwise_cons.mp (hcons ▸ hinv.names.sorted)).1 _ hrest).le
        have hlowest : lowest.blockNumber ≤ first.blockNumber := by
          rw [hids] at hold
          rcases mem_cons.mp hold with rfl | hrest
          · exact le_rfl
          · exact ((pairwise_cons.mp (hids ▸ h.names.sorted)).1 _ hrest).le
        have : j.lowersFloor c = true := by
          simp only [JournalState.lowersFloor, hnone, Option.isNone_none, Bool.true_and,
            Bool.and_eq_true, decide_eq_true_eq, h.atFloor, Option.any_some, hids,
            List.head?_cons]
          exact ⟨hids ▸ not_lt.mp hge, hfloor, hlowest.trans_lt (not_le.mp hlt)⟩
        exact absurd (this.symm.trans hsafe) (by decide)
    have hids := (evictIdentity_eq
      { j with identities := JournalState.inserted c j.identities } hcons).2.1
    refine ⟨first, hle, hinv.evict hcons hle, ?_, ?_⟩
    · rw [hids]
      rw [hcons, length_cons] at hlen
      exact (Nat.succ.inj hlen).trans_le hbound
    intro n hn
    obtain ⟨id, hid, rfl⟩ := hheights n hn
    rw [hcons] at hid
    rcases mem_cons.mp hid with rfl | hrest
    · exact .inl le_rfl
    · exact .inr ⟨id, hids ▸ hrest, rfl⟩

/-- **Recording an identity above the floor.**  The events `named'` may now include events of the
recorded height, as long as their hashes do not contradict it. -/
theorem recordIdentity (replace : Bool)
    (hbound : j.identities.length ≤ maxOptimisticHistoryBlocks) (hsafe : j.lowersFloor c = false) :
    Kept snapshot floor (j.recordIdentity c replace) named' items current fun n =>
      n = c.blockNumber ∨ ∃ id ∈ j.identities, id.blockNumber = n := by
  cases hid : j.retainedIdentity c.blockNumber with
  | none => exact h.newIdentity hfloor hevents replace hbound hsafe hid
  | some id =>
    obtain ⟨hinv, hmap⟩ := h.renameIdentity hfloor hevents replace hid
    refine ⟨floor, le_rfl, hinv, ?_, fun n hn => .inr ?_⟩
    · have hlen := congrArg List.length hmap
      simp only [length_map] at hlen
      exact hlen.trans_le hbound
    have hmem : n ∈ j.identities.map ChainCursor.blockNumber := by
      obtain ⟨hin, hnum⟩ := retainedIdentity_eq_some hid
      rcases hn with rfl | ⟨id', hid', rfl⟩
      · exact mem_map.mpr ⟨id, hin, hnum⟩
      · exact mem_map_of_mem hid'
    rw [← hmap] at hmem
    exact mem_map.mp hmem

end JournalInv

end Lunarbase.Client
