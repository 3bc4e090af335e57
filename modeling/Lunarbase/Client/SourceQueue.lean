import Lunarbase.Client.Reorder
import Mathlib.Algebra.Order.BigOperators.Group.Multiset
import Mathlib.Algebra.Order.Floor.Div
import Mathlib.Logic.Relation

/-!
# Client — SourceQueue

The queue between the source and the reducer (`tasks/source_queue.rs`, `client_types.rs`).  One
semaphore keeps the count bound and the byte bound: an update takes as many permits as it retains
bytes, and at least its share of the pool.  A permit is owned by a send, then by the queued item
until the item is dropped, wherever it is kept.
-/

namespace Lunarbase.Client

/-- `MIN_UPDATE_QUEUE_BYTE_CAPACITY`. -/
def minUpdateQueueByteCapacity : Nat := 1024

/-- The buffer bounds of a `ClientConnectConfig` that `validate` accepts. -/
structure BufferBounds where
  bufferCapacity : Nat
  bufferByteCapacity : Nat
  positive : 0 < bufferCapacity
  least : minUpdateQueueByteCapacity ≤ bufferByteCapacity
  most : bufferByteCapacity ≤ u32Max

structure QueueLayout extends Layout where
  queuedChainUpdate : Nat

structure QueuedChainUpdate where
  update : HeldUpdate
  bytes : Nat
  bytePermit : Nat

namespace QueuedChainUpdate

def retainedBytes (sizes : QueueLayout) (update : HeldUpdate) : Nat :=
  saturatingAdd (update.retainedBytes sizes.toLayout) (sizes.queuedChainUpdate - sizes.chainUpdate)

end QueuedChainUpdate

open QueuedChainUpdate

def overBudget : String :=
  "source update exceeded reducer queue byte budget; canonical recovery required"

def normalizeUpdate (sizes : QueueLayout) (update : HeldUpdate) (byteCapacity : Nat) :
    HeldUpdate :=
  if retainedBytes sizes update ≤ byteCapacity then update.normalizeForRetention
  else .gap (updateCursor (update.value sizes.toLayout)) overBudget overBudget.length

variable (sizes : QueueLayout) (bounds : BufferBounds) (update : HeldUpdate)

/-- `queue_item_byte_floor`. -/
def BufferBounds.itemByteFloor : Nat := bounds.bufferByteCapacity ⌈/⌉ bounds.bufferCapacity

/-- What `send_update` holds once it has its permits; their number is cast to 32 bits. -/
def permitted : QueuedChainUpdate :=
  let update := normalizeUpdate sizes update bounds.bufferByteCapacity
  let bytes := retainedBytes sizes update
  ⟨update, bytes, max bytes bounds.itemByteFloor % 2 ^ 32⟩

/-- The queue and everything that holds permits of it. -/
structure SourceQueue where
  /-- The free permits of `queue_byte_budget`. -/
  available : Nat
  /-- Sends with permits, before there is room in the channel. -/
  sending : Multiset QueuedChainUpdate
  channel : List QueuedChainUpdate
  /-- Items taken from the channel: a batch, the backlog or the recovery stage. -/
  taken : Multiset QueuedChainUpdate
  /-- Items in `drop`, after the counters and before the permits. -/
  dropping : Multiset QueuedChainUpdate
  depth : Nat
  bytes : Nat

namespace SourceQueue

def new : SourceQueue := ⟨bounds.bufferByteCapacity, 0, [], 0, 0, 0, 0⟩

def live (q : SourceQueue) : Multiset QueuedChainUpdate := q.channel + q.taken

def holders (q : SourceQueue) : Multiset QueuedChainUpdate := q.sending + q.live + q.dropping

/-- `RecoveryStage::set_canonical_head` at one update. -/
def setCanonicalHead (head : ChainCursor) : HeldUpdate → HeldUpdate
  | .gap none reason capacity => .gap (some head) reason capacity
  | update => update

/-- A step of a held update towards the reducer and out: into the channel, out of it, and its
permits given back. -/
inductive Passes : SourceQueue → SourceQueue → Prop where
  | send {q item rest} (h : q.sending = item ::ₘ rest)
      (room : q.channel.length < bounds.bufferCapacity) :
      Passes q { q with
        sending := rest
        channel := q.channel ++ [item]
        depth := q.depth + 1
        bytes := q.bytes + item.bytes }
  | receive {q item rest} (h : q.channel = item :: rest) :
      Passes q { q with channel := rest, taken := item ::ₘ q.taken }
  -- `dequeue`, or a drop of the item: `QueueAccounting::release`, then the permit
  | release {q item rest} (h : q.taken = item ::ₘ rest) :
      Passes q { q with
        taken := rest
        dropping := item ::ₘ q.dropping
        depth := q.depth - 1
        bytes := q.bytes - item.bytes }
  | free {q item rest} (h : q.dropping = item ::ₘ rest) :
      Passes q { q with available := q.available + item.bytePermit, dropping := rest }

/-- One step of any of the tasks.  A send that returns before it has permits changes nothing. -/
inductive Step : SourceQueue → SourceQueue → Prop where
  | acquire {q} (update : HeldUpdate)
      (h : (permitted sizes bounds update).bytePermit ≤ q.available) :
      Step q { q with
        available := q.available - (permitted sizes bounds update).bytePermit
        sending := permitted sizes bounds update ::ₘ q.sending }
  -- cancelled, overtaken by a recovery, or the channel is closed
  | giveUp {q item rest} (h : q.sending = item ::ₘ rest) :
      Step q { q with available := q.available + item.bytePermit, sending := rest }
  | stage {q item rest} (head : ChainCursor) (h : q.taken = item ::ₘ rest) :
      Step q { q with
        taken := { item with update := setCanonicalHead head item.update } ::ₘ rest }
  | pass {q q'} (h : Passes bounds q q') : Step q q'

/-- Every permit is free or held, every holder has what its update asks for, and the counters
count the live items. -/
structure Accounted (q : SourceQueue) : Prop where
  permits : q.available + (q.holders.map (·.bytePermit)).sum = bounds.bufferByteCapacity
  charged : ∀ item ∈ q.holders, item.bytes = retainedBytes sizes item.update ∧
    item.bytePermit = max item.bytes bounds.itemByteFloor
  depth : q.depth = q.live.card
  bytes : q.bytes = (q.live.map (·.bytes)).sum

end SourceQueue

/-! ### Permits -/

variable {sizes bounds update}

/-- The gap that stands for an update fits the smallest budget. -/
abbrev GapFits (sizes : QueueLayout) : Prop :=
  retainedBytes sizes (.gap none overBudget overBudget.length) ≤ minUpdateQueueByteCapacity

theorem retainedBytes_normalizeUpdate_le (hgap : GapFits sizes) :
    retainedBytes sizes (normalizeUpdate sizes update bounds.bufferByteCapacity) ≤
      bounds.bufferByteCapacity := by
  unfold normalizeUpdate
  split
  next hle => simpa [retainedBytes] using hle
  next => exact le_trans hgap bounds.least

theorem BufferBounds.itemByteFloor_le : bounds.itemByteFloor ≤ bounds.bufferByteCapacity :=
  (ceilDiv_le_iff_le_smul bounds.positive).mpr (Nat.le_mul_of_pos_left _ bounds.positive)

/-- The cast loses nothing: a send asks for at most the whole pool. -/
theorem permitted_bytePermit (hgap : GapFits sizes) :
    (permitted sizes bounds update).bytePermit =
      max (permitted sizes bounds update).bytes bounds.itemByteFloor ∧
    (permitted sizes bounds update).bytePermit ≤ bounds.bufferByteCapacity := by
  have hle : max (permitted sizes bounds update).bytes bounds.itemByteFloor ≤
      bounds.bufferByteCapacity :=
    max_le (retainedBytes_normalizeUpdate_le hgap) BufferBounds.itemByteFloor_le
  have hcast : (permitted sizes bounds update).bytePermit =
      max (permitted sizes bounds update).bytes bounds.itemByteFloor :=
    Nat.mod_eq_of_lt (Nat.lt_of_le_of_lt (hle.trans bounds.most) (by decide))
  exact ⟨hcast, hcast ▸ hle⟩

/-! ### Runs -/

namespace SourceQueue

variable {q q' : SourceQueue}

theorem Accounted.pass (hq : Accounted sizes bounds q) (h : Passes bounds q q') :
    Accounted sizes bounds q' := by
  obtain ⟨hpermits, hcharged, hdepth, hbytes⟩ := hq
  cases h with
  | free h =>
    refine ⟨?_, fun item hitem => hcharged item ?_, hdepth, hbytes⟩
    · simp [holders, live, h] at hpermits ⊢
      omega
    · simp [holders, live, h] at hitem ⊢
      tauto
  | send h room | receive h | release h =>
    refine ⟨?_, fun item hitem => hcharged item ?_, ?_, ?_⟩
    · simp [holders, live, h] at hpermits ⊢
      omega
    · simp [holders, h, live] at hitem ⊢
      tauto
    · simp [live, h] at hdepth ⊢
      omega
    · simp [live, h] at hbytes ⊢
      omega

theorem Accounted.step (hgap : GapFits sizes) (hq : Accounted sizes bounds q)
    (h : Step sizes bounds q q') : Accounted sizes bounds q' := by
  have ⟨hpermits, hcharged, hdepth, hbytes⟩ := hq
  cases h with
  | pass h => exact hq.pass h
  | acquire update h =>
    refine ⟨?_, ?_, hdepth, hbytes⟩
    · simp [holders, live] at hpermits ⊢
      omega
    intro item hitem
    have hcases : item = permitted sizes bounds update ∨ item ∈ q.holders := by
      simpa [holders, live, or_assoc] using hitem
    rcases hcases with rfl | hold
    · exact ⟨rfl, (permitted_bytePermit hgap).1⟩
    · exact hcharged item hold
  | giveUp h =>
    refine ⟨?_, fun item hitem => hcharged item ?_, hdepth, hbytes⟩
    · simp [holders, live, h] at hpermits ⊢
      omega
    · simp [holders, live, h] at hitem ⊢
      tauto
  | @stage item rest head h =>
    refine ⟨?_, ?_, ?_, ?_⟩
    · simpa [holders, live, h] using hpermits
    · intro other hother
      have hcases : other = { item with update := setCanonicalHead head item.update } ∨
          other ∈ q.holders := by
        simp [holders, h, live] at hother ⊢
        tauto
      rcases hcases with rfl | hold
      · have hitem := hcharged item (by simp [holders, live, h])
        refine ⟨hitem.1.trans ?_, hitem.2⟩
        -- the cursor of a gap is no part of what it retains
        unfold setCanonicalHead
        split
        next heq => exact heq ▸ rfl
        next => rfl
      · exact hcharged other hold
    · simpa [live, h] using hdepth
    · simpa [live, h] using hbytes

theorem accounted_of_run (hgap : GapFits sizes)
    (h : Relation.ReflTransGen (Step sizes bounds) (new bounds) q) : Accounted sizes bounds q := by
  induction h with
  | refl => exact ⟨by simp [new, holders, live], by simp [new, holders, live], rfl, rfl⟩
  | tail _ hstep ih => exact ih.step hgap hstep

/-- Each holder has at least its share of the pool. -/
theorem Accounted.card_le (h : Accounted sizes bounds q) :
    q.holders.card ≤ bounds.bufferCapacity := by
  have hshares : q.holders.card * bounds.itemByteFloor ≤ (q.holders.map (·.bytePermit)).sum := by
    have hle := Multiset.card_nsmul_le_sum (s := q.holders.map (·.bytePermit))
      (a := bounds.itemByteFloor) (by
        intro permit hpermit
        obtain ⟨item, hitem, rfl⟩ := Multiset.mem_map.mp hpermit
        exact (h.charged item hitem).2 ▸ le_max_right _ _)
    simpa using hle
  have hpool : bounds.bufferByteCapacity ≤ bounds.bufferCapacity * bounds.itemByteFloor :=
    le_smul_ceilDiv bounds.positive
  have hpositive : 0 < bounds.bufferByteCapacity := lt_of_lt_of_le (by decide) bounds.least
  by_contra hmore
  have hover := Nat.mul_le_mul_right bounds.itemByteFloor (not_le.mp hmore)
  have hpermits := h.permits
  have hfloor : bounds.itemByteFloor = 0 := by
    rw [Nat.succ_mul] at hover
    omega
  rw [hfloor] at hpool
  omega

end SourceQueue

open SourceQueue

/-- **The permits bound the memory.**  Whatever the tasks do, the updates that hold permits are
within both bounds and the counters are those of the live items.  An update that is too large
becomes a gap at its cursor, and no send asks for more permits than there are or fewer than its
update's bytes. -/
theorem permits_bound_memory (sizes : QueueLayout) (bounds : BufferBounds) (hgap : GapFits sizes) :
    (∀ q, Relation.ReflTransGen (Step sizes bounds) (new bounds) q →
      q.holders.card ≤ bounds.bufferCapacity ∧
      (q.holders.map fun item => retainedBytes sizes item.update).sum ≤
        bounds.bufferByteCapacity ∧
      q.depth = q.live.card ∧
      q.bytes = (q.live.map fun item => retainedBytes sizes item.update).sum) ∧
    ∀ update : HeldUpdate,
      (bounds.bufferByteCapacity < retainedBytes sizes update →
        (permitted sizes bounds update).update =
          .gap (updateCursor (update.value sizes.toLayout)) overBudget overBudget.length) ∧
      (permitted sizes bounds update).bytePermit ≤ bounds.bufferByteCapacity ∧
      retainedBytes sizes (permitted sizes bounds update).update ≤
        (permitted sizes bounds update).bytePermit := by
  refine ⟨fun q hrun => ?_, fun update => ⟨fun hlarge => if_neg (not_le.mpr hlarge), ?_, ?_⟩⟩
  · have h := accounted_of_run hgap hrun
    have hbytes : ∀ items ≤ q.holders, (items.map (·.bytes)) =
        items.map fun item => retainedBytes sizes item.update := fun items hle =>
      Multiset.map_congr rfl fun item hitem => (h.charged item (Multiset.mem_of_le hle hitem)).1
    refine ⟨h.card_le, ?_, h.depth, ?_⟩
    · have hle := Multiset.sum_map_le_sum_map (s := q.holders) (·.bytes) (·.bytePermit)
        fun item hitem => (h.charged item hitem).2 ▸ le_max_left _ _
      rw [← hbytes _ le_rfl]
      exact hle.trans (h.permits ▸ Nat.le_add_left _ _)
    · rw [h.bytes, hbytes _ ((Multiset.le_add_left _ _).trans (Multiset.le_add_right _ _))]
  · exact (permitted_bytePermit hgap).2
  · exact (permitted_bytePermit hgap).1 ▸ le_max_left _ _

/-- Sizes of an update, and the least bounds for three of them. -/
def smallSizes : QueueLayout := ⟨⟨200, 160, 600, 352⟩, 440⟩

def leastBounds : BufferBounds := ⟨3, 1024, by decide, le_rfl, by decide⟩

def smallGap : QueuedChainUpdate := permitted smallSizes leastBounds (.gap none "" 0)

/-- Two sends have their permits, and the update of one is in the channel. -/
theorem exists_two_held :
    ∃ q, Relation.ReflTransGen (Step smallSizes leastBounds) (new leastBounds) q ∧
      q.sending.card = 1 ∧ q.channel.length = 1 := by
  have hfirst : Relation.ReflTransGen (Step smallSizes leastBounds) (new leastBounds) _ :=
    .single (.acquire (.gap none "" 0) (by decide))
  have hsecond := hfirst.tail (.acquire (.gap none "" 0) (by decide))
  have hboth : _ = smallGap ::ₘ {smallGap} := rfl
  exact ⟨_, hsecond.tail (.pass (.send hboth (by decide))), rfl, rfl⟩

theorem permits_bound_memory_smallest :
    ∃ q, Relation.ReflTransGen (Step smallSizes leastBounds) (new leastBounds) q ∧
      q.sending.card = 1 ∧ q.channel.length = 1 ∧ q.holders.card ≤ 3 ∧ q.depth = q.live.card ∧
      (permitted smallSizes leastBounds (.gap none "" 5000)).bytePermit ≤ 1024 := by
  obtain ⟨q, hrun, hsending, hchannel⟩ := exists_two_held
  have hbound := permits_bound_memory smallSizes leastBounds (by decide)
  obtain ⟨hcard, -, hdepth, -⟩ := hbound.1 q hrun
  exact ⟨q, hrun, hsending, hchannel, hcard, hdepth, (hbound.2 _).2.1⟩

/-! ### Permits come back -/

variable (bounds : BufferBounds) {q : SourceQueue}

/-- What holds permits can be passed on until nothing does: the channel is emptied first, so that
every send finds room. -/
theorem SourceQueue.drains (q : SourceQueue) :
    ∃ q', Relation.ReflTransGen (Passes bounds) q q' ∧ q'.holders = 0 := by
  obtain ⟨available, sending, channel, taken, dropping, depth, bytes⟩ := q
  induction channel generalizing taken with
  | cons item rest ih =>
    obtain ⟨q', hrun, hempty⟩ := ih (item ::ₘ taken)
    exact ⟨q', .head (.receive rfl) hrun, hempty⟩
  | nil =>
  induction sending using Multiset.induction generalizing taken depth bytes with
  | cons item rest ih =>
    obtain ⟨q', hrun, hempty⟩ := ih (depth + 1) (bytes + item.bytes) (item ::ₘ taken)
    exact ⟨q', .head (.send rfl bounds.positive) (.head (.receive rfl) hrun), hempty⟩
  | empty =>
  induction taken using Multiset.induction generalizing dropping depth bytes with
  | cons item rest ih =>
    obtain ⟨q', hrun, hempty⟩ := ih (item ::ₘ dropping) (depth - 1) (bytes - item.bytes)
    exact ⟨q', .head (.release rfl) hrun, hempty⟩
  | empty =>
  induction dropping using Multiset.induction generalizing available with
  | cons item rest ih =>
    obtain ⟨q', hrun, hempty⟩ := ih (available + item.bytePermit)
    exact ⟨q', .head (.free rfl) hrun, hempty⟩
  | empty => exact ⟨_, .refl, rfl⟩

/-- **No send is stuck.**  One that has its permits finds room in the channel.  From every state of
a run, with nothing given up, everything that holds permits can be sent, received and dropped; all
permits are then back, and are enough for any update. -/
theorem permits_come_back {sizes : QueueLayout} (hgap : GapFits sizes)
    (h : Relation.ReflTransGen (Step sizes bounds) (new bounds) q) :
    (∀ item ∈ q.sending, q.channel.length < bounds.bufferCapacity) ∧
    ∃ q', Relation.ReflTransGen (Passes bounds) q q' ∧ q'.holders = 0 ∧
      q'.available = bounds.bufferByteCapacity ∧
      ∀ update, (permitted sizes bounds update).bytePermit ≤ q'.available := by
  have haccounted := accounted_of_run hgap h
  refine ⟨fun item hitem => ?_, ?_⟩
  · have hcard := haccounted.card_le
    have hsome : 0 < q.sending.card := Multiset.card_pos_iff_exists_mem.mpr ⟨item, hitem⟩
    simp only [holders, live, Multiset.card_add, Multiset.coe_card] at hcard
    omega
  obtain ⟨q', hrun, hempty⟩ := drains bounds q
  have hdrained : Accounted sizes bounds q' := by
    clear hempty
    induction hrun with
    | refl => exact haccounted
    | tail _ hpass ih => exact ih.pass hpass
  have hpermits := hdrained.permits
  rw [hempty, Multiset.map_zero, Multiset.sum_zero, add_zero] at hpermits
  exact ⟨q', hrun, hempty, hpermits, fun update => hpermits ▸ (permitted_bytePermit hgap).2⟩

theorem permits_come_back_smallest :
    ∃ q q', q.sending.card = 1 ∧ q.channel.length = 1 ∧
      Relation.ReflTransGen (Passes leastBounds) q q' ∧ q'.available = 1024 := by
  obtain ⟨q, hrun, hsending, hchannel⟩ := exists_two_held
  obtain ⟨-, q', hdrain, -, havailable, -⟩ := permits_come_back leastBounds (by decide) hrun
  exact ⟨q, q', hsending, hchannel, hdrain, havailable⟩

end Lunarbase.Client
