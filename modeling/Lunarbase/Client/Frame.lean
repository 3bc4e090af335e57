import Lunarbase.Client.Finality
import Lunarbase.Client.JournalOps
import Lunarbase.Math.Codec

/-!
# Client — Frame

What an event changes, and what the journal makes of it.

* `applyEvent_confined`: an accepted event moves what it names, by the edit it names, and leaves
  the rest of the data as it was;
* `event_effects_exact`: the reported effect is exact, and the logs of a block that left no
  before-image above the rollback floor have changed nothing.
-/

namespace Lunarbase.Client

open Math (LaneState Slot0Setter decodeLaneSlot0)
open List Finmap Option Except

/-! ### What an event names -/

namespace QuoteData

/-- The lane of `asset` is there and is replaced by a related one; nothing else differs. -/
def MovesLane (asset : Address) (R : LaneState → LaneState → Prop) (d d' : QuoteData) : Prop :=
  ∃ lane lane', d.lane asset = some lane ∧ R lane lane' ∧ d' = d.setLane asset lane'

/-- The lane keeps its reserve and its principal, and one field of its word is edited. -/
def EditsSlot0 (setter : Slot0Setter) (lane lane' : LaneState) : Prop :=
  decodeLaneSlot0 lane'.slot0 = setter.edit (decodeLaneSlot0 lane.slot0) ∧
    lane' = { lane with slot0 := lane'.slot0 }

/-- Only the partner fee of `asset` differs, if anything does. -/
def SetsFee (router asset : Address) (fee : BitVec 32) (d d' : QuoteData) : Prop :=
  d' = d ∨ ∃ verified verified', d.verifiedRouter = some verified ∧ verified.router = router ∧
    verified' = { verified with partnerFeeBps := verified.partnerFeeBps.insert asset fee } ∧
    d' = { d with verifiedRouter := some verified' }

def withCashReserve (d : QuoteData) (cashReserve : BitVec 128) : QuoteData :=
  { d with state := { d.state with cashReserve := cashReserve } }

/-- The cash reserve and, for an asset that is not cash, the reserve of its lane. -/
def SyncsReserves (asset : Address) (assetReserve cashReserve : BitVec 128) (d d' : QuoteData) :
    Prop :=
  if asset = d.state.cash then d' = d.withCashReserve cashReserve
  else ∃ lane, d.lane asset = some lane ∧
    d' = (d.withCashReserve cashReserve).setLane asset { lane with assetReserve := assetReserve }

/-- The lane of `asset` and its partner fee are gone. -/
def withoutLane (d : QuoteData) (asset : Address) : QuoteData :=
  { d with
    state := { d.state with lanes := d.state.lanes.erase asset }
    verifiedRouter := d.verifiedRouter.map fun verified =>
      { verified with partnerFeeBps := verified.partnerFeeBps.erase asset } }

/-- The difference an event may make. -/
def Confined (d d' : QuoteData) : QuoteEvent → Prop
  | .laneAdded asset => ∃ lane', d' = d.setLane asset lane'
  | .laneRemoved asset => d' = d.withoutLane asset
  | .laneUpdated asset slot0 =>
    MovesLane asset (fun lane lane' => lane' = { lane with slot0 := slot0 }) d d'
  | .slippageKSet asset newK => MovesLane asset (EditsSlot0 (.slippageKBps newK)) d d'
  | .lanePausedSet asset paused => MovesLane asset (EditsSlot0 (.paused paused)) d d'
  | .pricePushThresholdSet asset threshold enabled =>
    MovesLane asset (EditsSlot0 (.pricePushThreshold threshold enabled)) d d'
  | .blockDelaySet asset blockDelay => MovesLane asset (EditsSlot0 (.blockDelay blockDelay)) d d'
  | .partnerInfoSet router asset fee | .partnerFeeSet router asset fee =>
    SetsFee router asset fee d d'
  | .whitelistSet _ _ => d' = d
  | .blacklistFeeMultiplierSet multiplier =>
    d' = { d with state := { d.state with blacklistFeeMultiplier := multiplier } }
  | .depositExecuted asset principal =>
    MovesLane asset (fun lane lane' =>
      lane'.totalPrincipalAmount.toNat = lane.totalPrincipalAmount.toNat + principal.toNat ∧
        lane' = { lane with totalPrincipalAmount := lane'.totalPrincipalAmount }) d d'
  | .withdrawalExecuted asset principal =>
    MovesLane asset (fun lane lane' =>
      lane'.totalPrincipalAmount.toNat + principal.toNat = lane.totalPrincipalAmount.toNat ∧
        lane' = { lane with totalPrincipalAmount := lane'.totalPrincipalAmount }) d d'
  | .sync asset assetReserve cashReserve => SyncsReserves asset assetReserve cashReserve d d'
  | .implementationUpgraded _ => False

variable {d d' : QuoteData} {asset : Address} {changed : Bool}

/-! ### The events -/

theorem setLane_self {lane : LaneState} (h : d.lane asset = some lane) :
    d.setLane asset lane = d := by
  have hlanes : d.state.lanes.insert asset lane = d.state.lanes := by
    refine ext_lookup fun other => ?_
    by_cases hother : other = asset
    · rw [hother, lookup_insert]
      exact h.symm
    · rw [lookup_insert_of_ne _ hother]
  rw [setLane, hlanes]

variable {next : U256 → Except ReducerError U256}

theorem updateSlot0_moves (h : d.updateSlot0 asset next = (d', .ok changed)) :
    MovesLane asset (fun lane lane' => next lane.slot0 = .ok lane'.slot0 ∧
      lane' = { lane with slot0 := lane'.slot0 }) d d' := by
  rw [updateSlot0] at h
  split at h
  · cases h
  next lane hlane =>
    split at h
    · cases h
    next word hword =>
      split_ifs at h with hsame
      · cases h
        exact ⟨lane, lane, hlane, ⟨hsame ▸ hword, rfl⟩, (setLane_self hlane).symm⟩
      · cases h
        exact ⟨lane, _, hlane, ⟨hword, rfl⟩, rfl⟩

/-- A lane event that writes one field of the word. -/
theorem updateSlot0_edits (setter : Slot0Setter)
    (hnext : ∀ word word', next word = .ok word' → setter.run word = .ok word')
    (h : d.updateSlot0 asset next = (d', .ok changed)) :
    MovesLane asset (EditsSlot0 setter) d d' := by
  obtain ⟨lane, lane', hlane, ⟨hword, hrest⟩, hd'⟩ := updateSlot0_moves h
  exact ⟨lane, lane', hlane, ⟨Slot0Setter.run_view (hnext _ _ hword), hrest⟩, hd'⟩

theorem updatePrincipal_moves {next : BitVec 128 → Option (BitVec 128)}
    (h : d.updatePrincipal asset next = (d', .ok changed)) :
    MovesLane asset (fun lane lane' =>
      next lane.totalPrincipalAmount = some lane'.totalPrincipalAmount ∧
        lane' = { lane with totalPrincipalAmount := lane'.totalPrincipalAmount }) d d' := by
  rw [updatePrincipal] at h
  split at h
  · cases h
  next lane hlane =>
    split at h
    · cases h
    next amount hamount =>
      split_ifs at h with hsame
      · cases h
        exact ⟨lane, lane, hlane, ⟨hsame ▸ hamount, rfl⟩, (setLane_self hlane).symm⟩
      · cases h
        exact ⟨lane, _, hlane, ⟨hamount, rfl⟩, rfl⟩

theorem setPartnerFee_sets {router : Address} {fee : BitVec 32}
    (h : d.setPartnerFee router asset fee = (d', .ok changed)) : SetsFee router asset fee d d' := by
  rw [setPartnerFee] at h
  split at h
  · exact .inl (Prod.mk.inj h).1.symm
  next verified hverified =>
    split_ifs at h with hother hwide hsame
    · exact .inl (Prod.mk.inj h).1.symm
    · cases h
    · exact .inl (Prod.mk.inj h).1.symm
    refine .inr ⟨verified, _, hverified, ?_, rfl, (Prod.mk.inj h).1.symm⟩
    by_contra hne
    exact hother (.inl fun heq => hne heq.symm)

theorem addLane_sets (h : d.addLane asset = (d', .ok changed)) :
    ∃ lane', d' = d.setLane asset lane' := by
  rw [addLane] at h
  split at h
  · cases h
  dsimp only at h
  split_ifs at h with hsame
  · cases h
    cases hlane : d.lane asset with
    | some lane => exact ⟨lane, (setLane_self hlane).symm⟩
    | none =>
      -- the default lane has neither flag
      rw [hlane] at hsame
      exact absurd hsame (by decide)
  · exact ⟨_, (Prod.mk.inj h).1.symm⟩

theorem erase_of_lookup_eq_none {β : Type} {map : Finmap fun _ : Address => β}
    (h : map.lookup asset = none) : map.erase asset = map := by
  refine ext_lookup fun other => ?_
  by_cases hother : other = asset
  · rw [hother, lookup_erase, h]
  · rw [lookup_erase_ne hother]

theorem removeLane_eq (h : d.removeLane asset = (d', .ok changed)) : d' = d.withoutLane asset := by
  cases h
  have hlanes : (if (d.lane asset).isSome then
      { d with state := { d.state with lanes := d.state.lanes.erase asset } } else d) =
      { d with state := { d.state with lanes := d.state.lanes.erase asset } } := by
    split_ifs with hlane
    · rfl
    · rw [erase_of_lookup_eq_none (not_isSome_iff_eq_none.mp hlane)]
  rw [hlanes, withoutLane]
  cases hverified : d.verifiedRouter with
  | none => simp
  | some verified =>
    cases hfee : verified.partnerFeeBps.lookup asset with
    | some fee => simp [hfee]
    | none => simp [hfee, erase_of_lookup_eq_none hfee]

theorem syncReserves_syncs {assetReserve cashReserve : BitVec 128}
    (h : d.syncReserves asset assetReserve cashReserve = (d', .ok changed)) :
    SyncsReserves asset assetReserve cashReserve d d' := by
  rw [syncReserves] at h
  rw [SyncsReserves]
  split_ifs at h with hunknown hsame hcash
  · cases h
  · cases h
    obtain ⟨hreserve, hlane⟩ := hsame
    have hcashReserve : d.withCashReserve cashReserve = d := by rw [withCashReserve, ← hreserve]
    rw [hcashReserve]
    split_ifs with hcash
    · rfl
    cases hasset : d.lane asset with
    | none => exact absurd ⟨hcash, hasset⟩ hunknown
    | some lane =>
      have hall := hlane.resolve_left hcash
      rw [hasset, all_some, decide_eq_true_eq] at hall
      exact ⟨lane, rfl, by rw [← hall]; exact (setLane_self hasset).symm⟩
  · rw [if_pos hcash]
    exact (Prod.mk.inj h).1.symm
  · rw [if_neg hcash]
    split at h
    next hnone => exact absurd ⟨hcash, hnone⟩ hunknown
    next lane hlane => exact ⟨lane, hlane, (Prod.mk.inj h).1.symm⟩

/-- **An accepted event changes what it names, and nothing else.** -/
theorem applyEvent_confined {event : QuoteEvent} (h : d.applyEvent event = (d', .ok changed)) :
    d.Confined d' event := by
  cases event with
  | laneAdded asset => exact addLane_sets h
  | laneRemoved asset => exact removeLane_eq h
  | laneUpdated asset slot0 =>
    rw [applyEvent] at h
    obtain ⟨lane, lane', hlane, ⟨hword, hrest⟩, hd'⟩ := updateSlot0_moves h
    rw [← ok.inj hword] at hrest
    exact ⟨lane, lane', hlane, hrest, hd'⟩
  | slippageKSet asset newK =>
    rw [applyEvent] at h
    split_ifs at h
    · cases h
    · exact updateSlot0_edits (.slippageKBps newK) (fun _ _ hnext => congrArg _ (ok.inj hnext)) h
  | lanePausedSet asset paused =>
    exact updateSlot0_edits (.paused paused) (fun _ _ hnext => congrArg _ (ok.inj hnext)) h
  | pricePushThresholdSet asset threshold enabled =>
    rw [applyEvent] at h
    refine updateSlot0_edits (.pricePushThreshold threshold enabled) (fun word word' hnext => ?_) h
    cases hset : Math.setLaneSlot0PricePushThreshold word threshold enabled with
    | error e => rw [hset] at hnext; cases hnext
    | ok next =>
      rw [hset] at hnext
      rw [Slot0Setter.run, hset]
      exact congrArg _ (ok.inj hnext)
  | blockDelaySet asset blockDelay =>
    exact updateSlot0_edits (.blockDelay blockDelay)
      (fun _ _ hnext => congrArg _ (ok.inj hnext)) h
  | partnerInfoSet router asset fee | partnerFeeSet router asset fee => exact setPartnerFee_sets h
  | whitelistSet router whitelisted =>
    rw [applyEvent] at h
    split_ifs at h
    · cases h
    · exact (Prod.mk.inj h).1.symm
  | blacklistFeeMultiplierSet multiplier =>
    rw [applyEvent] at h
    split_ifs at h with hsame
    · rw [Confined, ← hsame]
      exact (Prod.mk.inj h).1.symm
    · exact (Prod.mk.inj h).1.symm
  | depositExecuted asset principal =>
    rw [applyEvent] at h
    obtain ⟨lane, lane', hlane, ⟨hamount, hrest⟩, hd'⟩ := updatePrincipal_moves h
    exact ⟨lane, lane', hlane, ⟨Word.checkedAdd_eq_some.mp hamount, hrest⟩, hd'⟩
  | withdrawalExecuted asset principal =>
    rw [applyEvent] at h
    obtain ⟨lane, lane', hlane, ⟨hamount, hrest⟩, hd'⟩ := updatePrincipal_moves h
    exact ⟨lane, lane', hlane, ⟨Word.checkedSub_eq_some.mp hamount, hrest⟩, hd'⟩
  | sync asset assetReserve cashReserve => exact syncReserves_syncs h
  | implementationUpgraded implementation => cases h

end QuoteData

variable {event : QuoteEvent} {d d' : QuoteData}

/-- The fee class is not for events to change. -/
theorem QuoteData.Confined.feeClass (h : d.Confined d' event) : d'.feeClass = d.feeClass := by
  have hmoves : ∀ {asset : Address} {R : LaneState → LaneState → Prop},
      QuoteData.MovesLane asset R d d' → d'.feeClass = d.feeClass := by
    rintro asset R ⟨lane, lane', -, -, rfl⟩
    rfl
  have hsets : ∀ {router asset : Address} {fee : BitVec 32},
      QuoteData.SetsFee router asset fee d d' → d'.feeClass = d.feeClass := by
    rintro router asset fee (rfl | ⟨verified, verified', -, -, -, rfl⟩)
    · rfl
    · rfl
  cases event with
  | laneAdded asset => obtain ⟨lane', rfl⟩ := h; rfl
  | laneRemoved asset => obtain rfl := h; rfl
  | laneUpdated asset slot0 | slippageKSet asset newK | lanePausedSet asset paused => exact hmoves h
  | pricePushThresholdSet asset threshold enabled | blockDelaySet asset blockDelay => exact hmoves h
  | partnerInfoSet router asset fee | partnerFeeSet router asset fee => exact hsets h
  | whitelistSet router whitelisted | blacklistFeeMultiplierSet multiplier => obtain rfl := h; rfl
  | depositExecuted asset principal | withdrawalExecuted asset principal => exact hmoves h
  | sync asset assetReserve cashReserve =>
    rw [QuoteData.Confined, QuoteData.SyncsReserves] at h
    split_ifs at h
    · rw [h]
      rfl
    · obtain ⟨lane, -, rfl⟩ := h
      rfl
  | implementationUpgraded implementation => exact h.elim

/-- The reported effect is the difference. -/
theorem QuoteData.applyEvent_effect {changed : Bool} (h : d.applyEvent event = (d', .ok changed)) :
    changed = true ↔ d'.state ≠ d.state ∨ d'.verifiedRouter ≠ d.verifiedRouter := by
  have hclass := (QuoteData.applyEvent_confined h).feeClass
  have hdata : d' ≠ d ↔ d'.state ≠ d.state ∨ d'.verifiedRouter ≠ d.verifiedRouter := by
    rw [← not_and_or, not_iff_not]
    refine ⟨fun heq => by rw [heq]; exact ⟨rfl, rfl⟩, fun ⟨hstate, hrouter⟩ => ?_⟩
    cases d
    cases d'
    simp only at hclass hstate hrouter
    rw [hclass, hstate, hrouter]
  rw [← hdata]
  obtain ⟨hquiet, htold⟩ := d.applyEvent_reports event
  rw [h] at htold hquiet
  constructor
  · rintro rfl
    exact htold rfl
  intro hne
  by_contra hfalse
  exact hne (hquiet fun hok => hfalse (ok.inj hok))

/-! ### Before-images -/

namespace JournalState

/-- The journal has a before-image of the block, or excludes it from rollback. -/
def Accounts (j : JournalState) (c : ChainCursor) : Prop :=
  (∃ b ∈ j.blocks, sameIdentity b.cursor c = true) ∨ j.atOrBelowFloor c.blockNumber = true

variable {j : JournalState} {c cursor : ChainCursor}

theorem sameIdentity_iff {left right : ChainCursor} :
    sameIdentity left right = true ↔ left.chainId = right.chainId ∧
      left.blockNumber = right.blockNumber ∧
      left.executionBlockNumber = right.executionBlockNumber ∧
        left.blockHash = right.blockHash := by
  simp only [sameIdentity, Bool.and_eq_true, beq_iff_eq]
  tauto

theorem sameIdentity_trans {a b : ChainCursor} (hab : sameIdentity a b = true)
    (hbc : sameIdentity b c = true) : sameIdentity a c = true := by
  rw [sameIdentity_iff] at hab hbc ⊢
  obtain ⟨h₁, h₂, h₃, h₄⟩ := hab
  exact ⟨h₁.trans hbc.1, h₂.trans hbc.2.1, h₃.trans hbc.2.2.1, h₄.trans hbc.2.2.2⟩

theorem Bounded.foldl (h : Bounded j) (ops : List JournalOp) :
    Bounded (ops.foldl JournalState.perform j) := by
  induction ops generalizing j with
  | nil => exact h
  | cons op rest ih => exact ih (h.perform op)

/-- A captured image is there, unless it alone exceeds the budget; then the floor is its block. -/
theorem accounts_captureBefore (bytes : ImageCost) (reducer : QuoteReducer)
    (hsame : sameIdentity cursor c = true) : (j.captureBefore bytes cursor reducer).Accounts c := by
  rw [captureBefore]
  split_ifs with hneeds
  · -- the last image is of the block already
    cases hlast : j.blocks.getLast? with
    | none => simp [needsCapture, hlast] at hneeds
    | some b =>
      have hb : sameIdentity b.cursor cursor = true := by simpa [needsCapture, hlast] using hneeds
      exact .inl ⟨b, mem_of_getLast? hlast, sameIdentity_trans hb hsame⟩
  dsimp only
  generalize hj₁ : ({ j.bumpGeneration with
    retainedBytes := _, blocks := j.blocks ++ [⟨cursor, reducer, bytes cursor reducer⟩] } :
      JournalState) = j₁
  obtain ⟨dropped, hdrops, -⟩ := drops_dropFrontWhile overBudget true (j := j₁) le_rfl
  change Drops j₁ (enforceLimits j₁) dropped at hdrops
  have hblocks : j.blocks ++ [⟨cursor, reducer, bytes cursor reducer⟩] =
      dropped ++ (enforceLimits j₁).blocks := by
    rw [← hdrops.blocks, ← hj₁]
  rcases eq_nil_or_concat' (enforceLimits j₁).blocks with hnil | ⟨rest, last, hconcat⟩
  · rw [hnil, append_nil] at hblocks
    refine .inr ?_
    rw [atOrBelowFloor, hdrops.floor, floorAfter, ← hblocks, List.getLast?_concat]
    exact decide_eq_true (sameIdentity_iff.mp hsame).2.1.ge
  rw [hconcat, ← append_assoc] at hblocks
  obtain ⟨-, hlast⟩ := append_inj' hblocks rfl
  refine .inl ⟨last, hconcat ▸ mem_concat_self, ?_⟩
  rw [← singleton_inj.mp hlast]
  exact hsame

theorem mem_or_of_dropWhile {α : Type*} {p : α → Bool} {l : List α} {a : α} (ha : a ∈ l) :
    a ∈ l.dropWhile p ∨ p a = true := by
  rw [← takeWhile_append_dropWhile (p := p) (l := l), mem_append] at ha
  rcases ha with htaken | hdropped
  · exact .inr (mem_takeWhile_imp htaken)
  · exact .inl hdropped

/-- Recording a block evicts no image above the identity that becomes the floor. -/
theorem Accounts.recordIdentity (hbounded : Bounded j) (h : j.Accounts c)
    (hnumber : cursor.blockNumber = c.blockNumber) (replace : Bool) :
    (j.recordIdentity cursor replace).Accounts c := by
  rw [JournalState.recordIdentity]
  split_ifs with hfloor
  · exact h
  obtain ⟨b, hb, hsame⟩ := h.resolve_right fun hbelow => hfloor (hnumber ▸ hbelow)
  have hkept : ∀ j' : JournalState, j'.blocks = j.blocks → j'.Accounts c :=
    fun j' hblocks => .inl ⟨b, hblocks ▸ hb, hsame⟩
  cases j.retainedIdentity cursor.blockNumber with
  | some retained =>
    dsimp only
    split_ifs
    · exact hkept _ rfl
    · exact hkept _ rfl
  | none =>
    show (j.insertIdentity cursor).Accounts c
    rw [insertIdentity_eq cursor hbounded.identities]
    split_ifs
    · exact hkept _ rfl
    obtain ⟨first, rest, hcons⟩ : ∃ first rest, inserted cursor j.identities = first :: rest :=
      exists_cons_of_length_pos (by rw [length_inserted]; exact Nat.succ_pos _)
    obtain ⟨hfloor', -, hblocks⟩ :=
      evictIdentity_eq { j with identities := inserted cursor j.identities } hcons
    rcases mem_or_of_dropWhile (p := fun b => decide (b.number ≤ first.blockNumber)) hb with
      hmem | hbelow
    · exact .inl ⟨b, hblocks ▸ hmem, hsame⟩
    refine .inr ?_
    rw [atOrBelowFloor, hfloor', any_some]
    refine decide_eq_true ?_
    rw [← (sameIdentity_iff.mp hsame).2.1]
    exact of_decide_eq_true hbelow

end JournalState

open JournalState (Bounded Accounts sameIdentity)

/-! ### The logs of a block -/

namespace QuoteIndexer

variable {env : Platform} {s t : QuoteIndexer} {c : ChainCursor} {stage : Stage}

theorem bounded_takes (h : Takes env s stage t) (hs : Bounded s.optimisticHistory) :
    Bounded t.optimisticHistory := by
  obtain ⟨ops, hops⟩ := journal_of_takes h
  rw [hops]
  exact hs.foldl ops

/-- A log of the block `c` is applied. -/
def TakesLogOf (env : Platform) (c : ChainCursor) (s : QuoteIndexer) (stage : Stage)
    (t : QuoteIndexer) : Prop :=
  Takes env s stage t ∧ ∃ bytes cursor event, stage = .log bytes cursor event ∧
    sameIdentity cursor c = true

/-- One log: what it changes is accounted for, and what was accounted for still is. -/
theorem accounts_takesLogOf (h : TakesLogOf env c s stage t)
    (hbounded : Bounded s.optimisticHistory) {d : QuoteData}
    (hs : s.optimisticHistory.Accounts c ∨ s.reducer.data = d) :
    t.optimisticHistory.Accounts c ∨ t.reducer.data = d := by
  obtain ⟨htakes, bytes, cursor, event, rfl, hsame⟩ := h
  have hnumber := (JournalState.sameIdentity_iff.mp hsame).2.1
  rcases applyDecodedLog_cases htakes with
    ⟨e, hout, -⟩ | ⟨-, -, -, -, rfl⟩ | ⟨new, data, changed, -, -, rfl, -, heffect, hcaptured, rfl⟩
  · cases hout
  · exact hs.imp (fun haccounts => haccounts.recordIdentity hbounded hnumber false) id
  cases changed with
  | false =>
    have hdata : data = s.reducer.data := by
      simpa [heffect] using (s.reducer.data.applyEvent_reports new).1 (by simp [heffect])
    rw [hdata, hcaptured]
    exact hs.imp (fun haccounts => haccounts.recordIdentity hbounded hnumber false) id
  | true =>
    rw [hcaptured]
    refine .inl (Accounts.recordIdentity ?_
      (JournalState.accounts_captureBefore bytes s.reducer hsame) hnumber false)
    exact hbounded.captureBefore cursor s.reducer (bytes cursor s.reducer)

theorem data_of_unaccounted {stages : List Stage} (h : Path (TakesLogOf env c) s stages t)
    (hbounded : Bounded s.optimisticHistory) (hnot : ¬ t.optimisticHistory.Accounts c) :
    t.reducer.data = s.reducer.data := by
  have hinvariant : Bounded t.optimisticHistory ∧
      (t.optimisticHistory.Accounts c ∨ t.reducer.data = s.reducer.data) :=
    h.invariant (P := fun u => Bounded u.optimisticHistory ∧
        (u.optimisticHistory.Accounts c ∨ u.reducer.data = s.reducer.data))
      (fun _ _ _ hlog hu => ⟨bounded_takes hlog.1 hu.1, accounts_takesLogOf hlog hu.1 hu.2⟩)
      ⟨hbounded, .inr rfl⟩
  exact hinvariant.2.resolve_left hnot

end QuoteIndexer

/-- **The journal is within its bounds after every run of requests**, served or refused and in
whatever order: images and identities, and an exact byte count. -/
theorem journal_bounded_after_requests {state : Math.QuoteState} {deployment : DeploymentConfig}
    (hrun : Run (Request.step env) (fun _ _ => True) (.new state deployment) s) :
    Bounded s.optimisticHistory :=
  hrun.invariant (P := fun s => Bounded s.optimisticHistory)
    JournalState.bounded_empty fun s request hs _ =>
    (request.staged env s).invariant (fun _ _ _ htakes => QuoteIndexer.bounded_takes htakes) hs

theorem journal_bounded_after_replacedRun : Bounded (after replacedRun).optimisticHistory :=
  journal_bounded_after_requests (Run.foldl .refl _)

open QuoteIndexer (Staged TakesLogOf)

/-- **The effect flag is exact, events keep to their frame, and a block without a before-image has
changed nothing.**  The last is about any number of logs of one block, applied one after another to
an indexer that stages have led to: unless the journal then has an image of the block, or has the
block at or below its rollback floor, the data are those from before the logs. -/
theorem event_effects_exact :
    (∀ (r r' : QuoteReducer) (cursor : ChainCursor) (event : QuoteEvent) (changed : Bool),
      r.admitEvent cursor event = .ok true →
      r.applyWithEffect cursor event = (r', .ok changed) →
      (changed = true ↔ r'.data.state ≠ r.data.state ∨
        r'.data.verifiedRouter ≠ r.data.verifiedRouter) ∧
      r.data.Confined r'.data event) ∧
    (∀ (env : Platform) (state : Math.QuoteState) (deployment : DeploymentConfig)
      (s t : QuoteIndexer) (c : ChainCursor) (stages : List Stage),
      Staged env (.new state deployment) s → Path (TakesLogOf env c) s stages t →
      (∀ b ∈ t.optimisticHistory.blocks, sameIdentity b.cursor c = false) →
      t.optimisticHistory.atOrBelowFloor c.blockNumber = false →
      t.reducer.data = s.reducer.data) := by
  refine ⟨fun r r' cursor event changed hnew h => ?_, ?_⟩
  · rcases QuoteReducer.applyWithEffect_cases h with
      ⟨e, hout, -⟩ | ⟨-, -, hknown⟩ | ⟨data, changed', hout, -, heffect, rfl⟩
    · cases hout
    · rw [hnew] at hknown
      cases hknown
    · cases hout
      exact ⟨QuoteData.applyEvent_effect heffect, QuoteData.applyEvent_confined heffect⟩
  intro env state deployment s t c stages hstaged hlogs himage hfloor
  have hbounded : Bounded s.optimisticHistory :=
    hstaged.invariant (P := fun u => Bounded u.optimisticHistory)
      (fun _ _ _ => QuoteIndexer.bounded_takes) JournalState.bounded_empty
  refine QuoteIndexer.data_of_unaccounted hlogs hbounded ?_
  rintro (⟨b, hb, hsame⟩ | hbelow)
  · rw [himage b hb] at hsame
    cases hsame
  · rw [hfloor] at hbelow
    cases hbelow

/-- A log at block 1 that sets the multiplier the snapshot has. -/
def idleLog : Stage :=
  .log freeImages { blockAt 1 0xb1 with transactionIndex := some 0, logIndex := some 0 }
    (some (.blacklistFeeMultiplierSet 10000))

def bootstrapped : QuoteIndexer := after [unpricedCall (.bootstrapNormalized smallSnapshot [])]

def afterIdleLog : QuoteIndexer :=
  (bootstrapped.applyDecodedLog freeImages
    { blockAt 1 0xb1 with transactionIndex := some 0, logIndex := some 0 }
    (some (.blacklistFeeMultiplierSet 10000))).1

/-- The reducer after a deposit into its lane. -/
def deposited : QuoteReducer :=
  (bootstrapped.reducer.applyWithEffect (blockAt 1 0xb1) (.depositExecuted 0xa1 250)).1

/-- A deposit changes its lane, and the block of a log that changes nothing has no image. -/
theorem event_effects_exact_deposit :
    (deposited.data.state ≠ bootstrapped.reducer.data.state ∨
      deposited.data.verifiedRouter ≠ bootstrapped.reducer.data.verifiedRouter) ∧
    bootstrapped.reducer.data.Confined deposited.data (.depositExecuted 0xa1 250) ∧
    afterIdleLog.optimisticHistory.blocks = [] ∧
    afterIdleLog.reducer.data = bootstrapped.reducer.data := by
  have hdeposit : bootstrapped.reducer.admitEvent (blockAt 1 0xb1) (.depositExecuted 0xa1 250) =
      .ok true := by decide +kernel
  have heffect : (bootstrapped.reducer.applyWithEffect (blockAt 1 0xb1)
      (.depositExecuted 0xa1 250)).2 = .ok true := by decide +kernel
  obtain ⟨hchanged, hconfined⟩ := event_effects_exact.1 bootstrapped.reducer deposited
    (blockAt 1 0xb1) (.depositExecuted 0xa1 250) true hdeposit (Prod.ext rfl heffect)
  have hstaged : Staged referencePlatform (.new smallSnapshot.state smallDeployment) bootstrapped :=
    Request.staged referencePlatform freshIndexer _
  have hlog : TakesLogOf referencePlatform (blockAt 1 0xb1) bootstrapped idleLog afterIdleLog :=
    ⟨Prod.ext rfl (by decide +kernel), _, _, _, rfl, by decide⟩
  have hblocks : afterIdleLog.optimisticHistory.blocks = [] := by decide +kernel
  refine ⟨hchanged.mp rfl, hconfined, hblocks, event_effects_exact.2 referencePlatform
    smallSnapshot.state smallDeployment bootstrapped afterIdleLog (blockAt 1 0xb1) [idleLog] hstaged
    (.one hlog) ?_ (by decide +kernel)⟩
  intro b hb
  rw [hblocks] at hb
  cases hb

end Lunarbase.Client
