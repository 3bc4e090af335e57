import Lunarbase.Math.Quote

/-!
# Math — Share

The partner's share does not enter a quote.  It is read once, at the very end: a quote with a share
is the quote without one, and then the split of its fee (`quoteCore_extends`).
-/

namespace Lunarbase.Math

open Except
open Except (Extends)

variable {state : QuoteState} {request : QuoteRequest} {feeClass : FeeClass}
  {share : Option (BitVec 32)}

/-- The fee of an available quote, split under the share. -/
def attachAllocation (feeClass : FeeClass) (share : Option (BitVec 32)) :
    QuoteOutcome → Except MathError QuoteOutcome
  | .available r => do
    let feeAllocation ← allocateFee ⟨feeClass, share⟩ r.feeAmount
    .ok (.available { r with feeAllocation := feeAllocation })
  | .unavailable reason => .ok (.unavailable reason)

theorem extends_unavailable (reason : UnavailableReason) :
    Extends (attachAllocation feeClass share) (.ok (.unavailable reason))
      (.ok (.unavailable reason)) := rfl

theorem settleQuote_extends (feeAsset : Address) (fee amountIn amountOut : U256) :
    Extends (attachAllocation feeClass share)
      (settleQuote state ⟨feeClass, none⟩ request feeAsset fee amountIn amountOut)
      (settleQuote state ⟨feeClass, share⟩ request feeAsset fee amountIn amountOut) := by
  rw [settleQuote, settleQuote]
  cases outputReserve state request.assetOut with
  | none => exact extends_unavailable _
  | some reserve =>
    refine .bind _ fun short _ => .ite (fun _ => extends_unavailable _) fun _ => ?_
    -- without a share there is nothing to allocate
    exact Extends.ok (QuoteOutcome.available ⟨amountIn, amountOut, feeAsset, fee, none⟩)

theorem assembleQuote_extends (feeAsset : Address) (anchor fee slippage : U256) :
    Extends (attachAllocation feeClass share)
      (assembleQuote state ⟨feeClass, none⟩ request feeAsset anchor fee slippage)
      (assembleQuote state ⟨feeClass, share⟩ request feeAsset anchor fee slippage) := by
  refine .bind _ fun total _ => ?_
  cases request.mode with
  | exactIn =>
    refine .ite (fun _ => extends_unavailable _) fun _ => .bind _ fun amountOut _ => ?_
    exact settleQuote_extends _ _ _ _
  | exactOut => exact .bind _ fun amountIn _ => settleQuote_extends _ _ _ _

theorem quoteDirect_extends (laneAsset feeAsset : Address) (lane : LaneState) (toAsset : Bool) :
    Extends (attachAllocation feeClass share)
      (quoteDirect state ⟨feeClass, none⟩ request laneAsset lane toAsset feeAsset)
      (quoteDirect state ⟨feeClass, share⟩ request laneAsset lane toAsset feeAsset) := by
  refine .bind _ fun anchor _ => .ite (fun _ => extends_unavailable _) fun _ => ?_
  refine .bind _ fun principal _ => .ite (fun _ => extends_unavailable _) fun _ => ?_
  refine .bind _ fun feeBps _ => .bind _ fun slippageBps _ => .bind _ fun spread _ => ?_
  exact assembleQuote_extends _ _ _ _

theorem quoteRoute_extends (inputLane outputLane : LaneState) :
    Extends (attachAllocation feeClass share)
      (quoteRoute state ⟨feeClass, none⟩ request inputLane outputLane)
      (quoteRoute state ⟨feeClass, share⟩ request inputLane outputLane) := by
  refine .bind _ fun cash _ => .ite (fun _ => extends_unavailable _) fun _ => ?_
  refine .bind _ fun first _ => .ite (fun _ => extends_unavailable _) fun _ => ?_
  refine .bind _ fun second _ => .ite (fun _ => extends_unavailable _) fun _ => ?_
  refine .bind _ fun weightedK _ => .bind _ fun principal _ => .bind _ fun slippageBps _ => ?_
  refine .bind _ fun bid _ => .bind _ fun ask _ => .bind _ fun feeBps _ => .bind _ fun fee _ => ?_
  refine .bind _ fun bidTotal _ => .bind _ fun askTotal _ => .bind _ fun totalBps _ => ?_
  refine .bind _ fun total _ => .bind _ fun slippage _ => ?_
  exact assembleQuote_extends _ _ _ _

/-- The share is read last, on every path. -/
theorem quoteCore_extends (state : QuoteState) (request : QuoteRequest) (feeClass : FeeClass)
    (share : Option (BitVec 32)) (block : Nat) :
    Extends (attachAllocation feeClass share) (quoteCore request block state ⟨feeClass, none⟩)
      (quoteCore request block state ⟨feeClass, share⟩) := by
  refine .ite (fun _ => extends_unavailable _) fun _ =>
    .ite (fun _ => extends_unavailable _) fun _ => ?_
  refine .ite (fun _ => ?_) fun _ => .ite (fun _ => ?_) fun _ => ?_
  · cases laneOrReason state request.assetIn block with
    | error reason => exact extends_unavailable reason
    | ok lane => exact quoteDirect_extends _ _ _ _
  · cases laneOrReason state request.assetOut block with
    | error reason => exact extends_unavailable reason
    | ok lane => exact quoteDirect_extends _ _ _ _
  cases laneOrReason state request.assetIn block with
  | error reason => exact extends_unavailable reason
  | ok inputLane =>
    cases laneOrReason state request.assetOut block with
    | error reason => exact extends_unavailable reason
    | ok outputLane => exact quoteRoute_extends _ _

/-! ### The split -/

/-- A split is exact: the partner gets the floor of the share, the treasury the rest. -/
theorem splitFee_eq_ok {fee shareBps partner treasury : U256}
    (h : splitFee fee shareBps = .ok (partner, treasury)) :
    partner.toNat + treasury.toNat = fee.toNat ∧
      partner.toNat = fee.toNat * shareBps.toNat / bps.toNat := by
  rw [splitFee] at h
  split at h
  next hfee =>
    cases h
    simp [hfee]
  obtain ⟨partner', hpartner, h⟩ := bind_eq_ok.mp h
  obtain ⟨treasury', htreasury, h⟩ := bind_eq_ok.mp h
  cases h
  rw [checkedSub_eq_ok] at htreasury
  refine ⟨by omega, ?_⟩
  split at hpartner
  next hshare =>
    rw [← ok.inj hpartner, hshare]
    simp
  · exact ((mulDivDown256_eq_ok (by decide)).mp hpartner).2

variable {allocation : FeeAllocation}

theorem allocateFee_eq_some {fee : U256}
    (h : allocateFee ⟨feeClass, share⟩ fee = .ok (some allocation)) :
    ∃ shareBps, share = some shareBps ∧
      allocation.partnerFee.toNat + allocation.treasuryFee.toNat = fee.toNat ∧
      allocation.partnerFee.toNat = fee.toNat * shareBps.toNat / bps.toNat := by
  cases share with
  | none => cases h
  | some shareBps =>
    obtain ⟨⟨partner, treasury⟩, hsplit, h⟩ := bind_eq_ok.mp h
    cases ok.inj h
    have hexact := splitFee_eq_ok hsplit
    exact ⟨shareBps, rfl, hexact⟩

/-! ### Non-interference -/

/-- A quote with its fee allocation left out. -/
def QuoteOutcome.withoutAllocation : QuoteOutcome → QuoteOutcome
  | .available r => .available { r with feeAllocation := none }
  | .unavailable reason => .unavailable reason

theorem attachAllocation_withoutAllocation {outcome outcome' : QuoteOutcome}
    (h : attachAllocation feeClass share outcome = .ok outcome') :
    outcome'.withoutAllocation = outcome.withoutAllocation := by
  cases outcome with
  | unavailable reason => rw [← ok.inj h]
  | available r =>
    obtain ⟨allocation, -, h⟩ := bind_eq_ok.mp h
    rw [← ok.inj h]
    rfl

theorem attachAllocation_allocation {outcome : QuoteOutcome} {r : QuoteResult}
    (h : attachAllocation feeClass share outcome = .ok (.available r))
    (hallocation : r.feeAllocation = some allocation) :
    allocateFee ⟨feeClass, share⟩ r.feeAmount = .ok (some allocation) := by
  cases outcome with
  | unavailable reason => cases h
  | available r' =>
    obtain ⟨allocation', hallocate, h⟩ := bind_eq_ok.mp h
    obtain rfl := QuoteOutcome.available.inj (ok.inj h)
    rw [hallocate]
    exact congrArg ok hallocation

/-- **The partner's share does not interfere.**  Two quotes that differ in the share alone are
equal but for the allocation of the fee, and an allocation divides the fee exactly. -/
theorem share_non_interfering (state : QuoteState) (block : Nat) (request : QuoteRequest)
    (feeClass : FeeClass) (p q : Option (BitVec 32)) (outcome outcome' : QuoteOutcome)
    (h : quote request block state ⟨feeClass, p⟩ = .ok outcome)
    (h' : quote request block state ⟨feeClass, q⟩ = .ok outcome') :
    outcome.withoutAllocation = outcome'.withoutAllocation ∧
    ∀ r allocation, outcome = .available r → r.feeAllocation = some allocation →
      ∃ share, p = some share ∧
        allocation.partnerFee.toNat + allocation.treasuryFee.toNat = r.feeAmount.toNat ∧
        allocation.partnerFee.toNat = r.feeAmount.toNat * share.toNat / bps.toNat := by
  rw [quote_eq_ok, quoteCore_extends] at h h'
  obtain ⟨base, hbase, h⟩ := bind_eq_ok.mp h
  obtain ⟨base', hbase', h'⟩ := bind_eq_ok.mp h'
  obtain rfl : base = base' := ok.inj (hbase.symm.trans hbase')
  refine ⟨?_, ?_⟩
  · rw [attachAllocation_withoutAllocation h, attachAllocation_withoutAllocation h']
  rintro r allocation rfl hallocation
  exact allocateFee_eq_some (attachAllocation_allocation h hallocation)

/-- The sample quote with a quarter of the fee for the partner, and without a share. -/
theorem share_non_interfering_sample :
    quote ⟨2, 1, 9000, .exactOut⟩ 0 sampleState ⟨.whitelisted, some 250000⟩ =
        .ok (.available ⟨4505, 9000, 2, 5, some ⟨1, 4⟩⟩) ∧
      quote ⟨2, 1, 9000, .exactOut⟩ 0 sampleState ⟨.whitelisted, none⟩ =
        .ok (.available ⟨4505, 9000, 2, 5, none⟩) ∧
      ∃ share : BitVec 32, some 250000 = some share ∧ 1 + 4 = 5 ∧
        1 = 5 * share.toNat / bps.toNat := by
  have h : quote ⟨2, 1, 9000, .exactOut⟩ 0 sampleState ⟨.whitelisted, some 250000⟩ =
      .ok (.available ⟨4505, 9000, 2, 5, some ⟨1, 4⟩⟩) := by decide +kernel
  have h' : quote ⟨2, 1, 9000, .exactOut⟩ 0 sampleState ⟨.whitelisted, none⟩ =
      .ok (.available ⟨4505, 9000, 2, 5, none⟩) := by decide +kernel
  exact ⟨h, h', (share_non_interfering _ _ _ _ _ _ _ _ h h').2 _ ⟨1, 4⟩ rfl rfl⟩

end Lunarbase.Math
