import Lunarbase.Math.Priced
import Lunarbase.Support.Valuation

/-!
# Math — Value

Quotes create no value at the quoted prices.  Every conversion of the quote path rounds against
the trader: an exact-in anchor is worth at most the input, an exact-out anchor at least the
output.  Fee and slippage are then taken from the anchor, or added to it, so what a quote returns,
its fee included, is worth no more than what it takes.
-/

namespace Lunarbase.Math

open List Nat

variable {state : QuoteState} {policy : QuotePolicy} {request : QuoteRequest} {r : QuoteResult}

/-! ### No value is created -/

/-- One evaluated quote: its inputs and the result it returned. -/
structure QuoteStep where
  request : QuoteRequest
  executionBlockNumber : Nat
  policy : QuotePolicy
  result : QuoteResult

/-- The quote is what `state` answers. -/
def QuoteStep.Holds (state : QuoteState) (q : QuoteStep) : Prop :=
  quote q.request q.executionBlockNumber state q.policy = .ok (.available q.result)

/-- `q'` spends at most what `q` produced, in the same asset. -/
def QuoteStep.Feeds (q q' : QuoteStep) : Prop :=
  q'.request.assetIn = q.request.assetOut ∧ q'.result.amountIn.toNat ≤ q.result.amountOut.toNat

/-- The quote as a trade. -/
def QuoteStep.trade (q : QuoteStep) : Valuation.Trade Address :=
  ⟨q.request.assetIn, q.request.assetOut, q.result.amountIn.toNat, q.result.amountOut.toNat⟩

/-- The anchor is on the trader's losing side of the exact conversion. -/
theorem pathAnchor_exactIn (hm : request.mode = .exactIn) :
    pathAnchor state request * quotedPrice state request.assetOut ≤
      request.amount.toNat * quotedPrice state request.assetIn := by
  simp only [pathAnchor, pathCash, hm, convertIn, if_true, Bool.false_eq_true, if_false]
  exact (div_mul_le_self _ _).trans (div_mul_le_self _ _)

theorem pathAnchor_exactOut (hm : request.mode = .exactOut)
    (hsource : 0 < quotedPrice state request.assetIn) :
    request.amount.toNat * quotedPrice state request.assetOut ≤
      pathAnchor state request * quotedPrice state request.assetIn := by
  simp only [pathAnchor, pathCash, hm, convertOut, if_true, Bool.false_eq_true, if_false]
  exact (Word.mul_le_ceilDiv_mul wad_pos).trans (Word.mul_le_ceilDiv_mul hsource)

variable {feeClass : FeeClass}

/-- An asset without a price buys nothing. -/
theorem Priced.source_pos (h : Priced state feeClass request r) :
    0 < quotedPrice state request.assetIn := by
  have hanchor := h.anchor_pos
  rw [pathAnchor, pathCash] at hanchor
  by_contra hzero
  rw [Nat.eq_zero_of_not_pos hzero] at hanchor
  cases hm : request.mode with
  | exactIn => simp [hm, convertIn] at hanchor
  | exactOut => simp [hm, convertOut] at hanchor

theorem Priced.fee_le (h : Priced state feeClass request r) :
    r.feeAmount.toNat ≤ spread request.mode.isExactIn (pathAnchor state request)
      (pathTotal state feeClass request) := by
  rw [h.charged.fee]
  exact spread_mono _ _ (le_add_right _ _)

theorem Priced.exactIn_value_le (h : Priced state feeClass request r)
    (hm : request.mode = .exactIn) :
    (r.amountOut.toNat + r.feeAmount.toNat) * quotedPrice state request.assetOut ≤
      r.amountIn.toNat * quotedPrice state request.assetIn := by
  obtain ⟨hin, -, hout⟩ := h.charged.exactIn hm
  have hfee := h.fee_le
  rw [hm] at hfee
  have hpaid : r.amountOut.toNat + r.feeAmount.toNat ≤ pathAnchor state request :=
    hout ▸ Nat.add_le_add_left hfee _
  rw [hin]
  exact (mul_le_mul_right _ hpaid).trans (pathAnchor_exactIn hm)

theorem Priced.exactOut_value_le (h : Priced state feeClass request r)
    (hm : request.mode = .exactOut) :
    r.feeAmount.toNat ≤ r.amountIn.toNat ∧ r.amountOut.toNat * quotedPrice state request.assetOut ≤
        (r.amountIn.toNat - r.feeAmount.toNat) * quotedPrice state request.assetIn := by
  obtain ⟨hout, hin⟩ := h.charged.exactOut hm
  have hfee := h.fee_le
  rw [hm] at hfee
  have hcharged : pathAnchor state request ≤ r.amountIn.toNat - r.feeAmount.toNat := by
    rw [hin]
    exact Nat.le_sub_of_add_le (Nat.add_le_add_left hfee _)
  refine ⟨hin ▸ hfee.trans (le_add_left _ _), ?_⟩
  rw [hout]
  exact (pathAnchor_exactOut hm h.source_pos).trans (mul_le_mul_right _ hcharged)

variable {q : QuoteStep}

theorem QuoteStep.Holds.fair (h : q.Holds state) : q.trade.Fair (quotedPrice state) := by
  have hpriced := quote_priced h
  cases hm : q.request.mode with
  | exactIn =>
    exact (mul_le_mul_right _ (le_add_right _ _)).trans (hpriced.exactIn_value_le hm)
  | exactOut =>
    exact (hpriced.exactOut_value_le hm).2.trans (mul_le_mul_right _ (sub_le _ _))

/-- **Quotes create no value.**  At the quoted prices an exact-in quote pays out, its fee
included, no more than it takes, and an exact-out quote takes, its fee excluded, no less than it
pays.  Along any sequence of quotes against one state, in any mix of modes and routes, that comes
back to its first asset, the final amount is at most the initial one. -/
theorem quotes_create_no_value (state : QuoteState) :
    (∀ q : QuoteStep, q.Holds state → (q.request.mode = .exactIn →
        ((q.result.amountOut.toNat : ℤ) + q.result.feeAmount.toNat) *
            quotedPrice state q.request.assetOut ≤
          q.result.amountIn.toNat * quotedPrice state q.request.assetIn) ∧
      (q.request.mode = .exactOut →
        (q.result.amountOut.toNat : ℤ) * quotedPrice state q.request.assetOut ≤
          ((q.result.amountIn.toNat : ℤ) - q.result.feeAmount.toNat) *
            quotedPrice state q.request.assetIn)) ∧
    (∀ (q : QuoteStep) (qs : List QuoteStep), (∀ q' ∈ q :: qs, q'.Holds state) →
      List.IsChain QuoteStep.Feeds (q :: qs) →
      ((q :: qs).getLast (cons_ne_nil q qs)).request.assetOut = q.request.assetIn →
      ((q :: qs).getLast (cons_ne_nil q qs)).result.amountOut.toNat ≤ q.result.amountIn.toNat) := by
  refine ⟨fun q hq => ?_, fun q qs hall hchain hback => ?_⟩
  · have hpriced := quote_priced hq
    refine ⟨fun hm => ?_, fun hm => ?_⟩
    · exact_mod_cast hpriced.exactIn_value_le hm
    obtain ⟨hle, hval⟩ := hpriced.exactOut_value_le hm
    exact_mod_cast hval
  -- the sequence of quotes is a sequence of fair trades
  have hfair : ∀ t ∈ (q :: qs).map QuoteStep.trade, t.Fair (quotedPrice state) := by
    intro t ht
    obtain ⟨q', hq', rfl⟩ := mem_map.mp ht
    exact (hall q' hq').fair
  have hfeeds : List.IsChain Valuation.Trade.Feeds ((q :: qs).map QuoteStep.trade) :=
    (isChain_map QuoteStep.trade).mpr hchain
  have hlast : ((q :: qs).map QuoteStep.trade).getLast (by simp) =
      ((q :: qs).getLast (cons_ne_nil q qs)).trade := getLast_map _
  have h := Valuation.round_trip_le hfair hfeeds (quote_priced (hall q mem_cons_self)).source_pos
    (by simp only [← map_cons, hlast]; exact hback)
  simp only [← map_cons, hlast] at h
  exact h

/-- Ten thousand units of cash spent on the lane asset. -/
def sampleBuy : QuoteStep :=
  ⟨⟨1, 2, 10000, .exactIn⟩, 0, ⟨.whitelisted, none⟩, ⟨10000, 4995, 2, 5, none⟩⟩

/-- Nine thousand units of cash bought back. -/
def sampleSell : QuoteStep :=
  ⟨⟨2, 1, 9000, .exactOut⟩, 0, ⟨.whitelisted, none⟩, ⟨4505, 9000, 2, 5, none⟩⟩

theorem quotes_create_no_value_round_trip :
    (∀ q ∈ [sampleBuy, sampleSell], q.Holds sampleState) ∧
      sampleSell.result.amountOut.toNat ≤ sampleBuy.result.amountIn.toNat := by
  have hall : ∀ q ∈ [sampleBuy, sampleSell], q.Holds sampleState := by
    unfold QuoteStep.Holds
    simp only [forall_mem_cons]
    exact ⟨by decide +kernel, by decide +kernel, by simp⟩
  have hfeeds : sampleBuy.Feeds sampleSell := by
    unfold QuoteStep.Feeds
    decide
  exact ⟨hall, (quotes_create_no_value sampleState).2 sampleBuy [sampleSell] hall
    (isChain_pair.mpr hfeeds) rfl⟩

end Lunarbase.Math
