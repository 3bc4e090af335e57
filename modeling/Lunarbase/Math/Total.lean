import Lunarbase.Math.Priced
import Lunarbase.Math.Share

/-!
# Math — Total

No quote of a realistic amount fails.  An amount below `2 ^ 128` is worth less than `2 ^ 182` of
cash at any price of 112 bits, and the other end of the path less than `2 ^ 242`; no rate exceeds
three times the unit, so every number of the quote is a word.  A share is split from a fee that the
reserve, a number of 128 bits, has been found to cover.
-/

namespace Lunarbase.Math

open Except (Yields)
open Nat

/-! ### Calls that return -/

/-- A computation that returns a number if it is a word, on a number that is one. -/
theorem yields_of_word {x : Except MathError U256} {n : Nat} (P : Nat → Prop)
    (hx : ∀ a, x = .ok a ↔ a.toNat = n) (hn : n < 2 ^ 256) (hP : P n) :
    Yields (fun a => P a.toNat) x := by
  obtain ⟨a, rfl⟩ := exists_toNat hn
  exact ⟨a, (hx a).mpr rfl, hP⟩

theorem checkedAdd_yields {x y : U256} (h : x.toNat + y.toNat < 2 ^ 256) :
    Yields (fun a => a.toNat = x.toNat + y.toNat) (checkedAdd x y) :=
  yields_of_word (· = _) (fun _ => checkedAdd_eq_ok) h rfl

theorem checkedSub_yields {x y : U256} (h : y.toNat ≤ x.toNat) :
    Yields (fun a => a.toNat + y.toNat = x.toNat) (checkedSub x y) := by
  obtain ⟨a, ha⟩ := exists_toNat ((sub_le x.toNat y.toNat).trans_lt x.isLt)
  have hsum : a.toNat + y.toNat = x.toNat := by omega
  exact ⟨a, checkedSub_eq_ok.mpr hsum, hsum⟩

theorem principalCashValue_yields (lane : LaneState) :
    Yields (fun a => a.toNat < 2 ^ 182) (principalCashValue lane) := by
  have hprice : (laneSlot0Price lane.slot0).toNat < 2 ^ 112 := Word.readField_lt (by decide)
  have hlt := (convert_to_cash_lt hprice lane.totalPrincipalAmount.isLt).1
  exact yields_of_word (· < 2 ^ 182) (fun _ => principalCashValue_eq_ok) (hlt.trans (by decide)) hlt

theorem calculateFeeBpsForRouter_yields (whitelisted : Bool) (multiplier raw : U256) :
    Yields (fun a => a.toNat ≤ 1000000) (calculateFeeBpsForRouter whitelisted multiplier raw) := by
  have hle := effectiveFee_le whitelisted multiplier.toNat raw.toNat
  exact yields_of_word (· ≤ 1000000) (fun _ => calculateFeeBpsForRouter_eq_ok)
    (hle.trans_lt (by decide)) hle

theorem quoteLaneSlippageBps_yields {cash principal k : U256} (hcash : cash.toNat < 2 ^ 182)
    (hk : k.toNat < 2 ^ 32) :
    Yields (fun a => a.toNat ≤ 100000) (quoteLaneSlippageBps cash principal k) := by
  have hproduct : cash.toNat * k.toNat < 2 ^ 182 * 2 ^ 32 :=
    mul_lt_mul'' hcash hk
  have hle := slippageRate_le cash.toNat principal.toNat k.toNat
  obtain ⟨a, ha⟩ := exists_toNat (hle.trans_lt (by decide))
  refine ⟨a, quoteLaneSlippageBps_eq_ok.mpr ⟨?_, ha⟩, ha.trans_le hle⟩
  exact (ceilDiv_le_self _ _).trans_lt (hproduct.trans (by decide))

theorem quoteLaneWeightedSlippageKBps_yields {p p' k k' : U256} (hp : p.toNat < 2 ^ 182)
    (hp' : p'.toNat < 2 ^ 182) (hk : k.toNat < 2 ^ 255) (hk' : k'.toNat < 2 ^ 255) :
    Yields (fun a => a.toNat ≤ 1000000) (quoteLaneWeightedSlippageKBps p k p' k') := by
  have hle : legsK [⟨0, p.toNat, k.toNat⟩, ⟨0, p'.toNat, k'.toNat⟩] ≤ 1000000 := min_le_left _ _
  obtain ⟨a, ha⟩ := exists_toNat (hle.trans_lt (by decide))
  exact ⟨a, (quoteLaneWeightedSlippageKBps_eq_ok 0 0 hk hk').mpr ⟨by omega, ha⟩, ha.trans_le hle⟩

/-- The spread of a realistic anchor at a rate that the caps allow. -/
theorem modeFee_yields {anchor rate : U256} (exactIn : Bool) (hanchor : anchor.toNat < 2 ^ 242)
    (hrate : rate.toNat ≤ 3000000) :
    Yields (fun a => a.toNat = spread exactIn anchor.toNat rate.toNat)
      (modeFee exactIn anchor rate) := by
  have hspread := spread_le exactIn anchor.toNat hrate
  refine yields_of_word (· = _) (fun _ => modeFee_eq_ok ?_) (by omega) rfl
  rw [toNat_bps]
  omega

/-! ### Assembling -/

section

variable {state : QuoteState} {request : QuoteRequest} {feeClass : FeeClass}

theorem reserveInsufficient_yields (mode : QuoteMode) (reserve amountOut fee : U256) :
    Yields (fun _ => True) (reserveInsufficient mode reserve amountOut fee) := by
  refine .ite (fun _ => .ok trivial) fun hle => .ite (fun _ => ?_) fun _ => .ok trivial
  rw [BitVec.lt_def, not_lt] at hle
  exact (checkedSub_yields hle).bind fun _ _ _ => .ok trivial

theorem settleQuote_yields (feeAsset : Address) (fee amountIn amountOut : U256) :
    Yields (fun _ => True)
      (settleQuote state ⟨feeClass, none⟩ request feeAsset fee amountIn amountOut) := by
  rw [settleQuote]
  cases outputReserve state request.assetOut with
  | none => exact .ok trivial
  | some reserve =>
    refine (reserveInsufficient_yields _ _ _ _).bind fun short _ _ => ?_
    exact .ite (fun _ => .ok trivial) fun _ => .ok trivial

theorem assembleQuote_yields (feeAsset : Address) {anchor fee slippage : U256}
    (hanchor : anchor.toNat < 2 ^ 242) (hspread : fee.toNat + slippage.toNat ≤ 3 * anchor.toNat) :
    Yields (fun _ => True)
      (assembleQuote state ⟨feeClass, none⟩ request feeAsset anchor fee slippage) := by
  refine (checkedAdd_yields (by omega)).bind fun total _ htotal => ?_
  cases request.mode with
  | exactIn =>
    refine .ite (fun _ => .ok trivial) fun hlt => ?_
    rw [BitVec.le_def, not_le] at hlt
    exact (checkedSub_yields hlt.le).bind fun _ _ _ => settleQuote_yields _ _ _ _
  | exactOut =>
    exact (checkedAdd_yields (by omega)).bind fun _ _ _ => settleQuote_yields _ _ _ _

/-! ### Paths -/

theorem laneSpread_yields {anchor feeBps slippageBps : U256} (exactIn : Bool)
    (hanchor : anchor.toNat < 2 ^ 242) (hfee : feeBps.toNat ≤ 1000000)
    (hslippage : slippageBps.toNat ≤ 100000) :
    Yields (fun spread => spread.1.toNat + spread.2.toNat ≤ 3 * anchor.toNat)
      (laneSpread anchor feeBps slippageBps exactIn) := by
  refine (modeFee_yields exactIn hanchor (by omega)).bind fun fee _ hfeeOf => ?_
  refine (checkedAdd_yields (by omega)).bind fun totalBps _ htotalBps => ?_
  have hrate : totalBps.toNat ≤ 3000000 := by omega
  refine (modeFee_yields exactIn hanchor hrate).bind fun total _ htotal => ?_
  have hle : fee.toNat ≤ total.toNat := by
    rw [hfeeOf, htotal]
    exact spread_mono exactIn _ (by omega)
  have hbound := spread_le exactIn anchor.toNat hrate
  refine (checkedSub_yields hle).bind fun slippage _ hsum => .ok ?_
  change fee.toNat + slippage.toNat ≤ 3 * anchor.toNat
  omega

theorem convert_lt {price amount : Nat} (mode : QuoteMode) (toAsset : Bool)
    (hprice : price < 2 ^ 112) (hamount : amount < 2 ^ 128) :
    convert mode price amount toAsset < 2 ^ 242 ∧
      (toAsset ≠ mode.isExactIn → convert mode price amount toAsset < 2 ^ 182) := by
  have hto := convert_to_cash_lt hprice hamount
  have hfrom := convert_from_cash_lt price (hamount.trans (show 2 ^ 128 < 2 ^ 182 by decide))
  have hwide : 2 ^ 182 < 2 ^ 242 := by decide
  cases mode with
  | exactIn =>
    simp only [convert, QuoteMode.isExactIn, if_true]
    cases toAsset with
    | true => exact ⟨hfrom.1, fun hne => absurd rfl hne⟩
    | false => exact ⟨hto.1.trans hwide, fun _ => hto.1⟩
  | exactOut =>
    simp only [convert, QuoteMode.isExactIn, Bool.false_eq_true, if_false]
    cases toAsset with
    | true => exact ⟨hto.2.trans hwide, fun _ => hto.2⟩
    | false => exact ⟨hfrom.2, fun hne => absurd rfl hne⟩

theorem modeConvert_yields (price amount : U256) (mode : QuoteMode) (toAsset : Bool)
    (hprice : price.toNat < 2 ^ 112) (hamount : amount.toNat < 2 ^ 128) :
    Yields (fun a => a.toNat < 2 ^ 242 ∧ (toAsset ≠ mode.isExactIn → a.toNat < 2 ^ 182))
      (modeConvert mode price amount toAsset) := by
  have hlt := convert_lt mode toAsset hprice hamount
  exact yields_of_word (fun n => n < 2 ^ 242 ∧ (toAsset ≠ mode.isExactIn → n < 2 ^ 182))
    (fun _ => modeConvert_eq_ok) (hlt.1.trans (by decide)) hlt

theorem quoteDirect_yields (laneAsset feeAsset : Address) (lane : LaneState) (toAsset : Bool)
    (hamount : request.amount.toNat < 2 ^ 128) :
    Yields (fun _ => True)
      (quoteDirect state ⟨feeClass, none⟩ request laneAsset lane toAsset feeAsset) := by
  refine (modeConvert_yields _ _ _ toAsset (Word.readField_lt (by decide)) hamount).bind
    fun anchor _ hanchor => .ite (fun _ => .ok trivial) fun _ => ?_
  refine (principalCashValue_yields lane).bind fun principal _ _ =>
    .ite (fun _ => .ok trivial) fun _ => ?_
  refine (calculateFeeBpsForRouter_yields _ _ _).bind fun feeBps _ hfeeBps => ?_
  -- the cash of the swap is the amount, or the anchor where that is the cash
  have hcash : (if toAsset then (if request.mode.isExactIn then request.amount else anchor)
      else if request.mode.isExactIn then anchor else request.amount).toNat < 2 ^ 182 := by
    have hsmall : request.amount.toNat < 2 ^ 182 := hamount.trans (by decide)
    cases hmode : request.mode.isExactIn with
    | true =>
      cases toAsset with
      | true => exact hsmall
      | false => exact hanchor.2 (by simp [hmode])
    | false =>
      cases toAsset with
      | true => exact hanchor.2 (by simp [hmode])
      | false => exact hsmall
  have hk : ((laneSlot0SlippageKBps lane.slot0).setWidth 256 : U256).toNat < 2 ^ 32 := by
    exact (laneSlot0SlippageKBps lane.slot0).isLt
  refine (quoteLaneSlippageBps_yields hcash hk).bind fun slippageBps _ hslippageBps => ?_
  refine (laneSpread_yields _ hanchor.1 hfeeBps hslippageBps).bind fun spread _ hspread => ?_
  exact assembleQuote_yields _ hanchor.1 hspread

theorem routeAnchor_yields (inputLane outputLane : LaneState)
    (hamount : request.amount.toNat < 2 ^ 128) :
    Yields (fun cash => cash.1.toNat < 2 ^ 182 ∧ cash.2.toNat < 2 ^ 242)
      (routeAnchor request inputLane outputLane) := by
  have hprice : ∀ lane : LaneState, (laneSlot0Price lane.slot0).toNat < 2 ^ 112 :=
    fun lane => Word.readField_lt (by decide)
  rw [routeAnchor]
  cases request.mode with
  | exactIn =>
    have hcash := (convert_to_cash_lt (hprice inputLane) hamount).1
    refine (yields_of_word (· < 2 ^ 182) (fun _ => quoteLaneExactIn_eq_ok)
      (hcash.trans (by decide)) hcash).bind fun cash _ hcash => ?_
    have hanchor := (convert_from_cash_lt (laneSlot0Price outputLane.slot0).toNat hcash).1
    exact (yields_of_word (· < 2 ^ 242) (fun _ => quoteLaneExactIn_eq_ok)
      (hanchor.trans (by decide)) hanchor).bind fun anchor _ hanchor => .ok ⟨hcash, hanchor⟩
  | exactOut =>
    have hcash := (convert_to_cash_lt (hprice outputLane) hamount).2
    refine (yields_of_word (· < 2 ^ 182) (fun _ => quoteLaneExactOut_eq_ok)
      (hcash.trans (by decide)) hcash).bind fun cash _ hcash => ?_
    have hanchor := (convert_from_cash_lt (laneSlot0Price inputLane.slot0).toNat hcash).2
    exact (yields_of_word (· < 2 ^ 242) (fun _ => quoteLaneExactOut_eq_ok)
      (hanchor.trans (by decide)) hanchor).bind fun anchor _ hanchor => .ok ⟨hcash, hanchor⟩

theorem quoteRoute_yields (inputLane outputLane : LaneState)
    (hamount : request.amount.toNat < 2 ^ 128) :
    Yields (fun _ => True) (quoteRoute state ⟨feeClass, none⟩ request inputLane outputLane) := by
  refine (routeAnchor_yields inputLane outputLane hamount).bind fun cash _ hcash => ?_
  obtain ⟨cash, anchor⟩ := cash
  obtain ⟨hcash, hanchor⟩ := hcash
  refine .ite (fun _ => .ok trivial) fun _ => ?_
  refine (principalCashValue_yields inputLane).bind fun first _ hfirst =>
    .ite (fun _ => .ok trivial) fun _ => ?_
  refine (principalCashValue_yields outputLane).bind fun second _ hsecond =>
    .ite (fun _ => .ok trivial) fun _ => ?_
  refine (quoteLaneWeightedSlippageKBps_yields hfirst hsecond (toNat_slippageK_lt inputLane)
    (toNat_slippageK_lt outputLane)).bind fun weightedK _ hweightedK => ?_
  refine (checkedAdd_yields (by omega)).bind fun principal _ _ => ?_
  refine (quoteLaneSlippageBps_yields hcash (by omega)).bind fun slippageBps _ hslippageBps => ?_
  refine (calculateFeeBpsForRouter_yields _ _ _).bind fun bid _ hbid => ?_
  refine (calculateFeeBpsForRouter_yields _ _ _).bind fun ask _ hask => ?_
  refine (checkedAdd_yields (by omega)).bind fun feeBps _ hfeeBps => ?_
  refine (modeFee_yields _ hanchor (by omega)).bind fun fee _ hfee => ?_
  refine (checkedAdd_yields (by omega)).bind fun bidTotal _ hbidTotal => ?_
  refine (checkedAdd_yields (by omega)).bind fun askTotal _ haskTotal => ?_
  refine (checkedAdd_yields (by omega)).bind fun totalBps _ htotalBps => ?_
  have hrate : totalBps.toNat ≤ 3000000 := by omega
  refine (modeFee_yields _ hanchor hrate).bind fun total _ htotal => ?_
  have hle : fee.toNat ≤ total.toNat := by
    rw [hfee, htotal]
    exact spread_mono _ _ (by omega)
  refine (checkedSub_yields hle).bind fun slippage _ hslippage => ?_
  have hbound : total.toNat ≤ 3 * anchor.toNat := by
    rw [htotal]
    exact spread_le _ _ hrate
  exact assembleQuote_yields _ hanchor (by omega)

theorem quoteCore_yields (state : QuoteState) (feeClass : FeeClass) (block : Nat)
    (hamount : request.amount.toNat < 2 ^ 128) :
    Yields (fun _ => True) (quoteCore request block state ⟨feeClass, none⟩) := by
  refine .ite (fun _ => .ok trivial) fun _ => .ite (fun _ => .ok trivial) fun _ => ?_
  refine .ite (fun _ => ?_) fun _ => .ite (fun _ => ?_) fun _ => ?_
  · cases laneOrReason state request.assetIn block with
    | error reason => exact .ok trivial
    | ok lane => exact quoteDirect_yields _ _ _ _ hamount
  · cases laneOrReason state request.assetOut block with
    | error reason => exact .ok trivial
    | ok lane => exact quoteDirect_yields _ _ _ _ hamount
  cases laneOrReason state request.assetIn block with
  | error reason => exact .ok trivial
  | ok inputLane =>
    cases laneOrReason state request.assetOut block with
    | error reason => exact .ok trivial
    | ok outputLane => exact quoteRoute_yields _ _ hamount

/-! ### The split -/

/-- A fee is split under any share of at most the whole, as long as their product is a word. -/
theorem splitFee_yields {fee share : U256} (hproduct : fee.toNat * share.toNat < 2 ^ 256)
    (hshare : share.toNat ≤ bps.toNat) : Yields (fun _ => True) (splitFee fee share) := by
  refine .ite (fun _ => .ok trivial) fun _ => ?_
  have hle : fee.toNat * share.toNat / bps.toNat ≤ fee.toNat := by
    refine (Nat.div_le_div_right (mul_le_mul_left _ hshare)).trans ?_
    rw [Nat.mul_div_cancel _ (by decide)]
  have hpartner : Yields (fun partner => partner.toNat ≤ fee.toNat)
      (if share = 0 then .ok 0 else mulDivDown256 fee share bps) := by
    refine .ite (fun _ => .ok (zero_le _)) fun _ => ?_
    obtain ⟨partner, hpartner⟩ := exists_toNat (hle.trans_lt fee.isLt)
    exact ⟨partner, (mulDivDown256_eq_ok (by decide)).mpr ⟨hproduct, hpartner⟩,
      hpartner.trans_le hle⟩
  refine hpartner.bind fun partner _ hwithin => ?_
  exact (checkedSub_yields hwithin).bind fun _ _ _ => .ok trivial

end

/-- **With a share of at most the whole a quote fails as it fails without one**, or where the
product of the fee and the share is not a word. -/
theorem quote_error_of_share {state : QuoteState} {request : QuoteRequest} {feeClass : FeeClass}
    {block : Nat} {share : BitVec 32} {e : QuoteError} (hshare : share.toNat ≤ bps.toNat)
    (h : quote request block state ⟨feeClass, some share⟩ = .error e) :
    quote request block state ⟨feeClass, none⟩ = .error e ∨
      ∃ r, quote request block state ⟨feeClass, none⟩ = .ok (.available r) ∧
        2 ^ 256 ≤ r.feeAmount.toNat * share.toNat := by
  have hextends := quoteCore_extends state request feeClass (some share) block
  rw [quote, hextends] at h
  rw [quote]
  cases hbase : quoteCore request block state ⟨feeClass, none⟩ with
  | error e' =>
    rw [hbase] at h
    exact .inl h
  | ok base =>
    rw [hbase, Except.ok_bind] at h
    cases base with
    | unavailable reason => cases h
    | available r =>
      refine .inr ⟨r, rfl, le_of_not_gt fun hproduct => ?_⟩
      have hyields : Yields (fun _ => True) (splitFee r.feeAmount (share.setWidth 256)) :=
        splitFee_yields hproduct hshare
      obtain ⟨split, hsplit, -⟩ := hyields
      simp only [attachAllocation, allocateFee, hsplit, Except.ok_bind] at h
      cases h

/-- **No arithmetic error for realistic amounts**: without a share in both modes, and with a share
of at most the whole in exact-in mode. -/
theorem quote_total (state : QuoteState) (block : Nat) (policy : QuotePolicy)
    (request : QuoteRequest) (hamount : request.amount.toNat < 2 ^ 128)
    (hshare : policy.verifiedPartnerFeeBps = none ∨ request.mode = .exactIn ∧
      ∀ share, policy.verifiedPartnerFeeBps = some share → share.toNat ≤ bps.toNat) :
    ∃ outcome, quote request block state policy = .ok outcome := by
  obtain ⟨feeClass, share⟩ := policy
  obtain ⟨base, hbase, -⟩ := quoteCore_yields state feeClass block hamount
  rw [← quote_eq_ok] at hbase
  cases share with
  | none => exact ⟨base, hbase⟩
  | some shareBps =>
    obtain ⟨hmode, hle⟩ := hshare.resolve_left (by simp)
    have hshareBps := hle shareBps rfl
    cases hquote : quote request block state ⟨feeClass, some shareBps⟩ with
    | ok outcome => exact ⟨outcome, rfl⟩
    | error e =>
      rcases quote_error_of_share hshareBps hquote with herror | ⟨r, hr, hproduct⟩
      · cases hbase.symm.trans herror
      -- the fee is paid out of the reserve
      obtain ⟨reserve, -, -, hcovered⟩ := (quote_priced hr).payable
      have hfee : r.feeAmount.toNat < 2 ^ 128 :=
        (le_of_add_left_le (hcovered hmode)).trans_lt reserve.isLt
      have hsmall := Nat.mul_le_mul_left r.feeAmount.toNat hshareBps
      rw [toNat_bps] at hsmall
      omega

/-- The largest amount of 128 bits, with a quarter of the fee for the partner. -/
theorem quote_total_largest :
    (BitVec.ofNat 256 0xffffffffffffffffffffffffffffffff).toNat < 2 ^ 128 ∧
      ∃ outcome, quote ⟨1, 2, BitVec.ofNat 256 0xffffffffffffffffffffffffffffffff, .exactIn⟩ 0
        sampleState ⟨.whitelisted, some 250000⟩ = .ok outcome := by
  have hamount : (BitVec.ofNat 256 0xffffffffffffffffffffffffffffffff).toNat < 2 ^ 128 := by
    decide +kernel
  refine ⟨hamount, quote_total sampleState 0 ⟨.whitelisted, some 250000⟩
    ⟨1, 2, BitVec.ofNat 256 0xffffffffffffffffffffffffffffffff, .exactIn⟩ hamount
    (.inr ⟨rfl, ?_⟩)⟩
  rintro share ⟨⟩
  decide

end Lunarbase.Math
