import Lunarbase.Math.Codec
import Lunarbase.Math.Terms

/-!
# Math — Priced

An available quote is what the formulas of its path say: the fee is the spread of the anchor at
the sum of the legs' effective rates, and what is paid out or asked for is the anchor less, or
with, the spread at the total rate (`quote_priced`).

* `available_quotes_payable`: both amounts are positive, the reserve covers the output, and the
  scalar form tells an available quote from an unavailable one;
* `fees_act_against_trader`: larger fees, multiplier and slippage coefficients never improve a
  quote.
-/

namespace Lunarbase.Math

open List Except Nat

variable {state : QuoteState} {policy : QuotePolicy} {request : QuoteRequest} {r : QuoteResult}

/-! ### The path of a request -/

/-- A lane as a leg: bought with cash at the ask fee, sold for cash at the bid fee. -/
def laneLeg (cashToAsset : Bool) (lane : LaneState) : Leg where
  rawFee := (if cashToAsset then laneSlot0AskFeeBps lane.slot0
    else laneSlot0BidFeeBps lane.slot0).toNat
  principal := convertIn (laneSlot0Price lane.slot0).toNat lane.totalPrincipalAmount.toNat false
  k := (laneSlot0SlippageKBps lane.slot0).toNat

/-- The leg of an asset; cash has none. -/
def assetLegs (state : QuoteState) (cashToAsset : Bool) (asset : Address) : List Leg :=
  if asset = state.cash then []
  else ((state.lanes.lookup asset).map (laneLeg cashToAsset)).toList

/-- The input is sold for cash, the output is bought with it. -/
def pathLegs (state : QuoteState) (request : QuoteRequest) : List Leg :=
  assetLegs state false request.assetIn ++ assetLegs state true request.assetOut

/-- The price a quote converts `asset` at: the fixed-point unit for cash, the pushed lane price
otherwise. -/
def quotedPrice (state : QuoteState) (asset : Address) : Nat :=
  if asset = state.cash then wad.toNat
  else match state.lanes.lookup asset with
    | some lane => (laneSlot0Price lane.slot0).toNat
    | none => 0

/-- The cash between the legs. -/
def pathCash (state : QuoteState) (request : QuoteRequest) : Nat :=
  match request.mode with
  | .exactIn => convertIn (quotedPrice state request.assetIn) request.amount.toNat false
  | .exactOut => convertOut (quotedPrice state request.assetOut) request.amount.toNat true

/-- The amount at the other end of the path, before fee and slippage. -/
def pathAnchor (state : QuoteState) (request : QuoteRequest) : Nat :=
  match request.mode with
  | .exactIn => convertIn (quotedPrice state request.assetOut) (pathCash state request) true
  | .exactOut => convertOut (quotedPrice state request.assetIn) (pathCash state request) false

def pathFee (state : QuoteState) (feeClass : FeeClass) (request : QuoteRequest) : Nat :=
  legsFee feeClass.isWhitelisted state.blacklistFeeMultiplier.toNat (pathLegs state request)

def pathTotal (state : QuoteState) (feeClass : FeeClass) (request : QuoteRequest) : Nat :=
  legsTotal feeClass.isWhitelisted state.blacklistFeeMultiplier.toNat (pathCash state request)
    (pathLegs state request)

/-! ### Settling -/

/-- The output and, in exact-in mode, the fee beside it are covered by the reserve. -/
def Payable (state : QuoteState) (request : QuoteRequest) (r : QuoteResult) : Prop :=
  ∃ reserve, outputReserve state request.assetOut = some reserve ∧
    r.amountOut.toNat ≤ reserve.toNat ∧
    (request.mode = .exactIn → r.amountOut.toNat + r.feeAmount.toNat ≤ reserve.toNat)

/-- What a quote says about its anchor and its rates. -/
structure Charged (request : QuoteRequest) (anchor feeRate totalRate : Nat) (r : QuoteResult) :
    Prop where
  fee : r.feeAmount.toNat = spread request.mode.isExactIn anchor feeRate
  exactIn : request.mode = .exactIn → r.amountIn = request.amount ∧ 0 < r.amountOut.toNat ∧
    r.amountOut.toNat + spread true anchor totalRate = anchor
  exactOut : request.mode = .exactOut → r.amountOut = request.amount ∧
    r.amountIn.toNat = anchor + spread false anchor totalRate

theorem reserveInsufficient_eq_false {mode : QuoteMode} {reserve amountOut fee : U256}
    (h : reserveInsufficient mode reserve amountOut fee = .ok false) :
    amountOut.toNat ≤ reserve.toNat ∧
      (mode = .exactIn → amountOut.toNat + fee.toNat ≤ reserve.toNat) := by
  rw [reserveInsufficient] at h
  split at h
  · cases h
  next hle =>
    rw [BitVec.lt_def, not_lt] at hle
    refine ⟨hle, ?_⟩
    rintro rfl
    obtain ⟨rest, hrest, h⟩ := bind_eq_ok.mp h
    rw [checkedSub_eq_ok] at hrest
    have hfee := of_decide_eq_false (Except.ok.inj h)
    rw [BitVec.lt_def] at hfee
    omega

variable {feeAsset : Address}

theorem settleQuote_eq_available {fee amountIn amountOut : U256}
    (h : settleQuote state policy request feeAsset fee amountIn amountOut = .ok (.available r)) :
    r.amountIn = amountIn ∧ r.amountOut = amountOut ∧ r.feeAmount = fee ∧
      Payable state request r := by
  rw [settleQuote] at h
  split at h
  · cases h
  next reserve hreserve =>
    obtain ⟨short, hshort, h⟩ := bind_eq_ok.mp h
    cases short with
    | true => cases h
    | false =>
      obtain ⟨allocation, -, h⟩ := bind_eq_ok.mp h
      cases h
      exact ⟨rfl, rfl, rfl, reserve, hreserve, reserveInsufficient_eq_false hshort⟩

theorem assembleQuote_charged {anchor fee slippage : U256} {feeRate totalRate : Nat}
    (h : assembleQuote state policy request feeAsset anchor fee slippage = .ok (.available r))
    (hfee : fee.toNat = spread request.mode.isExactIn anchor.toNat feeRate)
    (htotal : fee.toNat + slippage.toNat = spread request.mode.isExactIn anchor.toNat totalRate) :
    Charged request anchor.toNat feeRate totalRate r ∧ Payable state request r := by
  obtain ⟨total, hsum, h⟩ := bind_eq_ok.mp h
  rw [checkedAdd_eq_ok, htotal] at hsum
  cases hmode : request.mode with
  | exactIn =>
    simp only [hmode] at h
    split at h
    · cases h
    next hlt =>
      obtain ⟨amountOut, hamountOut, h⟩ := bind_eq_ok.mp h
      rw [checkedSub_eq_ok] at hamountOut
      rw [BitVec.le_def, not_le] at hlt
      obtain ⟨hin, hout, hfee', hpayable⟩ := settleQuote_eq_available h
      rw [hmode] at hsum
      refine ⟨⟨?_, fun _ => ⟨hin, ?_, ?_⟩, fun hno => by simp [hmode] at hno⟩, hpayable⟩
      · rw [hfee', hfee]
      · rw [hout]
        omega
      rw [hout]
      rw [hsum] at hamountOut
      exact hamountOut
  | exactOut =>
    simp only [hmode] at h
    obtain ⟨amountIn, hamountIn, h⟩ := bind_eq_ok.mp h
    rw [checkedAdd_eq_ok] at hamountIn
    obtain ⟨hin, hout, hfee', hpayable⟩ := settleQuote_eq_available h
    rw [hmode] at hsum
    refine ⟨⟨?_, fun hno => by simp [hmode] at hno, fun _ => ⟨hout, ?_⟩⟩, hpayable⟩
    · rw [hfee', hfee]
    rw [hin, hamountIn, hsum]
    rfl

/-! ### Rates -/

/-- The spread of one lane: the fee and the whole at their rates. -/
theorem laneSpread_eq_ok {anchor feeBps slippageBps fee slippage : U256} {exactIn : Bool}
    (hfee : feeBps.toNat ≤ 1000000) (hslippage : slippageBps.toNat ≤ 100000)
    (h : laneSpread anchor feeBps slippageBps exactIn = .ok (fee, slippage)) :
    fee.toNat = spread exactIn anchor.toNat feeBps.toNat ∧ fee.toNat + slippage.toNat =
        spread exactIn anchor.toNat (feeBps.toNat + slippageBps.toNat) := by
  obtain ⟨fee', hfee', h⟩ := bind_eq_ok.mp h
  obtain ⟨totalBps, htotalBps, h⟩ := bind_eq_ok.mp h
  obtain ⟨total, htotal, h⟩ := bind_eq_ok.mp h
  obtain ⟨slippage', hslippage', h⟩ := bind_eq_ok.mp h
  obtain ⟨rfl, rfl⟩ : fee' = fee ∧ slippage' = slippage := by simpa using h
  rw [checkedAdd_eq_ok] at htotalBps
  have hword : ∀ n < 2000000, n + bps.toNat < 2 ^ 256 := by
    intro n hn
    rw [toNat_bps]
    omega
  rw [modeFee_eq_ok (hword _ (by omega))] at hfee'
  rw [modeFee_eq_ok (hword _ (by omega))] at htotal
  rw [checkedSub_eq_ok] at hslippage'
  rw [← htotalBps, ← htotal, ← hslippage', add_comm]
  exact ⟨hfee', rfl⟩

/-! ### Direct and routed quotes -/

variable (lane : LaneState)

theorem toNat_slippageK :
    ((laneSlot0SlippageKBps lane.slot0).setWidth 256 : U256).toNat =
      (laneSlot0SlippageKBps lane.slot0).toNat := Word.toNat_setWidth_of_le (by decide)

theorem toNat_slippageK_lt :
    ((laneSlot0SlippageKBps lane.slot0).setWidth 256 : U256).toNat < 2 ^ 255 := by
  exact (laneSlot0SlippageKBps lane.slot0).isLt.trans (by decide)

variable {lane inputLane outputLane : LaneState}

theorem quoteDirect_charged {laneAsset feeAsset : Address} {toAsset : Bool}
    (h : quoteDirect state policy request laneAsset lane toAsset feeAsset = .ok (.available r)) :
    ∃ anchor : U256,
      modeConvert request.mode (laneSlot0Price lane.slot0) request.amount toAsset = .ok anchor ∧
      0 < anchor.toNat ∧
      Charged request anchor.toNat
        (legsFee policy.feeClass.isWhitelisted state.blacklistFeeMultiplier.toNat
          [laneLeg toAsset lane])
        (legsTotal policy.feeClass.isWhitelisted state.blacklistFeeMultiplier.toNat
          (if toAsset = request.mode.isExactIn then request.amount.toNat else anchor.toNat)
          [laneLeg toAsset lane]) r ∧
      Payable state request r := by
  obtain ⟨anchor, hanchor, h⟩ := bind_eq_ok.mp h
  split at h
  · cases h
  next hne =>
    obtain ⟨principal, hprincipal, h⟩ := bind_eq_ok.mp h
    split at h
    · cases h
    simp only [bind_eq_ok] at h
    obtain ⟨feeBps, hfeeBps, slippageBps, hslippageBps, ⟨fee, slippage⟩, hspread, h⟩ := h
    rw [principalCashValue_eq_ok] at hprincipal
    rw [calculateFeeBpsForRouter_eq_ok] at hfeeBps
    obtain ⟨-, hslippageBps⟩ := quoteLaneSlippageBps_eq_ok.mp hslippageBps
    have hcash : (if toAsset then (if request.mode.isExactIn then request.amount else anchor)
        else if request.mode.isExactIn then anchor else request.amount).toNat =
        if toAsset = request.mode.isExactIn then request.amount.toNat else anchor.toNat := by
      cases toAsset <;> cases request.mode.isExactIn <;> rfl
    rw [hcash, hprincipal, toNat_slippageK] at hslippageBps
    obtain ⟨hfee, htotal⟩ := laneSpread_eq_ok (hfeeBps ▸ effectiveFee_le _ _ _)
      (hslippageBps ▸ slippageRate_le _ _ _) hspread
    rw [hfeeBps] at hfee
    rw [hfeeBps, hslippageBps] at htotal
    refine ⟨anchor, hanchor, toNat_ne_zero.mp hne, assembleQuote_charged h ?_ ?_⟩
    · simpa [legsFee, laneLeg] using hfee
    · simpa [legsTotal, legsFee, legsPrincipal, legsK, laneLeg] using htotal

theorem quoteRoute_charged
    (h : quoteRoute state policy request inputLane outputLane = .ok (.available r)) :
    ∃ cash anchor : U256, routeAnchor request inputLane outputLane = .ok (cash, anchor) ∧
      0 < anchor.toNat ∧
      Charged request anchor.toNat
        (legsFee policy.feeClass.isWhitelisted state.blacklistFeeMultiplier.toNat
          [laneLeg false inputLane, laneLeg true outputLane])
        (legsTotal policy.feeClass.isWhitelisted state.blacklistFeeMultiplier.toNat cash.toNat
          [laneLeg false inputLane, laneLeg true outputLane]) r ∧
      Payable state request r := by
  obtain ⟨⟨cash, anchor⟩, hanchor, h⟩ := bind_eq_ok.mp h
  dsimp only at h
  split at h
  · cases h
  next hne =>
    obtain ⟨first, hfirst, h⟩ := bind_eq_ok.mp h
    split at h
    · cases h
    obtain ⟨second, hsecond, h⟩ := bind_eq_ok.mp h
    split at h
    · cases h
    simp only [bind_eq_ok] at h
    obtain ⟨weightedK, hweightedK, principal, hprincipal, slippageBps, hslippageBps, bid, hbid,
      ask, hask, feeBps, hfeeBps, fee, hfee, bidTotal, hbidTotal, askTotal, haskTotal, totalBps,
      htotalBps, total, htotal, slippage, hslippage, h⟩ := h
    rw [principalCashValue_eq_ok] at hfirst hsecond
    rw [calculateFeeBpsForRouter_eq_ok] at hbid hask
    rw [checkedAdd_eq_ok] at hprincipal hfeeBps hbidTotal haskTotal htotalBps
    rw [checkedSub_eq_ok] at hslippage
    obtain ⟨-, hweightedK⟩ := (quoteLaneWeightedSlippageKBps_eq_ok
      (laneLeg false inputLane).rawFee (laneLeg true outputLane).rawFee
      (toNat_slippageK_lt inputLane) (toNat_slippageK_lt outputLane)).mp hweightedK
    obtain ⟨-, hslippageBps⟩ := quoteLaneSlippageBps_eq_ok.mp hslippageBps
    rw [hfirst, hsecond, toNat_slippageK, toNat_slippageK] at hweightedK
    rw [hprincipal, hfirst, hsecond, hweightedK] at hslippageBps
    have hcaps := And.intro (hbid ▸ effectiveFee_le _ _ _ : bid.toNat ≤ 1000000)
      (hask ▸ effectiveFee_le _ _ _ : ask.toNat ≤ 1000000)
    have hcap : slippageBps.toNat ≤ 100000 := hslippageBps ▸ slippageRate_le _ _ _
    rw [modeFee_eq_ok (by rw [toNat_bps]; omega), hfeeBps, hbid, hask] at hfee
    rw [modeFee_eq_ok (by rw [toNat_bps]; omega)] at htotal
    have hrate : totalBps.toNat = bid.toNat + ask.toNat + 2 * slippageBps.toNat := by omega
    rw [hrate, hbid, hask, hslippageBps] at htotal
    refine ⟨cash, anchor, hanchor, toNat_ne_zero.mp hne, assembleQuote_charged h ?_ ?_⟩
    · simpa [legsFee, laneLeg] using hfee
    rw [add_comm, hslippage, htotal]
    simp [legsTotal, legsFee, legsPrincipal, laneLeg]

/-! ### Every available quote -/

theorem wad_pos : 0 < wad.toNat := by decide

theorem convertIn_wad (amount : Nat) (toAsset : Bool) :
    convertIn wad.toNat amount toAsset = amount := by
  rw [convertIn, ite_self, Nat.mul_div_cancel amount wad_pos]

theorem convertOut_wad (amount : Nat) (toAsset : Bool) :
    convertOut wad.toNat amount toAsset = amount := by
  rw [convertOut, ite_self, mul_comm, ← smul_eq_mul, smul_ceilDiv wad_pos]

variable {asset : Address} {block : Nat}

theorem laneOrReason_lookup (h : laneOrReason state asset block = .ok lane) :
    state.lanes.lookup asset = some lane := by
  unfold laneOrReason at h
  split at h
  case h_1 => cases h
  case h_2 l hl =>
    split at h
    case isTrue => cases h
    case isFalse =>
      split at h
      case isTrue => cases h
      case isFalse =>
        dsimp only at h
        split at h
        case isTrue => cases h
        case isFalse => cases h; exact hl

theorem quotedPrice_cash : quotedPrice state state.cash = wad.toNat := if_pos rfl

theorem quotedPrice_lane (hne : asset ≠ state.cash) (h : state.lanes.lookup asset = some lane) :
    quotedPrice state asset = (laneSlot0Price lane.slot0).toNat := by
  rw [quotedPrice, if_neg hne, h]

/-- An available quote in terms of its path. -/
structure Priced (state : QuoteState) (feeClass : FeeClass) (request : QuoteRequest)
    (r : QuoteResult) : Prop where
  anchor_pos : 0 < pathAnchor state request
  charged : Charged request (pathAnchor state request) (pathFee state feeClass request)
    (pathTotal state feeClass request) r
  payable : Payable state request r

variable (toAsset : Bool)

theorem assetLegs_cash : assetLegs state toAsset state.cash = [] := if_pos rfl

theorem assetLegs_lane (hne : asset ≠ state.cash) (hlane : state.lanes.lookup asset = some lane) :
    assetLegs state toAsset asset = [laneLeg toAsset lane] := by
  rw [assetLegs, if_neg hne, hlane]
  rfl

variable {toAsset} in
/-- A quote over one lane, in either direction. -/
theorem priced_direct {laneAsset : Address}
    (hlegs : pathLegs state request = [laneLeg toAsset lane])
    (hpath : pathAnchor state request =
        convert request.mode (laneSlot0Price lane.slot0).toNat request.amount.toNat toAsset ∧
      pathCash state request = if toAsset = request.mode.isExactIn then request.amount.toNat
        else convert request.mode (laneSlot0Price lane.slot0).toNat request.amount.toNat toAsset)
    (h : quoteDirect state policy request laneAsset lane toAsset feeAsset = .ok (.available r)) :
    Priced state policy.feeClass request r := by
  obtain ⟨anchor, hanchor, hpos, hcharged, hpayable⟩ := quoteDirect_charged h
  rw [modeConvert_eq_ok] at hanchor
  rw [← hanchor] at hpath
  refine ⟨hpath.1 ▸ hpos, ?_, hpayable⟩
  rw [pathFee, pathTotal, hlegs, hpath.1, hpath.2]
  exact hcharged

theorem priced_to_cash (hout : request.assetOut = state.cash) (hin : request.assetIn ≠ state.cash)
    (hlane : state.lanes.lookup request.assetIn = some lane)
    (h : quoteDirect state policy request request.assetIn lane false feeAsset =
      .ok (.available r)) : Priced state policy.feeClass request r := by
  refine priced_direct ?_ ?_ h
  · rw [pathLegs, hout, assetLegs_cash, assetLegs_lane false hin hlane, append_nil]
  · simp only [pathAnchor, pathCash, hout, quotedPrice_cash, quotedPrice_lane hin hlane, convert]
    cases request.mode <;> simp [convertIn_wad, convertOut_wad, QuoteMode.isExactIn]

theorem priced_to_asset (hin : request.assetIn = state.cash) (hout : request.assetOut ≠ state.cash)
    (hlane : state.lanes.lookup request.assetOut = some lane)
    (h : quoteDirect state policy request request.assetOut lane true feeAsset =
      .ok (.available r)) : Priced state policy.feeClass request r := by
  refine priced_direct ?_ ?_ h
  · rw [pathLegs, hin, assetLegs_cash, assetLegs_lane true hout hlane, nil_append]
  · simp only [pathAnchor, pathCash, hin, quotedPrice_cash, quotedPrice_lane hout hlane, convert]
    cases request.mode <;> simp [convertIn_wad, convertOut_wad, QuoteMode.isExactIn]

theorem priced_route (hin : request.assetIn ≠ state.cash) (hout : request.assetOut ≠ state.cash)
    (hinput : state.lanes.lookup request.assetIn = some inputLane)
    (houtput : state.lanes.lookup request.assetOut = some outputLane)
    (h : quoteRoute state policy request inputLane outputLane = .ok (.available r)) :
    Priced state policy.feeClass request r := by
  obtain ⟨cash, anchor, hanchor, hpos, hcharged, hpayable⟩ := quoteRoute_charged h
  have hlegs : pathLegs state request = [laneLeg false inputLane, laneLeg true outputLane] := by
    rw [pathLegs, assetLegs_lane false hin hinput, assetLegs_lane true hout houtput]
    rfl
  have hpath : pathAnchor state request = anchor.toNat ∧ pathCash state request = cash.toNat := by
    rw [pathAnchor, pathCash, quotedPrice_lane hin hinput, quotedPrice_lane hout houtput]
    rw [routeAnchor] at hanchor
    cases hmode : request.mode with
    | exactIn =>
      simp only [hmode, bind_eq_ok, Except.ok.injEq, Prod.mk.injEq] at hanchor
      obtain ⟨cash', hcash, anchor', hanchor, rfl, rfl⟩ := hanchor
      rw [quoteLaneExactIn_eq_ok] at hcash hanchor
      exact ⟨by rw [hanchor, hcash], hcash.symm⟩
    | exactOut =>
      simp only [hmode, bind_eq_ok, Except.ok.injEq, Prod.mk.injEq] at hanchor
      obtain ⟨cash', hcash, anchor', hanchor, rfl, rfl⟩ := hanchor
      rw [quoteLaneExactOut_eq_ok] at hcash hanchor
      exact ⟨by rw [hanchor, hcash], hcash.symm⟩
  refine ⟨hpath.1 ▸ hpos, ?_, hpayable⟩
  rw [pathFee, pathTotal, hlegs, hpath.1, hpath.2]
  exact hcharged

/-- The dispatch of an available quote. -/
theorem quote_priced (h : quote request block state policy = .ok (.available r)) :
    Priced state policy.feeClass request r := by
  rw [quote_eq_ok, quoteCore] at h
  split at h
  case isTrue => cases h
  split at h
  case isTrue => cases h
  rename_i hne
  split at h
  case isTrue hout =>
    split at h
    case h_2 => cases h
    case h_1 lane hlane =>
      exact priced_to_cash hout (fun hin => hne (hin.trans hout.symm)) (laneOrReason_lookup hlane) h
  case isFalse hout =>
    split at h
    case isTrue hin =>
      split at h
      case h_2 => cases h
      case h_1 lane hlane => exact priced_to_asset hin hout (laneOrReason_lookup hlane) h
    case isFalse hin =>
      split at h
      case h_1 => cases h
      case h_2 inputLane hinput =>
        split at h
        case h_1 => cases h
        case h_2 outputLane houtput =>
          exact priced_route hin hout (laneOrReason_lookup hinput) (laneOrReason_lookup houtput) h

/-! ### Payable quotes -/

theorem quotedPrice_lt (state : QuoteState) (asset : Address) :
    quotedPrice state asset < 2 ^ 112 := by
  rw [quotedPrice]
  split
  · decide
  split
  · exact Word.readField_lt (by decide)
  · decide

theorem pathCash_lt (state : QuoteState) (hamount : request.amount.toNat < 2 ^ 128) :
    pathCash state request < 2 ^ 182 := by
  rw [pathCash]
  cases request.mode with
  | exactIn => exact (convert_to_cash_lt (quotedPrice_lt state _) hamount).1
  | exactOut => exact (convert_to_cash_lt (quotedPrice_lt state _) hamount).2

theorem pathAnchor_lt (state : QuoteState) (hamount : request.amount.toNat < 2 ^ 128) :
    pathAnchor state request < 2 ^ 242 := by
  have hcash := pathCash_lt state hamount
  rw [pathAnchor]
  cases request.mode with
  | exactIn => exact (convert_from_cash_lt _ hcash).1
  | exactOut => exact (convert_from_cash_lt _ hcash).2

theorem length_assetLegs (state : QuoteState) (toAsset : Bool) (asset : Address) :
    (assetLegs state toAsset asset).length ≤ 1 := by
  rw [assetLegs]
  split
  · exact zero_le 1
  cases state.lanes.lookup asset with
  | none => exact zero_le 1
  | some lane => exact le_refl 1

theorem pathTotal_le (state : QuoteState) (feeClass : FeeClass) (request : QuoteRequest) :
    pathTotal state feeClass request ≤ 3000000 := by
  refine legsTotal_le _ _ _ ?_
  have hin := length_assetLegs state false request.assetIn
  have hout := length_assetLegs state true request.assetOut
  rw [pathLegs, length_append]
  omega

/-- An exact-out input is far below the largest word: the reserve bounds the output. -/
theorem Priced.amountIn_lt (h : Priced state policy.feeClass request r)
    (hmode : request.mode = .exactOut) : r.amountIn.toNat < 2 ^ 244 := by
  obtain ⟨reserve, -, hle, -⟩ := h.payable
  obtain ⟨hout, hin⟩ := h.charged.exactOut hmode
  have hamount : request.amount.toNat < 2 ^ 128 := (hout ▸ hle).trans_lt reserve.isLt
  have hanchor := pathAnchor_lt state hamount
  have hspread := spread_le false (pathAnchor state request)
    (pathTotal_le state policy.feeClass request)
  omega

theorem Priced.amounts_pos (h : Priced state policy.feeClass request r)
    (hamount : request.amount ≠ 0) : 0 < r.amountIn.toNat ∧ 0 < r.amountOut.toNat := by
  have hpos := toNat_ne_zero.mp hamount
  cases hmode : request.mode with
  | exactIn =>
    obtain ⟨hin, hout, -⟩ := h.charged.exactIn hmode
    exact ⟨hin ▸ hpos, hout⟩
  | exactOut =>
    obtain ⟨hout, hin⟩ := h.charged.exactOut hmode
    exact ⟨hin ▸ Nat.add_pos_left h.anchor_pos _, hout ▸ hpos⟩

/-- The scalar of an unavailable quote. -/
def sentinel : QuoteMode → U256
  | .exactIn => 0
  | .exactOut => BitVec.allOnes 256

theorem solidityQuoteAmount_unavailable (hamount : request.amount ≠ 0)
    (reason : UnavailableReason) :
    solidityQuoteAmount request (.unavailable reason) = sentinel request.mode := by
  cases hmode : request.mode with
  | exactIn => simp only [solidityQuoteAmount, hmode, sentinel]
  | exactOut => simp only [solidityQuoteAmount, hmode, hamount, if_false, sentinel]

theorem Priced.solidityQuoteAmount_ne (h : Priced state policy.feeClass request r)
    (hamount : request.amount ≠ 0) :
    solidityQuoteAmount request (.available r) ≠ sentinel request.mode := by
  cases hmode : request.mode with
  | exactIn =>
    simp only [solidityQuoteAmount, hmode, sentinel]
    exact toNat_ne_zero.mpr (h.amounts_pos hamount).2
  | exactOut =>
    simp only [solidityQuoteAmount, hmode, hamount, if_false, sentinel]
    intro hmax
    have hlt := h.amountIn_lt hmode
    rw [hmax, BitVec.toNat_allOnes] at hlt
    omega

/-- **Available quotes are payable and their scalar form is unambiguous.** -/
theorem available_quotes_payable (state : QuoteState) (block : Nat) (policy : QuotePolicy)
    (request : QuoteRequest) (outcome : QuoteOutcome) (hamount : request.amount ≠ 0)
    (h : quote request block state policy = .ok outcome) :
    (∀ r, outcome = .available r → 0 < r.amountIn ∧ 0 < r.amountOut ∧
      ∃ reserve, outputReserve state request.assetOut = some reserve ∧
        r.amountOut.toNat ≤ reserve.toNat ∧
        (request.mode = .exactIn → r.amountOut.toNat + r.feeAmount.toNat ≤ reserve.toNat)) ∧
    (solidityQuoteAmount request outcome = sentinel request.mode ↔
      ∃ reason, outcome = .unavailable reason) := by
  cases outcome with
  | available r =>
    have hpriced := quote_priced h
    constructor
    · rintro _ ⟨⟩
      obtain ⟨hin, hout⟩ := hpriced.amounts_pos hamount
      exact ⟨BitVec.lt_def.mpr hin, BitVec.lt_def.mpr hout, hpriced.payable⟩
    · refine iff_of_false (hpriced.solidityQuoteAmount_ne hamount) ?_
      rintro ⟨reason, ⟨⟩⟩
  | unavailable reason =>
    constructor
    · rintro r ⟨⟩
    · exact iff_of_true (solidityQuoteAmount_unavailable hamount reason) ⟨reason, rfl⟩

/-- Nine thousand units of cash asked for, and paid from a reserve of a million. -/
theorem available_quotes_payable_sample :
    quote ⟨2, 1, 9000, .exactOut⟩ 0 sampleState ⟨.whitelisted, none⟩ =
        .ok (.available ⟨4505, 9000, 2, 5, none⟩) ∧
      solidityQuoteAmount ⟨2, 1, 9000, .exactOut⟩ (.available ⟨4505, 9000, 2, 5, none⟩) ≠
        BitVec.allOnes 256 := by
  have hquote : quote ⟨2, 1, 9000, .exactOut⟩ 0 sampleState ⟨.whitelisted, none⟩ =
      .ok (.available ⟨4505, 9000, 2, 5, none⟩) := by decide +kernel
  refine ⟨hquote, fun hmax => ?_⟩
  obtain ⟨reason, hno⟩ := (available_quotes_payable sampleState 0 ⟨.whitelisted, none⟩
    ⟨2, 1, 9000, .exactOut⟩ _ (by decide) hquote).2.mp hmax
  cases hno

/-! ### Dearer states -/

/-- The same lane with no smaller fees and no smaller slippage coefficient: the other fields of
its word, its reserve and its principal are unchanged. -/
structure DearerLane (lane lane' : LaneState) : Prop where
  bidFee : (decodeLaneSlot0 lane.slot0).bidFeeBps ≤ (decodeLaneSlot0 lane'.slot0).bidFeeBps
  askFee : (decodeLaneSlot0 lane.slot0).askFeeBps ≤ (decodeLaneSlot0 lane'.slot0).askFeeBps
  slippageK : (decodeLaneSlot0 lane.slot0).slippageKBps ≤ (decodeLaneSlot0 lane'.slot0).slippageKBps
  view : decodeLaneSlot0 lane'.slot0 = { decodeLaneSlot0 lane.slot0 with
      bidFeeBps := (decodeLaneSlot0 lane'.slot0).bidFeeBps
      askFeeBps := (decodeLaneSlot0 lane'.slot0).askFeeBps
      slippageKBps := (decodeLaneSlot0 lane'.slot0).slippageKBps }
  assetReserve : lane'.assetReserve = lane.assetReserve
  totalPrincipalAmount : lane'.totalPrincipalAmount = lane.totalPrincipalAmount

/-- `state'` differs from `state` only in a larger multiplier or in dearer lanes. -/
structure DearerState (state state' : QuoteState) : Prop where
  cash : state'.cash = state.cash
  cashReserve : state'.cashReserve = state.cashReserve
  multiplier : state.blacklistFeeMultiplier ≤ state'.blacklistFeeMultiplier
  lanes : ∀ asset, Option.Rel DearerLane (state.lanes.lookup asset) (state'.lanes.lookup asset)

section Dearer

variable {state' : QuoteState} {lane lane' : LaneState}

theorem DearerLane.price (h : DearerLane lane lane') :
    (laneSlot0Price lane'.slot0).toNat = (laneSlot0Price lane.slot0).toNat := by
  rw [toNat_laneSlot0Price, toNat_laneSlot0Price, h.view]

theorem DearerLane.leg (h : DearerLane lane lane') (toAsset : Bool) :
    (laneLeg toAsset lane).Dearer (laneLeg toAsset lane') where
  rawFee := by
    cases toAsset with
    | true =>
      simp only [laneLeg, if_true, toNat_laneSlot0AskFeeBps]
      exact BitVec.le_def.mp h.askFee
    | false =>
      simp only [laneLeg, Bool.false_eq_true, if_false, toNat_laneSlot0BidFeeBps]
      exact BitVec.le_def.mp h.bidFee
  principal := by simp only [laneLeg, h.price, h.totalPrincipalAmount]
  k := BitVec.le_def.mp h.slippageK

section

variable (h : DearerState state state')

include h

theorem DearerState.quotedPrice (asset : Address) :
    quotedPrice state' asset = quotedPrice state asset := by
  simp only [Math.quotedPrice, h.cash]
  split
  · rfl
  have hlane := h.lanes asset
  generalize state.lanes.lookup asset = lane at hlane
  generalize state'.lanes.lookup asset = lane' at hlane
  cases hlane with
  | none => rfl
  | some hdearer => exact hdearer.price

theorem DearerState.assetLegs (toAsset : Bool) (asset : Address) :
    List.Forall₂ Leg.Dearer (assetLegs state toAsset asset) (assetLegs state' toAsset asset) := by
  simp only [Math.assetLegs, h.cash]
  split
  · exact .nil
  have hlane := h.lanes asset
  generalize state.lanes.lookup asset = lane at hlane
  generalize state'.lanes.lookup asset = lane' at hlane
  cases hlane with
  | none => exact .nil
  | some hdearer => exact .cons (hdearer.leg toAsset) .nil

variable (request : QuoteRequest)

theorem DearerState.pathCash : pathCash state' request = pathCash state request := by
  simp only [Math.pathCash, h.quotedPrice]

theorem DearerState.pathAnchor : pathAnchor state' request = pathAnchor state request := by
  simp only [Math.pathAnchor, h.quotedPrice, h.pathCash]

theorem DearerState.pathTotal (feeClass : FeeClass) (request : QuoteRequest) :
    pathTotal state feeClass request ≤ pathTotal state' feeClass request := by
  rw [Math.pathTotal, Math.pathTotal, h.pathCash]
  exact legsTotal_mono (BitVec.le_def.mp h.multiplier)
    (rel_append (h.assetLegs false _) (h.assetLegs true _))

end

end Dearer

/-- **Fees, multiplier and slippage act against the trader.**  From a state to a dearer one an
exact-in output does not grow and an exact-out input does not shrink.  The rate of a leg is the raw
fee, capped, times the multiplier of a caller who is not whitelisted, capped; the fee of a quote is
charged at the sum of the rates of its legs. -/
theorem fees_act_against_trader :
    (∀ (state state' : QuoteState) (block : Nat) (policy : QuotePolicy) (request : QuoteRequest)
      (r r' : QuoteResult), DearerState state state' →
      quote request block state policy = .ok (.available r) →
      quote request block state' policy = .ok (.available r') →
      (request.mode = .exactIn → r'.amountOut ≤ r.amountOut) ∧
      (request.mode = .exactOut → r.amountIn ≤ r'.amountIn)) ∧
    (∀ (feeClass : FeeClass) (multiplier raw : U256),
      ∃ rate, calculateFeeBpsForRouter feeClass.isWhitelisted multiplier raw = .ok rate ∧
        rate.toNat = min bps.toNat (min raw.toNat bps.toNat * match feeClass with
          | .whitelisted => 1
          | .nonWhitelisted => multiplier.toNat)) ∧
    (∀ (state : QuoteState) (block : Nat) (policy : QuotePolicy) (request : QuoteRequest)
      (r : QuoteResult), quote request block state policy = .ok (.available r) →
      r.feeAmount.toNat = spread request.mode.isExactIn (pathAnchor state request)
        ((pathLegs state request).map fun leg =>
          effectiveFee policy.feeClass.isWhitelisted state.blacklistFeeMultiplier.toNat
            leg.rawFee).sum) := by
  refine ⟨?_, ?_, fun state block policy request r h => (quote_priced h).charged.fee⟩
  · intro state state' block policy request r r' hdearer h h'
    have hcharged := (quote_priced h).charged
    have hcharged' := (quote_priced h').charged
    rw [hdearer.pathAnchor] at hcharged'
    have hrate := hdearer.pathTotal policy.feeClass request
    refine ⟨fun hmode => ?_, fun hmode => ?_⟩
    · have hout := (hcharged.exactIn hmode).2.2
      have hout' := (hcharged'.exactIn hmode).2.2
      have hspread := spread_mono true (pathAnchor state request) hrate
      rw [BitVec.le_def]
      omega
    have hin := (hcharged.exactOut hmode).2
    have hin' := (hcharged'.exactOut hmode).2
    have hspread := spread_mono false (pathAnchor state request) hrate
    rw [BitVec.le_def]
    omega
  · intro feeClass multiplier raw
    obtain ⟨rate, hrate⟩ : ∃ rate : U256,
        rate.toNat = effectiveFee feeClass.isWhitelisted multiplier.toNat raw.toNat :=
      exists_toNat ((effectiveFee_le _ _ _).trans_lt (by decide))
    refine ⟨rate, calculateFeeBpsForRouter_eq_ok.mpr hrate, ?_⟩
    rw [hrate, effectiveFee]
    cases feeClass with
    | whitelisted => rfl
    | nonWhitelisted => rfl

/-- The sample lane with a larger slippage coefficient. -/
def dearerLane : LaneState :=
  { sampleLane with slot0 := setLaneSlot0SlippageKBps sampleLane.slot0 2000000 }

def dearerState : QuoteState :=
  { sampleState with lanes := Finmap.singleton 2 dearerLane, blacklistFeeMultiplier := 3 }

theorem sampleState_dearer : DearerState sampleState dearerState where
  cash := rfl
  cashReserve := rfl
  multiplier := by decide
  lanes := by
    intro asset
    by_cases hasset : asset = 2
    · subst hasset
      have hview : decodeLaneSlot0 dearerLane.slot0 =
          { decodeLaneSlot0 sampleLane.slot0 with slippageKBps := 2000000 } :=
        setLaneSlot0SlippageKBps_view _ _
      refine .some ⟨?_, ?_, ?_, ?_, rfl, rfl⟩
      · exact BitVec.le_def.mpr (le_refl _)
      · exact BitVec.le_def.mpr (le_refl _)
      · decide +kernel
      · rw [hview]
    · have hnone : ∀ lane : LaneState,
          (Finmap.singleton (β := fun _ : Address => LaneState) 2 lane).lookup asset = none :=
        fun lane => Finmap.lookup_eq_none.mpr fun hmem =>
          hasset ((Finmap.mem_singleton _ _ _).mp hmem)
      rw [sampleState, dearerState, hnone, hnone]
      exact .none

/-- A threefold multiplier and a larger coefficient cost the buyer of the sample lane twenty
units. -/
theorem fees_act_against_trader_sample :
    quote ⟨1, 2, 10000, .exactIn⟩ 0 sampleState ⟨.nonWhitelisted, none⟩ =
        .ok (.available ⟨10000, 4995, 2, 5, none⟩) ∧
      quote ⟨1, 2, 10000, .exactIn⟩ 0 dearerState ⟨.nonWhitelisted, none⟩ =
        .ok (.available ⟨10000, 4975, 2, 15, none⟩) ∧
      (4975 : U256) ≤ 4995 := by
  have h : quote ⟨1, 2, 10000, .exactIn⟩ 0 sampleState ⟨.nonWhitelisted, none⟩ =
      .ok (.available ⟨10000, 4995, 2, 5, none⟩) := by decide +kernel
  have h' : quote ⟨1, 2, 10000, .exactIn⟩ 0 dearerState ⟨.nonWhitelisted, none⟩ =
      .ok (.available ⟨10000, 4975, 2, 15, none⟩) := by decide +kernel
  exact ⟨h, h', (fees_act_against_trader.1 _ _ _ _ _ _ _ sampleState_dearer h h').1 rfl⟩

end Lunarbase.Math
