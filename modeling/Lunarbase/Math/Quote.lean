import Lunarbase.Math.Fees
import Lunarbase.Math.State

/-!
# Math — Quote

Direct and routed quotes (`quote.rs`).
-/

namespace Lunarbase.Math

/-- The lane of `asset`, or why it cannot be quoted.  The expiry is a saturating 64-bit sum. -/
def laneOrReason (state : QuoteState) (asset : Address) (executionBlockNumber : Nat) :
    Except UnavailableReason LaneState :=
  match state.lanes.lookup asset with
  | none => .error (.missingLane asset)
  | some lane =>
    if !lane.exists_ then .error (.missingLane asset)
    else if lane.paused then .error (.pausedLane asset)
    else
      let expiresAt := min (2 ^ 64 - 1)
        (laneSlot0LatestUpdateBlock lane.slot0 + (laneSlot0BlockDelay lane.slot0).toNat)
      if expiresAt < executionBlockNumber then .error (.staleLane asset) else .ok lane

def principalCashValue (lane : LaneState) : Except MathError U256 :=
  let principal : U256 := lane.totalPrincipalAmount.setWidth 256
  if principal = 0 then .ok 0
  else quoteLaneExactIn (laneSlot0Price lane.slot0) principal false

/-- The fee of an anchor, in the mode's convention. -/
def modeFee (exactIn : Bool) (anchor feeBps : U256) : Except MathError U256 :=
  if exactIn then quoteLaneExactInFee anchor feeBps else quoteLaneExactOutFee anchor feeBps

def laneSpread (anchor feeBps slippageBps : U256) (exactIn : Bool) :
    Except MathError (U256 × U256) := do
  let fee ← modeFee exactIn anchor feeBps
  let totalBps ← checkedAdd feeBps slippageBps
  let total ← modeFee exactIn anchor totalBps
  let slippage ← checkedSub total fee
  .ok (fee, slippage)

def QuoteMode.isExactIn : QuoteMode → Bool
  | .exactIn => true
  | .exactOut => false

/-- The free balance an output is paid from. -/
def outputReserve (state : QuoteState) (asset : Address) : Option (BitVec 128) :=
  if asset = state.cash then some state.cashReserve
  else (state.lanes.lookup asset).map LaneState.assetReserve

/-- Whether the reserve cannot pay the output and, in exact-in mode, the fee beside it. -/
def reserveInsufficient (mode : QuoteMode) (reserve amountOut fee : U256) :
    Except MathError Bool :=
  if reserve < amountOut then .ok true
  else if mode.isExactIn then do
    let rest ← checkedSub reserve amountOut
    .ok (rest < fee)
  else .ok false

def allocateFee (policy : QuotePolicy) (fee : U256) : Except MathError (Option FeeAllocation) :=
  match policy.verifiedPartnerFeeBps with
  | none => .ok none
  | some feeBps => do
    let (partnerFee, treasuryFee) ← splitFee fee (feeBps.setWidth 256)
    .ok (some ⟨partnerFee, treasuryFee⟩)

/-- The second half of `assemble_quote`: the reserve check and the fee attribution, once both
amounts are known. -/
def settleQuote (state : QuoteState) (policy : QuotePolicy) (request : QuoteRequest)
    (feeAsset : Address) (fee amountIn amountOut : U256) : Except MathError QuoteOutcome :=
  match outputReserve state request.assetOut with
  | none => .ok (.unavailable (.missingLane request.assetOut))
  | some reserve => do
    let insufficient ← reserveInsufficient request.mode (reserve.setWidth 256) amountOut fee
    if insufficient then .ok (.unavailable (.insufficientOutputReserve request.assetOut))
    else do
      let feeAllocation ← allocateFee policy fee
      .ok (.available ⟨amountIn, amountOut, feeAsset, fee, feeAllocation⟩)

def assembleQuote (state : QuoteState) (policy : QuotePolicy) (request : QuoteRequest)
    (feeAsset : Address) (anchor fee slippageAmount : U256) : Except MathError QuoteOutcome := do
  let totalSpread ← checkedAdd fee slippageAmount
  match request.mode with
  | .exactIn =>
    if anchor ≤ totalSpread then .ok (.unavailable .spreadConsumesAnchor)
    else do
      let amountOut ← checkedSub anchor totalSpread
      settleQuote state policy request feeAsset fee request.amount amountOut
  | .exactOut => do
    let amountIn ← checkedAdd anchor totalSpread
    settleQuote state policy request feeAsset fee amountIn request.amount

/-- One lane's conversion, in the mode's direction of rounding. -/
def modeConvert (mode : QuoteMode) (price amount : U256) (cashToAsset : Bool) :
    Except MathError U256 :=
  match mode with
  | .exactIn => quoteLaneExactIn price amount cashToAsset
  | .exactOut => quoteLaneExactOut price amount cashToAsset

def quoteDirect (state : QuoteState) (policy : QuotePolicy) (request : QuoteRequest)
    (laneAsset : Address) (lane : LaneState) (cashToAsset : Bool) (feeAsset : Address) :
    Except MathError QuoteOutcome := do
  let anchor ← modeConvert request.mode (laneSlot0Price lane.slot0) request.amount cashToAsset
  if anchor = 0 then .ok (.unavailable .zeroAnchor)
  else do
    let principal ← principalCashValue lane
    if principal = 0 then .ok (.unavailable (.zeroPrincipal laneAsset))
    else do
      let rawFee :=
        if cashToAsset then laneSlot0AskFeeBps lane.slot0 else laneSlot0BidFeeBps lane.slot0
      let feeBps ← calculateFeeBpsForRouter policy.feeClass.isWhitelisted
        state.blacklistFeeMultiplier rawFee
      let swapCash :=
        if cashToAsset then (if request.mode.isExactIn then request.amount else anchor)
        else if request.mode.isExactIn then anchor else request.amount
      let slippage ← quoteLaneSlippageBps swapCash principal
        ((laneSlot0SlippageKBps lane.slot0).setWidth 256)
      let (fee, slippageAmount) ← laneSpread anchor feeBps slippage request.mode.isExactIn
      assembleQuote state policy request feeAsset anchor fee slippageAmount

/-- Cash between the two legs of a route, and the anchor at its end. -/
def routeAnchor (request : QuoteRequest) (inputLane outputLane : LaneState) :
    Except MathError (U256 × U256) :=
  match request.mode with
  | .exactIn => do
    let intermediate ← quoteLaneExactIn (laneSlot0Price inputLane.slot0) request.amount false
    let anchor ← quoteLaneExactIn (laneSlot0Price outputLane.slot0) intermediate true
    .ok (intermediate, anchor)
  | .exactOut => do
    let intermediate ← quoteLaneExactOut (laneSlot0Price outputLane.slot0) request.amount true
    let anchor ← quoteLaneExactOut (laneSlot0Price inputLane.slot0) intermediate false
    .ok (intermediate, anchor)

/-- The asset a fee is charged in. -/
def feeAssetOf (request : QuoteRequest) : Address :=
  if request.mode.isExactIn then request.assetOut else request.assetIn

def quoteRoute (state : QuoteState) (policy : QuotePolicy) (request : QuoteRequest)
    (inputLane outputLane : LaneState) : Except MathError QuoteOutcome := do
  let (intermediateCash, anchor) ← routeAnchor request inputLane outputLane
  if anchor = 0 then .ok (.unavailable .zeroAnchor)
  else do
    let firstPrincipal ← principalCashValue inputLane
    if firstPrincipal = 0 then .ok (.unavailable (.zeroPrincipal request.assetIn))
    else do
      let secondPrincipal ← principalCashValue outputLane
      if secondPrincipal = 0 then .ok (.unavailable (.zeroPrincipal request.assetOut))
      else do
        let weightedK ← quoteLaneWeightedSlippageKBps
          firstPrincipal ((laneSlot0SlippageKBps inputLane.slot0).setWidth 256)
          secondPrincipal ((laneSlot0SlippageKBps outputLane.slot0).setWidth 256)
        let totalPrincipal ← checkedAdd firstPrincipal secondPrincipal
        let slippage ← quoteLaneSlippageBps intermediateCash totalPrincipal weightedK
        let whitelisted := policy.feeClass.isWhitelisted
        let bid ← calculateFeeBpsForRouter whitelisted state.blacklistFeeMultiplier
          (laneSlot0BidFeeBps inputLane.slot0)
        let ask ← calculateFeeBpsForRouter whitelisted state.blacklistFeeMultiplier
          (laneSlot0AskFeeBps outputLane.slot0)
        let feeBps ← checkedAdd bid ask
        let fee ← modeFee request.mode.isExactIn anchor feeBps
        let bidTotal ← checkedAdd bid slippage
        let askTotal ← checkedAdd ask slippage
        let totalBps ← checkedAdd bidTotal askTotal
        let total ← modeFee request.mode.isExactIn anchor totalBps
        let slippageAmount ← checkedSub total fee
        assembleQuote state policy request (feeAssetOf request) anchor fee slippageAmount

/-- The dispatch of `quote`, before the error type is lifted. -/
def quoteCore (request : QuoteRequest) (executionBlockNumber : Nat) (state : QuoteState)
    (policy : QuotePolicy) : Except MathError QuoteOutcome :=
  if request.amount = 0 then .ok (.unavailable .zeroAmount)
  else if request.assetIn = request.assetOut then .ok (.unavailable .equalAssets)
  else if request.assetOut = state.cash then
    match laneOrReason state request.assetIn executionBlockNumber with
    | .ok lane =>
      quoteDirect state policy request request.assetIn lane false (feeAssetOf request)
    | .error reason => .ok (.unavailable reason)
  else if request.assetIn = state.cash then
    match laneOrReason state request.assetOut executionBlockNumber with
    | .ok lane =>
      quoteDirect state policy request request.assetOut lane true (feeAssetOf request)
    | .error reason => .ok (.unavailable reason)
  else
    match laneOrReason state request.assetIn executionBlockNumber with
    | .error reason => .ok (.unavailable reason)
    | .ok inputLane =>
      match laneOrReason state request.assetOut executionBlockNumber with
      | .error reason => .ok (.unavailable reason)
      | .ok outputLane => quoteRoute state policy request inputLane outputLane

def quote (request : QuoteRequest) (executionBlockNumber : Nat) (state : QuoteState)
    (policy : QuotePolicy) : Except QuoteError QuoteOutcome :=
  (quoteCore request executionBlockNumber state policy).mapError .arithmetic

/-- The scalar a Solidity caller sees. -/
def solidityQuoteAmount (request : QuoteRequest) (outcome : QuoteOutcome) : U256 :=
  match request.mode, outcome with
  | .exactIn, .available result => result.amountOut
  | .exactIn, .unavailable _ => 0
  | .exactOut, outcome =>
    if request.amount = 0 then 0
    else match outcome with
      | .available result => result.amountIn
      | .unavailable _ => BitVec.allOnes 256

theorem quote_eq_ok {request : QuoteRequest} {block : Nat} {state : QuoteState}
    {policy : QuotePolicy} {outcome : QuoteOutcome} :
    quote request block state policy = .ok outcome ↔
      quoteCore request block state policy = .ok outcome := by
  unfold quote
  cases quoteCore request block state policy <;> simp [Except.mapError]

/-- A lane at price two, with both fees at a tenth of a percent. -/
def sampleLane : LaneState where
  slot0 := 2000000000000000000#256 ||| (1000#256 <<< askFeeShift) ||| (1000#256 <<< bidFeeShift) |||
    (1#256 <<< existsShift) ||| (100#256 <<< slippageKShift)
  assetReserve := 1000000
  totalPrincipalAmount := 500000

def sampleState : QuoteState where
  cash := 1
  cashReserve := 1000000
  lanes := Finmap.singleton 2 sampleLane
  blacklistFeeMultiplier := 1

end Lunarbase.Math
