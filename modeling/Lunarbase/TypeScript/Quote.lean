import Lunarbase.TypeScript.Arithmetic

/-!
# TypeScript — Quote

The TypeScript quote evaluation (`packages/math`: `slot0.ts`, `types.ts`, `quote.ts`).  An address
is its string, compared and looked up in lower case.
-/

namespace Lunarbase.Ts

/-! ### Lane words -/

def SLOT0_PRICE_MASK : Int := 2 ^ 112 - 1
def SLOT0_FEE_MASK : Int := 2 ^ 20 - 1
def SLOT0_BLOCK_MASK : Int := 2 ^ 40 - 1
def SLOT0_SLIPPAGE_K_MASK : Int := 2 ^ 32 - 1

def laneSlot0Price (word : Int) : Except MathError Int := do
  let word ← assertU256 word "slot0"
  .ok (Int.land word SLOT0_PRICE_MASK)

/-- The accessors `laneSlot0…` that shift before they mask. -/
def laneSlot0Field (word : Int) (shift : Nat) (mask : Int) : Except MathError Int := do
  let word ← assertU256 word "slot0"
  .ok (Int.land (word >>> shift) mask)

def laneSlot0AskFeeBps (word : Int) : Except MathError Int :=
  laneSlot0Field word 112 SLOT0_FEE_MASK

def laneSlot0BidFeeBps (word : Int) : Except MathError Int :=
  laneSlot0Field word 132 SLOT0_FEE_MASK

def laneSlot0LatestUpdateBlock (word : Int) : Except MathError Int :=
  laneSlot0Field word 160 SLOT0_BLOCK_MASK

def laneSlot0BlockDelay (word : Int) : Except MathError Int := laneSlot0Field word 202 0xff

def laneSlot0SlippageKBps (word : Int) : Except MathError Int :=
  laneSlot0Field word 210 SLOT0_SLIPPAGE_K_MASK

/-! ### State and results -/

abbrev Address := String

/-- `toLowerCase` on the ASCII strings addresses are written in. -/
def toLowerCase (s : String) : String := s.map Char.toLower

structure LaneState where
  slot0 : Int
  assetReserve : Int
  totalPrincipalAmount : Int
  deriving DecidableEq, Repr

def laneExists (lane : LaneState) : Bool := Int.land (lane.slot0 >>> 200) 1 = 1

def lanePaused (lane : LaneState) : Bool := Int.land (lane.slot0 >>> 201) 1 = 1

inductive FeeClass where
  | whitelisted
  | nonWhitelisted
  deriving DecidableEq, Repr

structure QuotePolicy where
  feeClass : FeeClass
  verifiedPartnerFeeBps : Option Int
  deriving DecidableEq, Repr

structure QuoteState where
  cash : Address
  cashReserve : Int
  lanes : Finmap (fun _ : Address => LaneState)
  blacklistFeeMultiplier : Int

inductive QuoteMode where
  | exactIn
  | exactOut
  deriving DecidableEq, Repr

structure QuoteRequest where
  assetIn : Address
  assetOut : Address
  amount : Int
  mode : QuoteMode
  deriving DecidableEq, Repr

structure FeeAllocation where
  partnerFee : Int
  treasuryFee : Int
  deriving DecidableEq, Repr

structure QuoteResult where
  amountIn : Int
  amountOut : Int
  feeAsset : Address
  feeAmount : Int
  feeAllocation : Option FeeAllocation
  deriving DecidableEq, Repr

inductive UnavailableReason where
  | zeroAmount
  | equalAssets
  | missingLane (asset : Address)
  | pausedLane (asset : Address)
  | staleLane (asset : Address)
  | zeroPrincipal (asset : Address)
  | zeroAnchor
  | spreadConsumesAnchor
  | insufficientOutputReserve (asset : Address)
  deriving DecidableEq, Repr

inductive QuoteOutcome where
  | available (result : QuoteResult)
  | unavailable (reason : UnavailableReason)
  deriving DecidableEq, Repr

/-! ### Quotes -/

/-- The union `LaneState | UnavailableReason` is a sum; a thrown error is outside it. -/
def laneOrReason (state : QuoteState) (asset : Address) (executionBlockNumber : Int) :
    Except MathError (UnavailableReason ⊕ LaneState) :=
  match state.lanes.lookup (toLowerCase asset) with
  | none => .ok (.inl (.missingLane asset))
  | some lane =>
    if !laneExists lane then .ok (.inl (.missingLane asset))
    else if lanePaused lane then .ok (.inl (.pausedLane asset))
    else do
      let updated ← laneSlot0LatestUpdateBlock lane.slot0
      let delay ← laneSlot0BlockDelay lane.slot0
      let expiresAt ← checkedAdd updated delay
      .ok (if expiresAt < executionBlockNumber then .inl (.staleLane asset) else .inr lane)

def principalCashValue (lane : LaneState) : Except MathError Int :=
  if lane.totalPrincipalAmount = 0 then .ok 0
  else do
    let price ← laneSlot0Price lane.slot0
    quoteLaneExactIn price lane.totalPrincipalAmount false

def modeFee (exactIn : Bool) (anchor feeBps : Int) : Except MathError Int :=
  if exactIn then quoteLaneExactInFee anchor feeBps else quoteLaneExactOutFee anchor feeBps

def laneSpread (anchor feeBps slippageBps : Int) (exactIn : Bool) :
    Except MathError (Int × Int) := do
  let fee ← modeFee exactIn anchor feeBps
  let totalBps ← checkedAdd feeBps slippageBps
  let total ← modeFee exactIn anchor totalBps
  let slippage ← checkedSub total fee
  .ok (fee, slippage)

def QuoteMode.isExactIn : QuoteMode → Bool
  | .exactIn => true
  | .exactOut => false

def outputReserve (state : QuoteState) (asset : Address) : Option Int :=
  if toLowerCase asset = toLowerCase state.cash then some state.cashReserve
  else (state.lanes.lookup (toLowerCase asset)).map LaneState.assetReserve

def allocateFee (policy : QuotePolicy) (fee : Int) : Except MathError (Option FeeAllocation) :=
  match policy.verifiedPartnerFeeBps with
  | none => .ok none
  | some feeBps => do
    let (partnerFee, treasuryFee) ← splitFee fee feeBps
    .ok (some ⟨partnerFee, treasuryFee⟩)

def settleQuote (state : QuoteState) (policy : QuotePolicy) (request : QuoteRequest)
    (feeAsset : Address) (fee amountIn amountOut : Int) : Except MathError QuoteOutcome :=
  match outputReserve state request.assetOut with
  | none => .ok (.unavailable (.missingLane request.assetOut))
  | some reserve =>
    if reserve < amountOut ∨ (request.mode = .exactIn ∧ reserve - amountOut < fee) then
      .ok (.unavailable (.insufficientOutputReserve request.assetOut))
    else do
      let feeAllocation ← allocateFee policy fee
      .ok (.available ⟨amountIn, amountOut, feeAsset, fee, feeAllocation⟩)

def assembleQuote (state : QuoteState) (policy : QuotePolicy) (request : QuoteRequest)
    (feeAsset : Address) (anchor fee slippageAmount : Int) : Except MathError QuoteOutcome := do
  let totalSpread ← checkedAdd fee slippageAmount
  match request.mode with
  | .exactIn =>
    if anchor ≤ totalSpread then .ok (.unavailable .spreadConsumesAnchor)
    else do
      let amountOut ← checkedSub anchor totalSpread
      settleQuote state policy request feeAsset fee request.amount amountOut
  | .exactOut => do
    let amountIn ← checkedAdd anchor totalSpread
    settleQuote state policy request feeAsset fee amountIn request.amount

def modeConvert (mode : QuoteMode) (price amount : Int) (cashToAsset : Bool) :
    Except MathError Int :=
  match mode with
  | .exactIn => quoteLaneExactIn price amount cashToAsset
  | .exactOut => quoteLaneExactOut price amount cashToAsset

def FeeClass.isWhitelisted : FeeClass → Bool
  | .whitelisted => true
  | .nonWhitelisted => false

def directQuote (state : QuoteState) (policy : QuotePolicy) (request : QuoteRequest)
    (laneAsset : Address) (lane : LaneState) (cashToAsset : Bool) (feeAsset : Address) :
    Except MathError QuoteOutcome := do
  let price ← laneSlot0Price lane.slot0
  let anchor ← modeConvert request.mode price request.amount cashToAsset
  if anchor = 0 then .ok (.unavailable .zeroAnchor)
  else do
    let principal ← principalCashValue lane
    if principal = 0 then .ok (.unavailable (.zeroPrincipal laneAsset))
    else do
      let rawFee ←
        (if cashToAsset then laneSlot0AskFeeBps lane.slot0 else laneSlot0BidFeeBps lane.slot0)
      let feeBps := calculateFeeBpsForRouter policy.feeClass.isWhitelisted
        state.blacklistFeeMultiplier rawFee
      let swapCash :=
        if cashToAsset then (if request.mode.isExactIn then request.amount else anchor)
        else if request.mode.isExactIn then anchor else request.amount
      let slippageK ← laneSlot0SlippageKBps lane.slot0
      let slippage ← quoteLaneSlippageBps swapCash principal slippageK
      let (fee, slippageAmount) ← laneSpread anchor feeBps slippage request.mode.isExactIn
      assembleQuote state policy request feeAsset anchor fee slippageAmount

def routeAnchor (request : QuoteRequest) (inputLane outputLane : LaneState) :
    Except MathError (Int × Int) :=
  match request.mode with
  | .exactIn => do
    let inputPrice ← laneSlot0Price inputLane.slot0
    let intermediate ← quoteLaneExactIn inputPrice request.amount false
    let outputPrice ← laneSlot0Price outputLane.slot0
    let anchor ← quoteLaneExactIn outputPrice intermediate true
    .ok (intermediate, anchor)
  | .exactOut => do
    let outputPrice ← laneSlot0Price outputLane.slot0
    let intermediate ← quoteLaneExactOut outputPrice request.amount true
    let inputPrice ← laneSlot0Price inputLane.slot0
    let anchor ← quoteLaneExactOut inputPrice intermediate false
    .ok (intermediate, anchor)

def feeAssetOf (request : QuoteRequest) : Address :=
  if request.mode.isExactIn then request.assetOut else request.assetIn

def routeQuote (state : QuoteState) (policy : QuotePolicy) (request : QuoteRequest)
    (inputLane outputLane : LaneState) : Except MathError QuoteOutcome := do
  let (intermediateCash, anchor) ← routeAnchor request inputLane outputLane
  if anchor = 0 then .ok (.unavailable .zeroAnchor)
  else do
    let firstPrincipal ← principalCashValue inputLane
    if firstPrincipal = 0 then .ok (.unavailable (.zeroPrincipal request.assetIn))
    else do
      let secondPrincipal ← principalCashValue outputLane
      if secondPrincipal = 0 then .ok (.unavailable (.zeroPrincipal request.assetOut))
      else do
        let firstK ← laneSlot0SlippageKBps inputLane.slot0
        let secondK ← laneSlot0SlippageKBps outputLane.slot0
        let weightedK ← quoteLaneWeightedSlippageKBps firstPrincipal firstK secondPrincipal secondK
        let totalPrincipal ← checkedAdd firstPrincipal secondPrincipal
        let slippage ← quoteLaneSlippageBps intermediateCash totalPrincipal weightedK
        let whitelisted := policy.feeClass.isWhitelisted
        let multiplier := state.blacklistFeeMultiplier
        let rawBid ← laneSlot0BidFeeBps inputLane.slot0
        let bid := calculateFeeBpsForRouter whitelisted multiplier rawBid
        let rawAsk ← laneSlot0AskFeeBps outputLane.slot0
        let ask := calculateFeeBpsForRouter whitelisted multiplier rawAsk
        let feeBps ← checkedAdd bid ask
        let fee ← modeFee request.mode.isExactIn anchor feeBps
        let bidTotal ← checkedAdd bid slippage
        let askTotal ← checkedAdd ask slippage
        let totalBps ← checkedAdd bidTotal askTotal
        let total ← modeFee request.mode.isExactIn anchor totalBps
        let slippageAmount ← checkedSub total fee
        assembleQuote state policy request (feeAssetOf request) anchor fee slippageAmount

def quote (request : QuoteRequest) (executionBlockNumber : Int) (state : QuoteState)
    (policy : QuotePolicy) : Except MathError QuoteOutcome := do
  let _ ← assertU256 request.amount "amount"
  let _ ← assertU256 executionBlockNumber "executionBlockNumber"
  if request.amount = 0 then .ok (.unavailable .zeroAmount)
  else if toLowerCase request.assetIn = toLowerCase request.assetOut then
    .ok (.unavailable .equalAssets)
  else if toLowerCase request.assetOut = toLowerCase state.cash then do
    match ← laneOrReason state request.assetIn executionBlockNumber with
    | .inl reason => .ok (.unavailable reason)
    | .inr lane =>
      directQuote state policy request request.assetIn lane false (feeAssetOf request)
  else if toLowerCase request.assetIn = toLowerCase state.cash then do
    match ← laneOrReason state request.assetOut executionBlockNumber with
    | .inl reason => .ok (.unavailable reason)
    | .inr lane =>
      directQuote state policy request request.assetOut lane true (feeAssetOf request)
  else do
    match ← laneOrReason state request.assetIn executionBlockNumber with
    | .inl reason => .ok (.unavailable reason)
    | .inr inputLane =>
      match ← laneOrReason state request.assetOut executionBlockNumber with
      | .inl reason => .ok (.unavailable reason)
      | .inr outputLane => routeQuote state policy request inputLane outputLane

def solidityQuoteAmount (request : QuoteRequest) (outcome : QuoteOutcome) : Int :=
  match request.mode with
  | .exactIn =>
    match outcome with
    | .available result => result.amountOut
    | .unavailable _ => 0
  | .exactOut =>
    if request.amount = 0 then 0
    else match outcome with
      | .available result => result.amountIn
      | .unavailable _ => U256_MAX

end Lunarbase.Ts
