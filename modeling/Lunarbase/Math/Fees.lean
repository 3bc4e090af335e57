import Lunarbase.Math.Arithmetic

/-!
# Math — Fees

The price conversions, fees, spreads and slippage of one lane (`fees.rs`).
-/

namespace Lunarbase.Math

/-- Exact-in conversion at the pushed price, rounded down; zero when there is no price. -/
def quoteLaneExactIn (price amountIn : U256) (cashToAsset : Bool) : Except MathError U256 :=
  if price = 0 then .ok 0
  else if cashToAsset then fullMulDivDown amountIn wad price
  else fullMulDivDown amountIn price wad

/-- Exact-out conversion at the pushed price, rounded up; zero when there is no price. -/
def quoteLaneExactOut (price amountOut : U256) (cashToAsset : Bool) : Except MathError U256 :=
  if price = 0 then .ok 0
  else if cashToAsset then fullMulDivUp amountOut price wad
  else fullMulDivUp amountOut wad price

/-- Principal-based slippage of one lane. -/
def quoteLaneSlippageBps (swapCashValue principalCashValue slippageKBps : U256) :
    Except MathError U256 :=
  if swapCashValue = 0 ∨ principalCashValue = 0 ∨ slippageKBps = 0 then .ok 0
  else do
    let raw ← fullMulDivUp swapCashValue slippageKBps principalCashValue
    let rounded ← ceilDiv raw slippageScale
    .ok (if rounded ≤ maxSlippageBps then rounded else maxSlippageBps)

/-- Weighted slippage coefficient of a route; the two terms are rounded separately. -/
def quoteLaneWeightedSlippageKBps (firstPrincipal firstK secondPrincipal secondK : U256) :
    Except MathError U256 := do
  let total ← checkedAdd firstPrincipal secondPrincipal
  if total = 0 then .ok 0
  else do
    let first ← fullMulDivUp firstPrincipal firstK total
    let second ← fullMulDivUp secondPrincipal secondK total
    let sum ← checkedAdd first second
    .ok (if sum ≤ bps then sum else bps)

/-- Whitelist and blacklist rules applied to a raw lane fee. -/
def calculateFeeBpsForRouter (whitelisted : Bool) (blacklistFeeMultiplier feeBps : U256) :
    Except MathError U256 :=
  let fee := if feeBps ≤ bps then feeBps else bps
  if whitelisted then .ok fee
  else if blacklistFeeMultiplier ≠ 0 ∧ bps / blacklistFeeMultiplier < fee then .ok bps
  else do
    let adjusted ← checkedMul fee blacklistFeeMultiplier
    .ok (if adjusted ≤ bps then adjusted else bps)

def quoteLaneExactInFee (anchor feeBps : U256) : Except MathError U256 :=
  if anchor = 0 ∨ feeBps = 0 then .ok 0
  else do
    let denominator ← checkedAdd bps feeBps
    fullMulDivUp anchor feeBps denominator

def quoteLaneExactOutFee (anchor feeBps : U256) : Except MathError U256 :=
  if anchor = 0 ∨ feeBps = 0 then .ok 0 else fullMulDivUp anchor feeBps bps

/-- Partner and treasury portions of a fee. -/
def splitFee (feeAmount partnerFeeBps : U256) : Except MathError (U256 × U256) :=
  if feeAmount = 0 then .ok (0, 0)
  else do
    let partner ← (if partnerFeeBps = 0 then .ok 0 else mulDivDown256 feeAmount partnerFeeBps bps)
    let treasury ← checkedSub feeAmount partner
    .ok (partner, treasury)

end Lunarbase.Math
