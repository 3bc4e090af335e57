import Lunarbase.Support.Outcome
import Mathlib.Data.Int.Bitwise
import Mathlib.Data.Finmap

/-!
# TypeScript — Arithmetic

The TypeScript quote engine's arithmetic (`packages/math`: `constants.ts`, `arithmetic.ts`,
`fees.ts`).  A `bigint` is an integer: division truncates, and a value is confined to 256 bits
only where `assertU256` says so.  A thrown `MathError` is the error of the result.
-/

namespace Lunarbase.Ts

inductive ErrorCode where
  | divisionByZero
  | overflow
  | fieldOverflow
  | invalidAddress
  deriving DecidableEq, Repr

structure MathError where
  code : ErrorCode
  message : String
  deriving DecidableEq, Repr

def WAD : Int := 1000000000000000000
def BPS : Int := 1000000
def SLIPPAGE_SCALE : Int := 10
def MAX_SLIPPAGE_BPS : Int := BPS.tdiv SLIPPAGE_SCALE
def U256_MAX : Int := 2 ^ 256 - 1

def assertU256 (value : Int) (label : String) : Except MathError Int :=
  if value < 0 ∨ U256_MAX < value then .error ⟨.overflow, label ++ " is outside uint256"⟩
  else .ok value

def checkedAdd (x y : Int) : Except MathError Int := do
  let _ ← assertU256 x "x"
  let _ ← assertU256 y "y"
  assertU256 (x + y) "addition"

def checkedSub (x y : Int) : Except MathError Int := do
  let _ ← assertU256 x "x"
  let _ ← assertU256 y "y"
  if x < y then .error ⟨.overflow, "uint256 subtraction underflow"⟩ else .ok (x - y)

def checkedMul (x y : Int) : Except MathError Int := do
  let _ ← assertU256 x "x"
  let _ ← assertU256 y "y"
  assertU256 (x * y) "multiplication"

def ensureDenominator (denominator : Int) : Except MathError Unit := do
  let _ ← assertU256 denominator "denominator"
  if denominator = 0 then .error ⟨.divisionByZero, "division by zero"⟩ else .ok ()

def fullMulDivDown (x y denominator : Int) : Except MathError Int := do
  let _ ← assertU256 x "x"
  let _ ← assertU256 y "y"
  let _ ← assertU256 denominator "denominator"
  ensureDenominator denominator
  assertU256 ((x * y).tdiv denominator) "fullMulDivDown result"

def fullMulDivUp (x y denominator : Int) : Except MathError Int := do
  let _ ← assertU256 x "x"
  let _ ← assertU256 y "y"
  let _ ← assertU256 denominator "denominator"
  ensureDenominator denominator
  let product := x * y
  let quotient := product.tdiv denominator
  let remainder := product.tmod denominator
  assertU256 (quotient + (if remainder = 0 then 0 else 1)) "fullMulDivUp result"

def mulDivDown256 (x y denominator : Int) : Except MathError Int := do
  let _ ← assertU256 x "x"
  let _ ← assertU256 y "y"
  let _ ← assertU256 denominator "denominator"
  ensureDenominator denominator
  let product ← checkedMul x y
  .ok (product.tdiv denominator)

/-! ### Fees -/

def quoteLaneExactInFee (anchor feeBps : Int) : Except MathError Int :=
  if anchor = 0 ∨ feeBps = 0 then .ok 0
  else do
    let denominator ← checkedAdd BPS feeBps
    fullMulDivUp anchor feeBps denominator

def quoteLaneExactOutFee (anchor feeBps : Int) : Except MathError Int :=
  if anchor = 0 ∨ feeBps = 0 then .ok 0 else fullMulDivUp anchor feeBps BPS

def calculateFeeBpsForRouter (whitelisted : Bool) (blacklistFeeMultiplier feeBps : Int) : Int :=
  let fee := if BPS < feeBps then BPS else feeBps
  if whitelisted then fee
  else if blacklistFeeMultiplier ≠ 0 ∧ BPS.tdiv blacklistFeeMultiplier < fee then BPS
  else
    let adjusted := fee * blacklistFeeMultiplier
    if BPS < adjusted then BPS else adjusted

def quoteLaneSlippageBps (swapCashValue principalCashValue slippageKBps : Int) :
    Except MathError Int :=
  if swapCashValue = 0 ∨ principalCashValue = 0 ∨ slippageKBps = 0 then .ok 0
  else do
    let raw ← fullMulDivUp swapCashValue slippageKBps principalCashValue
    let rounded := (raw + SLIPPAGE_SCALE - 1).tdiv SLIPPAGE_SCALE
    .ok (if MAX_SLIPPAGE_BPS < rounded then MAX_SLIPPAGE_BPS else rounded)

def quoteLaneWeightedSlippageKBps (firstPrincipal firstK secondPrincipal secondK : Int) :
    Except MathError Int := do
  let total ← checkedAdd firstPrincipal secondPrincipal
  if total = 0 then .ok 0
  else do
    let first ← fullMulDivUp firstPrincipal firstK total
    let second ← fullMulDivUp secondPrincipal secondK total
    let weighted ← checkedAdd first second
    .ok (if BPS < weighted then BPS else weighted)

def splitFee (feeAmount partnerFeeBps : Int) : Except MathError (Int × Int) :=
  if feeAmount = 0 then .ok (0, 0)
  else do
    let partner ← (if partnerFeeBps = 0 then .ok 0 else mulDivDown256 feeAmount partnerFeeBps BPS)
    let treasury ← checkedSub feeAmount partner
    .ok (partner, treasury)

def quoteLaneExactIn (price amountIn : Int) (cashToAsset : Bool) : Except MathError Int :=
  if price = 0 then .ok 0
  else if cashToAsset then fullMulDivDown amountIn WAD price
  else fullMulDivDown amountIn price WAD

def quoteLaneExactOut (price amountOut : Int) (cashToAsset : Bool) : Except MathError Int :=
  if price = 0 then .ok 0
  else if cashToAsset then fullMulDivUp amountOut price WAD
  else fullMulDivUp amountOut WAD price

end Lunarbase.Ts
