import Lunarbase.Math.Slot0
import Mathlib.Data.Finmap

/-!
# Math — State

The quote-critical state and the request and result types (`state.rs`).  A hash map is a finite
map; addresses and words are bit vectors.
-/

namespace Lunarbase.Math

/-- A check of every key of a map runs over the keys, not over all words. -/
instance (keys : Finset Address) (p : Address → Prop) [DecidablePred p] :
    Decidable (∀ asset ∈ keys, p asset) := Finset.decidableDforallFinset

inductive FeeClass where
  | whitelisted
  | nonWhitelisted
  deriving DecidableEq, Repr

def FeeClass.isWhitelisted : FeeClass → Bool
  | .whitelisted => true
  | .nonWhitelisted => false

/-- Policy of one evaluation, kept outside the chain state. -/
structure QuotePolicy where
  feeClass : FeeClass
  verifiedPartnerFeeBps : Option (BitVec 32)
  deriving DecidableEq, Repr

structure LaneState where
  slot0 : U256
  assetReserve : BitVec 128
  totalPrincipalAmount : BitVec 128
  deriving DecidableEq, Repr

def LaneState.exists_ (lane : LaneState) : Bool := laneSlot0Exists lane.slot0

def LaneState.paused (lane : LaneState) : Bool := laneSlot0Paused lane.slot0

structure QuoteState where
  cash : Address
  cashReserve : BitVec 128
  lanes : Finmap (fun _ : Address => LaneState)
  blacklistFeeMultiplier : U256
  deriving DecidableEq

inductive QuoteMode where
  | exactIn
  | exactOut
  deriving DecidableEq, Repr

structure QuoteRequest where
  assetIn : Address
  assetOut : Address
  amount : U256
  mode : QuoteMode
  deriving DecidableEq, Repr

structure FeeAllocation where
  partnerFee : U256
  treasuryFee : U256
  deriving DecidableEq, Repr

structure QuoteResult where
  amountIn : U256
  amountOut : U256
  feeAsset : Address
  feeAmount : U256
  feeAllocation : Option FeeAllocation
  deriving DecidableEq, Repr

inductive UnavailableReason where
  | zeroAmount
  | equalAssets
  | missingLane (asset : Address)
  | pausedLane (asset : Address)
  | staleLane (asset : Address)
  | zeroPrincipal (asset : Address)
  | zeroAnchor
  | spreadConsumesAnchor
  | insufficientOutputReserve (asset : Address)
  deriving DecidableEq, Repr

inductive QuoteOutcome where
  | available (result : QuoteResult)
  | unavailable (reason : UnavailableReason)
  deriving DecidableEq, Repr

inductive QuoteError where
  | arithmetic (error : MathError)
  deriving DecidableEq, Repr

end Lunarbase.Math
