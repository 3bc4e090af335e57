import Lunarbase.Math.State
import Mathlib.Order.Basic

/-!
# Client — Model

The provider-independent data of the quote client (`model.rs`, `bootstrap.rs`, `errors.rs`).
64-bit and 32-bit positions are natural numbers; where the source saturates or wraps, the
functions say so.

What the client takes from outside the repository is a `Platform`: the hash function, the ABI
decoder and the size of a type.  No result depends on which.
-/

namespace Lunarbase.Client

open Math (QuoteState FeeClass)

inductive Commitment where
  | realtime
  | canonical
  | finalized
  deriving DecidableEq, Repr

/-- Position in the source's declaration order, which is its `Ord`. -/
def Commitment.rank : Commitment → Nat
  | .realtime => 0
  | .canonical => 1
  | .finalized => 2

def Commitment.max (a b : Commitment) : Commitment := if a.rank ≤ b.rank then b else a

structure ChainCursor where
  chainId : Nat
  blockNumber : Nat
  executionBlockNumber : Nat
  blockHash : Option B256
  transactionIndex : Option Nat
  logIndex : Option Nat
  sourceSequence : Option Nat
  sourceSubIndex : Option Nat
  commitment : Commitment
  deriving DecidableEq, Repr

/-- Deterministic order of events: the transport position only breaks ties between cursors that
have neither a transaction nor a log index. -/
def ChainCursor.eventOrder (c : ChainCursor) : List Nat :=
  let transport :=
    if c.transactionIndex.isNone && c.logIndex.isNone then
      (c.sourceSequence.getD 0, c.sourceSubIndex.getD 0)
    else (0, 0)
  [c.blockNumber, c.transactionIndex.getD 0, c.logIndex.getD 0, transport.1, transport.2]

/-- `left < right` on `Option<u64>`: an absent value is below every present one. -/
def sequenceLt : Option Nat → Option Nat → Bool
  | none, none => false
  | none, some _ => true
  | some _, none => false
  | some a, some b => a < b

structure BlockRef where
  cursor : ChainCursor
  parentHash : Option B256
  deriving DecidableEq, Repr

structure ContractLog where
  address : Address
  transactionHash : Option B256
  topics : List B256
  data : List UInt8
  removed : Bool
  cursor : ChainCursor
  deriving DecidableEq, Repr

/-- `retainedBytes` is the memory charge of the value, which depends on vector capacities and is
otherwise not determined by the contents. -/
structure ChainCorrection where
  commonAncestor : BlockRef
  oldTip : BlockRef
  newTip : BlockRef
  oldBranch : List BlockRef
  newBranch : List BlockRef
  replacementLogs : List ContractLog
  retainedBytes : Nat
  deriving DecidableEq, Repr

inductive ChainUpdate where
  | head (block : BlockRef)
  | log (log : ContractLog)
  | reorg (oldHead newHead : BlockRef)
  | correction (correction : ChainCorrection)
  | gap (cursor : Option ChainCursor) (reason : String)
  deriving DecidableEq, Repr

inductive SourceError where
  | networkMismatch
  | gap (reason : String)
  | unavailable (reason : String)
  deriving DecidableEq, Repr

inductive LogDecodeError where
  | missingTopic0
  | invalidTopicCount
  | invalidDataLength
  | invalidAddress
  | invalidBoolean
  deriving DecidableEq, Repr

inductive ReducerError where
  | chainIdMismatch
  | contractAddressMismatch
  | cursorRegression
  | removedLog
  | blockHashMismatch
  | eventPayloadMismatch
  | arithmetic
  | invalidSlippageK
  | invalidWidth
  | unknownLane
  | feeClassMismatch
  | verifiedRouterRefreshRequired
  | implementationUpgraded
  deriving DecidableEq, Repr

inductive IndexerError where
  | notReady
  | gap (reason : String)
  | reducer (error : ReducerError)
  | quote (error : Math.QuoteError)
  | decode (error : LogDecodeError)
  | source (error : SourceError)
  | codeHashMismatch
  | noCursor
  | invalidRequest (reason : String)
  deriving DecidableEq, Repr

inductive Network where
  | evm
  | base
  | monad
  | arbitrum
  deriving DecidableEq, Repr

structure DeploymentConfig where
  network : Network
  chainId : Nat
  core : Address
  feeClass : FeeClass
  verifiedRouter : Option Address
  deploymentBlock : Nat
  expectedImplementation : Address
  expectedImplementationCodeHash : B256
  contractCompatibilityVersion : String
  explicitLaneAssets : List Address
  deriving DecidableEq, Repr

structure Checkpoint where
  schemaVersion : Nat
  mathCompatibilityVersion : String
  expectedImplementation : Address
  expectedImplementationCodeHash : B256
  chainId : Nat
  network : Network
  core : Address
  deploymentBlock : Nat
  explicitLaneAssets : List Address
  cursor : ChainCursor
  state : QuoteState
  deriving DecidableEq

inductive QuoteEvent where
  | laneAdded (asset : Address)
  | laneRemoved (asset : Address)
  | laneUpdated (asset : Address) (slot0 : U256)
  | slippageKSet (asset : Address) (newK : BitVec 32)
  | lanePausedSet (asset : Address) (paused : Bool)
  | pricePushThresholdSet (asset : Address) (pricePushThreshold : BitVec 8) (enabled : Bool)
  | blockDelaySet (asset : Address) (blockDelay : BitVec 8)
  | partnerInfoSet (router asset : Address) (fee : BitVec 32)
  | partnerFeeSet (router asset : Address) (fee : BitVec 32)
  | whitelistSet (router : Address) (whitelisted : Bool)
  | blacklistFeeMultiplierSet (multiplier : U256)
  | depositExecuted (asset : Address) (principal : BitVec 128)
  | withdrawalExecuted (asset : Address) (principal : BitVec 128)
  | sync (asset : Address) (assetReserve cashReserve : BitVec 128)
  | implementationUpgraded (implementation : Address)
  deriving DecidableEq, Repr

structure VerifiedRouterSnapshot where
  router : Address
  partnerFeeBps : Finmap (fun _ : Address => BitVec 32)
  deriving DecidableEq

structure BootstrapSnapshot where
  state : QuoteState
  cursor : ChainCursor
  implementation : Address
  implementationCodeHash : B256
  verifiedRouter : Option VerifiedRouterSnapshot
  deriving DecidableEq

def schemaVersion : Nat := 6

def mathCompatibilityVersion : String := "lunarbase-pmm-v2"

/-- `u64::MAX`. -/
def u64Max : Nat := 2 ^ 64 - 1

/-- `u32::MAX`. -/
def u32Max : Nat := 2 ^ 32 - 1

/-- `saturating_add` on 64 bits. -/
def saturatingAdd (a b : Nat) : Nat := min (a + b) u64Max

/-- The events the quote client decodes. -/
inductive CoreEvent where
  | laneAdded
  | laneRemoved
  | laneUpdated
  | lanePausedSet
  | pricePushThresholdSet
  | slippageKSet
  | blockDelaySet
  | partnerInfoSet
  | partnerFeeSet
  | whitelistSet
  | blacklistFeeMultiplierSet
  | depositExecuted
  | withdrawalExecuted
  | sync
  | upgraded
  deriving DecidableEq, Repr

/-- What the client uses from outside the repository.  `decodeRawLogValidate` returns an event's
fields in the order of its declaration, each as a 256-bit word, or `none` when the topics or the
data do not encode the event. -/
structure Platform where
  keccak256 : List UInt8 → B256
  sizeOfChainUpdate : Nat
  decodeRawLogValidate : CoreEvent → List B256 → List UInt8 → Option (List U256)

end Lunarbase.Client
