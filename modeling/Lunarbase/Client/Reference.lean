import Lunarbase.Client.Abi
import Lunarbase.Support.Keccak

/-!
# Client — Reference

A platform that computes: Keccak-256 and the validating ABI decoding of the declared Core events.
The signature hashes and the payload shapes of the decoder are those of the declarations
(`signatureHash_eq`, `shape_eq`).
-/

namespace Lunarbase.Client

inductive AbiType where
  | address
  | bool
  | bytes32
  | uint (bits : Nat)
  deriving DecidableEq, Repr

def AbiType.name : AbiType → String
  | .address => "address"
  | .bool => "bool"
  | .bytes32 => "bytes32"
  | .uint bits => "uint" ++ toString bits

/-- Width of the bytes a data word may use; the rest of the word has to be zero. -/
def AbiType.bits : AbiType → Nat
  | .address => 160
  | .bool => 8
  | .bytes32 => 256
  | .uint bits => bits

def CoreEvent.name : CoreEvent → String
  | .laneAdded => "LaneAdded"
  | .laneRemoved => "LaneRemoved"
  | .laneUpdated => "LaneUpdated"
  | .lanePausedSet => "LanePausedSet"
  | .pricePushThresholdSet => "PricePushThresholdSet"
  | .slippageKSet => "SlippageKSet"
  | .blockDelaySet => "BlockDelaySet"
  | .partnerInfoSet => "PartnerInfoSet"
  | .partnerFeeSet => "PartnerFeeSet"
  | .whitelistSet => "WhitelistSet"
  | .blacklistFeeMultiplierSet => "BlacklistFeeMultiplierSet"
  | .depositExecuted => "DepositExecuted"
  | .withdrawalExecuted => "WithdrawalExecuted"
  | .sync => "Sync"
  | .upgraded => "Upgraded"

/-- The declared parameters in order, each with whether it is indexed. -/
def CoreEvent.parameters : CoreEvent → List (Bool × AbiType)
  | .laneAdded | .laneRemoved | .upgraded => [(true, .address)]
  | .laneUpdated => [(true, .address), (false, .bytes32)]
  | .lanePausedSet => [(true, .address), (false, .bool), (false, .bool)]
  | .pricePushThresholdSet =>
    [(true, .address), (false, .uint 8), (false, .uint 8), (false, .bool), (false, .bool)]
  | .slippageKSet => [(true, .address), (false, .uint 32), (false, .uint 32)]
  | .blockDelaySet => [(true, .address), (false, .uint 8), (false, .uint 8)]
  | .partnerInfoSet => [(true, .address), (true, .address), (false, .uint 32), (true, .address)]
  | .partnerFeeSet => [(true, .address), (true, .address), (false, .uint 32)]
  | .whitelistSet => [(true, .address), (false, .bool)]
  | .blacklistFeeMultiplierSet => [(false, .uint 256)]
  | .depositExecuted =>
    [(true, .uint 256), (true, .address), (true, .address), (false, .uint 128)]
  | .withdrawalExecuted =>
    [(true, .uint 256), (true, .address), (true, .address), (false, .uint 128),
      (false, .uint 256), (false, .uint 256), (false, .address)]
  | .sync => [(true, .address), (false, .uint 128), (false, .uint 128)]

def CoreEvent.signature (event : CoreEvent) : String :=
  event.name ++ "(" ++ ",".intercalate (event.parameters.map fun p => p.2.name) ++ ")"

/-- **The topics the decoder tests are the hashes of the declared signatures.** -/
theorem signatureHash_eq (event : CoreEvent) :
    event.signatureHash = Keccak.keccak256 event.signature.toUTF8.toList := by
  cases event <;> decide +kernel

/-- The shape the decoder asks for is that of the declaration: a topic for the signature and for
each indexed parameter, and a word for each of the others. -/
theorem shape_eq (event : CoreEvent) :
    event.shape = (1 + (event.parameters.filter fun p => p.1).length,
      (event.parameters.filter fun p => !p.1).length) := by
  cases event <;> rfl

/-- The 32-byte words of a payload, big-endian. -/
def payloadWords : Nat → List UInt8 → List U256
  | 0, _ => []
  | count + 1, data =>
    BitVec.ofNat 256 ((data.take 32).foldl (fun value byte => 256 * value + byte.toNat) 0) ::
      payloadWords count (data.drop 32)

/-- The parameters in order, from the topics and the words.  A word with a value wider than its type
is rejected; a topic is not looked at, its reader takes the low bytes. -/
def readParameters : List (Bool × AbiType) → List U256 → List U256 → Option (List U256)
  | [], _, _ => some []
  | (true, _) :: rest, topic :: topics, words =>
    (readParameters rest topics words).map (topic :: ·)
  | (false, type) :: rest, topics, word :: words =>
    if word.toNat < 2 ^ type.bits then (readParameters rest topics words).map (word :: ·) else none
  | _, _, _ => none

def referencePlatform : Platform where
  keccak256 := Keccak.keccak256
  sizeOfChainUpdate := 512
  decodeRawLogValidate := fun event topics data =>
    readParameters event.parameters topics.tail (payloadWords (data.length / 32) data)

/-! ### A small deployment -/

def smallDeployment : DeploymentConfig where
  network := .evm
  chainId := 1
  core := 0xc0
  feeClass := .whitelisted
  verifiedRouter := none
  deploymentBlock := 0
  expectedImplementation := 0x11
  expectedImplementationCodeHash := 0x22
  contractCompatibilityVersion := mathCompatibilityVersion
  explicitLaneAssets := []

/-- The block `number` with the given hash, seen in realtime. -/
def blockAt (number : Nat) (hash : B256) : ChainCursor :=
  ⟨1, number, number, some hash, none, none, none, none, .realtime⟩

def blockRef (number : Nat) (hash parent : B256) : BlockRef := ⟨blockAt number hash, some parent⟩

/-- A Core log in the first transaction of a block, with one data word below `2 ^ 16`. -/
def coreLog (number : Nat) (hash : B256) (topics : List B256) (word : Nat) : ContractLog where
  address := smallDeployment.core
  transactionHash := none
  topics := topics
  data := List.replicate 30 0 ++ [UInt8.ofNat (word / 256), UInt8.ofNat word]
  removed := false
  cursor := { blockAt number hash with transactionIndex := some 0, logIndex := some 0 }

def multiplierLog (number : Nat) (hash : B256) (multiplier : Nat) : ContractLog :=
  coreLog number hash [CoreEvent.blacklistFeeMultiplierSet.signatureHash] multiplier

/-- A deposit of `principal` into the lane `0xa1`. -/
def depositLog (number : Nat) (hash : B256) (principal : Nat) : ContractLog :=
  coreLog number hash [CoreEvent.depositExecuted.signatureHash, 7, 0x1b, 0xa1] principal

/-- Blocks 5 and 6 are replaced by one block with a log. -/
def replaceFive : ChainCorrection where
  commonAncestor := blockRef 4 0xb4 0xb3
  oldTip := blockRef 6 0xd6 0xb5
  newTip := blockRef 5 0xe5 0xb4
  oldBranch := [blockRef 5 0xb5 0xb4, blockRef 6 0xd6 0xb5]
  newBranch := [blockRef 5 0xe5 0xb4]
  replacementLogs := [multiplierLog 5 0xe5 40000]
  retainedBytes := 1024

/-- One lane `0xa1` with a principal of 1000, at block 0. -/
def smallSnapshot : BootstrapSnapshot where
  state :=
    { cash := 0xca
      cashReserve := 5000
      lanes := Finmap.singleton 0xa1 ⟨0, 500, 1000⟩
      blacklistFeeMultiplier := 10000 }
  cursor := blockAt 0 0xb0
  implementation := 0x11
  implementationCodeHash := 0x22
  verifiedRouter := none

end Lunarbase.Client
