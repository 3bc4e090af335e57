import Lunarbase.Client.Model
import Lunarbase.Support.Outcome

/-!
# Client — Abi

Decoding of Core logs (`protocol/abi.rs`).  The topics are the signature hashes of the declared
events.
-/

namespace Lunarbase.Client

/-- `SIGNATURE_HASH` of the declared event. -/
def CoreEvent.signatureHash : CoreEvent → B256
  | .laneAdded => 0x1c61848d54083be4bfb8a26449add9f919cf1efd4ca608005f7f3f6aa0cef958
  | .laneRemoved => 0xdaa054a7d9aa74d7b3ee43f36a9a292169f22fbf60106608accc3161633fba98
  | .laneUpdated => 0x4c5259bbfc22dbcf1f2d79e1e95c193e979499cc1b29f4b9f38d972cb383bd7a
  | .lanePausedSet => 0x457fade720abbce2ed945bda9c751bcadaddbd87a70e8d0c79b156e9aa4d3399
  | .pricePushThresholdSet => 0x6b38206650880c4736891c797636196db2056062d3a8011e4074feecbe8ae337
  | .slippageKSet => 0x284eddda3b70079855640ccd104ec7b972a8a3f8a46b157278ad1a26812cbdf8
  | .blockDelaySet => 0x45ee0795e6f0c4bea0b6a34972ce4804a1ed813997d4a0bb6ee5a760302129cb
  | .partnerInfoSet => 0x5155dfcae951816ec9ea329d96736edf3278b9d1cbe75191c70f004efe67a377
  | .partnerFeeSet => 0x785135eb22f3bdb08e949e200b6e47291b10a11aa8d27879046da64dff565b85
  | .whitelistSet => 0x0aa5ec5ffdc7f6f9c4d0dded489d7450297155cb2f71cb771e02427f7dff4f51
  | .blacklistFeeMultiplierSet =>
    0xa15057886e6ebcdf47294bcb091d686031124d1041cafe00740e93667bacd186
  | .depositExecuted => 0x9fb4891ffe3e11f428f3f10fa362b7938a364beebc215a2ec1db56a8d05ba20f
  | .withdrawalExecuted => 0x722ca578dc087cbf283dc08891a94ba45b7119723568feda14da8f4c9c35d251
  | .sync => 0xa7c36d5fec7963db9da1ca9d1daf7e7e8a246f19a3e8de3b6b2ec44ae2b83be9
  | .upgraded => 0xbc7cd75a20ee27fd9adebab32041f755214dbc6bffa90cc0225b39da2e5c2d3b

/-- The decoder's tests, in the order of `decode_core_event`. -/
def decodedEvents : List CoreEvent :=
  [.laneAdded, .laneRemoved, .laneUpdated, .slippageKSet, .lanePausedSet, .pricePushThresholdSet,
    .blockDelaySet, .partnerInfoSet, .partnerFeeSet, .whitelistSet, .blacklistFeeMultiplierSet,
    .depositExecuted, .withdrawalExecuted, .sync, .upgraded]

/-- Topics and data words `expect_shape` asks for. -/
def CoreEvent.shape : CoreEvent → Nat × Nat
  | .laneAdded | .laneRemoved | .upgraded => (2, 0)
  | .laneUpdated | .whitelistSet => (2, 1)
  | .slippageKSet | .lanePausedSet | .blockDelaySet | .sync => (2, 2)
  | .pricePushThresholdSet => (2, 4)
  | .partnerInfoSet | .depositExecuted => (4, 1)
  | .partnerFeeSet => (3, 1)
  | .blacklistFeeMultiplierSet => (1, 1)
  | .withdrawalExecuted => (4, 4)

/-- The error a payload that does not decode is reported with. -/
def CoreEvent.decodeError : CoreEvent → LogDecodeError
  | .laneAdded | .laneRemoved | .upgraded => .invalidAddress
  | .lanePausedSet | .pricePushThresholdSet | .whitelistSet => .invalidBoolean
  | _ => .invalidDataLength

def expectShape (log : ContractLog) (topics dataWords : Nat) : Except LogDecodeError Unit :=
  if log.topics.length ≠ topics then .error .invalidTopicCount
  else if log.data.length ≠ dataWords * 32 then .error .invalidDataLength
  else .ok ()

/-- The quote event of decoded fields, which stand in the order of the declaration. -/
def CoreEvent.quoteEvent (event : CoreEvent) (fields : List U256) : QuoteEvent :=
  let field (i : Nat) : U256 := fields.getD i 0
  let address (i : Nat) : Address := (field i).setWidth 160
  let flag (i : Nat) : Bool := field i ≠ 0
  match event with
  | .laneAdded => .laneAdded (address 0)
  | .laneRemoved => .laneRemoved (address 0)
  | .laneUpdated => .laneUpdated (address 0) (field 1)
  | .lanePausedSet => .lanePausedSet (address 0) (flag 2)
  | .pricePushThresholdSet => .pricePushThresholdSet (address 0) ((field 2).setWidth 8) (flag 4)
  | .slippageKSet => .slippageKSet (address 0) ((field 2).setWidth 32)
  | .blockDelaySet => .blockDelaySet (address 0) ((field 2).setWidth 8)
  | .partnerInfoSet => .partnerInfoSet (address 0) (address 1) ((field 2).setWidth 32)
  | .partnerFeeSet => .partnerFeeSet (address 0) (address 1) ((field 2).setWidth 32)
  | .whitelistSet => .whitelistSet (address 0) (flag 1)
  | .blacklistFeeMultiplierSet => .blacklistFeeMultiplierSet (field 0)
  | .depositExecuted => .depositExecuted (address 2) ((field 3).setWidth 128)
  | .withdrawalExecuted => .withdrawalExecuted (address 2) ((field 3).setWidth 128)
  | .sync => .sync (address 0) ((field 1).setWidth 128) ((field 2).setWidth 128)
  | .upgraded => .implementationUpgraded (address 0)

/-- A log without topics is malformed; a log with an unknown first topic is no quote event. -/
def decodeCoreEvent (env : Platform) (log : ContractLog) :
    Except LogDecodeError (Option QuoteEvent) :=
  match log.topics with
  | [] => .error .missingTopic0
  | topic0 :: _ =>
    match decodedEvents.find? (fun event => topic0 = event.signatureHash) with
    | none => .ok none
    | some event => do
      expectShape log event.shape.1 event.shape.2
      let fields ← Except.ofOption event.decodeError
        (env.decodeRawLogValidate event log.topics log.data)
      .ok (some (event.quoteEvent fields))

end Lunarbase.Client
