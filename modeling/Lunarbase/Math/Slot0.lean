import Lunarbase.Math.Arithmetic

/-!
# Math — Slot0

The packed lane word `Lane.slot0` (`slot0.rs`): eleven fields in one 256-bit word, read and
replaced in place, and the operator's price update.  Native fields keep their Rust widths; block
numbers are natural numbers.
-/

namespace Lunarbase.Math

open Word (readField writeField)

def priceBits : Nat := 112
def feeBits : Nat := 20
def thresholdBits : Nat := 7
def blockBits : Nat := 40
def blockDelayBits : Nat := 8
def slippageKBits : Nat := 32
def reservedBits : Nat := 14

def priceShift : Nat := 0
def askFeeShift : Nat := 112
def bidFeeShift : Nat := 132
def thresholdShift : Nat := 152
def thresholdEnabledShift : Nat := 159
def updateBlockShift : Nat := 160
def existsShift : Nat := 200
def pausedShift : Nat := 201
def blockDelayShift : Nat := 202
def slippageKShift : Nat := 210
def reservedShift : Nat := 242

/-- Native-width view of the packed word. -/
structure LaneSlot0 where
  price : BitVec 128
  askFeeBps : BitVec 32
  bidFeeBps : BitVec 32
  pricePushThreshold : BitVec 8
  thresholdEnabled : Bool
  latestUpdateBlock : Nat
  exists_ : Bool
  paused : Bool
  blockDelay : BitVec 8
  slippageKBps : BitVec 32
  reservedHighBits : BitVec 16
  deriving DecidableEq, Repr

def validateNative (value bits : Nat) (field : String) : Except MathError Unit :=
  if bits < 128 ∧ 2 ^ bits ≤ value then .error (.fieldOverflow field bits) else .ok ()

def decodeLaneSlot0 (word : U256) : LaneSlot0 where
  price := (readField word priceShift priceBits).setWidth 128
  askFeeBps := (readField word askFeeShift feeBits).setWidth 32
  bidFeeBps := (readField word bidFeeShift feeBits).setWidth 32
  pricePushThreshold := (readField word thresholdShift thresholdBits).setWidth 8
  thresholdEnabled := readField word thresholdEnabledShift 1 = 1
  latestUpdateBlock := (readField word updateBlockShift blockBits).toNat
  exists_ := readField word existsShift 1 = 1
  paused := readField word pausedShift 1 = 1
  blockDelay := (readField word blockDelayShift blockDelayBits).setWidth 8
  slippageKBps := (readField word slippageKShift slippageKBits).setWidth 32
  reservedHighBits := (readField word reservedShift reservedBits).setWidth 16

/-! ### Field reads of the quote path -/

def laneSlot0Price (word : U256) : U256 := readField word priceShift priceBits

def laneSlot0AskFeeBps (word : U256) : U256 := readField word askFeeShift feeBits

def laneSlot0BidFeeBps (word : U256) : U256 := readField word bidFeeShift feeBits

def laneSlot0LatestUpdateBlock (word : U256) : Nat :=
  (readField word updateBlockShift blockBits).toNat

def laneSlot0Exists (word : U256) : Bool := readField word existsShift 1 = 1

def laneSlot0Paused (word : U256) : Bool := readField word pausedShift 1 = 1

def laneSlot0BlockDelay (word : U256) : BitVec 8 :=
  (readField word blockDelayShift blockDelayBits).setWidth 8

def laneSlot0SlippageKBps (word : U256) : BitVec 32 :=
  (readField word slippageKShift slippageKBits).setWidth 32

/-! ### Field writes of the reducer -/

/-- `U256::from(bool)`. -/
def boolWord (b : Bool) : U256 := if b then 1 else 0

def setLaneSlot0Exists (word : U256) (value : Bool) : U256 :=
  writeField word (boolWord value) existsShift 1

def setLaneSlot0Paused (word : U256) (paused : Bool) : U256 :=
  writeField word (boolWord paused) pausedShift 1

def setLaneSlot0PricePushThreshold (word : U256) (pricePushThreshold : BitVec 8)
    (enabled : Bool) : Except MathError U256 := do
  validateNative pricePushThreshold.toNat thresholdBits "pricePushThreshold"
  let word := writeField word (pricePushThreshold.setWidth 256) thresholdShift thresholdBits
  .ok (writeField word (boolWord enabled) thresholdEnabledShift 1)

def setLaneSlot0BlockDelay (word : U256) (blockDelay : BitVec 8) : U256 :=
  writeField word (blockDelay.setWidth 256) blockDelayShift blockDelayBits

def setLaneSlot0SlippageKBps (word : U256) (slippageKBps : BitVec 32) : U256 :=
  writeField word (slippageKBps.setWidth 256) slippageKShift slippageKBits

/-- The packed word of a native view, after every narrow field is checked. -/
def encodeLaneSlot0 (fields : LaneSlot0) : Except MathError U256 := do
  validateNative fields.price.toNat priceBits "price"
  validateNative fields.askFeeBps.toNat feeBits "askFeeBps"
  validateNative fields.bidFeeBps.toNat feeBits "bidFeeBps"
  validateNative fields.pricePushThreshold.toNat thresholdBits "pricePushThreshold"
  validateNative fields.latestUpdateBlock blockBits "latestUpdateBlock"
  validateNative fields.reservedHighBits.toNat reservedBits "reservedHighBits"
  let word : U256 := fields.price.setWidth 256
    ||| (fields.askFeeBps.setWidth 256 <<< askFeeShift)
    ||| (fields.bidFeeBps.setWidth 256 <<< bidFeeShift)
    ||| (fields.pricePushThreshold.setWidth 256 <<< thresholdShift)
  let word := if fields.thresholdEnabled then word ||| (1 <<< thresholdEnabledShift) else word
  let word := word ||| (BitVec.ofNat 256 fields.latestUpdateBlock <<< updateBlockShift)
  let word := if fields.exists_ then word ||| (1 <<< existsShift) else word
  let word := if fields.paused then word ||| (1 <<< pausedShift) else word
  let word := word ||| (fields.blockDelay.setWidth 256 <<< blockDelayShift)
  let word := word ||| (fields.slippageKBps.setWidth 256 <<< slippageKShift)
  .ok (word ||| (fields.reservedHighBits.setWidth 256 <<< reservedShift))

/-- Two 20-bit fees in the 40 bits of an update payload. -/
def encodeUpdateFees (askFeeBps bidFeeBps : BitVec 32) : Except MathError Nat := do
  validateNative askFeeBps.toNat feeBits "askFeeBps"
  validateNative bidFeeBps.toNat feeBits "bidFeeBps"
  .ok (askFeeBps.toNat ||| (bidFeeBps.toNat <<< feeBits))

/-- The two 20-bit fees of a 40-bit update payload. -/
def decodeUpdateFees (fees : Nat) : Except MathError (BitVec 32 × BitVec 32) := do
  validateNative fees 40 "fees"
  let mask := 2 ^ feeBits - 1
  .ok (BitVec.ofNat 32 (fees &&& mask), BitVec.ofNat 32 (fees >>> feeBits))

/-- The operator's update: price, fees and block are replaced, and the lane is paused when the
price moved further than its threshold allows.  Both products stay below `2 ^ 119`, so the
source's 128-bit multiplications do not wrap. -/
def applyLaneUpdateSlot0 (previous : U256) (price : BitVec 128) (fees blockNumber : Nat) :
    Except MathError U256 := do
  validateNative price.toNat priceBits "price"
  validateNative fees 40 "fees"
  validateNative blockNumber blockBits "blockNumber"
  let (askFeeBps, bidFeeBps) ← decodeUpdateFees fees
  let fields := decodeLaneSlot0 previous
  let delta := (price.toNat - fields.price.toNat) + (fields.price.toNat - price.toNat)
  let exceedsThreshold := fields.thresholdEnabled && fields.price != 0 &&
    decide (fields.price.toNat * fields.pricePushThreshold.toNat < delta * 100)
  encodeLaneSlot0 { fields with
      price := price
      askFeeBps := askFeeBps
      bidFeeBps := bidFeeBps
      latestUpdateBlock := blockNumber
      paused := if exceedsThreshold then true else fields.paused }

end Lunarbase.Math
