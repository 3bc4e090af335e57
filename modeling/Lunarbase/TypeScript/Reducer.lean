import Lunarbase.Client.Abi
import Lunarbase.Client.Reducer
import Lunarbase.Support.Undo

/-!
# TypeScript — Reducer

The ordered single-writer reducer of the TypeScript client (`state/reducer.ts`,
`state/reducer_undo.ts`, `protocol/abi.ts`).

Cursors, logs, events and the quote state are the values of the Rust client: hashes and addresses,
which the source compares in lower case, are words, and `bigint` positions are natural numbers.  A
thrown error leaves every method of the reducer before its first assignment, so a method returns
the reducer it leaves behind or the error.
-/

namespace Lunarbase.TsClient

open Except

open Client (ChainCursor Commitment QuoteEvent QuoteData ContractLog LogDecodeError
  VerifiedRouterSnapshot CoreEvent Platform)
open Math (QuoteState LaneState FeeClass)
open Rollback (putBack)

/-! ### Errors -/

inductive IndexerErrorCode where
  | notReady
  | gap
  | codeHashMismatch
  | noCursor
  | invalidRequest
  | reducer
  | source
  deriving DecidableEq, Repr

inductive ReducerErrorCode where
  | chainIdMismatch
  | cursorRegression
  | duplicateEventConflict
  | blockHashMismatch
  | removedLog
  | invalidSlippageK
  | invalidWidth
  | unknownLane
  | feeClassMismatch
  | verifiedRouterRefreshRequired
  | arithmetic
  | implementationUpgraded
  deriving DecidableEq, Repr

/-- What is thrown.  The text the ABI library adds to a payload error is left out. -/
inductive Failure where
  | indexer (code : IndexerErrorCode) (message : String)
  | reducer (code : ReducerErrorCode) (message : String)
  | decode (code : LogDecodeError) (message : String)
  | range (message : String)
  deriving DecidableEq, Repr

def Failure.message : Failure → String
  | .indexer _ message | .reducer _ message | .decode _ message | .range message => message

/-- `new IndexerError("GAP", message)`. -/
def gap (message : String) : Failure := .indexer .gap message

/-! ### Decoding -/

def expectShape (log : ContractLog) (topicCount dataWords : Nat) : Except Failure Unit :=
  if log.topics.length ≠ topicCount then
    .error (.decode .invalidTopicCount "invalid event topic count")
  else if log.data.length ≠ dataWords * 32 then
    .error (.decode .invalidDataLength "invalid event data length")
  else .ok ()

/-- The tests, shapes and fields are those of the Rust decoder; a payload that does not decode has
one error for every event. -/
def decodeCoreEvent (env : Platform) (log : ContractLog) : Except Failure (Option QuoteEvent) :=
  match log.topics with
  | [] => .error (.decode .missingTopic0 "event log has no topic0")
  | topic0 :: _ =>
    match Client.decodedEvents.find? (fun event => topic0 = event.signatureHash) with
    | none => .ok none
    | some event => do
      expectShape log event.shape.1 event.shape.2
      let fields ← ofOption (.decode .invalidDataLength "invalid Core event ABI payload: ")
        (env.decodeRawLogValidate event log.topics log.data)
      .ok (some (event.quoteEvent fields))

/-! ### Positions -/

/-- The fields `compareCursor` compares, in order.  The transport position counts only for a cursor
that lacks one of the two indices. -/
def cursorKey (c : ChainCursor) : List Nat :=
  let positioned := c.transactionIndex.isSome && c.logIndex.isSome
  [c.blockNumber, c.transactionIndex.getD 0, c.logIndex.getD 0,
    if positioned then 0 else c.sourceSequence.getD 0,
    if positioned then 0 else c.sourceSubIndex.getD 0]

def compareCursor (left right : ChainCursor) : Ordering :=
  if cursorKey left < cursorKey right then .lt
  else if cursorKey left = cursorKey right then .eq
  else .gt

def isRealtimeProgression (previous next : ChainCursor) : Bool :=
  decide (previous.commitment = .realtime) && decide (next.commitment = .realtime) &&
    decide (previous.sourceSequence.getD 0 < next.sourceSequence.getD 0)

def validateChainAndHash (previous next : ChainCursor) (allowRealtimeProgression : Bool) :
    Except Failure Unit :=
  if previous.chainId ≠ next.chainId then
    .error (.reducer .chainIdMismatch "cursor chain id mismatch")
  else if previous.blockNumber ≠ next.blockNumber then .ok ()
  else
    let hashesConflict := decide (previous.blockHash ≠ next.blockHash)
    let executionBlockConflict :=
      !hashesConflict && decide (previous.executionBlockNumber ≠ next.executionBlockNumber)
    if executionBlockConflict ∨
        hashesConflict ∧ ¬ (allowRealtimeProgression ∧ isRealtimeProgression previous next) then
      .error (.reducer .blockHashMismatch "block hash mismatch")
    else .ok ()

/-! ### Before-images -/

inductive ReducerUndo where
  | lane (asset : Address) (previous : Option LaneState)
  | laneAndPartner (asset : Address) (previousLane : Option LaneState) (hadPartnerFee : Bool)
      (previousPartnerFee : Option (BitVec 32))
  | cashAndLane (asset : Option Address) (previousCashReserve : BitVec 128)
      (previousLane : Option LaneState)
  | partnerFee (asset : Address) (hadValue : Bool) (previous : Option (BitVec 32))
  | blacklistMultiplier (previous : U256)
  deriving DecidableEq, Repr

def reducerUndoRetainedBytes : ReducerUndo → Nat
  | .cashAndLane .. | .laneAndPartner .. => 256
  | _ => 160

def restoreLane (d : QuoteData) (asset : Address) (previous : Option LaneState) : QuoteData :=
  { d with state := { d.state with lanes := putBack d.state.lanes asset previous } }

/-- `fees?.set` or `fees?.delete`.  `had` is set exactly when there is a previous value. -/
def restoreFee (d : QuoteData) (asset : Address) (had : Bool) (previous : Option (BitVec 32)) :
    QuoteData :=
  { d with verifiedRouter := d.verifiedRouter.map fun verified =>
      { verified with
        partnerFeeBps :=
          putBack verified.partnerFeeBps asset (if had then previous else none) } }

def restoreReducerUndo (d : QuoteData) : ReducerUndo → QuoteData
  | .lane asset previous => restoreLane d asset previous
  | .laneAndPartner asset previousLane hadPartnerFee previousPartnerFee =>
    restoreFee (restoreLane d asset previousLane) asset hadPartnerFee previousPartnerFee
  | .cashAndLane asset previousCashReserve previousLane =>
    let d : QuoteData := { d with state := { d.state with cashReserve := previousCashReserve } }
    match asset with
    | none => d
    | some asset => restoreLane d asset previousLane
  | .partnerFee asset hadValue previous => restoreFee d asset hadValue previous
  | .blacklistMultiplier previous =>
    { d with state := { d.state with blacklistFeeMultiplier := previous } }

/-! ### Events -/

/-- The value checks of `validateEvent`.  A principal is a 128-bit word and always fits. -/
def validateEvent (d : QuoteData) : QuoteEvent → Except Failure Unit
  | .slippageKSet _ newK =>
    if Math.bps < newK.setWidth 256 then
      .error (.reducer .invalidSlippageK "slippage K exceeds BPS")
    else .ok ()
  | .pricePushThresholdSet _ pricePushThreshold _ =>
    if 0x7f < pricePushThreshold.toNat then
      .error (.reducer .invalidWidth "price-push threshold does not fit uint7")
    else .ok ()
  | .partnerInfoSet router _ fee | .partnerFeeSet router _ fee =>
    if d.verifiedRouter.any (fun verified => router = verified.router) ∧
        Math.bps < fee.setWidth 256 then
      .error (.reducer .invalidWidth "partner fee exceeds BPS")
    else .ok ()
  | _ => .ok ()

/-- What an event does: the data after it, with the before-image if it wrote anything. -/
abbrev Effect := Except Failure (QuoteData × Option ReducerUndo)

def existingLane (d : QuoteData) (asset : Address) : Except Failure LaneState :=
  ofOption (.reducer .unknownLane "event references an unknown lane") (d.lane asset)

/-- The events that write one existing lane: `next` is the lane written back. -/
def updateLane (d : QuoteData) (asset : Address) (next : LaneState → Except Failure LaneState) :
    Effect := do
  let lane ← existingLane d asset
  let lane' ← next lane
  .ok (d.setLane asset lane', some (.lane asset (some lane)))

def addLane (d : QuoteData) (asset : Address) : Effect :=
  match d.verifiedRouter with
  | some _ =>
    .error (.reducer .verifiedRouterRefreshRequired
      "verified router allocation requires a snapshot refresh")
  | none =>
    let lane := (d.lane asset).getD ⟨0, 0, 0⟩
    let slot0 := Math.setLaneSlot0Paused (Math.setLaneSlot0Exists lane.slot0 true) true
    .ok (d.setLane asset { lane with slot0 := slot0 }, some (.lane asset (d.lane asset)))

def removeLane (d : QuoteData) (asset : Address) : Effect :=
  let previousPartnerFee := d.verifiedRouter.bind fun verified =>
    verified.partnerFeeBps.lookup asset
  .ok ({ d with
      state := { d.state with lanes := d.state.lanes.erase asset }
      verifiedRouter := d.verifiedRouter.map fun verified =>
        { verified with partnerFeeBps := verified.partnerFeeBps.erase asset } },
    some (.laneAndPartner asset (d.lane asset) previousPartnerFee.isSome previousPartnerFee))

def setPartnerFee (d : QuoteData) (router asset : Address) (fee : BitVec 32) : Effect :=
  match d.verifiedRouter with
  | none => .ok (d, none)
  | some verified =>
    if router = verified.router ∧ (asset = d.state.cash ∨ (d.lane asset).isSome) then
      let previous := verified.partnerFeeBps.lookup asset
      let verified' := { verified with partnerFeeBps := verified.partnerFeeBps.insert asset fee }
      .ok ({ d with verifiedRouter := some verified' },
        some (.partnerFee asset previous.isSome previous))
    else .ok (d, none)

def syncReserves (d : QuoteData) (asset : Address) (assetReserve cashReserve : BitVec 128) :
    Effect :=
  let withCash : QuoteData := { d with state := { d.state with cashReserve := cashReserve } }
  if asset = d.state.cash then
    .ok (withCash, some (.cashAndLane none d.state.cashReserve none))
  else do
    let lane ← existingLane d asset
    .ok (withCash.setLane asset { lane with assetReserve := assetReserve },
      some (.cashAndLane (some asset) d.state.cashReserve (some lane)))

def applyEvent (d : QuoteData) : QuoteEvent → Effect
  | .laneAdded asset => addLane d asset
  | .laneRemoved asset => removeLane d asset
  | .laneUpdated asset slot0 => updateLane d asset fun lane => .ok { lane with slot0 := slot0 }
  | .slippageKSet asset newK =>
    updateLane d asset fun lane =>
      .ok { lane with slot0 := Math.setLaneSlot0SlippageKBps lane.slot0 newK }
  | .lanePausedSet asset paused =>
    updateLane d asset fun lane =>
      .ok { lane with slot0 := Math.setLaneSlot0Paused lane.slot0 paused }
  | .pricePushThresholdSet asset pricePushThreshold enabled =>
    updateLane d asset fun lane => do
      let slot0 ← (Math.setLaneSlot0PricePushThreshold lane.slot0 pricePushThreshold
        enabled).mapError
        fun _ => Failure.range "pricePushThreshold does not fit uint7"
      .ok { lane with slot0 := slot0 }
  | .blockDelaySet asset blockDelay =>
    updateLane d asset fun lane =>
      .ok { lane with slot0 := Math.setLaneSlot0BlockDelay lane.slot0 blockDelay }
  | .partnerInfoSet router asset fee | .partnerFeeSet router asset fee =>
    setPartnerFee d router asset fee
  | .whitelistSet router whitelisted =>
    if d.verifiedRouter.any (fun verified => router = verified.router) ∧
        whitelisted ≠ d.feeClass.isWhitelisted then
      .error (.reducer .feeClassMismatch "verified router fee class changed")
    else .ok (d, none)
  | .blacklistFeeMultiplierSet multiplier =>
    .ok ({ d with state := { d.state with blacklistFeeMultiplier := multiplier } },
      some (.blacklistMultiplier d.state.blacklistFeeMultiplier))
  | .depositExecuted asset principal =>
    updateLane d asset fun lane => do
      let next ← ofOption (.reducer .arithmetic "principal storage overflow")
        (Word.checkedAdd lane.totalPrincipalAmount principal)
      .ok { lane with totalPrincipalAmount := next }
  | .withdrawalExecuted asset principal =>
    updateLane d asset fun lane => do
      let next ← ofOption (.reducer .arithmetic "principal underflow")
        (Word.checkedSub lane.totalPrincipalAmount principal)
      .ok { lane with totalPrincipalAmount := next }
  | .sync asset assetReserve cashReserve => syncReserves d asset assetReserve cashReserve
  | .implementationUpgraded _ =>
    .error (.reducer .implementationUpgraded "Core implementation upgraded")

/-! ### Transitions -/

structure QuoteReducer where
  data : QuoteData
  cursor : Option ChainCursor
  eventCursor : Option ChainCursor
  lastEvent : Option QuoteEvent
  headCursor : Option ChainCursor
  ready : Bool
  deriving DecidableEq

namespace QuoteReducer

def new (state : QuoteState) (feeClass : FeeClass)
    (verifiedRouter : Option VerifiedRouterSnapshot) : QuoteReducer :=
  ⟨⟨state, feeClass, verifiedRouter⟩, none, none, none, none, false⟩

def markNotReady (r : QuoteReducer) : QuoteReducer := { r with ready := false }

def bootstrap (r : QuoteReducer) (cursor : ChainCursor) : QuoteReducer :=
  { r with
    cursor := some cursor
    eventCursor := some cursor
    headCursor := some cursor
    lastEvent := none
    ready := true }

/-- The head cursor after a head at its own height. -/
def mergeHead (current head : ChainCursor) : ChainCursor :=
  let progression := isRealtimeProgression current head
  let later := decide (current.sourceSequence.getD 0 < head.sourceSequence.getD 0)
  { current with
    executionBlockNumber := head.executionBlockNumber
    blockHash :=
      if current.blockHash.isNone ∨ progression then head.blockHash else current.blockHash
    commitment :=
      if current.commitment.rank < head.commitment.rank then head.commitment
      else current.commitment
    sourceSequence := if later then head.sourceSequence else current.sourceSequence
    sourceSubIndex := if later then head.sourceSubIndex else current.sourceSubIndex }

/-- The check of a head against the last event's block. -/
def checkHeadAgainstEvent (event : Option ChainCursor) (head : ChainCursor) : Except Failure Unit :=
  match event with
  | none => .ok ()
  | some event =>
    if event.blockNumber = head.blockNumber then validateChainAndHash event head false else .ok ()

def observeHead (r : QuoteReducer) (head : ChainCursor) : Except Failure QuoteReducer := do
  checkHeadAgainstEvent r.eventCursor head
  match r.headCursor with
  | none => .ok { r with headCursor := some head, cursor := some head }
  | some current => do
    validateChainAndHash current head true
    if head.blockNumber < current.blockNumber then .ok r
    else if current.blockNumber < head.blockNumber then
      .ok { r with headCursor := some head, cursor := some head }
    else
      let next := mergeHead current head
      .ok { r with
        headCursor := some next
        cursor :=
          if r.cursor.all (fun published => published.blockNumber ≤ head.blockNumber) then some next
          else r.cursor }

/-- A block-level cursor counts as before every positioned log of its block. -/
def previousIsBlockBoundary (previous cursor : ChainCursor) : Bool :=
  decide (previous.blockNumber = cursor.blockNumber) && previous.transactionIndex.isNone &&
    previous.logIndex.isNone && cursor.transactionIndex.isSome && cursor.logIndex.isSome

/-- Whether an event at `cursor` is new (`true`), an exact redelivery of the last event (`false`),
or rejected. -/
def admitEvent (r : QuoteReducer) (cursor : ChainCursor) (event : QuoteEvent) :
    Except Failure Bool := do
  (match r.headCursor with
    | none => .ok ()
    | some head =>
      if head.blockNumber = cursor.blockNumber then validateChainAndHash head cursor false
      else .ok ())
  match r.eventCursor with
  | none => .ok true
  | some previous => do
    validateChainAndHash previous cursor false
    if previousIsBlockBoundary previous cursor then .ok true
    else
      match compareCursor cursor previous with
      | .lt => .error (.reducer .cursorRegression "event cursor regression")
      | .eq =>
        if r.lastEvent = some event then .ok false
        else
          .error (.reducer .duplicateEventConflict "conflicting event payload at the same cursor")
      | .gt => .ok true

/-- An event at or after the published cursor, with the execution block of its block's head and the
strongest commitment known for the block. -/
def eventAsPublished (headCursor published : Option ChainCursor) (cursor : ChainCursor) :
    ChainCursor :=
  let raise (commitment : Commitment) (other : Option ChainCursor) : Commitment :=
    match other with
    | some other =>
      if other.blockNumber = cursor.blockNumber ∧ commitment.rank < other.commitment.rank then
        other.commitment
      else commitment
    | none => commitment
  let sameBlockHead := headCursor.filter fun head => head.blockNumber = cursor.blockNumber
  { cursor with
    executionBlockNumber :=
      (sameBlockHead.map (·.executionBlockNumber)).getD cursor.executionBlockNumber
    commitment := raise (raise cursor.commitment headCursor) published }

/-- The published cursor after an accepted event. -/
def publishEvent (r : QuoteReducer) (cursor : ChainCursor) : ChainCursor :=
  match r.cursor with
  | none => eventAsPublished r.headCursor none cursor
  | some published =>
    if compareCursor cursor published ≠ .lt then
      eventAsPublished r.headCursor (some published) cursor
    else if published.sourceSequence.getD 0 < cursor.sourceSequence.getD 0 then
      { published with
        sourceSequence := cursor.sourceSequence
        sourceSubIndex := cursor.sourceSubIndex }
    else published

def apply (r : QuoteReducer) (cursor : ChainCursor) (event : QuoteEvent) :
    Except Failure (QuoteReducer × Option ReducerUndo) := do
  let new ← r.admitEvent cursor event
  if new then do
    validateEvent r.data event
    let (data, undo) ← applyEvent r.data event
    .ok ({ r with
      data := data
      eventCursor := some cursor
      lastEvent := some event
      cursor := some (r.publishEvent cursor) }, undo)
  else .ok (r, none)

def prepareCorrection (r : QuoteReducer) (commonAncestor : ChainCursor) :
    Except Failure QuoteReducer :=
  if r.cursor.any (fun current => current.chainId ≠ commonAncestor.chainId) then
    .error (.reducer .chainIdMismatch "correction ancestor chain id mismatch")
  else
    .ok { r with
      cursor := some commonAncestor
      eventCursor := some commonAncestor
      lastEvent := none
      headCursor := some commonAncestor }

end QuoteReducer

/-! ### What an event can do -/

/-- The data with the before-image put back. -/
def undone (d : QuoteData) : Option ReducerUndo → QuoteData
  | none => d
  | some undo => restoreReducerUndo d undo

/-- A successful event is undone by its before-image. -/
def Reverts (d : QuoteData) (out : Effect) : Prop :=
  ∀ d' undo, out = .ok (d', undo) → undone d' undo = d

theorem Reverts.error (d : QuoteData) (e : Failure) : Reverts d (.error e) := nofun

variable {d d' : QuoteData}

theorem Reverts.ok {undo : Option ReducerUndo} (h : undone d' undo = d) :
    Reverts d (.ok (d', undo)) := by
  rintro _ _ ⟨⟩
  exact h

theorem Reverts.ite {c : Prop} [Decidable c] {x y : Effect} (hx : Reverts d x)
    (hy : Reverts d y) : Reverts d (if c then x else y) := by
  by_cases h : c
  · rwa [if_pos h]
  · rwa [if_neg h]

/-- Putting a lane back undoes any change that was made to that lane alone. -/
theorem restoreLane_eq {asset : Address}
    (hlanes : ∀ other, other ≠ asset → d'.state.lanes.lookup other = d.state.lanes.lookup other)
    (hrest : d' = { d with state := { d.state with lanes := d'.state.lanes } }) :
    restoreLane d' asset (d.lane asset) = d := by
  have hput : putBack d'.state.lanes asset (d.lane asset) = d.state.lanes :=
    Rollback.putBack_eq hlanes
  rw [restoreLane, hput, hrest]

theorem restoreLane_setLane (d : QuoteData) (asset : Address) (lane : LaneState) :
    restoreLane (d.setLane asset lane) asset (d.lane asset) = d :=
  restoreLane_eq (fun _ h => Finmap.lookup_insert_of_ne _ h) rfl

/-- `had` is whether there was a value. -/
theorem ite_isSome_self {α : Type} (previous : Option α) :
    (if previous.isSome then previous else none) = previous := by
  cases previous with
  | none => rfl
  | some value => rfl

theorem updateLane_reverts (d : QuoteData) (asset : Address)
    (next : LaneState → Except Failure LaneState) : Reverts d (updateLane d asset next) := by
  intro d' undo h
  obtain ⟨lane, hlane, h⟩ := bind_eq_ok.mp h
  obtain ⟨lane', -, h⟩ := bind_eq_ok.mp h
  cases h
  have hfound : d.lane asset = some lane := ofOption_eq_ok.mp hlane
  rw [undone, restoreReducerUndo, ← hfound]
  exact restoreLane_setLane d asset lane'

theorem addLane_reverts (d : QuoteData) (asset : Address) : Reverts d (addLane d asset) := by
  rw [addLane]
  cases d.verifiedRouter with
  | some verified => exact .error _ _
  | none => exact .ok (restoreLane_setLane d asset _)

theorem removeLane_reverts (d : QuoteData) (asset : Address) : Reverts d (removeLane d asset) := by
  refine .ok ?_
  rw [undone, restoreReducerUndo, restoreFee, ite_isSome_self]
  have hlanes : putBack (d.state.lanes.erase asset) asset (d.lane asset) = d.state.lanes :=
    Rollback.putBack_eq fun _ h => Finmap.lookup_erase_ne h
  obtain ⟨state, feeClass, verifiedRouter⟩ := d
  cases verifiedRouter with
  | none =>
    simp only [restoreLane, Option.map_none]
    rw [hlanes]
  | some verified =>
    have hfees : putBack (verified.partnerFeeBps.erase asset) asset
        (verified.partnerFeeBps.lookup asset) = verified.partnerFeeBps :=
      Rollback.putBack_eq fun _ h => Finmap.lookup_erase_ne h
    simp only [restoreLane, Option.map_some, Option.bind_some]
    rw [hlanes, hfees]

theorem setPartnerFee_reverts (d : QuoteData) (router asset : Address) (fee : BitVec 32) :
    Reverts d (setPartnerFee d router asset fee) := by
  rw [setPartnerFee]
  cases hrouter : d.verifiedRouter with
  | none => exact .ok rfl
  | some verified =>
    refine .ite (.ok ?_) (.ok rfl)
    have hfees : putBack (verified.partnerFeeBps.insert asset fee) asset
        (verified.partnerFeeBps.lookup asset) = verified.partnerFeeBps :=
      Rollback.putBack_eq fun _ h => Finmap.lookup_insert_of_ne _ h
    rw [undone, restoreReducerUndo, restoreFee, ite_isSome_self, Option.map_some, hfees, ← hrouter]

theorem syncReserves_reverts (d : QuoteData) (asset : Address)
    (assetReserve cashReserve : BitVec 128) :
    Reverts d (syncReserves d asset assetReserve cashReserve) := by
  refine .ite (.ok rfl) ?_
  intro d' undo h
  obtain ⟨lane, hlane, h⟩ := bind_eq_ok.mp h
  cases h
  have hfound : d.lane asset = some lane := ofOption_eq_ok.mp hlane
  rw [undone, restoreReducerUndo, ← hfound]
  exact restoreLane_eq (fun _ h => Finmap.lookup_insert_of_ne _ h) rfl

/-- **Every before-image undoes its event**, and an event without one changes nothing. -/
theorem applyEvent_reverts (d : QuoteData) (event : QuoteEvent) :
    Reverts d (applyEvent d event) := by
  cases event with
  | laneAdded asset => exact addLane_reverts d asset
  | laneRemoved asset => exact removeLane_reverts d asset
  | laneUpdated asset slot0 | slippageKSet asset newK => exact updateLane_reverts d asset _
  | lanePausedSet asset paused => exact updateLane_reverts d asset _
  | pricePushThresholdSet asset threshold enabled => exact updateLane_reverts d asset _
  | blockDelaySet asset blockDelay => exact updateLane_reverts d asset _
  | partnerInfoSet router asset fee => exact setPartnerFee_reverts d router asset fee
  | partnerFeeSet router asset fee => exact setPartnerFee_reverts d router asset fee
  | whitelistSet router whitelisted => exact .ite (.error _ _) (.ok rfl)
  | blacklistFeeMultiplierSet multiplier => exact .ok rfl
  | depositExecuted asset principal => exact updateLane_reverts d asset _
  | withdrawalExecuted asset principal => exact updateLane_reverts d asset _
  | sync asset assetReserve cashReserve => exact syncReserves_reverts d asset _ _
  | implementationUpgraded implementation => exact .error _ _

/-! ### Where a reducer stands -/

theorem compareCursor_eq_gt {left right : ChainCursor} (h : compareCursor left right = .gt) :
    cursorKey right < cursorKey left := by
  rw [compareCursor] at h
  split_ifs at h with hlt heq
  rcases List.le_iff_lt_or_eq.mp (List.not_lt.mp hlt) with hmore | hsame
  · exact hmore
  · exact absurd hsame.symm heq

theorem blockNumber_le_of_key_lt {c c' : ChainCursor} (h : cursorKey c < cursorKey c') :
    c.blockNumber ≤ c'.blockNumber := by
  rcases List.cons_lt_cons_iff.mp h with hlt | ⟨heq, -⟩
  · exact hlt.le
  · exact heq.le

theorem blockNumber_le_of_not_lt {cursor published : ChainCursor}
    (h : compareCursor cursor published ≠ .lt) : published.blockNumber ≤ cursor.blockNumber := by
  rw [compareCursor] at h
  split_ifs at h with hlt heq
  · exact absurd rfl h
  · exact (List.cons.inj heq).1.ge
  by_contra hnot
  exact hlt (List.Lex.rel (not_le.mp hnot))

/-- Without a realtime progression, two cursors of one height name one block. -/
theorem blockHash_eq_of_validate {previous next : ChainCursor}
    (h : validateChainAndHash previous next false = .ok ())
    (hnumber : previous.blockNumber = next.blockNumber) : previous.blockHash = next.blockHash := by
  by_contra hne
  by_cases hchain : previous.chainId = next.chainId
  · simp [validateChainAndHash, hchain, hnumber, hne] at h
  · simp [validateChainAndHash, hchain] at h

namespace QuoteReducer

variable {r r' : QuoteReducer} {cursor previous : ChainCursor} {event : QuoteEvent}

/-- A new event is not below the last one, and in its block it has its hash. -/
theorem admitEvent_eq_true (h : r.admitEvent cursor event = .ok true)
    (hprevious : r.eventCursor = some previous) :
    (previous.blockNumber = cursor.blockNumber → previous.blockHash = cursor.blockHash) ∧
      (previousIsBlockBoundary previous cursor = true ∨ cursorKey previous < cursorKey cursor) := by
  obtain ⟨⟨⟩, -, h⟩ := bind_eq_ok.mp h
  simp only [hprevious] at h
  obtain ⟨⟨⟩, hvalid, h⟩ := bind_eq_ok.mp h
  refine ⟨blockHash_eq_of_validate hvalid, ?_⟩
  split at h
  next hboundary => exact .inl hboundary
  cases hcompare : compareCursor cursor previous with
  | lt => simp [hcompare] at h
  | eq =>
    simp only [hcompare] at h
    split at h
    · cases h
    · cases h
  | gt => exact .inr (compareCursor_eq_gt hcompare)

theorem blockNumber_le_of_admitted (h : r.admitEvent cursor event = .ok true)
    (hprevious : r.eventCursor = some previous) : previous.blockNumber ≤ cursor.blockNumber := by
  rcases (admitEvent_eq_true h hprevious).2 with hboundary | hlt
  · simp only [previousIsBlockBoundary, Bool.and_eq_true, decide_eq_true_eq] at hboundary
    exact hboundary.1.1.1.1.le
  · exact blockNumber_le_of_key_lt hlt

/-- The two ways an event is taken: known already, or applied with its before-image. -/
theorem apply_eq_ok {undo : Option ReducerUndo} (h : r.apply cursor event = .ok (r', undo)) :
    (r.admitEvent cursor event = .ok false ∧ r' = r ∧ undo = none) ∨
    ∃ data, r.admitEvent cursor event = .ok true ∧ validateEvent r.data event = .ok () ∧
      applyEvent r.data event = .ok (data, undo) ∧
      r' = { r with
        data := data
        eventCursor := some cursor
        lastEvent := some event
        cursor := some (r.publishEvent cursor) } := by
  obtain ⟨new, hnew, h⟩ := bind_eq_ok.mp h
  cases new with
  | false =>
    cases h
    exact .inl ⟨hnew, rfl, rfl⟩
  | true =>
    obtain ⟨⟨⟩, hvalid, h⟩ := bind_eq_ok.mp h
    obtain ⟨⟨data, undo'⟩, happly, h⟩ := bind_eq_ok.mp h
    cases h
    exact .inr ⟨data, hnew, hvalid, happly, rfl⟩

variable {head published : ChainCursor}

/-- The published cursor does not fall below the head. -/
theorem le_publishEvent (hpublished : r.cursor = some published)
    (hle : head.blockNumber ≤ published.blockNumber) :
    head.blockNumber ≤ (r.publishEvent cursor).blockNumber := by
  rw [publishEvent, hpublished]
  dsimp only
  split_ifs with hlt hsequence
  · exact hle.trans (blockNumber_le_of_not_lt hlt)
  · exact hle
  · exact hle

/-- What a head leaves as it was. -/
theorem observeHead_frame (h : r.observeHead head = .ok r') :
    checkHeadAgainstEvent r.eventCursor head = .ok () ∧
      ∃ headCursor published, r' = { r with headCursor := headCursor, cursor := published } := by
  obtain ⟨⟨⟩, hcheck, h⟩ := bind_eq_ok.mp h
  refine ⟨hcheck, ?_⟩
  cases hcurrent : r.headCursor with
  | none =>
    simp only [hcurrent] at h
    exact ⟨_, _, (ok.inj h).symm⟩
  | some current =>
    simp only [hcurrent] at h
    obtain ⟨⟨⟩, -, h⟩ := bind_eq_ok.mp h
    split at h
    · exact ⟨_, _, (ok.inj h).symm⟩
    split at h
    · exact ⟨_, _, (ok.inj h).symm⟩
    · exact ⟨_, _, (ok.inj h).symm⟩

/-- A head raises the head cursor to its own height at least, and keeps the published cursor at or
above it. -/
theorem observeHead_heights {head current published : ChainCursor}
    (hcurrent : r.headCursor = some current) (hpublished : r.cursor = some published)
    (hle : current.blockNumber ≤ published.blockNumber) (h : r.observeHead head = .ok r') :
    ∃ current' published', r'.headCursor = some current' ∧ r'.cursor = some published' ∧
      current'.blockNumber ≤ published'.blockNumber ∧
      current.blockNumber ≤ current'.blockNumber ∧ head.blockNumber ≤ current'.blockNumber := by
  obtain ⟨⟨⟩, -, h⟩ := bind_eq_ok.mp h
  simp only [hcurrent] at h
  obtain ⟨⟨⟩, -, h⟩ := bind_eq_ok.mp h
  split_ifs at h with hbelow habove hall
  · cases h
    exact ⟨current, published, hcurrent, hpublished, hle, le_rfl, hbelow.le⟩
  · cases h
    exact ⟨head, head, rfl, rfl, le_rfl, habove.le, le_rfl⟩
  · have hsame : head.blockNumber = current.blockNumber :=
      le_antisymm (not_lt.mp habove) (not_lt.mp hbelow)
    cases h
    exact ⟨mergeHead current head, mergeHead current head, rfl, rfl, le_rfl, le_rfl, hsame.le⟩
  · have hsame : head.blockNumber = current.blockNumber :=
      le_antisymm (not_lt.mp habove) (not_lt.mp hbelow)
    cases h
    exact ⟨mergeHead current head, published, rfl, hpublished, hle, le_rfl, hsame.le⟩

end QuoteReducer

end Lunarbase.TsClient
