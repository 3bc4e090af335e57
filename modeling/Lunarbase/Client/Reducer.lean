import Lunarbase.Client.Model
import Lunarbase.Math.Slot0
import Lunarbase.Support.Outcome

/-!
# Client — Reducer

The ordered single-writer reducer (`state/reducer.rs`, `reducer/events.rs`,
`reducer/identity.rs`).  A method on `&mut self` returns the state it leaves behind together with
its result, on the error paths too.
-/

namespace Lunarbase.Client

open Math (QuoteState LaneState FeeClass)
open Finmap

/-- The part of the reducer that events read and change. -/
structure QuoteData where
  state : QuoteState
  feeClass : FeeClass
  verifiedRouter : Option VerifiedRouterSnapshot
  deriving DecidableEq

structure QuoteReducer where
  data : QuoteData
  cursor : Option ChainCursor
  eventCursor : Option ChainCursor
  event : Option QuoteEvent
  ready : Bool
  deriving DecidableEq

/-! ### Event mutations -/

def QuoteData.lane (d : QuoteData) (asset : Address) : Option LaneState :=
  d.state.lanes.lookup asset

def QuoteData.setLane (d : QuoteData) (asset : Address) (lane : LaneState) : QuoteData :=
  { d with state := { d.state with lanes := d.state.lanes.insert asset lane } }

/-- The five events that replace the packed word of an existing lane: the new word is computed
from the previous one, and an unchanged word is no effect. -/
def QuoteData.updateSlot0 (d : QuoteData) (asset : Address)
    (next : U256 → Except ReducerError U256) : QuoteData × Except ReducerError Bool :=
  match d.lane asset with
  | none => (d, .error .unknownLane)
  | some lane =>
    match next lane.slot0 with
    | .error e => (d, .error e)
    | .ok word =>
      if word = lane.slot0 then (d, .ok false)
      else (d.setLane asset { lane with slot0 := word }, .ok true)

/-- The two events that move a lane's principal. -/
def QuoteData.updatePrincipal (d : QuoteData) (asset : Address)
    (next : BitVec 128 → Option (BitVec 128)) : QuoteData × Except ReducerError Bool :=
  match d.lane asset with
  | none => (d, .error .unknownLane)
  | some lane =>
    match next lane.totalPrincipalAmount with
    | none => (d, .error .arithmetic)
    | some amount =>
      if amount = lane.totalPrincipalAmount then (d, .ok false)
      else (d.setLane asset { lane with totalPrincipalAmount := amount }, .ok true)

/-- The two events that set a partner fee; other routers and unknown assets are ignored. -/
def QuoteData.setPartnerFee (d : QuoteData) (router asset : Address) (fee : BitVec 32) :
    QuoteData × Except ReducerError Bool :=
  match d.verifiedRouter with
  | none => (d, .ok false)
  | some verified =>
    if router ≠ verified.router ∨ (asset ≠ d.state.cash ∧ d.lane asset = none) then (d, .ok false)
    else if Math.bps < fee.setWidth 256 then (d, .error .invalidWidth)
    else if verified.partnerFeeBps.lookup asset = some fee then (d, .ok false)
    else
      let verified' := { verified with partnerFeeBps := verified.partnerFeeBps.insert asset fee }
      ({ d with verifiedRouter := some verified' }, .ok true)

/-- A lane that is not there yet starts from the default lane. -/
def QuoteData.addLane (d : QuoteData) (asset : Address) : QuoteData × Except ReducerError Bool :=
  match d.verifiedRouter with
  | some _ => (d, .error .verifiedRouterRefreshRequired)
  | none =>
    let lane := (d.lane asset).getD ⟨0, 0, 0⟩
    let next := Math.setLaneSlot0Paused (Math.setLaneSlot0Exists lane.slot0 true) true
    if next = lane.slot0 then (d, .ok false)
    else (d.setLane asset { lane with slot0 := next }, .ok true)

def QuoteData.removeLane (d : QuoteData) (asset : Address) :
    QuoteData × Except ReducerError Bool :=
  let stateChanged := (d.lane asset).isSome
  let routerChanged :=
    d.verifiedRouter.any fun verified => (verified.partnerFeeBps.lookup asset).isSome
  let d' : QuoteData :=
    if stateChanged then
      { d with state := { d.state with lanes := d.state.lanes.erase asset } }
    else d
  let d'' : QuoteData :=
    if routerChanged then
      { d' with verifiedRouter := d'.verifiedRouter.map fun verified =>
          { verified with partnerFeeBps := verified.partnerFeeBps.erase asset } }
    else d'
  (d'', .ok (stateChanged || routerChanged))

def QuoteData.syncReserves (d : QuoteData) (asset : Address)
    (assetReserve cashReserve : BitVec 128) : QuoteData × Except ReducerError Bool :=
  if asset ≠ d.state.cash ∧ d.lane asset = none then (d, .error .unknownLane)
  else if d.state.cashReserve = cashReserve ∧
      (asset = d.state.cash ∨
        (d.lane asset).all (fun lane => lane.assetReserve = assetReserve)) then
    (d, .ok false)
  else
    let d' : QuoteData := { d with state := { d.state with cashReserve := cashReserve } }
    if asset = d.state.cash then (d', .ok true)
    else match d.lane asset with
      | none => (d', .ok true)
      | some lane => (d'.setLane asset { lane with assetReserve := assetReserve }, .ok true)

def QuoteData.applyEvent (d : QuoteData) : QuoteEvent → QuoteData × Except ReducerError Bool
  | .laneAdded asset => d.addLane asset
  | .laneRemoved asset => d.removeLane asset
  | .laneUpdated asset slot0 => d.updateSlot0 asset fun _ => .ok slot0
  | .slippageKSet asset newK =>
    if Math.bps < newK.setWidth 256 then (d, .error .invalidSlippageK)
    else d.updateSlot0 asset fun word => .ok (Math.setLaneSlot0SlippageKBps word newK)
  | .lanePausedSet asset paused =>
    d.updateSlot0 asset fun word => .ok (Math.setLaneSlot0Paused word paused)
  | .pricePushThresholdSet asset threshold enabled =>
    d.updateSlot0 asset fun word =>
      (Math.setLaneSlot0PricePushThreshold word threshold enabled).mapError fun _ => .invalidWidth
  | .blockDelaySet asset blockDelay =>
    d.updateSlot0 asset fun word => .ok (Math.setLaneSlot0BlockDelay word blockDelay)
  | .partnerInfoSet router asset fee | .partnerFeeSet router asset fee =>
    d.setPartnerFee router asset fee
  | .whitelistSet router whitelisted =>
    if d.verifiedRouter.any (fun verified => verified.router = router) ∧
        whitelisted ≠ d.feeClass.isWhitelisted then
      (d, .error .feeClassMismatch)
    else (d, .ok false)
  | .blacklistFeeMultiplierSet multiplier =>
    if d.state.blacklistFeeMultiplier = multiplier then (d, .ok false)
    else ({ d with state := { d.state with blacklistFeeMultiplier := multiplier } }, .ok true)
  | .depositExecuted asset principal =>
    d.updatePrincipal asset fun amount => Word.checkedAdd amount principal
  | .withdrawalExecuted asset principal =>
    d.updatePrincipal asset fun amount => Word.checkedSub amount principal
  | .sync asset assetReserve cashReserve => d.syncReserves asset assetReserve cashReserve
  | .implementationUpgraded _ => (d, .error .implementationUpgraded)

/-! ### Position checks -/

def validateHeadAgainstEvent (event current : Option ChainCursor) (head : ChainCursor) :
    Except ReducerError Unit :=
  match event with
  | none => .ok ()
  | some event =>
    if event.blockNumber ≠ head.blockNumber ∨
        current.any (fun current => head.blockNumber < current.blockNumber) then .ok ()
    else
      let hashConflict : Bool := match event.blockHash, head.blockHash with
        | some left, some right => decide (left ≠ right)
        | none, some _ => true
        | none, none => event.sourceSequence.isNone || head.sourceSequence.isNone
        | some _, none => true
      if event.executionBlockNumber ≠ head.executionBlockNumber ∨ hashConflict then
        .error .blockHashMismatch
      else .ok ()

def validateEventAgainstHead (head event : ChainCursor) : Except ReducerError Unit :=
  if head.blockNumber ≠ event.blockNumber then .ok ()
  else
    let hashConflict : Bool := match head.blockHash, event.blockHash with
      | some _, none => true
      | some left, some right => decide (left ≠ right)
      | none, none => head.sourceSequence.isNone || event.sourceSequence.isNone
      | none, some _ => false
    if head.executionBlockNumber ≠ event.executionBlockNumber ∨ hashConflict then
      .error .blockHashMismatch
    else .ok ()

def validateEventSuccessor (previous next : ChainCursor) : Except ReducerError Unit :=
  if previous.blockNumber ≠ next.blockNumber then .ok ()
  else
    let hashConflict : Bool := match previous.blockHash, next.blockHash with
      | some left, some right => decide (left ≠ right)
      | some _, none | none, some _ => true
      | none, none => previous.sourceSequence.isNone || next.sourceSequence.isNone
    if previous.executionBlockNumber ≠ next.executionBlockNumber ∨ hashConflict then
      .error .blockHashMismatch
    else .ok ()

def isRealtimeProgression (previous next : ChainCursor) : Bool :=
  decide (previous.commitment = .realtime) && decide (next.commitment = .realtime) &&
    sequenceLt previous.sourceSequence next.sourceSequence

/-! ### Transitions -/

namespace QuoteReducer

def new (state : QuoteState) (feeClass : FeeClass)
    (verifiedRouter : Option VerifiedRouterSnapshot) : QuoteReducer :=
  ⟨⟨state, feeClass, verifiedRouter⟩, none, none, none, false⟩

def markNotReady (r : QuoteReducer) : QuoteReducer := { r with ready := false }

def publishReady (r : QuoteReducer) : QuoteReducer := { r with ready := true }

def bootstrap (r : QuoteReducer) (cursor : ChainCursor) : QuoteReducer :=
  { r with cursor := some cursor, eventCursor := none, event := none, ready := true }

def rewindHead (r : QuoteReducer) (head : ChainCursor) :
    QuoteReducer × Except ReducerError Unit :=
  if r.cursor.any (fun cursor => cursor.chainId ≠ head.chainId) ∨
      r.eventCursor.any (fun event => event.chainId ≠ head.chainId) then
    (r, .error .chainIdMismatch)
  else ({ r with cursor := some head, eventCursor := none, event := none }, .ok ())

/-- The published cursor after a head at its own height: a new identity, a stronger commitment and
a later transport position are each taken over. -/
def mergeHead (current head : ChainCursor) : ChainCursor :=
  let c₁ :=
    if current.blockHash ≠ head.blockHash then
      { current with
        blockHash := head.blockHash
        executionBlockNumber := head.executionBlockNumber }
    else current
  let c₂ :=
    if c₁.commitment.rank < head.commitment.rank then { c₁ with commitment := head.commitment }
    else c₁
  if sequenceLt c₂.sourceSequence head.sourceSequence then
    { c₂ with sourceSequence := head.sourceSequence, sourceSubIndex := head.sourceSubIndex }
  else c₂

def observeHead (r : QuoteReducer) (head : ChainCursor) :
    QuoteReducer × Except ReducerError Unit :=
  match validateHeadAgainstEvent r.eventCursor r.cursor head with
  | .error e => (r, .error e)
  | .ok () =>
    match r.cursor with
    | none => ({ r with cursor := some head }, .ok ())
    | some current =>
      if current.chainId ≠ head.chainId then (r, .error .chainIdMismatch)
      else if head.blockNumber < current.blockNumber then (r, .ok ())
      else if head.blockNumber = current.blockNumber then
        let identityChanged := decide (current.blockHash ≠ head.blockHash)
        let appliedEvent :=
          r.eventCursor.any fun event => event.blockNumber = head.blockNumber
        if current.blockHash.isSome ∧ head.blockHash.isNone then (r, .error .blockHashMismatch)
        else if ¬ identityChanged ∧ current.executionBlockNumber ≠ head.executionBlockNumber then
          (r, .error .blockHashMismatch)
        else if identityChanged ∧ (appliedEvent ∨ ¬ isRealtimeProgression current head) then
          (r, .error .blockHashMismatch)
        else ({ r with cursor := some (mergeHead current head) }, .ok ())
      else ({ r with cursor := some head }, .ok ())

def observeCorrectedHead (r : QuoteReducer) (head : ChainCursor) :
    QuoteReducer × Except ReducerError Unit :=
  match r.observeHead head with
  | (r', .error e) => (r', .error e)
  | (r', .ok ()) => ({ r' with cursor := some head }, .ok ())

def checkPublished (published : Option ChainCursor) (cursor : ChainCursor) :
    Except ReducerError Unit :=
  match published with
  | none => .ok ()
  | some head =>
    if head.chainId ≠ cursor.chainId then .error .chainIdMismatch
    else validateEventAgainstHead head cursor

def checkPrevious (previous : Option ChainCursor) (last : Option QuoteEvent) (cursor : ChainCursor)
    (event : QuoteEvent) : Except ReducerError Bool :=
  match previous with
  | none => .ok true
  | some previous =>
    if previous.chainId ≠ cursor.chainId then .error .chainIdMismatch
    else do
      validateEventSuccessor previous cursor
      if cursor.eventOrder < previous.eventOrder then .error .cursorRegression
      else if cursor.eventOrder = previous.eventOrder then
        if last = some event then .ok false else .error .eventPayloadMismatch
      else .ok true

/-- Whether an event at `cursor` is new (`true`), an exact redelivery of the last event
(`false`), or rejected. -/
def admitEvent (r : QuoteReducer) (cursor : ChainCursor) (event : QuoteEvent) :
    Except ReducerError Bool := do
  checkPublished r.cursor cursor
  checkPrevious r.eventCursor r.event cursor event

/-- The published cursor after an accepted event. -/
def publishEvent (head : Option ChainCursor) (cursor : ChainCursor) : ChainCursor :=
  match head with
  | none => cursor
  | some head =>
    if cursor.blockNumber < head.blockNumber then
      if sequenceLt head.sourceSequence cursor.sourceSequence then
        { head with
          sourceSequence := cursor.sourceSequence
          sourceSubIndex := cursor.sourceSubIndex }
      else head
    else if cursor.blockNumber = head.blockNumber then
      { cursor with commitment := cursor.commitment.max head.commitment }
    else cursor

def applyWithEffect (r : QuoteReducer) (cursor : ChainCursor) (event : QuoteEvent) :
    QuoteReducer × Except ReducerError Bool :=
  match r.admitEvent cursor event with
  | .error e => (r, .error e)
  | .ok false => (r, .ok false)
  | .ok true =>
    match r.data.applyEvent event with
    | (data, .error e) => ({ r with data := data }, .error e)
    | (data, .ok changed) =>
      ({ r with
          data := data
          cursor := some (publishEvent r.cursor cursor)
          eventCursor := some cursor
          event := some event }, .ok changed)

def checkpoint (r : QuoteReducer) (deployment : DeploymentConfig) : Option Checkpoint :=
  r.cursor.map fun cursor =>
    { schemaVersion := schemaVersion
      mathCompatibilityVersion := mathCompatibilityVersion
      expectedImplementation := deployment.expectedImplementation
      expectedImplementationCodeHash := deployment.expectedImplementationCodeHash
      chainId := deployment.chainId
      network := deployment.network
      core := deployment.core
      deploymentBlock := deployment.deploymentBlock
      explicitLaneAssets := deployment.explicitLaneAssets
      cursor := cursor
      state := r.data.state }

end QuoteReducer

/-! ### What an event can do -/

/-- A call that does not report a change leaves the data as they were. -/
def Quiet (d : QuoteData) (out : QuoteData × Except ReducerError Bool) : Prop :=
  out.2 ≠ .ok true → out.1 = d

/-- A call that reports a change has changed the data. -/
def Told (d : QuoteData) (out : QuoteData × Except ReducerError Bool) : Prop :=
  out.2 = .ok true → out.1 ≠ d

/-- A change is reported exactly where there is one. -/
def Reports (d : QuoteData) (out : QuoteData × Except ReducerError Bool) : Prop :=
  Quiet d out ∧ Told d out

variable {d d' : QuoteData}

theorem Reports.error (e : ReducerError) : Reports d (d, .error e) := ⟨fun _ => rfl, nofun⟩

theorem Reports.unchanged : Reports d (d, .ok false) := ⟨fun _ => rfl, nofun⟩

theorem Reports.changed (h : d' ≠ d) : Reports d (d', .ok true) :=
  ⟨fun hnot => absurd rfl hnot, fun _ => h⟩

theorem Reports.ite {x y : QuoteData × Except ReducerError Bool} {c : Prop} [Decidable c]
    (hx : c → Reports d x) (hy : ¬ c → Reports d y) : Reports d (if c then x else y) := by
  by_cases h : c
  · rw [if_pos h]
    exact hx h
  · rw [if_neg h]
    exact hy h

variable (d : QuoteData) (asset : Address)

namespace QuoteData

theorem lane_setLane (lane : LaneState) :
    (d.setLane asset lane).lane asset = some lane := lookup_insert _

theorem setLane_ne {d : QuoteData} {asset : Address} {lane : LaneState}
    (h : d.lane asset ≠ some lane) : d.setLane asset lane ≠ d := by
  intro heq
  exact h (heq ▸ d.lane_setLane asset lane)

theorem updateSlot0_reports (next : U256 → Except ReducerError U256) :
    Reports d (d.updateSlot0 asset next) := by
  rw [updateSlot0]
  cases hlane : d.lane asset with
  | none => exact .error _
  | some lane =>
    dsimp only
    cases next lane.slot0 with
    | error e => exact .error _
    | ok word =>
      refine .ite (fun _ => .unchanged) fun hword => .changed (setLane_ne ?_)
      rw [hlane]
      intro hsame
      exact hword (congrArg LaneState.slot0 (Option.some.inj hsame)).symm

theorem updatePrincipal_reports (next : BitVec 128 → Option (BitVec 128)) :
    Reports d (d.updatePrincipal asset next) := by
  rw [updatePrincipal]
  cases hlane : d.lane asset with
  | none => exact .error _
  | some lane =>
    dsimp only
    cases next lane.totalPrincipalAmount with
    | none => exact .error _
    | some amount =>
      refine .ite (fun _ => .unchanged) fun hamount => .changed (setLane_ne ?_)
      rw [hlane]
      intro hsame
      exact hamount (congrArg LaneState.totalPrincipalAmount (Option.some.inj hsame)).symm

theorem setPartnerFee_reports (router asset : Address) (fee : BitVec 32) :
    Reports d (d.setPartnerFee router asset fee) := by
  rw [setPartnerFee]
  cases hrouter : d.verifiedRouter with
  | none => exact .unchanged
  | some verified =>
    refine .ite (fun _ => .unchanged) fun _ => .ite (fun _ => .error _) fun _ =>
      .ite (fun _ => .unchanged) fun hfee => .changed fun heq => hfee ?_
    have hsame := (congrArg QuoteData.verifiedRouter heq).trans hrouter
    rw [← congrArg VerifiedRouterSnapshot.partnerFeeBps (Option.some.inj hsame)]
    exact lookup_insert _

theorem addLane_reports : Reports d (d.addLane asset) := by
  rw [addLane]
  cases d.verifiedRouter with
  | some verified => exact .error _
  | none =>
    refine .ite (fun _ => .unchanged) fun hnext => .changed (setLane_ne fun hsame => hnext ?_)
    generalize hword : Math.setLaneSlot0Paused _ true = word at hsame ⊢
    rw [hsame]
    rfl

theorem removeLane_reports : Reports d (d.removeLane asset) := by
  refine ⟨fun h => ?_, fun h heq => ?_⟩
  · simp only [removeLane, ne_eq, Except.ok.injEq, Bool.or_eq_true, not_or, Bool.not_eq_true] at h ⊢
    obtain ⟨hstate, hrouter⟩ := h
    simp [hstate, hrouter]
  simp only [removeLane, Except.ok.injEq, Bool.or_eq_true] at h heq
  -- the lane or the partner fee that was there is looked up in the result
  have hlane := congrArg (fun d => d.lane asset) heq
  have hfee := congrArg (fun d : QuoteData =>
    d.verifiedRouter.bind fun verified => verified.partnerFeeBps.lookup asset) heq
  rcases h with hstate | hrouter
  · have hgone : d.lane asset = none := by
      rw [← hlane, if_pos hstate]
      split_ifs <;> exact lookup_erase asset d.state.lanes
    simp [hgone] at hstate
  cases hverified : d.verifiedRouter with
  | none => simp [hverified] at hrouter
  | some verified =>
    split_ifs at hfee <;> simp [hverified] at hfee hrouter <;> simp [← hfee] at hrouter

theorem syncReserves_reports (assetReserve cashReserve : BitVec 128) :
    Reports d (d.syncReserves asset assetReserve cashReserve) := by
  refine .ite (fun _ => .error _) fun hknown => .ite (fun _ => .unchanged) fun hdiffers => ?_
  by_cases hcash : asset = d.state.cash
  · rw [if_pos hcash]
    refine .changed fun heq => hdiffers ⟨?_, .inl hcash⟩
    exact (congrArg (fun d => d.state.cashReserve) heq).symm
  rw [if_neg hcash]
  cases hlane : d.lane asset with
  | none => exact absurd ⟨hcash, hlane⟩ hknown
  | some lane =>
    refine .changed fun heq => ?_
    have hreserve := congrArg (fun d => d.state.cashReserve) heq
    have hsame : some { lane with assetReserve := assetReserve } = some lane :=
      (lane_setLane _ _ _).symm.trans ((congrArg (fun d => d.lane asset) heq).trans hlane)
    refine hdiffers ⟨hreserve.symm, .inr ?_⟩
    rw [hlane, Option.all_some, ← Option.some.inj hsame]
    exact decide_eq_true rfl

/-- **An event reports a change exactly where there is one**: otherwise it failed, or found the data
as it would leave them. -/
theorem applyEvent_reports (event : QuoteEvent) : Reports d (d.applyEvent event) := by
  cases event with
  | laneAdded asset => exact d.addLane_reports asset
  | laneRemoved asset => exact d.removeLane_reports asset
  | laneUpdated asset slot0 | lanePausedSet asset paused => exact d.updateSlot0_reports asset _
  | slippageKSet asset newK =>
    exact .ite (fun _ => .error _) fun _ => d.updateSlot0_reports asset _
  | pricePushThresholdSet asset threshold enabled => exact d.updateSlot0_reports asset _
  | blockDelaySet asset blockDelay => exact d.updateSlot0_reports asset _
  | partnerInfoSet router asset fee => exact d.setPartnerFee_reports router asset fee
  | partnerFeeSet router asset fee => exact d.setPartnerFee_reports router asset fee
  | whitelistSet router whitelisted => exact .ite (fun _ => .error _) fun _ => .unchanged
  | blacklistFeeMultiplierSet multiplier =>
    refine .ite (fun _ => .unchanged) fun hmultiplier => .changed fun heq => hmultiplier ?_
    exact (congrArg (fun d => d.state.blacklistFeeMultiplier) heq).symm
  | depositExecuted asset principal => exact d.updatePrincipal_reports asset _
  | withdrawalExecuted asset principal => exact d.updatePrincipal_reports asset _
  | sync asset assetReserve cashReserve => exact d.syncReserves_reports asset _ _
  | implementationUpgraded implementation => exact .error _

end QuoteData

/-- The three ways `apply_with_effect` ends: rejected, an exact redelivery, or a new event. -/
theorem QuoteReducer.applyWithEffect_cases {r r' : QuoteReducer} {cursor : ChainCursor}
    {event : QuoteEvent} {out : Except ReducerError Bool}
    (h : r.applyWithEffect cursor event = (r', out)) :
    (∃ e, out = .error e ∧ r' = r) ∨
    (out = .ok false ∧ r' = r ∧ r.admitEvent cursor event = .ok false) ∨
    ∃ data changed, out = .ok changed ∧ r.admitEvent cursor event = .ok true ∧
      r.data.applyEvent event = (data, .ok changed) ∧
      r' = { r with
        data := data
        cursor := some (QuoteReducer.publishEvent r.cursor cursor)
        eventCursor := some cursor
        event := some event } := by
  rw [applyWithEffect] at h
  cases hadmitted : r.admitEvent cursor event with
  | error e =>
    simp only [hadmitted, Prod.mk.injEq] at h
    exact .inl ⟨e, h.2.symm, h.1.symm⟩
  | ok new =>
    cases new with
    | false =>
      simp only [hadmitted, Prod.mk.injEq] at h
      exact .inr (.inl ⟨h.2.symm, h.1.symm, rfl⟩)
    | true =>
      have hquiet := (r.data.applyEvent_reports event).1
      rcases happly : r.data.applyEvent event with ⟨data, result⟩
      cases result with
      | error e =>
        simp only [hadmitted, happly, Prod.mk.injEq] at h
        have hdata : data = r.data := by simpa [happly] using hquiet (by simp [happly])
        exact .inl ⟨e, h.2.symm, by rw [← h.1, hdata]⟩
      | ok changed =>
        simp only [hadmitted, happly, Prod.mk.injEq] at h
        exact .inr (.inr ⟨data, changed, h.2.symm, rfl, rfl, h.1.symm⟩)

end Lunarbase.Client
