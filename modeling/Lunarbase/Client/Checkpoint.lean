import Lunarbase.Client.Frame

/-!
# Client — Checkpoint

Restart state (`model.rs`, `indexer/engine.rs`).  An indexer keeps the checkpoint of its last
authoritative position: the installed snapshot, or the end of a canonical recovery range.  Updates
in between do not touch it.  A checkpoint is taken from whatever state the reducer holds and
checked only when it is restored: its structure is valid if the snapshots, the events and the
cursors that came in are (`Restartable.step`).
-/

namespace Lunarbase.Client

open Except

/-! ### Configuration -/

def validateExplicitLanes (seen : Finset Address) : List Address → Except SourceError Unit
  | [] => .ok ()
  | asset :: rest =>
    if asset = 0 then .error (.unavailable "explicit lane assets must be non-zero")
    else if asset ∈ seen then .error (.unavailable "explicit lane assets must be unique")
    else validateExplicitLanes (insert asset seen) rest

def DeploymentConfig.validate (d : DeploymentConfig) : Except SourceError Unit :=
  if d.chainId = 0 then .error (.unavailable "invalid chain id")
  else if d.core = 0 then .error (.unavailable "Core must be non-zero")
  else if d.verifiedRouter = some 0 then .error (.unavailable "verified router must be non-zero")
  else if d.expectedImplementation = 0 then
    .error (.unavailable "expected Core implementation must be non-zero")
  else if d.expectedImplementationCodeHash = 0 then
    .error (.unavailable "expected Core implementation code hash must be non-zero")
  else if d.contractCompatibilityVersion ≠ mathCompatibilityVersion then
    .error (.unavailable ("contract compatibility mismatch: expected " ++ mathCompatibilityVersion))
  else validateExplicitLanes ∅ d.explicitLaneAssets

theorem validateExplicitLanes_eq_ok {seen : Finset Address} {assets : List Address}
    (h : validateExplicitLanes seen assets = .ok ()) :
    0 ∉ assets ∧ assets.Nodup ∧ ∀ asset ∈ assets, asset ∉ seen := by
  induction assets generalizing seen with
  | nil => simp
  | cons first rest ih =>
    obtain ⟨hzero, h⟩ := ite_error_eq_ok.mp h
    obtain ⟨hseen, h⟩ := ite_error_eq_ok.mp h
    obtain ⟨hrest, hnodup, hfresh⟩ := ih h
    simp only [Finset.mem_insert, List.mem_cons, not_or, List.nodup_cons] at hfresh ⊢
    refine ⟨⟨Ne.symm hzero, hrest⟩, ⟨fun hmem => (hfresh first hmem).1 rfl, hnodup⟩, ?_⟩
    rintro asset (rfl | hmem)
    · exact hseen
    · exact (hfresh asset hmem).2

theorem DeploymentConfig.validate_eq_ok {d : DeploymentConfig} (h : d.validate = .ok ()) :
    d.chainId ≠ 0 ∧ d.core ≠ 0 ∧ d.expectedImplementation ≠ 0 ∧
      d.expectedImplementationCodeHash ≠ 0 ∧
      d.contractCompatibilityVersion = mathCompatibilityVersion ∧
      0 ∉ d.explicitLaneAssets ∧ d.explicitLaneAssets.Nodup := by
  obtain ⟨hchain, h⟩ := ite_error_eq_ok.mp h
  obtain ⟨hcore, h⟩ := ite_error_eq_ok.mp h
  obtain ⟨-, h⟩ := ite_error_eq_ok.mp h
  obtain ⟨himplementation, h⟩ := ite_error_eq_ok.mp h
  obtain ⟨hcode, h⟩ := ite_error_eq_ok.mp h
  obtain ⟨hversion, h⟩ := ite_error_eq_ok.mp h
  obtain ⟨hzero, hnodup, -⟩ := validateExplicitLanes_eq_ok h
  exact ⟨hchain, hcore, himplementation, hcode, not_not.mp hversion, hzero, hnodup⟩

/-! ### Structure and compatibility -/

/-- What `has_valid_structure` asks of one lane. -/
def validLane (cash asset : Address) (lane : Math.LaneState) : Bool :=
  asset != 0 && asset != cash && lane.exists_ &&
    decide (Math.laneSlot0AskFeeBps lane.slot0 ≤ Math.bps) &&
    decide (Math.laneSlot0BidFeeBps lane.slot0 ≤ Math.bps) &&
    decide ((Math.laneSlot0SlippageKBps lane.slot0).setWidth 256 ≤ Math.bps)

def sameAddressSet (left right : List Address) : Bool :=
  left.length == right.length && left.all fun asset => right.contains asset

namespace Checkpoint

def lanesAreValid (c : Checkpoint) : Bool :=
  decide (∀ asset ∈ c.state.lanes.keys,
    (c.state.lanes.lookup asset).all (validLane c.state.cash asset))

def hasValidStructure (c : Checkpoint) : Bool :=
  c.chainId != 0 && c.cursor.chainId == c.chainId &&
    decide (c.deploymentBlock ≤ c.cursor.blockNumber) &&
    c.cursor.blockHash.any (fun hash => hash ≠ 0) &&
    c.cursor.transactionIndex.isSome == c.cursor.logIndex.isSome &&
    (c.cursor.sourceSubIndex.isNone || c.cursor.sourceSequence.isSome) &&
    c.expectedImplementation != 0 && c.expectedImplementationCodeHash != 0 && c.core != 0 &&
    c.state.cash != 0 && c.explicitLaneAssets.toFinset.card == c.explicitLaneAssets.length &&
    decide (0 ∉ c.explicitLaneAssets.toFinset) && c.lanesAreValid

def isCompatible (c : Checkpoint) (deployment : DeploymentConfig) : Bool :=
  c.schemaVersion == Client.schemaVersion &&
    c.mathCompatibilityVersion == Client.mathCompatibilityVersion &&
    c.mathCompatibilityVersion == deployment.contractCompatibilityVersion &&
    c.expectedImplementation == deployment.expectedImplementation &&
    c.expectedImplementationCodeHash == deployment.expectedImplementationCodeHash &&
    c.chainId == deployment.chainId && c.network == deployment.network &&
    c.core == deployment.core && c.deploymentBlock == deployment.deploymentBlock &&
    sameAddressSet c.explicitLaneAssets deployment.explicitLaneAssets && c.hasValidStructure

end Checkpoint

/-! ### Restoring and taking -/

def QuoteReducer.fromCheckpoint (c : Checkpoint) (feeClass : Math.FeeClass) : QuoteReducer :=
  ⟨⟨c.state, feeClass, none⟩, some c.cursor, none, none, true⟩

namespace QuoteIndexer

def fromCheckpoint (c : Checkpoint) (deployment : DeploymentConfig) :
    Except IndexerError QuoteIndexer :=
  if !c.isCompatible deployment then .error .codeHashMismatch
  else if deployment.verifiedRouter.isSome then
    .error (.invalidRequest "verified-router mode requires a fresh chain snapshot")
  else
    let reducer := QuoteReducer.fromCheckpoint c deployment.feeClass
    .ok
      { reducer := reducer
        deployment := deployment
        canonicalFloor := some c.cursor
        stableCheckpoint := reducer.checkpoint deployment
        finalizedFloor := if c.cursor.commitment = .finalized then some c.cursor else none
        optimisticHistory := JournalState.empty.reset c.cursor
        lastCorrection := none }

/-- `checkpoint()`. -/
def checkpoint (s : QuoteIndexer) : Option Checkpoint := s.stableCheckpoint

/-- The end of a canonical recovery range. -/
def setCanonicalFloor (s : QuoteIndexer) (cursor : ChainCursor) : Transition Unit :=
  match s.reducer.cursor with
  | none => (s, .error .noCursor)
  | some current =>
    if current.chainId ≠ cursor.chainId then (s.markNotReady, .error (.reducer .chainIdMismatch))
    else if cursor.transactionIndex.isSome ∨ cursor.logIndex.isSome ∨
        current.blockNumber ≠ cursor.blockNumber ∨
        current.executionBlockNumber ≠ cursor.executionBlockNumber ∨
        current.blockHash.isNone ∨ current.blockHash ≠ cursor.blockHash then
      (s.markNotReady, .error (.reducer .blockHashMismatch))
    else
      ({ s with
        canonicalFloor := some cursor
        optimisticHistory := s.optimisticHistory.advanceFloor cursor
        stableCheckpoint := s.reducer.checkpoint s.deployment }, .ok ())

end QuoteIndexer

/-! ### Runs -/

/-- A request, or the end of a recovery range. -/
inductive PersistentCall
  | request (served : Request)
  | setCanonicalFloor (cursor : ChainCursor)

namespace PersistentCall

def perform (env : Platform) (s : QuoteIndexer) : PersistentCall → Transition Unit
  | .request served => served.perform env s
  | .setCanonicalFloor cursor => s.setCanonicalFloor cursor

def step (env : Platform) (s : QuoteIndexer) (call : PersistentCall) : QuoteIndexer :=
  (call.perform env s).1

def accepted (env : Platform) (s : QuoteIndexer) (call : PersistentCall) : Bool :=
  (call.perform env s).2.isOk

end PersistentCall

/-! ### Sound inputs -/

open QuoteIndexer

/-- A position of the deployment's chain whose coordinates are paired. -/
structure Anchored (deployment : DeploymentConfig) (x : ChainCursor) : Prop where
  chain : x.chainId = deployment.chainId
  height : deployment.deploymentBlock ≤ x.blockNumber
  hash : x.blockHash ≠ some 0
  event : x.transactionIndex.isSome = x.logIndex.isSome
  transport : x.sourceSubIndex.isSome → x.sourceSequence.isSome

/-- The two events that write the lane map from outside name a lane, and a word, that a checkpoint
accepts. -/
def QuoteEvent.Sound (cash : Address) : QuoteEvent → Prop
  | .laneAdded asset => asset ≠ 0 ∧ asset ≠ cash
  | .laneUpdated asset slot0 => validLane cash asset ⟨slot0, 0, 0⟩ = true
  | _ => True

/-- The cash asset is `cash`, and a checkpoint accepts every lane. -/
def QuoteData.LanesValid (cash : Address) (d : QuoteData) : Prop :=
  d.state.cash = cash ∧ ∀ asset lane, d.lane asset = some lane → validLane cash asset lane = true

structure SoundSnapshot (deployment : DeploymentConfig) (cash : Address)
    (snapshot : BootstrapSnapshot) : Prop where
  cursor : Anchored deployment snapshot.cursor
  hashed : snapshot.cursor.blockHash.isSome
  cash_eq : snapshot.state.cash = cash
  lanes : ∀ asset lane, snapshot.state.lanes.lookup asset = some lane →
    validLane cash asset lane = true

/-- A log by its position and its event, a head by its position, a correction by its new tip and
the events it replays. -/
def SoundUpdate (env : Platform) (deployment : DeploymentConfig) (cash : Address)
    (reads : ContractLog → Option QuoteEvent → Prop) : ChainUpdate → Prop
  | .log log => Anchored deployment log.cursor ∧ ∀ event, reads log (some event) → event.Sound cash
  | .head block => Anchored deployment block.cursor
  | .correction c => Anchored deployment c.newTip.cursor ∧
      ∀ log ∈ c.replacementLogs, ∀ event, Decodes env log (some event) → event.Sound cash
  | .reorg _ _ | .gap _ _ => True

/-- A floor is only compared with the published position. -/
def PersistentCall.Sound (env : Platform) (deployment : DeploymentConfig) (cash : Address) :
    PersistentCall → Prop
  | .request ⟨.call call, _⟩ =>
    (∀ update ∈ call.updates, SoundUpdate env deployment cash (Decodes env) update) ∧
      ∀ snapshot buffered, call = .bootstrapNormalized snapshot buffered →
        SoundSnapshot deployment cash snapshot
  | .request ⟨.applyUpdate update decoder, _⟩ =>
    SoundUpdate env deployment cash (fun log event => decoder log = event) update
  | .setCanonicalFloor _ => True

variable {env : Platform} {deployment : DeploymentConfig} {cash : Address} {s t : QuoteIndexer}

/-- A stage by the data it carries. -/
def SoundStage (env : Platform) (deployment : DeploymentConfig) (cash : Address) : Stage → Prop
  | .log _ cursor event => Anchored deployment cursor ∧ ∀ new, event = some new → new.Sound cash
  | .head cursor => Anchored deployment cursor
  | .correct _ c => SoundUpdate env deployment cash (Decodes env) (.correction c)
  | .install snapshot => SoundSnapshot deployment cash snapshot
  | .close | .publish | .remember _ => True

theorem SoundUpdate.stage {reads : ContractLog → Option QuoteEvent → Prop} {update : ChainUpdate}
    {stage : Stage} (hupdate : SoundUpdate env deployment cash reads update)
    (h : Offers reads update stage) : SoundStage env deployment cash stage := by
  cases h with
  | log bytes h => exact ⟨hupdate.1, fun new hnew => hupdate.2 new (hnew ▸ h)⟩
  | head block | correct bytes c => exact hupdate
  | remember c => trivial

theorem PersistentCall.Sound.stage {served : Request} {stage : Stage}
    (hcall : (PersistentCall.request served).Sound env deployment cash)
    (h : served.entry.Brings env stage) : SoundStage env deployment cash stage := by
  obtain ⟨entry, bytes⟩ := served
  cases h with
  | update h =>
    obtain ⟨update, hmem, hoffers⟩ := h
    exact (hcall.1 update hmem).stage hoffers
  | install snapshot buffered => exact hcall.2 snapshot buffered rfl
  | decoded h => exact SoundUpdate.stage hcall h

/-! ### Lanes -/

/-- What a checkpoint asks of the fields of a word. -/
def FieldsValid (fields : Math.LaneSlot0) : Prop :=
  fields.exists_ = true ∧ fields.askFeeBps.toNat ≤ Math.bps.toNat ∧
    fields.bidFeeBps.toNat ≤ Math.bps.toNat ∧ fields.slippageKBps.toNat ≤ Math.bps.toNat

theorem validLane_iff {asset : Address} {lane : Math.LaneState} :
    validLane cash asset lane = true ↔
      asset ≠ 0 ∧ asset ≠ cash ∧ FieldsValid (Math.decodeLaneSlot0 lane.slot0) := by
  have hexists : lane.exists_ = (Math.decodeLaneSlot0 lane.slot0).exists_ := rfl
  have hslippage : ((Math.laneSlot0SlippageKBps lane.slot0).setWidth 256 : U256).toNat =
      (Math.decodeLaneSlot0 lane.slot0).slippageKBps.toNat :=
    Word.toNat_setWidth_of_le (by decide)
  simp only [validLane, FieldsValid, Bool.and_eq_true, bne_iff_ne, decide_eq_true_eq,
    BitVec.le_def, Math.toNat_laneSlot0AskFeeBps, Math.toNat_laneSlot0BidFeeBps, hexists,
    hslippage, and_assoc]

namespace QuoteData

variable {d d' : QuoteData} {asset : Address} {changed : Bool}

theorem LanesValid.setLane {lane : Math.LaneState} (h : d.LanesValid cash)
    (hlane : validLane cash asset lane = true) : (d.setLane asset lane).LanesValid cash := by
  refine ⟨h.1, fun other lane' hother => ?_⟩
  by_cases heq : other = asset
  · rw [heq, lane_setLane] at hother
    rw [heq, ← Option.some.inj hother]
    exact hlane
  · rw [QuoteData.lane, QuoteData.setLane, Finmap.lookup_insert_of_ne _ heq] at hother
    exact h.2 other lane' hother

/-- A lane that keeps its asset and whose fields stay valid. -/
theorem LanesValid.moves {R : Math.LaneState → Math.LaneState → Prop} (h : d.LanesValid cash)
    (hmoves : MovesLane asset R d d')
    (hfields : ∀ lane lane', R lane lane' → FieldsValid (Math.decodeLaneSlot0 lane.slot0) →
      FieldsValid (Math.decodeLaneSlot0 lane'.slot0)) : d'.LanesValid cash := by
  obtain ⟨lane, lane', hlane, hR, rfl⟩ := hmoves
  obtain ⟨hzero, hcash, hvalid⟩ := validLane_iff.mp (h.2 asset lane hlane)
  exact h.setLane (validLane_iff.mpr ⟨hzero, hcash, hfields lane lane' hR hvalid⟩)

/-- A lane that is added keeps its fees and its slope, which are zero in the default lane. -/
theorem LanesValid.addLane (h : d.LanesValid cash) (hasset : asset ≠ 0 ∧ asset ≠ cash)
    (hadd : d.addLane asset = (d', .ok changed)) : d'.LanesValid cash := by
  rw [QuoteData.addLane] at hadd
  split at hadd
  · cases hadd
  dsimp only at hadd
  split_ifs at hadd
  · exact (Prod.mk.inj hadd).1 ▸ h
  obtain rfl := (Prod.mk.inj hadd).1
  refine h.setLane (validLane_iff.mpr ⟨hasset.1, hasset.2, ?_⟩)
  rw [FieldsValid, Math.setLaneSlot0Paused_view, Math.setLaneSlot0Exists_view]
  cases hlane : d.lane asset with
  | none => decide
  | some lane => exact ⟨rfl, (validLane_iff.mp (h.2 asset lane hlane)).2.2.2⟩

/-- **An accepted event keeps the lanes valid if it is sound.** -/
theorem LanesValid.applyEvent {event : QuoteEvent} (h : d.LanesValid cash)
    (hsound : event.Sound cash) (hevent : d.applyEvent event = (d', .ok changed)) :
    d'.LanesValid cash := by
  have hconfined := applyEvent_confined hevent
  cases event with
  | laneAdded asset => exact h.addLane hsound hevent
  | laneRemoved asset =>
    obtain rfl := hconfined
    refine ⟨h.1, fun other lane hother => h.2 other lane ?_⟩
    by_cases heq : other = asset
    · rw [heq, QuoteData.lane, withoutLane, Finmap.lookup_erase] at hother
      cases hother
    · rwa [QuoteData.lane, withoutLane, Finmap.lookup_erase_ne heq] at hother
  | laneUpdated asset slot0 =>
    refine h.moves hconfined ?_
    rintro lane - rfl -
    exact (validLane_iff.mp hsound).2.2
  | slippageKSet asset newK =>
    rw [QuoteData.applyEvent] at hevent
    split_ifs at hevent with hwide
    · cases hevent
    have hle : (newK.setWidth 256 : U256).toNat ≤ Math.bps.toNat :=
      BitVec.le_def.mp (BitVec.not_lt.mp hwide)
    rw [Word.toNat_setWidth_of_le (by decide)] at hle
    refine h.moves hconfined fun lane lane' hedit hvalid => ?_
    rw [hedit.1]
    exact ⟨hvalid.1, hvalid.2.1, hvalid.2.2.1, hle⟩
  | lanePausedSet asset paused | pricePushThresholdSet asset threshold enabled
  | blockDelaySet asset blockDelay =>
    refine h.moves hconfined fun lane lane' hedit hvalid => ?_
    rw [hedit.1]
    exact hvalid
  | partnerInfoSet router asset fee | partnerFeeSet router asset fee =>
    rcases hconfined with rfl | ⟨verified, verified', -, -, -, rfl⟩
    · exact h
    · exact h
  | whitelistSet router whitelisted | blacklistFeeMultiplierSet multiplier =>
    obtain rfl := hconfined
    exact h
  | depositExecuted asset principal | withdrawalExecuted asset principal =>
    refine h.moves hconfined fun lane lane' hmoved hvalid => ?_
    rw [hmoved.2]
    exact hvalid
  | sync asset assetReserve cashReserve =>
    have hcash : (d.withCashReserve cashReserve).LanesValid cash := h
    rw [Confined, SyncsReserves] at hconfined
    split_ifs at hconfined
    · exact hconfined ▸ hcash
    · obtain ⟨lane, hlane, rfl⟩ := hconfined
      exact hcash.setLane (h.2 asset lane hlane)
  | implementationUpgraded implementation => exact hconfined.elim

end QuoteData

/-! ### Positions -/

open QuoteReducer (mergeHead publishEvent)

theorem Anchored.mergeHead {current head : ChainCursor} (hcurrent : Anchored deployment current)
    (hhead : Anchored deployment head) : Anchored deployment (mergeHead current head) := by
  obtain ⟨hchain, hheight, hhash, hevent, htransport⟩ := hcurrent
  have hheadHash := hhead.hash
  have hheadTransport := hhead.transport
  rw [QuoteReducer.mergeHead]
  split_ifs <;> exact ⟨hchain, hheight, by assumption, hevent, by assumption⟩

theorem Anchored.publishEvent {published : Option ChainCursor} {cursor : ChainCursor}
    (hpublished : ∀ x, published = some x → Anchored deployment x)
    (hcursor : Anchored deployment cursor) :
    Anchored deployment (publishEvent published cursor) := by
  cases published with
  | none => exact hcursor
  | some head =>
    have hhead := hpublished head rfl
    rw [QuoteReducer.publishEvent]
    split_ifs
    · exact ⟨hhead.chain, hhead.height, hhead.hash, hhead.event, hcursor.transport⟩
    · exact hhead
    · exact ⟨hcursor.chain, hcursor.height, hcursor.hash, hcursor.event, hcursor.transport⟩
    · exact hcursor

theorem anchored_takes {stage : Stage} (hs : ∀ x, s.reducer.cursor = some x → Anchored deployment x)
    (h : Takes env s stage t) (hstage : SoundStage env deployment cash stage) :
    ∀ x, t.reducer.cursor = some x → Anchored deployment x := by
  cases stage with
  | close | publish =>
    obtain rfl := h
    exact hs
  | log bytes cursor event =>
    rcases applyDecodedLog_cases h with
      ⟨e, hout, -⟩ | ⟨-, -, -, -, rfl⟩ | ⟨new, data, changed, -, -, -, -, -, -, rfl⟩
    · cases hout
    · exact hs
    · rintro _ ⟨⟩
      exact .publishEvent hs hstage.1
  | head cursor =>
    rcases applyHead_cases h with ⟨e, hout, -⟩ | ⟨reducer, -, hobserve, rfl⟩
    · cases hout
    rcases QuoteReducer.observeHead_cases hobserve with
      ⟨-, -, -, rfl⟩ | ⟨current, hcurrent, -, -, rfl⟩ | ⟨-, rfl⟩
    · exact hs
    · rintro _ ⟨⟩
      exact (hs current hcurrent).mergeHead hstage
    · rintro _ ⟨⟩
      exact hstage
  | correct bytes c =>
    obtain ⟨-, -, -, hcursor⟩ := intoCorrectedCore_leaves h
    rw [hcursor]
    rintro _ ⟨⟩
    exact hstage.1
  | remember c =>
    rcases observeCoveredCorrection_cases h with ⟨e, hout, -⟩ | ⟨-, rfl⟩ | ⟨-, rfl, -⟩
    · cases hout
    · exact hs
    · exact hs
  | install snapshot =>
    obtain rfl := installSnapshot_eq_ok h.2
    rintro _ ⟨⟩
    exact hstage.cursor

/-! ### Runs -/

/-- The checkpoint is one a reducer took for the deployment. -/
def TakenFor (deployment : DeploymentConfig) (c : Checkpoint) : Prop :=
  ∃ reducer : QuoteReducer, reducer.checkpoint deployment = some c

/-- The indexer serves the deployment from sound data, and its checkpoint has a valid structure. -/
structure Restartable (deployment : DeploymentConfig) (cash : Address) (s : QuoteIndexer) :
    Prop where
  deployment_eq : s.deployment = deployment
  held : DataHeld (QuoteData.LanesValid cash) s
  cursor : ∀ x, s.reducer.cursor = some x → Anchored deployment x
  taken : ∀ c, s.stableCheckpoint = some c → TakenFor deployment c ∧ c.hasValidStructure = true

theorem Restartable.kept (hs : Restartable deployment cash s)
    (hheld : DataHeld (QuoteData.LanesValid cash) t)
    (hcursor : ∀ x, t.reducer.cursor = some x → Anchored deployment x)
    (hserves : t.deployment = s.deployment ∧ t.stableCheckpoint = s.stableCheckpoint) :
    Restartable deployment cash t := by
  refine ⟨hserves.1.trans hs.deployment_eq, hheld, hcursor, fun c hc => hs.taken c ?_⟩
  rw [← hserves.2]
  exact hc

theorem Restartable.closed (hs : Restartable deployment cash s) :
    Restartable deployment cash s.markNotReady :=
  hs.kept ⟨hs.held.current, hs.held.images⟩ hs.cursor ⟨rfl, rfl⟩

/-- Only an installed snapshot replaces the checkpoint. -/
theorem serves_takes {stage : Stage} (h : Takes env s stage t)
    (hstage : ∀ snapshot, stage ≠ .install snapshot) :
    t.deployment = s.deployment ∧ t.stableCheckpoint = s.stableCheckpoint := by
  cases stage with
  | close | publish =>
    obtain rfl := h
    exact ⟨rfl, rfl⟩
  | log bytes cursor event => exact applyDecodedLog_serves h
  | head cursor =>
    rcases applyHead_cases h with ⟨e, hout, -⟩ | ⟨reducer, -, -, rfl⟩
    · cases hout
    · exact ⟨rfl, rfl⟩
  | correct bytes c =>
    obtain ⟨hdeployment, hcheckpoint, -⟩ := intoCorrectedCore_leaves h
    exact ⟨hdeployment, hcheckpoint⟩
  | remember c =>
    rcases observeCoveredCorrection_cases h with ⟨e, hout, -⟩ | ⟨-, rfl⟩ | ⟨-, rfl, -⟩
    · cases hout
    · exact ⟨rfl, rfl⟩
    · exact ⟨rfl, rfl⟩
  | install snapshot => exact absurd rfl (hstage snapshot)

section

variable (hconfig : deployment.validate = .ok ()) (hcash : cash ≠ 0)

include hconfig hcash

/-- **A checkpoint of sound data at a hashed position has a valid structure.** -/
theorem hasValidStructure_of_sound {reducer : QuoteReducer} {x : ChainCursor} {c : Checkpoint}
    (hlanes : reducer.data.LanesValid cash) (hcursor : reducer.cursor = some x)
    (hx : Anchored deployment x) (hhash : x.blockHash.isSome)
    (hc : reducer.checkpoint deployment = some c) : c.hasValidStructure = true := by
  rw [QuoteReducer.checkpoint, hcursor, Option.map_some] at hc
  obtain rfl := Option.some.inj hc
  obtain ⟨hchain, hcore, himplementation, hcode, -, hzero, hnodup⟩ :=
    DeploymentConfig.validate_eq_ok hconfig
  obtain ⟨hash, hhash⟩ := Option.isSome_iff_exists.mp hhash
  have hnonzero : hash ≠ 0 := fun heq => hx.hash (heq ▸ hhash)
  have htransport : x.sourceSubIndex = none ∨ x.sourceSequence.isSome := by
    cases hsub : x.sourceSubIndex with
    | none => exact .inl rfl
    | some sub => exact .inr (hx.transport (by rw [hsub]; rfl))
  simp only [Checkpoint.hasValidStructure, Checkpoint.lanesAreValid, Bool.and_eq_true,
    Bool.or_eq_true, bne_iff_ne, beq_iff_eq, decide_eq_true_eq, List.mem_toFinset,
    Option.isNone_iff_eq_none, hhash, Option.any_some, Option.all_eq_true, hlanes.1]
  exact ⟨⟨⟨⟨⟨⟨⟨⟨⟨⟨⟨⟨hchain, hx.chain⟩, hx.height⟩, hnonzero⟩, hx.event⟩, htransport⟩,
    himplementation⟩, hcode⟩, hcore⟩, hcash⟩,
    List.toFinset_card_of_nodup hnodup⟩, hzero⟩, fun asset _ => hlanes.2 asset⟩

theorem Restartable.retaken (hdeployment : t.deployment = deployment)
    (hheld : DataHeld (QuoteData.LanesValid cash) t)
    (hcursor : ∀ x, t.reducer.cursor = some x → Anchored deployment x ∧ x.blockHash.isSome)
    (hcheckpoint : t.stableCheckpoint = t.reducer.checkpoint deployment) :
    Restartable deployment cash t := by
  refine ⟨hdeployment, hheld, fun x hx => (hcursor x hx).1, fun c hc => ?_⟩
  rw [hcheckpoint] at hc
  obtain ⟨x, hx, -⟩ := Option.map_eq_some_iff.mp hc
  obtain ⟨hanchored, hhash⟩ := hcursor x hx
  exact ⟨⟨t.reducer, hc⟩,
    hasValidStructure_of_sound hconfig hcash hheld.current hx hanchored hhash hc⟩

/-- A sound snapshot makes any indexer of the deployment restartable. -/
theorem restartable_install {snapshot : BootstrapSnapshot} (hdeployment : s.deployment = deployment)
    (hsound : SoundSnapshot deployment cash snapshot)
    (h : s.installSnapshot snapshot = (t, .ok ())) : Restartable deployment cash t := by
  obtain rfl := installSnapshot_eq_ok h
  refine .retaken hconfig hcash hdeployment
    ⟨⟨hsound.cash_eq, hsound.lanes⟩, fun _ hb => nomatch hb⟩ ?_ (by rw [← hdeployment])
  rintro _ ⟨⟩
  exact ⟨hsound.cursor, hsound.hashed⟩

/-- **A stage with sound data keeps an indexer restartable.** -/
theorem Restartable.takes {stage : Stage} (hs : Restartable deployment cash s)
    (h : Takes env s stage t) (hstage : SoundStage env deployment cash stage) :
    Restartable deployment cash t := by
  cases hinstall : stage with
  | install snapshot =>
    subst hinstall
    exact restartable_install hconfig hcash hs.deployment_eq hstage h.2
  | _ =>
    have hne : ∀ snapshot, stage ≠ .install snapshot := fun _ heq => nomatch hinstall.symm.trans heq
    refine hs.kept (hs.held.takes h ?_ fun snapshot heq => absurd heq (hne snapshot))
      (anchored_takes hs.cursor h hstage) (serves_takes h hne)
    intro event hcarries d d' changed hd happly
    refine hd.applyEvent ?_ happly
    cases hcarries with
    | log bytes cursor event => exact hstage.2 event rfl
    | correct bytes hlog hdecode => exact hstage.2 _ hlog event hdecode

theorem Restartable.staged {offers : Stage → Prop} (hs : Restartable deployment cash s)
    (h : StagedBy env offers s t)
    (hsound : ∀ stage, offers stage → SoundStage env deployment cash stage) :
    Restartable deployment cash t :=
  h.invariant (fun _ hs => hs.closed)
    (fun _ hs => hs.kept ⟨hs.held.current, hs.held.images⟩ hs.cursor ⟨rfl, rfl⟩)
    (fun _ stage _ htakes hoffers hs => hs.takes hconfig hcash htakes (hsound stage hoffers)) hs

/-- **A call with sound arguments keeps an indexer restartable**, accepted or rejected. -/
theorem Restartable.step {call : PersistentCall} (hs : Restartable deployment cash s)
    (hcall : call.Sound env deployment cash) : Restartable deployment cash (call.step env s) := by
  cases call with
  | request served =>
    exact hs.staged hconfig hcash (served.stagedBy env s) fun _ hbrings => hcall.stage hbrings
  | setCanonicalFloor cursor =>
    rw [PersistentCall.step, PersistentCall.perform, QuoteIndexer.setCanonicalFloor]
    cases hcurrent : s.reducer.cursor with
    | none => exact hs
    | some current =>
      dsimp only
      split_ifs with hchain hsame
      · exact hs.closed
      · exact hs.closed
      -- the floor has the hash of the published position, which therefore has one
      refine .retaken hconfig hcash hs.deployment_eq ?_ (fun x hx => ⟨hs.cursor x hx, ?_⟩)
        (by rw [← hs.deployment_eq])
      · exact hs.held.journals hs.held.current
          (.one (.advanceFloor cursor) rfl (by simp [JournalOp.image]))
      · obtain rfl : current = x := Option.some.inj (hcurrent.symm.trans hx)
        simp only [not_or] at hsame
        simpa [Option.isSome_iff_ne_none] using hsame.2.2.2.2.1

/-- After an accepted bootstrap, every run of sound calls is restartable. -/
theorem restartable_of_run {start₀ start : QuoteIndexer} {bytes : ImageCost}
    {snapshot : BootstrapSnapshot} {buffered : List ChainUpdate}
    (hdeployment : start₀.deployment = deployment)
    (hcall : (PersistentCall.request ⟨.call (.bootstrapNormalized snapshot buffered), bytes⟩).Sound
      env deployment cash)
    (hboot : start₀.bootstrapNormalized env bytes snapshot buffered = (start, .ok ()))
    (hrun : Run (PersistentCall.step env) (fun _ call => call.Sound env deployment cash) start s) :
    Restartable deployment cash s := by
  refine hrun.invariant (P := Restartable deployment cash) ?_ fun _ _ hs hcall =>
    hs.step hconfig hcash hcall
  cases hvalid : start₀.validateSnapshot snapshot with
  | error e =>
    rw [bootstrapNormalized_of_refused hvalid] at hboot
    cases hboot
  | ok u =>
    obtain ⟨installed, hinstall, hstaged⟩ := staged_buffered hvalid fun _ => id
    rw [hboot] at hstaged
    have hinstalled : Restartable deployment cash installed :=
      restartable_install hconfig hcash hdeployment (hcall.2 snapshot buffered rfl) hinstall
    exact hinstalled.staged hconfig hcash hstaged fun _ hoffers => hcall.stage (.update hoffers)

end

/-! ### Restoring what was taken -/

theorem sameAddressSet_of_perm {left right : List Address} (h : left.Perm right) :
    sameAddressSet left right = true := by
  rw [sameAddressSet, h.length_eq]
  simp only [BEq.rfl, Bool.true_and, List.all_eq_true, List.contains_iff_mem]
  intro asset hasset
  exact h.subset hasset

/-- The checkpoints differ in the order of the explicit lanes only. -/
def Checkpoint.SameUpToLaneOrder (c c' : Checkpoint) : Prop :=
  c.explicitLaneAssets.Perm c'.explicitLaneAssets ∧
    c = { c' with explicitLaneAssets := c.explicitLaneAssets }

variable {c c' : Checkpoint}

theorem Checkpoint.SameUpToLaneOrder.hasValidStructure_eq
    (h : c.SameUpToLaneOrder c') : c.hasValidStructure = c'.hasValidStructure := by
  obtain ⟨hperm, hsame⟩ := h
  have hset : c.explicitLaneAssets.toFinset = c'.explicitLaneAssets.toFinset :=
    List.toFinset_eq_of_perm _ _ hperm
  rw [hsame]
  simp only [hasValidStructure, lanesAreValid, hset, hperm.length_eq]

/-- **A deployment restores its own checkpoint if the structure is valid** and it names the version
of the mathematics. -/
theorem fromCheckpoint_of_valid (htaken : TakenFor deployment c') (hsame : c.SameUpToLaneOrder c')
    (hrouter : deployment.verifiedRouter = none) (hvalid : c'.hasValidStructure = true)
    (hversion : deployment.contractCompatibilityVersion = mathCompatibilityVersion) :
    ∃ restored, QuoteIndexer.fromCheckpoint c deployment = .ok restored ∧
      restored.reducer.data.state = c'.state := by
  obtain ⟨reducer, htaken⟩ := htaken
  obtain ⟨cursor, -, rfl⟩ := Option.map_eq_some_iff.mp htaken
  have hstructure := hsame.hasValidStructure_eq.trans hvalid
  obtain ⟨hperm, hfields⟩ := hsame
  have hcompatible : c.isCompatible deployment = true := by
    rw [hfields] at hstructure ⊢
    simp [Checkpoint.isCompatible, sameAddressSet_of_perm hperm, hversion, hstructure]
  rw [QuoteIndexer.fromCheckpoint, if_neg (by simp [hcompatible]), if_neg (by simp [hrouter])]
  exact ⟨_, rfl, by rw [hfields]; rfl⟩

end Lunarbase.Client
