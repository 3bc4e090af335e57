import Lunarbase.Client.Checkpoint
import Lunarbase.Client.Finality
import Lunarbase.EventWorker.Event
import Mathlib.Data.Finset.Sort
import Mathlib.Data.String.Basic

/-!
# Indexer — Checkpoint

The persisted form of a checkpoint (`lunarbase-indexer/src/checkpoint.rs`).  Addresses and hashes
are hexadecimal texts, words decimal ones; lanes and explicit lanes are sorted by their texts.
Decoding parses every text, refuses duplicates and then checks the structure of the whole.
-/

namespace Lunarbase.Indexer

open Client (Checkpoint ChainCursor Commitment Network)
open EventWorker (Text addressText hashText decimal addressText_injective hashText_injective
  decimal_injective)
open Math (LaneState)
open List Except Finmap

inductive CommitmentDto where
  | realtime
  | canonical
  | finalized
  deriving DecidableEq, Repr

structure CursorDto where
  chainId : Nat
  blockNumber : Nat
  executionBlockNumber : Nat
  blockHash : Option Text
  transactionIndex : Option Nat
  logIndex : Option Nat
  sourceSequence : Option Nat
  sourceSubIndex : Option Nat
  commitment : CommitmentDto

structure LaneDto where
  asset : Text
  slot0 : Text
  assetReserve : BitVec 128
  totalPrincipalAmount : BitVec 128

structure StateDto where
  cash : Text
  cashReserve : BitVec 128
  lanes : List LaneDto
  blacklistFeeMultiplier : Text

structure CheckpointDto where
  schemaVersion : Nat
  mathCompatibilityVersion : String
  expectedImplementation : Text
  expectedImplementationCodeHash : Text
  chainId : Nat
  network : Network
  core : Text
  deploymentBlock : Nat
  explicitLaneAssets : List Text
  cursor : CursorDto
  state : StateDto

/-- A text the primitive types refuse, or a value that violates the invariants of a checkpoint. -/
inductive CheckpointError where
  | primitive (text : Text)
  | invalid (reason : String)
  deriving DecidableEq, Repr

/-! ### Texts -/

def addressHex (value : Address) : Text := addressText value

def hashHex (value : B256) : Text := hashText value

def wordText (value : U256) : Text := decimal value.toNat

theorem wordText_injective : Function.Injective wordText := fun _ _ h =>
  BitVec.eq_of_toNat_eq (decimal_injective h)

/-- `from_str` of the primitive types. -/
structure Parsers where
  address : Text → Option Address
  hash : Text → Option B256
  u256 : Text → Option U256

/-- Every value is read from the text it is written as. -/
structure Parsers.ReadsBack (p : Parsers) : Prop where
  address : ∀ value, p.address (addressHex value) = some value
  hash : ∀ value, p.hash (hashHex value) = some value
  u256 : ∀ value, p.u256 (wordText value) = some value

/-- Parsers that take what is written and nothing else. -/
noncomputable def strictParsers : Parsers where
  address := Function.partialInv addressHex
  hash := Function.partialInv hashHex
  u256 := Function.partialInv wordText

theorem strictParsers_readsBack : strictParsers.ReadsBack where
  address := Function.partialInv_left addressText_injective
  hash := Function.partialInv_left hashText_injective
  u256 := Function.partialInv_left wordText_injective

variable (p : Parsers)

def parseAddress (text : Text) : Except CheckpointError Address :=
  .ofOption (.primitive text) (p.address text)

def parseHash (text : Text) : Except CheckpointError B256 :=
  .ofOption (.primitive text) (p.hash text)

def parseU256 (text : Text) : Except CheckpointError U256 :=
  .ofOption (.primitive text) (p.u256 text)

/-- The order of the texts of addresses. -/
def HexLe (left right : Address) : Prop := addressHex left ≤ addressHex right

instance : DecidableRel HexLe := fun left right =>
  inferInstanceAs (Decidable (addressHex left ≤ addressHex right))

instance : IsTrans Address HexLe := ⟨fun _ _ _ hab hbc => le_trans hab hbc⟩

instance : Std.Antisymm HexLe := ⟨fun _ _ hab hba => addressText_injective (le_antisymm hab hba)⟩

instance : Std.Total HexLe := ⟨fun left right => le_total (addressHex left) (addressHex right)⟩

/-! ### Encoding -/

def commitmentDto : Commitment → CommitmentDto
  | .realtime => .realtime
  | .canonical => .canonical
  | .finalized => .finalized

def cursorDto (cursor : ChainCursor) : CursorDto where
  chainId := cursor.chainId
  blockNumber := cursor.blockNumber
  executionBlockNumber := cursor.executionBlockNumber
  blockHash := cursor.blockHash.map hashHex
  transactionIndex := cursor.transactionIndex
  logIndex := cursor.logIndex
  sourceSequence := cursor.sourceSequence
  sourceSubIndex := cursor.sourceSubIndex
  commitment := commitmentDto cursor.commitment

def laneDto (asset : Address) (lane : LaneState) : LaneDto :=
  ⟨addressHex asset, wordText lane.slot0, lane.assetReserve, lane.totalPrincipalAmount⟩

/-- The lanes in the order of their texts. -/
def laneDtos (lanes : Finmap fun _ : Address => LaneState) : List LaneDto :=
  (lanes.keys.sort HexLe).filterMap fun asset => (lanes.lookup asset).map (laneDto asset)

/-- `CheckpointDto::from`. -/
def encode (c : Checkpoint) : CheckpointDto where
  schemaVersion := c.schemaVersion
  mathCompatibilityVersion := c.mathCompatibilityVersion
  expectedImplementation := addressHex c.expectedImplementation
  expectedImplementationCodeHash := hashHex c.expectedImplementationCodeHash
  chainId := c.chainId
  network := c.network
  core := addressHex c.core
  deploymentBlock := c.deploymentBlock
  explicitLaneAssets := (c.explicitLaneAssets.map addressHex).mergeSort fun left right =>
    decide (left ≤ right)
  cursor := cursorDto c.cursor
  state :=
    { cash := addressHex c.state.cash
      cashReserve := c.state.cashReserve
      lanes := laneDtos c.state.lanes
      blacklistFeeMultiplier := wordText c.state.blacklistFeeMultiplier }

/-! ### Decoding -/

def decodeCommitment : CommitmentDto → Commitment
  | .realtime => .realtime
  | .canonical => .canonical
  | .finalized => .finalized

def decodeHash : Option Text → Except CheckpointError (Option B256)
  | none => .ok none
  | some text => do
    let hash ← parseHash p text
    .ok (some hash)

def decodeCursor (cursor : CursorDto) : Except CheckpointError ChainCursor := do
  let blockHash ← decodeHash p cursor.blockHash
  .ok
    { chainId := cursor.chainId
      blockNumber := cursor.blockNumber
      executionBlockNumber := cursor.executionBlockNumber
      blockHash := blockHash
      transactionIndex := cursor.transactionIndex
      logIndex := cursor.logIndex
      sourceSequence := cursor.sourceSequence
      sourceSubIndex := cursor.sourceSubIndex
      commitment := decodeCommitment cursor.commitment }

def decodeLanes (lanes : Finmap fun _ : Address => LaneState) :
    List LaneDto → Except CheckpointError (Finmap fun _ : Address => LaneState)
  | [] => .ok lanes
  | lane :: rest => do
    let asset ← parseAddress p lane.asset
    let slot0 ← parseU256 p lane.slot0
    if asset ∈ lanes then .error (.invalid "duplicate lane asset")
    else
      decodeLanes (lanes.insert asset ⟨slot0, lane.assetReserve, lane.totalPrincipalAmount⟩) rest

def decodeExplicitLanes (parsed : List Address) :
    List Text → Except CheckpointError (List Address)
  | [] => .ok parsed
  | text :: rest => do
    let asset ← parseAddress p text
    if asset ∈ parsed then .error (.invalid "duplicate explicit lane asset")
    else decodeExplicitLanes (parsed ++ [asset]) rest

/-- `Checkpoint::try_from`. -/
def decode (dto : CheckpointDto) : Except CheckpointError Checkpoint := do
  let lanes ← decodeLanes p ∅ dto.state.lanes
  let explicitLaneAssets ← decodeExplicitLanes p [] dto.explicitLaneAssets
  let expectedImplementation ← parseAddress p dto.expectedImplementation
  let expectedImplementationCodeHash ← parseHash p dto.expectedImplementationCodeHash
  let core ← parseAddress p dto.core
  let cursor ← decodeCursor p dto.cursor
  let cash ← parseAddress p dto.state.cash
  let blacklistFeeMultiplier ← parseU256 p dto.state.blacklistFeeMultiplier
  let checkpoint : Checkpoint :=
    { schemaVersion := dto.schemaVersion
      mathCompatibilityVersion := dto.mathCompatibilityVersion
      expectedImplementation := expectedImplementation
      expectedImplementationCodeHash := expectedImplementationCodeHash
      chainId := dto.chainId
      network := dto.network
      core := core
      deploymentBlock := dto.deploymentBlock
      explicitLaneAssets := explicitLaneAssets
      cursor := cursor
      state :=
        { cash := cash
          cashReserve := dto.state.cashReserve
          lanes := lanes
          blacklistFeeMultiplier := blacklistFeeMultiplier } }
  if !checkpoint.hasValidStructure then
    .error (.invalid "checkpoint violates structural state invariants")
  else .ok checkpoint

/-! ### Round trip -/

theorem decodeCommitment_commitmentDto (commitment : Commitment) :
    decodeCommitment (commitmentDto commitment) = commitment := by
  cases commitment <;> rfl

/-- The explicit lanes in the order of their texts. -/
def sortedLanes (assets : List Address) : List Address :=
  assets.mergeSort fun left right => decide (addressHex left ≤ addressHex right)

theorem map_addressHex_sortedLanes (assets : List Address) :
    (sortedLanes assets).map addressHex =
      (assets.map addressHex).mergeSort fun left right => decide (left ≤ right) :=
  map_mergeSort fun _ _ _ _ => rfl

theorem sortedLanes_perm (assets : List Address) : (sortedLanes assets).Perm assets :=
  mergeSort_perm assets _

section

variable {p} (hp : p.ReadsBack)

include hp

theorem parseAddress_addressHex (value : Address) :
    parseAddress p (addressHex value) = .ok value := by
  rw [parseAddress, hp.address]
  rfl

theorem parseHash_hashHex (value : B256) : parseHash p (hashHex value) = .ok value := by
  rw [parseHash, hp.hash]
  rfl

theorem parseU256_wordText (value : U256) : parseU256 p (wordText value) = .ok value := by
  rw [parseU256, hp.u256]
  rfl

theorem decodeCursor_cursorDto (cursor : ChainCursor) :
    decodeCursor p (cursorDto cursor) = .ok cursor := by
  have hhash : decodeHash p (cursor.blockHash.map hashHex) = .ok cursor.blockHash := by
    cases cursor.blockHash with
    | none => rfl
    | some hash => simp [decodeHash, parseHash_hashHex hp]
  simp [decodeCursor, cursorDto, hhash, decodeCommitment_commitmentDto]

variable {assets parsed : List Address}

/-- Lanes of distinct assets are read into the map one after another. -/
theorem decodeLanes_filterMap (lanes : Finmap fun _ : Address => LaneState) (hnodup : assets.Nodup)
    {read : Finmap fun _ : Address => LaneState} (hread : ∀ asset ∈ assets, asset ∉ read) :
    ∃ decoded, decodeLanes p read (assets.filterMap fun asset =>
        (lanes.lookup asset).map (laneDto asset)) = .ok decoded ∧
      ∀ asset, decoded.lookup asset =
        if asset ∈ assets ∧ (lanes.lookup asset).isSome then lanes.lookup asset
        else read.lookup asset := by
  induction assets generalizing read with
  | nil => exact ⟨read, rfl, by simp⟩
  | cons first rest ih =>
    obtain ⟨hfirst, hrest⟩ := nodup_cons.mp hnodup
    cases hlane : lanes.lookup first with
    | none =>
      obtain ⟨decoded, hdecoded, hlookup⟩ :=
        ih hrest fun asset hasset => hread asset (mem_cons_of_mem _ hasset)
      refine ⟨decoded, by simpa [hlane] using hdecoded, fun asset => ?_⟩
      rw [hlookup asset]
      by_cases hsame : asset = first
      · subst hsame
        simp [hlane]
      · simp [hsame]
    | some lane =>
      have hfresh : first ∉ read := hread first mem_cons_self
      have hlater : ∀ asset ∈ rest, asset ∉ read.insert first lane := by
        intro asset hasset hmem
        rcases (mem_insert).mp hmem with rfl | hold
        · exact hfirst hasset
        · exact hread asset (mem_cons_of_mem _ hasset) hold
      obtain ⟨decoded, hdecoded, hlookup⟩ := ih hrest hlater
      refine ⟨decoded, ?_, fun asset => ?_⟩
      · simpa [hlane, decodeLanes, laneDto, parseAddress_addressHex hp, parseU256_wordText hp,
          hfresh] using hdecoded
      rw [hlookup asset]
      by_cases hsame : asset = first
      · subst hsame
        simp [hfirst, hlane]
      · simp [hsame, lookup_insert_of_ne _ hsame]

theorem decodeLanes_laneDtos (lanes : Finmap fun _ : Address => LaneState) :
    decodeLanes p ∅ (laneDtos lanes) = .ok lanes := by
  obtain ⟨decoded, hdecoded, hlookup⟩ := decodeLanes_filterMap hp lanes
    (Finset.sort_nodup lanes.keys HexLe) fun asset _ => notMem_empty
  rw [laneDtos, hdecoded]
  congr 1
  refine ext_lookup fun asset => ?_
  rw [hlookup asset]
  by_cases hmem : asset ∈ lanes
  · have hsome : (lanes.lookup asset).isSome := lookup_isSome.mpr hmem
    rw [if_pos ⟨(Finset.mem_sort _).mpr (mem_keys.mpr hmem), hsome⟩]
  · rw [if_neg fun h => hmem (lookup_isSome.mp h.2), lookup_empty, lookup_eq_none.mpr hmem]

/-- Texts of distinct assets are read one after another. -/
theorem decodeExplicitLanes_map (hnodup : (parsed ++ assets).Nodup) :
    decodeExplicitLanes p parsed (assets.map addressHex) = .ok (parsed ++ assets) := by
  induction assets generalizing parsed with
  | nil => simp [decodeExplicitLanes]
  | cons first rest ih =>
    have hassoc : parsed ++ first :: rest = parsed ++ [first] ++ rest := by simp
    have hfresh : first ∉ parsed := by
      intro hmem
      exact (nodup_append.mp hnodup).2.2 first hmem first mem_cons_self rfl
    rw [hassoc] at hnodup ⊢
    rw [map_cons, decodeExplicitLanes, parseAddress_addressHex hp]
    simpa [hfresh] using ih hnodup

/-- **Decoding what was encoded gives the checkpoint back**, up to the order of its explicit lanes:
where these are distinct, only the check of the whole can fail. -/
theorem decode_encode {c : Checkpoint} (hnodup : c.explicitLaneAssets.Nodup) :
    decode p (encode c) = if c.hasValidStructure then
        .ok { c with explicitLaneAssets := sortedLanes c.explicitLaneAssets }
      else .error (.invalid "checkpoint violates structural state invariants") := by
  have hperm := sortedLanes_perm c.explicitLaneAssets
  have hlanes : decodeExplicitLanes p [] ((sortedLanes c.explicitLaneAssets).map addressHex) =
      .ok (sortedLanes c.explicitLaneAssets) :=
    decodeExplicitLanes_map hp (hperm.nodup_iff.mpr hnodup)
  have hstructure : Checkpoint.hasValidStructure
      { c with explicitLaneAssets := sortedLanes c.explicitLaneAssets } = c.hasValidStructure :=
    Checkpoint.SameUpToLaneOrder.hasValidStructure_eq ⟨hperm, rfl⟩
  simp only [decode, encode, decodeLanes_laneDtos hp, ← map_addressHex_sortedLanes, hlanes,
    parseAddress_addressHex hp, parseHash_hashHex hp, parseU256_wordText hp,
    decodeCursor_cursorDto hp, ok_bind, hstructure]
  cases c.hasValidStructure <;> rfl

end

/-! ### Restart -/

open Client

/-- The checkpoint survives its persisted form, and the deployment restores its state. -/
def Restorable (deployment : DeploymentConfig) (c : Checkpoint) : Prop :=
  ∃ decoded, decode p (encode c) = .ok decoded ∧ decoded.SameUpToLaneOrder c ∧
    ∃ restored, QuoteIndexer.fromCheckpoint decoded deployment = .ok restored ∧
      restored.reducer.data.state = c.state

/-- **A checkpoint is restorable if what came in is sound.**  After an accepted bootstrap and any
run of calls, accepted or rejected, whose snapshots, events and cursors are sound, the deployment
restores every checkpoint it is asked for. -/
theorem sound_checkpoint_restorable {p : Parsers} {env : Platform} {deployment : DeploymentConfig}
    {cash : Address} {fresh start s : QuoteIndexer} {bytes : ImageCost}
    {snapshot : BootstrapSnapshot} {buffered : List ChainUpdate} {c : Checkpoint} (hp : p.ReadsBack)
    (hconfig : deployment.validate = .ok ()) (hrouter : deployment.verifiedRouter = none)
    (hcash : cash ≠ 0) (hdeployment : fresh.deployment = deployment)
    (hcall : (PersistentCall.request ⟨.call (.bootstrapNormalized snapshot buffered), bytes⟩).Sound
      env deployment cash)
    (hboot : fresh.bootstrapNormalized env bytes snapshot buffered = (start, .ok ()))
    (hrun : Run (PersistentCall.step env) (fun _ call => call.Sound env deployment cash) start s)
    (hc : s.checkpoint = some c) : Restorable p deployment c := by
  obtain ⟨htaken, hvalid⟩ :=
    (restartable_of_run hconfig hcash hdeployment hcall hboot hrun).taken c hc
  obtain ⟨-, -, -, -, hversion, -, hnodup⟩ := DeploymentConfig.validate_eq_ok hconfig
  have hexplicit : c.explicitLaneAssets = deployment.explicitLaneAssets := by
    obtain ⟨reducer, htaken⟩ := htaken
    obtain ⟨cursor, -, rfl⟩ := Option.map_eq_some_iff.mp htaken
    rfl
  have hdecode := decode_encode hp (c := c) (hexplicit ▸ hnodup)
  rw [if_pos hvalid] at hdecode
  have hsame : Checkpoint.SameUpToLaneOrder
      { c with explicitLaneAssets := sortedLanes c.explicitLaneAssets } c :=
    ⟨sortedLanes_perm c.explicitLaneAssets, rfl⟩
  exact ⟨_, hdecode, hsame, fromCheckpoint_of_valid htaken hsame hrouter hvalid hversion⟩

/-- `smallSnapshot` with its lane set up. -/
def servedSnapshot : BootstrapSnapshot :=
  { smallSnapshot with
    state := { smallSnapshot.state with
      lanes := Finmap.singleton 0xa1 ⟨1 <<< Math.existsShift, 500, 1000⟩ } }

def servedStart : QuoteIndexer :=
  (freshIndexer.bootstrapNormalized referencePlatform freeImages servedSnapshot []).1

theorem servedStart_eq :
    freshIndexer.bootstrapNormalized referencePlatform freeImages servedSnapshot [] =
      (servedStart, .ok ()) :=
  Prod.ext rfl (by decide +kernel)

/-- Logs of block 5, its head, and the end of a recovery range there. -/
def upToFive (logs : List ContractLog) : List PersistentCall :=
  logs.map (fun log => .request (unpricedCall (.applyCoreLogBorrowed log))) ++
    [.request (unpricedCall (.applyCoreUpdate (.head (blockRef 5 0xb5 0xb4)))),
      .setCanonicalFloor (blockAt 5 0xb5)]

/-- The state after the calls. -/
def served (logs : List ContractLog) : QuoteIndexer :=
  (upToFive logs).foldl (PersistentCall.step referencePlatform) servedStart

def addedLane : ContractLog :=
  { coreLog 5 0xb5 [CoreEvent.laneAdded.signatureHash, 0xa2] 0 with data := [] }

/-- The first lane's slot replaced by its exists bit and a price. -/
def pricedLane : ContractLog :=
  { coreLog 5 0xb5 [CoreEvent.laneUpdated.signatureHash, 0xa1] 0 with
    data := replicate 6 0 ++ 1 :: replicate 24 0 ++ [7]
    cursor := { addedLane.cursor with logIndex := some 1 } }

theorem anchored_small {x : ChainCursor} (hchain : x.chainId = 1) (hhash : x.blockHash = some 0xb5)
    (hevent : x.transactionIndex.isSome = x.logIndex.isSome) (hsub : x.sourceSubIndex = none) :
    Anchored smallDeployment x :=
  ⟨hchain, Nat.zero_le _, by rw [hhash]; decide, hevent, by simp [hsub]⟩

theorem sound_log {log : ContractLog} (event : QuoteEvent)
    (hcursor : Anchored smallDeployment log.cursor)
    (hdecode : QuoteIndexer.decodeLog referencePlatform log = .ok (some event))
    (hevent : event.Sound 0xca) :
    (PersistentCall.request (unpricedCall (.applyCoreLogBorrowed log))).Sound referencePlatform
      smallDeployment 0xca := by
  refine ⟨fun update hmem => ?_, nofun⟩
  obtain rfl := mem_singleton.mp hmem
  refine ⟨hcursor, fun new hnew => ?_⟩
  obtain rfl := Option.some.inj (ok.inj (hdecode.symm.trans hnew))
  exact hevent

theorem sound_checkpoint_restorable_two_lanes :
    ∃ c, (served [addedLane, pricedLane]).checkpoint = some c ∧ c.cursor.blockNumber = 5 ∧
      c.state.lanes.keys.card = 2 ∧ Restorable strictParsers smallDeployment c := by
  have hshape : ((served [addedLane, pricedLane]).checkpoint.any fun c =>
      c.cursor.blockNumber == 5 && c.state.lanes.keys.card == 2) = true := by decide +kernel
  obtain ⟨c, hc, hshape⟩ := (Option.any_eq_true _ _).mp hshape
  simp only [Bool.and_eq_true, beq_iff_eq] at hshape
  have hsnapshot : SoundSnapshot smallDeployment 0xca servedSnapshot := by
    refine ⟨⟨rfl, Nat.zero_le _, by decide, rfl, by decide⟩, rfl, rfl, fun asset lane hlane => ?_⟩
    obtain ⟨rfl, rfl⟩ : asset = 0xa1 ∧ lane = ⟨1 <<< Math.existsShift, 500, 1000⟩ := by
      have hmem := (Finmap.mem_singleton _ _ _).mp (mem_of_lookup_eq_some hlane)
      subst hmem
      exact ⟨rfl, (Option.some.inj hlane).symm⟩
    decide +kernel
  have hcall :
      (PersistentCall.request (unpricedCall (.bootstrapNormalized servedSnapshot []))).Sound
      referencePlatform smallDeployment 0xca := by
    refine ⟨by simp [Call.updates, sortChainUpdates, sortFrom, sortSegment], ?_⟩
    rintro _ _ ⟨⟩
    exact hsnapshot
  have hrun : Run (PersistentCall.step referencePlatform)
      (fun _ call => call.Sound referencePlatform smallDeployment 0xca) servedStart
      (served [addedLane, pricedLane]) := by
    refine .more (.more (.more (.more .refl ?_) ?_) ⟨?_, by rintro _ _ ⟨⟩⟩) trivial
    · exact sound_log (.laneAdded 0xa2) (anchored_small rfl rfl rfl rfl)
        (by decide +kernel) ⟨by decide, by decide⟩
    · exact sound_log (.laneUpdated 0xa1 (1 <<< Math.existsShift ||| 7))
        (anchored_small rfl rfl rfl rfl) (by decide +kernel)
        (show validLane _ _ _ = true by decide +kernel)
    · intro update hmem
      obtain rfl := mem_singleton.mp hmem
      exact anchored_small rfl rfl rfl rfl
  exact ⟨c, hc, hshape.1, hshape.2, sound_checkpoint_restorable strictParsers_readsBack
    (by decide +kernel) rfl (show (0xca : Address) ≠ 0 by decide) rfl hcall servedStart_eq hrun hc⟩

/-- The lane's slot replaced by the word 1. -/
def clearedLane : ContractLog := coreLog 5 0xb5 [CoreEvent.laneUpdated.signatureHash, 0xa1] 1

/-- **An update that clears a lane's exists bit leaves a checkpoint that cannot be decoded**, though
every call is accepted and the snapshot was valid. -/
theorem cleared_lane_not_restorable :
    ∃ s c, Run (PersistentCall.step referencePlatform)
        (fun s call => call.accepted referencePlatform s = true) servedStart s ∧
      s.checkpoint = some c ∧ ∀ p : Parsers, p.ReadsBack →
        decode p (encode c) =
          .error (.invalid "checkpoint violates structural state invariants") := by
  have hrun : Run (PersistentCall.step referencePlatform)
      (fun s call => call.accepted referencePlatform s = true) servedStart (served [clearedLane]) :=
    Run.ofList (PersistentCall.accepted referencePlatform) .refl (by decide +kernel)
  have hinvalid : ((served [clearedLane]).checkpoint.any
      fun c => !c.hasValidStructure && c.explicitLaneAssets == []) = true := by decide +kernel
  obtain ⟨c, hc, hinvalid⟩ := (Option.any_eq_true _ _).mp hinvalid
  simp only [Bool.and_eq_true, Bool.not_eq_true', beq_iff_eq] at hinvalid
  refine ⟨_, c, hrun, hc, fun p hp => ?_⟩
  rw [decode_encode hp (by simp [hinvalid.2]), if_neg (by simp [hinvalid.1])]

end Lunarbase.Indexer
