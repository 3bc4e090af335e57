import Lunarbase.TypeScript.Agreement

/-!
# TypeScript — QuoteAgreement

Agreement of the quotes themselves.  A TypeScript state represents a Rust state when it stores the
same values under the canonical addresses; every state in the ranges of the Rust types represents
one.
-/

namespace Lunarbase.Ts

open Except (Agree)
open BitVec Finmap Option Except

/-! ### Related states, requests and outcomes -/

def ofLane (lane : Math.LaneState) : LaneState :=
  ⟨lane.slot0.toNat, lane.assetReserve.toNat, lane.totalPrincipalAmount.toNat⟩

def ofFeeClass : Math.FeeClass → FeeClass
  | .whitelisted => .whitelisted
  | .nonWhitelisted => .nonWhitelisted

def ofPolicy (policy : Math.QuotePolicy) : QuotePolicy :=
  ⟨ofFeeClass policy.feeClass, policy.verifiedPartnerFeeBps.map fun feeBps => feeBps.toNat⟩

def ofMode : Math.QuoteMode → QuoteMode
  | .exactIn => .exactIn
  | .exactOut => .exactOut

def ofRequest (request : Math.QuoteRequest) : QuoteRequest :=
  ⟨canonicalAddress request.assetIn, canonicalAddress request.assetOut, request.amount.toNat,
    ofMode request.mode⟩

def ofAllocation (allocation : Math.FeeAllocation) : FeeAllocation :=
  ⟨allocation.partnerFee.toNat, allocation.treasuryFee.toNat⟩

def ofResult (result : Math.QuoteResult) : QuoteResult :=
  ⟨result.amountIn.toNat, result.amountOut.toNat, canonicalAddress result.feeAsset,
    result.feeAmount.toNat, result.feeAllocation.map ofAllocation⟩

def ofReason : Math.UnavailableReason → UnavailableReason
  | .zeroAmount => .zeroAmount
  | .equalAssets => .equalAssets
  | .missingLane asset => .missingLane (canonicalAddress asset)
  | .pausedLane asset => .pausedLane (canonicalAddress asset)
  | .staleLane asset => .staleLane (canonicalAddress asset)
  | .zeroPrincipal asset => .zeroPrincipal (canonicalAddress asset)
  | .zeroAnchor => .zeroAnchor
  | .spreadConsumesAnchor => .spreadConsumesAnchor
  | .insufficientOutputReserve asset => .insufficientOutputReserve (canonicalAddress asset)

def ofOutcome : Math.QuoteOutcome → QuoteOutcome
  | .available result => .available (ofResult result)
  | .unavailable reason => .unavailable (ofReason reason)

/-- `t` stores the values of `s` under the canonical addresses. -/
structure Represents (t : QuoteState) (s : Math.QuoteState) : Prop where
  cash : t.cash = canonicalAddress s.cash
  cashReserve : t.cashReserve = s.cashReserve.toNat
  lane : ∀ a, t.lanes.lookup (canonicalAddress a) = (s.lanes.lookup a).map ofLane
  multiplier : t.blacklistFeeMultiplier = s.blacklistFeeMultiplier.toNat

/-- Two fallible outcomes in step. -/
abbrev AgreeOutcome := Agree SameKind fun (o : Math.QuoteOutcome) o' => o' = ofOutcome o

variable (mode : Math.QuoteMode)

theorem isExactIn_ofMode : (ofMode mode).isExactIn = mode.isExactIn := by
  cases mode <;> rfl

theorem isWhitelisted_ofFeeClass (c : Math.FeeClass) :
    (ofFeeClass c).isWhitelisted = c.isWhitelisted := by
  cases c <;> rfl

variable (request : Math.QuoteRequest)

theorem feeAssetOf_ofRequest :
    feeAssetOf (ofRequest request) = canonicalAddress (Math.feeAssetOf request) := by
  unfold feeAssetOf Math.feeAssetOf ofRequest
  rw [isExactIn_ofMode]
  split <;> rfl

/-- Comparing two canonical addresses in lower case is comparing the addresses. -/
theorem lowerCase_eq (a b : Lunarbase.Address) :
    a = b ↔ toLowerCase (canonicalAddress a) = toLowerCase (canonicalAddress b) := by
  rw [toLowerCase_canonicalAddress, toLowerCase_canonicalAddress, canonicalAddress_inj]

variable {t : QuoteState} {s : Math.QuoteState}

/-! ### Lanes -/

/-- The expiry sums a 40-bit and an 8-bit field: neither the saturation of one engine nor the
range check of the other is ever reached. -/
theorem laneOrReason_eq (h : Represents t s) (a : Lunarbase.Address) (block : Nat) :
    laneOrReason t (canonicalAddress a) block = .ok (match Math.laneOrReason s a block with
      | .error reason => .inl (ofReason reason)
      | .ok lane => .inr (ofLane lane)) := by
  unfold laneOrReason Math.laneOrReason
  rw [toLowerCase_canonicalAddress, h.lane]
  cases hl : s.lanes.lookup a with
  | none => rfl
  | some lane =>
    have hexists : laneExists (ofLane lane) = lane.exists_ :=
      decide_eq_decide.mpr (flag_word lane.slot0 200)
    have hpaused : lanePaused (ofLane lane) = lane.paused :=
      decide_eq_decide.mpr (flag_word lane.slot0 201)
    simp only [map_some, hexists, hpaused]
    by_cases he : lane.exists_
    · by_cases hp : lane.paused
      · simp only [he, hp, Bool.not_true, Bool.false_eq_true, if_false, if_true]
        rfl
      have hupdated : Math.laneSlot0LatestUpdateBlock lane.slot0 < 2 ^ 40 :=
        Word.readField_lt (by decide)
      have hdelay := (Math.laneSlot0BlockDelay lane.slot0).isLt
      have hsum : checkedAdd (Math.laneSlot0LatestUpdateBlock lane.slot0 : Nat)
          ((Math.laneSlot0BlockDelay lane.slot0).toNat : Nat) =
          .ok ((Math.laneSlot0LatestUpdateBlock lane.slot0 +
            (Math.laneSlot0BlockDelay lane.slot0).toNat : Nat) : Int) := by
        rw [checkedAdd, assertU256_lt (by omega), assertU256_lt (by omega), ok_bind,
          ok_bind, ← Nat.cast_add, assertU256_lt (by omega)]
      simp only [he, hp, Bool.not_true, Bool.false_eq_true, if_false, ofLane,
        laneSlot0LatestUpdateBlock_word, laneSlot0BlockDelay_word, ok_bind, hsum]
      rw [Nat.min_eq_right (by omega)]
      by_cases hb : Math.laneSlot0LatestUpdateBlock lane.slot0 +
          (Math.laneSlot0BlockDelay lane.slot0).toNat < block
      · rw [if_pos hb, if_pos (by exact_mod_cast hb)]; rfl
      · rw [if_neg hb, if_neg (by exact_mod_cast hb)]
    · simp only [he, Bool.not_false, if_true]
      rfl

variable (lane : Math.LaneState)

theorem principalCashValue_agree :
    AgreeWord (Math.principalCashValue lane) (principalCashValue (ofLane lane)) := by
  have hwidth : ((lane.totalPrincipalAmount.setWidth 256 : U256).toNat : Int) =
      lane.totalPrincipalAmount.toNat := by
    rw [Word.toNat_setWidth_of_le (by decide)]
  refine Agree.ite ?_ (fun _ => .ok isWord_zero) fun _ => ?_
  · rw [word_eq_zero, hwidth]; rfl
  simp only [ofLane, laneSlot0Price_word, ok_bind, ← hwidth]
  exact quoteLaneExactIn_agree

variable {exactIn : Bool}

theorem modeFee_agree {anchor feeBps : U256} :
    AgreeWord (Math.modeFee exactIn anchor feeBps) (modeFee exactIn anchor.toNat feeBps.toNat) :=
  Agree.ite Iff.rfl (fun _ => quoteLaneExactInFee_agree) fun _ => quoteLaneExactOutFee_agree

theorem laneSpread_agree {anchor feeBps slippage : U256} :
    Agree SameKind IsWordPair (Math.laneSpread anchor feeBps slippage exactIn)
      (laneSpread anchor.toNat feeBps.toNat slippage.toNat exactIn) := by
  refine modeFee_agree.bind ?_
  rintro fee _ _ rfl
  refine checkedAdd_agree.bind ?_
  rintro totalBps _ _ rfl
  refine modeFee_agree.bind ?_
  rintro total _ _ rfl
  refine checkedSub_agree.bind ?_
  rintro slippageAmount _ _ rfl
  exact .ok ⟨rfl, rfl⟩

theorem modeConvert_agree {mode : Math.QuoteMode} {price amount : U256} {toAsset : Bool} :
    AgreeWord (Math.modeConvert mode price amount toAsset)
      (modeConvert (ofMode mode) price.toNat amount.toNat toAsset) := by
  cases mode with
  | exactIn => exact quoteLaneExactIn_agree
  | exactOut => exact quoteLaneExactOut_agree

/-! ### Settling a quote -/

theorem outputReserve_eq (h : Represents t s) (a : Lunarbase.Address) :
    outputReserve t (canonicalAddress a) =
      (Math.outputReserve s a).map fun reserve => (reserve.toNat : Int) := by
  unfold outputReserve Math.outputReserve
  rw [h.cash, h.cashReserve, toLowerCase_canonicalAddress, toLowerCase_canonicalAddress, h.lane]
  by_cases ha : a = s.cash
  · rw [if_pos ha, if_pos (canonicalAddress_inj.mpr ha)]; rfl
  · rw [if_neg ha, if_neg (canonicalAddress_inj.not.mpr ha), map_map, map_map]; rfl

theorem reserveInsufficient_eq (reserve amountOut fee : U256) :
    Math.reserveInsufficient mode reserve amountOut fee =
      .ok (decide ((reserve.toNat : Int) < amountOut.toNat ∨
        (ofMode mode = .exactIn ∧ (reserve.toNat : Int) - amountOut.toNat < fee.toNat))) := by
  unfold Math.reserveInsufficient
  by_cases hlt : reserve < amountOut
  · rw [if_pos hlt, decide_eq_true (.inl (word_lt.mp hlt))]
  have hge : ¬ (reserve.toNat : Int) < amountOut.toNat := word_lt.not.mp hlt
  rw [if_neg hlt]
  cases mode with
  | exactIn =>
    have hsub : (reserve - amountOut).toNat = reserve.toNat - amountOut.toNat :=
      toNat_sub_of_le (by rw [le_def]; omega)
    have hok : Math.checkedSub reserve amountOut = .ok (reserve - amountOut) :=
      Math.checkedSub_eq_ok.mpr (by omega)
    simp only [Math.QuoteMode.isExactIn, if_true, hok, ok_bind, ofMode, true_and, hge,
      false_or, ok.injEq]
    refine decide_eq_decide.mpr ?_
    rw [word_lt, hsub]
    omega
  | exactOut =>
    simp only [Math.QuoteMode.isExactIn, Bool.false_eq_true, if_false, ofMode, hge, false_or,
      reduceCtorEq, false_and, decide_false]

theorem allocateFee_agree (policy : Math.QuotePolicy) (fee : U256) :
    Agree SameKind (fun (a : Option Math.FeeAllocation) a' => a' = a.map ofAllocation)
      (Math.allocateFee policy fee) (allocateFee (ofPolicy policy) fee.toNat) := by
  unfold Math.allocateFee allocateFee ofPolicy
  cases policy.verifiedPartnerFeeBps with
  | none => exact .ok rfl
  | some feeBps =>
    have hwidth : ((feeBps.setWidth 256 : U256).toNat : Int) = feeBps.toNat := by
      rw [Word.toNat_setWidth_of_le (by decide)]
    refine splitFee_agree.bind ?_
    rintro ⟨partner, treasury⟩ ⟨_, _⟩ _ ⟨rfl, rfl⟩
    exact .ok rfl

theorem settleQuote_agree (h : Represents t s) (policy : Math.QuotePolicy)
    (request : Math.QuoteRequest) (feeAsset : Lunarbase.Address) (fee amountIn amountOut : U256) :
    AgreeOutcome (Math.settleQuote s policy request feeAsset fee amountIn amountOut)
      (settleQuote t (ofPolicy policy) (ofRequest request) (canonicalAddress feeAsset) fee.toNat
        amountIn.toNat amountOut.toNat) := by
  unfold Math.settleQuote settleQuote
  simp only [ofRequest, outputReserve_eq h]
  cases Math.outputReserve s request.assetOut with
  | none => exact .ok rfl
  | some reserve =>
    have hwidth : ((reserve.setWidth 256 : U256).toNat : Int) = reserve.toNat := by
      rw [Word.toNat_setWidth_of_le (by decide)]
    simp only [map_some, reserveInsufficient_eq, ok_bind, ← hwidth]
    refine Agree.ite decide_eq_true_iff (fun _ => .ok rfl) fun _ => ?_
    refine (allocateFee_agree policy fee).bind ?_
    rintro allocation _ _ rfl
    exact .ok rfl

theorem assembleQuote_agree (h : Represents t s) (policy : Math.QuotePolicy)
    (request : Math.QuoteRequest) (feeAsset : Lunarbase.Address) (anchor fee slippage : U256) :
    AgreeOutcome (Math.assembleQuote s policy request feeAsset anchor fee slippage)
      (assembleQuote t (ofPolicy policy) (ofRequest request) (canonicalAddress feeAsset)
        anchor.toNat fee.toNat slippage.toNat) := by
  refine checkedAdd_agree.bind ?_
  rintro spread _ _ rfl
  cases hm : request.mode with
  | exactIn =>
    simp only [ofRequest, hm, ofMode]
    refine Agree.ite word_le (fun _ => .ok rfl) fun _ => ?_
    refine checkedSub_agree.bind ?_
    rintro amountOut _ _ rfl
    have := settleQuote_agree h policy request feeAsset fee request.amount amountOut
    simpa only [ofRequest, hm, ofMode] using this
  | exactOut =>
    simp only [ofRequest, hm, ofMode]
    refine checkedAdd_agree.bind ?_
    rintro amountIn _ _ rfl
    have := settleQuote_agree h policy request feeAsset fee amountIn request.amount
    simpa only [ofRequest, hm, ofMode] using this

/-! ### Quotes -/

theorem quoteDirect_agree (h : Represents t s) (policy : Math.QuotePolicy)
    (request : Math.QuoteRequest) (laneAsset : Lunarbase.Address) (lane : Math.LaneState)
    (toAsset : Bool) (feeAsset : Lunarbase.Address) :
    AgreeOutcome (Math.quoteDirect s policy request laneAsset lane toAsset feeAsset)
      (directQuote t (ofPolicy policy) (ofRequest request) (canonicalAddress laneAsset)
        (ofLane lane) toAsset (canonicalAddress feeAsset)) := by
  unfold directQuote
  rw [show (ofLane lane).slot0 = lane.slot0.toNat from rfl, laneSlot0Price_word, ok_bind]
  refine modeConvert_agree.bind ?_
  rintro anchor _ _ rfl
  refine Agree.ite word_eq_zero (fun _ => .ok rfl) fun _ => ?_
  refine (principalCashValue_agree lane).bind ?_
  rintro principal _ _ rfl
  refine Agree.ite word_eq_zero (fun _ => .ok rfl) fun _ => ?_
  have hraw : (if toAsset then laneSlot0AskFeeBps lane.slot0.toNat
      else laneSlot0BidFeeBps lane.slot0.toNat) =
      .ok ((if toAsset then Math.laneSlot0AskFeeBps lane.slot0
        else Math.laneSlot0BidFeeBps lane.slot0 : U256).toNat : Int) := by
    cases toAsset
    · exact laneSlot0BidFeeBps_word lane.slot0
    · exact laneSlot0AskFeeBps_word lane.slot0
  rw [hraw, ok_bind, laneSlot0SlippageKBps_word, ok_bind, h.multiplier,
    show (ofPolicy policy).feeClass = ofFeeClass policy.feeClass from rfl,
    isWhitelisted_ofFeeClass, show (ofRequest request).mode = ofMode request.mode from rfl,
    isExactIn_ofMode, show (ofRequest request).amount = request.amount.toNat from rfl]
  obtain ⟨feeBps, hfee, hfee'⟩ := calculateFeeBpsForRouter_word policy.feeClass.isWhitelisted
    s.blacklistFeeMultiplier (if toAsset then Math.laneSlot0AskFeeBps lane.slot0
      else Math.laneSlot0BidFeeBps lane.slot0)
  simp only [hfee, ok_bind]
  rw [hfee']
  have hcash : (if toAsset then (if request.mode.isExactIn then (request.amount.toNat : Int)
      else anchor.toNat) else if request.mode.isExactIn then ↑anchor.toNat
        else ↑request.amount.toNat) =
      ((if toAsset then (if request.mode.isExactIn then request.amount else anchor)
        else if request.mode.isExactIn then anchor else request.amount : U256).toNat : Int) := by
    cases toAsset <;> cases request.mode <;> rfl
  rw [hcash]
  refine quoteLaneSlippageBps_agree.bind ?_
  rintro slippage _ _ rfl
  refine laneSpread_agree.bind ?_
  rintro ⟨fee, slippageAmount⟩ ⟨_, _⟩ _ ⟨rfl, rfl⟩
  exact assembleQuote_agree h policy request feeAsset anchor fee slippageAmount

theorem routeAnchor_agree (inputLane outputLane : Math.LaneState) :
    Agree SameKind IsWordPair (Math.routeAnchor request inputLane outputLane)
      (routeAnchor (ofRequest request) (ofLane inputLane) (ofLane outputLane)) := by
  unfold Math.routeAnchor routeAnchor
  simp only [ofRequest, ofLane, laneSlot0Price_word, ok_bind]
  cases request.mode with
  | exactIn =>
    refine quoteLaneExactIn_agree.bind ?_
    rintro intermediate _ _ rfl
    refine quoteLaneExactIn_agree.bind ?_
    rintro anchor _ _ rfl
    exact .ok ⟨rfl, rfl⟩
  | exactOut =>
    refine quoteLaneExactOut_agree.bind ?_
    rintro intermediate _ _ rfl
    refine quoteLaneExactOut_agree.bind ?_
    rintro anchor _ _ rfl
    exact .ok ⟨rfl, rfl⟩

theorem quoteRoute_agree (h : Represents t s) (policy : Math.QuotePolicy)
    (request : Math.QuoteRequest) (inputLane outputLane : Math.LaneState) :
    AgreeOutcome (Math.quoteRoute s policy request inputLane outputLane)
      (routeQuote t (ofPolicy policy) (ofRequest request) (ofLane inputLane)
        (ofLane outputLane)) := by
  refine (routeAnchor_agree request inputLane outputLane).bind ?_
  rintro ⟨intermediate, anchor⟩ ⟨_, _⟩ _ ⟨rfl, rfl⟩
  refine Agree.ite word_eq_zero (fun _ => .ok rfl) fun _ => ?_
  refine (principalCashValue_agree inputLane).bind ?_
  rintro first _ _ rfl
  refine Agree.ite word_eq_zero (fun _ => .ok rfl) fun _ => ?_
  refine (principalCashValue_agree outputLane).bind ?_
  rintro second _ _ rfl
  refine Agree.ite word_eq_zero (fun _ => .ok rfl) fun _ => ?_
  rw [show (ofLane inputLane).slot0 = inputLane.slot0.toNat from rfl,
    show (ofLane outputLane).slot0 = outputLane.slot0.toNat from rfl,
    laneSlot0SlippageKBps_word, ok_bind, laneSlot0SlippageKBps_word, ok_bind,
    laneSlot0BidFeeBps_word, laneSlot0AskFeeBps_word, h.multiplier,
    show (ofPolicy policy).feeClass = ofFeeClass policy.feeClass from rfl,
    isWhitelisted_ofFeeClass, show (ofRequest request).mode = ofMode request.mode from rfl,
    isExactIn_ofMode, feeAssetOf_ofRequest]
  refine quoteLaneWeightedSlippageKBps_agree.bind ?_
  rintro weightedK _ _ rfl
  refine checkedAdd_agree.bind ?_
  rintro totalPrincipal _ _ rfl
  refine quoteLaneSlippageBps_agree.bind ?_
  rintro slippage _ _ rfl
  obtain ⟨bid, hbid, hbid'⟩ := calculateFeeBpsForRouter_word policy.feeClass.isWhitelisted
    s.blacklistFeeMultiplier (Math.laneSlot0BidFeeBps inputLane.slot0)
  obtain ⟨ask, hask, hask'⟩ := calculateFeeBpsForRouter_word policy.feeClass.isWhitelisted
    s.blacklistFeeMultiplier (Math.laneSlot0AskFeeBps outputLane.slot0)
  simp only [hbid, hask, ok_bind]
  rw [hbid', hask']
  refine checkedAdd_agree.bind ?_
  rintro feeBps _ _ rfl
  refine modeFee_agree.bind ?_
  rintro fee _ _ rfl
  refine checkedAdd_agree.bind ?_
  rintro bidTotal _ _ rfl
  refine checkedAdd_agree.bind ?_
  rintro askTotal _ _ rfl
  refine checkedAdd_agree.bind ?_
  rintro totalBps _ _ rfl
  refine modeFee_agree.bind ?_
  rintro total _ _ rfl
  refine checkedSub_agree.bind ?_
  rintro slippageAmount _ _ rfl
  exact assembleQuote_agree h policy request (Math.feeAssetOf request) anchor fee slippageAmount

theorem quoteCore_agree (h : Represents t s) {block : Nat} (hb : block < 2 ^ 64)
    (request : Math.QuoteRequest) (policy : Math.QuotePolicy) :
    AgreeOutcome (Math.quoteCore request block s policy)
      (quote (ofRequest request) block t (ofPolicy policy)) := by
  unfold quote
  rw [show (ofRequest request).amount = request.amount.toNat from rfl, assertU256_word,
    ok_bind, assertU256_lt (by omega), ok_bind,
    show (ofRequest request).assetIn = canonicalAddress request.assetIn from rfl,
    show (ofRequest request).assetOut = canonicalAddress request.assetOut from rfl, h.cash,
    laneOrReason_eq h, laneOrReason_eq h, ok_bind, ok_bind, feeAssetOf_ofRequest]
  refine Agree.ite word_eq_zero (fun _ => .ok rfl) fun _ => ?_
  refine Agree.ite (lowerCase_eq _ _) (fun _ => .ok rfl) fun _ => ?_
  refine Agree.ite (lowerCase_eq _ _) (fun _ => ?_) fun _ => ?_
  · cases Math.laneOrReason s request.assetIn block with
    | error reason => exact .ok rfl
    | ok lane => exact quoteDirect_agree h policy request request.assetIn lane false _
  refine Agree.ite (lowerCase_eq _ _) (fun _ => ?_) fun _ => ?_
  · cases Math.laneOrReason s request.assetOut block with
    | error reason => exact .ok rfl
    | ok lane => exact quoteDirect_agree h policy request request.assetOut lane true _
  cases Math.laneOrReason s request.assetIn block with
  | error reason => exact .ok rfl
  | ok inputLane =>
    cases Math.laneOrReason s request.assetOut block with
    | error reason => exact .ok rfl
    | ok outputLane => exact quoteRoute_agree h policy request inputLane outputLane

theorem maxWord_eq : U256_MAX = ((BitVec.allOnes 256).toNat : Int) := by decide +kernel

theorem solidityQuoteAmount_eq (outcome : Math.QuoteOutcome) :
    solidityQuoteAmount (ofRequest request) (ofOutcome outcome) =
      (Math.solidityQuoteAmount request outcome).toNat := by
  unfold solidityQuoteAmount Math.solidityQuoteAmount
  rw [show (ofRequest request).mode = ofMode request.mode from rfl]
  cases request.mode with
  | exactIn => cases outcome <;> rfl
  | exactOut =>
    have hzero : request.amount = 0 ↔ (ofRequest request).amount = 0 := word_eq_zero
    simp only [ofMode]
    by_cases hz : request.amount = 0
    · rw [if_pos hz, if_pos (hzero.mp hz)]; rfl
    rw [if_neg hz, if_neg (hzero.not.mp hz)]
    cases outcome with
    | available result => rfl
    | unavailable reason => exact maxWord_eq

/-! ### Every state in range is covered -/

/-- The lane's word fits 256 bits and its amounts fit 128 bits. -/
def LaneState.InRange (lane : LaneState) : Prop :=
  (0 ≤ lane.slot0 ∧ lane.slot0 < 2 ^ 256) ∧ (0 ≤ lane.assetReserve ∧ lane.assetReserve < 2 ^ 128) ∧
    (0 ≤ lane.totalPrincipalAmount ∧ lane.totalPrincipalAmount < 2 ^ 128)

structure QuoteState.InRange (t : QuoteState) : Prop where
  cash : ∃ a, t.cash = canonicalAddress a
  cashReserve : 0 ≤ t.cashReserve ∧ t.cashReserve < 2 ^ 128
  lane : ∀ key lane, t.lanes.lookup key = some lane → lane.InRange
  multiplier : 0 ≤ t.blacklistFeeMultiplier ∧ t.blacklistFeeMultiplier < 2 ^ 256

theorem exists_word {w : Nat} {n : Int} (h : 0 ≤ n ∧ n < 2 ^ w) : ∃ x : BitVec w, n = x.toNat := by
  obtain ⟨m, rfl⟩ := Int.eq_ofNat_of_zero_le h.1
  have hm : m < 2 ^ w := by exact_mod_cast h.2
  exact ⟨BitVec.ofNat w m, by rw [toNat_ofNat, Nat.mod_eq_of_lt hm]⟩

theorem exists_ofLane {lane : LaneState} (h : lane.InRange) : ∃ l, lane = ofLane l := by
  obtain ⟨slot0, hslot0⟩ := exists_word h.1
  obtain ⟨reserve, hreserve⟩ := exists_word h.2.1
  obtain ⟨principal, hprincipal⟩ := exists_word h.2.2
  exact ⟨⟨slot0, reserve, principal⟩, by cases lane; simp_all [ofLane]⟩

/-- A finite map whose values are all encoded lanes restricts to the canonical addresses. -/
theorem exists_lanes (m : Finmap (fun _ : Address => LaneState)) :
    (∀ key lane, m.lookup key = some lane → lane.InRange) →
    ∃ lanes : Finmap (fun _ : Lunarbase.Address => Math.LaneState),
      ∀ a, m.lookup (canonicalAddress a) = (lanes.lookup a).map ofLane := by
  induction m using induction_on with
  | H m =>
    induction m using AList.insertRec with
    | H0 => exact fun _ => ⟨∅, fun _ => rfl⟩
    | IH key lane rest hkey ih =>
      intro hrange
      rw [← insert_toFinmap] at hrange ⊢
      have hrest : ∀ k l, rest.toFinmap.lookup k = some l → l.InRange := by
        intro k l hl
        refine hrange k l ?_
        rw [lookup_insert_of_ne, hl]
        rintro rfl
        exact hkey (mem_of_lookup_eq_some hl)
      obtain ⟨lanes, hlanes⟩ := ih hrest
      obtain ⟨l, rfl⟩ := exists_ofLane (hrange key lane (lookup_insert _))
      by_cases hcanon : ∃ a, key = canonicalAddress a
      · obtain ⟨a, rfl⟩ := hcanon
        refine ⟨lanes.insert a l, fun b => ?_⟩
        by_cases hab : b = a
        · subst hab
          rw [lookup_insert, lookup_insert]; rfl
        · rw [lookup_insert_of_ne _ (canonicalAddress_inj.not.mpr hab),
            lookup_insert_of_ne _ hab, hlanes]
      · refine ⟨lanes, fun b => ?_⟩
        rw [lookup_insert_of_ne _ (fun h => hcanon ⟨b, h.symm⟩), hlanes]

/-- Every TypeScript state in range represents a Rust state. -/
theorem exists_represented (ht : t.InRange) : ∃ s, Represents t s := by
  obtain ⟨cash, hcash⟩ := ht.cash
  obtain ⟨reserve, hreserve⟩ := exists_word ht.cashReserve
  obtain ⟨multiplier, hmultiplier⟩ := exists_word ht.multiplier
  obtain ⟨lanes, hlanes⟩ := exists_lanes t.lanes ht.lane
  exact ⟨⟨cash, reserve, lanes, multiplier⟩, hcash, hreserve, hlanes, hmultiplier⟩

theorem inRange_ofLane : (ofLane lane).InRange := by
  have hslot0 := lane.slot0.isLt
  have hreserve := lane.assetReserve.isLt
  have hprincipal := lane.totalPrincipalAmount.isLt
  simp only [LaneState.InRange, ofLane]
  omega

/-- **The engines agree.**  Every state in the ranges of the source types is the image of a Rust
state, and on every such pair, request, 64-bit block and policy the two quotes return the same
outcome, with the same scalar amount, or an arithmetic error of the same kind. -/
theorem quote_engines_agree (t : QuoteState) (ht : t.InRange) :
    (∃ s, Represents t s) ∧
    ∀ s, Represents t s → ∀ block < 2 ^ 64, ∀ (request : Math.QuoteRequest)
      (policy : Math.QuotePolicy),
      Agree (fun (e : Math.QuoteError) e' => match e with | .arithmetic e => SameKind e e')
        (fun o o' => o' = ofOutcome o ∧ solidityQuoteAmount (ofRequest request) o' =
          (Math.solidityQuoteAmount request o).toNat)
        (Math.quote request block s policy)
        (quote (ofRequest request) block t (ofPolicy policy)) := by
  refine ⟨exists_represented ht, fun s hs block hb request policy => ?_⟩
  refine (quoteCore_agree hs hb request policy).mapError (fun _ _ h => h) ?_
  rintro o _ rfl
  exact ⟨rfl, solidityQuoteAmount_eq request o⟩

/-- The TypeScript form of `Math.sampleState`. -/
def sampleState : QuoteState where
  cash := canonicalAddress 1
  cashReserve := 1000000
  lanes := Finmap.singleton (canonicalAddress 2) (ofLane (Math.sampleLane))
  blacklistFeeMultiplier := 1

theorem represents_sampleState : Represents sampleState Math.sampleState where
  cash := rfl
  cashReserve := rfl
  lane a := by
    by_cases ha : a = 2
    · subst ha
      rfl
    have hts : canonicalAddress a ∉ sampleState.lanes := by
      rw [sampleState, mem_singleton, canonicalAddress_inj]
      exact ha
    have hrust : a ∉ Math.sampleState.lanes := by
      rw [Math.sampleState, mem_singleton]
      exact ha
    rw [lookup_eq_none.mpr hts, lookup_eq_none.mpr hrust]
    rfl
  multiplier := rfl

theorem inRange_sampleState : sampleState.InRange where
  cash := ⟨1, rfl⟩
  cashReserve := by decide
  lane key lane h := by
    by_cases hk : key = canonicalAddress 2
    · subst hk
      cases h
      exact inRange_ofLane _
    have hnone : sampleState.lanes.lookup key = none :=
      lookup_eq_none.mpr (by rw [sampleState, mem_singleton]; exact hk)
    rw [hnone] at h
    cases h
  multiplier := by decide

theorem quote_engines_agree_sample :
    sampleState.InRange ∧ quote (ofRequest ⟨1, 2, 10000, .exactIn⟩) 0 sampleState
        (ofPolicy ⟨.whitelisted, none⟩) =
      .ok (ofOutcome (.available ⟨10000, 4995, 2, 5, none⟩)) := by
  have hrust : Math.quote ⟨1, 2, 10000, .exactIn⟩ 0 Math.sampleState ⟨.whitelisted, none⟩ =
      .ok (.available ⟨10000, 4995, 2, 5, none⟩) := by decide +kernel
  have h := (quote_engines_agree sampleState inRange_sampleState).2 Math.sampleState
    represents_sampleState 0 (by decide) ⟨1, 2, 10000, .exactIn⟩ ⟨.whitelisted, none⟩
  rw [hrust] at h
  generalize quote _ _ _ _ = q at h
  cases h with
  | ok hq => exact ⟨inRange_sampleState, by rw [hq.1]⟩

end Lunarbase.Ts
