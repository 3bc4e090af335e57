import Lunarbase.Client.Frame
import Lunarbase.Math.Total

/-!
# Client — PartnerFees

The partner fees of a verified router against the lanes.  The two maps are edited by different
events, and a correction puts back an older pair: the fees match the lanes because every event keeps
them so, and every before-image was current once (`DataHeld`).
-/

namespace Lunarbase.Client

open Finmap Except

open Math (bps allocateFee QuoteRequest)

namespace QuoteData

/-- A fee is of cash or of an asset with a lane, and at most the whole. -/
def FeesMatch (d : QuoteData) : Prop :=
  ∀ verified, d.verifiedRouter = some verified →
    ∀ asset fee, verified.partnerFeeBps.lookup asset = some fee →
      (asset = d.state.cash ∨ (d.lane asset).isSome) ∧ fee.toNat ≤ bps.toNat

variable {d d' : QuoteData} {router asset : Address} {fee : BitVec 32} {changed : Bool}

theorem FeesMatch.setLane (h : d.FeesMatch) (asset : Address) (lane : Math.LaneState) :
    (d.setLane asset lane).FeesMatch := by
  intro verified hverified other fee hfee
  refine (h verified hverified other fee hfee).imp_left (Or.imp_right fun hother => ?_)
  by_cases heq : other = asset
  · rw [heq, lane_setLane, Option.isSome_some]
  · rwa [QuoteData.lane, QuoteData.setLane, lookup_insert_of_ne _ heq]

theorem FeesMatch.withoutLane (h : d.FeesMatch) (asset : Address) :
    (d.withoutLane asset).FeesMatch := by
  intro verified' hverified' other fee hfee
  obtain ⟨verified, hverified, rfl⟩ := Option.map_eq_some_iff.mp hverified'
  -- the fee of the removed lane is removed with it
  have hne : other ≠ asset := by
    rintro rfl
    simp at hfee
  rw [lookup_erase_ne hne] at hfee
  refine (h verified hverified other fee hfee).imp_left (Or.imp_right fun hother => ?_)
  rwa [QuoteData.lane, QuoteData.withoutLane, lookup_erase_ne hne]

theorem FeesMatch.setPartnerFee (h : d.FeesMatch)
    (hset : d.setPartnerFee router asset fee = (d', .ok changed)) : d'.FeesMatch := by
  rw [QuoteData.setPartnerFee] at hset
  split at hset
  · exact (Prod.mk.inj hset).1 ▸ h
  next verified hverified =>
  split_ifs at hset with hother hwide hsame
  · exact (Prod.mk.inj hset).1 ▸ h
  · cases hset
  · exact (Prod.mk.inj hset).1 ▸ h
  obtain rfl := (Prod.mk.inj hset).1
  rintro - ⟨⟩ other fee' hfee'
  by_cases heq : other = asset
  · rw [heq, lookup_insert] at hfee'
    obtain rfl := Option.some.inj hfee'
    rw [not_or, not_and_or] at hother
    have hasset := hother.2.imp not_ne_iff.mp Option.ne_none_iff_isSome.mp
    have hle : (fee.setWidth 256 : U256).toNat ≤ bps.toNat :=
      BitVec.le_def.mp (BitVec.not_lt.mp hwide)
    exact ⟨heq ▸ hasset, hle⟩
  · rw [lookup_insert_of_ne _ heq] at hfee'
    exact h verified hverified other fee' hfee'

/-- **An accepted event keeps the fees matched to the lanes.** -/
theorem FeesMatch.applyEvent {event : QuoteEvent} (h : d.FeesMatch)
    (hevent : d.applyEvent event = (d', .ok changed)) : d'.FeesMatch := by
  have hconfined := applyEvent_confined hevent
  cases event with
  | partnerInfoSet router asset fee | partnerFeeSet router asset fee => exact h.setPartnerFee hevent
  | laneAdded asset =>
    obtain ⟨lane', rfl⟩ := hconfined
    exact h.setLane asset lane'
  | laneRemoved asset =>
    obtain rfl := hconfined
    exact h.withoutLane asset
  | whitelistSet router whitelisted | blacklistFeeMultiplierSet multiplier =>
    obtain rfl := hconfined
    exact h
  | sync asset assetReserve cashReserve =>
    have hcash : (d.withCashReserve cashReserve).FeesMatch := h
    rw [Confined, SyncsReserves] at hconfined
    split_ifs at hconfined
    · exact hconfined ▸ hcash
    · obtain ⟨lane, -, rfl⟩ := hconfined
      exact hcash.setLane asset _
  | implementationUpgraded implementation => exact hconfined.elim
  | _ =>
    obtain ⟨lane, lane', -, -, rfl⟩ := hconfined
    exact h.setLane _ lane'

end QuoteData

open QuoteIndexer

variable {env : Platform} {s t : QuoteIndexer}

theorem feesMatch_of_validated {snapshot : BootstrapSnapshot}
    (h : s.validateSnapshot snapshot = .ok ()) :
    (QuoteData.mk snapshot.state s.deployment.feeClass snapshot.verifiedRouter).FeesMatch := by
  obtain ⟨-, -, h⟩ := bind_eq_ok.mp h
  obtain ⟨-, -, h⟩ := bind_eq_ok.mp h
  obtain ⟨-, -, h⟩ := bind_eq_ok.mp h
  obtain ⟨-, -, h⟩ := bind_eq_ok.mp h
  rintro verified (hverified : snapshot.verifiedRouter = some verified) asset fee hfee
  rw [validateVerifiedRouterSnapshot, hverified] at h
  split at h
  · cases ‹some verified = none›
  next expected actual _ hactual =>
    obtain rfl := Option.some.inj hactual
    split_ifs at h with hvalid
    have hkey : asset ∈ verified.partnerFeeBps.keys :=
      mem_keys.mpr (mem_of_lookup_eq_some hfee)
    obtain ⟨hasset, hle⟩ := hvalid.2.2 asset hkey
    rw [hfee] at hle
    have hbound : (fee.setWidth 256 : U256).toNat ≤ bps.toNat :=
      BitVec.le_def.mp (of_decide_eq_true hle)
    exact ⟨hasset.imp_right lookup_isSome.mpr, hbound⟩
  · cases h

/-- The fees match the lanes now and in every before-image, after every stage. -/
theorem feesHeld_takes {stage : Stage} (hs : DataHeld QuoteData.FeesMatch s)
    (h : Takes env s stage t) : DataHeld QuoteData.FeesMatch t := by
  refine hs.takes h (fun _ _ _ _ _ hd happly => hd.applyEvent happly) ?_
  rintro snapshot rfl
  exact feesMatch_of_validated h.1

/-- **The partner fees of a verified router match the lanes**, in every state a run of calls
reaches.  An event of another router leaves them, and a quote is never split under a share above the
whole: it fails as the quote without a share, or in the product of the fee and the share. -/
theorem partner_fees_match_lanes {state : Math.QuoteState} {deployment : DeploymentConfig}
    {verified : VerifiedRouterSnapshot}
    (hrun : Run (Request.step env) (fun _ _ => True) (QuoteIndexer.new state deployment) s)
    (hverified : s.reducer.data.verifiedRouter = some verified) :
    (∀ asset fee, verified.partnerFeeBps.lookup asset = some fee →
      (asset = s.reducer.data.state.cash ∨ (s.reducer.data.lane asset).isSome) ∧
        fee.toNat ≤ bps.toNat) ∧
    (∀ router, router ≠ verified.router → ∀ asset fee whitelisted, ∀ event ∈
        [QuoteEvent.partnerInfoSet router asset fee, .partnerFeeSet router asset fee,
          .whitelistSet router whitelisted],
      s.reducer.data.applyEvent event = (s.reducer.data, .ok false)) ∧
    ∀ p, s.prepareSnapshot = .ok p → ∀ request, ∃ share,
      (p.policyFor request).verifiedPartnerFeeBps = some share ∧ share.toNat ≤ bps.toNat ∧
      ∀ e, Math.quote request p.cursor.executionBlockNumber p.data.state (p.policyFor request) =
          .error e →
        Math.quote request p.cursor.executionBlockNumber p.data.state ⟨p.data.feeClass, none⟩ =
          .error e ∨
        ∃ r, Math.quote request p.cursor.executionBlockNumber p.data.state
            ⟨p.data.feeClass, none⟩ = .ok (.available r) ∧
          2 ^ 256 ≤ r.feeAmount.toNat * share.toNat := by
  -- a fresh indexer has no verified router
  have hstart : DataHeld QuoteData.FeesMatch (QuoteIndexer.new state deployment) := by
    constructor <;> intro _ hnone <;> cases hnone
  have hheld := hrun.invariant (P := DataHeld QuoteData.FeesMatch) hstart fun s served hs _ =>
    (served.staged env s).invariant (fun _ _ _ htakes hs => feesHeld_takes hs htakes) hs
  have hmatch := hheld.current
  refine ⟨hmatch verified hverified, ?_, ?_⟩
  · intro router hrouter asset fee whitelisted event hevent
    simp only [List.mem_cons, List.not_mem_nil, or_false] at hevent
    rcases hevent with rfl | rfl | rfl
    all_goals simp [QuoteData.applyEvent, QuoteData.setPartnerFee, hverified, hrouter, hrouter.symm]
  · intro p hp request
    obtain ⟨-, -, hp⟩ := bind_eq_ok.mp hp
    obtain ⟨cursor, -, hp⟩ := bind_eq_ok.mp hp
    cases hp
    have hshare : ((verified.partnerFeeBps.lookup (Math.feeAssetOf request)).getD 0).toNat ≤
        bps.toNat := by
      cases hfee : verified.partnerFeeBps.lookup (Math.feeAssetOf request) with
      | none => exact Nat.zero_le _
      | some fee => exact (hmatch verified hverified _ fee hfee).2
    refine ⟨_, by rw [PreparedQuoteSnapshot.policyFor, hverified]; rfl, hshare, fun e h => ?_⟩
    rw [PreparedQuoteSnapshot.policyFor, hverified] at h
    exact Math.quote_error_of_share hshare h

/-- A quarter of the fees in `0xa1` goes to the partner of router `0x77`. -/
def routed : VerifiedRouterSnapshot := ⟨0x77, singleton 0xa1 250000⟩

def feeLog (hash : B256) (asset fee : Nat) : ContractLog :=
  coreLog 5 hash [CoreEvent.partnerFeeSet.signatureHash, 0x77, BitVec.ofNat 256 asset] fee

/-- A bootstrap, head 4, another fee in block 5, head 6, and both blocks replaced by one that sets
the fee in cash. -/
def routedRun : List Request :=
  [unpricedCall (.bootstrapNormalized { smallSnapshot with verifiedRouter := some routed } []),
    unpricedCall (.applyCoreUpdate (.head (blockRef 4 0xb4 0xb3))),
    unpricedCall (.applyCoreLogBorrowed (feeLog 0xb5 0xa1 5000)),
    unpricedCall (.applyCoreUpdate (.head (blockRef 6 0xb6 0xb5))),
    unpricedCall (.applyCoreUpdate (.correction { replaceFive with
      oldTip := blockRef 6 0xb6 0xb5
      oldBranch := [blockRef 5 0xb5 0xb4, blockRef 6 0xb6 0xb5]
      replacementLogs := [feeLog 0xe5 0xca 300] }))]

def routedIndexer (count : Nat) : QuoteIndexer :=
  (routedRun.take count).foldl (Request.step referencePlatform)
    (.new smallSnapshot.state { smallDeployment with verifiedRouter := some 0x77 })

theorem partner_fees_match_lanes_routed :
    ((routedIndexer 4).reducer.data.verifiedRouter.any fun verified =>
        verified.partnerFeeBps.lookup 0xa1 == some 5000) = true ∧
    ∃ verified, (routedIndexer 5).reducer.data.verifiedRouter = some verified ∧
      verified.partnerFeeBps.lookup 0xa1 = some 250000 ∧
      verified.partnerFeeBps.lookup 0xca = some 300 ∧
      (0xa1 = (routedIndexer 5).reducer.data.state.cash ∨
        ((routedIndexer 5).reducer.data.lane 0xa1).isSome) := by
  have hcorrected : ((routedIndexer 5).reducer.data.verifiedRouter.any fun verified =>
      verified.partnerFeeBps.lookup 0xa1 == some 250000 &&
        verified.partnerFeeBps.lookup 0xca == some 300) = true := by decide +kernel
  obtain ⟨verified, hverified, hfees⟩ := (Option.any_eq_true _ _).mp hcorrected
  simp only [Bool.and_eq_true, beq_iff_eq] at hfees
  have hmatch := (partner_fees_match_lanes (Run.foldl .refl _) hverified).1
  exact ⟨by decide +kernel, verified, hverified, hfees.1, hfees.2, (hmatch 0xa1 _ hfees.1).1⟩

end Lunarbase.Client
