import Lunarbase.Math.Codec
import Mathlib.Algebra.Order.Group.Unbundled.Int
import Mathlib.Data.Int.Order.Basic

/-!
# Math — Update

The operator's updates of a lane, over any history.  One update is an equation between views
(`applyLaneUpdateSlot0_eq_ok`); what a history has done to a word is read off its views: the last
update gives price, fees and block, a pause stays, and nothing else moves.
-/

namespace Lunarbase.Math

open List Except Nat LaneSlot0

/-- The arguments of one update. -/
structure LaneUpdate where
  price : BitVec 128
  fees : Nat
  blockNumber : Nat
  deriving DecidableEq, Repr

namespace LaneUpdate

/-- The arguments fit their fields of the word. -/
structure InRange (u : LaneUpdate) : Prop where
  price : u.price.toNat < 2 ^ priceBits
  fees : u.fees < 2 ^ 40
  blockNumber : u.blockNumber < 2 ^ blockBits

/-- The update applied to a word. -/
def apply (word : U256) (u : LaneUpdate) : Except MathError U256 :=
  applyLaneUpdateSlot0 word u.price u.fees u.blockNumber

/-- The updates applied one after the other. -/
def applyAll (word : U256) (updates : List LaneUpdate) : Except MathError U256 :=
  updates.foldlM apply word

def askFeeBps (u : LaneUpdate) : BitVec 32 := BitVec.ofNat 32 (u.fees % 2 ^ feeBits)

def bidFeeBps (u : LaneUpdate) : BitVec 32 := BitVec.ofNat 32 (u.fees / 2 ^ feeBits)

/-- The price moves further than the threshold of the view allows, in exact integers. -/
def Exceeds (view : LaneSlot0) (u : LaneUpdate) : Prop :=
  view.thresholdEnabled = true ∧ view.price ≠ 0 ∧
    (view.price.toNat : Int) * view.pricePushThreshold.toNat <
      100 * |(u.price.toNat : Int) - view.price.toNat|

instance (view : LaneSlot0) (u : LaneUpdate) : Decidable (u.Exceeds view) :=
  inferInstanceAs (Decidable (_ ∧ _ ∧ _))

/-- The view after an update. -/
def next (view : LaneSlot0) (u : LaneUpdate) : LaneSlot0 :=
  { view with
    price := u.price
    askFeeBps := u.askFeeBps
    bidFeeBps := u.bidFeeBps
    latestUpdateBlock := u.blockNumber
    paused := view.paused || decide (u.Exceeds view) }

end LaneUpdate

/-! ### Fees -/

theorem decodeUpdateFees_eq {fees : Nat} (h : fees < 2 ^ 40) :
    decodeUpdateFees fees =
      .ok (BitVec.ofNat 32 (fees % 2 ^ feeBits), BitVec.ofNat 32 (fees / 2 ^ feeBits)) := by
  rw [decodeUpdateFees, (validateNative_eq_ok (by decide)).mpr h, ok_bind]
  dsimp only
  rw [and_two_pow_sub_one_eq_mod, shiftRight_eq_div_pow]

/-- The payload of two fees gives them back. -/
theorem decodeUpdateFees_encodeUpdateFees {askFeeBps bidFeeBps : BitVec 32} {fees : Nat}
    (h : encodeUpdateFees askFeeBps bidFeeBps = .ok fees) :
    decodeUpdateFees fees = .ok (askFeeBps, bidFeeBps) := by
  simp only [encodeUpdateFees, bind_eq_ok,
    validateNative_eq_ok (show feeBits < 128 by decide), Except.ok.injEq] at h
  obtain ⟨-, hask, -, hbid, rfl⟩ := h
  have hsum : askFeeBps.toNat ||| bidFeeBps.toNat <<< feeBits =
      2 ^ feeBits * bidFeeBps.toNat + askFeeBps.toNat := by
    rw [lor_comm, shiftLeft_eq, mul_comm, ← two_pow_add_eq_or_of_lt hask]
  have hbid' : bidFeeBps.toNat < 2 ^ 20 := hbid
  have hask' : askFeeBps.toNat < 2 ^ 20 := hask
  rw [hsum, decodeUpdateFees_eq (by simp only [feeBits]; omega)]
  refine congrArg Except.ok (Prod.ext (BitVec.eq_of_toNat_eq ?_) (BitVec.eq_of_toNat_eq ?_))
  · simp only [BitVec.toNat_ofNat, feeBits]
    omega
  · simp only [BitVec.toNat_ofNat, feeBits]
    omega

/-! ### One update -/

theorem natAbsDiff_eq (a b : Nat) : (((a - b) + (b - a) : Nat) : Int) = |(a : Int) - b| := by
  rcases le_total a b with h | h
  · rw [abs_of_nonpos (by omega)]
    omega
  · rw [abs_of_nonneg (by omega)]
    omega

theorem exceedsThreshold_eq (view : LaneSlot0) (u : LaneUpdate) :
    (view.thresholdEnabled && view.price != 0 &&
      decide (view.price.toNat * view.pricePushThreshold.toNat <
        ((u.price.toNat - view.price.toNat) + (view.price.toNat - u.price.toNat)) * 100)) =
      decide (u.Exceeds view) := by
  have hcompare : view.price.toNat * view.pricePushThreshold.toNat <
      ((u.price.toNat - view.price.toNat) + (view.price.toNat - u.price.toNat)) * 100 ↔
      (view.price.toNat : Int) * view.pricePushThreshold.toNat <
        100 * |(u.price.toNat : Int) - view.price.toNat| := by
    rw [← natAbsDiff_eq, mul_comm (100 : Int)]
    exact_mod_cast Iff.rfl
  rw [Bool.eq_iff_iff, decide_eq_true_iff (p := u.Exceeds view)]
  simp only [Bool.and_eq_true, bne_iff_ne, decide_eq_true_eq, hcompare, and_assoc]
  exact Iff.rfl

namespace LaneUpdate

variable {word word' : U256} {u : LaneUpdate}

theorem apply_eq (h : u.InRange) :
    u.apply word = encodeLaneSlot0 (u.next (decodeLaneSlot0 word)) := by
  rw [apply, applyLaneUpdateSlot0, (validateNative_eq_ok (by decide)).mpr h.price, ok_bind,
    (validateNative_eq_ok (by decide)).mpr h.fees, ok_bind,
    (validateNative_eq_ok (by decide)).mpr h.blockNumber, ok_bind,
    decodeUpdateFees_eq h.fees, ok_bind]
  dsimp only
  rw [exceedsThreshold_eq, next]
  congr 2
  cases decide (u.Exceeds (decodeLaneSlot0 word)) with
  | true | false => simp

theorem validateNative_error {value bits : Nat} (field : String) (hbits : bits < 128)
    (h : ¬ value < 2 ^ bits) :
    validateNative value bits field = .error (.fieldOverflow field bits) :=
  if_pos ⟨hbits, Nat.le_of_not_lt h⟩

/-- An update out of range is refused. -/
theorem apply_eq_error (h : ¬ u.InRange) : ∃ e, u.apply word = .error e := by
  rw [apply, applyLaneUpdateSlot0]
  by_cases hprice : u.price.toNat < 2 ^ priceBits
  · rw [(validateNative_eq_ok (by decide)).mpr hprice, ok_bind]
    by_cases hfees : u.fees < 2 ^ 40
    · rw [(validateNative_eq_ok (by decide)).mpr hfees, ok_bind]
      have hblock : ¬ u.blockNumber < 2 ^ blockBits := fun hblock => h ⟨hprice, hfees, hblock⟩
      rw [validateNative_error _ (by decide) hblock]
      exact ⟨_, rfl⟩
    · rw [validateNative_error _ (by decide) hfees]
      exact ⟨_, rfl⟩
  · rw [validateNative_error _ (by decide) hprice]
    exact ⟨_, rfl⟩

theorem toNat_ofNat_fee {n : Nat} (h : n < 2 ^ feeBits) :
    (BitVec.ofNat 32 n).toNat < 2 ^ feeBits := by
  exact (mod_le _ _).trans_lt h

theorem next_fits (h : u.InRange) {view : LaneSlot0} (hview : view.Fits) : (u.next view).Fits where
  price := h.price
  askFeeBps := toNat_ofNat_fee (mod_lt _ (by decide))
  bidFeeBps := toNat_ofNat_fee (Nat.div_lt_of_lt_mul h.fees)
  pricePushThreshold := hview.pricePushThreshold
  latestUpdateBlock := h.blockNumber
  reservedHighBits := hview.reservedHighBits

/-- **One update is an equation between views.**  It succeeds on arguments in range, and its word
has the next view. -/
theorem exists_apply (word : U256) (h : u.InRange) :
    ∃ word', u.apply word = .ok word' ∧ decodeLaneSlot0 word' = u.next (decodeLaneSlot0 word) := by
  have hencode := encodeLaneSlot0_eq_ok.mpr ⟨next_fits h (decodeLaneSlot0_fits word), rfl⟩
  exact ⟨_, (apply_eq h).trans hencode, decodeLaneSlot0_encodeLaneSlot0 hencode⟩

/-! ### A history -/

/-- What no update touches. -/
def Untouched (view view' : LaneSlot0) : Prop :=
  view' = { view with
      price := view'.price
      askFeeBps := view'.askFeeBps
      bidFeeBps := view'.bidFeeBps
      latestUpdateBlock := view'.latestUpdateBlock
      paused := view'.paused }

theorem untouched_next {view view' : LaneSlot0} (h : Untouched view view') :
    Untouched view (u.next view') := by
  unfold Untouched at h ⊢
  rw [next, h]

theorem applyAll_concat {before : List LaneUpdate} {middle : U256}
    (hbefore : applyAll word before = .ok middle) (hlast : u.apply middle = .ok word') :
    applyAll word (before ++ [u]) = .ok word' := by
  rw [applyAll, foldlM_append]
  change (applyAll word before >>= fun word => [u].foldlM apply word) = _
  rw [hbefore, ok_bind, foldlM_cons, hlast]
  rfl

theorem exists_applyAll (word : U256) {updates : List LaneUpdate} (h : ∀ u ∈ updates, u.InRange) :
    ∃ word', applyAll word updates = .ok word' ∧
      Untouched (decodeLaneSlot0 word) (decodeLaneSlot0 word') := by
  induction updates using List.reverseRecOn with
  | nil => exact ⟨word, rfl, rfl⟩
  | append_singleton before u ih =>
    obtain ⟨middle, hmiddle, huntouched⟩ := ih fun u' hu' => h u' (mem_append_left _ hu')
    obtain ⟨word', hword', hview⟩ :=
      exists_apply middle (h u (mem_append_right _ mem_cons_self))
    exact ⟨word', applyAll_concat hmiddle hword', hview ▸ untouched_next huntouched⟩

end LaneUpdate

/-- **Lane updates follow the threshold policy over any history.**  After any updates in range one
more of them in range succeeds.  It pauses the lane exactly when the price exceeds the threshold,
and a pause stays; price, fees and block are its own, and everything else is as in the word the
history started from.  An update out of range is refused in every word. -/
theorem lane_updates_follow_policy (initial : U256) :
    (∀ (before : List LaneUpdate) (u : LaneUpdate), (∀ u' ∈ before ++ [u], u'.InRange) →
      ∃ word word', LaneUpdate.applyAll initial before = .ok word ∧
        LaneUpdate.applyAll initial (before ++ [u]) = .ok word' ∧
        ((decodeLaneSlot0 word').paused = true ↔ (decodeLaneSlot0 word).paused = true ∨
          (decodeLaneSlot0 initial).thresholdEnabled = true ∧ (decodeLaneSlot0 word).price ≠ 0 ∧
            ((decodeLaneSlot0 word).price.toNat : Int) *
                (decodeLaneSlot0 initial).pricePushThreshold.toNat <
              100 * |(u.price.toNat : Int) - (decodeLaneSlot0 word).price.toNat|) ∧
        decodeLaneSlot0 word' = { decodeLaneSlot0 initial with
            price := u.price
            askFeeBps := BitVec.ofNat 32 (u.fees % 2 ^ feeBits)
            bidFeeBps := BitVec.ofNat 32 (u.fees / 2 ^ feeBits)
            latestUpdateBlock := u.blockNumber
            paused := (decodeLaneSlot0 word').paused }) ∧
    ∀ (word : U256) (u : LaneUpdate), ¬ u.InRange → ∃ e, u.apply word = .error e := by
  refine ⟨fun before u hrange => ?_, fun word u hrange => LaneUpdate.apply_eq_error hrange⟩
  obtain ⟨word, hword, huntouched⟩ := LaneUpdate.exists_applyAll initial
    fun u' hu' => hrange u' (mem_append_left _ hu')
  obtain ⟨word', hword', hview⟩ :=
    LaneUpdate.exists_apply word (hrange u (mem_append_right _ mem_cons_self))
  -- the threshold is still the one of the initial word
  have henabled := congrArg thresholdEnabled huntouched
  have hthreshold := congrArg pricePushThreshold huntouched
  refine ⟨word, word', hword, LaneUpdate.applyAll_concat hword hword', ?_, ?_⟩
  · rw [congrArg paused hview, LaneUpdate.next, Bool.or_eq_true, decide_eq_true_iff,
      LaneUpdate.Exceeds, henabled, hthreshold]
  have hnext := LaneUpdate.untouched_next (u := u) huntouched
  rw [← hview] at hnext
  rw [hnext, congrArg price hview, congrArg askFeeBps hview,
    congrArg bidFeeBps hview, congrArg latestUpdateBlock hview]
  rfl

/-- A lane at price 100 with a threshold of ten percent. -/
def thresholdWord : U256 :=
  100#256 ||| (10#256 <<< thresholdShift) ||| (1#256 <<< thresholdEnabledShift) |||
    (1#256 <<< existsShift)

/-- From 100 to 110 is within ten percent, from 110 to 122 is not. -/
theorem lane_updates_follow_policy_jump :
    ∃ word word', LaneUpdate.applyAll thresholdWord [⟨110, 5, 7⟩] = .ok word ∧
      LaneUpdate.applyAll thresholdWord [⟨110, 5, 7⟩, ⟨122, 5, 8⟩] = .ok word' ∧
      (decodeLaneSlot0 word').paused = true := by
  have hrange : ∀ u ∈ [⟨110, 5, 7⟩] ++ [(⟨122, 5, 8⟩ : LaneUpdate)], u.InRange := by
    simp only [cons_append, nil_append, forall_mem_cons, not_mem_nil,
      false_imp_iff, implies_true, and_true]
    exact ⟨⟨by decide, by decide, by decide⟩, ⟨by decide, by decide, by decide⟩⟩
  obtain ⟨word, word', hword, hword', hpaused, -⟩ :=
    (lane_updates_follow_policy thresholdWord).1 [⟨110, 5, 7⟩] ⟨122, 5, 8⟩ hrange
  refine ⟨word, word', hword, hword', hpaused.mpr (.inr ?_)⟩
  obtain rfl : _ = word := Except.ok.inj hword
  decide +kernel

end Lunarbase.Math
