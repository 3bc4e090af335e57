import Lunarbase.Math.Quote

/-!
# Math — Monotone

Exact-out quotes in the amount.  Every step of an exact-out quote is monotone in what it takes
over from the step before: the conversions, the slippage, the fee and the whole spread are rounded
up, and a smaller argument overflows less.  The slippage amount alone is a difference of two
rounded numbers and not monotone; the input it is added into is.
-/

namespace Lunarbase.Math

open Except (Below)
open Nat

/-! ### Arithmetic -/

/-- A smaller number, zero only with the larger. -/
def Shrinks (x y : U256) : Prop := x ≤ y ∧ (y ≠ 0 → x ≠ 0)

theorem wad_ne_zero : wad ≠ 0 := by decide

theorem word_le_refl (x : U256) : x ≤ x := BitVec.le_def.mpr (le_refl _)

theorem word_zero_le (x : U256) : 0 ≤ x := BitVec.le_def.mpr (zero_le _)

theorem ceilDiv_mono {a b d : Nat} (hd : 0 < d) (h : a ≤ b) : a ⌈/⌉ d ≤ b ⌈/⌉ d :=
  (gc_mul_ceilDiv hd).monotone_l h

theorem ceilDiv_pos {a d : Nat} (hd : 0 < d) (h : 0 < a) : 0 < a ⌈/⌉ d := by
  by_contra hzero
  have hle := (ceilDiv_le_iff_le_mul hd).mp (Nat.le_of_not_lt hzero)
  omega

/-- A computation that returns a number if it is a word, and the same for a smaller number. -/
theorem below_of_word {x y : Except MathError U256} {m n : Nat} (hx : ∀ r, x = .ok r ↔ r.toNat = m)
    (hy : ∀ r, y = .ok r ↔ r.toNat = n) (h : m ≤ n) : Below (· ≤ ·) x y := by
  intro r' hr'
  have hword : m < 2 ^ 256 := h.trans_lt ((hy r').mp hr' ▸ r'.isLt)
  have hm : (BitVec.ofNat 256 m).toNat = m := by rw [BitVec.toNat_ofNat, mod_eq_of_lt hword]
  refine ⟨BitVec.ofNat 256 m, (hx _).mpr hm, BitVec.le_def.mpr ?_⟩
  rw [hm, (hy r').mp hr']
  exact h

variable {x x' y y' d : U256}

theorem checkedAdd_below (hx : x ≤ x') (hy : y ≤ y') :
    Below (· ≤ ·) (checkedAdd x y) (checkedAdd x' y') :=
  below_of_word (fun _ => checkedAdd_eq_ok) (fun _ => checkedAdd_eq_ok)
    (Nat.add_le_add (BitVec.le_def.mp hx) (BitVec.le_def.mp hy))

theorem fullMulDivUp_below (hd : d ≠ 0) (hx : x ≤ x') (hy : y ≤ y') :
    Below (· ≤ ·) (fullMulDivUp x y d) (fullMulDivUp x' y' d) :=
  below_of_word (fun _ => fullMulDivUp_eq_ok hd) (fun _ => fullMulDivUp_eq_ok hd)
    (ceilDiv_mono (toNat_ne_zero.mp hd)
      (Nat.mul_le_mul (BitVec.le_def.mp hx) (BitVec.le_def.mp hy)))

theorem ceilDiv_below (hd : d ≠ 0) (hx : x ≤ x') : Below (· ≤ ·) (ceilDiv x d) (ceilDiv x' d) :=
  below_of_word (fun _ => ceilDiv_eq_ok hd) (fun _ => ceilDiv_eq_ok hd)
    (ceilDiv_mono (toNat_ne_zero.mp hd) (BitVec.le_def.mp hx))

theorem ne_zero_of_le (h : x ≤ y) (hx : x ≠ 0) : y ≠ 0 :=
  toNat_ne_zero.mpr ((toNat_ne_zero.mp hx).trans_le (BitVec.le_def.mp h))

theorem min_le_min_of_le {cap : U256} (h : x ≤ y) :
    (if x ≤ cap then x else cap) ≤ if y ≤ cap then y else cap := by
  rw [BitVec.le_def] at h
  split_ifs with hx hy hy
  · exact BitVec.le_def.mpr h
  · exact hx
  · rw [BitVec.le_def] at hx hy
    omega
  · exact word_le_refl cap

/-! ### Conversion, slippage and fee -/

theorem fullMulDivUp_shrinks {factor : U256} (hd : d ≠ 0) (hfactor : factor ≠ 0)
    (h : Shrinks x y) : Below Shrinks (fullMulDivUp x factor d) (fullMulDivUp y factor d) := by
  intro r' hr'
  obtain ⟨r, hr, hle⟩ := fullMulDivUp_below hd h.1 (word_le_refl factor) r' hr'
  refine ⟨r, hr, hle, fun hr'zero => ?_⟩
  -- a zero amount is converted to zero
  have hy : y ≠ 0 := by
    rintro rfl
    refine hr'zero (BitVec.eq_of_toNat_eq ?_)
    rw [(fullMulDivUp_eq_ok hd).mp hr']
    simp
  rw [toNat_ne_zero, (fullMulDivUp_eq_ok hd).mp hr]
  exact ceilDiv_pos (toNat_ne_zero.mp hd)
    (mul_pos (toNat_ne_zero.mp (h.2 hy)) (toNat_ne_zero.mp hfactor))

theorem quoteLaneExactOut_below (price : U256) (cashToAsset : Bool) (h : Shrinks x y) :
    Below Shrinks (quoteLaneExactOut price x cashToAsset)
      (quoteLaneExactOut price y cashToAsset) := by
  rw [quoteLaneExactOut, quoteLaneExactOut]
  by_cases hprice : price = 0
  · rw [if_pos hprice, if_pos hprice]
    refine .ok _ fun r hr => ?_
    rw [← Except.ok.inj hr]
    exact ⟨word_le_refl 0, fun hne => hne⟩
  rw [if_neg hprice, if_neg hprice]
  cases cashToAsset with
  | true =>
    exact fullMulDivUp_shrinks wad_ne_zero hprice h
  | false =>
    rw [if_neg Bool.false_ne_true, if_neg Bool.false_ne_true]
    exact fullMulDivUp_shrinks hprice wad_ne_zero h

theorem quoteLaneSlippageBps_below (principal k : U256) (h : x ≤ y) :
    Below (· ≤ ·) (quoteLaneSlippageBps x principal k) (quoteLaneSlippageBps y principal k) := by
  by_cases hzero : x = 0 ∨ principal = 0 ∨ k = 0
  · rw [quoteLaneSlippageBps, if_pos hzero]
    exact .ok _ fun r _ => word_zero_le r
  simp only [not_or] at hzero
  obtain ⟨hx, hprincipal, hk⟩ := hzero
  have hy : y ≠ 0 := ne_zero_of_le h hx
  simp only [quoteLaneSlippageBps, hx, hy, hprincipal, hk, or_self, if_false]
  refine (fullMulDivUp_below hprincipal h (word_le_refl k)).bind fun raw raw' _ _ hraw => ?_
  refine (ceilDiv_below (by decide) hraw).bind fun rounded rounded' _ _ hrounded => ?_
  refine .ok _ fun r hr => ?_
  rw [← Except.ok.inj hr]
  exact min_le_min_of_le hrounded

theorem quoteLaneExactOutFee_below (hanchor : x ≤ x') (hbps : y ≤ y') :
    Below (· ≤ ·) (quoteLaneExactOutFee x y) (quoteLaneExactOutFee x' y') := by
  by_cases hzero : x = 0 ∨ y = 0
  · rw [quoteLaneExactOutFee, if_pos hzero]
    exact .ok _ fun r _ => word_zero_le r
  simp only [not_or] at hzero
  have hx' : x' ≠ 0 := ne_zero_of_le hanchor hzero.1
  have hy' : y' ≠ 0 := ne_zero_of_le hbps hzero.2
  simp only [quoteLaneExactOutFee, hzero.1, hzero.2, hx', hy', or_self, if_false]
  exact fullMulDivUp_below (by decide) hanchor hbps

/-- The fee and what is added to it: neither the fee nor the sum is larger. -/
def SpreadLe (fee slippage fee' slippage' : U256) : Prop :=
  fee ≤ fee' ∧ fee.toNat + slippage.toNat ≤ fee'.toNat + slippage'.toNat

/-- The slippage amount is what the whole spread has over the fee.  The subtraction does not fail:
the fee is the spread at a smaller rate. -/
theorem slippageAmount_below {anchor feeBps totalBps fee fee' total total' : U256}
    (hbps : feeBps ≤ totalBps) (hfeeOf : quoteLaneExactOutFee anchor feeBps = .ok fee)
    (htotalOf : quoteLaneExactOutFee anchor totalBps = .ok total) (hfee : fee ≤ fee')
    (htotal : total ≤ total') :
    Below (fun slippage slippage' => SpreadLe fee slippage fee' slippage') (checkedSub total fee)
      (checkedSub total' fee') := by
  have hwithin : fee.toNat ≤ total.toNat := by
    obtain ⟨fee₀, hfee₀, hle⟩ :=
      quoteLaneExactOutFee_below (word_le_refl anchor) hbps total htotalOf
    rw [Except.ok.inj (hfeeOf.symm.trans hfee₀)]
    exact BitVec.le_def.mp hle
  intro slippage' hslippage'
  rw [checkedSub_eq_ok] at hslippage'
  have hsub : (total - fee).toNat = total.toNat - fee.toNat :=
    BitVec.toNat_sub_of_le (BitVec.le_def.mpr hwithin)
  rw [BitVec.le_def] at htotal
  refine ⟨total - fee, ?_, hfee, ?_⟩
  · rw [checkedSub_eq_ok]
    omega
  · omega

theorem laneSpread_below {anchor anchor' feeBps slippageBps slippageBps' : U256}
    (hanchor : anchor ≤ anchor') (hslippage : slippageBps ≤ slippageBps') :
    Below (fun spread spread' => SpreadLe spread.1 spread.2 spread'.1 spread'.2)
      (laneSpread anchor feeBps slippageBps false)
      (laneSpread anchor' feeBps slippageBps' false) := by
  refine (quoteLaneExactOutFee_below hanchor (word_le_refl feeBps)).bind
    fun fee fee' hfeeOf _ hfee => ?_
  refine (checkedAdd_below (word_le_refl _) hslippage).bind
    fun totalBps totalBps' htotalBps _ hbps => ?_
  refine (quoteLaneExactOutFee_below hanchor hbps).bind fun total total' htotalOf _ htotal => ?_
  have hrate : feeBps ≤ totalBps := by
    rw [BitVec.le_def, checkedAdd_eq_ok.mp htotalBps]
    omega
  refine (slippageAmount_below hrate hfeeOf htotalOf hfee htotal).bind
    fun slippage slippage' _ _ hspread => ?_
  exact .ok _ fun spread' hspread' => Except.ok.inj hspread' ▸ hspread

/-! ### Fee split -/

/-- A share that does not exceed its whole does not exceed a smaller whole. -/
theorem share_le_of_le {a b share d : Nat} (hd : 0 < d) (h : a ≤ b) (hb : b * share / d ≤ b) :
    a * share / d ≤ a := by
  rw [← Nat.lt_succ_iff, Nat.div_lt_iff_lt_mul hd, Nat.succ_mul] at hb ⊢
  by_cases hshare : share ≤ d
  · have hle : a * share ≤ a * d := mul_le_mul_left a hshare
    omega
  obtain ⟨extra, rfl⟩ := Nat.exists_eq_add_of_lt (Nat.lt_of_not_le hshare)
  have hle : a * (extra + 1) ≤ b * (extra + 1) := mul_le_mul_right _ h
  simp only [add_assoc, mul_add a, mul_add b] at hb hle ⊢
  omega

/-- The partner's part fits into the smaller fee if it does into the larger. -/
theorem partnerFee_below (share : U256) (h : x ≤ y) :
    Below (fun partner partner' => partner'.toNat ≤ y.toNat → partner.toNat ≤ x.toNat)
      (mulDivDown256 x share bps) (mulDivDown256 y share bps) := by
  have hbps : bps ≠ 0 := by decide
  have hle : x.toNat * share.toNat ≤ y.toNat * share.toNat :=
    mul_le_mul_right _ (BitVec.le_def.mp h)
  intro partner' hpartner'
  obtain ⟨hproduct, hpartner'⟩ := (mulDivDown256_eq_ok hbps).mp hpartner'
  have hword : x.toNat * share.toNat < 2 ^ 256 := hle.trans_lt hproduct
  have hpartner : (BitVec.ofNat 256 (x.toNat * share.toNat / bps.toNat)).toNat =
      x.toNat * share.toNat / bps.toNat := by
    rw [BitVec.toNat_ofNat, mod_eq_of_lt ((div_le_self _ _).trans_lt hword)]
  refine ⟨_, (mulDivDown256_eq_ok hbps).mpr ⟨hword, hpartner⟩, fun hwithin => ?_⟩
  rw [hpartner]
  rw [hpartner'] at hwithin
  exact share_le_of_le (by decide) (BitVec.le_def.mp h) hwithin

theorem splitFee_below (share : U256) (h : x ≤ y) :
    Below (fun _ _ => True) (splitFee x share) (splitFee y share) := by
  by_cases hx : x = 0
  · rw [splitFee, if_pos hx]
    exact .ok _ fun _ _ => trivial
  rw [splitFee, splitFee, if_neg hx, if_neg (ne_zero_of_le h hx)]
  have hpartner : Below (fun partner partner' => partner'.toNat ≤ y.toNat →
      partner.toNat ≤ x.toNat) (if share = 0 then .ok 0 else mulDivDown256 x share bps)
      (if share = 0 then .ok 0 else mulDivDown256 y share bps) := by
    by_cases hshare : share = 0
    · rw [if_pos hshare]
      exact .ok _ fun _ _ _ => zero_le _
    · rw [if_neg hshare, if_neg hshare]
      exact partnerFee_below share h
  refine hpartner.bind fun partner partner' _ _ hwithin => ?_
  -- the treasury gets the rest, which is there
  have htreasury : Below (fun _ _ => True) (checkedSub x partner) (checkedSub y partner') := by
    intro treasury' htreasury'
    rw [checkedSub_eq_ok] at htreasury'
    have hle : partner.toNat ≤ x.toNat := hwithin (by omega)
    refine ⟨x - partner, checkedSub_eq_ok.mpr ?_, trivial⟩
    rw [BitVec.toNat_sub_of_le (BitVec.le_def.mpr hle)]
    omega
  exact htreasury.bind fun _ _ _ _ _ => .ok _ fun _ _ => trivial

theorem allocateFee_below (policy : QuotePolicy) (h : x ≤ y) :
    Below (fun _ _ => True) (allocateFee policy x) (allocateFee policy y) := by
  rw [allocateFee, allocateFee]
  cases policy.verifiedPartnerFeeBps with
  | none => exact .ok _ fun _ _ => trivial
  | some share =>
    exact (splitFee_below _ h).bind fun _ _ _ _ _ => .ok _ fun _ _ => trivial

/-! ### Quotes -/

/-- Wherever `y` offers a quote, `x` offers one with no larger input and no larger fee. -/
def Cheaper (x y : Except MathError QuoteOutcome) : Prop :=
  ∀ result', y = .ok (.available result') → ∃ result, x = .ok (.available result) ∧
    result.amountIn ≤ result'.amountIn ∧ result.feeAmount ≤ result'.feeAmount

theorem Cheaper.unavailable (x : Except MathError QuoteOutcome) (reason : UnavailableReason) :
    Cheaper x (.ok (.unavailable reason)) := nofun

theorem Cheaper.bind {α α' : Type} {R : α → α' → Prop} {x : Except MathError α}
    {y : Except MathError α'} {f : α → Except MathError QuoteOutcome}
    {g : α' → Except MathError QuoteOutcome} (hx : Below R x y)
    (hf : ∀ a a', x = .ok a → y = .ok a' → R a a' → Cheaper (f a) (g a')) :
    Cheaper (x >>= f) (y >>= g) := by
  intro result' h
  obtain ⟨a', ha', h⟩ := Except.bind_eq_ok.mp h
  obtain ⟨a, ha, hrel⟩ := hx a' ha'
  obtain ⟨result, hresult, hle⟩ := hf a a' ha ha' hrel result' h
  exact ⟨result, Except.bind_eq_ok.mpr ⟨a, ha, hresult⟩, hle⟩

/-- A test that rules out the larger quote if it rules out the smaller. -/
theorem Cheaper.guard {c c' : Prop} [Decidable c] [Decidable c'] {reason : UnavailableReason}
    {x y : Except MathError QuoteOutcome} (hc : c → c') (h : ¬ c → ¬ c' → Cheaper x y) :
    Cheaper (if c then .ok (.unavailable reason) else x)
      (if c' then .ok (.unavailable reason) else y) := by
  by_cases hc' : c'
  · rw [if_pos hc']
    exact .unavailable _ _
  have hnot : ¬ c := fun h => hc' (hc h)
  rw [if_neg hc', if_neg hnot]
  exact h hnot hc'

section

variable {state : QuoteState} {policy : QuotePolicy} {assetIn assetOut feeAsset : Address}

/-- The request for an exact output. -/
def exactOutOf (assetIn assetOut : Address) (amount : U256) : QuoteRequest :=
  ⟨assetIn, assetOut, amount, .exactOut⟩

theorem settleQuote_cheaper {fee fee' amountIn amountIn' : U256} (hfee : fee ≤ fee')
    (hin : amountIn ≤ amountIn') (hout : x ≤ y) :
    Cheaper (settleQuote state policy (exactOutOf assetIn assetOut x) feeAsset fee amountIn x)
      (settleQuote state policy (exactOutOf assetIn assetOut y) feeAsset fee' amountIn' y) := by
  rw [settleQuote, settleQuote]
  cases hreserve : outputReserve state (exactOutOf assetIn assetOut y).assetOut with
  | none => exact .unavailable _ _
  | some reserve =>
    have hreserve' : outputReserve state (exactOutOf assetIn assetOut x).assetOut =
        some reserve := hreserve
    simp only [hreserve']
    have hinsufficient : Below (fun short short' => short = true → short' = true)
        (reserveInsufficient .exactOut (reserve.setWidth 256) x fee)
        (reserveInsufficient .exactOut (reserve.setWidth 256) y fee') := by
      rw [reserveInsufficient, reserveInsufficient]
      by_cases hshort : reserve.setWidth 256 < x
      · have hshort' : reserve.setWidth 256 < y := by
          exact hshort.trans_le (BitVec.le_def.mp hout)
        rw [if_pos hshort, if_pos hshort']
        exact .ok _ fun _ h => Except.ok.inj h ▸ id
      · rw [if_neg hshort]
        exact .ok _ nofun
    refine Cheaper.bind hinsufficient fun short short' _ _ hshort => .guard hshort fun _ _ => ?_
    refine Cheaper.bind (allocateFee_below policy hfee) fun allocation allocation' _ _ _ => ?_
    intro result' hresult'
    obtain rfl : _ = result' := by simpa using hresult'
    exact ⟨_, rfl, hin, hfee⟩

theorem assembleQuote_cheaper {anchor anchor' fee fee' slippage slippage' : U256} (hxy : x ≤ y)
    (hanchor : anchor ≤ anchor') (hspread : SpreadLe fee slippage fee' slippage') :
    Cheaper
      (assembleQuote state policy (exactOutOf assetIn assetOut x) feeAsset anchor fee slippage)
      (assembleQuote state policy (exactOutOf assetIn assetOut y) feeAsset anchor' fee'
        slippage') := by
  have hsum : Below (· ≤ ·) (checkedAdd fee slippage) (checkedAdd fee' slippage') :=
    below_of_word (fun _ => checkedAdd_eq_ok) (fun _ => checkedAdd_eq_ok) hspread.2
  refine Cheaper.bind hsum fun total total' _ _ htotal => ?_
  refine Cheaper.bind (checkedAdd_below hanchor htotal) fun amountIn amountIn' _ _ hin => ?_
  exact settleQuote_cheaper hspread.1 hin hxy

theorem quoteDirect_cheaper {laneAsset : Address} {lane : LaneState} {cashToAsset : Bool}
    (hxy : Shrinks x y) :
    Cheaper
      (quoteDirect state policy (exactOutOf assetIn assetOut x) laneAsset lane cashToAsset feeAsset)
      (quoteDirect state policy (exactOutOf assetIn assetOut y) laneAsset lane cashToAsset
        feeAsset) := by
  refine Cheaper.bind (quoteLaneExactOut_below _ cashToAsset hxy)
    fun anchor anchor' _ _ hanchor => ?_
  refine .guard (fun hzero => not_not.mp fun hne => hanchor.2 hne hzero) fun _ _ => ?_
  refine Cheaper.bind (Below.refl _) fun principal _ _ _ hsame => ?_
  subst hsame
  refine .guard id fun _ _ => ?_
  refine Cheaper.bind (Below.refl _) fun feeBps _ _ _ hsame => ?_
  subst hsame
  -- the cash of the swap is the anchor or the amount
  have hcash : (if cashToAsset then anchor else x) ≤ if cashToAsset then anchor' else y := by
    cases cashToAsset with
    | true => exact hanchor.1
    | false => exact hxy.1
  refine Cheaper.bind (quoteLaneSlippageBps_below principal _ hcash)
    fun slippage slippage' _ _ hslippage => ?_
  refine Cheaper.bind (laneSpread_below hanchor.1 hslippage) fun spread spread' _ _ hspread => ?_
  exact assembleQuote_cheaper hxy.1 hanchor.1 hspread

variable {inputLane outputLane : LaneState}

theorem routeAnchor_below (hxy : Shrinks x y) :
    Below (fun cash cash' => Shrinks cash.1 cash'.1 ∧ Shrinks cash.2 cash'.2)
      (routeAnchor (exactOutOf assetIn assetOut x) inputLane outputLane)
      (routeAnchor (exactOutOf assetIn assetOut y) inputLane outputLane) := by
  refine (quoteLaneExactOut_below _ true hxy).bind fun cash cash' _ _ hcash => ?_
  refine (quoteLaneExactOut_below _ false hcash).bind fun anchor anchor' _ _ hanchor => ?_
  exact .ok _ fun pair hpair => Except.ok.inj hpair ▸ ⟨hcash, hanchor⟩

theorem quoteRoute_cheaper (hxy : Shrinks x y) :
    Cheaper (quoteRoute state policy (exactOutOf assetIn assetOut x) inputLane outputLane)
      (quoteRoute state policy (exactOutOf assetIn assetOut y) inputLane outputLane) := by
  refine Cheaper.bind (routeAnchor_below hxy) fun cash cash' _ _ hcash => ?_
  obtain ⟨intermediate, anchor⟩ := cash
  obtain ⟨intermediate', anchor'⟩ := cash'
  obtain ⟨hcash, hanchor⟩ := hcash
  refine .guard (fun hzero => not_not.mp fun hne => hanchor.2 hne hzero) fun _ _ => ?_
  refine Cheaper.bind (Below.refl _) fun first _ _ _ hsame => ?_
  subst hsame
  refine .guard id fun _ _ => ?_
  refine Cheaper.bind (Below.refl _) fun second _ _ _ hsame => ?_
  subst hsame
  refine .guard id fun _ _ => ?_
  refine Cheaper.bind (Below.refl _) fun weightedK _ _ _ hsame => ?_
  subst hsame
  refine Cheaper.bind (Below.refl _) fun totalPrincipal _ _ _ hsame => ?_
  subst hsame
  refine Cheaper.bind (quoteLaneSlippageBps_below totalPrincipal weightedK hcash.1)
    fun slippage slippage' _ _ hslippage => ?_
  refine Cheaper.bind (Below.refl _) fun bid _ _ _ hsame => ?_
  subst hsame
  refine Cheaper.bind (Below.refl _) fun ask _ _ _ hsame => ?_
  subst hsame
  refine Cheaper.bind (Below.refl _) fun feeBps _ hfeeBps _ hsame => ?_
  subst hsame
  refine Cheaper.bind (quoteLaneExactOutFee_below hanchor.1 (word_le_refl feeBps))
    fun fee fee' hfeeOf _ hfee => ?_
  refine Cheaper.bind (checkedAdd_below (word_le_refl _) hslippage)
    fun bidTotal bidTotal' hbidTotal _ hbid => ?_
  refine Cheaper.bind (checkedAdd_below (word_le_refl _) hslippage)
    fun askTotal askTotal' haskTotal _ hask => ?_
  refine Cheaper.bind (checkedAdd_below hbid hask) fun totalBps totalBps' htotalBps _ hbps => ?_
  refine Cheaper.bind (quoteLaneExactOutFee_below hanchor.1 hbps)
    fun total total' htotalOf _ htotal => ?_
  have hrate : feeBps ≤ totalBps := by
    rw [checkedAdd_eq_ok] at hfeeBps hbidTotal haskTotal htotalBps
    rw [BitVec.le_def]
    omega
  refine Cheaper.bind (slippageAmount_below hrate hfeeOf htotalOf hfee htotal)
    fun slippageAmount slippageAmount' _ _ hspread => ?_
  exact assembleQuote_cheaper hxy.1 hanchor.1 hspread

theorem quoteCore_cheaper (executionBlockNumber : Nat) (hx : x ≠ 0) (hxy : x ≤ y) :
    Cheaper (quoteCore (exactOutOf assetIn assetOut x) executionBlockNumber state policy)
      (quoteCore (exactOutOf assetIn assetOut y) executionBlockNumber state policy) := by
  have hshrinks : Shrinks x y := ⟨hxy, fun _ => hx⟩
  refine .guard (fun hzero => absurd hzero hx) fun _ _ => .guard id fun _ _ => ?_
  by_cases hcashOut : assetOut = state.cash
  · simp only [exactOutOf, hcashOut, if_true]
    cases laneOrReason state assetIn executionBlockNumber with
    | error reason => exact .unavailable _ _
    | ok lane => exact quoteDirect_cheaper hshrinks
  simp only [exactOutOf, hcashOut, if_false]
  by_cases hcashIn : assetIn = state.cash
  · simp only [hcashIn, if_true]
    cases laneOrReason state assetOut executionBlockNumber with
    | error reason => exact .unavailable _ _
    | ok lane => exact quoteDirect_cheaper hshrinks
  simp only [hcashIn, if_false]
  cases laneOrReason state assetIn executionBlockNumber with
  | error reason => exact .unavailable _ _
  | ok inputLane =>
    cases laneOrReason state assetOut executionBlockNumber with
    | error reason => exact .unavailable _ _
    | ok outputLane => exact quoteRoute_cheaper hshrinks

end

/-- **Exact-out quotes are monotone in the amount**, and available for every smaller amount. -/
theorem exactOut_monotone (state : QuoteState) (executionBlockNumber : Nat) (policy : QuotePolicy)
    (assetIn assetOut : Address) (x y : U256) (hx : 0 < x) (hxy : x ≤ y) (result' : QuoteResult)
    (h : quote ⟨assetIn, assetOut, y, .exactOut⟩ executionBlockNumber state policy =
      .ok (.available result')) :
    ∃ result, quote ⟨assetIn, assetOut, x, .exactOut⟩ executionBlockNumber state policy =
        .ok (.available result) ∧
      result.amountIn ≤ result'.amountIn ∧ result.feeAmount ≤ result'.feeAmount := by
  have hne : x ≠ 0 := toNat_ne_zero.mpr (BitVec.lt_def.mp hx)
  obtain ⟨result, hresult, hle⟩ :=
    quoteCore_cheaper executionBlockNumber hne hxy result' (quote_eq_ok.mp h)
  exact ⟨result, quote_eq_ok.mpr hresult, hle⟩

/-- One hundred units of cash cost no more than nine thousand, a quarter of the fee the
partner's. -/
theorem exactOut_monotone_sample :
    ∃ result, quote ⟨2, 1, 100, .exactOut⟩ 0 sampleState ⟨.whitelisted, some 250000⟩ =
        .ok (.available result) ∧
      result.amountIn ≤ 4505 ∧ result.feeAmount ≤ 5 := by
  exact exactOut_monotone sampleState 0 ⟨.whitelisted, some 250000⟩ 2 1 100 9000 (by decide)
    (by decide) ⟨4505, 9000, 2, 5, some ⟨1, 4⟩⟩ (by decide +kernel)

end Lunarbase.Math
