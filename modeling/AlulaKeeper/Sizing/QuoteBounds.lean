import Mathlib
import AlulaKeeper.Sizing.SeizureCaps
import AlulaKeeper.Sizing.Reach

/-!
# What a quote may seize

Exact values of both sides of a quote. Every rounding on the way from a repay to its seizure goes down, every
rounding of a refund goes up.

* `exactValue`: the oracle value of an amount, as a rational.
* `LiquidationPair.incentiveAmount_within_incentive`, `LiquidationPair.wholePositionRepay_within_incentive`:
  the seized value is at most the repaid one with the incentive, also after a refund.
* `LiquidationPair.WithinLtv`, `LiquidationPair.withinLtv_of_le`: the LTV cap.
* `quote_within_incentive_and_ltv`: what every quote keeps to.
-/

namespace AlulaKeeper

open I128

/-! ## Exact values -/

/-- The exact oracle value of an amount. -/
def exactValue (amount : ℤ) (pool : PoolData) : ℚ :=
  amount * pool.oracleAssetPrice / pow10 pool.tokenDecimals

theorem tdiv_le_div {n d : ℤ} (hn : 0 ≤ n) (hd : 0 < d) : ((n.tdiv d : ℤ) : ℚ) ≤ n / d := by
  have hd' : (0 : ℚ) < d := by exact_mod_cast hd
  rw [le_div_iff₀ hd']
  exact_mod_cast tdiv_mul_le hn hd

theorem div_le_ceil {n d : ℤ} (hn : 0 ≤ n) (hd : 0 < d) : (n / d : ℚ) ≤ (((n + (d - 1)).tdiv d : ℤ) : ℚ) := by
  have hd' : (0 : ℚ) < d := by exact_mod_cast hd
  rw [div_le_iff₀ hd']
  exact_mod_cast le_ceil_tdiv_mul hn hd

section Values

variable {pool : PoolData} {a b v : ℤ}

theorem exactValue_mono (hp : 0 < pool.oracleAssetPrice) (h : a ≤ b) :
    exactValue a pool ≤ exactValue b pool := by
  have hp' : (0 : ℚ) < pool.oracleAssetPrice := by exact_mod_cast hp
  have ht : (0 : ℚ) < pow10 pool.tokenDecimals := by exact_mod_cast pow10_pos _
  have hab : (a : ℚ) ≤ b := by exact_mod_cast h
  unfold exactValue
  gcongr

theorem valueFloor_le_exactValue (hp : 0 < pool.oracleAssetPrice) (ha : 0 ≤ a) :
    (((a * pool.oracleAssetPrice).tdiv (pow10 pool.tokenDecimals) : ℤ) : ℚ) ≤ exactValue a pool := by
  have h := tdiv_le_div (mul_nonneg ha hp.le) (pow10_pos pool.tokenDecimals)
  rw [Int.cast_mul] at h
  exact h

theorem exactValue_le_valueCeil (hp : 0 < pool.oracleAssetPrice) (ha : 0 ≤ a) (h : valueCeil a pool = .ok v) :
    exactValue a pool ≤ v := by
  obtain ⟨-, -, -, rfl⟩ := valueCeil_eq_ok.mp h
  have h := div_le_ceil (mul_nonneg ha hp.le) (pow10_pos pool.tokenDecimals)
  rw [Int.cast_mul] at h
  exact h

theorem exactValue_tokens_le (hp : 0 < pool.oracleAssetPrice) (hv : 0 ≤ v) :
    exactValue ((v * pow10 pool.tokenDecimals).tdiv pool.oracleAssetPrice) pool ≤ v := by
  have hp' : (0 : ℚ) < pool.oracleAssetPrice := by exact_mod_cast hp
  have ht : (0 : ℚ) < pow10 pool.tokenDecimals := by exact_mod_cast pow10_pos _
  have h := tdiv_le_div (mul_nonneg hv (pow10_pos pool.tokenDecimals).le) hp
  rw [Int.cast_mul, le_div_iff₀ hp'] at h
  rw [exactValue, div_le_iff₀ ht]
  exact h

theorem le_exactValue_amountCeil (hp : 0 < pool.oracleAssetPrice) (hv : 0 ≤ v)
    (h : amountCeil v pool = .ok a) : (v : ℚ) ≤ exactValue a pool := by
  simp only [amountCeil, tokenFactor, bind_eq_ok, mOu_eq_ok, checkedPow10_eq_some, checkedMul_eq_some,
    checkedAdd_eq_some, rawSub_eq_ok] at h
  obtain ⟨_, ⟨-, rfl⟩, _, ⟨-, rfl⟩, _, ⟨-, rfl⟩, _, ⟨hfit, rfl⟩, h⟩ := h
  rw [checkedDiv_eq_some_of_pos hfit hp] at h
  have hp' : (0 : ℚ) < pool.oracleAssetPrice := by exact_mod_cast hp
  have ht : (0 : ℚ) < pow10 pool.tokenDecimals := by exact_mod_cast pow10_pos _
  have hceil := div_le_ceil (mul_nonneg hv (pow10_pos pool.tokenDecimals).le) hp
  rw [h, Int.cast_mul, div_le_iff₀ hp'] at hceil
  rw [exactValue, le_div_iff₀ ht]
  exact hceil

end Values

namespace LiquidationPair

variable {pair : LiquidationPair} {lifted : Bool} {repay seized repaid pc x b : ℤ}

/-! ## The incentive -/

theorem incentiveAmount_within_incentive (hb : 0 < pair.borrowPool.oracleAssetPrice)
    (hc : 0 < pair.collateralPool.oracleAssetPrice) (hf : 0 ≤ bpsFactor + pair.incentiveBps) (hx : 0 ≤ x) :
    exactValue (pair.incentiveAmount x) pair.collateralPool * bpsFactor ≤
      exactValue x pair.borrowPool * (bpsFactor + pair.incentiveBps) := by
  have hf' : (0 : ℚ) ≤ bpsFactor + pair.incentiveBps := by exact_mod_cast hf
  have hv : 0 ≤ pair.repaidValue x := Int.tdiv_nonneg (mul_nonneg hx hb.le) (pow10_pos _).le
  have ha : 0 ≤ pair.collateralWorth (pair.repaidValue x) :=
    Int.tdiv_nonneg (mul_nonneg hv (pow10_pos _).le) hc.le
  have hbps : (0 : ℚ) < bpsFactor := by exact_mod_cast bpsFactor_pos
  have hamount : (pair.incentiveAmount x : ℚ) * bpsFactor ≤
      pair.collateralWorth (pair.repaidValue x) * (bpsFactor + pair.incentiveBps) := by
    have h := tdiv_le_div (mul_nonneg ha hf) bpsFactor_pos
    rw [le_div_iff₀ hbps] at h
    exact_mod_cast h
  have hp : (0 : ℚ) ≤ pair.collateralPool.oracleAssetPrice / pow10 pair.collateralPool.tokenDecimals :=
    div_nonneg (by exact_mod_cast hc.le) (by exact_mod_cast (pow10_pos _).le)
  calc exactValue (pair.incentiveAmount x) pair.collateralPool * bpsFactor
      = (pair.incentiveAmount x * bpsFactor) *
          (pair.collateralPool.oracleAssetPrice / pow10 pair.collateralPool.tokenDecimals) := by
        unfold exactValue
        ring
    _ ≤ (pair.collateralWorth (pair.repaidValue x) * (bpsFactor + pair.incentiveBps)) *
          (pair.collateralPool.oracleAssetPrice / pow10 pair.collateralPool.tokenDecimals) :=
        mul_le_mul_of_nonneg_right hamount hp
    _ = exactValue (pair.collateralWorth (pair.repaidValue x)) pair.collateralPool *
          (bpsFactor + pair.incentiveBps) := by
        unfold exactValue
        ring
    _ ≤ pair.repaidValue x * (bpsFactor + pair.incentiveBps) :=
        mul_le_mul_of_nonneg_right (exactValue_tokens_le hc hv) hf'
    _ ≤ exactValue x pair.borrowPool * (bpsFactor + pair.incentiveBps) :=
        mul_le_mul_of_nonneg_right (valueFloor_le_exactValue hb hx) hf'

theorem buys_le_incentiveAmount (hb : 0 < pair.borrowPool.oracleAssetPrice)
    (hc : 0 < pair.collateralPool.oracleAssetPrice) (hf : 0 ≤ bpsFactor + pair.incentiveBps) (hx : 0 ≤ x)
    (h : pair.buys x lifted = .ok b) : b ≤ pair.incentiveAmount x := by
  obtain ⟨v, hv, h⟩ := bind_eq_ok.mp h
  obtain ⟨a, ha, h⟩ := bind_eq_ok.mp h
  obtain ⟨w, hw, h⟩ := bind_eq_ok.mp h
  have hv0 := (downward_valueFloor hb.le).nonneg hx hv
  have ha0 := (downward_amountFloor hc).nonneg hv0 ha
  have hw0 := (downward_addIncentive hf).nonneg ha0 hw
  have heq : w = pair.incentiveAmount x := by
    obtain ⟨-, -, rfl⟩ := valueFloor_eq_ok.mp hv
    obtain ⟨-, -, rfl⟩ := (amountFloor_eq_ok hc).mp ha
    exact (addIncentive_eq_ok.mp hw).2.2
  rw [← heq]
  cases lifted with
  | true => exact (pure_eq_ok.mp h).ge
  | false =>
    rw [if_neg (by decide)] at h
    split_ifs at h
    · exact (pure_eq_ok.mp h) ▸ hw0
    · obtain ⟨l, -, h⟩ := bind_eq_ok.mp h
      obtain ⟨t, -, h⟩ := bind_eq_ok.mp h
      rw [← pure_eq_ok.mp h]
      exact min_le_left _ _

/-- **The price of a whole position covers it.** Its three roundings go up. -/
theorem wholePositionRepay_within_incentive {w : ℤ} (hb : 0 < pair.borrowPool.oracleAssetPrice)
    (hc : 0 < pair.collateralPool.oracleAssetPrice) (hf : 0 < bpsFactor + pair.incentiveBps) (hpc : 0 ≤ pc)
    (h : pair.wholePositionRepay pc = .ok w) :
    exactValue pc pair.collateralPool * bpsFactor ≤
      exactValue w pair.borrowPool * (bpsFactor + pair.incentiveBps) := by
  simp only [wholePositionRepay, bind_eq_ok, mOu_eq_ok, checkedAdd_eq_some, checkedMul_eq_some,
    rawSub_eq_ok] at h
  obtain ⟨_, ⟨-, rfl⟩, v, hv, _, ⟨-, rfl⟩, _, ⟨-, rfl⟩, _, ⟨hfit, rfl⟩, value, hvalue, hw⟩ := h
  rw [checkedDiv_eq_some_of_pos hfit hf] at hvalue
  have hv0 := (downward_valueCeil hc.le).nonneg hpc hv
  have hprod : 0 ≤ v * bpsFactor := mul_nonneg hv0 bpsFactor_pos.le
  have hvalue0 : 0 ≤ value := hvalue ▸ Int.tdiv_nonneg (by omega) hf.le
  have hbps : (0 : ℚ) ≤ bpsFactor := by exact_mod_cast bpsFactor_pos.le
  have hf' : (0 : ℚ) ≤ bpsFactor + pair.incentiveBps := by exact_mod_cast hf.le
  have hceil : (v : ℚ) * bpsFactor ≤ value * (bpsFactor + pair.incentiveBps) := by
    have h := le_ceil_tdiv_mul hprod hf
    rw [hvalue] at h
    exact_mod_cast h
  calc exactValue pc pair.collateralPool * bpsFactor
      ≤ v * bpsFactor := mul_le_mul_of_nonneg_right (exactValue_le_valueCeil hc hpc hv) hbps
    _ ≤ value * (bpsFactor + pair.incentiveBps) := hceil
    _ ≤ exactValue w pair.borrowPool * (bpsFactor + pair.incentiveBps) :=
        mul_le_mul_of_nonneg_right (le_exactValue_amountCeil hb hvalue0 hw) hf'

/-- **The no-dust quote keeps to the incentive**, also after a refund. -/
theorem noDust_within_incentive (hrules : pair.rules = .noDust) (hb : 0 < pair.borrowPool.oracleAssetPrice)
    (hc : 0 < pair.collateralPool.oracleAssetPrice) (hf : 0 < bpsFactor + pair.incentiveBps)
    (hq : pair.quote repay = .ok (.accepted seized repaid)) :
    exactValue seized pair.collateralPool * bpsFactor ≤
      exactValue repaid pair.borrowPool * (bpsFactor + pair.incentiveBps) := by
  obtain ⟨rfl, rfl⟩ | ⟨pc, lifted, b, -, hpc, hx, -, hbuys, rfl, hr⟩ := noDust_accepted hrules hq
  · simp [exactValue]
  · obtain ⟨-, rfl | ⟨hwhole, -, hw⟩⟩ := refundedRepay_cases hr
    · have hle : min pc b ≤ pair.incentiveAmount (min repay pair.positionDebt) :=
        (min_le_right _ _).trans (buys_le_incentiveAmount hb hc hf.le hx.le hbuys)
      calc exactValue (min pc b) pair.collateralPool * bpsFactor
          ≤ exactValue (pair.incentiveAmount (min repay pair.positionDebt)) pair.collateralPool * bpsFactor :=
            mul_le_mul_of_nonneg_right (exactValue_mono hc hle) (by exact_mod_cast bpsFactor_pos.le)
        _ ≤ exactValue (min repay pair.positionDebt) pair.borrowPool * (bpsFactor + pair.incentiveBps) :=
            incentiveAmount_within_incentive hb hc hf.le hx.le
    · rw [hwhole]
      exact wholePositionRepay_within_incentive hb hc hf hpc.le hw

/-! ## The loan-to-value cap -/

/-- `seized` for `repaid` improves the obligation's LTV by the cap's margin. -/
def WithinLtv (pair : LiquidationPair) (seized repaid : ℤ) : Prop :=
  1000 * pair.obligationDebtValue * exactValue seized pair.collateralPool ≤
    999 * pair.obligationCollateralValue * pair.repaidValue repaid

theorem directProductValue_le {v D C : ℤ} (hv : 0 ≤ v) (hD : 0 < D) (hC : 0 ≤ C) :
    0 ≤ directProductValue v D C ∧ 1000 * D * directProductValue v D C ≤ 999 * C * v := by
  have hvC : 0 ≤ v * C := mul_nonneg hv hC
  have hq : 0 ≤ (v * C).tdiv D := Int.tdiv_nonneg hvC hD.le
  have hq999 : 0 ≤ (v * C).tdiv D * 999 := mul_nonneg hq (by norm_num)
  have h1 : directProductValue v D C * 1000 ≤ (v * C).tdiv D * 999 := tdiv_mul_le hq999 (by norm_num)
  have h2 : (v * C).tdiv D * D ≤ v * C := tdiv_mul_le hvC hD
  refine ⟨Int.tdiv_nonneg hq999 (by norm_num), ?_⟩
  calc 1000 * D * directProductValue v D C
      = directProductValue v D C * 1000 * D := by ring
    _ ≤ (v * C).tdiv D * 999 * D := mul_le_mul_of_nonneg_right h1 hD.le
    _ = (v * C).tdiv D * D * 999 := by ring
    _ ≤ v * C * 999 := mul_le_mul_of_nonneg_right h2 (by norm_num)
    _ = 999 * C * v := by ring

/-- **Collateral worth at most the direct product keeps the LTV.** -/
theorem withinLtv_of_le {value : ℤ} (hb : 0 < pair.borrowPool.oracleAssetPrice)
    (hc : 0 < pair.collateralPool.oracleAssetPrice) (hD : 0 < pair.obligationDebtValue)
    (hC : 0 < pair.obligationCollateralValue) (hrepaid : 0 ≤ repaid) (hvalue : 0 ≤ value)
    (hle : value ≤ directProductValue (pair.repaidValue repaid) pair.obligationDebtValue
      pair.obligationCollateralValue) (hseized : seized ≤ pair.collateralWorth value) :
    pair.WithinLtv seized repaid := by
  have hv : 0 ≤ pair.repaidValue repaid := Int.tdiv_nonneg (mul_nonneg hrepaid hb.le) (pow10_pos _).le
  have hprod := (directProductValue_le hv hD hC.le).2
  have hscaled : 1000 * pair.obligationDebtValue * value ≤
      999 * pair.obligationCollateralValue * pair.repaidValue repaid :=
    (mul_le_mul_of_nonneg_left hle (by positivity)).trans hprod
  have hworth : exactValue seized pair.collateralPool ≤ value :=
    (exactValue_mono hc hseized).trans (exactValue_tokens_le hc hvalue)
  have hD' : (0 : ℚ) ≤ 1000 * pair.obligationDebtValue := by exact_mod_cast by positivity
  calc 1000 * pair.obligationDebtValue * exactValue seized pair.collateralPool
      ≤ 1000 * pair.obligationDebtValue * (value : ℚ) := mul_le_mul_of_nonneg_left hworth hD'
    _ ≤ 999 * pair.obligationCollateralValue * pair.repaidValue repaid := by exact_mod_cast hscaled

theorem WithinLtv.ltv_le (hb : 0 < pair.borrowPool.oracleAssetPrice) (hC : 0 < pair.obligationCollateralValue)
    (hrepaid : 0 ≤ repaid) (h : pair.WithinLtv seized repaid) :
    (pair.obligationDebtValue - exactValue repaid pair.borrowPool) * pair.obligationCollateralValue ≤
      pair.obligationDebtValue *
        (pair.obligationCollateralValue - exactValue seized pair.collateralPool) := by
  have hC' : (0 : ℚ) < pair.obligationCollateralValue := by exact_mod_cast hC
  have hfloor := mul_le_mul_of_nonneg_left (valueFloor_le_exactValue hb hrepaid) hC'.le
  have hv : (0 : ℚ) ≤ pair.repaidValue repaid := by
    exact_mod_cast Int.tdiv_nonneg (mul_nonneg hrepaid hb.le) (pow10_pos _).le
  have hnonneg : (0 : ℚ) ≤ pair.obligationCollateralValue * pair.repaidValue repaid := mul_nonneg hC'.le hv
  unfold WithinLtv at h
  unfold repaidValue at h hv hnonneg
  linarith

/-- **An unlifted no-dust quote keeps to the LTV cap.** -/
theorem noDust_withinLtv (hrules : pair.rules = .noDust) (hb : 0 < pair.borrowPool.oracleAssetPrice)
    (hc : 0 < pair.collateralPool.oracleAssetPrice) (hD : 0 < pair.obligationDebtValue)
    (hC : 0 < pair.obligationCollateralValue) (hl : pair.liftsCloseFactor = .ok false)
    (hq : pair.quote repay = .ok (.accepted seized repaid)) :
    0 ≤ repaid ∧ pair.WithinLtv seized repaid := by
  obtain ⟨rfl, rfl⟩ | ⟨pc, lifted, b, -, -, hx, hl', hbuys, rfl, hr⟩ := noDust_accepted hrules hq
  · exact ⟨le_rfl, by simp [WithinLtv, exactValue, repaidValue]⟩
  · obtain rfl := ok_unique hl hl'
    have hsolvent : pair.isInsolvent = false := by
      cases hinsolvent : pair.isInsolvent with
      | false => rfl
      | true =>
        rw [liftsCloseFactor, if_pos hinsolvent] at hl
        cases hl
    -- an unlifted position is not small, so nothing is refunded
    obtain rfl : repaid = min repay pair.positionDebt := by
      refine (refundedRepay_cases hr).2.resolve_right fun hsmall => ?_
      rw [lifts_eq_small hrules hsolvent] at hl
      cases ok_unique hl hsmall.2.1
    have hv : 0 ≤ pair.repaidValue (min repay pair.positionDebt) :=
      Int.tdiv_nonneg (mul_nonneg hx.le hb.le) (pow10_pos _).le
    refine ⟨hx.le, withinLtv_of_le hb hc hD hC hx.le (directProductValue_le hv hD hC.le).1 le_rfl ?_⟩
    rw [buys_unlifted hc hD hC hbuys]
    exact (min_le_right _ _).trans (min_le_right _ _)

/-- The sweep takes the whole position for `repay`. -/
def SweepFires (pair : LiquidationPair) (repay : ℤ) : Prop :=
  0 < repay ∧ ∃ position bought, pair.position = .ok position ∧ 0 < position ∧
    pair.offerBuys repay = .ok bought ∧ pair.Sweeps position bought

/-- **A sweep quote that does not sweep keeps to the LTV cap.** -/
theorem sweep_withinLtv (hrules : pair.rules = .sweep) (hsolvent : pair.isInsolvent = false)
    (hb : 0 < pair.borrowPool.oracleAssetPrice) (hc : 0 < pair.collateralPool.oracleAssetPrice)
    (hD : 0 < pair.obligationDebtValue) (hC : 0 < pair.obligationCollateralValue) (hrepay : 0 ≤ repay)
    (hfires : ¬ pair.SweepFires repay) (hq : pair.quote repay = .ok (.accepted seized repaid)) :
    0 ≤ repaid ∧ pair.WithinLtv seized repaid := by
  obtain rfl : repaid = repay := by
    simp only [quote, hrules, bind_eq_ok, pure_eq_ok] at hq
    obtain ⟨s, -, hs⟩ := hq
    exact (Seizure.accepted.inj hs).2.symm
  refine ⟨hrepay, ?_⟩
  have hv : 0 ≤ pair.repaidValue repaid := Int.tdiv_nonneg (mul_nonneg hrepay hb.le) (pow10_pos _).le
  have hcap := healthFactorValue_le hv hD hC.le
  refine withinLtv_of_le hb hc hD hC hrepay hcap.1 hcap.2 ?_
  rcases le_or_gt seized 0 with hle | hpos
  · exact hle.trans (Int.tdiv_nonneg (mul_nonneg hcap.1 (pow10_pos _).le) hc.le)
  · obtain ⟨position, bought, hposition, hbought, ⟨hsweeps, rfl⟩ | ⟨-, rfl⟩⟩ := seized_eq hq hpos
    · exact absurd ⟨repay_pos_of_seized hq hpos, _, _, hposition, hpos, hbought, hsweeps⟩ hfires
    · simp only [offerBuys, hrules, hsolvent, Bool.false_eq_true, if_false, sweepBuys, bind_eq_ok,
        pure_eq_ok] at hbought
      obtain ⟨v, hvalue, wi, -, cap, ⟨t, ht, hamount⟩, rfl⟩ := hbought
      obtain ⟨-, -, rfl⟩ := valueFloor_eq_ok.mp hvalue
      obtain rfl := healthFactorCap_eq hD ht
      obtain ⟨-, -, rfl⟩ := (amountFloor_eq_ok hc).mp hamount
      exact (min_le_right _ _).trans (min_le_right _ _)

end LiquidationPair

open LiquidationPair

/-- **Quotes keep to the incentive and improve the LTV.** -/
theorem quote_within_incentive_and_ltv {pair : LiquidationPair} {repay seized repaid : ℤ}
    (hb : 0 < pair.borrowPool.oracleAssetPrice) (hc : 0 < pair.collateralPool.oracleAssetPrice)
    (hD : 0 < pair.obligationDebtValue) (hC : 0 < pair.obligationCollateralValue)
    (hi : 0 ≤ pair.borrowPool.maxLiquidationIncentiveBps)
    (hi' : 0 ≤ pair.collateralPool.maxLiquidationIncentiveBps)
    (hq : pair.quote repay = .ok (.accepted seized repaid)) :
    (pair.rules = .noDust → exactValue seized pair.collateralPool * bpsFactor ≤
      exactValue repaid pair.borrowPool * (bpsFactor + pair.incentiveBps)) ∧
    (pair.rules = .noDust ∧ pair.liftsCloseFactor = .ok false ∨
        pair.rules = .sweep ∧ pair.isInsolvent = false ∧ 0 ≤ repay ∧ ¬ pair.SweepFires repay →
      1000 * pair.obligationDebtValue * exactValue seized pair.collateralPool ≤
        999 * pair.obligationCollateralValue * pair.repaidValue repaid ∧
      (pair.obligationDebtValue - exactValue repaid pair.borrowPool) * pair.obligationCollateralValue ≤
        pair.obligationDebtValue *
          (pair.obligationCollateralValue - exactValue seized pair.collateralPool)) := by
  have hf : 0 < bpsFactor + pair.incentiveBps := add_pos_of_pos_of_nonneg bpsFactor_pos (le_min hi hi')
  refine ⟨fun hrules => noDust_within_incentive hrules hb hc hf hq, fun hcase => ?_⟩
  have hltv : 0 ≤ repaid ∧ pair.WithinLtv seized repaid := by
    rcases hcase with ⟨hrules, hl⟩ | ⟨hrules, hsolvent, hrepay, hfires⟩
    · exact noDust_withinLtv hrules hb hc hD hC hl hq
    · exact sweep_withinLtv hrules hsolvent hb hc hD hC hrepay hfires hq
  exact ⟨hltv.2, hltv.2.ltv_le hb hC hltv.1⟩

theorem a_dollar_within_incentive_and_ltv :
    (dustPair 10000000000 20000000000).quote 10000000 = .ok (.accepted 11000000 10000000) ∧
      exactValue 11000000 (dustPair 10000000000 20000000000).collateralPool * bpsFactor ≤
        exactValue 10000000 (dustPair 10000000000 20000000000).borrowPool *
          (bpsFactor + (dustPair 10000000000 20000000000).incentiveBps) ∧
      (dustPair 10000000000 20000000000).WithinLtv 11000000 10000000 :=
  have hquote : (dustPair 10000000000 20000000000).quote 10000000 = .ok (.accepted 11000000 10000000) := by
    decide +kernel
  have hbounds := quote_within_incentive_and_ltv (by decide) (by decide) (by decide) (by decide) (by decide)
    (by decide) hquote
  ⟨hquote, hbounds.1 rfl, (hbounds.2 (.inl ⟨rfl, by decide +kernel⟩)).1⟩

/-- The dust tests' pair on a sweep market. -/
def sweptPair : LiquidationPair := { dustPair 10000000000 20000000000 with rules := .sweep }

/-- A sweep market quotes a negative repay as repaid in full, for nothing. -/
theorem negative_repay_not_within_ltv :
    0 < sweptPair.borrowPool.oracleAssetPrice ∧ 0 < sweptPair.collateralPool.oracleAssetPrice ∧
      0 < sweptPair.obligationDebtValue ∧ 0 < sweptPair.obligationCollateralValue ∧
      0 ≤ sweptPair.incentiveBps ∧ sweptPair.isInsolvent = false ∧
      sweptPair.liftsCloseFactor = .ok false ∧ ¬ sweptPair.SweepFires (-10000000) ∧
      sweptPair.quote (-10000000) = .ok (.accepted 0 (-10000000)) ∧
      valueFloor (-10000000) sweptPair.borrowPool = .ok (sweptPair.repaidValue (-10000000)) ∧
      ¬ (1000 * sweptPair.obligationDebtValue * exactValue 0 sweptPair.collateralPool ≤
        999 * sweptPair.obligationCollateralValue * sweptPair.repaidValue (-10000000)) :=
  ⟨by decide, by decide, by decide, by decide, by decide, rfl, by decide +kernel,
    fun hfires => absurd hfires.1 (by decide), by decide +kernel, by decide +kernel, by decide +kernel⟩

end AlulaKeeper
