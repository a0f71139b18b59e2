import Mathlib
import AlulaKeeper.Sizing.Buys

/-!
# The two LTV caps

A solvent liquidation is capped so that the LTV improves. The sweep market's seizure takes the cap in two
steps through a health factor; `LiquidationPair.buys` takes the direct product of the same values. Both
round down, in a different order.

* `healthFactorValue_le`: the health factor never allows more than the direct product.
* `LiquidationPair.quoteNoDust_large`, `LiquidationPair.quote_sweep_large`: the two seizures of a solvent,
  ordinary position of plain collateral.
* `seizures_agree_iff`: when they are the same.
-/

namespace AlulaKeeper

open I128

/-- **The health factor rounds under the direct product.** -/
theorem healthFactorValue_le {v D C : ℤ} (hv : 0 ≤ v) (hD : 0 < D) (hC : 0 ≤ C) :
    0 ≤ healthFactorValue v D C ∧ healthFactorValue v D C ≤ directProductValue v D C := by
  have hs := scalar9_pos
  have hCs : 0 ≤ C * scalar9 := mul_nonneg hC hs.le
  have hq : 0 ≤ (C * scalar9).tdiv D := Int.tdiv_nonneg hCs hD.le
  have hvq : 0 ≤ v * (C * scalar9).tdiv D := mul_nonneg hv hq
  have hvC : 0 ≤ v * C := mul_nonneg hv hC
  have hstep : (v * (C * scalar9).tdiv D).tdiv scalar9 ≤ (v * C).tdiv D := by
    rw [Int.tdiv_eq_ediv_of_nonneg hvC, Int.le_ediv_iff_mul_le hD]
    refine le_of_mul_le_mul_right ?_ hs
    calc (v * (C * scalar9).tdiv D).tdiv scalar9 * D * scalar9
        = (v * (C * scalar9).tdiv D).tdiv scalar9 * scalar9 * D := by ring
      _ ≤ v * (C * scalar9).tdiv D * D := mul_le_mul_of_nonneg_right (tdiv_mul_le hvq hs) hD.le
      _ = v * ((C * scalar9).tdiv D * D) := by ring
      _ ≤ v * (C * scalar9) := mul_le_mul_of_nonneg_left (tdiv_mul_le hCs hD) hv
      _ = v * C * scalar9 := by ring
  constructor
  · exact Int.tdiv_nonneg (mul_nonneg (Int.tdiv_nonneg hvq hs.le) (by norm_num)) (by norm_num)
  · exact Int.tdiv_le_tdiv (by norm_num) (mul_le_mul_of_nonneg_right hstep (by norm_num))

namespace LiquidationPair

section Amounts

variable (pair : LiquidationPair)

/-- Oracle value of a repay, rounded down. -/
def repaidValue (repay : ℤ) : ℤ :=
  (repay * pair.borrowPool.oracleAssetPrice).tdiv (pow10 pair.borrowPool.tokenDecimals)

/-- Collateral tokens worth `value`, rounded down. -/
def collateralWorth (value : ℤ) : ℤ :=
  (value * pow10 pair.collateralPool.tokenDecimals).tdiv pair.collateralPool.oracleAssetPrice

/-- What a repay buys with the incentive and no LTV cap. -/
def incentiveAmount (repay : ℤ) : ℤ :=
  (pair.collateralWorth (pair.repaidValue repay) * (bpsFactor + pair.incentiveBps)).tdiv bpsFactor

/-- The LTV cap of the no-dust quote, in collateral tokens. -/
def directProductCap (repay : ℤ) : ℤ :=
  pair.collateralWorth (directProductValue (pair.repaidValue repay) pair.obligationDebtValue
    pair.obligationCollateralValue)

/-- The LTV cap of the sweep seizure, in collateral tokens. -/
def healthFactorTokens (repay : ℤ) : ℤ :=
  pair.collateralWorth (healthFactorValue (pair.repaidValue repay) pair.obligationDebtValue
    pair.obligationCollateralValue)

/-- The health-factor cap does not bind alone: the position, the incentive or the direct product is at
or under it. -/
def CapsAgree (repay : ℤ) : Prop :=
  pair.deposit.collateral ≤ 0 ∨ 0 ≤ pair.incentiveAmount repay ∧
    (pair.deposit.collateral ≤ pair.healthFactorTokens repay ∨
      pair.incentiveAmount repay ≤ pair.healthFactorTokens repay ∨
        pair.directProductCap repay ≤ pair.healthFactorTokens repay)

end Amounts

variable {pair : LiquidationPair} {repay : ℤ}

theorem buys_unlifted {b : ℤ} (hc : 0 < pair.collateralPool.oracleAssetPrice)
    (hD : 0 < pair.obligationDebtValue) (hC : 0 < pair.obligationCollateralValue)
    (h : pair.buys repay false = .ok b) :
    b = min (pair.incentiveAmount repay) (pair.directProductCap repay) := by
  have h0 : ¬ (pair.obligationDebtValue ≤ 0 ∨ pair.obligationCollateralValue ≤ 0) := by omega
  simp only [buys, Bool.false_eq_true, if_false, if_neg h0, bind_eq_ok, pure_eq_ok,
    valueFloor_eq_ok, amountFloor_eq_ok hc, addIncentive_eq_ok, ltvImprovingValue_eq_ok hD,
    strictlyUnder_eq_ok] at h
  obtain ⟨_, ⟨-, -, rfl⟩, _, ⟨-, -, rfl⟩, _, ⟨-, -, rfl⟩, _, ⟨-, -, rfl⟩, _, ⟨-, -, rfl⟩, rfl⟩ := h
  rfl

theorem positionCollateral_plain {pc : ℤ} (hj : pair.deposit.jTokens = 0)
    (h : pair.positionCollateral = .ok pc) : pc = pair.deposit.collateral := by
  rw [positionCollateral, suppliedTokens, PoolData.jTokensToTokensFloor, hj,
    PoolData.shareFloor_zero, ok_bind, mOu_eq_ok, checkedAdd_eq_some, zero_add] at h
  exact h.2.symm

theorem rateTokens_plain {t : ℤ} (hj : pair.deposit.jTokens = 0)
    (h : rateTokens pair.deposit pair.collateralPool = .ok t) : t = pair.deposit.collateral := by
  rw [rateTokens, hj, mOu_eq_ok, checkedAdd_eq_some] at h
  have h0 : fixedMulFloor 0 pair.collateralPool.jTokenRateFloorBps = 0 := by
    simp [fixedMulFloor, saturatingMul, saturatingDiv, clamp_of_fits fits_zero]
  rw [h0, zero_add] at h
  exact h.2.symm

/-- The sweep market's seizure from a solvent obligation, before the sweep and floored at zero. -/
def sweepCapped (pair : LiquidationPair) (repay : ℤ) : ℤ :=
  min (min pair.deposit.collateral (pair.incentiveAmount repay)) (pair.healthFactorTokens repay)

theorem expectedSeized_plain {s : ℤ} (hsolvent : pair.isInsolvent = false)
    (hc : 0 < pair.collateralPool.oracleAssetPrice) (hD : 0 < pair.obligationDebtValue)
    (hC : 0 < pair.obligationCollateralValue) (hj : pair.deposit.jTokens = 0) (hr : 0 < repay)
    (hpos : 0 < pair.deposit.collateral)
    (h : computeExpectedSeizedCollateral repay pair.borrowPool pair.collateralPool pair.deposit
      pair.obligationDebtValue pair.obligationCollateralValue pair.isInsolvent
      pair.minCollateralValueCents pair.oraclePriceDecimals = .ok s) :
    ∃ left floor, valueFloor (pair.deposit.collateral - pair.sweepCapped repay)
        pair.collateralPool = .ok left ∧ pair.dustFloor = .ok floor ∧
      s = max (if left < floor then pair.deposit.collateral else pair.sweepCapped repay) 0 := by
  have hcond : ¬ (obligationDebtValue pair ≤ 0 ∨ obligationCollateralValue pair ≤ 0) := by omega
  rw [computeExpectedSeizedCollateral, if_neg (by omega)] at h
  obtain ⟨t, ht, h⟩ := bind_eq_ok.mp h
  obtain rfl := rateTokens_plain hj ht
  rw [if_neg (not_le.mpr hpos)] at h
  simp only [hsolvent, Bool.not_false, true_and, if_neg hcond, Bool.false_eq_true, if_false,
    computeExpectedSeizedCollateral.ltvCapped, bind_eq_ok, pure_eq_ok, mOu_eq_ok,
    checkedSub_eq_some, addIncentive_eq_ok] at h
  obtain ⟨v, hv, a, ha, _, ⟨-, -, rfl⟩, _, ⟨x, hx, y, hy, rfl⟩, _, ⟨-, rfl⟩, left, hleft, floor,
    hfloor, rfl⟩ := h
  obtain ⟨-, -, rfl⟩ := valueFloor_eq_ok.mp hv
  obtain ⟨-, -, rfl⟩ := (amountFloor_eq_ok hc).mp ha
  obtain rfl := healthFactorCap_eq hD hx
  obtain ⟨-, -, rfl⟩ := (amountFloor_eq_ok hc).mp hy
  exact ⟨left, floor, hleft, hfloor, rfl⟩

theorem expectedSeized_unswept {s w floor : ℤ} (hsolvent : pair.isInsolvent = false)
    (hc : 0 < pair.collateralPool.oracleAssetPrice) (hD : 0 < pair.obligationDebtValue)
    (hC : 0 < pair.obligationCollateralValue) (hj : pair.deposit.jTokens = 0) (hr : 0 < repay)
    (hpos : 0 < pair.deposit.collateral)
    (h : computeExpectedSeizedCollateral repay pair.borrowPool pair.collateralPool pair.deposit
      pair.obligationDebtValue pair.obligationCollateralValue pair.isInsolvent
      pair.minCollateralValueCents pair.oraclePriceDecimals = .ok s)
    (hfloor : pair.dustFloor = .ok floor)
    (hw : valueFloor (pair.deposit.collateral - s) pair.collateralPool = .ok w) (hle : floor ≤ w) :
    s = max (pair.sweepCapped repay) 0 := by
  obtain ⟨left, floor', hleft, hfloor', rfl⟩ :=
    expectedSeized_plain hsolvent hc hD hC hj hr hpos h
  obtain rfl := ok_unique hfloor hfloor'
  split_ifs at hw ⊢ with hlt
  -- swept whole, nothing is left, so the floor is not positive and no collateral is under it
  · exfalso
    rw [max_eq_left hpos.le, sub_self] at hw
    have h0 : w = 0 := by
      obtain ⟨-, -, rfl⟩ := valueFloor_eq_ok.mp hw
      simp
    have hnn : 0 ≤ pair.deposit.collateral - pair.sweepCapped repay :=
      sub_nonneg.mpr ((min_le_left _ _).trans (min_le_left _ _))
    have := (downward_valueFloor hc.le).nonneg hnn hleft
    omega
  · rfl

theorem healthFactorTokens_le (hb : 0 < pair.borrowPool.oracleAssetPrice)
    (hc : 0 < pair.collateralPool.oracleAssetPrice) (hD : 0 < pair.obligationDebtValue)
    (hC : 0 < pair.obligationCollateralValue) (hr : 0 ≤ repay) :
    0 ≤ pair.healthFactorTokens repay ∧
      pair.healthFactorTokens repay ≤ pair.directProductCap repay := by
  have hv : 0 ≤ pair.repaidValue repay :=
    Int.tdiv_nonneg (mul_nonneg hr hb.le) (pow10_pos _).le
  have ht := (pow10_pos pair.collateralPool.tokenDecimals).le
  obtain ⟨h0, hle⟩ := healthFactorValue_le hv hD hC.le
  exact ⟨Int.tdiv_nonneg (mul_nonneg h0 ht) hc.le,
    Int.tdiv_le_tdiv hc (mul_le_mul_of_nonneg_right hle ht)⟩

theorem noDust_seizes_nothing {s r : ℤ} (hj : pair.deposit.jTokens = 0)
    (hcoll : pair.deposit.collateral ≤ 0)
    (h : { pair with rules := .noDust }.quote repay = .ok (.accepted s r)) : s = 0 := by
  obtain ⟨pc, hpc, -⟩ := bind_eq_ok.mp h
  obtain rfl := positionCollateral_plain hj hpc
  rw [quote, quoteNoDust_nothing hpc (.inr (.inr (.inl hcoll)))] at h
  cases h
  rfl

theorem noDust_seizes_large {s r : ℤ} (hsolvent : pair.isInsolvent = false)
    (hb : 0 < pair.borrowPool.oracleAssetPrice) (hc : 0 < pair.collateralPool.oracleAssetPrice)
    (hD : 0 < pair.obligationDebtValue) (hC : 0 < pair.obligationCollateralValue)
    (hj : pair.deposit.jTokens = 0) (hlarge : pair.isSmallPosition = .ok false) (hr : 1 ≤ repay)
    (hle : repay ≤ pair.positionDebt) (hcoll : 0 < pair.deposit.collateral)
    (h : { pair with rules := .noDust }.quote repay = .ok (.accepted s r)) :
    s = min pair.deposit.collateral
      (min (pair.incentiveAmount repay) (pair.directProductCap repay)) := by
  obtain ⟨pc, hpc, -⟩ := bind_eq_ok.mp h
  obtain rfl := positionCollateral_plain hj hpc
  have hdebt : 0 < pair.positionDebt := by omega
  have hq : ¬ QuotesNothing { pair with rules := .noDust } repay pair.deposit.collateral := by
    rintro (h' | h' | h' | h' | h')
    · omega
    · exact absurd h' (not_le.mpr hdebt)
    · exact absurd h' (not_le.mpr hcoll)
    · exact absurd h' (not_le.mpr hb)
    · exact absurd h' (not_le.mpr hc)
  obtain ⟨lifted, exceeds, hl, -, ⟨-, hbad⟩ | ⟨-, b, repaid, dust, hbuys, -, -, -, -, hres⟩⟩ :=
    (quoteNoDust_eq_ok_iff hpc hq).mp h
  · cases hbad
  · have hlift : lifted = false := by
      have : liftsCloseFactor { pair with rules := .noDust } = pair.isSmallPosition := by
        simp [liftsCloseFactor, hsolvent]
        rfl
      rw [this, hlarge, Except.ok.injEq] at hl
      exact hl.symm
    subst hlift
    have hmin : min repay pair.positionDebt = repay := min_eq_left hle
    have hbuys' : pair.buys repay false = .ok b := by rw [← hmin]; exact hbuys
    cases dust with
    | true => cases hres
    | false =>
      obtain ⟨rfl, -⟩ := Seizure.accepted.inj hres
      rw [← buys_unlifted hc hD hC hbuys']

theorem sweep_seizes_nothing {s : ℤ} (hj : pair.deposit.jTokens = 0)
    (hcoll : pair.deposit.collateral ≤ 0)
    (h : computeExpectedSeizedCollateral repay pair.borrowPool pair.collateralPool pair.deposit
      pair.obligationDebtValue pair.obligationCollateralValue pair.isInsolvent
      pair.minCollateralValueCents pair.oraclePriceDecimals = .ok s) : s = 0 := by
  rw [computeExpectedSeizedCollateral] at h
  by_cases h0 : repay ≤ 0 ∨ pair.collateralPool.oracleAssetPrice ≤ 0
  · rw [if_pos h0] at h
    exact (pure_eq_ok.mp h).symm
  · rw [if_neg h0] at h
    obtain ⟨t, ht, h⟩ := bind_eq_ok.mp h
    obtain rfl := rateTokens_plain hj ht
    rw [if_pos hcoll] at h
    exact (pure_eq_ok.mp h).symm

/-- Two caps `h ≤ d` on the same amount agree where `h` does not bind alone. -/
theorem capped_eq_iff {c wi h d s₁ s₂ : ℤ} (hc : 0 < c) (h0 : 0 ≤ h) (hle : h ≤ d)
    (h₁ : s₁ = min c (min wi d)) (h₂ : s₂ = max (min (min c wi) h) 0) :
    s₁ = s₂ ↔ c ≤ 0 ∨ 0 ≤ wi ∧ (c ≤ h ∨ wi ≤ h ∨ d ≤ h) := by
  omega

/-- **When the two rule sets seize the same.** A solvent obligation's ordinary position of plain
collateral is seized alike under both rules exactly where the health-factor cap does not bind alone. -/
theorem seizures_agree_iff (pair : LiquidationPair) {repay s₁ r₁ s₂ r₂ floor w : ℤ}
    (hsolvent : pair.isInsolvent = false) (hb : 0 < pair.borrowPool.oracleAssetPrice)
    (hc : 0 < pair.collateralPool.oracleAssetPrice) (hD : 0 < pair.obligationDebtValue)
    (hC : 0 < pair.obligationCollateralValue) (hj : pair.deposit.jTokens = 0)
    (hlarge : pair.isSmallPosition = .ok false) (hr : 1 ≤ repay) (hle : repay ≤ pair.positionDebt)
    (hn : { pair with rules := .noDust }.quote repay = .ok (.accepted s₁ r₁))
    (hs : { pair with rules := .sweep }.quote repay = .ok (.accepted s₂ r₂))
    (hfloor : pair.dustFloor = .ok floor)
    (hw : valueFloor (pair.deposit.collateral - s₂) pair.collateralPool = .ok w)
    (hunswept : floor ≤ w) : s₁ = s₂ ↔ pair.CapsAgree repay := by
  obtain ⟨s, hexp, hsz⟩ := bind_eq_ok.mp hs
  obtain ⟨rfl, rfl⟩ := Seizure.accepted.inj (pure_eq_ok.mp hsz)
  rcases le_or_gt pair.deposit.collateral 0 with hcoll | hcoll
  · refine iff_of_true ?_ (.inl hcoll)
    rw [noDust_seizes_nothing hj hcoll hn, sweep_seizes_nothing hj hcoll hexp]
  · have h₁ := noDust_seizes_large hsolvent hb hc hD hC hj hlarge hr hle hcoll hn
    have h₂ := expectedSeized_unswept hsolvent hc hD hC hj (by omega) hcoll hexp hfloor hw hunswept
    have hr0 : 0 ≤ repay := by omega
    have hcaps := healthFactorTokens_le hb hc hD hC hr0
    exact capped_eq_iff hcoll hcaps.1 hcaps.2 h₁ h₂

/-- $1 repaid at twice the collateral seizes alike: the incentive binds under both caps. -/
theorem seizures_agree_on_a_dollar : (dustPair 10000000000 20000000000).CapsAgree 10000000 :=
  (@seizures_agree_iff (dustPair 10000000000 20000000000) 10000000 11000000 10000000 11000000
    10000000 500000000000000 199890000000000000
    (by decide) (by decide) (by decide) (by decide) (by decide) (by decide) (by decide +kernel)
    (by decide) (by decide) (by decide +kernel) (by decide +kernel) (by decide +kernel)
    (by decide +kernel) (by decide)).mp rfl

/-- $950 repaid of $1,900 against $2,000: the no-dust quote seizes nine units more. -/
theorem seizures_differ_by_nine_units :
    (dustPair 19000000000 20000000000).isInsolvent = false ∧
      0 < (dustPair 19000000000 20000000000).borrowPool.oracleAssetPrice ∧
      0 < (dustPair 19000000000 20000000000).collateralPool.oracleAssetPrice ∧
      0 < (dustPair 19000000000 20000000000).obligationDebtValue ∧
      0 < (dustPair 19000000000 20000000000).obligationCollateralValue ∧
      (dustPair 19000000000 20000000000).deposit.jTokens = 0 ∧
      (dustPair 19000000000 20000000000).isSmallPosition = .ok false ∧
      (9500000000 : ℤ) ≤ (dustPair 19000000000 20000000000).positionDebt ∧
      { dustPair 19000000000 20000000000 with rules := .noDust }.quote 9500000000 =
        .ok (.accepted 9990000000 9500000000) ∧
      { dustPair 19000000000 20000000000 with rules := .sweep }.quote 9500000000 =
        .ok (.accepted 9989999991 9500000000) ∧
      (dustPair 19000000000 20000000000).dustFloor = .ok 500000000000000 ∧
      valueFloor (20000000000 - 9989999991) (dustPool "GOLD" usd) = .ok 100100000090000000 ∧
      (500000000000000 : ℤ) ≤ 100100000090000000 := by
  decide +kernel

end LiquidationPair

end AlulaKeeper
