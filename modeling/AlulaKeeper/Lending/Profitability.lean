import Mathlib
import AlulaKeeper.Lending.Pool

/-!
# Profit margins and repay caps

`profitability.rs`: the margin a liquidation has to clear, in oracle value and in borrow tokens, and
the largest repay whose seizure still leaves it.
-/

namespace AlulaKeeper

open I128

/-- `compute_flash_fee`. -/
def computeFlashFee (amount : Underlying) (flashLoanFeeBps : ℤ) : Res Underlying :=
  scaleWithBpsCeil amount flashLoanFeeBps

/-- `cents_to_oracle_value_ceil`. -/
def centsToOracleValueCeil (cents : ℤ) (oraclePriceDecimals : ℕ) : Res ℤ := do
  if cents < 0 then
    fail .internalError
  else
  let multiplier ← mOu (checkedPow10 oraclePriceDecimals)
  let scaled ← mOu (checkedMul cents multiplier)
  let adjusted ← mOu (checkedAdd scaled 99)
  mOu (checkedDiv adjusted 100)

/-- `value_to_underlying_asset_amount_ceil`. -/
def valueToUnderlyingAssetAmountCeil (value oracleAssetPrice : ℤ) (tokenDecimals : ℕ) :
    Res Underlying := do
  if value < 0 then
    fail .internalError
  else
  if oracleAssetPrice ≤ 0 then
    fail .internalError
  else
  let multiplier ← mOu (checkedPow10 tokenDecimals)
  let scaled ← mOu (checkedMul value multiplier)
  let numerator ← mOu (checkedAdd scaled (← rawSub oracleAssetPrice 1))
  mOu (checkedDiv numerator oracleAssetPrice)

/-- `compute_profit_margin_in_borrow_token`; the margin keeps the sign of the configured cents. -/
def computeProfitMarginInBorrowToken (minProfitMarginCents : ℤ) (oraclePriceDecimals : ℕ)
    (borrowPool : PoolData) : Res Underlying := do
  if borrowPool.oracleAssetPrice ≤ 0 then
    fail .internalError
  else
  if minProfitMarginCents = 0 then
    return 0
  let magnitudeCents ← mOu (checkedAbs minProfitMarginCents)
  let marginValue ← centsToOracleValueCeil magnitudeCents oraclePriceDecimals
  let magnitude ← valueToUnderlyingAssetAmountCeil marginValue borrowPool.oracleAssetPrice
    borrowPool.tokenDecimals
  if minProfitMarginCents < 0 then
    mOu (checkedNeg magnitude)
  else
    return magnitude

/-- The incentive the repay cap divides by: the pools', capped by the LTV-improving one while the
close factor holds. -/
def effectiveIncentiveBps (isSolvent : Bool) (borrowPool collateralPool : PoolData)
    (obligationDebtValue obligationCollateralValue : ℤ) : Res ℤ :=
  let poolIncentiveBps :=
    min borrowPool.maxLiquidationIncentiveBps collateralPool.maxLiquidationIncentiveBps
  if isSolvent then do
    let product ← mOu (checkedMul obligationCollateralValue 9990)
    let maxAllowedMultiplier ← mOu (checkedDiv product obligationDebtValue)
    return min poolIncentiveBps (saturatingSub maxAllowedMultiplier 10000)
  else
    pure poolIncentiveBps

/-- `compute_repay_cap_from_collateral`. -/
def computeRepayCapFromCollateral (isSolvent : Bool) (borrowPool : PoolData)
    (maxFeasibleRepay : ℤ) (collateralPool : PoolData) (availableCollateral : ℤ)
    (obligationDebtValue profitMarginBorrowTokens obligationCollateralValue : ℤ) : Res ℤ := do
  if availableCollateral ≤ 0 then
    fail .internalError
  else
  if borrowPool.oracleAssetPrice ≤ 0 ∨ collateralPool.oracleAssetPrice ≤ 0 then
    fail .internalError
  else
  let effectiveIncentiveBps ← effectiveIncentiveBps isSolvent borrowPool collateralPool
    obligationDebtValue obligationCollateralValue
  let incentiveBpsFactor ← mOu (checkedAdd bpsFactor effectiveIncentiveBps)
  if incentiveBpsFactor ≤ 0 then
    fail .internalError
  else
  let borrowDecimalsPow ← rawPow10 borrowPool.tokenDecimals
  let collateralDecimalsPow ← rawPow10 collateralPool.tokenDecimals
  let collateralProduct ← mOu (checkedMul availableCollateral collateralPool.oracleAssetPrice)
  let allCollateralValue ← mOu (checkedDiv collateralProduct collateralDecimalsPow)
  let numerator ← mOu (checkedMul allCollateralValue borrowDecimalsPow)
  let priceProduct ← mOu (checkedMul borrowPool.oracleAssetPrice incentiveBpsFactor)
  let denominator ← mOu (checkedDiv priceProduct bpsFactor)
  let maxRepayBorrowUnits ← mOu (checkedDiv numerator denominator)
  let maxProfitableRepay := saturatingSub maxRepayBorrowUnits profitMarginBorrowTokens
  return min maxFeasibleRepay maxProfitableRepay

/-- `LiquidationProfitability`. -/
structure LiquidationProfitability where
  netValue : ℤ
  gainValue : ℤ
  isAcceptable : Bool
  deriving DecidableEq, Repr

/-- `compute_liquidation_profitability`. -/
def computeLiquidationProfitability (gainValue costValue minProfitMarginValue : ℤ) :
    Res LiquidationProfitability := do
  if gainValue ≤ 0 ∨ costValue ≤ 0 then
    fail .internalError
  else
  let netValue ← mOu (checkedSub gainValue costValue)
  return { netValue, gainValue, isAcceptable := netValue > minProfitMarginValue }

theorem centsToOracleValueCeil_eq_ok {cents t : ℤ} {n : ℕ}
    (h : centsToOracleValueCeil cents n = .ok t) :
    0 ≤ cents ∧ Fits (pow10 n) ∧ t = (cents * pow10 n + 99).tdiv 100 := by
  unfold centsToOracleValueCeil at h
  split_ifs at h with hc
  · exact absurd h fail_ne_ok
  · simp only [bind_eq_ok, mOu_eq_ok, checkedPow10_eq_some, checkedMul_eq_some,
      checkedAdd_eq_some] at h
    obtain ⟨_, ⟨ht, rfl⟩, _, ⟨-, rfl⟩, _, ⟨ha, rfl⟩, h⟩ := h
    rw [checkedDiv_eq_some_of_pos ha (by norm_num)] at h
    exact ⟨by omega, ht, h.symm⟩

/-- What a returned repay cap tells: it is at most the feasible repay and an `i128`, and both pools' decimals
convert. -/
theorem repayCap_spec {isSolvent : Bool} {borrowPool collateralPool : PoolData}
    {maxFeasible available debtValue margin collateralValue cap : ℤ}
    (h : computeRepayCapFromCollateral isSolvent borrowPool maxFeasible collateralPool available debtValue
      margin collateralValue = .ok cap) :
    cap ≤ maxFeasible ∧ cap ≤ maxVal ∧ Fits (pow10 borrowPool.tokenDecimals) ∧
      Fits (pow10 collateralPool.tokenDecimals) := by
  unfold computeRepayCapFromCollateral at h
  split_ifs at h
  · exact absurd h fail_ne_ok
  · exact absurd h fail_ne_ok
  obtain ⟨incentive, -, h⟩ := bind_eq_ok.mp h
  obtain ⟨factor, -, h⟩ := bind_eq_ok.mp h
  split_ifs at h
  · exact absurd h fail_ne_ok
  obtain ⟨_, hborrow, h⟩ := bind_eq_ok.mp h
  obtain ⟨_, hcollateral, h⟩ := bind_eq_ok.mp h
  obtain ⟨_, -, h⟩ := bind_eq_ok.mp h
  obtain ⟨_, -, h⟩ := bind_eq_ok.mp h
  obtain ⟨_, -, h⟩ := bind_eq_ok.mp h
  obtain ⟨_, -, h⟩ := bind_eq_ok.mp h
  obtain ⟨_, -, h⟩ := bind_eq_ok.mp h
  obtain ⟨units, -, h⟩ := bind_eq_ok.mp h
  obtain rfl := pure_eq_ok.mp h
  exact ⟨min_le_left _ _, (min_le_right _ _).trans (fits_clamp _).2, (rawPow10_eq_ok.mp hborrow).1,
    (rawPow10_eq_ok.mp hcollateral).1⟩

end AlulaKeeper
