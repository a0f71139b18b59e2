import Mathlib
import AlulaKeeper.Lending.Pool

/-!
# Verdicts on an obligation

The first half of `liquidation.rs`: what an obligation's positions are worth, and whether the market
lets it be liquidated.

* `valueFloor`, `valueCeil`, `amountFloor`, `amountCeil`: oracle value of a token amount and back.
* `scaledDebtValue`, `scaledCollateralValue`, `computeIsLiquidatable`: the liquidate gate.
* `computeObligationDebtValue`, `computeObligationCollateralValue`, `computeIsInsolvent`.
* `unpricedPoolsTouched`: the pools the snapshot does not price.
-/

namespace AlulaKeeper

open I128

/-- The `liquidate` rules a market enforces around its dust floor. -/
inductive DustRules where
  /-- Collateral left under the floor goes to the liquidator. -/
  | sweep
  /-- A liquidation leaving either side under the floor is refused. -/
  | noDust
  deriving DecidableEq, Repr

/-- `floor(amount * bps / BPS_FACTOR)` with saturating intermediates. -/
def fixedMulFloor (amount bps : ℤ) : ℤ := saturatingDiv (saturatingMul amount bps) bpsFactor

/-- `ceil(amount * bps / BPS_FACTOR)` with saturating intermediates. -/
def fixedMulCeil (amount bps : ℤ) : ℤ :=
  saturatingDiv (saturatingAdd (saturatingMul amount bps) (bpsFactor - 1)) bpsFactor

theorem bpsFactor_pos : 0 < bpsFactor := by decide

theorem fixedMulFloor_mul_le {a b : ℤ} (h : 0 ≤ a * b) : fixedMulFloor a b * bpsFactor ≤ a * b := by
  have h1 := clamp_nonneg h
  have h2 := clamp_le h
  unfold fixedMulFloor saturatingDiv saturatingMul
  rw [clamp_of_fits ((fits_clamp _).tdiv bpsFactor_pos)]
  exact (tdiv_mul_le h1 bpsFactor_pos).trans h2

/-- A floor is less than one above an exact product that does not saturate below. -/
theorem fixedMulFloor_sub_one_mul_lt {a b : ℤ} (h : minVal ≤ a * b) :
    (fixedMulFloor a b - 1) * bpsFactor < a * b := by
  unfold fixedMulFloor saturatingDiv saturatingMul
  rw [clamp_of_fits ((fits_clamp _).tdiv bpsFactor_pos)]
  exact (tdiv_sub_one_mul_lt bpsFactor_pos).trans_le (clamp_le_of_min_le h)

theorem fixedMulFloor_nonpos {a b : ℤ} (h : a * b ≤ 0) : fixedMulFloor a b ≤ 0 := by
  have h1 := clamp_nonpos h
  unfold fixedMulFloor saturatingDiv saturatingMul
  rw [clamp_of_fits ((fits_clamp _).tdiv bpsFactor_pos)]
  exact tdiv_nonpos h1 bpsFactor_pos

theorem fixedMulFloor_lt {v bps : ℤ} (hv : 0 < v) (h0 : 0 ≤ bps) (h1 : bps < bpsFactor) :
    fixedMulFloor v bps < v := by
  have h := fixedMulFloor_mul_le (mul_nonneg hv.le h0)
  have : v * bps < v * bpsFactor := mul_lt_mul_of_pos_left h1 hv
  exact lt_of_mul_lt_mul_right (h.trans_lt this) bpsFactor_pos.le

theorem fixedMulCeil_eq (a b : ℤ) :
    fixedMulCeil a b = (clamp (clamp (a * b) + (bpsFactor - 1))).tdiv bpsFactor :=
  clamp_of_fits ((fits_clamp _).tdiv bpsFactor_pos)

theorem fixedMulCeil_nonneg {a b : ℤ} (h : 0 ≤ a * b) : 0 ≤ fixedMulCeil a b := by
  have h1 := clamp_nonneg h
  have h2 : 0 ≤ clamp (clamp (a * b) + (bpsFactor - 1)) :=
    clamp_nonneg (add_nonneg h1 (by decide))
  rw [fixedMulCeil_eq]
  exact Int.tdiv_nonneg h2 bpsFactor_pos.le

theorem fixedMulCeil_zero (a : ℤ) : fixedMulCeil a 0 = 0 := by
  rw [fixedMulCeil_eq, mul_zero]
  decide

theorem fixedMulCeil_mono {a b a' b' : ℤ} (h : a * b ≤ a' * b') : fixedMulCeil a b ≤ fixedMulCeil a' b' := by
  rw [fixedMulCeil_eq, fixedMulCeil_eq]
  exact Int.tdiv_le_tdiv bpsFactor_pos (clamp_mono (add_le_add_left (clamp_mono h) _))

theorem fixedMulCeil_nonpos {a b : ℤ} (h : a * b ≤ 0) : fixedMulCeil a b ≤ 0 := by
  rw [← fixedMulCeil_zero a]
  exact fixedMulCeil_mono (by rwa [mul_zero])

/-! ## Oracle values -/

/-- `token_factor`. -/
def tokenFactor (pool : PoolData) : Res ℤ := mOu (checkedPow10 pool.tokenDecimals)

/-- `value_floor`. -/
def valueFloor (amount : ℤ) (pool : PoolData) : Res ℤ := do
  let product ← mOu (checkedMul amount pool.oracleAssetPrice)
  mOu (checkedDiv product (← tokenFactor pool))

/-- `value_ceil`. -/
def valueCeil (amount : ℤ) (pool : PoolData) : Res ℤ := do
  let factor ← tokenFactor pool
  let product ← mOu (checkedMul amount pool.oracleAssetPrice)
  let adjusted ← mOu (checkedAdd product (← rawSub factor 1))
  mOu (checkedDiv adjusted factor)

/-- `amount_floor`. -/
def amountFloor (value : ℤ) (pool : PoolData) : Res ℤ := do
  let product ← mOu (checkedMul value (← tokenFactor pool))
  mOu (checkedDiv product pool.oracleAssetPrice)

/-- `amount_ceil`. -/
def amountCeil (value : ℤ) (pool : PoolData) : Res ℤ := do
  let product ← mOu (checkedMul value (← tokenFactor pool))
  let adjusted ← mOu (checkedAdd product (← rawSub pool.oracleAssetPrice 1))
  mOu (checkedDiv adjusted pool.oracleAssetPrice)

theorem valueFloor_eq_ok {a v : ℤ} {pool : PoolData} :
    valueFloor a pool = .ok v ↔ Fits (pow10 pool.tokenDecimals) ∧
      Fits (a * pool.oracleAssetPrice) ∧
        v = (a * pool.oracleAssetPrice).tdiv (pow10 pool.tokenDecimals) := by
  simp only [valueFloor, tokenFactor, bind_eq_ok, mOu_eq_ok, checkedPow10_eq_some,
    checkedMul_eq_some]
  constructor
  · rintro ⟨_, ⟨hx, rfl⟩, _, ⟨ht, rfl⟩, h⟩
    rw [checkedDiv_eq_some_of_pos hx (pow10_pos _)] at h
    exact ⟨ht, hx, h.symm⟩
  · rintro ⟨ht, hx, rfl⟩
    exact ⟨_, ⟨hx, rfl⟩, _, ⟨ht, rfl⟩, (checkedDiv_eq_some_of_pos hx (pow10_pos _)).mpr rfl⟩

theorem fits_pow10_sub_one {n : ℕ} (h : Fits (pow10 n)) : Fits (pow10 n - 1) := by
  have := pow10_pos n
  exact h.of_nonneg_of_le (by omega) (by omega)

theorem valueCeil_eq_ok {a v : ℤ} {pool : PoolData} :
    valueCeil a pool = .ok v ↔ Fits (pow10 pool.tokenDecimals) ∧
      Fits (a * pool.oracleAssetPrice) ∧
        Fits (a * pool.oracleAssetPrice + (pow10 pool.tokenDecimals - 1)) ∧
          v = (a * pool.oracleAssetPrice + (pow10 pool.tokenDecimals - 1)).tdiv
            (pow10 pool.tokenDecimals) := by
  simp only [valueCeil, tokenFactor, bind_eq_ok, mOu_eq_ok, checkedPow10_eq_some,
    checkedMul_eq_some, checkedAdd_eq_some, rawSub_eq_ok]
  constructor
  · rintro ⟨_, ⟨ht, rfl⟩, _, ⟨hx, rfl⟩, _, ⟨-, rfl⟩, _, ⟨hy, rfl⟩, h⟩
    rw [checkedDiv_eq_some_of_pos hy (pow10_pos _)] at h
    exact ⟨ht, hx, hy, h.symm⟩
  · rintro ⟨ht, hx, hy, rfl⟩
    exact ⟨_, ⟨ht, rfl⟩, _, ⟨hx, rfl⟩, _, ⟨fits_pow10_sub_one ht, rfl⟩, _, ⟨hy, rfl⟩,
      (checkedDiv_eq_some_of_pos hy (pow10_pos _)).mpr rfl⟩

/-! ## The liquidate gate -/

/-- One deposit's tokens as the verdicts count them: shares at the reported rate, plus plain. -/
def rateTokens (deposit : DepositPosition) (pool : PoolData) : Res ℤ :=
  mOu (checkedAdd (fixedMulFloor deposit.jTokens pool.jTokenRateFloorBps) deposit.collateral)

/-- One borrow's tokens as the verdicts count them: shares at the reported rate. -/
def rateDebt (borrow : BorrowPosition) (pool : PoolData) : ℤ :=
  fixedMulCeil borrow.dTokens pool.dTokenRateCeilBps

/-- `has_any_collateral`. -/
def hasAnyCollateral (obligation : Obligation) (market : MarketData) : Bool :=
  obligation.deposits.any fun deposit =>
    match market.findPool deposit.poolAddress with
    | none => false
    | some pool =>
      saturatingAdd (fixedMulFloor deposit.jTokens pool.jTokenRateFloorBps) deposit.collateral > 0

/-- One borrow's value scaled by its pool's liability factor. -/
def scaledBorrowValue (borrow : BorrowPosition) (pool : PoolData) : Res ℤ := do
  let value ← valueCeil (rateDebt borrow pool) pool
  return fixedMulCeil value pool.liabilityFactorBps

/-- The debt loop of `compute_is_liquidatable`; a borrow in an unknown pool is skipped. -/
def scaledDebtValue (obligation : Obligation) (market : MarketData) : Res ℤ :=
  obligation.borrows.foldlM (fun debtValue borrow =>
    match market.findPool borrow.poolAddress with
    | none => pure debtValue
    | some pool => do mOu (checkedAdd debtValue (← scaledBorrowValue borrow pool))) 0

/-- One deposit's value scaled by its pool's close LTV. -/
def scaledDepositValue (deposit : DepositPosition) (pool : PoolData) : Res ℤ := do
  let value ← valueFloor (← rateTokens deposit pool) pool
  return fixedMulFloor value pool.closeLtvBps

/-- The collateral loop of `compute_is_liquidatable`; a deposit in an unknown pool is skipped. -/
def scaledCollateralValue (obligation : Obligation) (market : MarketData) : Res ℤ :=
  obligation.deposits.foldlM (fun collateralValue deposit =>
    match market.findPool deposit.poolAddress with
    | none => pure collateralValue
    | some pool => do mOu (checkedAdd collateralValue (← scaledDepositValue deposit pool))) 0

/-- `compute_is_liquidatable`. -/
def computeIsLiquidatable (obligation : Obligation) (market : MarketData) (rules : DustRules) :
    Res Bool := do
  if !hasAnyCollateral obligation market then
    return false
  let debtValue ← scaledDebtValue obligation market
  if debtValue = 0 then
    return false
  let collateralValue ← scaledCollateralValue obligation market
  let minCollateralValuePerDepositPosition ←
    dustFloorValue market.minCollateralValueCents market.oraclePriceDecimals
  let collateralValueToSubstract ←
    mOu (checkedMul minCollateralValuePerDepositPosition obligation.deposits.length)
  -- the market lets the adjusted collateral go negative; a sweep market leaves that to the cover
  if rules = .sweep ∧ collateralValueToSubstract > collateralValue then
    return false
  let collateralValueAdjusted ← mOu (checkedSub collateralValue collateralValueToSubstract)
  return debtValue > collateralValueAdjusted

/-- `unpriced_pools_touched`, in the order the obligation holds them, each once. -/
def unpricedPoolsTouched (obligation : Obligation) (market : MarketData) : List Address :=
  (obligation.borrows.map (·.poolAddress) ++ obligation.deposits.map (·.poolAddress)).foldl
    (fun unpriced held =>
      let priced := market.poolsData.any fun p => p.poolAddress == held
      if !priced && !unpriced.contains held then unpriced ++ [held] else unpriced) []

theorem any_poolAddress_iff {market : MarketData} {address : Address} :
    (market.poolsData.any fun p => p.poolAddress == address) = true ↔
      ∃ pool, market.findPool address = some pool := by
  rw [← Option.isSome_iff_exists, MarketData.findPool, List.find?_isSome, List.any_eq_true]

/-- The pools an obligation holds a position in. -/
def poolsTouched (obligation : Obligation) : List Address :=
  obligation.borrows.map (·.poolAddress) ++ obligation.deposits.map (·.poolAddress)

/-- **No pool is reported unpriced exactly when the snapshot prices every pool touched.** -/
theorem unpricedPoolsTouched_eq_nil_iff {obligation : Obligation} {market : MarketData} :
    unpricedPoolsTouched obligation market = [] ↔
      ∀ address ∈ poolsTouched obligation, ∃ pool, market.findPool address = some pool := by
  have key : ∀ (held acc : List Address), held.foldl (fun unpriced held =>
      let priced := market.poolsData.any fun p => p.poolAddress == held
      if !priced && !unpriced.contains held then unpriced ++ [held] else unpriced) acc = [] ↔
        acc = [] ∧ ∀ address ∈ held, ∃ pool, market.findPool address = some pool := by
    intro held
    induction held with
    | nil => simp
    | cons address held ih =>
      intro acc
      rw [List.foldl_cons, ih, List.forall_mem_cons, ← any_poolAddress_iff]
      cases hp : market.poolsData.any fun p => p.poolAddress == address with
      | true => simp
      | false =>
        cases hc : acc.contains address with
        | true =>
          have : acc ≠ [] := by rintro rfl; simp at hc
          simp [this]
        | false => simp
  rw [unpricedPoolsTouched, key]
  simp [poolsTouched]

/-! ## Insolvency -/

/-- `compute_obligation_debt_value`. -/
def computeObligationDebtValue (obligation : Obligation) (market : MarketData) : Res ℤ :=
  obligation.borrows.foldlM (fun total borrow => do
    let pool ← orErr LMError.internalError (market.findPool borrow.poolAddress)
    mOu (checkedAdd total (← valueCeil (rateDebt borrow pool) pool))) 0

/-- `compute_obligation_collateral_value`. -/
def computeObligationCollateralValue (obligation : Obligation) (market : MarketData) : Res ℤ :=
  obligation.deposits.foldlM (fun total deposit => do
    let pool ← orErr LMError.internalError (market.findPool deposit.poolAddress)
    mOu (checkedAdd total (← valueFloor (← rateTokens deposit pool) pool))) 0

/-- `compute_is_insolvent`. -/
def computeIsInsolvent (obligation : Obligation) (market : MarketData) : Res Bool := do
  let debtValue ← computeObligationDebtValue obligation market
  if debtValue < 0 then
    fail .internalError
  else if debtValue = 0 then
    return false
  else
  let collateralValue ← computeObligationCollateralValue obligation market
  if collateralValue < 0 then
    fail .internalError
  else if collateralValue = 0 then
    return true
  else
  let unparameterizedLtv ← bpsFixedDivCeil debtValue collateralValue
  return unparameterizedLtv ≥ market.insolvencyLtvBps

end AlulaKeeper
