import Mathlib
import AlulaKeeper.Lib.I128

/-!
# Pools, positions and markets

The data of `engine/src/lending_model` and the pool arithmetic of `amount.rs` and `pool.rs`.

* `Res`: a result of the lending model, an `LMError` or an abort.
* `PoolData`, `DepositPosition`, `BorrowPosition`, `Obligation`, `MarketData`.
* `PoolData.shareFloor`, `PoolData.shareCeil`: the two roundings every conversion between shares and
  tokens goes through; the conversions name their numerator, denominator and empty-pool answer.
-/

namespace AlulaKeeper

open I128

/-- `LendingModelError`. -/
inductive LMError where
  | internalError
  | overOrUnderflow
  deriving DecidableEq, Repr

/-- A result of the lending model. -/
abbrev Res (α : Type) := Except (Fault LMError) α

instance {α : Type} [DecidableEq α] : DecidableEq (Res α)
  | .ok a, .ok b => decidable_of_iff (a = b) (by simp)
  | .error e, .error f => decidable_of_iff (e = f) (by simp)
  | .ok _, .error _ => isFalse (by simp)
  | .error _, .ok _ => isFalse (by simp)

/-- `MapArithmeticError::m_ou`. -/
def mOu {α : Type} (o : Option α) : Res α := orErr .overOrUnderflow o

@[simp] theorem mOu_eq_ok {α : Type} {o : Option α} {r : α} : mOu o = .ok r ↔ o = some r :=
  orErr_eq_ok

/-- `Err(e)`. -/
def fail {α : Type} (e : LMError) : Res α := .error (.err e)

@[simp] theorem fail_ne_ok {α : Type} {e : LMError} {r : α} : fail e ≠ .ok r := nofun

/-- Shares of a deposit. -/
abbrev JTokens := ℤ

/-- Shares of a debt. -/
abbrev DTokens := ℤ

/-- A pool's own tokens. -/
abbrev Underlying := ℤ

/-- A Stellar address. -/
abbrev Address := String

/-- `BPS_FACTOR`. -/
def bpsFactor : ℤ := 10000

/-- `a.checked_mul(BPS_FACTOR)?.checked_add(other - 1)? / other`; every caller maps `None` by `m_ou`. -/
def bpsFixedDivCeil (a other : ℤ) : Res ℤ := do
  let numerator ← mOu (checkedMul a bpsFactor)
  let numeratorAdjusted ← mOu (checkedAdd numerator (← rawSub other 1))
  rawDiv numeratorAdjusted other

/-- `bps_fixed_div_floor`. -/
def bpsFixedDivFloor (a other : ℤ) : Res ℤ := do
  let numerator ← mOu (checkedMul a bpsFactor)
  rawDiv numerator other

/-- `scale_with_bps_ceil`. -/
def scaleWithBpsCeil (amount : Underlying) (bps : ℤ) : Res Underlying := do
  let numerator ← mOu (checkedMul amount bps)
  let numeratorAdjusted ← mOu (checkedAdd numerator (bpsFactor - 1))
  mOu (checkedDiv numeratorAdjusted bpsFactor)

/-! ## Pools -/

/-- `POOL_STATUS_FLASH_LOAN_ENABLED`. -/
def poolStatusFlashLoanEnabled : ℕ := 1 <<< 3

/-- `SECONDS_IN_YEAR`. -/
def secondsInYear : ℤ := 31556926

/-- `PoolData`. -/
structure PoolData where
  totalSupply : Underlying
  openLtvBps : ℤ
  closeLtvBps : ℤ
  tokenDecimals : ℕ
  tokenSymbol : String
  poolAddress : Address
  totalBorrowed : Underlying
  totalDTokens : DTokens
  totalJTokens : JTokens
  tokenAddress : Address
  totalAvailable : Underlying
  totalCollateral : Underlying
  oracleAssetPrice : ℤ
  flashLoanFeeBps : ℤ
  /-- The pool's `config.status.flags`. -/
  statusFlags : ℕ
  liabilityFactorBps : ℤ
  dTokenRateCeilBps : ℤ
  jTokenRateFloorBps : ℤ
  totalAvailableAdjusted : Underlying
  utilizationRatioLimitBps : ℤ
  liquidationCloseFactorBps : ℤ
  maxLiquidationIncentiveBps : ℤ
  lastAccrualTimestamp : ℕ
  borrowApyBps : ℤ
  supplyApyBps : ℤ
  deriving DecidableEq, Repr

namespace PoolData

variable (pool : PoolData)

/-- `is_flash_loan_enabled`. -/
def isFlashLoanEnabled : Bool := pool.statusFlags &&& poolStatusFlashLoanEnabled != 0

/-- Interest accrued between the last update and `now`: bps of the borrowed and of the supplied
totals, rounded up. -/
def accrualSinceUpdateBps (now : ℕ) : ℤ × ℤ :=
  let elapsed : ℤ := (now - pool.lastAccrualTimestamp : ℕ)
  let accrued := fun apyBps : ℤ =>
    (saturatingAdd (saturatingMul apyBps elapsed) (secondsInYear - 1)).tdiv secondsInYear
  (accrued pool.borrowApyBps, accrued pool.supplyApyBps)

/-- `utilization_ratio_bps`. -/
def utilizationRatioBps : Res ℤ :=
  if pool.totalSupply = 0 then pure 0 else bpsFixedDivFloor pool.totalBorrowed pool.totalSupply

/-- `available_for_borrow`. -/
def availableForBorrow : Res Underlying := do
  let utilizationRatioBps ← pool.utilizationRatioBps
  if utilizationRatioBps ≥ pool.utilizationRatioLimitBps then
    return 0
  let utilizationRatioLeftBps ← rawSub pool.utilizationRatioLimitBps utilizationRatioBps
  return saturatingDiv (saturatingMul pool.totalSupply utilizationRatioLeftBps) bpsFactor

/-- `amount * numerator / denominator`, rounded down; `empty` when the denominator is zero. -/
def shareFloor (amount numerator denominator empty : ℤ) : Res ℤ :=
  if denominator = 0 then pure empty else do
    rawDiv (← mOu (checkedMul amount numerator)) denominator

/-- `amount * numerator / denominator`, rounded up; `empty` when the denominator is zero. -/
def shareCeil (amount numerator denominator empty : ℤ) : Res ℤ :=
  if denominator = 0 then pure empty else do
    let product ← mOu (checkedMul amount numerator)
    rawDiv (← mOu (checkedAdd product (← rawSub denominator 1))) denominator

/-- `j_tokens_to_tokens_floor`. -/
def jTokensToTokensFloor (jTokens : JTokens) : Res Underlying :=
  shareFloor jTokens pool.totalSupply pool.totalJTokens 0

/-- `j_tokens_to_tokens_ceil`. -/
def jTokensToTokensCeil (jTokens : JTokens) : Res Underlying :=
  shareCeil jTokens pool.totalSupply pool.totalJTokens 0

/-- `tokens_to_j_tokens_floor`. -/
def tokensToJTokensFloor (tokens : Underlying) : Res JTokens :=
  shareFloor tokens pool.totalJTokens pool.totalSupply tokens

/-- `tokens_to_j_tokens_ceil`. -/
def tokensToJTokensCeil (tokens : Underlying) : Res JTokens :=
  shareCeil tokens pool.totalJTokens pool.totalSupply tokens

/-- `d_tokens_to_tokens_floor`. -/
def dTokensToTokensFloor (dTokens : DTokens) : Res Underlying :=
  shareFloor dTokens pool.totalBorrowed pool.totalDTokens 0

/-- `d_tokens_to_tokens_ceil`. -/
def dTokensToTokensCeil (dTokens : DTokens) : Res Underlying :=
  shareCeil dTokens pool.totalBorrowed pool.totalDTokens 0

/-- `tokens_to_d_tokens_floor`. -/
def tokensToDTokensFloor (tokens : Underlying) : Res DTokens :=
  shareFloor tokens pool.totalDTokens pool.totalBorrowed tokens

/-- `tokens_to_d_tokens_ceil`. -/
def tokensToDTokensCeil (tokens : Underlying) : Res DTokens :=
  shareCeil tokens pool.totalDTokens pool.totalBorrowed tokens

/-- `compute_max_safe_withdrawal`: how much can leave with the utilization at or under the safe band. -/
def computeMaxSafeWithdrawal (safetyMarginBps : ℤ) : Res Underlying := do
  let currentUtilizationBps ← pool.utilizationRatioBps
  let utilizationConsideredSafe := saturatingSub pool.utilizationRatioLimitBps safetyMarginBps
  if utilizationConsideredSafe ≤ 0 then
    return 0
  if currentUtilizationBps ≥ utilizationConsideredSafe then
    return 0
  let minAllowedTotalSupply ← bpsFixedDivCeil pool.totalBorrowed utilizationConsideredSafe
  if minAllowedTotalSupply ≥ pool.totalSupply then
    return 0
  rawSub pool.totalSupply minAllowedTotalSupply

end PoolData

/-! ## Obligations and markets -/

/-- `ObligationKey`. -/
structure ObligationKey where
  user : Address
  seed : Option String
  deriving DecidableEq, Repr

/-- `DepositPosition`. -/
structure DepositPosition where
  jTokens : JTokens
  collateral : Underlying
  poolAddress : Address
  deriving DecidableEq, Repr

/-- `BorrowPosition`. -/
structure BorrowPosition where
  dTokens : DTokens
  poolAddress : Address
  deriving DecidableEq, Repr

/-- `Obligation`. -/
structure Obligation where
  borrows : List BorrowPosition
  deposits : List DepositPosition
  openBadDebtRequests : ℕ
  deriving DecidableEq, Repr

/-- `MarketData`. -/
structure MarketData where
  insolvencyLtvBps : ℤ
  poolsData : List PoolData
  oraclePriceDecimals : ℕ
  minCollateralValueCents : ℤ
  /-- Pools the snapshot could not read. -/
  unavailablePools : List Address
  deriving DecidableEq, Repr

/-- `prices_nothing`. -/
def MarketData.pricesNothing (market : MarketData) : Bool :=
  market.poolsData.isEmpty && !market.unavailablePools.isEmpty

/-- `pools_data.iter().find(|p| p.pool_address == address)`. -/
def MarketData.findPool (market : MarketData) (address : Address) : Option PoolData :=
  market.poolsData.find? fun p => p.poolAddress == address

theorem MarketData.poolAddress_of_findPool {market : MarketData} {address : Address} {pool : PoolData}
    (h : market.findPool address = some pool) : pool.poolAddress = address := by
  have hfound := List.find?_some h
  exact beq_iff_eq.mp hfound

/-- `market_data.min_collateral_value_cents` in oracle units, rounded down. -/
def dustFloorValue (cents : ℤ) (oraclePriceDecimals : ℕ) : Res ℤ := do
  let scaled ← mOu (checkedMul cents (← mOu (checkedPow10 oraclePriceDecimals)))
  mOu (checkedDiv scaled 100)

/-! ## The market of the dust tests

Risk parameters of `mod dust` in `liquidation.rs`: every token has 7 decimals and 14 oracle decimals,
the floor is $5. Witnesses and counterexamples are stated on it. -/

/-- One dollar a token. -/
def usd : ℤ := 100000000000000

/-- A pool at par with a million tokens supplied and borrowed. -/
def dustPool (address : Address) (price : ℤ) : PoolData where
  totalSupply := 10000000000000
  openLtvBps := 8000
  closeLtvBps := 8000
  tokenDecimals := 7
  tokenSymbol := "TST"
  poolAddress := address
  totalBorrowed := 10000000000000
  totalDTokens := 10000000000000
  totalJTokens := 10000000000000
  tokenAddress := address
  totalAvailable := 0
  totalCollateral := 0
  oracleAssetPrice := price
  flashLoanFeeBps := 5
  statusFlags := 4294967295
  liabilityFactorBps := 10000
  dTokenRateCeilBps := 10000
  jTokenRateFloorBps := 10000
  totalAvailableAdjusted := 0
  utilizationRatioLimitBps := 9000
  liquidationCloseFactorBps := 5000
  maxLiquidationIncentiveBps := 1000
  lastAccrualTimestamp := 0
  borrowApyBps := 0
  supplyApyBps := 0

/-- Dollars and gold, the gold at `goldPrice`. -/
def dustMarket (goldPrice : ℤ) : MarketData where
  insolvencyLtvBps := 9850
  poolsData := [dustPool "USDC" usd, dustPool "GOLD" goldPrice]
  oraclePriceDecimals := 14
  minCollateralValueCents := 500
  unavailablePools := []

/-- `usdcDebt` borrowed against plain GOLD. -/
def dustBorrower (usdcDebt gold : ℤ) : Obligation where
  borrows := [{ dTokens := usdcDebt, poolAddress := "USDC" }]
  deposits := [{ jTokens := 0, collateral := gold, poolAddress := "GOLD" }]
  openBadDebtRequests := 0

/-! ## What the roundings compute -/

theorem dustFloorValue_eq_ok {cents : ℤ} {n : ℕ} {f : ℤ} :
    dustFloorValue cents n = .ok f ↔
      Fits (pow10 n) ∧ Fits (cents * pow10 n) ∧ f = (cents * pow10 n).tdiv 100 := by
  simp only [dustFloorValue, bind_eq_ok, mOu_eq_ok, checkedPow10_eq_some, checkedMul_eq_some]
  constructor
  · rintro ⟨_, ⟨ht, rfl⟩, _, ⟨hs, rfl⟩, h⟩
    rw [checkedDiv_eq_some_of_pos hs (by norm_num)] at h
    exact ⟨ht, hs, h.symm⟩
  · rintro ⟨ht, hs, rfl⟩
    exact ⟨_, ⟨ht, rfl⟩, _, ⟨hs, rfl⟩, (checkedDiv_eq_some_of_pos hs (by norm_num)).mpr rfl⟩

theorem PoolData.shareFloor_zero (n d : ℤ) : shareFloor 0 n d 0 = .ok 0 := by
  unfold shareFloor
  split_ifs with hd
  · rfl
  · have h0 : mOu (checkedMul 0 n) = .ok 0 := by
      rw [mOu_eq_ok, checkedMul_eq_some, zero_mul]
      exact ⟨fits_zero, rfl⟩
    rw [h0, ok_bind, rawDiv, if_neg hd, Int.zero_tdiv]
    exact raw_eq_ok.mpr ⟨fits_zero, rfl⟩

theorem PoolData.shareCeil_eq_ok_of_pos {a n d e r : ℤ} (hd : 0 < d) :
    shareCeil a n d e = .ok r ↔
      Fits (a * n) ∧ Fits (d - 1) ∧ Fits (a * n + (d - 1)) ∧ r = (a * n + (d - 1)).tdiv d := by
  simp only [shareCeil, if_neg hd.ne', bind_eq_ok, mOu_eq_ok, checkedMul_eq_some,
    checkedAdd_eq_some, rawSub_eq_ok]
  constructor
  · rintro ⟨_, ⟨hx, rfl⟩, _, ⟨hz, rfl⟩, _, ⟨hy, rfl⟩, h⟩
    rw [rawDiv_of_pos hy hd, Except.ok.injEq] at h
    exact ⟨hx, hz, hy, h.symm⟩
  · rintro ⟨hx, hz, hy, rfl⟩
    exact ⟨_, ⟨hx, rfl⟩, _, ⟨hz, rfl⟩, _, ⟨hy, rfl⟩, rawDiv_of_pos hy hd⟩

theorem PoolData.shareFloor_eq_ok_of_pos {a n d e r : ℤ} (hd : 0 < d) :
    shareFloor a n d e = .ok r ↔ Fits (a * n) ∧ r = (a * n).tdiv d := by
  simp only [shareFloor, if_neg hd.ne', bind_eq_ok, mOu_eq_ok, checkedMul_eq_some]
  constructor
  · rintro ⟨_, ⟨hx, rfl⟩, h⟩
    rw [rawDiv_of_pos hx hd, Except.ok.injEq] at h
    exact ⟨hx, h.symm⟩
  · rintro ⟨hx, rfl⟩
    exact ⟨_, ⟨hx, rfl⟩, rawDiv_of_pos hx hd⟩

theorem bpsFixedDivCeil_eq_shareCeil {a other : ℤ} (hpos : 0 < other) :
    bpsFixedDivCeil a other = PoolData.shareCeil a bpsFactor other 0 :=
  (if_neg hpos.ne').symm

theorem bpsFixedDivCeil_eq_ok_of_pos {a other r : ℤ} (hpos : 0 < other) :
    bpsFixedDivCeil a other = .ok r ↔ Fits (a * bpsFactor) ∧ Fits (other - 1) ∧
      Fits (a * bpsFactor + (other - 1)) ∧ r = (a * bpsFactor + (other - 1)).tdiv other := by
  rw [bpsFixedDivCeil_eq_shareCeil hpos]
  exact PoolData.shareCeil_eq_ok_of_pos hpos

theorem bpsFixedDivFloor_eq_ok_of_pos {a other r : ℤ} (hpos : 0 < other) :
    bpsFixedDivFloor a other = .ok r ↔ Fits (a * bpsFactor) ∧ r = (a * bpsFactor).tdiv other := by
  have hshare : bpsFixedDivFloor a other = PoolData.shareFloor a bpsFactor other 0 :=
    (if_neg hpos.ne').symm
  rw [hshare]
  exact PoolData.shareFloor_eq_ok_of_pos hpos

theorem bpsFixedDivCeil_le {a other r : ℤ} (hpos : 0 < other) (h : bpsFixedDivCeil a other = .ok r) :
    a * bpsFactor ≤ other * r := by
  obtain ⟨-, -, -, rfl⟩ := (bpsFixedDivCeil_eq_ok_of_pos hpos).mp h
  have hmod : (a * bpsFactor + (other - 1)).tmod other < other := Int.tmod_lt_of_pos _ hpos
  have hsplit := Int.mul_tdiv_add_tmod (a * bpsFactor + (other - 1)) other
  linarith

/-- **A safe withdrawal keeps the band.** What a positive result lets leave keeps the borrowed total within
the safe utilization of the supply left. -/
theorem PoolData.computeMaxSafeWithdrawal_safe {pool : PoolData} {margin w : ℤ}
    (h : pool.computeMaxSafeWithdrawal margin = .ok w) (hw : w ≠ 0) :
    ∃ safe, 0 < safe ∧ safe ≤ pool.utilizationRatioLimitBps - margin ∧
      pool.totalBorrowed * bpsFactor ≤ safe * (pool.totalSupply - w) := by
  obtain ⟨current, -, h⟩ := bind_eq_ok.mp h
  dsimp only at h
  split_ifs at h with hsafe hcurrent
  · exact absurd (pure_eq_ok.mp h).symm hw
  · exact absurd (pure_eq_ok.mp h).symm hw
  obtain ⟨minSupply, hmin, h⟩ := bind_eq_ok.mp h
  split_ifs at h with hle
  · exact absurd (pure_eq_ok.mp h).symm hw
  obtain ⟨-, rfl⟩ := rawSub_eq_ok.mp h
  refine ⟨_, not_le.mp hsafe, ?_, ?_⟩
  · -- a positive saturated difference is at most the difference
    exact clamp_le (not_lt.mp fun hneg => hsafe (clamp_nonpos hneg.le))
  · rw [sub_sub_cancel]
    exact bpsFixedDivCeil_le (not_le.mp hsafe) hmin

end AlulaKeeper
