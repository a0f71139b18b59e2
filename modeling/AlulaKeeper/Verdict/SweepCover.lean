import Mathlib
import AlulaKeeper.Lib.Fold
import AlulaKeeper.Lending.Cover

/-!
# Liquidation and cover on a sweep market

On a sweep market `computeIsLiquidatable` leaves an obligation whose adjusted collateral is negative to
the bad-debt cover, and the cover takes it when every deposit is dust.

* `computeIsLiquidatable_sweep_iff`, `isEligible_sweep_iff`: when the two verdicts are positive.
* `sweep_liquidated_or_covered_iff`: which obligations past the liquidate gate one of the two takes.
* `scaledDepositValue_lt`: a deposit the cover calls dust counts for less than the floor at the gate.
* `sweep_cover_excludes_liquidation`: no obligation is taken by both.
-/

namespace AlulaKeeper

open I128

section Verdicts

variable {obligation : Obligation} {market : MarketData} {margin : ℤ} {now : ℕ} {D C F : ℤ}

/-- Some deposit is worth more than the cover's dust threshold. -/
def HoldsOverThreshold (obligation : Obligation) (market : MarketData) : Prop :=
  ∃ threshold, centsToOracleValueCeil market.minCollateralValueCents market.oraclePriceDecimals =
    .ok threshold ∧ ∃ deposit ∈ obligation.deposits, ∃ pool v,
      market.findPool deposit.poolAddress = some pool ∧ coverDepositValue deposit pool = .ok v ∧
        threshold < v

theorem borrows_ne_nil (hD : scaledDebtValue obligation market = .ok D) (h0 : D ≠ 0) :
    obligation.borrows ≠ [] := by
  intro hb
  rw [scaledDebtValue, hb, List.foldlM_nil, pure_eq_ok] at hD
  exact h0 hD.symm

theorem deposit_priced (h : unpricedPoolsTouched obligation market = []) {d : DepositPosition}
    (hd : d ∈ obligation.deposits) : ∃ pool, market.findPool d.poolAddress = some pool :=
  unpricedPoolsTouched_eq_nil_iff.mp h _
    (List.mem_append_right _ (List.mem_map_of_mem hd))

/-- **The sweep gate.** Past the market's own comparison, a returned verdict is positive when the
adjusted collateral is not negative. -/
theorem computeIsLiquidatable_sweep_iff {l : Bool}
    (hl : computeIsLiquidatable obligation market .sweep = .ok l)
    (hD : scaledDebtValue obligation market = .ok D)
    (hC : scaledCollateralValue obligation market = .ok C)
    (hF : dustFloorValue market.minCollateralValueCents market.oraclePriceDecimals = .ok F)
    (hpos : 0 < D) (hgate : C - obligation.deposits.length * F < D) :
    l = true ↔ hasAnyCollateral obligation market = true ∧ obligation.deposits.length * F ≤ C := by
  cases hany : hasAnyCollateral obligation market with
  | false =>
    simp only [computeIsLiquidatable, hany, Bool.not_false, if_true, pure_eq_ok] at hl
    simp [← hl]
  | true =>
    simp only [computeIsLiquidatable, hany, hD, hC, hF, ok_bind, hpos.ne', Bool.not_true,
      Bool.false_eq_true, if_false, bind_eq_ok, mOu_eq_ok, checkedMul_eq_some] at hl
    obtain ⟨_, ⟨-, rfl⟩, hl⟩ := hl
    rw [mul_comm] at hgate ⊢
    split_ifs at hl with hneg
    · have : ¬ F * obligation.deposits.length ≤ C := not_le.mpr hneg.2
      simp only [pure_eq_ok] at hl
      simp [← hl, this]
    · have : F * obligation.deposits.length ≤ C := not_lt.mp fun h => hneg ⟨trivial, h⟩
      simp only [bind_eq_ok, mOu_eq_ok, checkedSub_eq_some, pure_eq_ok] at hl
      obtain ⟨_, ⟨-, rfl⟩, hl⟩ := hl
      simp [← hl, this, hgate]

theorem collateral_of_liquidatable
    (hl : computeIsLiquidatable obligation market .sweep = .ok true) :
    ∃ C F, scaledCollateralValue obligation market = .ok C ∧
      dustFloorValue market.minCollateralValueCents market.oraclePriceDecimals = .ok F ∧
        obligation.deposits.length * F ≤ C := by
  unfold computeIsLiquidatable at hl
  split_ifs at hl with hany
  · simp at hl
  · obtain ⟨D, -, hl⟩ := bind_eq_ok.mp hl
    split_ifs at hl with h0
    · simp at hl
    · simp only [bind_eq_ok, mOu_eq_ok, checkedMul_eq_some] at hl
      obtain ⟨C, hC, F, hF, _, ⟨-, rfl⟩, hl⟩ := hl
      split_ifs at hl with hneg
      · simp at hl
      · refine ⟨C, F, hC, hF, ?_⟩
        rw [mul_comm]
        exact not_lt.mp fun h => hneg ⟨trivial, h⟩

/-- **The sweep cover.** A returned verdict on a priced obligation with debt and no open request is
positive when no deposit is over the threshold. -/
theorem isEligible_sweep_iff {e : Bool}
    (he : isEligibleForBadDebtRequestIssuance .sweep margin now obligation market = .ok e)
    (hpriced : unpricedPoolsTouched obligation market = []) (hb : obligation.borrows ≠ [])
    (ho : obligation.openBadDebtRequests = 0) :
    e = true ↔ ¬ HoldsOverThreshold obligation market := by
  by_cases hd : obligation.deposits = []
  · rw [isEligible_of_no_deposits hb ho hd, Except.ok.injEq] at he
    simp [← he, HoldsOverThreshold, hd]
  · rw [isEligible_eq_coverVerdict hb ho hd] at he
    cases e with
    | true =>
      obtain ⟨t, ht, hdust, -⟩ := coverVerdict_eq_true_iff.mp he
      refine iff_of_true rfl ?_
      rintro ⟨t', ht', d, hmem, pool, v, hpool, hv, hlt⟩
      obtain ⟨pool', v', hpool', hv', hle⟩ := allDepositsDust_eq_true_iff.mp hdust d hmem
      rw [ht, Except.ok.injEq] at ht'
      rw [hpool, Option.some.injEq] at hpool'
      rw [← hpool', hv, Except.ok.injEq] at hv'
      omega
    | false =>
      obtain ⟨t, ht, hdust | ⟨-, hr, -⟩⟩ := coverVerdict_eq_false_iff.mp he
      · refine iff_of_false (by simp) (not_not.mpr ⟨t, ht, ?_⟩)
        obtain ⟨d, hmem, hnone | ⟨pool, v, hpool, hv, hlt⟩⟩ := allDepositsDust_eq_false hdust
        · obtain ⟨pool, hpool⟩ := deposit_priced hpriced hmem
          rw [hnone] at hpool
          cases hpool
        · exact ⟨d, hmem, pool, v, hpool, hv, hlt⟩
      · cases hr

/-- **Which obligations past the gate are taken.** An obligation whose scaled debt exceeds its scaled
collateral less a floor a deposit is liquidated or covered exactly when the adjusted collateral is not
negative or no deposit is over the threshold. In between, neither strategy acts. -/
theorem sweep_liquidated_or_covered_iff (margin : ℤ) (now : ℕ) {l e : Bool}
    (hpriced : unpricedPoolsTouched obligation market = [])
    (ho : obligation.openBadDebtRequests = 0)
    (hl : computeIsLiquidatable obligation market .sweep = .ok l)
    (he : isEligibleForBadDebtRequestIssuance .sweep margin now obligation market = .ok e)
    (hD : scaledDebtValue obligation market = .ok D)
    (hC : scaledCollateralValue obligation market = .ok C)
    (hF : dustFloorValue market.minCollateralValueCents market.oraclePriceDecimals = .ok F)
    (hpos : 0 < D) (hgate : C - obligation.deposits.length * F < D) :
    l = true ∨ e = true ↔
      (hasAnyCollateral obligation market = true ∧ obligation.deposits.length * F ≤ C) ∨
        ¬ HoldsOverThreshold obligation market := by
  rw [computeIsLiquidatable_sweep_iff hl hD hC hF hpos hgate,
    isEligible_sweep_iff he hpriced (borrows_ne_nil hD hpos.ne') ho]

/-- $20 of debt against $20 of gold is liquidated: the gold counts for more than the floor. -/
theorem sweep_liquidated_at_par :
    (hasAnyCollateral (dustBorrower 200000000 200000000) (dustMarket usd) = true ∧
      ((dustBorrower 200000000 200000000).deposits.length : ℤ) * 500000000000000 ≤
        1600000000000000) ∨
      ¬ HoldsOverThreshold (dustBorrower 200000000 200000000) (dustMarket usd) :=
  (sweep_liquidated_or_covered_iff 0 0 (D := 2000000000000000) (l := true) (e := false)
    (by decide +kernel) (by decide +kernel) (by decide +kernel) (by decide +kernel)
    (by decide +kernel) (by decide +kernel) (by decide +kernel) (by decide +kernel)
    (by decide +kernel)).mp (.inl rfl)

/-- $1 of debt against $6 of gold: past the gate, neither liquidated nor covered. -/
theorem neither_liquidated_nor_covered :
    unpricedPoolsTouched (dustBorrower 10000000 60000000) (dustMarket usd) = [] ∧
      (dustBorrower 10000000 60000000).openBadDebtRequests = 0 ∧
      scaledDebtValue (dustBorrower 10000000 60000000) (dustMarket usd) = .ok usd ∧
      scaledCollateralValue (dustBorrower 10000000 60000000) (dustMarket usd) =
        .ok 480000000000000 ∧
      dustFloorValue (dustMarket usd).minCollateralValueCents (dustMarket usd).oraclePriceDecimals =
        .ok 500000000000000 ∧
      0 < usd ∧
      480000000000000 - (dustBorrower 10000000 60000000).deposits.length * 500000000000000 < usd ∧
      computeIsLiquidatable (dustBorrower 10000000 60000000) (dustMarket usd) .sweep = .ok false ∧
      isEligibleForBadDebtRequestIssuance .sweep 0 0 (dustBorrower 10000000 60000000)
        (dustMarket usd) = .ok false := by
  decide +kernel

end Verdicts

/-! ## No deposit is dust and collateral at once -/

/-- A deposit and its pool as the market contract reports them: prices and positions are not negative,
the close LTV is under one, and the share rate is rounded down. With a supply under zero the shares
times the rate must not clamp at `i128::MIN`, as they never do at a rate of at least zero. -/
structure CoherentDeposit (deposit : DepositPosition) (pool : PoolData) : Prop where
  price_nonneg : 0 ≤ pool.oracleAssetPrice
  jTokens_nonneg : 0 ≤ deposit.jTokens
  collateral_nonneg : 0 ≤ deposit.collateral
  rate_unclamped : 0 ≤ pool.totalSupply ∨ minVal ≤ deposit.jTokens * pool.jTokenRateFloorBps
  closeLtvBps_nonneg : 0 ≤ pool.closeLtvBps
  closeLtvBps_lt : pool.closeLtvBps < bpsFactor
  jTokens_le : deposit.jTokens ≤ pool.totalJTokens
  rate_floored : pool.jTokenRateFloorBps * pool.totalJTokens ≤ bpsFactor * pool.totalSupply

section Exclusion

variable {deposit : DepositPosition} {pool : PoolData}

/-- Shares at the floored rate are at most the pool ratio rounded up. -/
theorem CoherentDeposit.rate_le_share (hc : CoherentDeposit deposit pool) {u : ℤ}
    (hu : pool.jTokensToTokensCeil deposit.jTokens = .ok u) :
    fixedMulFloor deposit.jTokens pool.jTokenRateFloorBps ≤ u := by
  have hj := hc.jTokens_nonneg
  have hle := hc.jTokens_le
  rcases eq_or_lt_of_le (hj.trans hle) with h0 | hpos
  · have hj0 : deposit.jTokens = 0 := le_antisymm (hle.trans_eq h0.symm) hj
    rw [PoolData.jTokensToTokensCeil, PoolData.shareCeil, if_pos h0.symm, pure_eq_ok] at hu
    rw [← hu, hj0]
    exact fixedMulFloor_nonpos (by simp)
  · obtain ⟨-, -, -, rfl⟩ := (PoolData.shareCeil_eq_ok_of_pos hpos).mp hu
    have hunclamped : 0 ≤ pool.totalSupply ∧ deposit.jTokens * pool.jTokenRateFloorBps ≤ 0 ∨
        minVal ≤ deposit.jTokens * pool.jTokenRateFloorBps := by
      rcases le_total (deposit.jTokens * pool.jTokenRateFloorBps) 0 with hneg | hnn
      · exact hc.rate_unclamped.imp_left fun hs => ⟨hs, hneg⟩
      · exact .inr (minVal_neg.le.trans hnn)
    rcases hunclamped with ⟨hs, hneg⟩ | hmin
    · have hp : 0 ≤ deposit.jTokens * pool.totalSupply := mul_nonneg hj hs
      exact (fixedMulFloor_nonpos hneg).trans
        (nonneg_of_mul_nonneg_left (hp.trans (le_ceil_tdiv_mul hp hpos)) hpos)
    · refine le_ceil_tdiv hpos (lt_of_mul_lt_mul_left ?_ bpsFactor_pos.le)
      calc bpsFactor * ((fixedMulFloor deposit.jTokens pool.jTokenRateFloorBps - 1) *
              pool.totalJTokens)
          = (fixedMulFloor deposit.jTokens pool.jTokenRateFloorBps - 1) * bpsFactor *
              pool.totalJTokens := by ring
        _ < deposit.jTokens * pool.jTokenRateFloorBps * pool.totalJTokens :=
            mul_lt_mul_of_pos_right (fixedMulFloor_sub_one_mul_lt hmin) hpos
        _ = deposit.jTokens * (pool.jTokenRateFloorBps * pool.totalJTokens) := by ring
        _ ≤ deposit.jTokens * (bpsFactor * pool.totalSupply) :=
            mul_le_mul_of_nonneg_left hc.rate_floored hj
        _ = bpsFactor * (deposit.jTokens * pool.totalSupply) := by ring

/-- **One deposit.** A deposit the cover values at most at the threshold counts for less than it at
the liquidate gate. -/
theorem scaledDepositValue_lt (hc : CoherentDeposit deposit pool) {x v t : ℤ} (ht : 0 < t)
    (hx : scaledDepositValue deposit pool = .ok x) (hv : coverDepositValue deposit pool = .ok v)
    (hle : v ≤ t) : x < t := by
  obtain ⟨u, hu, rfl⟩ := coverDepositValue_eq_ok hv
  simp only [scaledDepositValue, rateTokens, bind_eq_ok, mOu_eq_ok, checkedAdd_eq_some,
    pure_eq_ok] at hx
  obtain ⟨_, ⟨-, rfl⟩, w, hw, rfl⟩ := hx
  obtain ⟨-, -, rfl⟩ := valueFloor_eq_ok.mp hw
  have hrate := hc.rate_le_share hu
  have hvalue : ((fixedMulFloor deposit.jTokens pool.jTokenRateFloorBps + deposit.collateral) *
      pool.oracleAssetPrice).tdiv (pow10 pool.tokenDecimals) ≤
        ((u + deposit.collateral) * pool.oracleAssetPrice).tdiv (pow10 pool.tokenDecimals) :=
    Int.tdiv_le_tdiv (pow10_pos _)
      (mul_le_mul_of_nonneg_right (by omega) hc.price_nonneg)
  rcases le_or_gt (((fixedMulFloor deposit.jTokens pool.jTokenRateFloorBps + deposit.collateral) *
      pool.oracleAssetPrice).tdiv (pow10 pool.tokenDecimals)) 0 with hneg | hpos
  · exact (fixedMulFloor_nonpos (mul_nonpos_of_nonpos_of_nonneg hneg hc.closeLtvBps_nonneg)).trans_lt
      ht
  · exact (fixedMulFloor_lt hpos hc.closeLtvBps_nonneg hc.closeLtvBps_lt).trans_le
      (hvalue.trans hle)

/-- With at least two oracle decimals the cover's threshold is the gate's floor, and positive. -/
theorem threshold_eq_floor {cents t f : ℤ} {n : ℕ} (hn : 2 ≤ n) (hc : 0 < cents)
    (ht : centsToOracleValueCeil cents n = .ok t) (hf : dustFloorValue cents n = .ok f) :
    t = f ∧ 0 < t := by
  obtain ⟨-, -, rfl⟩ := centsToOracleValueCeil_eq_ok ht
  obtain ⟨-, -, rfl⟩ := dustFloorValue_eq_ok.mp hf
  obtain ⟨k, rfl⟩ := Nat.exists_eq_add_of_le hn
  have hp : 0 < cents * pow10 k := mul_pos hc (pow10_pos k)
  have h100 : cents * pow10 (2 + k) = cents * pow10 k * 100 := by
    rw [pow10_add, show pow10 2 = 100 from rfl]; ring
  rw [h100, Int.tdiv_eq_ediv_of_nonneg (by omega), Int.tdiv_eq_ediv_of_nonneg (by omega)]
  omega

variable {obligation : Obligation} {market : MarketData}

theorem scaledCollateralValue_lt {C t : ℤ} (ht : 0 < t)
    (hc : ∀ d ∈ obligation.deposits, ∀ pool, market.findPool d.poolAddress = some pool →
      CoherentDeposit d pool)
    (hdust : allDepositsDust market t obligation.deposits = .ok true)
    (hne : obligation.deposits ≠ []) (hC : scaledCollateralValue obligation market = .ok C) :
    C < obligation.deposits.length * t := by
  have hsum : C ≤ 0 + obligation.deposits.length * (t - 1) := by
    refine Fold.foldlM_le (fun d hd s s' hs => ?_) hC
    obtain ⟨pool, v, hpool, hv, hle⟩ := allDepositsDust_eq_true_iff.mp hdust d hd
    simp only [hpool, bind_eq_ok, mOu_eq_ok, checkedAdd_eq_some] at hs
    obtain ⟨x, hx, -, rfl⟩ := hs
    have := scaledDepositValue_lt (hc d hd pool hpool) ht hx hv hle
    omega
  have hlen : (0 : ℤ) < obligation.deposits.length := by
    exact_mod_cast List.length_pos_iff.mpr hne
  linarith

end Exclusion

end AlulaKeeper
