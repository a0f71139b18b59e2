import Mathlib
import AlulaKeeper.Lib.Fold
import AlulaKeeper.Lending.SafeWithdrawal
import AlulaKeeper.Lending.Health

/-!
# Insolvency and the liquidate gate

`compute_is_insolvent` compares unscaled sums by a ratio rounded up, `compute_is_liquidatable` sums scaled
position by position with a floor deducted for every deposit. Under a market whose close LTVs lie under its
insolvency LTV the first verdict implies the second.

* `insolvent_cases`: what an insolvent verdict says about the two sums.
* `debt_le_scaledDebt`, `scaledCollateral_le`: the scaled sums against the unscaled ones.
* `insolvent_is_liquidatable`: no insolvent obligation is judged healthy on a no-dust market.
-/

namespace AlulaKeeper

open I128

section Verdicts

variable {obligation : Obligation} {market : MarketData} {D C : ℤ}

/-- **Insolvency.** The debt is positive and over the largest LTV that is solvent. -/
theorem insolvent_cases (h : computeIsInsolvent obligation market = .ok true) :
    ∃ D C, computeObligationDebtValue obligation market = .ok D ∧
      computeObligationCollateralValue obligation market = .ok C ∧ 0 < D ∧ 0 ≤ C ∧
        (market.insolvencyLtvBps - 1) * C < D * bpsFactor := by
  obtain ⟨D, hD, h⟩ := bind_eq_ok.mp h
  split_ifs at h with hneg hzero
  · simp at h
  · simp at h
  have hDpos : 0 < D := by omega
  obtain ⟨C, hC, h⟩ := bind_eq_ok.mp h
  split_ifs at h with hCneg hCzero
  · simp at h
  · refine ⟨D, C, hD, hC, hDpos, hCzero.ge, ?_⟩
    rw [hCzero, mul_zero]
    exact mul_pos hDpos bpsFactor_pos
  · have hCpos : 0 < C := by omega
    obtain ⟨ltv, hltv, h⟩ := bind_eq_ok.mp h
    have hover : market.insolvencyLtvBps ≤ ltv := by simpa using h
    refine ⟨D, C, hD, hC, hDpos, hCpos.le, ?_⟩
    have hiff := bpsFixedDivCeil_le_iff hDpos.le hCpos hltv (market.insolvencyLtvBps - 1)
    exact not_le.mp fun hle => absurd (hiff.mpr hle) (by omega)

/-- **The no-dust gate.** Past the collateral check and the debt check, the verdict is the comparison. -/
theorem computeIsLiquidatable_noDust_cases {l : Bool}
    (hl : computeIsLiquidatable obligation market .noDust = .ok l)
    (hany : hasAnyCollateral obligation market = true) :
    ∃ D, scaledDebtValue obligation market = .ok D ∧ (D = 0 ∨ ∃ C F,
      scaledCollateralValue obligation market = .ok C ∧
        dustFloorValue market.minCollateralValueCents market.oraclePriceDecimals = .ok F ∧
          l = decide (C - F * obligation.deposits.length < D)) := by
  simp only [computeIsLiquidatable, hany, Bool.not_true, Bool.false_eq_true, if_false] at hl
  obtain ⟨D, hD, hl⟩ := bind_eq_ok.mp hl
  refine ⟨D, hD, ?_⟩
  split_ifs at hl with hzero
  · exact .inl hzero
  simp only [false_and, if_false, bind_eq_ok, mOu_eq_ok, checkedMul_eq_some, checkedSub_eq_some,
    pure_eq_ok] at hl
  obtain ⟨C, hC, F, hF, _, ⟨-, rfl⟩, _, ⟨-, rfl⟩, hl⟩ := hl
  exact .inr ⟨C, F, hC, hF, hl.symm⟩

/-! ## The scaled sums -/

theorem le_fixedMulCeil {v bps : ℤ} (hv : 0 ≤ v) (hbps : bpsFactor ≤ bps) (hfits : Fits (v * bps)) :
    v ≤ fixedMulCeil v bps := by
  have hscaled : v * bpsFactor ≤ v * bps := mul_le_mul_of_nonneg_left hbps hv
  have hnonneg : 0 ≤ v * bps := (mul_nonneg hv bpsFactor_pos.le).trans hscaled
  have hsum : v * bps ≤ clamp (v * bps + (bpsFactor - 1)) := by
    calc v * bps = clamp (v * bps) := (clamp_of_fits hfits).symm
      _ ≤ clamp (v * bps + (bpsFactor - 1)) := clamp_mono (by unfold bpsFactor; omega)
  rw [fixedMulCeil_eq, clamp_of_fits hfits, le_tdiv_iff (hnonneg.trans hsum) bpsFactor_pos]
  exact hscaled.trans hsum

/-- The market an insolvency verdict is compared on: prices and positions, in tokens at the reported rates,
are not negative; debt is weighed at least at par, and a deposit's close LTV lies under the insolvency LTV. -/
structure SoundMarket (obligation : Obligation) (market : MarketData) : Prop where
  borrow : ∀ b ∈ obligation.borrows, ∀ pool, market.findPool b.poolAddress = some pool →
    0 ≤ pool.oracleAssetPrice ∧ 0 ≤ rateDebt b pool ∧ bpsFactor ≤ pool.liabilityFactorBps
  deposit : ∀ d ∈ obligation.deposits, ∀ pool, market.findPool d.poolAddress = some pool →
    0 ≤ pool.oracleAssetPrice ∧ (∀ tokens, rateTokens d pool = .ok tokens → 0 ≤ tokens) ∧
      0 ≤ pool.closeLtvBps ∧ pool.closeLtvBps < market.insolvencyLtvBps
  minCollateral : 0 ≤ market.minCollateralValueCents

/-- No liability product saturates. -/
def LiabilityFits (obligation : Obligation) (market : MarketData) : Prop :=
  ∀ b ∈ obligation.borrows, ∀ pool, market.findPool b.poolAddress = some pool →
    ∀ v, valueCeil (rateDebt b pool) pool = .ok v → Fits (v * pool.liabilityFactorBps)

theorem debt_le_scaledDebt {S : ℤ} (hmarket : SoundMarket obligation market)
    (hfits : LiabilityFits obligation market) (hD : computeObligationDebtValue obligation market = .ok D)
    (hS : scaledDebtValue obligation market = .ok S) : D ≤ S := by
  refine Fold.foldlM_rel (fun b hb t t' u u' hle ht hu => ?_) le_rfl hD hS
  obtain ⟨pool, hpool, ht⟩ := bind_eq_ok.mp ht
  rw [orErr_eq_ok] at hpool
  simp only [hpool, scaledBorrowValue, bind_eq_ok, mOu_eq_ok, checkedAdd_eq_some, pure_eq_ok] at ht hu
  obtain ⟨v, hv, -, rfl⟩ := ht
  obtain ⟨_, ⟨v', hv', rfl⟩, -, rfl⟩ := hu
  obtain rfl := ok_unique hv hv'
  obtain ⟨hprice, hdebt, hfactor⟩ := hmarket.borrow b hb pool hpool
  have hnonneg : 0 ≤ v := by
    obtain ⟨-, -, -, rfl⟩ := valueCeil_eq_ok.mp hv
    have hfactor := pow10_pos pool.tokenDecimals
    exact Int.tdiv_nonneg (add_nonneg (mul_nonneg hdebt hprice) (by omega)) hfactor.le
  exact add_le_add hle (le_fixedMulCeil hnonneg hfactor (hfits b hb pool hpool v hv))

theorem scaledCollateral_le {S : ℤ} (hmarket : SoundMarket obligation market)
    (hC : computeObligationCollateralValue obligation market = .ok C)
    (hS : scaledCollateralValue obligation market = .ok S) :
    S * bpsFactor ≤ (market.insolvencyLtvBps - 1) * C := by
  refine Fold.foldlM_rel (R := fun t u => u * bpsFactor ≤ (market.insolvencyLtvBps - 1) * t)
    (fun d hd t t' u u' hle ht hu => ?_) (by rw [zero_mul, mul_zero]) hC hS
  obtain ⟨pool, hpool, ht⟩ := bind_eq_ok.mp ht
  rw [orErr_eq_ok] at hpool
  simp only [hpool, scaledDepositValue, bind_eq_ok, mOu_eq_ok, checkedAdd_eq_some, pure_eq_ok] at ht hu
  obtain ⟨tokens, htokens, v, hv, -, rfl⟩ := ht
  obtain ⟨_, ⟨tokens', htokens', v', hv', rfl⟩, -, rfl⟩ := hu
  obtain rfl := ok_unique htokens htokens'
  obtain rfl := ok_unique hv hv'
  obtain ⟨hprice, hheld, hltv, hunder⟩ := hmarket.deposit d hd pool hpool
  have hnonneg : 0 ≤ v := by
    obtain ⟨-, -, rfl⟩ := valueFloor_eq_ok.mp hv
    exact Int.tdiv_nonneg (mul_nonneg (hheld tokens htokens) hprice) (pow10_pos _).le
  have hscaled := fixedMulFloor_mul_le (mul_nonneg hnonneg hltv)
  have hltvLe : v * pool.closeLtvBps ≤ v * (market.insolvencyLtvBps - 1) :=
    mul_le_mul_of_nonneg_left (by omega) hnonneg
  linarith

/-- **Insolvent obligations are never judged healthy.** On a no-dust market, an obligation with collateral
that is insolvent is liquidatable whenever that verdict returns. -/
theorem insolvent_is_liquidatable {l : Bool} (hmarket : SoundMarket obligation market)
    (hfits : LiabilityFits obligation market) (hany : hasAnyCollateral obligation market = true)
    (hinsolvent : computeIsInsolvent obligation market = .ok true)
    (hl : computeIsLiquidatable obligation market .noDust = .ok l) : l = true := by
  obtain ⟨D, C, hD, hC, hDpos, hCnonneg, hover⟩ := insolvent_cases hinsolvent
  obtain ⟨D', hD', hgate⟩ := computeIsLiquidatable_noDust_cases hl hany
  have hdebt := debt_le_scaledDebt hmarket hfits hD hD'
  obtain ⟨C', F, hC', hF, rfl⟩ := hgate.resolve_left (by omega)
  have hcollateral := scaledCollateral_le hmarket hC hC'
  have hcompare : C' < D' := by
    refine lt_of_mul_lt_mul_right ?_ bpsFactor_pos.le
    calc C' * bpsFactor ≤ (market.insolvencyLtvBps - 1) * C := hcollateral
      _ < D * bpsFactor := hover
      _ ≤ D' * bpsFactor := mul_le_mul_of_nonneg_right hdebt bpsFactor_pos.le
  have hdeducted : 0 ≤ F * obligation.deposits.length := by
    obtain ⟨-, -, rfl⟩ := dustFloorValue_eq_ok.mp hF
    have hcents := mul_nonneg hmarket.minCollateral (pow10_pos market.oraclePriceDecimals).le
    exact mul_nonneg (Int.tdiv_nonneg hcents (by norm_num)) (Int.natCast_nonneg _)
  exact decide_eq_true (by linarith)

/-- $1,200 of debt against $1,000 of gold. -/
theorem insolvent_is_liquidatable_underwater :
    computeIsInsolvent (dustBorrower 12000000000 10000000000) (dustMarket usd) = .ok true ∧
      ∃ l, computeIsLiquidatable (dustBorrower 12000000000 10000000000) (dustMarket usd) .noDust = .ok l ∧
        l = true := by
  refine ⟨by decide, _, rfl, ?_⟩
  have hUsdc : (dustMarket usd).findPool "USDC" = some (dustPool "USDC" usd) := by decide
  have hGold : (dustMarket usd).findPool "GOLD" = some (dustPool "GOLD" usd) := by decide
  refine @insolvent_is_liquidatable (dustBorrower 12000000000 10000000000) (dustMarket usd) _
    ⟨fun b hb pool hpool => ?_, fun d hd pool hpool => ?_, by decide⟩
    (fun b hb pool hpool v hv => ?_) (by decide) (by decide) rfl
  · obtain rfl := List.mem_singleton.mp hb
    obtain rfl := Option.some.inj (hUsdc.symm.trans hpool)
    decide
  · obtain rfl := List.mem_singleton.mp hd
    obtain rfl := Option.some.inj (hGold.symm.trans hpool)
    refine ⟨by decide, fun tokens htokens => ?_, by decide, by decide⟩
    have heq : (10000000000 : ℤ) = tokens := ok_unique (by decide) htokens
    omega
  · obtain rfl := List.mem_singleton.mp hb
    obtain rfl := Option.some.inj (hUsdc.symm.trans hpool)
    have heq : (120000000000000000 : ℤ) = v := ok_unique (by decide) hv
    rw [← heq]
    decide

end Verdicts

end AlulaKeeper
