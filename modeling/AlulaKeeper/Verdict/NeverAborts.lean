import Mathlib
import AlulaKeeper.Lib.Fold
import AlulaKeeper.Lending.Cover
import AlulaKeeper.Sizing.Aborts

/-!
# The liquidation model never aborts

Checked operations end in an error and saturating ones in a bound; what is unchecked is safe by a check made
before it, often in another function: a power of ten in the repay cap by the pair's own valuation, a
subtraction by the quote's guard, a division by an empty pool's early answer.

* `PoolData.Ranged`: what the totals, the price and the incentive of a pool are.
* `LiquidationPair.sized_of_new`: a pair built on such pools is sized, whatever is asked of it.
* `LiquidationPair.directRepay_noAbort`: the Direct repay, by the decimals the pair has valued.
* `lending_model_never_aborts`: every verdict, quote and fitted repay returns or fails.
-/

namespace AlulaKeeper

open I128

/-- Totals and incentive are not negative, and the numbers an unchecked operation reads are `i128`s. -/
structure PoolData.Ranged (pool : PoolData) : Prop where
  price_fits : Fits pool.oracleAssetPrice
  jTokens : 0 ≤ pool.totalJTokens
  dTokens : 0 ≤ pool.totalDTokens
  dTokens_fits : Fits pool.totalDTokens
  borrowed : 0 ≤ pool.totalBorrowed
  incentive : 0 ≤ pool.maxLiquidationIncentiveBps

/-- Every pool is in range. -/
def MarketData.Ranged (market : MarketData) : Prop := ∀ pool ∈ market.poolsData, pool.Ranged

theorem MarketData.Ranged.find {market : MarketData} {address : Address} {pool : PoolData}
    (h : market.Ranged) (hpool : market.findPool address = some pool) : pool.Ranged :=
  h pool (List.mem_of_find?_eq_some hpool)

/-! ## Conversions -/

section Conversions

variable {pool : PoolData} {x : ℤ}

theorem noAbort_shareFloor {a n d e : ℤ} (hd : 0 ≤ d) : NoAbort (PoolData.shareFloor a n d e) := by
  refine NoAbort.ite (fun _ => noAbort_pure _) fun hne => (noAbort_mOu _).bind fun product hproduct => ?_
  obtain ⟨hfits, rfl⟩ := checkedMul_eq_some.mp (mOu_eq_ok.mp hproduct)
  exact Returns.noAbort ⟨_, rawDiv_of_pos hfits (by omega)⟩

theorem noAbort_shareCeil {a n d e : ℤ} (hd : 0 ≤ d) (hfits : Fits d) :
    NoAbort (PoolData.shareCeil a n d e) := by
  refine NoAbort.ite (fun _ => noAbort_pure _) fun hne => (noAbort_mOu _).bind fun product _ => ?_
  refine (noAbort_raw (hfits.of_nonneg_of_le (by omega) (by omega))).bind fun _ _ =>
    (noAbort_mOu _).bind fun sum hsum => ?_
  obtain ⟨hsumFits, rfl⟩ := checkedAdd_eq_some.mp (mOu_eq_ok.mp hsum)
  exact Returns.noAbort ⟨_, rawDiv_of_pos hsumFits (by omega)⟩

theorem PoolData.Ranged.noAbort_jTokensToTokensFloor (h : pool.Ranged) :
    NoAbort (pool.jTokensToTokensFloor x) := noAbort_shareFloor h.jTokens

theorem PoolData.Ranged.noAbort_dTokensToTokensCeil (h : pool.Ranged) :
    NoAbort (pool.dTokensToTokensCeil x) := noAbort_shareCeil h.dTokens h.dTokens_fits

theorem PoolData.Ranged.noAbort_tokensToDTokensFloor (h : pool.Ranged) :
    NoAbort (pool.tokensToDTokensFloor x) := noAbort_shareFloor h.borrowed

theorem PoolData.Ranged.dTokensToTokensCeil_fits {r : ℤ} (h : pool.Ranged)
    (hr : pool.dTokensToTokensCeil x = .ok r) : Fits r := by
  rcases h.dTokens.eq_or_lt with hzero | hpos
  · rw [PoolData.dTokensToTokensCeil, PoolData.shareCeil, if_pos hzero.symm, pure_eq_ok] at hr
    rw [← hr]
    exact fits_zero
  · obtain ⟨-, -, hfits, rfl⟩ := (PoolData.shareCeil_eq_ok_of_pos hpos).mp hr
    exact hfits.tdiv hpos

end Conversions

/-! ## The verdicts -/

section Verdicts

variable {obligation : Obligation} {market : MarketData}

theorem noAbort_fail {α : Type} (e : LMError) : NoAbort (fail e : Res α) := nofun

theorem noAbort_rateTokens {deposit : DepositPosition} {pool : PoolData} :
    NoAbort (rateTokens deposit pool) := noAbort_mOu _

theorem computeIsLiquidatable_noAbort (rules : DustRules) :
    NoAbort (computeIsLiquidatable obligation market rules) := by
  have hdebt : NoAbort (scaledDebtValue obligation market) := by
    refine Fold.foldlM_noAbort fun b _ t => ?_
    cases market.findPool b.poolAddress with
    | none => exact noAbort_pure _
    | some pool =>
      exact (noAbort_valueCeil.bind fun _ _ => noAbort_pure _).bind fun _ _ => noAbort_mOu _
  have hcollateral : NoAbort (scaledCollateralValue obligation market) := by
    refine Fold.foldlM_noAbort fun d _ t => ?_
    cases market.findPool d.poolAddress with
    | none => exact noAbort_pure _
    | some pool =>
      exact (noAbort_rateTokens.bind fun _ _ => noAbort_valueFloor.bind fun _ _ => noAbort_pure _).bind
        fun _ _ => noAbort_mOu _
  refine NoAbort.ite (fun _ => noAbort_pure _) fun _ => hdebt.bind fun _ _ => ?_
  refine NoAbort.ite (fun _ => noAbort_pure _) fun _ => hcollateral.bind fun _ _ =>
    noAbort_dustFloorValue.bind fun _ _ => (noAbort_mOu _).bind fun _ _ => ?_
  exact NoAbort.ite (fun _ => noAbort_pure _) fun _ => (noAbort_mOu _).bind fun _ _ => noAbort_pure _

theorem noAbort_computeObligationDebtValue : NoAbort (computeObligationDebtValue obligation market) :=
  Fold.foldlM_noAbort fun _ _ _ => (noAbort_orErr _ _).bind fun _ _ => noAbort_valueCeil.bind fun _ _ =>
    noAbort_mOu _

theorem noAbort_computeObligationCollateralValue :
    NoAbort (computeObligationCollateralValue obligation market) :=
  Fold.foldlM_noAbort fun _ _ _ => (noAbort_orErr _ _).bind fun _ _ => noAbort_rateTokens.bind fun _ _ =>
    noAbort_valueFloor.bind fun _ _ => noAbort_mOu _

theorem computeObligationCollateralValue_fits {C : ℤ}
    (h : computeObligationCollateralValue obligation market = .ok C) : Fits C := by
  refine Fold.foldlM_invariant (I := Fits) (fun d _ t t' _ ht => ?_) fits_zero h
  simp only [bind_eq_ok, mOu_eq_ok, checkedAdd_eq_some] at ht
  obtain ⟨pool, -, tokens, -, v, -, hfits, rfl⟩ := ht
  exact hfits

theorem computeIsInsolvent_noAbort : NoAbort (computeIsInsolvent obligation market) := by
  refine noAbort_computeObligationDebtValue.bind fun D _ => ?_
  refine NoAbort.ite (fun _ => noAbort_fail _) fun _ => NoAbort.ite (fun _ => noAbort_pure _) fun _ => ?_
  refine noAbort_computeObligationCollateralValue.bind fun C hC => ?_
  refine NoAbort.ite (fun _ => noAbort_fail _) fun hneg => NoAbort.ite (fun _ => noAbort_pure _) fun hzero => ?_
  have hpos : 0 < C := by omega
  rw [bpsFixedDivCeil_eq_shareCeil hpos]
  exact (noAbort_shareCeil hpos.le (computeObligationCollateralValue_fits hC)).bind fun _ _ => noAbort_pure _

theorem pricedDebtValue_go_noAbort (h : market.Ranged) (borrows : List BorrowPosition) (t : ℤ) :
    NoAbort (pricedDebtValue.go market borrows t) := by
  induction borrows generalizing t with
  | nil => exact noAbort_pure _
  | cons b borrows ih =>
    unfold pricedDebtValue.go
    cases hpool : market.findPool b.poolAddress with
    | none => exact noAbort_pure _
    | some pool =>
      have hvalue : NoAbort (do valueCeil (← pool.dTokensToTokensCeil b.dTokens) pool) :=
        (h.find hpool).noAbort_dTokensToTokensCeil.bind fun _ _ => noAbort_valueCeil
      refine hvalue.toOption.noAbort.bind fun value _ => ?_
      cases value with
      | none => exact noAbort_pure _
      | some v =>
        dsimp only
        cases checkedAdd t v with
        | none => exact noAbort_pure _
        | some sum => exact ih sum

theorem seizableCollateralCoversDebt_noAbort (h : market.Ranged) :
    NoAbort (seizableCollateralCoversDebt obligation market) := by
  refine (pricedDebtValue_go_noAbort h _ _).bind fun debt _ => ?_
  cases debt with
  | none => exact noAbort_pure _
  | some D =>
    refine NoAbort.bind (Fold.foldlM_noAbort fun d _ t => ?_) fun _ _ => noAbort_pure _
    refine (noAbort_orErr _ _).bind fun pool hpool => NoAbort.ite (fun _ => noAbort_pure _) fun _ => ?_
    exact (h.find (orErr_eq_ok.mp hpool)).noAbort_jTokensToTokensFloor.bind fun _ _ =>
      (noAbort_mOu _).bind fun _ _ => noAbort_valueFloor.bind fun _ _ => noAbort_mOu _

end Verdicts

/-! ## Margins and repay caps -/

section Caps

variable {pool borrowPool collateralPool : PoolData}

theorem noAbort_computeProfitMarginInBorrowToken {cents : ℤ} {n : ℕ} (hfits : Fits pool.oracleAssetPrice) :
    NoAbort (computeProfitMarginInBorrowToken cents n pool) := by
  refine NoAbort.ite (fun _ => noAbort_fail _) fun hprice => NoAbort.ite (fun _ => noAbort_pure _) fun _ => ?_
  have hvalue : ∀ m, NoAbort (centsToOracleValueCeil m n) := fun m =>
    NoAbort.ite (fun _ => noAbort_fail _) fun _ => (noAbort_mOu _).bind fun _ _ =>
      (noAbort_mOu _).bind fun _ _ => (noAbort_mOu _).bind fun _ _ => noAbort_mOu _
  have hamount : ∀ v,
      NoAbort (valueToUnderlyingAssetAmountCeil v pool.oracleAssetPrice pool.tokenDecimals) := by
    intro v
    refine NoAbort.ite (fun _ => noAbort_fail _) fun _ => NoAbort.ite (fun _ => noAbort_fail _) fun _ => ?_
    exact (noAbort_mOu _).bind fun _ _ => (noAbort_mOu _).bind fun _ _ =>
      (noAbort_raw (hfits.of_nonneg_of_le (by omega) (by omega))).bind fun _ _ =>
      (noAbort_mOu _).bind fun _ _ => noAbort_mOu _
  refine (noAbort_mOu _).bind fun _ _ => (hvalue _).bind fun _ _ => (hamount _).bind fun _ _ => ?_
  exact NoAbort.ite (fun _ => noAbort_mOu _) fun _ => noAbort_pure _

theorem noAbort_computeRepayCapFromCollateral {isSolvent : Bool} {maxFeasible available debtValue margin
    collateralValue : ℤ} (hborrow : Fits (pow10 borrowPool.tokenDecimals))
    (hcollateral : Fits (pow10 collateralPool.tokenDecimals)) :
    NoAbort (computeRepayCapFromCollateral isSolvent borrowPool maxFeasible collateralPool available debtValue
      margin collateralValue) := by
  have hincentive : NoAbort (effectiveIncentiveBps isSolvent borrowPool collateralPool debtValue
      collateralValue) :=
    NoAbort.ite (fun _ => (noAbort_mOu _).bind fun _ _ => (noAbort_mOu _).bind fun _ _ => noAbort_pure _)
      fun _ => noAbort_pure _
  refine NoAbort.ite (fun _ => noAbort_fail _) fun _ => NoAbort.ite (fun _ => noAbort_fail _) fun _ =>
    hincentive.bind fun _ _ => (noAbort_mOu _).bind fun _ _ => NoAbort.ite (fun _ => noAbort_fail _) fun _ => ?_
  exact (noAbort_raw hborrow).bind fun _ _ => (noAbort_raw hcollateral).bind fun _ _ =>
    (noAbort_mOu _).bind fun _ _ => (noAbort_mOu _).bind fun _ _ => (noAbort_mOu _).bind fun _ _ =>
    (noAbort_mOu _).bind fun _ _ => (noAbort_mOu _).bind fun _ _ => (noAbort_mOu _).bind fun _ _ =>
    noAbort_pure _

end Caps

/-! ## Pairs -/

namespace LiquidationPair

variable {obligation : Obligation} {market : MarketData} {borrowPool collateralPool : PoolData}
  {deposit : DepositPosition} {rules : DustRules} {isInsolvent : Bool} {pair : LiquidationPair}

theorem noAbort_new (hborrow : borrowPool.Ranged) :
    NoAbort (LiquidationPair.new rules obligation market borrowPool collateralPool deposit isInsolvent) :=
  (noAbort_orErr _ _).bind fun _ _ => hborrow.noAbort_dTokensToTokensCeil.bind fun _ _ =>
    noAbort_computeObligationDebtValue.bind fun _ _ => noAbort_computeObligationCollateralValue.bind
      fun _ _ => noAbort_pure _

theorem sized_of_new (hborrow : borrowPool.Ranged) (hcollateral : collateralPool.Ranged)
    (h : LiquidationPair.new rules obligation market borrowPool collateralPool deposit isInsolvent =
      .ok pair) : pair.Sized := by
  obtain ⟨borrow, debt, _, _, -, hdebt, -, -, rfl⟩ := newPair_eq_ok_iff.mp h
  exact ⟨hborrow.price_fits, add_pos_of_pos_of_nonneg bpsFactor_pos (le_min hborrow.incentive
    hcollateral.incentive), (hborrow.dTokensToTokensCeil_fits hdebt).2,
    hcollateral.noAbort_jTokensToTokensFloor⟩

/-- A pair has valued its obligation, and so its own pools' decimals convert. -/
theorem decimals_of_new {borrow : BorrowPosition} (hb : borrow ∈ obligation.borrows)
    (hd : deposit ∈ obligation.deposits) (hborrow : market.findPool borrow.poolAddress = some borrowPool)
    (hcollateral : market.findPool deposit.poolAddress = some collateralPool)
    (h : LiquidationPair.new rules obligation market borrowPool collateralPool deposit isInsolvent =
      .ok pair) :
    Fits (pow10 borrowPool.tokenDecimals) ∧ Fits (pow10 collateralPool.tokenDecimals) := by
  obtain ⟨_, _, _, _, -, -, hdebtValue, hcollateralValue, -⟩ := newPair_eq_ok_iff.mp h
  obtain ⟨_, _, hdebt⟩ := Fold.foldlM_step hb hdebtValue
  obtain ⟨_, _, hcoll⟩ := Fold.foldlM_step hd hcollateralValue
  simp only [hborrow, bind_eq_ok, orErr_eq_ok, Option.some.injEq, exists_eq_left'] at hdebt
  simp only [hcollateral, bind_eq_ok, orErr_eq_ok, Option.some.injEq, exists_eq_left'] at hcoll
  obtain ⟨_, hvalue, -⟩ := hdebt
  obtain ⟨_, -, _, hvalue', -⟩ := hcoll
  exact ⟨(valueCeil_eq_ok.mp hvalue).1, (valueFloor_eq_ok.mp hvalue').1⟩

theorem Sized.accruingUntil (h : pair.Sized) (now : ℕ) : (pair.accruingUntil now).Sized :=
  ⟨h.borrow_fits, h.factor_pos, h.debt_le, h.supplied⟩

theorem Sized.withMargin (h : pair.Sized) (margin : ClearingMargin) : (pair.withMargin margin).Sized :=
  ⟨h.borrow_fits, h.factor_pos, h.debt_le, h.supplied⟩

theorem directRepay_noAbort (h : pair.Sized) (hborrow : Fits (pow10 pair.borrowPool.tokenDecimals))
    (hcollateral : Fits (pow10 pair.collateralPool.tokenDecimals)) (cents : ℤ) :
    NoAbort (pair.directRepay cents) := by
  refine h.noAbort_liftsCloseFactor.bind fun lifted _ => h.noAbort_positionCollateral.bind fun pc _ => ?_
  refine NoAbort.ite (fun _ => noAbort_pure _) fun _ => ?_
  refine (noAbort_computeProfitMarginInBorrowToken h.borrow_fits).toOption.noAbort.bind fun margin _ => ?_
  refine (noAbort_computeRepayCapFromCollateral hborrow hcollateral).toOption.noAbort.bind fun cap hcap => ?_
  cases hfilter : cap.filter (· > 0) with
  | none => exact noAbort_pure _
  | some repay =>
    obtain rfl : cap = some repay := (Option.filter_eq_some_iff.mp hfilter).1
    exact fitRepay_noAbort h (repayCap_spec (toOption_eq_some.mp hcap)).2.1

/-- No offer, fitted repay or Direct repay of the pair aborts. -/
structure NeverAborts (pair : LiquidationPair) : Prop where
  quote : ∀ repay, NoAbort (pair.quote repay)
  fitRepay : ∀ repay maxOffer, Fits repay → NoAbort (pair.fitRepay repay maxOffer)
  directRepay : ∀ minProfitMarginCents, NoAbort (pair.directRepay minProfitMarginCents)

theorem Sized.neverAborts (h : pair.Sized) (hborrow : Fits (pow10 pair.borrowPool.tokenDecimals))
    (hcollateral : Fits (pow10 pair.collateralPool.tokenDecimals)) : pair.NeverAborts :=
  ⟨quote_noAbort h, fun _ _ hrepay => fitRepay_noAbort h hrepay.2, directRepay_noAbort h hborrow hcollateral⟩

/-- Whatever interest and margin it is sized for, a new pair never aborts. -/
theorem neverAborts_of_new {borrow : BorrowPosition} (hmarket : market.Ranged)
    (hb : borrow ∈ obligation.borrows) (hd : deposit ∈ obligation.deposits)
    (hborrow : market.findPool borrow.poolAddress = some borrowPool)
    (hcollateral : market.findPool deposit.poolAddress = some collateralPool)
    (h : LiquidationPair.new rules obligation market borrowPool collateralPool deposit isInsolvent =
      .ok pair) (now : ℕ) (margin : ClearingMargin) :
    pair.NeverAborts ∧ (pair.accruingUntil now).NeverAborts ∧
      ((pair.accruingUntil now).withMargin margin).NeverAborts := by
  have hsized := sized_of_new (hmarket.find hborrow) (hmarket.find hcollateral) h
  have hdecimals := decimals_of_new hb hd hborrow hcollateral h
  obtain ⟨_, _, _, _, -, -, -, -, rfl⟩ := newPair_eq_ok_iff.mp h
  exact ⟨hsized.neverAborts hdecimals.1 hdecimals.2,
    (hsized.accruingUntil now).neverAborts hdecimals.1 hdecimals.2,
    ((hsized.accruingUntil now).withMargin margin).neverAborts hdecimals.1 hdecimals.2⟩

end LiquidationPair

/-! ## The acceptance search -/

section Acceptable

variable {obligation : Obligation} {market : MarketData} {borrowPool : PoolData} {borrow : BorrowPosition}
  {deposit : DepositPosition} {isInsolvent : Bool} {now : ℕ} {cents : ℤ}

theorem anyM_noAbort {α : Type} {test : α → Res Bool} {l : List α} (h : ∀ x ∈ l, NoAbort (test x)) :
    NoAbort (anyM test l) := by
  induction l with
  | nil => exact noAbort_pure _
  | cons x l ih =>
    obtain ⟨hx, hl⟩ := List.forall_mem_cons.mp h
    exact hx.bind fun found _ => NoAbort.ite (fun _ => noAbort_pure _) fun _ => ih hl

theorem pairIsAcceptable_noAbort (hmarket : market.Ranged) (hb : borrow ∈ obligation.borrows)
    (hd : deposit ∈ obligation.deposits) (hborrow : market.findPool borrow.poolAddress = some borrowPool) :
    NoAbort (pairIsAcceptable obligation market cents now isInsolvent borrowPool deposit) := by
  have hranged := hmarket.find hborrow
  refine (noAbort_orErr _ _).bind fun collateralPool hcollateral =>
    NoAbort.ite (fun _ => noAbort_pure _) fun _ => (LiquidationPair.noAbort_new hranged).bind
      fun pair hpair => ?_
  have hpair := (LiquidationPair.neverAborts_of_new hmarket hb hd hborrow (orErr_eq_ok.mp hcollateral) hpair
    now .initial).2.1
  refine (hpair.directRepay cents).bind fun repay _ => ?_
  cases repay with
  | none => exact noAbort_pure _
  | some repay =>
    refine (hpair.quote repay).bind fun seizure _ => ?_
    cases seizure with
    | accepted seized repaid =>
      refine NoAbort.ite (fun _ => noAbort_pure _) fun _ => NoAbort.ite (fun _ => noAbort_pure _) fun _ => ?_
      exact hranged.noAbort_tokensToDTokensFloor.bind fun _ _ =>
        NoAbort.ite (fun _ => noAbort_pure _) fun _ => noAbort_pure _
    | overCloseFactor => exact noAbort_pure _
    | leavesDust => exact noAbort_pure _

theorem hasAcceptableLiquidation_noAbort (hmarket : market.Ranged) :
    NoAbort (hasAcceptableLiquidation obligation market cents now) := by
  refine NoAbort.ite (fun _ => noAbort_pure _) fun _ => computeIsInsolvent_noAbort.bind fun _ _ =>
    anyM_noAbort fun borrow hb => (noAbort_orErr _ _).bind fun borrowPool hborrow =>
      anyM_noAbort fun deposit hd => ?_
  exact pairIsAcceptable_noAbort hmarket hb hd (orErr_eq_ok.mp hborrow)

end Acceptable

/-- **The liquidation model errors but never aborts.** For every obligation and every snapshot in range, no
verdict aborts, and neither does any pair built for a borrow and a deposit of the obligation with the first
pools of their addresses. -/
theorem lending_model_never_aborts {market : MarketData} (hmarket : market.Ranged) (obligation : Obligation) :
    (∀ rules, NoAbort (computeIsLiquidatable obligation market rules)) ∧
    NoAbort (computeIsInsolvent obligation market) ∧
    NoAbort (seizableCollateralCoversDebt obligation market) ∧
    (∀ minProfitMarginCents now,
      NoAbort (hasAcceptableLiquidation obligation market minProfitMarginCents now)) ∧
    ∀ borrow ∈ obligation.borrows, ∀ deposit ∈ obligation.deposits, ∀ borrowPool collateralPool,
      market.findPool borrow.poolAddress = some borrowPool →
      market.findPool deposit.poolAddress = some collateralPool → ∀ rules isInsolvent,
      NoAbort (LiquidationPair.new rules obligation market borrowPool collateralPool deposit isInsolvent) ∧
      ∀ pair, LiquidationPair.new rules obligation market borrowPool collateralPool deposit isInsolvent =
        .ok pair → ∀ now margin, pair.NeverAborts ∧ (pair.accruingUntil now).NeverAborts ∧
          ((pair.accruingUntil now).withMargin margin).NeverAborts := by
  refine ⟨computeIsLiquidatable_noAbort, computeIsInsolvent_noAbort,
    seizableCollateralCoversDebt_noAbort hmarket, fun _ _ => hasAcceptableLiquidation_noAbort hmarket, ?_⟩
  intro borrow hb deposit hd borrowPool collateralPool hborrow hcollateral rules isInsolvent
  exact ⟨LiquidationPair.noAbort_new (hmarket.find hborrow), fun pair hpair now margin =>
    LiquidationPair.neverAborts_of_new hmarket hb hd hborrow hcollateral hpair now margin⟩

/-- The market of the dust tests, an obligation at both ends of `i128`, and a pair a day after its update. -/
theorem lending_model_never_aborts_dust :
    (dustMarket usd).Ranged ∧
      NoAbort (hasAcceptableLiquidation (dustBorrower maxVal minVal) (dustMarket usd) minVal 86400) ∧
      ((dustPair 200000000 40000000).accruingUntil 86400).NeverAborts := by
  have hpool : ∀ address, (dustPool address usd).Ranged := by
    intro address
    constructor <;> norm_num [dustPool, usd, Fits, minVal, maxVal]
  have hmarket : (dustMarket usd).Ranged :=
    List.forall_mem_cons.mpr ⟨hpool _, List.forall_mem_singleton.mpr (hpool _)⟩
  refine ⟨hmarket, (lending_model_never_aborts hmarket _).2.2.2.1 minVal 86400, ?_⟩
  exact (((lending_model_never_aborts hmarket (dustBorrower 200000000 40000000)).2.2.2.2 _
    List.mem_cons_self _ List.mem_cons_self (dustPool "USDC" usd) (dustPool "GOLD" usd) (by decide) (by decide)
    .noDust false).2 _ (by decide +kernel) 86400 .initial).2.1

end AlulaKeeper
