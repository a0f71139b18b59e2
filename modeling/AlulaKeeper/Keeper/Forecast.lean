import Mathlib
import AlulaKeeper.Keeper.PlanSpec

/-!
# The cover's forecast of the liquidator

`has_acceptable_liquidation` sizes and judges a Direct plan on its own, with unlimited capital.

* `Forecast`: the cover's computation for a pair.
* `DirectCandidate`: the planner's Direct arm for the same pair, its usable balance `i128::MAX`.
* `forecast_iff_candidate`: they give the same amounts, as long as the oracle's decimals fit.
* `cover_forecasts_direct`: what the cover's verdict says about the liquidator.
-/

namespace AlulaKeeper

open I128

/-! ## The two computations -/

/-- The cover's Direct computation for a pair, down to its acceptance. -/
def Forecast (target : PlanTarget) (minProfitMarginCents : ℤ) (now : ℕ) (repay seized repaid : ℤ) : Prop :=
  ∃ fresh, LiquidationPair.new .noDust target.obligation target.marketData target.borrowPool
      target.collateralPool target.deposit target.isInsolvent = .ok fresh ∧
    (fresh.accruingUntil now).directRepay minProfitMarginCents = .ok (some repay) ∧
    (fresh.accruingUntil now).quote repay = .ok (.accepted seized repaid) ∧ 0 < seized ∧
    (fresh.accruingUntil now).netsMoreThan seized repaid minProfitMarginCents = true

/-- The planner's Direct arm gives a plan when the usable balance is `i128::MAX`. -/
def DirectCandidate (config : LiquidatorConfig) (reader : LedgerReader) (target : PlanTarget) (now : ℕ)
    (repay seized repaid : ℤ) : Prop :=
  ∃ setup plan, (planSetup config reader target now).run = .ok (some setup) ∧
    (directArm config target { setup with usableBorrow := maxVal }).run = .ok (some plan) ∧
    plan.repayAmount = repay ∧ plan.expectedSeizedCollateral = seized ∧
    (computeSeized config target repay).run = .ok (some (seized, repaid))

/-- The repaid amount is the whole position debt or burns a d-token. -/
def PlanTarget.Burns (target : PlanTarget) (repaid : ℤ) : Prop :=
  target.borrowPool.dTokensToTokensCeil target.borrowDTokens = .ok repaid ∨
    ∃ shares, target.borrowPool.tokensToDTokensFloor repaid = .ok shares ∧ 0 < shares

/-- A pair of the obligation on different pools whose collateral can be seized, as the liquidator hands it
to the planner. -/
structure SeizablePair (obligation : Obligation) (market : MarketData) (target : PlanTarget) : Prop where
  obligation_eq : target.obligation = obligation
  marketData_eq : target.marketData = market
  insolvency : computeIsInsolvent obligation market = .ok target.isInsolvent
  borrow : ∃ borrow ∈ obligation.borrows, borrow.dTokens = target.borrowDTokens ∧
    market.findPool borrow.poolAddress = some target.borrowPool
  deposit_mem : target.deposit ∈ obligation.deposits
  collateralPool : market.findPool target.deposit.poolAddress = some target.collateralPool
  different : target.collateralPool.poolAddress ≠ target.borrowPool.poolAddress
  closeLtv_pos : 0 < target.collateralPool.closeLtvBps
  margin_eq : target.margin = .initial

/-! ## Values, checked or saturating -/

theorem saturatingValue_eq_ok {amount v : ℤ} {pool : PoolData} :
    saturatingValue amount pool = .ok v ↔ Fits (pow10 pool.tokenDecimals) ∧
      saturatingDiv (saturatingMul amount pool.oracleAssetPrice) (pow10 pool.tokenDecimals) = v := by
  simp only [saturatingValue, bind_eq_ok, rawPow10_eq_ok, pure_eq_ok, and_assoc, exists_and_left,
    exists_eq_left']

theorem saturatingCents_eq_ok {cents v : ℤ} {n : ℕ} :
    saturatingCents cents n = .ok v ↔
      Fits (pow10 n) ∧ saturatingDiv (saturatingMul cents (pow10 n)) 100 = v := by
  simp only [saturatingCents, bind_eq_ok, rawPow10_eq_ok, pure_eq_ok, and_assoc, exists_and_left,
    exists_eq_left']

namespace LiquidationPair

variable {pair : LiquidationPair} {cents repay seized repaid : ℤ}

theorem positionCollateral_eq_ok {collateral : ℤ} :
    pair.positionCollateral = .ok collateral ↔ ∃ supplied,
      pair.collateralPool.jTokensToTokensFloor pair.deposit.jTokens = .ok supplied ∧
        Fits (supplied + pair.deposit.collateral) ∧ supplied + pair.deposit.collateral = collateral := by
  simp only [positionCollateral, suppliedTokens, bind_eq_ok, mOu_eq_ok, checkedAdd_eq_some]

theorem directRepay_eq_some_iff :
    pair.directRepay cents = .ok (some repay) ↔ ∃ lifted collateral margin cap,
      pair.liftsCloseFactor = .ok lifted ∧ pair.positionCollateral = .ok collateral ∧
      0 < min pair.positionDebt (computeCloseFactorRepayCap lifted pair.positionDebt
        pair.borrowPool.liquidationCloseFactorBps) ∧ 0 < collateral ∧
      toOption (computeProfitMarginInBorrowToken cents pair.oraclePriceDecimals pair.borrowPool) =
        .ok margin ∧
      computeRepayCapFromCollateral (!lifted) pair.borrowPool (min pair.positionDebt
        (computeCloseFactorRepayCap lifted pair.positionDebt pair.borrowPool.liquidationCloseFactorBps))
        pair.collateralPool collateral pair.obligationDebtValue (margin.getD 0)
        pair.obligationCollateralValue = .ok cap ∧
      0 < cap ∧ pair.fitRepay cap maxVal = .ok (some repay) := by
  constructor
  · intro h
    obtain ⟨lifted, hlifted, h⟩ := bind_eq_ok.mp h
    obtain ⟨collateral, hcollateral, h⟩ := bind_eq_ok.mp h
    split_ifs at h with hnone
    · cases h
    obtain ⟨margin, hmargin, h⟩ := bind_eq_ok.mp h
    obtain ⟨cap?, hcap, h⟩ := bind_eq_ok.mp h
    cases cap? with
    | none => cases h
    | some cap =>
      by_cases hpos : 0 < cap
      · rw [Option.filter_some, if_pos (decide_eq_true hpos)] at h
        exact ⟨lifted, collateral, margin, cap, hlifted, hcollateral, not_le.mp fun h => hnone (.inl h),
          not_le.mp fun h => hnone (.inr h), hmargin, toOption_eq_some.mp hcap, hpos, h⟩
      · rw [Option.filter_some, if_neg (fun h => hpos (of_decide_eq_true h))] at h
        cases h
  · rintro ⟨lifted, collateral, margin, cap, hlifted, hcollateral, hfeasible, hpositive, hmargin, hcap, hpos,
      hfit⟩
    simp only [directRepay, hlifted, ok_bind, hcollateral,
      if_neg (not_or.mpr ⟨not_le.mpr hfeasible, not_le.mpr hpositive⟩), hmargin, toOption_eq_some.mpr hcap,
      Option.filter_some, decide_eq_true hpos, if_true, hfit]

theorem netsMoreThan_eq_true :
    pair.netsMoreThan seized repaid cents = true ↔ ∃ p, computeLiquidationProfitability
      (saturatingDiv (saturatingMul seized pair.collateralPool.oracleAssetPrice)
        (saturatingPow10 pair.collateralPool.tokenDecimals))
      (saturatingDiv (saturatingMul repaid pair.borrowPool.oracleAssetPrice)
        (saturatingPow10 pair.borrowPool.tokenDecimals))
      (saturatingDiv (saturatingMul cents (saturatingPow10 pair.oraclePriceDecimals)) 100) = .ok p ∧
        p.isAcceptable = true := by
  -- the equation lemma of the definition is slow to generate
  delta netsMoreThan
  dsimp only
  split
  · rename_i p hp
    simp only [hp, Except.ok.injEq, exists_eq_left']
  · rename_i e he
    simp only [he, Bool.false_eq_true, reduceCtorEq, false_and, exists_false]

/-- With every power in range, the cover's acceptance is the liquidator's. -/
theorem netsMoreThan_iff (hborrow : Fits (pow10 pair.borrowPool.tokenDecimals))
    (hcollateral : Fits (pow10 pair.collateralPool.tokenDecimals))
    (horacle : Fits (pow10 pair.oraclePriceDecimals)) :
    pair.netsMoreThan seized repaid cents = true ↔ ∃ cost gain marginValue p,
      saturatingValue repaid pair.borrowPool = .ok cost ∧
      saturatingValue seized pair.collateralPool = .ok gain ∧
      saturatingCents cents pair.oraclePriceDecimals = .ok marginValue ∧
      computeLiquidationProfitability gain cost marginValue = .ok p ∧ p.isAcceptable = true := by
  simp only [saturatingValue_eq_ok, saturatingCents_eq_ok, hborrow, hcollateral, horacle, true_and,
    exists_and_left, exists_eq_left', netsMoreThan_eq_true, saturatingPow10, clamp_of_fits hborrow,
    clamp_of_fits hcollateral, clamp_of_fits horacle]

end LiquidationPair

/-! ## One pair -/

section Pair

variable {config : LiquidatorConfig} {reader : LedgerReader} {target : PlanTarget} {now : ℕ}
  {repay seized repaid : ℤ} {obligation : Obligation} {market : MarketData}

theorem SeizablePair.positionDebt (h : SeizablePair obligation market target)
    (hborrows : (obligation.borrows.map (·.poolAddress)).Nodup) {rules : DustRules} {pair : LiquidationPair}
    (hpair : LiquidationPair.new rules target.obligation target.marketData target.borrowPool
      target.collateralPool target.deposit target.isInsolvent = .ok pair) :
    target.borrowPool.dTokensToTokensCeil target.borrowDTokens = .ok pair.positionDebt := by
  obtain ⟨found, debt, _, _, hfound, hdebt, -, -, rfl⟩ := newPair_eq_ok_iff.mp hpair
  obtain ⟨borrow, hmem, hshares, hpool⟩ := h.borrow
  rw [h.obligation_eq] at hfound
  have hsame : found = borrow := by
    refine List.inj_on_of_nodup_map hborrows (List.mem_of_find?_eq_some hfound) hmem ?_
    have haddress := List.find?_some hfound
    rw [beq_iff_eq, MarketData.poolAddress_of_findPool hpool] at haddress
    exact haddress
  rw [← hshares, ← hsame]
  exact hdebt

/-- What the planner's Direct arm went through with unlimited capital. -/
theorem directCandidate_iff : DirectCandidate config reader target now repay seized repaid ↔
    ∃ setup cost gain p, Setup config reader target now setup ∧
      setup.pair.fitRepay setup.maxProfitableRepay maxVal = .ok (some repay) ∧
      (computeSeized config target repay).run = .ok (some (seized, repaid)) ∧
      saturatingValue repaid target.borrowPool = .ok cost ∧
      saturatingValue seized target.collateralPool = .ok gain ∧
      computeLiquidationProfitability gain cost setup.minProfitMarginValue = .ok p ∧
      p.isAcceptable = true := by
  have hmin : ∀ {setup}, Setup config reader target now setup →
      min setup.maxProfitableRepay maxVal = setup.maxProfitableRepay :=
    fun h => min_eq_left h.maxProfitableRepay_le
  constructor
  · rintro ⟨setup, plan, hsetup, harm, hrepay, hseized, hquote⟩
    have hsetup := planSetup_run_iff.mp hsetup
    obtain ⟨_, -, hfit, hplan⟩ := directArm_run_iff.mp harm
    obtain ⟨_, _, cost, gain, p, hquote', hcost, hgain, hp, hacc, rfl⟩ := tryDirectPlan_run_iff.mp hplan
    obtain rfl := hrepay
    obtain ⟨-, rfl⟩ := Prod.mk.inj (run_unique hquote hquote')
    obtain rfl := hseized
    dsimp only at hfit
    rw [hmin hsetup] at hfit
    exact ⟨setup, cost, gain, p, hsetup, hfit, hquote, hcost, hgain, hp, hacc⟩
  · rintro ⟨setup, cost, gain, p, hsetup, hfit, hquote, hcost, hgain, hp, hacc⟩
    refine ⟨setup, target.plan repay seized p.netValue .direct, planSetup_run_iff.mpr hsetup,
      directArm_run_iff.mpr ⟨repay, ?_, ?_, ?_⟩, rfl, rfl, hquote⟩
    · exact (hmin hsetup).symm ▸ hsetup.profitable_pos
    · exact (hmin hsetup).symm ▸ hfit
    · exact tryDirectPlan_run_iff.mpr ⟨seized, repaid, cost, gain, p, hquote, hcost, hgain, hp, hacc, rfl⟩

/-- The planner's setup for a pair the cover has sized. -/
theorem setup_of_directRepay (hrules : config.dustRules = .noDust)
    (hborrows : (obligation.borrows.map (·.poolAddress)).Nodup) (hpair : SeizablePair obligation market target)
    (horacle : Fits (pow10 target.marketData.oraclePriceDecimals)) {fresh : LiquidationPair}
    (hfresh : LiquidationPair.new config.dustRules target.obligation target.marketData target.borrowPool
      target.collateralPool target.deposit target.isInsolvent = .ok fresh)
    (h : (fresh.accruingUntil now).directRepay config.minProfitMarginCents = .ok (some repay)) :
    ∃ setup, Setup config reader target now setup ∧
      setup.pair.fitRepay setup.maxProfitableRepay maxVal = .ok (some repay) := by
  have hdebt := hpair.positionDebt hborrows hfresh
  have hsame : (fresh.accruingUntil now).withMargin target.margin = fresh.accruingUntil now := by
    obtain ⟨_, _, _, _, -, -, -, -, rfl⟩ := newPair_eq_ok_iff.mp hfresh
    rw [hpair.margin_eq]
    rfl
  obtain ⟨lifted, _, margin, cap, hlifted, hcollateral, hfeasible, hpositive, hmargin, hcap, hcappos, hfit⟩ :=
    LiquidationPair.directRepay_eq_some_iff.mp h
  obtain ⟨supplied, hsupplied, hfits, rfl⟩ := LiquidationPair.positionCollateral_eq_ok.mp hcollateral
  obtain ⟨-, -, -, hcollateralFits⟩ := repayCap_spec hcap
  obtain ⟨_, _, _, _, -, -, -, -, rfl⟩ := newPair_eq_ok_iff.mp hfresh
  exact ⟨{
      pair := _
      liftsCloseFactor := lifted
      maxFeasibleRepay := _
      maxProfitableRepay := cap
      profitMarginBorrow := margin.getD 0
      usableBorrow := _
      minProfitMarginValue := _ }, {
      pair := ⟨_, hfresh, hsame.symm⟩
      lifts := hlifted
      feasible := ⟨_, hdebt, hfeasible.trans_le (min_le_left _ _), rfl⟩
      feasible_pos := hfeasible
      margin := ⟨margin, hmargin, rfl⟩
      profitable := ⟨supplied, _, _, hsupplied, hfits, saturatingValue_eq_ok.mpr ⟨hcollateralFits, rfl⟩,
        saturatingCents_eq_ok.mpr ⟨horacle, rfl⟩, hpositive,
        fun hsweep => absurd (hrules.symm.trans hsweep.1) (by decide), hcap⟩
      profitable_pos := hcappos
      usable := rfl
      marginValue := saturatingCents_eq_ok.mpr ⟨horacle, rfl⟩ }, hfit⟩

/-- The cover's Direct repay for a pair the planner has set up. -/
theorem directRepay_of_setup {setup : PlanSetup}
    (hborrows : (obligation.borrows.map (·.poolAddress)).Nodup) (hpair : SeizablePair obligation market target)
    {fresh : LiquidationPair}
    (hfresh : LiquidationPair.new config.dustRules target.obligation target.marketData target.borrowPool
      target.collateralPool target.deposit target.isInsolvent = .ok fresh)
    (hsetup : Setup config reader target now setup)
    (hfit : setup.pair.fitRepay setup.maxProfitableRepay maxVal = .ok (some repay)) :
    (fresh.accruingUntil now).directRepay config.minProfitMarginCents = .ok (some repay) := by
  obtain ⟨fresh', hfresh', hsetuppair⟩ := hsetup.pair
  obtain rfl : fresh' = fresh := ok_unique hfresh' hfresh
  have hdebt := hpair.positionDebt hborrows hfresh
  obtain ⟨_, _, _, _, -, -, -, -, rfl⟩ := newPair_eq_ok_iff.mp hfresh
  rw [hpair.margin_eq] at hsetuppair
  obtain ⟨debt, hdebt', hdebtpos, hmax⟩ := hsetup.feasible
  obtain rfl : debt = _ := ok_unique hdebt' hdebt
  obtain ⟨margin, hmargin, hmarginBorrow⟩ := hsetup.margin
  obtain ⟨supplied, value, threshold, hsupplied, hfits, -, -, hpositive, -, hcap⟩ := hsetup.profitable
  have hlifts := hsetup.lifts
  have hfeasible := hsetup.feasible_pos
  rw [hmax] at hfeasible hcap
  rw [hmarginBorrow] at hcap
  rw [hsetuppair] at hlifts hcap hfit
  exact LiquidationPair.directRepay_eq_some_iff.mpr ⟨setup.liftsCloseFactor, _, margin,
    setup.maxProfitableRepay, hlifts,
    LiquidationPair.positionCollateral_eq_ok.mpr ⟨supplied, hsupplied, hfits, rfl⟩, hfeasible, hpositive,
    hmargin, hcap, hsetup.profitable_pos, hfit⟩

theorem Setup.fits {setup : PlanSetup} (h : Setup config reader target now setup) :
    Fits (pow10 target.borrowPool.tokenDecimals) ∧ Fits (pow10 target.collateralPool.tokenDecimals) ∧
      Fits (pow10 target.marketData.oraclePriceDecimals) := by
  obtain ⟨_, _, _, -, -, -, -, -, -, hcap⟩ := h.profitable
  obtain ⟨-, -, hborrow, hcollateral⟩ := repayCap_spec hcap
  exact ⟨hborrow, hcollateral, (saturatingCents_eq_ok.mp h.marginValue).1⟩

/-- **The planner takes what the cover forecasts.** -/
theorem candidate_of_forecast (hrules : config.dustRules = .noDust)
    (hborrows : (obligation.borrows.map (·.poolAddress)).Nodup) (hpair : SeizablePair obligation market target)
    (hdecimals : market.oraclePriceDecimals ≤ 38)
    (h : Forecast target config.minProfitMarginCents now repay seized repaid) :
    DirectCandidate config reader target now repay seized repaid := by
  have horacle : Fits (pow10 target.marketData.oraclePriceDecimals) := by
    rw [hpair.marketData_eq]
    exact fits_pow10.mpr hdecimals
  obtain ⟨fresh, hfresh, hrepay, hquote, hpos, hnets⟩ := h
  rw [← hrules] at hfresh
  obtain ⟨setup, hsetup, hfit⟩ := setup_of_directRepay hrules hborrows hpair horacle hfresh hrepay
  obtain ⟨hborrow, hcollateral, -⟩ := hsetup.fits
  have hseized := computeSeized_run_iff.mpr ⟨fresh, hfresh, hquote, hpos⟩
  obtain ⟨_, _, _, _, -, -, -, -, rfl⟩ := newPair_eq_ok_iff.mp hfresh
  obtain ⟨cost, gain, marginValue, p, hcost, hgain, hmarginValue, hp, hacc⟩ :=
    (LiquidationPair.netsMoreThan_iff hborrow hcollateral horacle).mp hnets
  obtain rfl : marginValue = setup.minProfitMarginValue := ok_unique hmarginValue hsetup.marginValue
  exact directCandidate_iff.mpr ⟨setup, cost, gain, p, hsetup, hfit, hseized, hcost, hgain, hp, hacc⟩

/-- **The cover forecasts what the planner takes.** -/
theorem forecast_of_candidate (hrules : config.dustRules = .noDust)
    (hborrows : (obligation.borrows.map (·.poolAddress)).Nodup) (hpair : SeizablePair obligation market target)
    (h : DirectCandidate config reader target now repay seized repaid) :
    Forecast target config.minProfitMarginCents now repay seized repaid ∧
      market.oraclePriceDecimals ≤ 38 := by
  obtain ⟨setup, cost, gain, p, hsetup, hfit, hseized, hcost, hgain, hp, hacc⟩ := directCandidate_iff.mp h
  obtain ⟨hborrow, hcollateral, horacle⟩ := hsetup.fits
  refine ⟨?_, fits_pow10.mp (hpair.marketData_eq ▸ horacle)⟩
  obtain ⟨fresh, hfresh, hquote, hpos⟩ := computeSeized_run_iff.mp hseized
  have hrepay := directRepay_of_setup hborrows hpair hfresh hsetup hfit
  rw [hrules] at hfresh
  refine ⟨fresh, hfresh, hrepay, hquote, hpos, ?_⟩
  obtain ⟨_, _, _, _, -, -, -, -, rfl⟩ := newPair_eq_ok_iff.mp hfresh
  exact (LiquidationPair.netsMoreThan_iff hborrow hcollateral horacle).mpr
    ⟨cost, gain, _, p, hcost, hgain, hsetup.marginValue, hp, hacc⟩

/-- **One pair's amounts.** The cover's computation and the planner's give the same ones, the planner's as
long as the oracle's decimals fit. -/
theorem forecast_iff_candidate (hrules : config.dustRules = .noDust)
    (hborrows : (obligation.borrows.map (·.poolAddress)).Nodup)
    (hpair : SeizablePair obligation market target) :
    Forecast target config.minProfitMarginCents now repay seized repaid ∧
        market.oraclePriceDecimals ≤ 38 ↔
      DirectCandidate config reader target now repay seized repaid :=
  ⟨fun h => candidate_of_forecast hrules hborrows hpair h.2 h.1,
    forecast_of_candidate hrules hborrows hpair⟩

/-! ## The pair loop -/

/-- **The body of the loop** on a seizable pair: a forecast that burns. -/
theorem SeizablePair.acceptable_iff (hpair : SeizablePair obligation market target)
    (hborrows : (obligation.borrows.map (·.poolAddress)).Nodup) {cents : ℤ} :
    pairIsAcceptable obligation market cents now target.isInsolvent target.borrowPool target.deposit =
        .ok true ↔
      ∃ repay seized repaid, Forecast target cents now repay seized repaid ∧ target.Burns repaid := by
  have hopen : ¬ (target.collateralPool.poolAddress = target.borrowPool.poolAddress ∨
      target.collateralPool.closeLtvBps ≤ 0) :=
    not_or.mpr ⟨hpair.different, not_le.mpr hpair.closeLtv_pos⟩
  simp only [pairIsAcceptable, hpair.collateralPool, orErr, ok_bind, if_neg hopen]
  rw [← hpair.obligation_eq, ← hpair.marketData_eq]
  constructor
  · intro h
    obtain ⟨fresh, hfresh, h⟩ := bind_eq_ok.mp h
    obtain ⟨repay?, hrepay, h⟩ := bind_eq_ok.mp h
    cases repay? with
    | none => cases h
    | some repay =>
      obtain ⟨q, hquote, h⟩ := bind_eq_ok.mp h
      cases q with
      | overCloseFactor => cases h
      | leavesDust => cases h
      | accepted seized repaid =>
        dsimp only at h
        split_ifs at h with hpos hwhole
        · cases h
        · have hdebt := hpair.positionDebt hborrows hfresh
          exact ⟨repay, seized, repaid, ⟨fresh, hfresh, hrepay, hquote, not_le.mp hpos, pure_eq_ok.mp h⟩,
            .inl (hwhole ▸ hdebt)⟩
        · obtain ⟨shares, hshares, h⟩ := bind_eq_ok.mp h
          split_ifs at h with hburns
          · exact ⟨repay, seized, repaid, ⟨fresh, hfresh, hrepay, hquote, not_le.mp hpos, pure_eq_ok.mp h⟩,
              .inr ⟨shares, hshares, hburns⟩⟩
          · cases h
  · rintro ⟨repay, seized, repaid, ⟨fresh, hfresh, hrepay, hquote, hpos, hnets⟩, hburns⟩
    have hdebt := hpair.positionDebt hborrows hfresh
    simp only [hfresh, ok_bind, hrepay, hquote, if_neg (not_le.mpr hpos), hnets]
    split_ifs with hwhole
    · rfl
    · obtain hall | ⟨shares, hshares, hsharespos⟩ := hburns
      · exact absurd (ok_unique hall hdebt) hwhole
      · rw [hshares, ok_bind, if_pos hsharespos]
        rfl

theorem seizable_of_acceptable {cents : ℤ} {isInsolvent : Bool} {borrow : BorrowPosition}
    {borrowPool : PoolData} {deposit : DepositPosition} (borrowerKey : ObligationKey)
    (hinsolvent : computeIsInsolvent obligation market = .ok isInsolvent)
    (hborrow : borrow ∈ obligation.borrows) (hpool : market.findPool borrow.poolAddress = some borrowPool)
    (hdeposit : deposit ∈ obligation.deposits)
    (h : pairIsAcceptable obligation market cents now isInsolvent borrowPool deposit = .ok true) :
    ∃ collateralPool, SeizablePair obligation market {
      isInsolvent, borrowPool, collateralPool, obligation, deposit, borrowerKey
      borrowDTokens := borrow.dTokens
      marketData := market
      margin := .initial } := by
  obtain ⟨collateralPool, hcollateral, h⟩ := bind_eq_ok.mp h
  obtain ⟨hopen, -⟩ := ite_eq_ok_of_ne (nofun : (pure false : Res Bool) ≠ .ok true) h
  exact ⟨collateralPool, {
    obligation_eq := rfl
    marketData_eq := rfl
    insolvency := hinsolvent
    borrow := ⟨borrow, hborrow, rfl, hpool⟩
    deposit_mem := hdeposit
    collateralPool := orErr_eq_ok.mp hcollateral
    different := fun h => hopen (.inl h)
    closeLtv_pos := not_le.mp fun h => hopen (.inr h)
    margin_eq := rfl }⟩

theorem hasAcceptableLiquidation_iff {cents : ℤ} {b : Bool}
    (hborrows : (obligation.borrows.map (·.poolAddress)).Nodup) (borrowerKey : ObligationKey)
    (h : hasAcceptableLiquidation obligation market cents now = .ok b) :
    b = true ↔ unpricedPoolsTouched obligation market = [] ∧ ∃ target repay seized repaid,
      target.borrowerKey = borrowerKey ∧ SeizablePair obligation market target ∧
      Forecast target cents now repay seized repaid ∧ target.Burns repaid := by
  unfold hasAcceptableLiquidation at h
  split_ifs at h with hunpriced
  · obtain rfl := pure_eq_ok.mp h
    simp only [Bool.not_eq_true', List.isEmpty_eq_false_iff] at hunpriced
    simp only [Bool.false_eq_true, hunpriced, false_and]
  simp only [Bool.not_eq_true', Bool.not_eq_false, List.isEmpty_iff] at hunpriced
  obtain ⟨isInsolvent, hinsolvent, h⟩ := bind_eq_ok.mp h
  constructor
  · rintro rfl
    obtain ⟨borrow, hborrow, h⟩ := anyM_eq_true h
    obtain ⟨borrowPool, hpool, h⟩ := bind_eq_ok.mp h
    obtain ⟨deposit, hdeposit, h⟩ := anyM_eq_true h
    obtain ⟨collateralPool, hpair⟩ :=
      seizable_of_acceptable borrowerKey hinsolvent hborrow (orErr_eq_ok.mp hpool) hdeposit h
    obtain ⟨repay, seized, repaid, hforecast, hburns⟩ := (hpair.acceptable_iff hborrows).mp h
    exact ⟨hunpriced, _, repay, seized, repaid, rfl, hpair, hforecast, hburns⟩
  · rintro ⟨-, target, repay, seized, repaid, -, hpair, hforecast, hburns⟩
    have htrue := (hpair.acceptable_iff hborrows).mpr ⟨repay, seized, repaid, hforecast, hburns⟩
    obtain rfl : isInsolvent = target.isInsolvent := ok_unique hinsolvent hpair.insolvency
    obtain ⟨borrow, hborrow, -, hpool⟩ := hpair.borrow
    cases b with
    | true => rfl
    | false =>
      have hfalse := anyM_eq_false h borrow hborrow
      rw [hpool, orErr, ok_bind] at hfalse
      have hboth := htrue.symm.trans (anyM_eq_false hfalse target.deposit hpair.deposit_mem)
      exact absurd (Except.ok.inj hboth) (by decide)

/-- **The cover's forecast of the liquidator.** With the oracle's decimals in range, the verdict is true
exactly when the liquidator has a Direct candidate that burns, and the amounts are the same. -/
theorem cover_forecasts_direct (config : LiquidatorConfig) (reader : LedgerReader)
    (obligation : Obligation) (market : MarketData) (borrowerKey : ObligationKey) (now : ℕ) (b : Bool)
    (hrules : config.dustRules = .noDust) (hborrows : (obligation.borrows.map (·.poolAddress)).Nodup)
    (h : hasAcceptableLiquidation obligation market config.minProfitMarginCents now = .ok b) :
    (b = true ∧ market.oraclePriceDecimals ≤ 38 ↔
      unpricedPoolsTouched obligation market = [] ∧ ∃ target repay seized repaid,
        target.borrowerKey = borrowerKey ∧ SeizablePair obligation market target ∧
        DirectCandidate config reader target now repay seized repaid ∧ target.Burns repaid) ∧
    ∀ target, SeizablePair obligation market target → ∀ repay seized repaid,
      (Forecast target config.minProfitMarginCents now repay seized repaid ∧
          market.oraclePriceDecimals ≤ 38 ↔
        DirectCandidate config reader target now repay seized repaid) := by
  have hpairs : ∀ target, SeizablePair obligation market target → ∀ repay seized repaid,
      (Forecast target config.minProfitMarginCents now repay seized repaid ∧
          market.oraclePriceDecimals ≤ 38 ↔
        DirectCandidate config reader target now repay seized repaid) :=
    fun _ hpair _ _ _ => forecast_iff_candidate hrules hborrows hpair
  refine ⟨?_, hpairs⟩
  rw [hasAcceptableLiquidation_iff hborrows borrowerKey h]
  constructor
  · rintro ⟨⟨hpriced, target, repay, seized, repaid, hkey, hpair, hforecast, hburns⟩, hdecimals⟩
    exact ⟨hpriced, target, repay, seized, repaid, hkey, hpair,
      (hpairs target hpair repay seized repaid).mp ⟨hforecast, hdecimals⟩, hburns⟩
  · rintro ⟨hpriced, target, repay, seized, repaid, hkey, hpair, hcandidate, hburns⟩
    obtain ⟨hforecast, hdecimals⟩ := (hpairs target hpair repay seized repaid).mpr hcandidate
    exact ⟨⟨hpriced, target, repay, seized, repaid, hkey, hpair, hforecast, hburns⟩, hdecimals⟩

end Pair

/-! ## Insolvent gold at two scales -/

/-- $100 owed against $111 of plain gold. -/
def goldObligation : Obligation where
  borrows := [{ dTokens := 1000000000, poolAddress := "USDC" }]
  deposits := [{ jTokens := 0, collateral := 1110000000, poolAddress := "GOLD" }]
  openBadDebtRequests := 0

/-- Insolvent past 85%, with prices of `decimals`. -/
def strictMarket (decimals : ℕ) : MarketData :=
  { dustMarket usd with
    poolsData := [planBorrowPool, dustPool "GOLD" usd]
    insolvencyLtvBps := 8500
    oraclePriceDecimals := decimals }

/-- The planner on a no-dust market. -/
def noDustConfig : LiquidatorConfig := { planConfig with dustRules := .noDust }

/-- At 14 decimals the liquidator takes the gold. -/
theorem fourteen_decimals_are_forecast :
    ∃ target repay seized repaid, SeizablePair goldObligation (strictMarket 14) target ∧
      DirectCandidate noDustConfig planReader target 0 repay seized repaid := by
  have h := cover_forecasts_direct noDustConfig planReader goldObligation (strictMarket 14)
    { user := "BORROWER", seed := none } 0 true rfl (by decide) (by decide +kernel)
  obtain ⟨-, target, repay, seized, repaid, -, hpair, hcandidate, -⟩ := h.1.mp ⟨rfl, by decide⟩
  exact ⟨target, repay, seized, repaid, hpair, hcandidate⟩

/-- **At 39 decimals the planner aborts where the cover forecasts a plan.** -/
theorem thirtynine_decimals_abort_the_planner :
    (goldObligation.borrows.map (·.poolAddress)).Nodup ∧
      (goldObligation.deposits.map (·.poolAddress)).Nodup ∧
      ((strictMarket 39).poolsData.map (·.poolAddress)).Nodup ∧
      hasAcceptableLiquidation goldObligation (strictMarket 39) noDustConfig.minProfitMarginCents 0 =
        .ok true ∧
      ∀ reader target repay seized repaid, SeizablePair goldObligation (strictMarket 39) target →
        ¬ DirectCandidate noDustConfig reader target 0 repay seized repaid := by
  refine ⟨by decide, by decide, by decide, by decide +kernel, fun reader target _ _ _ hpair h => ?_⟩
  have hrules : noDustConfig.dustRules = .noDust := rfl
  obtain ⟨-, hdecimals⟩ := forecast_of_candidate hrules (by decide) hpair h
  exact absurd hdecimals (by decide)

end AlulaKeeper
