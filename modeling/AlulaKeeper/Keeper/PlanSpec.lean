import Mathlib
import AlulaKeeper.Keeper.PlanModes

/-!
# What the planner's stages compute

Each stage of `build_liquidation_plan_for_asset_pool_pair` gives a value exactly under conditions on the
snapshot, the wallet and the swap answers.

* `Setup`: the conditions `planSetup` goes through, `planSetup_run_iff`.
* `computeSeized_run_iff`, `tryDirectPlan_run_iff`, `directArm_run_iff`: the Direct arm.
* `flashRepay_run`, `splitSeizure_run`, `tryFlashPlan_run`: what a Flash plan went through.
* `preswapStep_plan`, `preswapArm_run`: what a PreSwap plan went through.
* `build_run`: a returned plan is one arm's.
-/

namespace AlulaKeeper

open I128

theorem guard_run {α : Type} {c : Prop} [Decidable c] {x : Planning α} {a : α} :
    (if c then failure else x).run = .ok (some a) ↔ ¬ c ∧ x.run = .ok (some a) := by
  split_ifs with h
  · simp only [h, not_true, false_and, iff_false]
    exact failure_run
  · simp only [h, not_false_iff, true_and]

theorem optionT_lift_run {α : Type} {x : Res α} {a : α} :
    (OptionT.lift x : Planning α).run = .ok (some a) ↔ x = .ok a :=
  lift_run

theorem mk_pure_run {α : Type} {o : Option α} {a : α} :
    (OptionT.mk (pure o) : Planning α).run = .ok (some a) ↔ o = some a := by
  change (pure o : Res (Option α)) = .ok (some a) ↔ o = some a
  exact pure_eq_ok

section Stages

variable {config : LiquidatorConfig} {reader : LedgerReader} {target : PlanTarget} {now : ℕ}
  {setup : PlanSetup}

/-! ## The setup -/

variable (config reader target now) in
/-- What the planner has checked and computed once its setup is known. -/
structure Setup (setup : PlanSetup) : Prop where
  pair : ∃ fresh, LiquidationPair.new config.dustRules target.obligation target.marketData
    target.borrowPool target.collateralPool target.deposit target.isInsolvent = .ok fresh ∧
      setup.pair = (fresh.accruingUntil now).withMargin target.margin
  lifts : setup.pair.liftsCloseFactor = .ok setup.liftsCloseFactor
  feasible : ∃ debt, target.borrowPool.dTokensToTokensCeil target.borrowDTokens = .ok debt ∧ 0 < debt ∧
    setup.maxFeasibleRepay = min debt (computeCloseFactorRepayCap setup.liftsCloseFactor debt
      target.borrowPool.liquidationCloseFactorBps)
  feasible_pos : 0 < setup.maxFeasibleRepay
  margin : ∃ margin, toOption (computeProfitMarginInBorrowToken config.minProfitMarginCents
    target.marketData.oraclePriceDecimals target.borrowPool) = .ok margin ∧
      setup.profitMarginBorrow = margin.getD 0
  profitable : ∃ supplied value threshold,
    target.collateralPool.jTokensToTokensFloor target.deposit.jTokens = .ok supplied ∧
    Fits (supplied + target.deposit.collateral) ∧
    saturatingValue (supplied + target.deposit.collateral) target.collateralPool = .ok value ∧
    saturatingCents target.marketData.minCollateralValueCents target.marketData.oraclePriceDecimals =
      .ok threshold ∧ 0 < supplied + target.deposit.collateral ∧
    ¬ (config.dustRules = .sweep ∧ value < threshold) ∧
    computeRepayCapFromCollateral (!setup.liftsCloseFactor) target.borrowPool setup.maxFeasibleRepay
      target.collateralPool (supplied + target.deposit.collateral) setup.pair.obligationDebtValue
      setup.profitMarginBorrow setup.pair.obligationCollateralValue = .ok setup.maxProfitableRepay
  profitable_pos : 0 < setup.maxProfitableRepay
  usable : setup.usableBorrow = usableBalance config target.borrowPool.tokenAddress
    ((reader.balance target.borrowPool.tokenAddress).getD 0)
  marginValue : saturatingCents config.minProfitMarginCents target.marketData.oraclePriceDecimals =
    .ok setup.minProfitMarginValue

theorem planSetup_run_iff :
    (planSetup config reader target now).run = .ok (some setup) ↔
      Setup config reader target now setup := by
  simp only [planSetup, liquidationPair, planning_bind, attempt_run, lift_run, guard_run,
    optionT_lift_run, rawAdd_eq_ok, return_run]
  constructor
  · rintro ⟨debt, hdebt, hpos, supplied, hsupplied, _, ⟨hfits, rfl⟩, value, hvalue, threshold, hthreshold,
      hcollateral, margin, hmargin, fresh, hfresh, lifted, hlifted, hfeasible, cap, hcap, hcappos,
      marginValue, hmarginValue, rfl⟩
    exact {
      pair := ⟨fresh, hfresh, rfl⟩
      lifts := hlifted
      feasible := ⟨debt, hdebt, not_le.mp hpos, rfl⟩
      feasible_pos := not_not.mp hfeasible
      margin := ⟨margin, hmargin, rfl⟩
      profitable := ⟨supplied, value, threshold, hsupplied, hfits, hvalue, hthreshold,
        not_not.mp fun h => hcollateral (.inl h), fun h => hcollateral (.inr h), hcap⟩
      profitable_pos := not_le.mp hcappos
      usable := rfl
      marginValue := hmarginValue }
  · rintro ⟨⟨fresh, hfresh, hpair⟩, hlifts, ⟨debt, hdebt, hpos, hmax⟩, hfeasible, ⟨margin, hmargin, hborrow⟩,
      ⟨supplied, value, threshold, hsupplied, hfits, hvalue, hthreshold, hcoll, hdust, hcap⟩, hcappos,
      husable, hmarginValue⟩
    obtain ⟨pair, lifted, maxFeasible, maxProfitable, profitMargin, usable, minProfit⟩ := setup
    dsimp only at hpair hlifts hmax hfeasible hborrow hcap hcappos husable hmarginValue
    subst hpair hmax hborrow husable
    exact ⟨debt, hdebt, not_le.mpr hpos, supplied, hsupplied, _, ⟨hfits, rfl⟩, value, hvalue, threshold,
      hthreshold, fun h => h.elim (fun h => h hcoll) hdust, margin, hmargin, fresh, hfresh, lifted, hlifts,
      not_not.mpr hfeasible, maxProfitable, hcap, not_le.mpr hcappos, minProfit, hmarginValue, rfl⟩

theorem Setup.maxProfitableRepay_le (h : Setup config reader target now setup) :
    setup.maxProfitableRepay ≤ maxVal := by
  obtain ⟨_, _, _, -, -, -, -, -, -, hcap⟩ := h.profitable
  exact (repayCap_spec hcap).2.1

/-! ## Seizures and fitted repays -/

theorem computeSeized_run_iff {repay seized repaid : ℤ} :
    (computeSeized config target repay).run = .ok (some (seized, repaid)) ↔
      ∃ pair, LiquidationPair.new config.dustRules target.obligation target.marketData target.borrowPool
        target.collateralPool target.deposit target.isInsolvent = .ok pair ∧
          pair.quote repay = .ok (.accepted seized repaid) ∧ 0 < seized := by
  simp only [computeSeized, liquidationPair, planning_bind, attempt_run]
  refine exists_congr fun pair => and_congr_right fun _ => ?_
  constructor
  · rintro ⟨q, hq, h⟩
    cases q with
    | accepted s r =>
      dsimp only at h
      split_ifs at h with hpos
      · obtain ⟨rfl, rfl⟩ := Prod.mk.inj (return_run.mp h)
        exact ⟨hq, hpos⟩
      · exact absurd h failure_run
    | overCloseFactor => exact absurd h failure_run
    | leavesDust => exact absurd h failure_run
  · rintro ⟨hq, hpos⟩
    refine ⟨_, hq, ?_⟩
    dsimp only
    rw [if_pos hpos]
    exact return_run.mpr rfl

theorem planFitRepay_run_iff {pair : LiquidationPair} {repay maxOffer offer : ℤ} :
    (planFitRepay pair repay maxOffer).run = .ok (some offer) ↔
      pair.fitRepay repay maxOffer = .ok (some offer) := by
  simp only [planFitRepay, planning_bind, attempt_run]
  constructor
  · rintro ⟨o, ho, h⟩
    cases o with
    | none => exact absurd h failure_run
    | some o =>
      obtain rfl := return_run.mp h
      exact ho
  · intro h
    exact ⟨_, h, return_run.mpr rfl⟩

/-! ## Direct -/

/-- A plan for the target. -/
def PlanTarget.plan (target : PlanTarget) (repayAmount expectedSeizedCollateral netProfitValue : ℤ)
    (liquidationType : LiquidationType) : LiquidationPlan where
  repayAmount
  netProfitValue
  borrowerKey := target.borrowerKey
  borrowPoolAddress := target.borrowPool.poolAddress
  collateralPoolAddress := target.collateralPool.poolAddress
  expectedSeizedCollateral
  liquidationType

theorem tryDirectPlan_run_iff {repay : ℤ} {plan : LiquidationPlan} :
    (tryDirectPlan config target setup repay).run = .ok (some plan) ↔ ∃ seized repaid cost gain p,
      (computeSeized config target repay).run = .ok (some (seized, repaid)) ∧
      saturatingValue repaid target.borrowPool = .ok cost ∧
      saturatingValue seized target.collateralPool = .ok gain ∧
      computeLiquidationProfitability gain cost setup.minProfitMarginValue = .ok p ∧
      p.isAcceptable = true ∧ plan = target.plan repay seized p.netValue .direct := by
  simp only [tryDirectPlan, planning_bind, attempt_run, lift_run, guard_run, return_run,
    Bool.not_eq_true', Bool.not_eq_false]
  constructor
  · rintro ⟨⟨seized, repaid⟩, hseized, cost, hcost, gain, hgain, p, hp, hacc, rfl⟩
    exact ⟨seized, repaid, cost, gain, p, hseized, hcost, hgain, hp, hacc, rfl⟩
  · rintro ⟨seized, repaid, cost, gain, p, hseized, hcost, hgain, hp, hacc, rfl⟩
    exact ⟨(seized, repaid), hseized, cost, hcost, gain, hgain, p, hp, hacc, rfl⟩

theorem directArm_run_iff {plan : LiquidationPlan} :
    (directArm config target setup).run = .ok (some plan) ↔ ∃ repay,
      0 < min setup.maxProfitableRepay setup.usableBorrow ∧
      setup.pair.fitRepay (min setup.maxProfitableRepay setup.usableBorrow) setup.usableBorrow =
        .ok (some repay) ∧
      (tryDirectPlan config target setup repay).run = .ok (some plan) := by
  simp only [directArm, planning_bind, guard_run, planFitRepay_run_iff, not_not]
  constructor
  · rintro ⟨hpos, repay, hfit, hplan⟩
    exact ⟨repay, hpos, hfit, hplan⟩
  · rintro ⟨repay, hpos, hfit, hplan⟩
    exact ⟨hpos, repay, hfit, hplan⟩

/-! ## Flash -/

/-- A positive Flash repay is the repay cap over the collateral available at once, within the pool's
liquidity. -/
theorem flashRepay_run {repay : ℤ} (h : (flashRepay target setup).run = .ok (some repay))
    (hpos : 0 < repay) :
    target.borrowPool.isFlashLoanEnabled = true ∧ ∃ supplied withdrawable cap,
      target.collateralPool.jTokensToTokensFloor target.deposit.jTokens = .ok supplied ∧
      target.collateralPool.availableForBorrow = .ok withdrawable ∧
      computeRepayCapFromCollateral (!setup.liftsCloseFactor) target.borrowPool setup.maxFeasibleRepay
        target.collateralPool (target.deposit.collateral + min supplied withdrawable)
        setup.pair.obligationDebtValue setup.profitMarginBorrow setup.pair.obligationCollateralValue =
          .ok cap ∧
      repay = min cap target.borrowPool.totalAvailableAdjusted := by
  unfold flashRepay at h
  cases henabled : target.borrowPool.isFlashLoanEnabled with
  | false =>
    simp only [henabled, Bool.not_false, if_true] at h
    obtain rfl := return_run.mp h
    exact absurd hpos (lt_irrefl 0)
  | true =>
    simp only [henabled, Bool.not_true, Bool.false_eq_true, if_false, planning_bind, attempt_run, lift_run,
      rawAdd_eq_ok, guard_run, return_run] at h
    obtain ⟨supplied, hsupplied, withdrawable, hwithdrawable, _, ⟨-, rfl⟩, cap, hcap, -, rfl⟩ := h
    exact ⟨rfl, supplied, withdrawable, cap, hsupplied, hwithdrawable, hcap, rfl⟩

/-- A seizure within the plain collateral withdraws nothing; a larger one withdraws what the shares hold. -/
theorem splitSeizure_run {seized plain withdrawn : ℤ}
    (h : (splitSeizure target seized).run = .ok (some (plain, withdrawn))) :
    plain = min seized target.deposit.collateral ∧
      (seized ≤ target.deposit.collateral ∧ withdrawn = 0 ∨
        target.deposit.collateral < seized ∧ ∃ supplied,
          target.collateralPool.jTokensToTokensFloor target.deposit.jTokens = .ok supplied ∧
            withdrawn = min supplied (seized - target.deposit.collateral)) := by
  unfold splitSeizure at h
  split_ifs at h with hle
  · obtain ⟨rfl, rfl⟩ := Prod.mk.inj (return_run.mp h)
    exact ⟨(min_eq_left hle).symm, .inl ⟨hle, rfl⟩⟩
  · simp only [planning_bind, attempt_run, lift_run, rawSub_eq_ok] at h
    obtain ⟨supplied, hsupplied, _, ⟨-, rfl⟩, h⟩ := h
    obtain ⟨rfl, rfl⟩ := Prod.mk.inj (return_run.mp h)
    exact ⟨(min_eq_right (not_le.mp hle).le).symm, .inr ⟨not_le.mp hle, supplied, hsupplied, rfl⟩⟩

theorem tryFlashPlan_run {repay : ℤ} {plan : LiquidationPlan}
    (h : (tryFlashPlan config reader target setup repay).run = .ok (some plan)) :
    ∃ seized repaid plain withdrawn fee provider amountOut gain cost p,
      (computeSeized config target repay).run = .ok (some (seized, repaid)) ∧
      (splitSeizure target seized).run = .ok (some (plain, withdrawn)) ∧
      computeFlashFee repay target.borrowPool.flashLoanFeeBps = .ok fee ∧
      bestSwapQuote config reader (plain + withdrawn) target.collateralPool.tokenAddress
        target.borrowPool.tokenAddress = some (provider, amountOut) ∧
      saturatingAdd repay fee ≤ fixedMulFloor amountOut (bpsFactor - config.maxAllowedSwapSlippageBps) ∧
      computeLiquidationProfitability gain cost setup.minProfitMarginValue = .ok p ∧
      p.isAcceptable = true ∧
      plan = target.plan repay seized p.netValue (.flash (saturatingAdd repay fee) provider withdrawn) := by
  simp only [tryFlashPlan, planning_bind, attempt_run, lift_run, guard_run, mk_pure_run, rawSub_eq_ok,
    return_run, checkedAdd_eq_some, Bool.not_eq_true', Bool.not_eq_false] at h
  obtain ⟨⟨seized, repaid⟩, hseized, ⟨plain, withdrawn⟩, hsplit, _, ⟨-, rfl⟩, fee, hfee,
    ⟨provider, amountOut⟩, hquote, _, ⟨-, rfl⟩, hcovers, cost, -, gain, -, p, hp, hacc, rfl⟩ := h
  exact ⟨seized, repaid, plain, withdrawn, fee, provider, amountOut, gain, cost, p, hseized, hsplit, hfee,
    hquote, not_lt.mp hcovers, hp, hacc, rfl⟩

theorem flashArm_run {flashRepay : ℤ} {plan : LiquidationPlan}
    (h : (flashArm config reader target setup flashRepay).run = .ok (some plan)) :
    0 < flashRepay ∧ ∃ repay,
      setup.pair.fitRepay flashRepay target.borrowPool.totalAvailableAdjusted = .ok (some repay) ∧
        (tryFlashPlan config reader target setup repay).run = .ok (some plan) := by
  simp only [flashArm, planning_bind, guard_run, planFitRepay_run_iff, not_not] at h
  exact h

/-! ## PreSwap -/

/-- A swap is within the balance, and asks for the whole repay or for a quote less the slippage. -/
theorem preswapSwap_run {repay balance amountIn amountOut : ℤ} {asset provider : Address}
    (h : preswapSwap config reader target repay asset balance = .ok (some (provider, amountIn, amountOut))) :
    amountIn ≤ balance ∧ (amountOut = repay ∨ Fits amountOut) := by
  unfold preswapSwap at h
  dsimp only at h
  split at h
  · cases h
  obtain ⟨paid, -, h⟩ := bind_eq_ok.mp h
  obtain ⟨maxIn, -, h⟩ := bind_eq_ok.mp h
  split_ifs at h with hle
  · cases h
    exact ⟨hle, .inl rfl⟩
  split at h
  · cases h
  obtain ⟨kept, -, h⟩ := bind_eq_ok.mp h
  obtain ⟨out, hout, h⟩ := bind_eq_ok.mp h
  cases h
  refine ⟨le_rfl, .inr ?_⟩
  rw [rawDiv, if_neg (by decide)] at hout
  obtain ⟨hfits, rfl⟩ := raw_eq_ok.mp hout
  exact hfits

theorem preswapJudge_plan {asset provider : Address} {amountIn amountOut : ℤ} {plan : LiquidationPlan}
    (h : preswapJudge config target setup asset provider amountIn amountOut = .ok (.plan plan)) :
    ∃ repay seized repaid gain cost p, setup.pair.fitRepay amountOut amountOut = .ok (some repay) ∧
      (computeSeized config target repay).run = .ok (some (seized, repaid)) ∧
      computeLiquidationProfitability gain cost setup.minProfitMarginValue = .ok p ∧
      p.isAcceptable = true ∧
      plan = target.plan repay seized p.netValue (.preSwap provider amountOut amountIn asset) := by
  obtain ⟨repay?, hrepay, h⟩ := bind_eq_ok.mp h
  cases repay? with
  | none => cases h
  | some repay =>
    obtain ⟨seized?, hseized, h⟩ := bind_eq_ok.mp h
    cases seized? with
    | none => cases h
    | some sr =>
      obtain ⟨seized, repaid⟩ := sr
      dsimp only at h
      split at h
      · cases h
      obtain ⟨refund, -, h⟩ := bind_eq_ok.mp h
      obtain ⟨paid, -, h⟩ := bind_eq_ok.mp h
      obtain ⟨gain, -, h⟩ := bind_eq_ok.mp h
      obtain ⟨p?, hp, h⟩ := bind_eq_ok.mp h
      cases p? with
      | none => cases h
      | some p =>
        dsimp only at h
        split_ifs at h with hacc
        · cases h
        · cases h
          exact ⟨repay, seized, repaid, gain, _, p, planFitRepay_run_iff.mp hrepay, hseized,
            toOption_eq_some.mp hp, by simpa using hacc, rfl⟩

theorem preswapStep_plan {maxRepay : ℤ} {asset : Address} {plan : LiquidationPlan}
    (h : preswapStep config reader target setup maxRepay asset = .ok (.plan plan)) :
    ∃ raw provider amountIn amountOut, reader.balance asset = some raw ∧
      amountIn ≤ usableBalance config asset raw ∧ (amountOut = maxRepay ∨ Fits amountOut) ∧
      preswapJudge config target setup asset provider amountIn amountOut = .ok (.plan plan) := by
  unfold preswapStep at h
  split_ifs at h with hsame
  · cases h
  split at h
  · cases h
  rename_i raw hraw
  dsimp only at h
  split_ifs at h with hpos
  swap
  · cases h
  obtain ⟨swap, hswap, h⟩ := bind_eq_ok.mp h
  cases swap with
  | none => cases h
  | some swap =>
    obtain ⟨provider, amountIn, amountOut⟩ := swap
    obtain ⟨hin, hout⟩ := preswapSwap_run hswap
    exact ⟨raw, provider, amountIn, amountOut, hraw, hin, hout, h⟩

theorem tryPreswapPlan_go {maxRepay : ℤ} {assets : List Address} {best : Option LiquidationPlan}
    {plan : LiquidationPlan}
    (h : tryPreswapPlan.go config reader target setup maxRepay assets best = .ok (some plan)) :
    best = some plan ∨
      ∃ asset ∈ assets, preswapStep config reader target setup maxRepay asset = .ok (.plan plan) := by
  induction assets generalizing best with
  | nil => exact .inl (pure_eq_ok.mp h)
  | cons asset assets ih =>
    obtain ⟨step, hstep, h⟩ := bind_eq_ok.mp h
    have hlater : (∃ a ∈ assets, preswapStep config reader target setup maxRepay a = .ok (.plan plan)) →
        ∃ a ∈ asset :: assets, preswapStep config reader target setup maxRepay a = .ok (.plan plan) :=
      fun ⟨a, ha, hplan⟩ => ⟨a, List.mem_cons_of_mem asset ha, hplan⟩
    cases step with
    | skip => exact (ih h).imp_right hlater
    | stop => cases h
    | plan new =>
      have htaken : new = plan → ∃ a ∈ asset :: assets,
          preswapStep config reader target setup maxRepay a = .ok (.plan plan) :=
        fun heq => ⟨asset, List.mem_cons_self, heq ▸ hstep⟩
      cases best with
      | none =>
        obtain hnew | hold := ih h
        · exact .inr (htaken (Option.some.inj hnew))
        · exact .inr (hlater hold)
      | some b =>
        dsimp only at h
        obtain hnew | hold := ih h
        · split_ifs at hnew with hlt
          · exact .inr (htaken (Option.some.inj hnew))
          · exact .inl hnew
        · exact .inr (hlater hold)

theorem preswapArm_run {plan : LiquidationPlan}
    (h : (preswapArm config reader target setup).run = .ok (some plan)) :
    ∃ maxRepay, setup.pair.fitRepay setup.maxProfitableRepay maxVal = .ok (some maxRepay) ∧
      ∃ asset ∈ config.assetsToHold,
        preswapStep config reader target setup maxRepay asset = .ok (.plan plan) := by
  simp only [preswapArm, planning_bind, planFitRepay_run_iff] at h
  obtain ⟨maxRepay, hfit, h⟩ := h
  obtain hbest | hstep := tryPreswapPlan_go h
  · cases hbest
  · exact ⟨maxRepay, hfit, hstep⟩

/-! ## The pick -/

theorem mem_of_foldl_pickLarger {l : List LiquidationPlan} {best : Option LiquidationPlan}
    {q : LiquidationPlan} (h : l.foldl pickLarger best = some q) : best = some q ∨ q ∈ l := by
  induction l generalizing best with
  | nil => exact .inl h
  | cons x l ih =>
    obtain hbest | hmem := ih h
    · cases best with
      | none => exact .inr (by rw [Option.some.inj hbest]; exact List.mem_cons_self)
      | some b =>
        rw [pickLarger] at hbest
        split_ifs at hbest
        · exact .inr (by rw [Option.some.inj hbest]; exact List.mem_cons_self)
        · exact .inl hbest
    · exact .inr (List.mem_cons_of_mem x hmem)

/-- **A returned plan is one arm's.** -/
theorem build_run {plan : LiquidationPlan}
    (h : buildLiquidationPlanForAssetPoolPair config reader target now = .ok (some plan)) :
    ∃ setup, Setup config reader target now setup ∧
      ((directArm config target setup).run = .ok (some plan) ∨
        (∃ repay, (flashRepay target setup).run = .ok (some repay) ∧
          (flashArm config reader target setup repay).run = .ok (some plan)) ∨
        (preswapArm config reader target setup).run = .ok (some plan)) := by
  obtain ⟨setup?, hsetup, h⟩ := bind_eq_ok.mp h
  cases setup? with
  | none => cases h
  | some setup =>
    refine ⟨setup, planSetup_run_iff.mp hsetup, ?_⟩
    obtain ⟨direct, hdirect, h⟩ := bind_eq_ok.mp h
    obtain ⟨sized, hsized, h⟩ := bind_eq_ok.mp h
    cases sized with
    | none => cases h
    | some repay =>
      obtain ⟨flash, hflash, h⟩ := bind_eq_ok.mp h
      obtain ⟨preswap, hpreswap, h⟩ := bind_eq_ok.mp h
      obtain hnone | hmem := mem_of_foldl_pickLarger (pure_eq_ok.mp h)
      · cases hnone
      simp only [List.mem_append, Option.mem_toList] at hmem
      obtain (hd | hf) | hp := hmem
      · exact .inl (by rw [hdirect, hd])
      · exact .inr (.inl ⟨repay, hsized, by rw [hflash, hf]⟩)
      · exact .inr (.inr (by rw [hpreswap, hp]))

end Stages

end AlulaKeeper
