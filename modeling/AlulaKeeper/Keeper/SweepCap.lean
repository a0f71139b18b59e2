import Mathlib
import AlulaKeeper.Keeper.PreswapAssets

/-!
# The close factor on a sweep market

A sweep market's quote leaves the close factor to its callers and `fit_repay` changes nothing, so the bound
rests on the arms. Direct and Flash repay within the feasible repay; PreSwap repays what a wallet too short
for the capped repay swaps into, whatever the providers answer.

* `Setup.sweep_feasible_le`: the feasible repay is within the close factor's cap.
* `QuotedOver`: a held asset is swapped into more than the cap.
* `sweep_plan_within_cap_iff`: when the plan is within the cap.
-/

namespace AlulaKeeper

open I128 Loop

section SweepCap

variable {config : LiquidatorConfig} {reader : LedgerReader} {target : PlanTarget} {now : ℕ}
  {setup : PlanSetup} {plan : LiquidationPlan}

theorem fitRepay_sweep {pair : LiquidationPair} {repay maxOffer : ℤ} (h : pair.rules = .sweep) :
    pair.fitRepay repay maxOffer = .ok (some repay) := by
  rw [LiquidationPair.fitRepay, if_pos h]
  rfl

theorem Setup.rules_eq (h : Setup config reader target now setup) : setup.pair.rules = config.dustRules := by
  obtain ⟨fresh, hfresh, hpair⟩ := h.pair
  obtain ⟨_, _, _, _, -, -, -, -, rfl⟩ := newPair_eq_ok_iff.mp hfresh
  rw [hpair]
  rfl

theorem Setup.isInsolvent_eq (h : Setup config reader target now setup) :
    setup.pair.isInsolvent = target.isInsolvent := by
  obtain ⟨fresh, hfresh, hpair⟩ := h.pair
  obtain ⟨_, _, _, _, -, -, -, -, rfl⟩ := newPair_eq_ok_iff.mp hfresh
  rw [hpair]
  rfl

theorem Setup.sweep_lifts (h : Setup config reader target now setup) (hsweep : config.dustRules = .sweep) :
    setup.liftsCloseFactor = target.isInsolvent := by
  have hlifts := h.lifts
  rw [LiquidationPair.liftsCloseFactor, h.rules_eq, hsweep, h.isInsolvent_eq] at hlifts
  cases hinsolvent : target.isInsolvent with
  | true =>
    rw [hinsolvent, if_pos rfl] at hlifts
    exact (pure_eq_ok.mp hlifts).symm
  | false =>
    rw [hinsolvent, if_neg (by decide), if_neg (by decide)] at hlifts
    exact (pure_eq_ok.mp hlifts).symm

theorem Setup.sweep_feasible_le (h : Setup config reader target now setup)
    (hsweep : config.dustRules = .sweep) :
    ∃ debt, target.borrowPool.dTokensToTokensCeil target.borrowDTokens = .ok debt ∧
      setup.maxFeasibleRepay ≤ computeCloseFactorRepayCap target.isInsolvent debt
        target.borrowPool.liquidationCloseFactorBps := by
  obtain ⟨debt, hdebt, -, hmax⟩ := h.feasible
  refine ⟨debt, hdebt, ?_⟩
  rw [hmax, h.sweep_lifts hsweep]
  exact min_le_right _ _

theorem Setup.maxProfitableRepay_le_feasible (h : Setup config reader target now setup) :
    setup.maxProfitableRepay ≤ setup.maxFeasibleRepay := by
  obtain ⟨_, _, _, -, -, -, -, -, -, hcap⟩ := h.profitable
  exact (repayCap_spec hcap).1

/-! ## Direct and Flash -/

theorem directArm_sweep_le (h : Setup config reader target now setup) (hsweep : config.dustRules = .sweep)
    (hplan : (directArm config target setup).run = .ok (some plan)) :
    plan.repayAmount ≤ setup.maxFeasibleRepay := by
  obtain ⟨repay, -, hfit, hplan⟩ := directArm_run_iff.mp hplan
  rw [fitRepay_sweep (h.rules_eq.trans hsweep), Except.ok.injEq, Option.some.injEq] at hfit
  obtain ⟨_, _, _, _, _, -, -, -, -, -, rfl⟩ := tryDirectPlan_run_iff.mp hplan
  change repay ≤ setup.maxFeasibleRepay
  rw [← hfit]
  exact (min_le_left _ _).trans h.maxProfitableRepay_le_feasible

theorem flashArm_sweep_le {sized : ℤ} (h : Setup config reader target now setup)
    (hsweep : config.dustRules = .sweep) (hsized : (flashRepay target setup).run = .ok (some sized))
    (hplan : (flashArm config reader target setup sized).run = .ok (some plan)) :
    plan.repayAmount ≤ setup.maxFeasibleRepay := by
  obtain ⟨hpos, repay, hfit, hplan⟩ := flashArm_run hplan
  rw [fitRepay_sweep (h.rules_eq.trans hsweep), Except.ok.injEq, Option.some.injEq] at hfit
  obtain ⟨_, _, _, _, _, _, _, _, _, _, -, -, -, -, -, -, -, rfl⟩ := tryFlashPlan_run hplan
  obtain ⟨-, _, _, cap, -, -, hcap, rfl⟩ := flashRepay_run hsized hpos
  change repay ≤ setup.maxFeasibleRepay
  rw [← hfit]
  exact (min_le_left _ _).trans (repayCap_spec hcap).1

/-! ## PreSwap -/

variable (config reader target) in
/-- The wallet is too short for `repay` at the best `get_amount_in`, and the best `get_amount_out` for its
whole `balance`, less the slippage, is `amountOut`. -/
def ShortQuote (repay : ℤ) (asset : Address) (balance : ℤ) (provider : Address) (amountOut : ℤ) : Prop :=
  ∃ base answer, bestSwapBase config reader repay asset target.borrowPool.tokenAddress = some base ∧
    Fits (bpsFactor + config.maxAllowedSwapSlippageBps) ∧
    balance < (saturatingMul base.2 (bpsFactor + config.maxAllowedSwapSlippageBps)).tdiv bpsFactor ∧
    bestSwapQuote config reader balance asset target.borrowPool.tokenAddress = some (provider, answer) ∧
    Fits (bpsFactor - config.maxAllowedSwapSlippageBps) ∧
    amountOut = (saturatingMul answer (bpsFactor - config.maxAllowedSwapSlippageBps)).tdiv bpsFactor

variable (config reader target setup) in
/-- The loop over the held assets goes through, and one of them, short for the capped repay, is quoted over
`cap` at an acceptable profit. -/
def QuotedOver (cap : ℤ) : Prop :=
  (∀ asset ∈ config.assetsToHold, PassesOver config reader target setup setup.maxProfitableRepay asset) ∧
    ∃ asset ∈ config.assetsToHold, asset ≠ target.borrowPool.tokenAddress ∧
      ∃ raw provider amountOut judged, reader.balance asset = some raw ∧ 0 < usableBalance config asset raw ∧
        ShortQuote config reader target setup.maxProfitableRepay asset (usableBalance config asset raw)
          provider amountOut ∧ cap < amountOut ∧
        preswapJudge config target setup asset provider (usableBalance config asset raw) amountOut =
          .ok (.plan judged)

/-- A swap that pays out more than the repay was quoted for a wallet too short. -/
theorem preswapSwap_over {repay balance amountIn amountOut : ℤ} {asset provider : Address}
    (hover : repay < amountOut) :
    preswapSwap config reader target repay asset balance = .ok (some (provider, amountIn, amountOut)) ↔
      amountIn = balance ∧ ShortQuote config reader target repay asset balance provider amountOut := by
  unfold preswapSwap ShortQuote
  dsimp only
  cases hbase : bestSwapBase config reader repay asset target.borrowPool.tokenAddress with
  | none => simp
  | some base =>
    have hscaled : ∀ amount bps : ℤ, (rawDiv (saturatingMul amount bps) bpsFactor : Res ℤ) =
        .ok ((saturatingMul amount bps).tdiv bpsFactor) :=
      fun amount bps => rawDiv_of_pos (fits_clamp _) (by decide)
    simp only [bind_eq_ok, rawAdd_eq_ok]
    constructor
    · rintro ⟨_, ⟨hpaid, rfl⟩, _, hplus, h⟩
      rw [hscaled, Except.ok.injEq] at hplus
      subst hplus
      split_ifs at h with hafford
      · cases h
        exact absurd hover (lt_irrefl _)
      cases hquote : bestSwapQuote config reader balance asset target.borrowPool.tokenAddress with
      | none =>
        rw [hquote] at h
        cases h
      | some quote =>
        rw [hquote] at h
        obtain ⟨_, hsub, h⟩ := bind_eq_ok.mp h
        obtain ⟨hkept, rfl⟩ := rawSub_eq_ok.mp hsub
        obtain ⟨out, hout, h⟩ := bind_eq_ok.mp h
        rw [hscaled, Except.ok.injEq] at hout
        cases h
        exact ⟨rfl, base, quote.2, rfl, hpaid, not_le.mp hafford, rfl, hkept, hout.symm⟩
    · rintro ⟨rfl, base', answer, hbase', hpaid, hshort, hquote, hkept, rfl⟩
      obtain rfl := Option.some.inj hbase'
      refine ⟨_, ⟨hpaid, rfl⟩, _, hscaled _ _, ?_⟩
      rw [if_neg (not_le.mpr hshort), hquote]
      dsimp only
      rw [rawSub_eq_ok.mpr ⟨hkept, rfl⟩, ok_bind, hscaled, ok_bind]
      rfl

theorem preswapJudge_sweep {asset provider : Address} {amountIn amountOut : ℤ}
    (h : setup.pair.rules = .sweep)
    (hjudge : preswapJudge config target setup asset provider amountIn amountOut = .ok (.plan plan)) :
    plan.repayAmount = amountOut := by
  obtain ⟨repay, _, _, _, _, _, hfit, -, -, -, rfl⟩ := preswapJudge_plan hjudge
  rw [fitRepay_sweep h, Except.ok.injEq, Option.some.injEq] at hfit
  exact hfit.symm

theorem preswapArm_sweep (h : setup.pair.rules = .sweep) :
    (preswapArm config reader target setup).run = .ok (some plan) ↔
      (tryPreswapPlan config reader target setup setup.maxProfitableRepay).run = .ok (some plan) := by
  simp only [preswapArm, planning_bind, planFitRepay_run_iff, fitRepay_sweep h, Except.ok.injEq,
    Option.some.injEq, exists_eq_left']

theorem quotedOver_of_preswapArm {cap : ℤ} (h : setup.pair.rules = .sweep)
    (hcap : setup.maxProfitableRepay ≤ cap)
    (hplan : (preswapArm config reader target setup).run = .ok (some plan)) (hover : cap < plan.repayAmount) :
    QuotedOver config reader target setup cap := by
  rw [preswapArm_sweep h] at hplan
  obtain ⟨hpass, asset, hasset, hturn⟩ := exists_keep_of_plan hplan
  have hstep := (assetTurn_eq_ok_iff (.plan plan)).mp hturn
  obtain ⟨provider, amountIn, amountOut, ⟨hne, raw, hraw, hpos, hswap⟩, hjudge⟩ :=
    (preswapStep_eq_ok_iff (by simp)).mp hstep
  rw [preswapJudge_sweep h hjudge] at hover
  obtain ⟨rfl, hshort⟩ := (preswapSwap_over (hcap.trans_lt hover)).mp hswap
  exact ⟨hpass, asset, hasset, hne, raw, provider, amountOut, plan, hraw, hpos, hshort, hover, hjudge⟩

theorem preswapArm_of_quotedOver {cap : ℤ} (h : setup.pair.rules = .sweep)
    (hcap : setup.maxProfitableRepay ≤ cap) (hover : QuotedOver config reader target setup cap) :
    ∃ p, (preswapArm config reader target setup).run = .ok (some p) ∧ cap < p.repayAmount := by
  obtain ⟨hpass, asset, hasset, hne, raw, provider, amountOut, judged, hraw, hpos, hshort, hlt, hjudge⟩ := hover
  have hswap := (preswapSwap_over (hcap.trans_lt hlt)).mpr ⟨rfl, hshort⟩
  have hstep := (preswapStep_eq_ok_iff (by simp)).mpr
    ⟨provider, _, amountOut, ⟨hne, raw, hraw, hpos, hswap⟩, hjudge⟩
  obtain ⟨p, hp, hle⟩ := exists_plan_of_keep hpass hasset ((assetTurn_eq_ok_iff (.plan judged)).mpr hstep)
  rw [preswapJudge_sweep h hjudge] at hle
  exact ⟨p, (preswapArm_sweep h).mpr hp, hlt.trans_le hle⟩

/-! ## The plan -/

theorem preswap_le_build {p : LiquidationPlan} (hsetup : Setup config reader target now setup)
    (h : buildLiquidationPlanForAssetPoolPair config reader target now = .ok (some plan))
    (hp : (preswapArm config reader target setup).run = .ok (some p)) :
    p.repayAmount ≤ plan.repayAmount := by
  have hrun := planSetup_run_iff.mpr hsetup
  rw [buildLiquidationPlanForAssetPoolPair, hrun, ok_bind] at h
  obtain ⟨⟨direct, hdirect⟩, sized, hsized, ⟨flash, hflash⟩, -⟩ := planFromSetup_eq_some h
  obtain ⟨q, hq, hle⟩ := le_planFromSetup hdirect hsized hflash hp (p := p) (by simp)
  rw [Option.some.inj (ok_unique hq h)] at hle
  exact hle

/-- **When a sweep plan is within the close factor.** The plan repays at most the close factor's cap of the
position's debt exactly when no held asset is quoted over it. -/
theorem sweep_plan_within_cap_iff (config : LiquidatorConfig) (reader : LedgerReader) (target : PlanTarget)
    (now : ℕ) (plan : LiquidationPlan) (hsweep : config.dustRules = .sweep)
    (h : buildLiquidationPlanForAssetPoolPair config reader target now = .ok (some plan)) :
    ∃ setup debt, (planSetup config reader target now).run = .ok (some setup) ∧
      target.borrowPool.dTokensToTokensCeil target.borrowDTokens = .ok debt ∧
      (plan.repayAmount ≤ computeCloseFactorRepayCap target.isInsolvent debt
          target.borrowPool.liquidationCloseFactorBps ↔
        ¬ QuotedOver config reader target setup (computeCloseFactorRepayCap target.isInsolvent debt
          target.borrowPool.liquidationCloseFactorBps)) := by
  obtain ⟨setup, hsetup, harm⟩ := build_run h
  have hrules := hsetup.rules_eq.trans hsweep
  obtain ⟨debt, hdebt, hcap⟩ := hsetup.sweep_feasible_le hsweep
  have hprofitable := hsetup.maxProfitableRepay_le_feasible.trans hcap
  refine ⟨setup, debt, planSetup_run_iff.mpr hsetup, hdebt, ?_, fun hnot => ?_⟩
  · intro hle hover
    obtain ⟨p, hp, hlt⟩ := preswapArm_of_quotedOver hrules hprofitable hover
    exact (hlt.trans_le (preswap_le_build hsetup h hp)).not_ge hle
  · obtain hdirect | ⟨sized, hsized, hflash⟩ | hpreswap := harm
    · exact (directArm_sweep_le hsetup hsweep hdirect).trans hcap
    · exact (flashArm_sweep_le hsetup hsweep hsized hflash).trans hcap
    · exact not_lt.mp fun hlt => hnot (quotedOver_of_preswapArm hrules hprofitable hpreswap hlt)

end SweepCap

/-! ## A wallet short of a dear quote -/

/-- 60 of the euro coin. `get_amount_in` asks for twice what is to come out; `get_amount_out` answers 10 more
than goes in. -/
def shortReader : LedgerReader where
  balance asset := some (if asset = "EURC" then 600000000 else 1000000000000)
  amountOut amount _ _ _ := some (amount + 100000000)
  amountIn amount _ _ _ := some (2 * amount)

/-- The assets a pre-swap may spend. -/
def shortConfig (held : List Address) : LiquidatorConfig := { planConfig with assetsToHold := held }

/-- 30 of the euro coin and nothing else. -/
def euroReader : LedgerReader :=
  { shortReader with balance := fun asset => if asset = "EURC" then some 300000000 else none }

/-- A borrow pool without flash loans. -/
def unlentTarget : PlanTarget := { heldTarget with borrowPool := { planBorrowPool with statusFlags := 0 } }

/-- The 30 euros are quoted at 40, where the close factor of the debt of 100 allows 50. -/
theorem preswap_plan_within_cap :
    ∃ setup debt, buildLiquidationPlanForAssetPoolPair (shortConfig ["EURC"]) euroReader unlentTarget 0 =
        .ok (some (unlentTarget.plan 400000000 419580000 1195800000000000
          (.preSwap "DEX" 400000000 300000000 "EURC"))) ∧
      (planSetup (shortConfig ["EURC"]) euroReader unlentTarget 0).run = .ok (some setup) ∧
      unlentTarget.borrowPool.dTokensToTokensCeil unlentTarget.borrowDTokens = .ok debt ∧ debt = 1000000000 ∧
      ¬ QuotedOver (shortConfig ["EURC"]) euroReader unlentTarget setup (computeCloseFactorRepayCap
        unlentTarget.isInsolvent debt unlentTarget.borrowPool.liquidationCloseFactorBps) := by
  have hplan : buildLiquidationPlanForAssetPoolPair (shortConfig ["EURC"]) euroReader unlentTarget 0 =
      .ok (some (unlentTarget.plan 400000000 419580000 1195800000000000
        (.preSwap "DEX" 400000000 300000000 "EURC"))) := by
    decide +kernel
  obtain ⟨setup, debt, hsetup, hdebt, hiff⟩ := sweep_plan_within_cap_iff _ _ _ _ _ rfl hplan
  have hhundred : unlentTarget.borrowPool.dTokensToTokensCeil unlentTarget.borrowDTokens = .ok 1000000000 := by
    decide
  obtain rfl : debt = 1000000000 := Except.ok.inj (hdebt.symm.trans hhundred)
  exact ⟨setup, _, hplan, hsetup, hdebt, rfl, hiff.mp (by decide)⟩

/-- **A short wallet repays over the cap.** The quote of 70 for the 60 euros held becomes the repay, where
the close factor of the debt of 100 allows 50. -/
theorem short_wallet_repays_over_cap :
    ∃ plan, (shortConfig ["EURC"]).dustRules = .sweep ∧
      buildLiquidationPlanForAssetPoolPair (shortConfig ["EURC"]) shortReader heldTarget 0 =
        .ok (some plan) ∧
      heldTarget.borrowPool.dTokensToTokensCeil heldTarget.borrowDTokens = .ok 1000000000 ∧
      computeCloseFactorRepayCap heldTarget.isInsolvent 1000000000
        heldTarget.borrowPool.liquidationCloseFactorBps = 500000000 ∧
      plan.repayAmount = 700000000 :=
  ⟨heldTarget.plan 700000000 734265000 1342650000000000 (.preSwap "DEX" 700000000 600000000 "EURC"), by decide,
    by decide +kernel, by decide, by decide, rfl⟩

end AlulaKeeper
