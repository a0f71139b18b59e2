import Mathlib
import AlulaKeeper.Keeper.Plan

/-!
# Modes and the plan they share

The planner builds a Direct, a Flash and a PreSwap candidate and keeps the one that repays the most. The
Flash repay is sized between the candidates, and a sizing that fails returns from the whole planner.

* `le_maxByRepayAmount`: the pick repays at least what every candidate repays.
* `FlashSizes`, `flashRepay_isSome_iff`: when the Flash sizing does not return early.
* `plan_keeps_modes_iff`: when a mode that has a plan is not suppressed by another.
-/

namespace AlulaKeeper

open I128

/-! ## Planning steps that give a value -/

section Planning

variable {α β : Type}

theorem planning_bind {x : Planning α} {f : α → Planning β} {b : β} :
    (x >>= f).run = .ok (some b) ↔ ∃ a, x.run = .ok (some a) ∧ (f a).run = .ok (some b) := by
  rw [OptionT.run_bind, Option.elimM, bind_eq_ok]
  constructor
  · rintro ⟨o, ho, h⟩
    cases o with
    | none => simp at h
    | some a => exact ⟨a, ho, h⟩
  · rintro ⟨a, ha, h⟩
    exact ⟨some a, ha, h⟩

theorem run_unique {x : Planning α} {a b : α} (ha : x.run = .ok (some a)) (hb : x.run = .ok (some b)) :
    a = b :=
  Option.some.inj (ok_unique ha hb)

theorem attempt_run {x : Res α} {a : α} : (attempt x).run = .ok (some a) ↔ x = .ok a :=
  toOption_eq_some

theorem lift_run {x : Res α} {a : α} :
    (liftM x : Planning α).run = .ok (some a) ↔ x = .ok a := by
  change (x >>= fun a => pure (some a)) = .ok (some a) ↔ x = .ok a
  simp only [bind_eq_ok, pure_eq_ok, Option.some.injEq, exists_eq_right]

theorem failure_run {a : α} : (failure : Planning α).run ≠ .ok (some a) := by
  rw [OptionT.run_failure]
  simp

theorem return_run {a b : α} : (pure a : Planning α).run = .ok (some b) ↔ a = b := by
  rw [OptionT.run_pure, pure_eq_ok, Option.some.injEq]

end Planning

/-! ## The pick -/

theorem pickLarger_some (b x : LiquidationPlan) :
    ∃ y, pickLarger (some b) x = some y ∧ b.repayAmount ≤ y.repayAmount ∧
      x.repayAmount ≤ y.repayAmount := by
  unfold pickLarger
  by_cases h : b.repayAmount ≤ x.repayAmount
  · exact ⟨x, if_pos h, h, le_rfl⟩
  · exact ⟨b, if_neg h, le_rfl, by omega⟩

/-- The running best dominates what it started from and every candidate seen. -/
theorem foldl_pickLarger (l : List LiquidationPlan) (b : LiquidationPlan) :
    ∃ q, l.foldl pickLarger (some b) = some q ∧ b.repayAmount ≤ q.repayAmount ∧
      ∀ p ∈ l, p.repayAmount ≤ q.repayAmount := by
  induction l generalizing b with
  | nil => exact ⟨b, rfl, le_rfl, nofun⟩
  | cons x l ih =>
    obtain ⟨y, hy, hby, hxy⟩ := pickLarger_some b x
    obtain ⟨q, hq, hyq, hl⟩ := ih y
    refine ⟨q, by rw [List.foldl_cons, hy, hq], hby.trans hyq, fun p hp => ?_⟩
    rcases List.mem_cons.mp hp with rfl | hp
    · exact hxy.trans hyq
    · exact hl p hp

/-- **The pick repays at least what every candidate repays.** -/
theorem le_maxByRepayAmount {candidates : List LiquidationPlan} {p : LiquidationPlan}
    (hp : p ∈ candidates) :
    ∃ q, maxByRepayAmount candidates = some q ∧ p.repayAmount ≤ q.repayAmount := by
  cases candidates with
  | nil => cases hp
  | cons x l =>
    obtain ⟨q, hq, hxq, hl⟩ := foldl_pickLarger l x
    refine ⟨q, hq, ?_⟩
    rcases List.mem_cons.mp hp with rfl | hp
    · exact hxq
    · exact hl p hp

/-! ## The Flash sizing -/

section Modes

variable {config : LiquidatorConfig} {reader : LedgerReader} {target : PlanTarget} {now : ℕ}
  {setup : PlanSetup}

/-- The Flash sizing goes through: flash loans are off, or the collateral available at once converts and
its repay cap is positive. -/
def FlashSizes (target : PlanTarget) (setup : PlanSetup) : Prop :=
  target.borrowPool.isFlashLoanEnabled = false ∨ ∃ deposit withdrawable cap,
    target.collateralPool.jTokensToTokensFloor target.deposit.jTokens = .ok deposit ∧
    target.collateralPool.availableForBorrow = .ok withdrawable ∧
    Fits (target.deposit.collateral + min deposit withdrawable) ∧
    computeRepayCapFromCollateral (!setup.liftsCloseFactor) target.borrowPool
      setup.maxFeasibleRepay target.collateralPool
      (target.deposit.collateral + min deposit withdrawable) setup.pair.obligationDebtValue
      setup.profitMarginBorrow setup.pair.obligationCollateralValue = .ok cap ∧ 0 < cap

theorem flashRepay_isSome_iff :
    (∃ r, (flashRepay target setup).run = .ok (some r)) ↔ FlashSizes target setup := by
  unfold flashRepay FlashSizes
  cases hflag : target.borrowPool.isFlashLoanEnabled with
  | false => simp
  | true =>
    simp only [Bool.not_true, Bool.false_eq_true, if_false, planning_bind, attempt_run, lift_run,
      rawAdd_eq_ok, Bool.true_eq_false, false_or]
    constructor
    · rintro ⟨r, a, ha, w, hw, _, ⟨hfit, rfl⟩, cap, hcap, h⟩
      refine ⟨a, w, cap, ha, hw, hfit, hcap, ?_⟩
      by_contra hle
      rw [if_pos (not_lt.mp hle)] at h
      exact failure_run h
    · rintro ⟨a, w, cap, ha, hw, hfit, hcap, hpos⟩
      refine ⟨min cap target.borrowPool.totalAvailableAdjusted, a, ha, w, hw, _, ⟨hfit, rfl⟩, cap,
        hcap, ?_⟩
      rw [if_neg (not_le.mpr hpos)]
      exact return_run.mpr rfl

theorem planFromSetup_eq_some {q : LiquidationPlan}
    (h : planFromSetup config reader target setup = .ok (some q)) :
    Returns (directArm config target setup).run ∧ ∃ r,
      (flashRepay target setup).run = .ok (some r) ∧
      Returns (flashArm config reader target setup r).run ∧
      Returns (preswapArm config reader target setup).run := by
  obtain ⟨direct, hdirect, h⟩ := bind_eq_ok.mp h
  obtain ⟨sized, hsized, h⟩ := bind_eq_ok.mp h
  cases sized with
  | none => simp at h
  | some r =>
    obtain ⟨flash, hflash, h⟩ := bind_eq_ok.mp h
    obtain ⟨preswap, hpreswap, -⟩ := bind_eq_ok.mp h
    exact ⟨⟨direct, hdirect⟩, r, hsized, ⟨flash, hflash⟩, ⟨preswap, hpreswap⟩⟩

theorem le_planFromSetup {r : ℤ} {direct flash preswap : Option LiquidationPlan}
    (hdirect : (directArm config target setup).run = .ok direct)
    (hsized : (flashRepay target setup).run = .ok (some r))
    (hflash : (flashArm config reader target setup r).run = .ok flash)
    (hpreswap : (preswapArm config reader target setup).run = .ok preswap) {p : LiquidationPlan}
    (hp : p ∈ direct.toList ++ flash.toList ++ preswap.toList) :
    ∃ q, planFromSetup config reader target setup = .ok (some q) ∧
      p.repayAmount ≤ q.repayAmount := by
  obtain ⟨q, hq, hle⟩ := le_maxByRepayAmount hp
  refine ⟨q, ?_, hle⟩
  simp only [planFromSetup, hdirect, ok_bind, hsized, hflash, hpreswap, hq]
  rfl

/-- **When no mode suppresses another.** A Direct plan survives exactly when the Flash sizing goes through
and the later arms do not abort; a Flash plan, when the other arms do not abort. -/
theorem plan_keeps_modes_iff (config : LiquidatorConfig) (reader : LedgerReader)
    (target : PlanTarget) (now : ℕ) (setup : PlanSetup)
    (hsetup : (planSetup config reader target now).run = .ok (some setup)) :
    (∀ p, (directArm config target setup).run = .ok (some p) →
      ((∃ q, buildLiquidationPlanForAssetPoolPair config reader target now = .ok (some q) ∧
          p.repayAmount ≤ q.repayAmount) ↔
        FlashSizes target setup ∧
          (∀ r, (flashRepay target setup).run = .ok (some r) →
            Returns (flashArm config reader target setup r).run) ∧
          Returns (preswapArm config reader target setup).run)) ∧
    ∀ r p, (flashRepay target setup).run = .ok (some r) →
      (flashArm config reader target setup r).run = .ok (some p) →
      ((∃ q, buildLiquidationPlanForAssetPoolPair config reader target now = .ok (some q) ∧
          p.repayAmount ≤ q.repayAmount) ↔
        Returns (directArm config target setup).run ∧
          Returns (preswapArm config reader target setup).run) := by
  have hbuild : buildLiquidationPlanForAssetPoolPair config reader target now =
      planFromSetup config reader target setup := by
    rw [buildLiquidationPlanForAssetPoolPair, hsetup, ok_bind]
  rw [hbuild]
  refine ⟨fun p hp => ⟨?_, ?_⟩, fun r p hr hp => ⟨?_, ?_⟩⟩
  · rintro ⟨q, hq, -⟩
    obtain ⟨-, r, hr, hflash, hpreswap⟩ := planFromSetup_eq_some hq
    refine ⟨flashRepay_isSome_iff.mp ⟨r, hr⟩, fun r' hr' => ?_, hpreswap⟩
    rw [hr, Except.ok.injEq, Option.some.injEq] at hr'
    rw [← hr']
    exact hflash
  · rintro ⟨hsizes, hflash, preswap, hpreswap⟩
    obtain ⟨r, hr⟩ := flashRepay_isSome_iff.mpr hsizes
    obtain ⟨flash, hflash⟩ := hflash r hr
    exact le_planFromSetup hp hr hflash hpreswap (by simp)
  · rintro ⟨q, hq, -⟩
    obtain ⟨hdirect, -, -, -, hpreswap⟩ := planFromSetup_eq_some hq
    exact ⟨hdirect, hpreswap⟩
  · rintro ⟨⟨direct, hdirect⟩, preswap, hpreswap⟩
    exact le_planFromSetup hdirect hr hp hpreswap (by simp)

end Modes

/-! ## A wallet that covers the repay -/

/-- A sweep market, no slippage, one provider. -/
def planConfig : LiquidatorConfig where
  dustRules := .sweep
  minProfitMarginCents := 0
  xlmAddress := "XLM"
  xlmSafetyMargin := 0
  maxAllowedSwapSlippageBps := 0
  assetsToHold := ["USDC"]
  swapProviders := ["DEX"]

/-- 100,000 of every token, and swaps that quote 1:1. -/
def planReader : LedgerReader where
  balance _ := some 1000000000000
  amountOut amount _ _ _ := some amount
  amountIn amount _ _ _ := some amount

/-- The borrow pool of the planning tests: $9,000 of it is available. -/
def planBorrowPool : PoolData :=
  { dustPool "USDC" usd with
    totalSupply := 100000000000
    totalJTokens := 100000000000
    totalBorrowed := 10000000000
    totalDTokens := 10000000000
    totalAvailableAdjusted := 90000000000 }

/-- $100 owed against $105 of gold, of which `jTokens` are supplied to a fully borrowed pool. -/
def planTarget (jTokens plain : ℤ) : PlanTarget where
  isInsolvent := false
  borrowDTokens := 1000000000
  borrowPool := planBorrowPool
  marketData := { dustMarket usd with poolsData := [planBorrowPool, dustPool "GOLD" usd] }
  collateralPool := dustPool "GOLD" usd
  obligation := {
    borrows := [{ dTokens := 1000000000, poolAddress := "USDC" }]
    deposits := [{ jTokens, collateral := plain, poolAddress := "GOLD" }]
    openBadDebtRequests := 0 }
  deposit := { jTokens, collateral := plain, poolAddress := "GOLD" }
  borrowerKey := { user := "BORROWER", seed := none }
  margin := .initial

/-- The setup both targets share, up to the pair. -/
def planSetupOf (jTokens plain : ℤ) : PlanSetup where
  pair := {
    rules := .sweep
    borrowPool := planBorrowPool
    collateralPool := dustPool "GOLD" usd
    deposit := { jTokens, collateral := plain, poolAddress := "GOLD" }
    positionDebt := 1000000000
    obligationDebtValue := 10000000000000000
    obligationCollateralValue := 10500000000000000
    isInsolvent := false
    minCollateralValueCents := 500
    oraclePriceDecimals := 14
    debtAccrualBps := 0
    supplyAccrualBps := 0
    margin := .initial }
  liftsCloseFactor := false
  maxFeasibleRepay := 500000000
  maxProfitableRepay := 500000000
  profitMarginBorrow := 0
  usableBorrow := 1000000000000
  minProfitMarginValue := 0

/-- The Direct plan on both targets. -/
def directPlan : LiquidationPlan where
  repayAmount := 500000000
  netProfitValue := 244750000000000
  borrowerKey := { user := "BORROWER", seed := none }
  borrowPoolAddress := "USDC"
  collateralPoolAddress := "GOLD"
  expectedSeizedCollateral := 524475000
  liquidationType := .direct

/-- Plain gold: the Direct plan is kept or beaten. -/
theorem plain_collateral_keeps_the_direct_plan :
    ∃ q, buildLiquidationPlanForAssetPoolPair planConfig planReader (planTarget 0 1050000000) 0 =
      .ok (some q) ∧ directPlan.repayAmount ≤ q.repayAmount := by
  refine ((plan_keeps_modes_iff planConfig planReader (planTarget 0 1050000000) 0
    (planSetupOf 0 1050000000) (by decide +kernel)).1 directPlan (by decide +kernel)).mpr
      ⟨?_, fun r hr => ?_, by decide +kernel⟩
  · exact .inr ⟨0, 0, 500000000, by decide +kernel, by decide +kernel, by decide, by decide +kernel,
      by decide⟩
  · have h500 : (flashRepay (planTarget 0 1050000000) (planSetupOf 0 1050000000)).run =
        .ok (some 500000000) := by decide +kernel
    obtain rfl : (500000000 : ℤ) = r := run_unique h500 hr
    decide +kernel

/-- Supplied gold in a fully borrowed pool: the Flash sizing fails and takes the Direct plan with it. -/
theorem flash_sizing_drops_the_direct_plan :
    (planSetup planConfig planReader (planTarget 1050000000 0) 0).run =
        .ok (some (planSetupOf 1050000000 0)) ∧
      (directArm planConfig (planTarget 1050000000 0) (planSetupOf 1050000000 0)).run =
        .ok (some directPlan) ∧
      buildLiquidationPlanForAssetPoolPair planConfig planReader (planTarget 1050000000 0) 0 =
        .ok none := by
  decide +kernel

end AlulaKeeper
