import Mathlib
import AlulaKeeper.Lib.Loop
import AlulaKeeper.Keeper.PlanSpec

/-!
# Holding one more asset

`try_preswap_plan` tries every held asset and keeps the plan that repays the most. An asset that cannot be
swapped is passed over; one whose repay seizes nothing, or whose profit cannot be computed, returns from the
whole loop.

* `tryPreswapPlan_go_eq_run`: the loop keeps the first plan of the largest repay.
* `SeizesNothing`, `ProfitUnknown`: the assets that stop it.
* `held_assets_iff`: when a longer list of held assets does not lose the plan.
-/

namespace AlulaKeeper

open I128 Loop

section Preswap

variable (config : LiquidatorConfig) (reader : LedgerReader) (target : PlanTarget) (setup : PlanSetup)
  (maxRepay : ℤ)

/-! ## The turn of one asset -/

/-- The swap of `asset` into the borrow token is sized. -/
def SwapSized (asset provider : Address) (amountIn amountOut : ℤ) : Prop :=
  asset ≠ target.borrowPool.tokenAddress ∧ ∃ raw, reader.balance asset = some raw ∧
    0 < usableBalance config asset raw ∧
    preswapSwap config reader target maxRepay asset (usableBalance config asset raw) =
      .ok (some (provider, amountIn, amountOut))

/-- What `asset` swaps into is repaid and seizes nothing. -/
def SeizesNothing (asset : Address) : Prop :=
  ∃ provider amountIn amountOut repay, SwapSized config reader target maxRepay asset provider amountIn amountOut ∧
    (planFitRepay setup.pair amountOut amountOut).run = .ok (some repay) ∧
    (computeSeized config target repay).run = .ok none

/-- The profit of what `asset` swaps into cannot be computed. -/
def ProfitUnknown (asset : Address) : Prop :=
  ∃ provider amountIn amountOut repay seized repaid pool refund spent gain,
    SwapSized config reader target maxRepay asset provider amountIn amountOut ∧
    (planFitRepay setup.pair amountOut amountOut).run = .ok (some repay) ∧
    (computeSeized config target repay).run = .ok (some (seized, repaid)) ∧
    target.marketData.poolsData.find? (fun p => p.tokenAddress == asset) = some pool ∧
    saturatingValue (saturatingSub repay repaid) target.borrowPool = .ok refund ∧
    saturatingValue amountIn pool = .ok spent ∧ saturatingValue seized target.collateralPool = .ok gain ∧
    toOption (computeLiquidationProfitability gain (saturatingSub spent refund)
      setup.minProfitMarginValue) = .ok none

/-- The turn as the loop sees it. -/
def PreswapStep.turn : PreswapStep → Turn LiquidationPlan
  | .skip => .skip
  | .stop => .stop
  | .plan best => .keep best

/-- The body of the loop. -/
def assetTurn (asset : Address) : Res (Turn LiquidationPlan) := do
  return (← preswapStep config reader target setup maxRepay asset).turn

variable {config reader target setup maxRepay} {asset : Address} {held : List Address}
  {plan : LiquidationPlan}

theorem tryPreswapPlan_go_eq_run (best : Option LiquidationPlan) :
    tryPreswapPlan.go config reader target setup maxRepay held best =
      run (assetTurn config reader target setup maxRepay)
        (List.argAux fun b c => c.repayAmount < b.repayAmount) none best held := by
  induction held generalizing best with
  | nil => rfl
  | cons asset held ih =>
    rw [tryPreswapPlan.go, run, assetTurn]
    cases preswapStep config reader target setup maxRepay asset with
    | error fault => rfl
    | ok step =>
      cases step with
      | skip => exact ih best
      | stop => rfl
      | plan plan =>
        cases best with
        | none => exact ih (some plan)
        | some b => exact ih (if b.repayAmount < plan.repayAmount then some plan else some b)

theorem preswapJudge_stop {provider : Address} {amountIn amountOut : ℤ} :
    preswapJudge config target setup asset provider amountIn amountOut = .ok .stop ↔
      ∃ repay, (planFitRepay setup.pair amountOut amountOut).run = .ok (some repay) ∧
        ((computeSeized config target repay).run = .ok none ∨
          ∃ seized repaid pool refund spent gain,
            (computeSeized config target repay).run = .ok (some (seized, repaid)) ∧
            target.marketData.poolsData.find? (fun p => p.tokenAddress == asset) = some pool ∧
            saturatingValue (saturatingSub repay repaid) target.borrowPool = .ok refund ∧
            saturatingValue amountIn pool = .ok spent ∧
            saturatingValue seized target.collateralPool = .ok gain ∧
            toOption (computeLiquidationProfitability gain (saturatingSub spent refund)
              setup.minProfitMarginValue) = .ok none) := by
  unfold preswapJudge
  rw [bind_eq_ok]
  constructor
  · rintro ⟨fit, hfit, h⟩
    cases fit with
    | none => cases h
    | some repay =>
      refine ⟨repay, hfit, ?_⟩
      obtain ⟨seized?, hseized, h⟩ := bind_eq_ok.mp h
      cases seized? with
      | none => exact .inl hseized
      | some both =>
        obtain ⟨seized, repaid⟩ := both
        dsimp only at h
        split at h
        · cases h
        rename_i pool hpool
        obtain ⟨refund, hrefund, h⟩ := bind_eq_ok.mp h
        obtain ⟨spent, hspent, h⟩ := bind_eq_ok.mp h
        obtain ⟨gain, hgain, h⟩ := bind_eq_ok.mp h
        obtain ⟨profit?, hprofit, h⟩ := bind_eq_ok.mp h
        refine .inr ⟨seized, repaid, pool, refund, spent, gain, hseized, hpool, hrefund, hspent, hgain, ?_⟩
        cases profit? with
        | none => exact hprofit
        | some profit =>
          dsimp only at h
          split_ifs at h <;> cases h
  · rintro ⟨repay, hfit, hstop⟩
    refine ⟨some repay, hfit, ?_⟩
    obtain hseized | ⟨seized, repaid, pool, refund, spent, gain, hseized, hpool, hrefund, hspent, hgain,
      hprofit⟩ := hstop
    · exact bind_eq_ok.mpr ⟨none, hseized, rfl⟩
    · refine bind_eq_ok.mpr ⟨some (seized, repaid), hseized, ?_⟩
      dsimp only
      rw [hpool]
      dsimp only
      rw [hrefund, ok_bind, hspent, ok_bind, hgain, ok_bind, hprofit]
      rfl

theorem preswapStep_eq_ok_iff {step : PreswapStep} (hne : step ≠ .skip) :
    preswapStep config reader target setup maxRepay asset = .ok step ↔
      ∃ provider amountIn amountOut,
        SwapSized config reader target maxRepay asset provider amountIn amountOut ∧
        preswapJudge config target setup asset provider amountIn amountOut = .ok step := by
  have hskip : (pure PreswapStep.skip : Res PreswapStep) ≠ .ok step := fun h => hne (pure_eq_ok.mp h).symm
  unfold preswapStep SwapSized
  by_cases hsame : asset = target.borrowPool.tokenAddress
  · simp [hsame, hne.symm]
  rw [if_neg hsame]
  cases hraw : reader.balance asset with
  | none => simp [hne.symm]
  | some raw =>
    dsimp only
    by_cases hpos : 0 < usableBalance config asset raw
    · rw [if_neg (not_not.mpr hpos), bind_eq_ok]
      constructor
      · rintro ⟨swap, hswap, h⟩
        cases swap with
        | none => exact absurd h hskip
        | some swap =>
          obtain ⟨provider, amountIn, amountOut⟩ := swap
          exact ⟨provider, amountIn, amountOut, ⟨hsame, raw, rfl, hpos, hswap⟩, h⟩
      · rintro ⟨provider, amountIn, amountOut, ⟨-, raw', hraw', -, hswap⟩, h⟩
        obtain rfl := Option.some.inj hraw'
        exact ⟨_, hswap, h⟩
    · rw [if_pos hpos]
      constructor
      · exact fun h => absurd h hskip
      · rintro ⟨provider, amountIn, amountOut, ⟨-, raw', hraw', hpos', -⟩, -⟩
        obtain rfl := Option.some.inj hraw'
        exact absurd hpos' hpos

theorem assetTurn_eq_ok_iff (step : PreswapStep) :
    assetTurn config reader target setup maxRepay asset = .ok step.turn ↔
      preswapStep config reader target setup maxRepay asset = .ok step := by
  rw [assetTurn, bind_eq_ok]
  constructor
  · rintro ⟨step', hstep, h⟩
    have hturn := pure_eq_ok.mp h
    cases step' <;> cases step <;> cases hturn <;> exact hstep
  · exact fun hstep => ⟨step, hstep, rfl⟩

/-- **What stops the loop** is an asset that seizes nothing or whose profit is unknown. -/
theorem assetTurn_stop :
    assetTurn config reader target setup maxRepay asset = .ok .stop ↔
      SeizesNothing config reader target setup maxRepay asset ∨
        ProfitUnknown config reader target setup maxRepay asset := by
  have hturn : assetTurn config reader target setup maxRepay asset = .ok .stop ↔
      preswapStep config reader target setup maxRepay asset = .ok .stop :=
    assetTurn_eq_ok_iff .stop
  rw [hturn, preswapStep_eq_ok_iff (by decide)]
  constructor
  · rintro ⟨provider, amountIn, amountOut, hswap, hjudge⟩
    obtain ⟨repay, hfit, hseized | ⟨seized, repaid, pool, refund, spent, gain, h⟩⟩ :=
      preswapJudge_stop.mp hjudge
    · exact .inl ⟨provider, amountIn, amountOut, repay, hswap, hfit, hseized⟩
    · exact .inr ⟨provider, amountIn, amountOut, repay, seized, repaid, pool, refund, spent, gain, hswap,
        hfit, h⟩
  · rintro (⟨provider, amountIn, amountOut, repay, hswap, hfit, hseized⟩ |
      ⟨provider, amountIn, amountOut, repay, seized, repaid, pool, refund, spent, gain, hswap, hfit, h⟩)
    · exact ⟨provider, amountIn, amountOut, hswap, preswapJudge_stop.mpr ⟨repay, hfit, .inl hseized⟩⟩
    · exact ⟨provider, amountIn, amountOut, hswap, preswapJudge_stop.mpr ⟨repay, hfit,
        .inr ⟨seized, repaid, pool, refund, spent, gain, h⟩⟩⟩

variable (config reader target setup maxRepay) in
/-- The loop goes on after `asset`: it seizes something, its profit is known and nothing panics. -/
def PassesOver (asset : Address) : Prop :=
  ¬ SeizesNothing config reader target setup maxRepay asset ∧
    ¬ ProfitUnknown config reader target setup maxRepay asset ∧
    Returns (preswapStep config reader target setup maxRepay asset)

theorem goesOn_assetTurn : GoesOn (assetTurn config reader target setup maxRepay) asset ↔
    PassesOver config reader target setup maxRepay asset := by
  have hreturns : Returns (assetTurn config reader target setup maxRepay asset) ↔
      Returns (preswapStep config reader target setup maxRepay asset) := by
    unfold assetTurn Returns
    cases preswapStep config reader target setup maxRepay asset <;> simp
  unfold PassesOver
  rw [← and_assoc, ← not_or, ← assetTurn_stop, ← hreturns]
  constructor
  · rintro ⟨turn, hturn, hne⟩
    exact ⟨fun hstop => hne (ok_unique hturn hstop), turn, hturn⟩
  · rintro ⟨hne, turn, hturn⟩
    exact ⟨turn, hturn, fun hstop => hne (hstop ▸ hturn)⟩

/-! ## The held assets -/

/-- A plan comes out of the loop when it goes on after every asset: the first of the largest repay. -/
theorem tryPreswapPlan_run_iff :
    (tryPreswapPlan { config with assetsToHold := held } reader target setup maxRepay).run =
        .ok (some plan) ↔
      (∀ asset ∈ held, PassesOver config reader target setup maxRepay asset) ∧
        (held.filterMap (kept (assetTurn config reader target setup maxRepay))).argmax
          LiquidationPlan.repayAmount = some plan := by
  -- the turns do not read the list
  have hgo : (tryPreswapPlan { config with assetsToHold := held } reader target setup maxRepay).run =
      tryPreswapPlan.go { config with assetsToHold := held } reader target setup maxRepay held none := rfl
  have hbody : assetTurn { config with assetsToHold := held } reader target setup maxRepay =
      assetTurn config reader target setup maxRepay := rfl
  rw [hgo, tryPreswapPlan_go_eq_run, hbody]
  simp only [← goesOn_assetTurn]
  constructor
  · intro h
    obtain hall | ⟨-, hstopped⟩ := run_eq_ok_cases h
    · rw [run_of_goesOn hall, Except.ok.injEq] at h
      exact ⟨hall, h⟩
    · cases hstopped
  · rintro ⟨hall, hbest⟩
    rw [run_of_goesOn hall, Except.ok.injEq]
    exact hbest

theorem exists_plan_of_keep {kept : LiquidationPlan}
    (hpass : ∀ asset ∈ held, PassesOver config reader target setup maxRepay asset) (hasset : asset ∈ held)
    (hturn : assetTurn config reader target setup maxRepay asset = .ok (.keep kept)) :
    ∃ plan, (tryPreswapPlan { config with assetsToHold := held } reader target setup maxRepay).run =
      .ok (some plan) ∧ kept.repayAmount ≤ plan.repayAmount := by
  have hmem := mem_keeps.mpr ⟨asset, hasset, hturn⟩
  cases hbest : (held.filterMap (Loop.kept (assetTurn config reader target setup maxRepay))).argmax
      LiquidationPlan.repayAmount with
  | none =>
    rw [List.argmax_eq_none] at hbest
    rw [hbest] at hmem
    exact (List.not_mem_nil hmem).elim
  | some plan =>
    exact ⟨plan, tryPreswapPlan_run_iff.mpr ⟨hpass, hbest⟩, List.le_of_mem_argmax hmem hbest⟩

theorem exists_keep_of_plan
    (h : (tryPreswapPlan { config with assetsToHold := held } reader target setup maxRepay).run =
      .ok (some plan)) :
    (∀ asset ∈ held, PassesOver config reader target setup maxRepay asset) ∧
      ∃ asset ∈ held, assetTurn config reader target setup maxRepay asset = .ok (.keep plan) := by
  obtain ⟨hpass, hbest⟩ := tryPreswapPlan_run_iff.mp h
  exact ⟨hpass, mem_keeps.mp (List.argmax_mem hbest)⟩

/-- **When holding more assets keeps the plan.** With a list that contains the held assets, the loop still
returns a plan, of at least the repay, exactly when it goes on after every asset of the list. Without
further assets it always does, with the same repay. -/
theorem held_assets_iff (config : LiquidatorConfig) (reader : LedgerReader) (target : PlanTarget)
    (setup : PlanSetup) (maxRepay : ℤ) (held held' : List Address) (plan : LiquidationPlan)
    (hsub : held ⊆ held')
    (h : (tryPreswapPlan { config with assetsToHold := held } reader target setup maxRepay).run =
      .ok (some plan)) :
    ((∃ plan', (tryPreswapPlan { config with assetsToHold := held' } reader target setup maxRepay).run =
          .ok (some plan') ∧ plan.repayAmount ≤ plan'.repayAmount) ↔
        ∀ asset ∈ held', PassesOver config reader target setup maxRepay asset) ∧
      (held' ⊆ held →
        ∃ plan', (tryPreswapPlan { config with assetsToHold := held' } reader target setup maxRepay).run =
          .ok (some plan') ∧ plan'.repayAmount = plan.repayAmount) := by
  obtain ⟨hpass, asset, hasset, hturn⟩ := exists_keep_of_plan h
  refine ⟨⟨?_, fun hpass' => exists_plan_of_keep hpass' (hsub hasset) hturn⟩, fun hsub' => ?_⟩
  · rintro ⟨plan', h', -⟩
    exact (exists_keep_of_plan h').1
  · have hpass' := fun a ha => hpass a (hsub' ha)
    obtain ⟨plan', h', hle⟩ := exists_plan_of_keep hpass' (hsub hasset) hturn
    obtain ⟨-, asset', hasset', hturn'⟩ := exists_keep_of_plan h'
    obtain ⟨plan'', h'', hge⟩ := exists_plan_of_keep hpass (hsub' hasset') hturn'
    obtain rfl := run_unique h h''
    exact ⟨plan', h', le_antisymm hge hle⟩

end Preswap

/-! ## A dust balance -/

/-- The planning tests with slippage, and a market that lists the euro coin. -/
def heldConfig (held : List Address) : LiquidatorConfig :=
  { planConfig with assetsToHold := held, maxAllowedSwapSlippageBps := 100 }

/-- One stroop of XLM. -/
def heldReader : LedgerReader :=
  { planReader with balance := fun asset => some (if asset = "XLM" then 1 else 1000000000000) }

/-- A target whose market prices all that is held. -/
def heldTarget : PlanTarget :=
  { planTarget 0 1050000000 with
    marketData := { dustMarket usd with
      poolsData := [planBorrowPool, dustPool "GOLD" usd, dustPool "EURC" usd, dustPool "XLM" usd] } }

/-- The plan the euro coin pays for. -/
def heldPlan : LiquidationPlan where
  repayAmount := 500000000
  netProfitValue := 194750000000000
  borrowerKey := { user := "BORROWER", seed := none }
  borrowPoolAddress := "USDC"
  collateralPoolAddress := "GOLD"
  expectedSeizedCollateral := 524475000
  liquidationType := .preSwap "DEX" 500000000 505000000 "EURC"

/-- Holding the borrow token too changes nothing. -/
theorem holding_the_borrow_token_keeps_the_plan :
    (tryPreswapPlan (heldConfig ["EURC"]) heldReader heldTarget (planSetupOf 0 1050000000) 500000000).run =
        .ok (some heldPlan) ∧
      ∃ plan', (tryPreswapPlan (heldConfig ["USDC", "EURC"]) heldReader heldTarget
          (planSetupOf 0 1050000000) 500000000).run = .ok (some plan') ∧
        heldPlan.repayAmount ≤ plan'.repayAmount := by
  refine ⟨by decide +kernel, (held_assets_iff (heldConfig []) heldReader heldTarget (planSetupOf 0 1050000000)
    500000000 ["EURC"] ["USDC", "EURC"] heldPlan (by decide) (by decide +kernel)).1.mpr ?_⟩
  have husdc : assetTurn (heldConfig []) heldReader heldTarget (planSetupOf 0 1050000000) 500000000 "USDC" =
      .ok .skip := by decide +kernel
  have heurc : assetTurn (heldConfig []) heldReader heldTarget (planSetupOf 0 1050000000) 500000000 "EURC" =
      .ok (.keep heldPlan) := by decide +kernel
  intro asset hasset
  rw [List.mem_cons, List.mem_singleton] at hasset
  rw [← goesOn_assetTurn]
  obtain rfl | rfl := hasset
  · exact ⟨_, husdc, by decide⟩
  · exact ⟨_, heurc, by decide⟩

/-- **A stroop of another asset loses the plan.** Its swap rounds down to a repay of nothing, and the loop
returns without the plan it had. -/
theorem dust_balance_loses_the_plan :
    (tryPreswapPlan (heldConfig ["EURC"]) heldReader heldTarget (planSetupOf 0 1050000000) 500000000).run =
        .ok (some heldPlan) ∧
      (tryPreswapPlan (heldConfig ["EURC", "XLM"]) heldReader heldTarget (planSetupOf 0 1050000000)
        500000000).run = .ok none := by
  decide +kernel

end AlulaKeeper
