import Mathlib
import AlulaKeeper.Sizing.Reach
import AlulaKeeper.Keeper.PlanSpec

/-!
# What a flash plan withdraws

The Flash repay is sized from the collateral available at once, and the seizure is quoted for the offer fitted
afterwards.

* `flashOffer`: the offer of the Flash candidate.
* `build_flash`: a Flash plan is `tryFlashPlan` at that offer.
* `StaysAvailable`: the offer does not reach past the collateral available at once.
* `flash_withdraws_available_iff`: when a flash plan withdraws only what is available at once.
-/

namespace AlulaKeeper

open I128

/-- The offer of the Flash candidate: the Flash repay, fitted. -/
def flashOffer (target : PlanTarget) (setup : PlanSetup) : Planning ℤ := do
  let repay ← flashRepay target setup
  planFitRepay setup.pair repay target.borrowPool.totalAvailableAdjusted

/-- All the shares are available at once, or the Flash offer does not reach past the plain collateral and
what is available. -/
def StaysAvailable (config : LiquidatorConfig) (reader : LedgerReader) (target : PlanTarget) (now : ℕ) :
    Prop :=
  ∃ setup offer supplied available,
    (planSetup config reader target now).run = .ok (some setup) ∧
    (flashOffer target setup).run = .ok (some offer) ∧
    target.collateralPool.jTokensToTokensFloor target.deposit.jTokens = .ok supplied ∧
    target.collateralPool.availableForBorrow = .ok available ∧
    (0 ≤ available ∨ setup.pair.Reaches offer target.deposit.collateral) ∧
    (supplied ≤ available ∨ ¬ setup.pair.Reaches offer (target.deposit.collateral + available))

section Withdrawal

variable {config : LiquidatorConfig} {reader : LedgerReader} {target : PlanTarget} {now : ℕ}
  {setup : PlanSetup} {plan : LiquidationPlan} {flashRepayAmount withdrawn : ℤ} {provider : Address}

/-- **A Flash plan comes from the Flash offer.** -/
theorem build_flash (h : buildLiquidationPlanForAssetPoolPair config reader target now = .ok (some plan))
    (hkind : plan.liquidationType = .flash flashRepayAmount provider withdrawn) :
    ∃ setup offer supplied available, Setup config reader target now setup ∧
      (flashOffer target setup).run = .ok (some offer) ∧
      target.collateralPool.jTokensToTokensFloor target.deposit.jTokens = .ok supplied ∧
      target.collateralPool.availableForBorrow = .ok available ∧
      (tryFlashPlan config reader target setup offer).run = .ok (some plan) := by
  obtain ⟨setup, hsetup, hdirect | ⟨repay, hrepay, hflash⟩ | hpreswap⟩ := build_run h
  · obtain ⟨_, -, -, hplan⟩ := directArm_run_iff.mp hdirect
    obtain ⟨_, _, _, _, _, -, -, -, -, -, rfl⟩ := tryDirectPlan_run_iff.mp hplan
    cases hkind
  · obtain ⟨hpos, offer, hfit, hplan⟩ := flashArm_run hflash
    obtain ⟨-, supplied, available, _, hsupplied, havailable, -, -⟩ := flashRepay_run hrepay hpos
    exact ⟨setup, offer, supplied, available, hsetup,
      planning_bind.mpr ⟨repay, hrepay, planFitRepay_run_iff.mpr hfit⟩, hsupplied, havailable, hplan⟩
  · obtain ⟨_, -, _, -, hstep⟩ := preswapArm_run hpreswap
    obtain ⟨_, _, _, _, -, -, -, hjudge⟩ := preswapStep_plan hstep
    obtain ⟨_, _, _, _, _, _, -, -, -, -, rfl⟩ := preswapJudge_plan hjudge
    cases hkind

/-- A reach does not depend on the accrual and the margin of the pair. -/
theorem Setup.reaches_iff (hsetup : Setup config reader target now setup) {pair : LiquidationPair}
    (hpair : LiquidationPair.new config.dustRules target.obligation target.marketData target.borrowPool
      target.collateralPool target.deposit target.isInsolvent = .ok pair) {offer n : ℤ} :
    setup.pair.Reaches offer n ↔ pair.Reaches offer n := by
  obtain ⟨fresh, hfresh, heq⟩ := hsetup.pair
  obtain rfl : fresh = pair := ok_unique hfresh hpair
  rw [heq]
  exact Iff.rfl

theorem withdrawn_le_iff {plain supplied seized available : ℤ}
    (h : seized ≤ plain ∧ withdrawn = 0 ∨ plain < seized ∧ withdrawn = min supplied (seized - plain)) :
    withdrawn ≤ available ↔
      (0 ≤ available ∨ plain < seized) ∧ (supplied ≤ available ∨ ¬ plain + available < seized) := by
  omega

/-- **When a flash plan withdraws only what is available at once.** -/
theorem flash_withdraws_available_iff (config : LiquidatorConfig) (reader : LedgerReader)
    (target : PlanTarget) (now : ℕ) (plan : LiquidationPlan) (flashRepayAmount : ℤ) (provider : Address)
    (immediateWithdrawAmount : ℤ)
    (h : buildLiquidationPlanForAssetPoolPair config reader target now = .ok (some plan))
    (hkind : plan.liquidationType = .flash flashRepayAmount provider immediateWithdrawAmount) :
    (∃ available, target.collateralPool.availableForBorrow = .ok available ∧
      immediateWithdrawAmount ≤ available) ↔ StaysAvailable config reader target now := by
  obtain ⟨setup, offer, supplied, available, hsetup, hoffer, hsupplied, havailable, hplan⟩ :=
    build_flash h hkind
  obtain ⟨seized, _, _, withdrawn, _, _, _, _, _, _, hseized, hsplit, -, -, -, -, -, rfl⟩ :=
    tryFlashPlan_run hplan
  cases hkind
  obtain ⟨pair, hpair, hquote, hpos⟩ := computeSeized_run_iff.mp hseized
  obtain ⟨-, hsplit⟩ := splitSeizure_run hsplit
  have hwithdrawn : seized ≤ target.deposit.collateral ∧ immediateWithdrawAmount = 0 ∨
      target.deposit.collateral < seized ∧
        immediateWithdrawAmount = min supplied (seized - target.deposit.collateral) := by
    obtain hplain | ⟨hlt, supplied', hsupplied', heq⟩ := hsplit
    · exact .inl hplain
    · obtain rfl : supplied' = supplied := ok_unique hsupplied' hsupplied
      exact .inr ⟨hlt, heq⟩
  have hle : immediateWithdrawAmount ≤ available ↔
      (0 ≤ available ∨ setup.pair.Reaches offer target.deposit.collateral) ∧
        (supplied ≤ available ∨ ¬ setup.pair.Reaches offer (target.deposit.collateral + available)) := by
    rw [hsetup.reaches_iff hpair, hsetup.reaches_iff hpair, ← LiquidationPair.lt_seized_iff hquote hpos,
      ← LiquidationPair.lt_seized_iff hquote hpos]
    exact withdrawn_le_iff hwithdrawn
  constructor
  · rintro ⟨available', havailable', hw⟩
    obtain rfl : available' = available := ok_unique havailable' havailable
    exact ⟨setup, offer, supplied, available', planSetup_run_iff.mpr hsetup, hoffer, hsupplied, havailable,
      hle.mp hw⟩
  · rintro ⟨setup', offer', supplied', available', hsetup', hoffer', hsupplied', havailable', hstays⟩
    obtain rfl : setup' = setup :=
      run_unique hsetup' (planSetup_run_iff.mpr hsetup)
    obtain rfl : offer' = offer := run_unique hoffer' hoffer
    obtain rfl : supplied' = supplied := ok_unique hsupplied' hsupplied
    obtain rfl : available' = available := ok_unique havailable' havailable
    exact ⟨available', havailable, hle.mpr hstays⟩

end Withdrawal

/-! ## Supplied gold that is lent out -/

/-- `debt` owed against `shares` of gold, in a gold pool of `supply` with `borrowed` of it lent out. -/
def lentTarget (debt shares supply borrowed : ℤ) : PlanTarget :=
  let collateralPool := { dustPool "GOLD" usd with
    totalSupply := supply
    totalJTokens := supply
    totalBorrowed := borrowed
    totalDTokens := borrowed }
  { planTarget shares 0 with
    borrowDTokens := debt
    collateralPool
    marketData := { dustMarket usd with poolsData := [planBorrowPool, collateralPool] }
    obligation := {
      borrows := [{ dTokens := debt, poolAddress := "USDC" }]
      deposits := [{ jTokens := shares, collateral := 0, poolAddress := "GOLD" }]
      openBadDebtRequests := 0 } }

/-- A keeper without a wallet. -/
def emptyReader : LedgerReader := { planReader with balance := fun _ => none }

/-- A flash plan that withdraws all it seizes. -/
def withdrawingPlan (repayAmount netProfitValue flashRepayAmount withdrawn : ℤ) : LiquidationPlan where
  repayAmount
  netProfitValue
  borrowerKey := { user := "BORROWER", seed := none }
  borrowPoolAddress := "USDC"
  collateralPoolAddress := "GOLD"
  expectedSeizedCollateral := withdrawn
  liquidationType := .flash flashRepayAmount "DEX" withdrawn

/-- With $50 of gold available and a margin of $1, $48.95 are withdrawn. -/
theorem fifty_dollars_stay_available :
    StaysAvailable { planConfig with minProfitMarginCents := 100 } emptyReader
      (lentTarget 1000000000 1050000000 10000000000 8500000000) 0 :=
  (flash_withdraws_available_iff { planConfig with minProfitMarginCents := 100 } emptyReader
    (lentTarget 1000000000 1050000000 10000000000 8500000000) 0
    (withdrawingPlan 466689865 226111230000000 466923210 489534333) 466923210 "DEX" 489534333
    (by decide +kernel) rfl).mp ⟨500000000, by decide +kernel, by decide⟩

/-- **$8 are withdrawn where $5 are available.** On a sweep market the sweep takes the whole position; on a
no-dust market the offer is padded to clear it. -/
theorem eight_dollars_withdrawn_of_five :
    (lentTarget 76000000 80000000 500000000 400000000).collateralPool.availableForBorrow = .ok 50000000 ∧
      buildLiquidationPlanForAssetPoolPair planConfig emptyReader
        (lentTarget 76000000 80000000 500000000 400000000) 0 =
          .ok (some (withdrawingPlan 38000000 419810000000000 38019000 80000000)) ∧
      buildLiquidationPlanForAssetPoolPair { planConfig with dustRules := .noDust } emptyReader
        (lentTarget 76000000 80000000 500000000 400000000) 0 =
          .ok (some (withdrawingPlan 73454546 72359990000000 73491274 80000000)) ∧
      ¬ (80000000 : ℤ) ≤ 50000000 :=
  ⟨by decide +kernel, by decide +kernel, by decide +kernel, by decide⟩

end AlulaKeeper
