import Mathlib
import AlulaKeeper.Sizing.Aborts
import AlulaKeeper.Sizing.Reach
import AlulaKeeper.Keeper.PlanSpec

/-!
# Plans are accepted, funded and within the loss budget

* `Reported`: the market contract's share rate and totals.
* `LiquidationPair.seized_le`: a seizure is within the shares at the pool's ratio.
* `LiquidationPlan.Funded`: each mode's capital covers the plan.
* `plan_accepted_and_funded`: every plan the planner returns.
-/

namespace AlulaKeeper

open I128

/-! ## Two valuations of the shares -/

/-- A deposit and its pool as the market contract reports them: positions are not negative, the shares are
among the pool's and their rate is rounded down. -/
structure Reported (deposit : DepositPosition) (pool : PoolData) : Prop where
  jTokens_nonneg : 0 ≤ deposit.jTokens
  collateral_nonneg : 0 ≤ deposit.collateral
  jTokens_le : deposit.jTokens ≤ pool.totalJTokens
  rate_floored : pool.jTokenRateFloorBps * pool.totalJTokens ≤ bpsFactor * pool.totalSupply

theorem Reported.rate_le_share {deposit : DepositPosition} {pool : PoolData} (h : Reported deposit pool)
    {supplied : ℤ} (hpos : 0 < fixedMulFloor deposit.jTokens pool.jTokenRateFloorBps)
    (hsupplied : pool.jTokensToTokensFloor deposit.jTokens = .ok supplied) :
    fixedMulFloor deposit.jTokens pool.jTokenRateFloorBps ≤ supplied := by
  have hprod : 0 < deposit.jTokens * pool.jTokenRateFloorBps :=
    not_le.mp fun hle => absurd hpos (not_lt.mpr (fixedMulFloor_nonpos hle))
  have hj : 0 < deposit.jTokens := by
    refine lt_of_le_of_ne h.jTokens_nonneg fun hzero => ?_
    rw [← hzero, zero_mul] at hprod
    exact lt_irrefl 0 hprod
  have hrate : 0 < pool.jTokenRateFloorBps := (mul_pos_iff_of_pos_left hj).mp hprod
  have htotal : 0 < pool.totalJTokens := hj.trans_le h.jTokens_le
  have hsupply : 0 ≤ pool.totalSupply := by
    have := (mul_pos hrate htotal).le.trans h.rate_floored
    exact nonneg_of_mul_nonneg_right this bpsFactor_pos
  rw [PoolData.jTokensToTokensFloor, PoolData.shareFloor, if_neg htotal.ne'] at hsupplied
  obtain ⟨_, hproduct, hsupplied⟩ := bind_eq_ok.mp hsupplied
  obtain ⟨hfits, rfl⟩ := checkedMul_eq_some.mp (mOu_eq_ok.mp hproduct)
  rw [rawDiv_of_pos hfits htotal, Except.ok.injEq,
    Int.tdiv_eq_ediv_of_nonneg (mul_nonneg hj.le hsupply)] at hsupplied
  rw [← hsupplied, Int.le_ediv_iff_mul_le htotal]
  refine le_of_mul_le_mul_right ?_ bpsFactor_pos
  calc fixedMulFloor deposit.jTokens pool.jTokenRateFloorBps * pool.totalJTokens * bpsFactor
      = fixedMulFloor deposit.jTokens pool.jTokenRateFloorBps * bpsFactor * pool.totalJTokens := by ring
    _ ≤ deposit.jTokens * pool.jTokenRateFloorBps * pool.totalJTokens :=
        mul_le_mul_of_nonneg_right (fixedMulFloor_mul_le hprod.le) htotal.le
    _ = deposit.jTokens * (pool.jTokenRateFloorBps * pool.totalJTokens) := by ring
    _ ≤ deposit.jTokens * (bpsFactor * pool.totalSupply) := mul_le_mul_of_nonneg_left h.rate_floored hj.le
    _ = deposit.jTokens * pool.totalSupply * bpsFactor := by ring

theorem LiquidationPair.seized_le {pair : LiquidationPair} {repay seized repaid supplied : ℤ}
    (hreported : Reported pair.deposit pair.collateralPool)
    (h : pair.quote repay = .ok (.accepted seized repaid)) (hplain : pair.deposit.collateral < seized)
    (hsupplied : pair.collateralPool.jTokensToTokensFloor pair.deposit.jTokens = .ok supplied) :
    seized ≤ supplied + pair.deposit.collateral := by
  have hpos : 0 < seized := hreported.collateral_nonneg.trans_lt hplain
  obtain ⟨position, hposition, hle⟩ := seized_le_position h hpos
  cases hrules : pair.rules with
  | sweep =>
    rw [LiquidationPair.position, hrules] at hposition
    obtain ⟨-, hsum⟩ := checkedAdd_eq_some.mp (mOu_eq_ok.mp hposition)
    have hshares := (lt_add_iff_pos_left _).mp ((hplain.trans_le hle).trans_eq hsum.symm)
    have hrate := hreported.rate_le_share hshares hsupplied
    linarith
  | noDust =>
    rw [LiquidationPair.position, hrules] at hposition
    obtain ⟨supplied', hsupplied', hposition⟩ := bind_eq_ok.mp hposition
    obtain rfl : supplied' = supplied := ok_unique hsupplied' hsupplied
    obtain ⟨-, hsum⟩ := checkedAdd_eq_some.mp (mOu_eq_ok.mp hposition)
    omega

/-! ## What a plan is paid from -/

theorem bestSwap_pos {answer : Address → Option ℤ} {better : ℤ → ℤ → Bool} {providers : List Address}
    {provider : Address} {amount : ℤ} (h : bestSwap answer better providers = some (provider, amount)) :
    0 < amount := by
  have key : ∀ p a, bestSwap answer better providers = some (p, a) → 0 < a := by
    refine List.foldlRecOn providers _ (motive := fun best => ∀ p a, best = some (p, a) → 0 < a) nofun ?_
    intro best ih p _ q a hbest
    split at hbest
    · rename_i amount _
      split_ifs at hbest with hpos
      · split at hbest
        · cases hbest
          exact hpos
        · split_ifs at hbest
          · cases hbest
            exact hpos
          · exact ih q a hbest
      · exact ih q a hbest
    · exact ih q a hbest
  exact key provider amount h

/-- Each mode's capital covers the plan: the wallet's borrow token, the swapped asset, or the borrow pool's
liquidity and the swap of what was seized. -/
def LiquidationPlan.Funded (config : LiquidatorConfig) (reader : LedgerReader) (target : PlanTarget)
    (plan : LiquidationPlan) : Prop :=
  match plan.liquidationType with
  | .direct => plan.repayAmount ≤ usableBalance config target.borrowPool.tokenAddress
      ((reader.balance target.borrowPool.tokenAddress).getD 0)
  | .preSwap _ minAmountOut sourceAmountIn sourceAsset => ∃ raw, reader.balance sourceAsset = some raw ∧
      sourceAmountIn ≤ usableBalance config sourceAsset raw ∧ plan.repayAmount ≤ minAmountOut
  | .flash flashRepayAmount swapProvider immediateWithdrawAmount =>
      target.borrowPool.isFlashLoanEnabled = true ∧
      plan.repayAmount ≤ target.borrowPool.totalAvailableAdjusted ∧
      (0 ≤ target.borrowPool.flashLoanFeeBps → flashRepayAmount = plan.repayAmount +
        ⌈(plan.repayAmount * target.borrowPool.flashLoanFeeBps / 10000 : ℚ)⌉) ∧
      min plan.expectedSeizedCollateral target.deposit.collateral + immediateWithdrawAmount =
        plan.expectedSeizedCollateral ∧
      ∃ amountOut, bestSwapQuote config reader plan.expectedSeizedCollateral
          target.collateralPool.tokenAddress target.borrowPool.tokenAddress =
            some (swapProvider, amountOut) ∧
        flashRepayAmount * bpsFactor ≤ amountOut * (bpsFactor - config.maxAllowedSwapSlippageBps)

/-- The market accepts the plan's repay for the collateral it expects, it nets more than the margin, and it
is funded. -/
structure LiquidationPlan.Sound (config : LiquidatorConfig) (reader : LedgerReader) (target : PlanTarget)
    (plan : LiquidationPlan) : Prop where
  repay_pos : 1 ≤ plan.repayAmount
  accepted : ∃ pair repaid, LiquidationPair.new config.dustRules target.obligation target.marketData
    target.borrowPool target.collateralPool target.deposit target.isInsolvent = .ok pair ∧
      pair.quote plan.repayAmount = .ok (.accepted plan.expectedSeizedCollateral repaid)
  seized_pos : 0 < plan.expectedSeizedCollateral
  nets : ∃ margin, saturatingCents config.minProfitMarginCents target.marketData.oraclePriceDecimals =
    .ok margin ∧ margin < plan.netProfitValue
  funded : plan.Funded config reader target

section Sound

variable {config : LiquidatorConfig} {reader : LedgerReader} {target : PlanTarget} {now : ℕ}
  {setup : PlanSetup} {plan : LiquidationPlan}

theorem netValue_gt {gain cost margin : ℤ} {p : LiquidationProfitability}
    (h : computeLiquidationProfitability gain cost margin = .ok p) (hacc : p.isAcceptable = true) :
    margin < p.netValue := by
  unfold computeLiquidationProfitability at h
  split_ifs at h
  · exact absurd h fail_ne_ok
  obtain ⟨net, -, h⟩ := bind_eq_ok.mp h
  cases h
  exact of_decide_eq_true hacc

theorem sound_of_seized {repay seized repaid gain cost : ℤ} {p : LiquidationProfitability}
    {kind : LiquidationType} (hsetup : Setup config reader target now setup)
    (hseized : (computeSeized config target repay).run = .ok (some (seized, repaid)))
    (hp : computeLiquidationProfitability gain cost setup.minProfitMarginValue = .ok p)
    (hacc : p.isAcceptable = true)
    (hfunded : (target.plan repay seized p.netValue kind).Funded config reader target) :
    (target.plan repay seized p.netValue kind).Sound config reader target := by
  obtain ⟨pair, hpair, hquote, hpos⟩ := computeSeized_run_iff.mp hseized
  exact {
    repay_pos := LiquidationPair.repay_pos_of_seized hquote hpos
    accepted := ⟨pair, repaid, hpair, hquote⟩
    seized_pos := hpos
    nets := ⟨setup.minProfitMarginValue, hsetup.marginValue, netValue_gt hp hacc⟩
    funded := hfunded }

theorem directArm_sound (hsetup : Setup config reader target now setup)
    (h : (directArm config target setup).run = .ok (some plan)) : plan.Sound config reader target := by
  obtain ⟨repay, hpos, hfit, h⟩ := directArm_run_iff.mp h
  obtain ⟨seized, repaid, cost, gain, p, hseized, -, -, hp, hacc, rfl⟩ := tryDirectPlan_run_iff.mp h
  refine sound_of_seized hsetup hseized hp hacc ?_
  have hle := LiquidationPair.fitRepay_le ((min_le_left _ _).trans hsetup.maxProfitableRepay_le) hfit
  rw [max_eq_right (min_le_right _ _), hsetup.usable] at hle
  exact hle

theorem preswapArm_sound (hsetup : Setup config reader target now setup)
    (h : (preswapArm config reader target setup).run = .ok (some plan)) :
    plan.Sound config reader target := by
  obtain ⟨maxRepay, hmax, asset, -, h⟩ := preswapArm_run h
  obtain ⟨raw, provider, amountIn, amountOut, hraw, hin, hout, h⟩ := preswapStep_plan h
  obtain ⟨repay, seized, repaid, gain, cost, p, hfit, hseized, hp, hacc, rfl⟩ := preswapJudge_plan h
  refine sound_of_seized hsetup hseized hp hacc ⟨raw, hraw, hin, ?_⟩
  have hmaxle : maxRepay ≤ maxVal := by
    have hle := LiquidationPair.fitRepay_le hsetup.maxProfitableRepay_le hmax
    rwa [max_eq_right hsetup.maxProfitableRepay_le] at hle
  have houtle : amountOut ≤ maxVal := hout.elim (fun heq => heq ▸ hmaxle) (fun hfits => hfits.2)
  have hle := LiquidationPair.fitRepay_le houtle hfit
  rwa [max_self] at hle

theorem computeFlashFee_eq {repay bps fee : ℤ} (hrepay : 0 ≤ repay) (hbps : 0 ≤ bps)
    (h : computeFlashFee repay bps = .ok fee) : fee = ⌈(repay * bps / 10000 : ℚ)⌉ := by
  simp only [computeFlashFee, scaleWithBpsCeil, bind_eq_ok, mOu_eq_ok, checkedMul_eq_some,
    checkedAdd_eq_some] at h
  obtain ⟨_, ⟨-, rfl⟩, _, ⟨hfits, rfl⟩, h⟩ := h
  rw [checkedDiv_eq_some_of_pos hfits bpsFactor_pos] at h
  have hprod : 0 ≤ repay * bps := mul_nonneg hrepay hbps
  have hceil := Rat.ceil_intCast_div_natCast (repay * bps) 10000
  push_cast at hceil
  rw [hceil, ← h, Int.tdiv_eq_ediv_of_nonneg (add_nonneg hprod (by decide)), bpsFactor]
  omega

theorem fits_of_computeFlashFee {repay bps fee : ℤ} (h : computeFlashFee repay bps = .ok fee) : Fits fee := by
  simp only [computeFlashFee, scaleWithBpsCeil, bind_eq_ok, mOu_eq_ok, checkedMul_eq_some,
    checkedAdd_eq_some] at h
  obtain ⟨_, ⟨-, rfl⟩, _, ⟨hfits, rfl⟩, h⟩ := h
  rw [checkedDiv_eq_some_of_pos hfits bpsFactor_pos] at h
  rw [← h]
  exact hfits.tdiv bpsFactor_pos

theorem split_of_reported {pair : LiquidationPair} {repay seized repaid plain withdrawn : ℤ}
    (hreported : Reported target.deposit target.collateralPool)
    (hpair : LiquidationPair.new config.dustRules target.obligation target.marketData target.borrowPool
      target.collateralPool target.deposit target.isInsolvent = .ok pair)
    (hquote : pair.quote repay = .ok (.accepted seized repaid))
    (hsplit : (splitSeizure target seized).run = .ok (some (plain, withdrawn))) :
    plain + withdrawn = seized := by
  obtain ⟨rfl, ⟨hle, rfl⟩ | ⟨hlt, supplied, hsupplied, rfl⟩⟩ := splitSeizure_run hsplit
  · rw [min_eq_left hle, add_zero]
  · obtain ⟨_, _, _, _, -, -, -, -, rfl⟩ := newPair_eq_ok_iff.mp hpair
    have hseized := LiquidationPair.seized_le hreported hquote hlt hsupplied
    rw [min_eq_right hlt.le, min_eq_right (sub_le_iff_le_add.mpr hseized), add_sub_cancel]

/-- A repay and a fee that the swap's proceeds cover did not saturate. -/
theorem saturatingAdd_eq_of_covered {repay fee amountOut kept : ℤ} (hrepay : 0 ≤ repay) (hfee : Fits fee)
    (hout : 0 ≤ amountOut) (hkept : 0 ≤ kept)
    (h : saturatingAdd repay fee ≤ fixedMulFloor amountOut kept) : saturatingAdd repay fee = repay + fee := by
  have hsmall : fixedMulFloor amountOut kept < maxVal := by
    have hclamp := (fits_clamp (amountOut * kept)).2
    have hnonneg := clamp_nonneg (mul_nonneg hout hkept)
    rw [fixedMulFloor, saturatingDiv, saturatingMul, clamp_of_fits ((fits_clamp _).tdiv bpsFactor_pos),
      Int.tdiv_eq_ediv_of_nonneg hnonneg]
    have hmax : maxVal / bpsFactor < maxVal := by decide
    exact (Int.ediv_le_ediv bpsFactor_pos hclamp).trans_lt hmax
  refine clamp_of_fits ⟨le_add_of_nonneg_of_le hrepay hfee.1, not_lt.mp fun hbig => ?_⟩
  rw [saturatingAdd, clamp_eq_max hbig.le] at h
  exact absurd hsmall (not_lt.mpr h)

theorem flashArm_sound (hslip : 0 ≤ config.maxAllowedSwapSlippageBps ∧
      config.maxAllowedSwapSlippageBps ≤ 10000)
    (hreported : Reported target.deposit target.collateralPool)
    (hsetup : Setup config reader target now setup) {flash : ℤ}
    (hflash : (flashRepay target setup).run = .ok (some flash))
    (h : (flashArm config reader target setup flash).run = .ok (some plan)) :
    plan.Sound config reader target := by
  obtain ⟨hpos, repay, hfit, hplan⟩ := flashArm_run h
  obtain ⟨henabled, _, _, cap, -, -, hcap, rfl⟩ := flashRepay_run hflash hpos
  obtain ⟨seized, repaid, plain, withdrawn, fee, provider, amountOut, gain, cost, p, hseized, hsplit, hfee,
    hquote, hcovers, hp, hacc, rfl⟩ := tryFlashPlan_run hplan
  obtain ⟨pair, hpair, hquoted, hseizedpos⟩ := computeSeized_run_iff.mp hseized
  have hrepay : 0 < repay := LiquidationPair.repay_pos_of_seized hquoted hseizedpos
  have hkept : 0 ≤ bpsFactor - config.maxAllowedSwapSlippageBps := sub_nonneg.mpr hslip.2
  have hout := bestSwap_pos hquote
  have hexact := saturatingAdd_eq_of_covered hrepay.le (fits_of_computeFlashFee hfee) hout.le hkept hcovers
  have hparts := split_of_reported hreported hpair hquoted hsplit
  refine sound_of_seized hsetup hseized hp hacc ⟨henabled, ?_, fun hbps => ?_, ?_, amountOut, ?_, ?_⟩
  · have hle := LiquidationPair.fitRepay_le ((min_le_left _ _).trans (repayCap_spec hcap).2.1) hfit
    rwa [max_eq_right (min_le_right _ _)] at hle
  · rw [hexact, computeFlashFee_eq hrepay.le hbps hfee]
    rfl
  · exact (splitSeizure_run hsplit).1 ▸ hparts
  · rw [hparts] at hquote
    exact hquote
  · exact (mul_le_mul_of_nonneg_right hcovers bpsFactor_pos.le).trans
      (fixedMulFloor_mul_le (mul_nonneg hout.le hkept))

/-- **Every plan is accepted, funded and within the loss budget.** -/
theorem plan_accepted_and_funded (config : LiquidatorConfig) (reader : LedgerReader) (target : PlanTarget)
    (now : ℕ) (hslip : 0 ≤ config.maxAllowedSwapSlippageBps ∧ config.maxAllowedSwapSlippageBps ≤ 10000)
    (hreported : Reported target.deposit target.collateralPool) (plan : LiquidationPlan)
    (h : buildLiquidationPlanForAssetPoolPair config reader target now = .ok (some plan)) :
    plan.Sound config reader target := by
  obtain ⟨setup, hsetup, hdirect | ⟨flash, hflash, harm⟩ | hpreswap⟩ := build_run h
  · exact directArm_sound hsetup hdirect
  · exact flashArm_sound hslip hreported hsetup hflash harm
  · exact preswapArm_sound hsetup hpreswap

end Sound

/-! ## A flash plan at two fees -/

/-- $100 owed against $105 of plain gold, the borrow pool lending flash at `feeBps`. -/
def flashTarget (feeBps : ℤ) : PlanTarget :=
  let borrowPool := { planBorrowPool with flashLoanFeeBps := feeBps }
  { planTarget 0 1050000000 with
    borrowPool
    marketData := { dustMarket usd with poolsData := [borrowPool, dustPool "GOLD" usd] } }

/-- Half the debt is flash borrowed and `flashRepayAmount` owed back. -/
def flashPlan (flashRepayAmount netProfitValue : ℤ) : LiquidationPlan where
  repayAmount := 500000000
  netProfitValue
  borrowerKey := { user := "BORROWER", seed := none }
  borrowPoolAddress := "USDC"
  collateralPoolAddress := "GOLD"
  expectedSeizedCollateral := 524475000
  liquidationType := .flash flashRepayAmount "DEX" 0

theorem flashTarget_reported (feeBps : ℤ) :
    Reported (flashTarget feeBps).deposit (flashTarget feeBps).collateralPool := by
  change Reported (planTarget 0 1050000000).deposit (dustPool "GOLD" usd)
  exact ⟨by decide, by decide, by decide, by decide⟩

/-- At 5 bps the plan is sound: 0.025 of 50 is owed on top. -/
theorem five_bps_flash_is_funded :
    (flashPlan 500250000 242250000000000).Sound planConfig planReader (flashTarget 5) :=
  plan_accepted_and_funded planConfig planReader (flashTarget 5) 0 (by decide) (flashTarget_reported 5) _
    (by decide +kernel)

/-- **A negative fee is not rounded up.** At -1 bps the plan owes back one unit more than the fee rounded
up. -/
theorem negative_flash_fee_is_truncated :
    Reported (flashTarget (-1)).deposit (flashTarget (-1)).collateralPool ∧
      buildLiquidationPlanForAssetPoolPair planConfig planReader (flashTarget (-1)) 0 =
        .ok (some (flashPlan 499950001 245249990000000)) ∧
      (499950001 : ℤ) ≠ 500000000 + ⌈(500000000 * (-1) / 10000 : ℚ)⌉ :=
  ⟨flashTarget_reported (-1), by decide +kernel, by norm_num⟩

end AlulaKeeper
