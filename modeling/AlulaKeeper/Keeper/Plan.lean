import Mathlib
import AlulaKeeper.Lending.Cover

/-!
# The liquidator's plan for a (borrow, deposit) pair

`build_liquidation_plan_for_asset_pool_pair` of `strategy/liquidator.rs`, with the answers of the ledger
reader as a parameter. A computation `Planning α` returns a value, gives up on the pair (`None`) or aborts.

* `planSetup`: what the three modes share, down to the most profitable repay and the usable balance.
* `directArm`, `flashRepay`, `flashArm`, `preswapArm`: the candidates.
* `buildLiquidationPlanForAssetPoolPair`: the candidate that repays the most.
-/

namespace AlulaKeeper

open I128

/-- A planning step: a value, `None`, or an abort. -/
abbrev Planning := OptionT Res

/-- `.ok()?`. -/
def attempt {α : Type} (x : Res α) : Planning α := OptionT.mk (toOption x)

/-- `LiquidatorConfig`, as far as planning reads it. -/
structure LiquidatorConfig where
  dustRules : DustRules
  minProfitMarginCents : ℤ
  xlmAddress : Address
  xlmSafetyMargin : ℤ
  maxAllowedSwapSlippageBps : ℤ
  assetsToHold : List Address
  swapProviders : List Address
  deriving DecidableEq, Repr

/-- The answers the planner gets; `none` where a query fails. -/
structure LedgerReader where
  /-- `try_get_balance` of a token. -/
  balance : Address → Option ℤ
  /-- `get_amount_out` of an amount in, asset in, asset out and provider. -/
  amountOut : ℤ → Address → Address → Address → Option ℤ
  /-- `get_amount_in` of an amount out, asset in, asset out and provider. -/
  amountIn : ℤ → Address → Address → Address → Option ℤ

/-- `LiquidationType`. -/
inductive LiquidationType where
  | direct
  | flash (flashRepayAmount : ℤ) (swapProvider : Address) (immediateWithdrawAmount : ℤ)
  | preSwap (swapProvider : Address) (minAmountOut sourceAmountIn : ℤ) (sourceAsset : Address)
  deriving DecidableEq, Repr

/-- `LiquidationPlan`. -/
structure LiquidationPlan where
  repayAmount : ℤ
  netProfitValue : ℤ
  borrowerKey : ObligationKey
  borrowPoolAddress : Address
  collateralPoolAddress : Address
  expectedSeizedCollateral : ℤ
  liquidationType : LiquidationType
  deriving DecidableEq, Repr

/-- The arguments of the planner. -/
structure PlanTarget where
  isInsolvent : Bool
  borrowDTokens : DTokens
  borrowPool : PoolData
  marketData : MarketData
  collateralPool : PoolData
  obligation : Obligation
  deposit : DepositPosition
  borrowerKey : ObligationKey
  margin : ClearingMargin
  deriving DecidableEq, Repr

section Queries

variable (config : LiquidatorConfig) (reader : LedgerReader)

/-- The provider with the best positive answer, the first of equals. -/
def bestSwap (answer : Address → Option ℤ) (better : ℤ → ℤ → Bool) (providers : List Address) :
    Option (Address × ℤ) :=
  providers.foldl (fun best provider =>
    match answer provider with
    | some amount =>
      if amount > 0 then
        match best with
        | none => some (provider, amount)
        | some (_, prev) => if better amount prev then some (provider, amount) else best
      else best
    | none => best) none

/-- `best_swap_quote`: the largest amount out. -/
def bestSwapQuote (amountIn : ℤ) (assetIn assetOut : Address) : Option (Address × ℤ) :=
  bestSwap (reader.amountOut amountIn assetIn assetOut) (· > ·) config.swapProviders

/-- `best_swap_base`: the smallest amount in. -/
def bestSwapBase (amountOut : ℤ) (assetIn assetOut : Address) : Option (Address × ℤ) :=
  bestSwap (reader.amountIn amountOut assetIn assetOut) (· < ·) config.swapProviders

/-- A balance less what the keeper holds back of the native asset. -/
def usableBalance (token : Address) (raw : ℤ) : ℤ :=
  if token = config.xlmAddress then saturatingSub raw config.xlmSafetyMargin else raw

end Queries

/-- `amount * price / 10^decimals`, saturating, with an unchecked power. -/
def saturatingValue (amount : ℤ) (pool : PoolData) : Res ℤ := do
  return saturatingDiv (saturatingMul amount pool.oracleAssetPrice) (← rawPow10 pool.tokenDecimals)

/-- `cents * 10^decimals / 100`, saturating, with an unchecked power. -/
def saturatingCents (cents : ℤ) (oraclePriceDecimals : ℕ) : Res ℤ := do
  return saturatingDiv (saturatingMul cents (← rawPow10 oraclePriceDecimals)) 100

/-- The liquidator's `fit_repay`. -/
def planFitRepay (pair : LiquidationPair) (repay maxOffer : ℤ) : Planning ℤ := do
  match ← attempt (pair.fitRepay repay maxOffer) with
  | some offer => return offer
  | none => failure

section Modes

variable (config : LiquidatorConfig) (reader : LedgerReader) (target : PlanTarget)

/-- `liquidation_pair`. -/
def liquidationPair : Planning LiquidationPair :=
  attempt (LiquidationPair.new config.dustRules target.obligation target.marketData
    target.borrowPool target.collateralPool target.deposit target.isInsolvent)

/-- `compute_seized`: the seized collateral and the repaid debt, at the snapshot's interest. -/
def computeSeized (repayAmount : ℤ) : Planning (ℤ × ℤ) := do
  let pair ← liquidationPair config target
  match ← attempt (pair.quote repayAmount) with
  | .accepted seized repaid => if seized > 0 then return (seized, repaid) else failure
  | _ => failure

/-- What the three modes share. -/
structure PlanSetup where
  pair : LiquidationPair
  liftsCloseFactor : Bool
  maxFeasibleRepay : ℤ
  maxProfitableRepay : ℤ
  profitMarginBorrow : ℤ
  usableBorrow : ℤ
  minProfitMarginValue : ℤ
  deriving DecidableEq, Repr

/-- The planner down to its candidate list. -/
def planSetup (now : ℕ) : Planning PlanSetup := do
  let positionDebtTokens ← attempt (target.borrowPool.dTokensToTokensCeil target.borrowDTokens)
  if positionDebtTokens ≤ 0 then
    failure
  else
  let positionJTokensAsTokens ←
    attempt (target.collateralPool.jTokensToTokensFloor target.deposit.jTokens)
  let positionCollateralSum ← (rawAdd positionJTokensAsTokens target.deposit.collateral : Res ℤ)
  let positionCollateralValue ← saturatingValue positionCollateralSum target.collateralPool
  let minCollateralThresholdValue ← saturatingCents target.marketData.minCollateralValueCents
    target.marketData.oraclePriceDecimals
  if ¬ positionCollateralSum > 0 ∨
      (config.dustRules = .sweep ∧ positionCollateralValue < minCollateralThresholdValue) then
    failure
  else
  let margin ← OptionT.lift (toOption (computeProfitMarginInBorrowToken config.minProfitMarginCents
    target.marketData.oraclePriceDecimals target.borrowPool))
  let profitMarginBorrow := margin.getD 0
  let fresh ← liquidationPair config target
  let pair := (fresh.accruingUntil now).withMargin target.margin
  let liftsCloseFactor ← attempt pair.liftsCloseFactor
  let closeFactorCap := computeCloseFactorRepayCap liftsCloseFactor positionDebtTokens
    target.borrowPool.liquidationCloseFactorBps
  let maxFeasibleRepay := min positionDebtTokens closeFactorCap
  if ¬ maxFeasibleRepay > 0 then
    failure
  else
  let maxProfitableRepay ← attempt (computeRepayCapFromCollateral (!liftsCloseFactor)
    target.borrowPool maxFeasibleRepay target.collateralPool positionCollateralSum
    pair.obligationDebtValue profitMarginBorrow pair.obligationCollateralValue)
  if maxProfitableRepay ≤ 0 then
    failure
  else
  let rawBorrowBalance := (reader.balance target.borrowPool.tokenAddress).getD 0
  let usableBorrow := usableBalance config target.borrowPool.tokenAddress rawBorrowBalance
  let minProfitMarginValue ← saturatingCents config.minProfitMarginCents
    target.marketData.oraclePriceDecimals
  return { pair, liftsCloseFactor, maxFeasibleRepay, maxProfitableRepay, profitMarginBorrow,
           usableBorrow, minProfitMarginValue }

/-! ## Direct -/

/-- `try_direct_plan`. -/
def tryDirectPlan (setup : PlanSetup) (repayAmount : ℤ) : Planning LiquidationPlan := do
  let (expectedSeizedCollateral, repaid) ← computeSeized config target repayAmount
  let repayValue ← saturatingValue repaid target.borrowPool
  let expectedReceivedValue ← saturatingValue expectedSeizedCollateral target.collateralPool
  let profitability ← attempt (computeLiquidationProfitability expectedReceivedValue repayValue
    setup.minProfitMarginValue)
  if !profitability.isAcceptable then
    failure
  else
  return { repayAmount, expectedSeizedCollateral
           borrowerKey := target.borrowerKey
           netProfitValue := profitability.netValue
           liquidationType := .direct
           borrowPoolAddress := target.borrowPool.poolAddress
           collateralPoolAddress := target.collateralPool.poolAddress }

/-- The Direct candidate: what the wallet's borrow token affords. -/
def directArm (setup : PlanSetup) : Planning LiquidationPlan := do
  let directRepay := min setup.maxProfitableRepay setup.usableBorrow
  if ¬ directRepay > 0 then
    failure
  else
  let directRepay ← planFitRepay setup.pair directRepay setup.usableBorrow
  tryDirectPlan config target setup directRepay

/-! ## Flash -/

/-- The Flash repay: the repay cap over the collateral available at once, within the pool's
liquidity. -/
def flashRepay (setup : PlanSetup) : Planning ℤ := do
  if !target.borrowPool.isFlashLoanEnabled then
    return 0
  else
  let allLiquidatedPositionDeposit ←
    attempt (target.collateralPool.jTokensToTokensFloor target.deposit.jTokens)
  let availableToWithdraw ← attempt target.collateralPool.availableForBorrow
  let instantlyAvailableWithdrawableDeposit := min allLiquidatedPositionDeposit availableToWithdraw
  let instantlyAvailableCollateral ←
    (rawAdd target.deposit.collateral instantlyAvailableWithdrawableDeposit : Res ℤ)
  let updatedMaxProfitableRepay ← attempt (computeRepayCapFromCollateral (!setup.liftsCloseFactor)
    target.borrowPool setup.maxFeasibleRepay target.collateralPool instantlyAvailableCollateral
    setup.pair.obligationDebtValue setup.profitMarginBorrow setup.pair.obligationCollateralValue)
  if updatedMaxProfitableRepay ≤ 0 then
    failure
  else
  return min updatedMaxProfitableRepay target.borrowPool.totalAvailableAdjusted

/-- The plain and the withdrawn part of a seizure. -/
def splitSeizure (seizedAmount : ℤ) : Planning (ℤ × ℤ) :=
  if seizedAmount ≤ target.deposit.collateral then return (seizedAmount, 0)
  else do
    let allDeposit ← attempt (target.collateralPool.jTokensToTokensFloor target.deposit.jTokens)
    let left ← (rawSub seizedAmount target.deposit.collateral : Res ℤ)
    return (target.deposit.collateral, min allDeposit left)

/-- `try_flash_plan`. -/
def tryFlashPlan (setup : PlanSetup) (repayAmount : ℤ) : Planning LiquidationPlan := do
  let (seizedAmount, repaid) ← computeSeized config target repayAmount
  let (plainCollateralAmount, immediateWithdrawAmount) ← splitSeizure target seizedAmount
  let deFactoSeizedAmount ←
    OptionT.mk (pure (checkedAdd plainCollateralAmount immediateWithdrawAmount))
  let flashFee ← attempt (computeFlashFee repayAmount target.borrowPool.flashLoanFeeBps)
  let flashRepayAmount := saturatingAdd repayAmount flashFee
  let (bestProvider, amountOut) ← OptionT.mk (pure (bestSwapQuote config reader deFactoSeizedAmount
    target.collateralPool.tokenAddress target.borrowPool.tokenAddress))
  let keptBps ← (rawSub bpsFactor config.maxAllowedSwapSlippageBps : Res ℤ)
  let amountOutMinusSlippage := saturatingDiv (saturatingMul amountOut keptBps) bpsFactor
  if amountOutMinusSlippage < flashRepayAmount then
    failure
  else
  -- the swap covers the whole flash repayment; the refund lowers what the liquidation costs
  let refund := saturatingSub repayAmount repaid
  let flashRepayValue ← saturatingValue (saturatingSub flashRepayAmount refund) target.borrowPool
  let receivedCollateralValue ← saturatingValue deFactoSeizedAmount target.collateralPool
  let profitability ← attempt (computeLiquidationProfitability receivedCollateralValue
    flashRepayValue setup.minProfitMarginValue)
  if !profitability.isAcceptable then
    failure
  else
  return { repayAmount
           liquidationType := .flash flashRepayAmount bestProvider immediateWithdrawAmount
           borrowerKey := target.borrowerKey
           netProfitValue := profitability.netValue
           expectedSeizedCollateral := seizedAmount
           borrowPoolAddress := target.borrowPool.poolAddress
           collateralPoolAddress := target.collateralPool.poolAddress }

/-- The Flash candidate: what the borrow pool's liquidity affords. -/
def flashArm (setup : PlanSetup) (flashRepay : ℤ) : Planning LiquidationPlan := do
  if ¬ flashRepay > 0 then
    failure
  else
  let flashRepay ← planFitRepay setup.pair flashRepay target.borrowPool.totalAvailableAdjusted
  tryFlashPlan config reader target setup flashRepay

/-! ## PreSwap -/

/-- How the loop over the source assets goes on. -/
inductive PreswapStep where
  /-- `continue`. -/
  | skip
  /-- `?` on a `None`: the whole function returns `None`. -/
  | stop
  | plan (plan : LiquidationPlan)
  deriving DecidableEq, Repr

/-- The swap into the borrow token: provider, amount in and amount out, or `none` without a quote. -/
def preswapSwap (maxProfitableRepay : ℤ) (sourceAsset : Address) (swappableBalance : ℤ) :
    Res (Option (Address × ℤ × ℤ)) := do
  let borrowToken := target.borrowPool.tokenAddress
  match bestSwapBase config reader maxProfitableRepay sourceAsset borrowToken with
  | none => return none
  | some (bestProvider, maxAmountIn) =>
    let paidBps ← rawAdd bpsFactor config.maxAllowedSwapSlippageBps
    let maxAmountInPlusSlippage ← rawDiv (saturatingMul maxAmountIn paidBps) bpsFactor
    if maxAmountInPlusSlippage ≤ swappableBalance then
      return some (bestProvider, maxAmountInPlusSlippage, maxProfitableRepay)
    match bestSwapQuote config reader swappableBalance sourceAsset borrowToken with
    | none => return none
    | some (newBestProvider, minAmountOut) =>
      let keptBps ← rawSub bpsFactor config.maxAllowedSwapSlippageBps
      let amountOut ← rawDiv (saturatingMul minAmountOut keptBps) bpsFactor
      return some (newBestProvider, swappableBalance, amountOut)

/-- The plan for a swap already sized, as the body of the loop judges it. -/
def preswapJudge (setup : PlanSetup) (sourceAsset bestProvider : Address) (amountIn amountOut : ℤ) :
    Res PreswapStep := do
  match ← (planFitRepay setup.pair amountOut amountOut).run with
  | none => return .skip
  | some repayAmount =>
    match ← (computeSeized config target repayAmount).run with
    | none => return .stop
    | some (expectedSeized, repaid) =>
      match target.marketData.poolsData.find? fun p => p.tokenAddress == sourceAsset with
      | none => return .skip
      | some sourcePool =>
        let refundValue ← saturatingValue (saturatingSub repayAmount repaid) target.borrowPool
        let costValue := saturatingSub (← saturatingValue amountIn sourcePool) refundValue
        let gainValue ← saturatingValue expectedSeized target.collateralPool
        match ← toOption (computeLiquidationProfitability gainValue costValue
            setup.minProfitMarginValue) with
        | none => return .stop
        | some profitability =>
          if !profitability.isAcceptable then
            return .skip
          return .plan {
            repayAmount
            liquidationType := .preSwap bestProvider amountOut amountIn sourceAsset
            borrowerKey := target.borrowerKey
            netProfitValue := profitability.netValue
            expectedSeizedCollateral := expectedSeized
            borrowPoolAddress := target.borrowPool.poolAddress
            collateralPoolAddress := target.collateralPool.poolAddress }

/-- The body of the loop of `try_preswap_plan`. -/
def preswapStep (setup : PlanSetup) (maxProfitableRepay : ℤ) (sourceAsset : Address) :
    Res PreswapStep := do
  if sourceAsset = target.borrowPool.tokenAddress then
    return .skip
  match reader.balance sourceAsset with
  | none => return .skip
  | some rawBalance =>
    let swappableBalance := usableBalance config sourceAsset rawBalance
    if ¬ swappableBalance > 0 then
      return .skip
    match ← preswapSwap config reader target maxProfitableRepay sourceAsset swappableBalance with
    | none => return .skip
    | some (bestProvider, amountIn, amountOut) =>
      preswapJudge config target setup sourceAsset bestProvider amountIn amountOut

/-- `try_preswap_plan`. -/
def tryPreswapPlan (setup : PlanSetup) (maxProfitableRepay : ℤ) : Planning LiquidationPlan :=
  OptionT.mk (go config.assetsToHold none)
where
  go : List Address → Option LiquidationPlan → Res (Option LiquidationPlan)
    | [], best => pure best
    | asset :: assets, best => do
      match ← preswapStep config reader target setup maxProfitableRepay asset with
      | .skip => go assets best
      | .stop => return none
      | .plan plan =>
        match best with
        | none => go assets (some plan)
        | some b => go assets (if b.repayAmount < plan.repayAmount then some plan else some b)

/-- The PreSwap candidate: what other held assets swap into. -/
def preswapArm (setup : PlanSetup) : Planning LiquidationPlan := do
  let preswapRepay ← planFitRepay setup.pair setup.maxProfitableRepay maxVal
  tryPreswapPlan config reader target setup preswapRepay

/-! ## The plan -/

/-- One comparison of `max_by_key`: the later of equals. -/
def pickLarger (best : Option LiquidationPlan) (plan : LiquidationPlan) : Option LiquidationPlan :=
  match best with
  | none => some plan
  | some b => if b.repayAmount ≤ plan.repayAmount then some plan else some b

/-- `max_by_key(|plan| plan.repay_amount)`. -/
def maxByRepayAmount (candidates : List LiquidationPlan) : Option LiquidationPlan :=
  candidates.foldl pickLarger none

/-- The planner once its setup is known. A Flash repay that cannot be sized drops every candidate. -/
def planFromSetup (setup : PlanSetup) : Res (Option LiquidationPlan) := do
  let direct ← (directArm config target setup).run
  match ← (flashRepay target setup).run with
  | none => return none
  | some flashRepay =>
    let flash ← (flashArm config reader target setup flashRepay).run
    let preswap ← (preswapArm config reader target setup).run
    return maxByRepayAmount (direct.toList ++ flash.toList ++ preswap.toList)

/-- `build_liquidation_plan_for_asset_pool_pair`, at the time `now`. -/
def buildLiquidationPlanForAssetPoolPair (now : ℕ) : Res (Option LiquidationPlan) := do
  match ← (planSetup config reader target now).run with
  | none => return none
  | some setup => planFromSetup config reader target setup

end Modes

end AlulaKeeper
