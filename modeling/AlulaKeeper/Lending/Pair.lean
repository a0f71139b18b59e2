import Mathlib
import AlulaKeeper.Lib.Search
import AlulaKeeper.Lending.Health
import AlulaKeeper.Lending.Profitability

/-!
# A (borrow, collateral) pair as `liquidate` judges it

`LiquidationPair` of `liquidation.rs`, under both dust rules.

* `computeExpectedSeizedCollateral`: the sweep market's seizure.
* `LiquidationPair.quote`: what the market does with a repay offer, a `Seizure`.
* `LiquidationPair.clearing`, `LiquidationPair.largestPartialRepay`: the two binary searches over
  `LiquidationPair.buys`.
* `LiquidationPair.fitRepay`: the offer the keeper makes for a planned repay.
-/

namespace AlulaKeeper

open I128

/-- Margin on an offer that clears a side of a pair. -/
structure ClearingMargin where
  /-- Past the debt, or past a small position's whole collateral: the market refunds the excess. -/
  refundedBps : ℤ
  /-- Past a larger position's whole collateral: the excess buys nothing. -/
  unrefundedBps : ℤ
  deriving DecidableEq, Repr

namespace ClearingMargin

/-- `ClearingMargin::INITIAL`. -/
def initial : ClearingMargin := { refundedBps := 100, unrefundedBps := 0 }

/-- For the one retry after the market refused the initial offer as dust. -/
def retry : ClearingMargin := { refundedBps := 500, unrefundedBps := 100 }

end ClearingMargin

/-- `compute_close_factor_repay_cap`. -/
def computeCloseFactorRepayCap (isLifted : Bool) (positionDebtTokens liquidationCloseFactorBps : ℤ) :
    ℤ :=
  if isLifted then positionDebtTokens
  else fixedMulFloor positionDebtTokens liquidationCloseFactorBps

/-! ## The sweep market's seizure -/

/-- `SCALAR_9`. -/
def scalar9 : ℤ := 1000000000

/-- `amount * (BPS_FACTOR + incentive) / BPS_FACTOR`. -/
def addIncentive (amount incentiveBps : ℤ) : Res ℤ := do
  let factor ← mOu (checkedAdd bpsFactor incentiveBps)
  let product ← mOu (checkedMul amount factor)
  mOu (checkedDiv product bpsFactor)

/-- `value * 999 / 1000`: strictly under the LTV-preserving value. -/
def strictlyUnder (value : ℤ) : Res ℤ := do
  let product ← mOu (checkedMul value 999)
  mOu (checkedDiv product 1000)

/-- The market's LTV-improving value, in two steps through a 1e9 health factor. -/
def healthFactorCap (liquidatedValue obligationDebtValue obligationCollateralValue : ℤ) : Res ℤ := do
  let scaled ← mOu (checkedMul obligationCollateralValue scalar9)
  let healthFactorSc9 ← mOu (checkedDiv scaled obligationDebtValue)
  let product ← mOu (checkedMul liquidatedValue healthFactorSc9)
  let maxValueRecv ← mOu (checkedDiv product scalar9)
  strictlyUnder maxValueRecv

/-- `compute_expected_seized_collateral`. -/
def computeExpectedSeizedCollateral (repayAmount : ℤ) (borrowPool collateralPool : PoolData)
    (deposit : DepositPosition) (obligationDebtValue obligationCollateralValue : ℤ)
    (isInsolvent : Bool) (minCollateralValueCents : ℤ) (oraclePriceDecimals : ℕ) : Res ℤ := do
  if repayAmount ≤ 0 ∨ collateralPool.oracleAssetPrice ≤ 0 then
    return 0
  let positionCollateralSum ← rateTokens deposit collateralPool
  if positionCollateralSum ≤ 0 then
    return 0
  let liquidatedValue ← valueFloor repayAmount borrowPool
  let minIncentiveBps :=
    min borrowPool.maxLiquidationIncentiveBps collateralPool.maxLiquidationIncentiveBps
  let collateralAmountNoBonus ← amountFloor liquidatedValue collateralPool
  let withIncentive ← addIncentive collateralAmountNoBonus minIncentiveBps
  if !isInsolvent ∧ (obligationDebtValue ≤ 0 ∨ obligationCollateralValue ≤ 0) then
    return 0
  let capped ←
    ltvCapped (min positionCollateralSum withIncentive) liquidatedValue
  let collateralLeft ← mOu (checkedSub positionCollateralSum capped)
  let collateralValueLeft ← valueFloor collateralLeft collateralPool
  let minCollateralThreshold ← dustFloorValue minCollateralValueCents oraclePriceDecimals
  -- the sweep: what would be left under the floor goes to the liquidator
  let seized := if collateralValueLeft < minCollateralThreshold then positionCollateralSum else capped
  return max seized 0
where
  /-- A solvent obligation's seizure is capped so that its LTV improves. -/
  ltvCapped (amount liquidatedValue : ℤ) : Res ℤ :=
    if isInsolvent then pure amount else do
      let strictMaxValueRecv ←
        healthFactorCap liquidatedValue obligationDebtValue obligationCollateralValue
      return min amount (← amountFloor strictMaxValueRecv collateralPool)

/-! ## Pairs -/

/-- What the market does with a repay offer. -/
inductive Seizure where
  /-- The liquidator receives `seized` for `repaid`; the rest of the offer is refunded. -/
  | accepted (seized repaid : ℤ)
  /-- `InvalidLiquidationInputs` (#600): the repay is over the close factor. -/
  | overCloseFactor
  /-- `LiquidationLeavesDust` (#606). -/
  | leavesDust
  deriving DecidableEq, Repr

/-- The market takes the repay. -/
def Seizure.isAccepted : Seizure → Bool
  | .accepted _ _ => true
  | _ => false

/-- `LiquidationPair`. -/
structure LiquidationPair where
  rules : DustRules
  borrowPool : PoolData
  collateralPool : PoolData
  deposit : DepositPosition
  /-- The borrow position's debt in tokens, rounded up. -/
  positionDebt : ℤ
  obligationDebtValue : ℤ
  obligationCollateralValue : ℤ
  isInsolvent : Bool
  minCollateralValueCents : ℤ
  oraclePriceDecimals : ℕ
  /-- Interest accrued since the pools' last update, in bps of the debt and of the supply. -/
  debtAccrualBps : ℤ
  supplyAccrualBps : ℤ
  margin : ClearingMargin
  deriving DecidableEq, Repr

/-- The smallest repay that clears a side at the snapshot, and the offer that still does once
interest has accrued. -/
structure Clearing where
  atSnapshot : ℤ
  offer : ℤ
  deriving DecidableEq, Repr

/-- `amount + ceil(amount * bps / BPS_FACTOR)`. -/
def grown (amount bps : ℤ) : Res ℤ := mOu (checkedAdd amount (fixedMulCeil amount bps))

namespace LiquidationPair

/-- `LiquidationPair::new`. -/
def new (rules : DustRules) (obligation : Obligation) (market : MarketData)
    (borrowPool collateralPool : PoolData) (deposit : DepositPosition) (isInsolvent : Bool) :
    Res LiquidationPair := do
  let borrow ← orErr LMError.internalError
    (obligation.borrows.find? fun b => b.poolAddress == borrowPool.poolAddress)
  let positionDebt ← borrowPool.dTokensToTokensCeil borrow.dTokens
  let obligationDebtValue ← computeObligationDebtValue obligation market
  let obligationCollateralValue ← computeObligationCollateralValue obligation market
  return {
    rules, borrowPool, collateralPool, deposit, positionDebt, obligationDebtValue,
    obligationCollateralValue, isInsolvent
    minCollateralValueCents := market.minCollateralValueCents
    oraclePriceDecimals := market.oraclePriceDecimals
    debtAccrualBps := 0
    supplyAccrualBps := 0
    margin := .initial }

variable (pair : LiquidationPair)

/-- `accruing_until`. -/
def accruingUntil (now : ℕ) : LiquidationPair :=
  { pair with
    debtAccrualBps := (pair.borrowPool.accrualSinceUpdateBps now).1
    supplyAccrualBps := (pair.collateralPool.accrualSinceUpdateBps now).2 }

/-- `with_margin`. -/
def withMargin (margin : ClearingMargin) : LiquidationPair := { pair with margin }

/-- `incentive_bps`. -/
def incentiveBps : ℤ :=
  min pair.borrowPool.maxLiquidationIncentiveBps pair.collateralPool.maxLiquidationIncentiveBps

/-- `dust_floor`. -/
def dustFloor : Res ℤ := dustFloorValue pair.minCollateralValueCents pair.oraclePriceDecimals

/-- `supplied_tokens`. -/
def suppliedTokens : Res ℤ := pair.collateralPool.jTokensToTokensFloor pair.deposit.jTokens

/-- Plain collateral plus supplied tokens, converted as the market does. -/
def positionCollateral : Res ℤ := do
  mOu (checkedAdd (← pair.suppliedTokens) pair.deposit.collateral)

/-- `is_small_position`. -/
def isSmallPosition : Res Bool := do
  let small ← mOu (checkedMul (← pair.dustFloor) 2)
  if (← valueFloor (← pair.positionCollateral) pair.collateralPool) < small then
    return true
  return (← valueCeil pair.positionDebt pair.borrowPool) < small

/-- Whether the market lifts the close factor and the LTV cap for this pair. -/
def liftsCloseFactor : Res Bool :=
  if pair.isInsolvent then pure true
  else if pair.rules = .noDust then pair.isSmallPosition
  else pure false

/-- The no-dust market's LTV-improving value: the direct product. -/
def ltvImprovingValue (repaidValue : ℤ) : Res ℤ := do
  let product ← mOu (checkedMul repaidValue pair.obligationCollateralValue)
  let value ← mOu (checkedDiv product pair.obligationDebtValue)
  strictlyUnder value

/-- Collateral `repaid` debt buys before the position caps it. -/
def buys (repaid : ℤ) (lifted : Bool) : Res ℤ := do
  let repaidValue ← valueFloor repaid pair.borrowPool
  let withIncentive ← addIncentive (← amountFloor repaidValue pair.collateralPool) pair.incentiveBps
  if lifted then
    return withIncentive
  if pair.obligationDebtValue ≤ 0 ∨ pair.obligationCollateralValue ≤ 0 then
    return 0
  let ltvImprovingValue ← pair.ltvImprovingValue repaidValue
  return min withIncentive (← amountFloor ltvImprovingValue pair.collateralPool)

/-- What a small position's whole collateral costs. -/
def wholePositionRepay (positionCollateral : ℤ) : Res ℤ := do
  let incentiveFactor ← mOu (checkedAdd bpsFactor pair.incentiveBps)
  let collateralValue ← valueCeil positionCollateral pair.collateralPool
  let product ← mOu (checkedMul collateralValue bpsFactor)
  let adjusted ← mOu (checkedAdd product (← rawSub incentiveFactor 1))
  let value ← mOu (checkedDiv adjusted incentiveFactor)
  amountCeil value pair.borrowPool

/-- `leaves_dust`. -/
def leavesDust (collateralLeft debtLeft : ℤ) : Res Bool := do
  if collateralLeft ≤ 0 ∨ debtLeft ≤ 0 then
    return false
  let floor ← pair.dustFloor
  if (← valueFloor collateralLeft pair.collateralPool) < floor then
    return true
  return (← valueCeil debtLeft pair.borrowPool) < floor

/-- The close-factor check of `quote_no_dust`: the repaid share in bps, rounded up. -/
def overCloseFactor (repaid : ℤ) (lifted : Bool) : Res Bool :=
  if lifted then pure false else do
    let scaled ← mOu (checkedMul repaid bpsFactor)
    let adjusted ← mOu (checkedAdd scaled (← rawSub pair.positionDebt 1))
    let repaidBps ← mOu (checkedDiv adjusted pair.positionDebt)
    return repaidBps > pair.borrowPool.liquidationCloseFactorBps

/-- What is left of `repaid` once a small position taken whole is refunded. -/
def refundedRepay (positionCollateral seized repaid : ℤ) : Res ℤ :=
  if seized = positionCollateral then do
    if ← pair.isSmallPosition then
      return min repaid (← pair.wholePositionRepay positionCollateral)
    return repaid
  else pure repaid

/-- `quote_no_dust`. -/
def quoteNoDust (repay : ℤ) : Res Seizure := do
  let positionCollateral ← pair.positionCollateral
  if repay ≤ 0 ∨ pair.positionDebt ≤ 0 ∨ positionCollateral ≤ 0 ∨
      pair.borrowPool.oracleAssetPrice ≤ 0 ∨ pair.collateralPool.oracleAssetPrice ≤ 0 then
    return .accepted 0 0
  let lifted ← pair.liftsCloseFactor
  let repaid := min repay pair.positionDebt
  if ← pair.overCloseFactor repaid lifted then
    return .overCloseFactor
  let seized := min positionCollateral (← pair.buys repaid lifted)
  let repaid ← pair.refundedRepay positionCollateral seized repaid
  let collateralLeft ← rawSub positionCollateral seized
  let debtLeft ← rawSub pair.positionDebt repaid
  if ← pair.leavesDust collateralLeft debtLeft then
    return .leavesDust
  return .accepted seized repaid

/-- Mirror of `liquidate` for a `repay` offer at the snapshot's prices and interest. -/
def quote (repay : ℤ) : Res Seizure :=
  match pair.rules with
  | .sweep => do
    let seized ← computeExpectedSeizedCollateral repay pair.borrowPool pair.collateralPool
      pair.deposit pair.obligationDebtValue pair.obligationCollateralValue pair.isInsolvent
      pair.minCollateralValueCents pair.oraclePriceDecimals
    return .accepted seized repay
  | .noDust => pair.quoteNoDust repay

/-- The least repay up to `debt` that buys `target`. -/
def repayBuying (lifted : Bool) (target debt : ℤ) : Res (Option ℤ) := do
  if (← pair.buys debt lifted) < target then
    return none
  return some (← Search.least (fun mid => do return (← pair.buys mid lifted) ≥ target) 1 debt)

/-- `clearing`. -/
def clearing : Res (Option Clearing) := do
  let debt := pair.positionDebt
  let collateral ← pair.positionCollateral
  if debt ≤ 0 ∨ collateral ≤ 0 then
    return none
  let lifted ← pair.liftsCloseFactor
  let grownDebt ← grown debt pair.debtAccrualBps
  let grownSupply ← grown (← pair.suppliedTokens) pair.supplyAccrualBps
  let grownCollateral ← mOu (checkedAdd pair.deposit.collateral grownSupply)
  let offer ← clearingOffer (← pair.repayBuying lifted grownCollateral grownDebt) grownDebt
  let atSnapshot := (← pair.repayBuying lifted collateral debt).getD debt
  return some { atSnapshot, offer }
where
  /-- The padded offer: past the collateral when a repay buys it, past the debt otherwise. -/
  clearingOffer (buying : Option ℤ) (grownDebt : ℤ) : Res ℤ :=
    match buying with
    | some repay => do
      if ← pair.isSmallPosition then grown repay pair.margin.refundedBps
      else grown repay pair.margin.unrefundedBps
    | none => grown grownDebt pair.margin.refundedBps

/-- The test of `largest_partial_repay`: both sides left are positive and worth the floor. -/
def keepsBothSides (lifted : Bool) (floor collateral repay : ℤ) : Res Bool := do
  let repaid := min repay pair.positionDebt
  let collateralLeft ← rawSub collateral (min collateral (← pair.buys repaid lifted))
  let debtLeft ← rawSub pair.positionDebt repaid
  if ¬ (collateralLeft > 0 ∧ debtLeft > 0) then
    return false
  if (← valueFloor collateralLeft pair.collateralPool) < floor then
    return false
  return (← valueCeil debtLeft pair.borrowPool) ≥ floor

/-- `largest_partial_repay`. -/
def largestPartialRepay (upper : ℤ) : Res (Option ℤ) := do
  let collateral ← pair.positionCollateral
  let lifted ← pair.liftsCloseFactor
  let floor ← pair.dustFloor
  if upper < 1 then
    return none
  if !(← pair.keepsBothSides lifted floor collateral 1) then
    return none
  let low ← Search.greatest (pair.keepsBothSides lifted floor collateral) 1 upper
  if (← pair.quote low).isAccepted then
    return some low
  return none

/-- The market takes the offer. -/
def accepts (offer : ℤ) : Res Bool := do return (← pair.quote offer).isAccepted

/-- The offer for a planned `repay` that the market accepts, at most `maxOffer`. -/
def fitRepay (repay maxOffer : ℤ) : Res (Option ℤ) :=
  if pair.rules = .sweep then pure (some repay) else do
    match ← pair.clearing with
    | some clear =>
      if repay ≥ clear.atSnapshot then
        let offer := min (max repay clear.offer) maxOffer
        if ← pair.accepts offer then
          return some offer
        pair.largestPartialRepay (min repay maxOffer)
      else
        if ← pair.accepts repay then
          return some repay
        if clear.offer ≤ maxOffer then
          if ← pair.accepts clear.offer then
            return some clear.offer
          pair.largestPartialRepay (min repay maxOffer)
        else
          pair.largestPartialRepay (min repay maxOffer)
    | none =>
      if ← pair.accepts repay then
        return some repay
      pair.largestPartialRepay (min repay maxOffer)

end LiquidationPair

theorem newPair_eq_ok_iff {rules : DustRules} {obligation : Obligation} {market : MarketData}
    {borrowPool collateralPool : PoolData} {deposit : DepositPosition} {isInsolvent : Bool}
    {pair : LiquidationPair} :
    LiquidationPair.new rules obligation market borrowPool collateralPool deposit isInsolvent = .ok pair ↔
      ∃ borrow positionDebt obligationDebtValue obligationCollateralValue,
        obligation.borrows.find? (·.poolAddress == borrowPool.poolAddress) = some borrow ∧
        borrowPool.dTokensToTokensCeil borrow.dTokens = .ok positionDebt ∧
        computeObligationDebtValue obligation market = .ok obligationDebtValue ∧
        computeObligationCollateralValue obligation market = .ok obligationCollateralValue ∧
        pair = {
          rules, borrowPool, collateralPool, deposit, positionDebt, obligationDebtValue,
          obligationCollateralValue, isInsolvent
          minCollateralValueCents := market.minCollateralValueCents
          oraclePriceDecimals := market.oraclePriceDecimals
          debtAccrualBps := 0
          supplyAccrualBps := 0
          margin := .initial } := by
  simp only [LiquidationPair.new, bind_eq_ok, orErr_eq_ok, pure_eq_ok]
  constructor
  · rintro ⟨borrow, hborrow, debt, hdebt, debtValue, hdebtValue, collateralValue, hcollateralValue, rfl⟩
    exact ⟨borrow, debt, debtValue, collateralValue, hborrow, hdebt, hdebtValue, hcollateralValue, rfl⟩
  · rintro ⟨borrow, debt, debtValue, collateralValue, hborrow, hdebt, hdebtValue, hcollateralValue, rfl⟩
    exact ⟨borrow, hborrow, debt, hdebt, debtValue, hdebtValue, collateralValue, hcollateralValue, rfl⟩

/-- USDC borrowed against plain GOLD on the market of the dust tests, the obligation's only positions. -/
def dustPair (debt gold : ℤ) : LiquidationPair where
  rules := .noDust
  borrowPool := dustPool "USDC" usd
  collateralPool := dustPool "GOLD" usd
  deposit := { jTokens := 0, collateral := gold, poolAddress := "GOLD" }
  positionDebt := debt
  obligationDebtValue := debt * 10000000
  obligationCollateralValue := gold * 10000000
  isInsolvent := false
  minCollateralValueCents := 500
  oraclePriceDecimals := 14
  debtAccrualBps := 0
  supplyAccrualBps := 0
  margin := .initial

end AlulaKeeper
