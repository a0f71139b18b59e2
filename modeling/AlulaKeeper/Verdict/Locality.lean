import Mathlib
import AlulaKeeper.Lib.Fold
import AlulaKeeper.Lending.Cover

/-!
# Verdicts on a partial snapshot

A snapshot may miss pools, and every verdict has its own answer to a missing pool: skip the position, fail,
or refuse. `Pricing` is what a snapshot says about the pools an obligation touches, with a pool behind every
address, and the verdicts over it have no branch for a missing one.

* `Prices`: the snapshot finds, at every address the obligation touches, the pool the pricing names.
* `Prices.verdicts`: the code's verdicts on the snapshot are those over the pricing.
* `same_verdicts_of_same_touched_pools`: what a snapshot holds elsewhere changes no verdict.
-/

namespace AlulaKeeper

open I128

/-- The market's parameters and a pool for every address. -/
structure Pricing where
  insolvencyLtvBps : ℤ
  oraclePriceDecimals : ℕ
  minCollateralValueCents : ℤ
  pool : Address → PoolData

/-! ## Verdicts without a missing-pool branch -/

namespace Pricing

variable (P : Pricing) (obligation : Obligation)

/-- `has_any_collateral` at these prices. -/
def hasAnyCollateral : Bool :=
  obligation.deposits.any fun deposit =>
    saturatingAdd (fixedMulFloor deposit.jTokens (P.pool deposit.poolAddress).jTokenRateFloorBps)
      deposit.collateral > 0

/-- The debt at these prices, by liability factors. -/
def scaledDebtValue : Res ℤ :=
  obligation.borrows.foldlM (fun debtValue borrow => do
    mOu (checkedAdd debtValue (← scaledBorrowValue borrow (P.pool borrow.poolAddress)))) 0

/-- The collateral at these prices, by close LTVs. -/
def scaledCollateralValue : Res ℤ :=
  obligation.deposits.foldlM (fun collateralValue deposit => do
    mOu (checkedAdd collateralValue (← scaledDepositValue deposit (P.pool deposit.poolAddress)))) 0

/-- `compute_is_liquidatable` at these prices. -/
def isLiquidatable (rules : DustRules) : Res Bool := do
  if !P.hasAnyCollateral obligation then
    return false
  let debtValue ← P.scaledDebtValue obligation
  if debtValue = 0 then
    return false
  let collateralValue ← P.scaledCollateralValue obligation
  let minPerDeposit ← dustFloorValue P.minCollateralValueCents P.oraclePriceDecimals
  let toSubstract ← mOu (checkedMul minPerDeposit obligation.deposits.length)
  if rules = .sweep ∧ toSubstract > collateralValue then
    return false
  let adjusted ← mOu (checkedSub collateralValue toSubstract)
  return debtValue > adjusted

/-- `compute_obligation_debt_value` at these prices. -/
def debtValue : Res ℤ :=
  obligation.borrows.foldlM (fun total borrow => do
    let pool := P.pool borrow.poolAddress
    mOu (checkedAdd total (← valueCeil (rateDebt borrow pool) pool))) 0

/-- `compute_obligation_collateral_value` at these prices. -/
def collateralValue : Res ℤ :=
  obligation.deposits.foldlM (fun total deposit => do
    let pool := P.pool deposit.poolAddress
    mOu (checkedAdd total (← valueFloor (← rateTokens deposit pool) pool))) 0

/-- `compute_is_insolvent` at these prices. -/
def isInsolvent : Res Bool := do
  let debtValue ← P.debtValue obligation
  if debtValue < 0 then
    fail .internalError
  else if debtValue = 0 then
    return false
  else
  let collateralValue ← P.collateralValue obligation
  if collateralValue < 0 then
    fail .internalError
  else if collateralValue = 0 then
    return true
  else
  return (← bpsFixedDivCeil debtValue collateralValue) ≥ P.insolvencyLtvBps

/-- `LiquidationPair::new` at these prices. -/
def newPair (rules : DustRules) (borrowPool collateralPool : PoolData) (deposit : DepositPosition)
    (isInsolvent : Bool) : Res LiquidationPair := do
  let borrow ← orErr LMError.internalError
    (obligation.borrows.find? fun b => b.poolAddress == borrowPool.poolAddress)
  let positionDebt ← borrowPool.dTokensToTokensCeil borrow.dTokens
  let obligationDebtValue ← P.debtValue obligation
  let obligationCollateralValue ← P.collateralValue obligation
  return {
    rules, borrowPool, collateralPool, deposit, positionDebt, obligationDebtValue,
    obligationCollateralValue, isInsolvent
    minCollateralValueCents := P.minCollateralValueCents
    oraclePriceDecimals := P.oraclePriceDecimals
    debtAccrualBps := 0
    supplyAccrualBps := 0
    margin := .initial }

/-- One pair of `has_acceptable_liquidation` at these prices. -/
def pairIsAcceptable (minProfitMarginCents : ℤ) (now : ℕ) (isInsolvent : Bool) (borrowPool : PoolData)
    (deposit : DepositPosition) : Res Bool := do
  let collateralPool := P.pool deposit.poolAddress
  if collateralPool.poolAddress = borrowPool.poolAddress ∨ collateralPool.closeLtvBps ≤ 0 then
    return false
  let fresh ← P.newPair obligation .noDust borrowPool collateralPool deposit isInsolvent
  let pair := fresh.accruingUntil now
  match ← pair.directRepay minProfitMarginCents with
  | none => return false
  | some repay =>
    match ← pair.quote repay with
    | .accepted seized repaid =>
      if seized ≤ 0 then
        return false
      if repaid = pair.positionDebt then
        return pair.netsMoreThan seized repaid minProfitMarginCents
      if (← borrowPool.tokensToDTokensFloor repaid) > 0 then
        return pair.netsMoreThan seized repaid minProfitMarginCents
      return false
    | _ => return false

/-- `has_acceptable_liquidation` at these prices. -/
def hasAcceptable (minProfitMarginCents : ℤ) (now : ℕ) : Res Bool := do
  let isInsolvent ← P.isInsolvent obligation
  anyM (fun borrow => anyM (P.pairIsAcceptable obligation minProfitMarginCents now isInsolvent
    (P.pool borrow.poolAddress)) obligation.deposits) obligation.borrows

/-- The debt's value, or none where a borrow has none. -/
def pricedDebtValue : List BorrowPosition → ℤ → Res (Option ℤ)
  | [], debtValue => pure (some debtValue)
  | borrow :: borrows, debtValue => do
    let pool := P.pool borrow.poolAddress
    let value ← toOption (do valueCeil (← pool.dTokensToTokensCeil borrow.dTokens) pool)
    match value with
    | none => return none
    | some value =>
      match checkedAdd debtValue value with
      | none => return none
      | some sum => pricedDebtValue borrows sum

/-- The value of what may be seized. -/
def seizableCollateralValue : Res ℤ :=
  obligation.deposits.foldlM (fun collateralValue deposit => do
    let pool := P.pool deposit.poolAddress
    if pool.closeLtvBps ≤ 0 then
      return collateralValue
    let tokens ← mOu (checkedAdd (← pool.jTokensToTokensFloor deposit.jTokens) deposit.collateral)
    mOu (checkedAdd collateralValue (← valueFloor tokens pool))) 0

/-- `seizable_collateral_covers_debt` at these prices. -/
def coversDebt : Res Bool := do
  match ← P.pricedDebtValue obligation.borrows 0 with
  | none => return false
  | some debtValue =>
    let collateralValue ← P.seizableCollateralValue obligation
    return collateralValue > 0 ∧ collateralValue ≥ debtValue

end Pricing

/-! ## Snapshots that price every pool touched -/

/-- The snapshot has the pricing's parameters and, first at every address the obligation touches, its pool. -/
structure Prices (obligation : Obligation) (S : MarketData) (P : Pricing) : Prop where
  insolvencyLtvBps : S.insolvencyLtvBps = P.insolvencyLtvBps
  oraclePriceDecimals : S.oraclePriceDecimals = P.oraclePriceDecimals
  minCollateralValueCents : S.minCollateralValueCents = P.minCollateralValueCents
  findPool : ∀ a ∈ poolsTouched obligation, S.findPool a = some (P.pool a)

/-- No pool touched is reported unpriced, and every verdict is the one without a missing-pool branch. -/
structure JudgedBy (obligation : Obligation) (S : MarketData) (P : Pricing) : Prop where
  unpriced : unpricedPoolsTouched obligation S = []
  liquidatable : ∀ rules, computeIsLiquidatable obligation S rules = P.isLiquidatable obligation rules
  insolvent : computeIsInsolvent obligation S = P.isInsolvent obligation
  debtValue : computeObligationDebtValue obligation S = P.debtValue obligation
  collateralValue : computeObligationCollateralValue obligation S = P.collateralValue obligation
  coversDebt : seizableCollateralCoversDebt obligation S = P.coversDebt obligation
  acceptable : ∀ margin now,
    hasAcceptableLiquidation obligation S margin now = P.hasAcceptable obligation margin now

section Prices

variable {obligation : Obligation} {S : MarketData} {P : Pricing} (h : Prices obligation S P)

include h in
theorem Prices.borrow {b : BorrowPosition} (hb : b ∈ obligation.borrows) :
    S.findPool b.poolAddress = some (P.pool b.poolAddress) :=
  h.findPool _ (List.mem_append_left _ (List.mem_map_of_mem hb))

include h in
theorem Prices.deposit {d : DepositPosition} (hd : d ∈ obligation.deposits) :
    S.findPool d.poolAddress = some (P.pool d.poolAddress) :=
  h.findPool _ (List.mem_append_right _ (List.mem_map_of_mem hd))

include h in
theorem Prices.unpriced : unpricedPoolsTouched obligation S = [] :=
  unpricedPoolsTouched_eq_nil_iff.mpr fun a ha => ⟨_, h.findPool a ha⟩

include h in
theorem Prices.hasAnyCollateral : hasAnyCollateral obligation S = P.hasAnyCollateral obligation := by
  rw [AlulaKeeper.hasAnyCollateral, Pricing.hasAnyCollateral, Bool.eq_iff_iff, List.any_eq_true,
    List.any_eq_true]
  refine exists_congr fun d => and_congr_right fun hd => ?_
  rw [h.deposit hd]

include h in
theorem Prices.scaledDebtValue : scaledDebtValue obligation S = P.scaledDebtValue obligation :=
  Fold.foldlM_congr fun b hb _ => by rw [h.borrow hb]

include h in
theorem Prices.scaledCollateralValue :
    scaledCollateralValue obligation S = P.scaledCollateralValue obligation :=
  Fold.foldlM_congr fun d hd _ => by rw [h.deposit hd]

include h in
theorem Prices.liquidatable (rules : DustRules) :
    computeIsLiquidatable obligation S rules = P.isLiquidatable obligation rules := by
  rw [computeIsLiquidatable, Pricing.isLiquidatable, h.hasAnyCollateral, h.scaledDebtValue,
    h.scaledCollateralValue, h.minCollateralValueCents, h.oraclePriceDecimals]

include h in
theorem Prices.debtValue : computeObligationDebtValue obligation S = P.debtValue obligation :=
  Fold.foldlM_congr fun b hb _ => by rw [h.borrow hb]; rfl

include h in
theorem Prices.collateralValue :
    computeObligationCollateralValue obligation S = P.collateralValue obligation :=
  Fold.foldlM_congr fun d hd _ => by rw [h.deposit hd]; rfl

include h in
theorem Prices.insolvent : computeIsInsolvent obligation S = P.isInsolvent obligation := by
  rw [computeIsInsolvent, Pricing.isInsolvent, h.debtValue, h.collateralValue, h.insolvencyLtvBps]

include h in
theorem Prices.newPair (rules : DustRules) (borrowPool collateralPool : PoolData)
    (deposit : DepositPosition) (isInsolvent : Bool) :
    LiquidationPair.new rules obligation S borrowPool collateralPool deposit isInsolvent =
      P.newPair obligation rules borrowPool collateralPool deposit isInsolvent := by
  rw [LiquidationPair.new, Pricing.newPair, h.debtValue, h.collateralValue, h.minCollateralValueCents,
    h.oraclePriceDecimals]

include h in
theorem Prices.pairIsAcceptable {d : DepositPosition} (hd : d ∈ obligation.deposits) (margin : ℤ) (now : ℕ)
    (isInsolvent : Bool) (borrowPool : PoolData) :
    pairIsAcceptable obligation S margin now isInsolvent borrowPool d =
      P.pairIsAcceptable obligation margin now isInsolvent borrowPool d := by
  have hfound : orErr LMError.internalError (S.findPool d.poolAddress) = .ok (P.pool d.poolAddress) :=
    orErr_eq_ok.mpr (h.deposit hd)
  rw [AlulaKeeper.pairIsAcceptable, hfound, ok_bind, h.newPair]
  rfl

include h in
theorem Prices.acceptable (margin : ℤ) (now : ℕ) :
    hasAcceptableLiquidation obligation S margin now = P.hasAcceptable obligation margin now := by
  have hloop : ∀ isInsolvent, anyM (fun borrow => do
      let borrowPool ← orErr LMError.internalError (S.findPool borrow.poolAddress)
      anyM (AlulaKeeper.pairIsAcceptable obligation S margin now isInsolvent borrowPool)
        obligation.deposits) obligation.borrows =
      anyM (fun borrow => anyM (P.pairIsAcceptable obligation margin now isInsolvent
        (P.pool borrow.poolAddress)) obligation.deposits) obligation.borrows := by
    intro isInsolvent
    refine anyM_congr fun b hb => ?_
    have hfound : orErr LMError.internalError (S.findPool b.poolAddress) = .ok (P.pool b.poolAddress) :=
      orErr_eq_ok.mpr (h.borrow hb)
    rw [hfound, ok_bind]
    exact anyM_congr fun d hd => h.pairIsAcceptable hd margin now isInsolvent _
  rw [hasAcceptableLiquidation, h.unpriced, h.insolvent]
  simp only [hloop]
  rfl

include h in
theorem Prices.pricedDebtValue : ∀ (borrows : List BorrowPosition) (v : ℤ),
    (∀ b ∈ borrows, b ∈ obligation.borrows) →
      pricedDebtValue.go S borrows v = P.pricedDebtValue borrows v := by
  intro borrows
  induction borrows with
  | nil => intro v _; rfl
  | cons b borrows ih =>
    intro v hmem
    have hrest := fun w => ih w fun x hx => hmem x (List.mem_cons_of_mem _ hx)
    rw [pricedDebtValue.go, Pricing.pricedDebtValue, h.borrow (hmem b List.mem_cons_self)]
    refine bind_congr fun value => ?_
    cases value with
    | none => rfl
    | some value =>
      cases hsum : checkedAdd v value with
      | none => simp only [hsum]
      | some sum => simp only [hsum, hrest]

include h in
theorem Prices.coversDebt : seizableCollateralCoversDebt obligation S = P.coversDebt obligation := by
  have hcoll : seizableCollateralValue obligation S = P.seizableCollateralValue obligation :=
    Fold.foldlM_congr fun d hd _ => by rw [h.deposit hd]; rfl
  have hdebt : AlulaKeeper.pricedDebtValue obligation S = P.pricedDebtValue obligation.borrows 0 :=
    h.pricedDebtValue obligation.borrows 0 fun _ hb => hb
  rw [seizableCollateralCoversDebt, Pricing.coversDebt, hdebt]
  refine bind_congr fun debtValue => ?_
  cases debtValue with
  | none => rfl
  | some debtValue => simp only [hcoll]

include h in
/-- **A snapshot that prices every pool touched is judged without its missing-pool branches.** -/
theorem Prices.verdicts : JudgedBy obligation S P where
  unpriced := h.unpriced
  liquidatable := h.liquidatable
  insolvent := h.insolvent
  debtValue := h.debtValue
  collateralValue := h.collateralValue
  coversDebt := h.coversDebt
  acceptable := h.acceptable

end Prices

/-! ## Two snapshots -/

/-- The verdicts a snapshot and another give on an obligation are the same. -/
structure SameVerdicts (obligation : Obligation) (S S' : MarketData) : Prop where
  liquidatable : ∀ rules,
    computeIsLiquidatable obligation S rules = computeIsLiquidatable obligation S' rules
  insolvent : computeIsInsolvent obligation S = computeIsInsolvent obligation S'
  debtValue : computeObligationDebtValue obligation S = computeObligationDebtValue obligation S'
  collateralValue :
    computeObligationCollateralValue obligation S = computeObligationCollateralValue obligation S'
  coversDebt : seizableCollateralCoversDebt obligation S = seizableCollateralCoversDebt obligation S'
  acceptable : ∀ margin now, hasAcceptableLiquidation obligation S margin now =
    hasAcceptableLiquidation obligation S' margin now

theorem JudgedBy.same {obligation : Obligation} {S S' : MarketData} {P : Pricing}
    (h : JudgedBy obligation S P) (h' : JudgedBy obligation S' P) : SameVerdicts obligation S S' where
  liquidatable rules := (h.liquidatable rules).trans (h'.liquidatable rules).symm
  insolvent := h.insolvent.trans h'.insolvent.symm
  debtValue := h.debtValue.trans h'.debtValue.symm
  collateralValue := h.collateralValue.trans h'.collateralValue.symm
  coversDebt := h.coversDebt.trans h'.coversDebt.symm
  acceptable margin now := (h.acceptable margin now).trans (h'.acceptable margin now).symm

/-- **Degradation stays with the pool degraded.** Two snapshots with the same parameters and the same first
entry for every pool an obligation touches leave none of its pools unpriced and judge it alike, both as the
verdicts without a missing-pool branch do. -/
theorem same_verdicts_of_same_touched_pools (obligation : Obligation) (S S' : MarketData)
    (hltv : S.insolvencyLtvBps = S'.insolvencyLtvBps)
    (hdecimals : S.oraclePriceDecimals = S'.oraclePriceDecimals)
    (hdust : S.minCollateralValueCents = S'.minCollateralValueCents)
    (hpools : ∀ a ∈ poolsTouched obligation,
      ∃ pool, S.findPool a = some pool ∧ S'.findPool a = some pool) :
    SameVerdicts obligation S S' ∧ ∃ P : Pricing,
      (∀ a ∈ poolsTouched obligation, S.findPool a = some (P.pool a)) ∧
        JudgedBy obligation S P ∧ JudgedBy obligation S' P := by
  have : Nonempty PoolData := ⟨dustPool "" 0⟩
  choose! pool hS hS' using hpools
  let P : Pricing := {
    insolvencyLtvBps := S.insolvencyLtvBps
    oraclePriceDecimals := S.oraclePriceDecimals
    minCollateralValueCents := S.minCollateralValueCents
    pool := pool }
  have h : JudgedBy obligation S P := Prices.verdicts ⟨rfl, rfl, rfl, hS⟩
  have h' : JudgedBy obligation S' P := Prices.verdicts ⟨hltv.symm, hdecimals.symm, hdust.symm, hS'⟩
  exact ⟨h.same h', P, hS, h, h'⟩

/-- The dust market with a third pool listed before the others. -/
def widerMarket : MarketData :=
  { dustMarket usd with poolsData := dustPool "EURC" usd :: (dustMarket usd).poolsData }

/-- $1 of USDC owed against $4.50 of gold is judged alike with and without the third pool. -/
theorem third_pool_changes_no_verdict :
    SameVerdicts (dustBorrower 10000000 45000000) (dustMarket usd) widerMarket := by
  refine (same_verdicts_of_same_touched_pools (dustBorrower 10000000 45000000) (dustMarket usd)
    widerMarket rfl rfl rfl ?_).1
  intro a ha
  obtain rfl | rfl : a = "USDC" ∨ a = "GOLD" := by
    simpa [poolsTouched, dustBorrower] using ha
  · exact ⟨dustPool "USDC" usd, by decide, by decide⟩
  · exact ⟨dustPool "GOLD" usd, by decide, by decide⟩

end AlulaKeeper
