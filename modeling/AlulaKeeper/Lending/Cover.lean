import Mathlib
import AlulaKeeper.Lending.Pair

/-!
# When bad debt is covered

The liquidator's Direct plan as the cover forecasts it (`hasAcceptableLiquidation`), the market's
refusal to cover a solvent obligation (`seizableCollateralCoversDebt`), and the initiator's verdict
`isEligibleForBadDebtRequestIssuance` of `bad_debt_request_initiator.rs`.
-/

namespace AlulaKeeper

open I128

namespace LiquidationPair

variable (pair : LiquidationPair)

/-- The liquidator's Direct repay with unlimited capital. -/
def directRepay (minProfitMarginCents : ℤ) : Res (Option ℤ) := do
  let lifted ← pair.liftsCloseFactor
  let maxFeasible := min pair.positionDebt (computeCloseFactorRepayCap lifted pair.positionDebt
    pair.borrowPool.liquidationCloseFactorBps)
  let collateral ← pair.positionCollateral
  if maxFeasible ≤ 0 ∨ collateral ≤ 0 then
    return none
  let margin ← toOption (computeProfitMarginInBorrowToken minProfitMarginCents
    pair.oraclePriceDecimals pair.borrowPool)
  let repayCap ← toOption (computeRepayCapFromCollateral (!lifted) pair.borrowPool maxFeasible
    pair.collateralPool collateral pair.obligationDebtValue (margin.getD 0)
    pair.obligationCollateralValue)
  match repayCap.filter (· > 0) with
  | none => return none
  | some maxProfitable => pair.fitRepay maxProfitable maxVal

/-- The liquidator's acceptance of a Direct plan. -/
def netsMoreThan (seized repaid minProfitMarginCents : ℤ) : Bool :=
  let value := fun (amount : ℤ) (pool : PoolData) =>
    saturatingDiv (saturatingMul amount pool.oracleAssetPrice) (saturatingPow10 pool.tokenDecimals)
  let minProfitMarginValue := saturatingDiv
    (saturatingMul minProfitMarginCents (saturatingPow10 pair.oraclePriceDecimals)) 100
  match computeLiquidationProfitability (value seized pair.collateralPool)
      (value repaid pair.borrowPool) minProfitMarginValue with
  | .ok p => p.isAcceptable
  | .error _ => false

end LiquidationPair

/-- The body of the pair loop of `has_acceptable_liquidation`: whether the liquidator takes this
pair. -/
def pairIsAcceptable (obligation : Obligation) (market : MarketData) (minProfitMarginCents : ℤ)
    (now : ℕ) (isInsolvent : Bool) (borrowPool : PoolData) (deposit : DepositPosition) :
    Res Bool := do
  let collateralPool ← orErr LMError.internalError (market.findPool deposit.poolAddress)
  if collateralPool.poolAddress = borrowPool.poolAddress ∨ collateralPool.closeLtvBps ≤ 0 then
    return false
  let fresh ← LiquidationPair.new .noDust obligation market borrowPool collateralPool deposit
    isInsolvent
  let pair := fresh.accruingUntil now
  match ← pair.directRepay minProfitMarginCents with
  | none => return false
  | some repay =>
    match ← pair.quote repay with
    | .accepted seized repaid =>
      if seized ≤ 0 then
        return false
      if repaid = pair.positionDebt then
        return pair.netsMoreThan seized repaid minProfitMarginCents
      if (← borrowPool.tokensToDTokensFloor repaid) > 0 then
        return pair.netsMoreThan seized repaid minProfitMarginCents
      return false
    | _ => return false

/-- `list.iter().any(test)` with a test that may fail. -/
def anyM {α : Type} (test : α → Res Bool) : List α → Res Bool
  | [] => pure false
  | x :: xs => do if ← test x then return true else anyM test xs

theorem anyM_congr {α : Type} {f g : α → Res Bool} {l : List α} (hfg : ∀ x ∈ l, f x = g x) :
    anyM f l = anyM g l := by
  induction l with
  | nil => rfl
  | cons x l ih =>
    rw [anyM, anyM, hfg x List.mem_cons_self, ih fun y hy => hfg y (List.mem_cons_of_mem _ hy)]

theorem anyM_eq_true {α : Type} {test : α → Res Bool} {l : List α} (h : anyM test l = .ok true) :
    ∃ x ∈ l, test x = .ok true := by
  induction l with
  | nil => cases h
  | cons x l ih =>
    obtain ⟨b, hb, h⟩ := bind_eq_ok.mp h
    cases b with
    | true => exact ⟨x, List.mem_cons_self, hb⟩
    | false =>
      obtain ⟨y, hy, hok⟩ := ih h
      exact ⟨y, List.mem_cons_of_mem x hy, hok⟩

theorem anyM_eq_false {α : Type} {test : α → Res Bool} {l : List α} (h : anyM test l = .ok false) :
    ∀ x ∈ l, test x = .ok false := by
  induction l with
  | nil => nofun
  | cons x l ih =>
    obtain ⟨b, hb, h⟩ := bind_eq_ok.mp h
    cases b with
    | true => cases h
    | false => exact List.forall_mem_cons.mpr ⟨hb, ih h⟩

/-- `has_acceptable_liquidation`. -/
def hasAcceptableLiquidation (obligation : Obligation) (market : MarketData)
    (minProfitMarginCents : ℤ) (now : ℕ) : Res Bool := do
  if !(unpricedPoolsTouched obligation market).isEmpty then
    return false
  let isInsolvent ← computeIsInsolvent obligation market
  anyM (fun borrow => do
    let borrowPool ← orErr LMError.internalError (market.findPool borrow.poolAddress)
    anyM (pairIsAcceptable obligation market minProfitMarginCents now isInsolvent borrowPool)
      obligation.deposits) obligation.borrows

/-- The debt side of `seizable_collateral_covers_debt`: `none` as soon as a borrow cannot be valued. -/
def pricedDebtValue (obligation : Obligation) (market : MarketData) : Res (Option ℤ) :=
  go obligation.borrows 0
where
  go : List BorrowPosition → ℤ → Res (Option ℤ)
    | [], debtValue => pure (some debtValue)
    | borrow :: borrows, debtValue =>
      match market.findPool borrow.poolAddress with
      | none => pure none
      | some pool => do
        let value ← toOption (do valueCeil (← pool.dTokensToTokensCeil borrow.dTokens) pool)
        match value with
        | none => return none
        | some value =>
          match checkedAdd debtValue value with
          | none => return none
          | some sum => go borrows sum

/-- The collateral side: deposits in pools with a positive close LTV. -/
def seizableCollateralValue (obligation : Obligation) (market : MarketData) : Res ℤ :=
  obligation.deposits.foldlM (fun collateralValue deposit => do
    let pool ← orErr LMError.internalError (market.findPool deposit.poolAddress)
    if pool.closeLtvBps ≤ 0 then
      return collateralValue
    let tokens ← mOu (checkedAdd (← pool.jTokensToTokensFloor deposit.jTokens) deposit.collateral)
    mOu (checkedAdd collateralValue (← valueFloor tokens pool))) 0

/-- `seizable_collateral_covers_debt`. -/
def seizableCollateralCoversDebt (obligation : Obligation) (market : MarketData) : Res Bool := do
  match ← pricedDebtValue obligation market with
  | none => return false
  | some debtValue =>
    let collateralValue ← seizableCollateralValue obligation market
    return collateralValue > 0 ∧ collateralValue ≥ debtValue

/-! ## The initiator's verdict -/

/-- A deposit's value as the initiator compares it with the dust threshold. -/
def coverDepositValue (deposit : DepositPosition) (pool : PoolData) : Res ℤ := do
  let underlyingFromJ ← pool.jTokensToTokensCeil deposit.jTokens
  let totalCollateral ← mOu (checkedAdd underlyingFromJ deposit.collateral)
  let product ← mOu (checkedMul totalCollateral pool.oracleAssetPrice)
  return saturatingDiv product (← rawPow10 pool.tokenDecimals)

/-- The deposit loop: whether every deposit is priced and worth at most the threshold. -/
def allDepositsDust (market : MarketData) (threshold : ℤ) : List DepositPosition → Res Bool
  | [] => pure true
  | deposit :: deposits =>
    match market.findPool deposit.poolAddress with
    | none => pure false
    | some pool => do
      if (← coverDepositValue deposit pool) > threshold then
        return false
      allDepositsDust market threshold deposits

/-- `is_eligible_for_bad_debt_request_issuance`, at the time `now`. -/
def isEligibleForBadDebtRequestIssuance (rules : DustRules) (minProfitMarginCents : ℤ) (now : ℕ)
    (obligation : Obligation) (market : MarketData) : Res Bool := do
  if obligation.borrows.isEmpty then
    return false
  if obligation.openBadDebtRequests > 0 then
    return false
  if obligation.deposits.isEmpty then
    return true
  let minCollateralThresholdValue ←
    centsToOracleValueCeil market.minCollateralValueCents market.oraclePriceDecimals
  if !(← allDepositsDust market minCollateralThresholdValue obligation.deposits) then
    return false
  if rules = .noDust then
    if ← seizableCollateralCoversDebt obligation market then
      return false
    if ← hasAcceptableLiquidation obligation market minProfitMarginCents now then
      return false
    return true
  return true

section Verdict

variable {rules : DustRules} {margin : ℤ} {now : ℕ} {obligation : Obligation} {market : MarketData}
  {threshold : ℤ} {deposits : List DepositPosition}

theorem coverDepositValue_eq_ok {deposit : DepositPosition} {pool : PoolData} {v : ℤ}
    (h : coverDepositValue deposit pool = .ok v) :
    ∃ u, pool.jTokensToTokensCeil deposit.jTokens = .ok u ∧
      v = ((u + deposit.collateral) * pool.oracleAssetPrice).tdiv (pow10 pool.tokenDecimals) := by
  simp only [coverDepositValue, bind_eq_ok, mOu_eq_ok, checkedAdd_eq_some, checkedMul_eq_some,
    rawPow10_eq_ok, pure_eq_ok] at h
  obtain ⟨u, hu, _, ⟨-, rfl⟩, _, ⟨hp, rfl⟩, _, ⟨-, rfl⟩, rfl⟩ := h
  exact ⟨u, hu, clamp_of_fits (hp.tdiv (pow10_pos _))⟩

/-- **The deposit loop passes exactly when every deposit is priced at or under the threshold.** -/
theorem allDepositsDust_eq_true_iff :
    allDepositsDust market threshold deposits = .ok true ↔ ∀ d ∈ deposits, ∃ pool v,
      market.findPool d.poolAddress = some pool ∧ coverDepositValue d pool = .ok v ∧
        v ≤ threshold := by
  induction deposits with
  | nil => simp [allDepositsDust]
  | cons d deposits ih =>
    rw [allDepositsDust, List.forall_mem_cons, ← ih]
    cases hp : market.findPool d.poolAddress with
    | none => simp
    | some pool =>
      simp only [bind_eq_ok, Option.some.injEq]
      constructor
      · rintro ⟨v, hv, h⟩
        split_ifs at h with hgt
        · simp at h
        · exact ⟨⟨pool, v, rfl, hv, by omega⟩, h⟩
      · rintro ⟨⟨_, v, rfl, hv, hle⟩, h⟩
        exact ⟨v, hv, by rw [if_neg (by omega)]; exact h⟩

theorem allDepositsDust_eq_false (h : allDepositsDust market threshold deposits = .ok false) :
    ∃ d ∈ deposits, market.findPool d.poolAddress = none ∨ ∃ pool v,
      market.findPool d.poolAddress = some pool ∧ coverDepositValue d pool = .ok v ∧
        threshold < v := by
  induction deposits with
  | nil => simp [allDepositsDust] at h
  | cons d deposits ih =>
    rw [allDepositsDust] at h
    cases hp : market.findPool d.poolAddress with
    | none => exact ⟨d, List.mem_cons_self, .inl hp⟩
    | some pool =>
      simp only [hp, bind_eq_ok] at h
      obtain ⟨v, hv, h⟩ := h
      split_ifs at h with hgt
      · exact ⟨d, List.mem_cons_self, .inr ⟨pool, v, hp, hv, by omega⟩⟩
      · obtain ⟨d', hd', h'⟩ := ih h
        exact ⟨d', List.mem_cons_of_mem _ hd', h'⟩

variable (rules margin now obligation market) in
/-- The verdict on an obligation with debt, deposits and no open request. -/
def coverVerdict : Res Bool := do
  let threshold ← centsToOracleValueCeil market.minCollateralValueCents market.oraclePriceDecimals
  if !(← allDepositsDust market threshold obligation.deposits) then
    return false
  if rules = .noDust then
    if ← seizableCollateralCoversDebt obligation market then
      return false
    if ← hasAcceptableLiquidation obligation market margin now then
      return false
    return true
  return true

theorem owes_of_isEligible
    (h : isEligibleForBadDebtRequestIssuance rules margin now obligation market = .ok true) :
    obligation.borrows ≠ [] ∧ obligation.openBadDebtRequests = 0 := by
  unfold isEligibleForBadDebtRequestIssuance at h
  refine ⟨fun hb => ?_, ?_⟩
  · simp [hb, pure, Except.pure] at h
  · by_contra ho
    simp [Nat.pos_of_ne_zero ho, pure, Except.pure] at h

theorem isEligible_of_no_deposits (hb : obligation.borrows ≠ [])
    (ho : obligation.openBadDebtRequests = 0) (hd : obligation.deposits = []) :
    isEligibleForBadDebtRequestIssuance rules margin now obligation market = .ok true := by
  simp [isEligibleForBadDebtRequestIssuance, hb, ho, hd, pure, Except.pure]

theorem isEligible_eq_coverVerdict (hb : obligation.borrows ≠ [])
    (ho : obligation.openBadDebtRequests = 0) (hd : obligation.deposits ≠ []) :
    isEligibleForBadDebtRequestIssuance rules margin now obligation market =
      coverVerdict rules margin now obligation market := by
  simp [isEligibleForBadDebtRequestIssuance, coverVerdict, hb, ho, hd]

theorem coverVerdict_eq_true_iff :
    coverVerdict rules margin now obligation market = .ok true ↔ ∃ threshold,
      centsToOracleValueCeil market.minCollateralValueCents market.oraclePriceDecimals =
        .ok threshold ∧ allDepositsDust market threshold obligation.deposits = .ok true ∧
          (rules = .noDust → seizableCollateralCoversDebt obligation market = .ok false ∧
            hasAcceptableLiquidation obligation market margin now = .ok false) := by
  simp only [coverVerdict, bind_eq_ok]
  refine exists_congr fun t => and_congr_right fun _ => ?_
  constructor
  · rintro ⟨b, hb, h⟩
    cases b with
    | false => simp at h
    | true =>
      refine ⟨hb, fun hr => ?_⟩
      simp only [hr, Bool.not_true, Bool.false_eq_true, if_false, if_true, bind_eq_ok] at h
      obtain ⟨c, hc, h⟩ := h
      cases c with
      | true => simp at h
      | false =>
        obtain ⟨d, hd, h⟩ := bind_eq_ok.mp h
        cases d with
        | true => simp at h
        | false => exact ⟨hc, hd⟩
  · rintro ⟨hb, h⟩
    refine ⟨true, hb, ?_⟩
    cases rules with
    | sweep => rfl
    | noDust =>
      obtain ⟨hc, hd⟩ := h rfl
      simp [hc, hd, pure, Except.pure]

theorem coverVerdict_eq_false_iff :
    coverVerdict rules margin now obligation market = .ok false ↔ ∃ threshold,
      centsToOracleValueCeil market.minCollateralValueCents market.oraclePriceDecimals =
        .ok threshold ∧ (allDepositsDust market threshold obligation.deposits = .ok false ∨
          allDepositsDust market threshold obligation.deposits = .ok true ∧ rules = .noDust ∧
            (seizableCollateralCoversDebt obligation market = .ok true ∨
              seizableCollateralCoversDebt obligation market = .ok false ∧
                hasAcceptableLiquidation obligation market margin now = .ok true)) := by
  simp only [coverVerdict, bind_eq_ok]
  refine exists_congr fun t => and_congr_right fun _ => ?_
  constructor
  · rintro ⟨b, hb, h⟩
    cases b with
    | false => exact .inl hb
    | true =>
      cases rules with
      | sweep => simp at h
      | noDust =>
        refine .inr ⟨hb, rfl, ?_⟩
        simp only [Bool.not_true, Bool.false_eq_true, if_false, if_true, bind_eq_ok] at h
        obtain ⟨c, hc, h⟩ := h
        cases c with
        | true => exact .inl hc
        | false =>
          obtain ⟨d, hd, h⟩ := bind_eq_ok.mp h
          cases d with
          | true => exact .inr ⟨hc, hd⟩
          | false => simp at h
  · rintro (hb | ⟨hb, rfl, hc | ⟨hc, hd⟩⟩)
    · exact ⟨false, hb, rfl⟩
    · exact ⟨true, hb, by simp [hc, pure, Except.pure]⟩
    · exact ⟨true, hb, by simp [hc, hd, pure, Except.pure]⟩

end Verdict

end AlulaKeeper
