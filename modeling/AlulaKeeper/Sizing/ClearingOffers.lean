import Mathlib
import AlulaKeeper.Sizing.Fitting

/-!
# Clearing offers and accrued interest

An offer that clears a side of a pair is padded so that it still clears one after the pools accrued the
interest the keeper estimates.

* `LiquidationPair.le_fitRepay_of_clears`: a fitted repay that clears a side is at least the clearing offer.
* `LiquidationPair.Accrued`: the pair as it stands on chain after the estimated interest.
* `clearing_offer_survives_accrual`: the market accepts the offer there.
-/

namespace AlulaKeeper

open I128

/-- `ceil(amount * bps / BPS_FACTOR)`, exactly. -/
def accruedCeil (amount bps : ℤ) : ℤ := (amount * bps + (bpsFactor - 1)) / bpsFactor

theorem accruedCeil_le {amount bps : ℤ} (h : amount * bps + (bpsFactor - 1) ≤ maxVal) :
    accruedCeil amount bps ≤ fixedMulCeil amount bps := by
  have hb : bpsFactor = 10000 := rfl
  have h1 : amount * bps ≤ clamp (amount * bps) := by
    unfold clamp; omega
  have h2 : amount * bps + (bpsFactor - 1) ≤ clamp (clamp (amount * bps) + (bpsFactor - 1)) := by
    unfold clamp at h1 ⊢
    omega
  rw [fixedMulCeil_eq, accruedCeil]
  calc (amount * bps + (bpsFactor - 1)) / bpsFactor
      ≤ clamp (clamp (amount * bps) + (bpsFactor - 1)) / bpsFactor :=
        Int.ediv_le_ediv bpsFactor_pos h2
    _ ≤ (clamp (clamp (amount * bps) + (bpsFactor - 1))).tdiv bpsFactor := ediv_le_tdiv bpsFactor_pos

/-- Past the range the growth saturates. -/
theorem fixedMulCeil_saturated {amount bps : ℤ} (h : maxVal < amount * bps + (bpsFactor - 1)) :
    fixedMulCeil amount bps = maxVal / bpsFactor := by
  have hb : bpsFactor = 10000 := rfl
  have h1 : clamp (clamp (amount * bps) + (bpsFactor - 1)) = maxVal := by
    refine clamp_eq_max ?_
    rw [hb] at h ⊢
    unfold clamp minVal maxVal at *
    omega
  rw [fixedMulCeil_eq, h1]
  decide

namespace LiquidationPair

variable {pair : LiquidationPair} {x : ℤ}

/-! ## Offers that clear -/

section Clears

variable {c : Clearing} {repay maxOffer offer : ℤ}

/-- **A fitted repay that clears a side is at least the clearing offer.** -/
theorem le_fitRepay_of_clears (h : pair.Priced) (h1 : 1 ≤ repay) (hrepay : Fits repay)
    (hmax : repay ≤ maxOffer) (hfit : pair.fitRepay repay maxOffer = .ok (some offer))
    (hclears : pair.Clears offer) (hclear : pair.clearing = .ok (some c)) (hoffer : c.offer ≤ maxOffer) :
    c.offer ≤ offer := by
  obtain ⟨lifted, pc, hl, hpc, -⟩ := h.of_clearing hclear
  -- what is offered under the snapshot's clearing repay clears nothing
  have hbelow : ∀ x, 1 ≤ x → x < c.atSnapshot → offer ≠ x := by
    rintro x hx hlt rfl
    obtain ⟨s, r, hq, -⟩ := id hclears
    exact absurd ((h.clears_iff_atSnapshot_le hclear hx hq).mp hclears).1 (not_le.mpr hlt)
  have hpartial : pair.largestPartialRepay (min repay maxOffer) ≠ .ok (some offer) := by
    rw [min_eq_left hmax]
    intro hpart
    obtain ⟨-, -, hlow, -, hlt, -⟩ := h.partial_spec hclear hl hpc hrepay le_rfl hpart
    exact hbelow offer hlow hlt rfl
  rw [fitRepay_eq_fitFrom h.rules hclear] at hfit
  rcases le_or_gt c.atSnapshot repay with hle | hlt
  · obtain ⟨-, heq⟩ | ⟨-, hpart⟩ := (fitFrom_clears hle).mp hfit
    · rw [Option.some.inj heq]
      exact le_min (le_max_right _ _) hoffer
    · exact absurd hpart hpartial
  · obtain ⟨-, heq⟩ | ⟨-, ⟨-, heq⟩ | ⟨-, hpart⟩⟩ := fitFrom_below hlt hfit
    · exact absurd (Option.some.inj heq) (hbelow repay h1 hlt)
    · exact (Option.some.inj heq).ge
    · exact absurd hpart hpartial

end Clears

/-! ## The pair on chain -/

/-- `chain` is `pair` after at most the interest `pair` estimates: the same terms, still lifted, with a
debt and supplied tokens that grew. -/
structure Accrued (pair chain : LiquidationPair) : Prop where
  rules : chain.rules = .noDust
  borrowPrice : chain.borrowPool.oracleAssetPrice = pair.borrowPool.oracleAssetPrice
  borrowDecimals : chain.borrowPool.tokenDecimals = pair.borrowPool.tokenDecimals
  borrowIncentive :
    chain.borrowPool.maxLiquidationIncentiveBps = pair.borrowPool.maxLiquidationIncentiveBps
  collateralPrice : chain.collateralPool.oracleAssetPrice = pair.collateralPool.oracleAssetPrice
  collateralDecimals : chain.collateralPool.tokenDecimals = pair.collateralPool.tokenDecimals
  collateralIncentive :
    chain.collateralPool.maxLiquidationIncentiveBps = pair.collateralPool.maxLiquidationIncentiveBps
  floorCents : chain.minCollateralValueCents = pair.minCollateralValueCents
  floorDecimals : chain.oraclePriceDecimals = pair.oraclePriceDecimals
  plain : chain.deposit.collateral = pair.deposit.collateral
  lifted : chain.liftsCloseFactor = .ok true
  debt_le : pair.positionDebt ≤ chain.positionDebt
  le_debt : chain.positionDebt ≤
    pair.positionDebt + accruedCeil pair.positionDebt pair.debtAccrualBps
  supply : ∀ S S', pair.suppliedTokens = .ok S → chain.suppliedTokens = .ok S' →
    S ≤ S' ∧ S' ≤ S + accruedCeil S pair.supplyAccrualBps

theorem Accrued.buys_eq {chain : LiquidationPair} (h : Accrued pair chain) (repaid : ℤ) :
    chain.buys repaid true = pair.buys repaid true := by
  rw [buys_lifted, buys_lifted]
  simp only [valueFloor, amountFloor, tokenFactor, incentiveBps, h.borrowPrice, h.borrowDecimals,
    h.borrowIncentive, h.collateralPrice, h.collateralDecimals, h.collateralIncentive]

theorem buys_lifted_le {b : ℤ} (h : pair.buys x true = .ok b) : b ≤ maxVal / bpsFactor := by
  rw [buys_lifted] at h
  obtain ⟨v, -, h⟩ := bind_eq_ok.mp h
  obtain ⟨a, -, h⟩ := bind_eq_ok.mp h
  obtain ⟨-, hfit, rfl⟩ := addIncentive_eq_ok.mp h
  calc (a * (bpsFactor + pair.incentiveBps)).tdiv bpsFactor
      ≤ maxVal.tdiv bpsFactor := Int.tdiv_le_tdiv bpsFactor_pos hfit.2
    _ = maxVal / bpsFactor := by decide

/-- **An offer from the clearing one up clears a side of the grown pair**: it covers the grown debt, or
buys the grown collateral. -/
theorem covers_or_buys {c : Clearing} {S S' D' offer : ℤ}
    (hb : 0 < pair.borrowPool.oracleAssetPrice) (hc : 0 < pair.collateralPool.oracleAssetPrice)
    (hf : 0 ≤ bpsFactor + pair.incentiveBps) (ha : 0 ≤ pair.debtAccrualBps)
    (hm : 0 ≤ pair.margin.refundedBps) (hm' : 0 ≤ pair.margin.unrefundedBps)
    (hl : pair.liftsCloseFactor = .ok true) (hclear : pair.clearing = .ok (some c))
    (hle : c.offer ≤ offer)
    (hsat : pair.positionDebt * pair.debtAccrualBps + (bpsFactor - 1) ≤ maxVal)
    (hD' : D' ≤ pair.positionDebt + accruedCeil pair.positionDebt pair.debtAccrualBps)
    (hS : pair.suppliedTokens = .ok S) (hS' : S' ≤ S + accruedCeil S pair.supplyAccrualBps) :
    D' ≤ offer ∨ ∀ b, pair.buys offer true = .ok b → S' + pair.deposit.collateral ≤ b := by
  obtain ⟨S₀, hS₀, -, hD, hpos, gD, buying, -, hgD, hbuying, hoffer, -⟩ := clearing_spec hl hclear
  obtain rfl : S = S₀ := ok_unique hS hS₀
  obtain ⟨hgfit, hgeq⟩ := grown_eq_ok.mp hgD
  have hcover := accruedCeil_le hsat
  have hDg := le_grown hD.le ha hgD
  cases buying with
  | none =>
    have hpad : gD ≤ c.offer := le_grown (by omega) hm hoffer
    exact .inl (by omega)
  | some y =>
    rw [← hgeq] at hgfit
    obtain ⟨hy1, -, ⟨B, hB, htarget⟩, -⟩ := repayBuying_some hb.le hc hf (by omega) hgfit hbuying
    have hpad : y ≤ c.offer := by
      obtain ⟨small, -, hoffer⟩ := bind_eq_ok.mp hoffer
      cases small with
      | true => exact le_grown (by omega) hm hoffer
      | false => exact le_grown (by omega) hm' hoffer
    refine .inr fun b hbuys => ?_
    have hBb := (downward_buys hb.le hc hf true).mono (by omega) (hpad.trans hle) hB hbuys
    -- a supply estimate that saturated asks for more than any repay buys
    rcases le_or_gt (S * pair.supplyAccrualBps + (bpsFactor - 1)) maxVal with hs | hs
    · have := accruedCeil_le hs
      generalize pair.deposit.collateral = plain at *
      omega
    · have hBmax := buys_lifted_le hB
      rw [fixedMulCeil_saturated hs] at htarget
      generalize pair.deposit.collateral = plain at *
      omega

end LiquidationPair

open LiquidationPair

/-- **Clearing offers survive the estimated interest.** A fitted repay that clears a side of a lifted pair
is accepted on chain after the pools accrued at most the estimates, when the debt's estimate did not
saturate. -/
theorem clearing_offer_survives_accrual {pair chain : LiquidationPair} {c : Clearing} {q : Seizure}
    {repay maxOffer offer s r : ℤ} (hrules : pair.rules = .noDust)
    (hb : 0 < pair.borrowPool.oracleAssetPrice) (hc : 0 < pair.collateralPool.oracleAssetPrice)
    (hi : 0 ≤ pair.borrowPool.maxLiquidationIncentiveBps)
    (hi' : 0 ≤ pair.collateralPool.maxLiquidationIncentiveBps) (ha : 0 ≤ pair.debtAccrualBps)
    (hm : 0 ≤ pair.margin.refundedBps) (hm' : 0 ≤ pair.margin.unrefundedBps)
    (hl : pair.liftsCloseFactor = .ok true) (h1 : 1 ≤ repay) (hrepay : Fits repay)
    (hmax : repay ≤ maxOffer) (hfit : pair.fitRepay repay maxOffer = .ok (some offer))
    (hq : pair.quote offer = .ok (.accepted s r))
    (hclears : pair.positionCollateral = .ok s ∨ r = pair.positionDebt)
    (hclear : pair.clearing = .ok (some c)) (hoffer : c.offer ≤ maxOffer)
    (hsat : pair.positionDebt * pair.debtAccrualBps + (bpsFactor - 1) ≤ maxVal)
    (hchain : Accrued pair chain) (hq' : chain.quote offer = .ok q) : q.isAccepted = true := by
  have hf : 0 ≤ bpsFactor + pair.incentiveBps :=
    add_nonneg bpsFactor_pos.le (le_min hi hi')
  have hle := le_fitRepay_of_clears ⟨hrules, hb, hc⟩ h1 hrepay hmax hfit ⟨s, r, hq, hclears⟩ hclear hoffer
  rw [quote, hchain.rules] at hq'
  obtain ⟨pc, hpc, -⟩ := bind_eq_ok.mp hq'
  have hwhole : ∀ b, pair.buys offer true = .ok b → offer < chain.positionDebt → pc ≤ b := by
    intro b hbuys hlt
    obtain ⟨S, hS, -⟩ := clearing_spec hl hclear
    obtain ⟨S', hS', hadd⟩ := bind_eq_ok.mp hpc
    obtain ⟨-, rfl⟩ := checkedAdd_eq_some.mp (mOu_eq_ok.mp hadd)
    rw [hchain.plain]
    rcases covers_or_buys hb hc hf ha hm hm' hl hclear hle hsat hchain.le_debt hS
      (hchain.supply S S' hS hS').2 with h | h
    · omega
    · exact h b hbuys
  by_cases hn : chain.QuotesNothing offer pc
  · dsimp only at hq'
    rw [quoteNoDust_nothing hpc hn, Except.ok.injEq] at hq'
    rw [← hq']
    rfl
  · obtain ⟨lifted, exceeds, hl', hover, hcase⟩ := (quoteNoDust_eq_ok_iff hpc hn).mp hq'
    obtain rfl := ok_unique hchain.lifted hl'
    rw [overCloseFactor, if_pos rfl, pure_eq_ok] at hover
    subst hover
    obtain ⟨hbad, -⟩ | ⟨-, b, repaid, dust, hbuys, hrep, -, -, hdust, rfl⟩ := hcase
    · cases hbad
    · have hcleared : pc - min pc b ≤ 0 ∨ chain.positionDebt - repaid ≤ 0 := by
        by_cases hs : min pc b = pc
        · exact .inl (by omega)
        · rw [refundedRepay, if_neg hs, pure_eq_ok] at hrep
          rcases le_or_gt chain.positionDebt offer with hD' | hD'
          · exact .inr (by omega)
          · rw [min_eq_left hD'.le, hchain.buys_eq] at hbuys
            exact absurd (min_eq_left (hwhole b hbuys hD')) hs
      rw [leavesDust, if_pos hcleared, pure_eq_ok] at hdust
      rw [← hdust]
      rfl

theorem LiquidationPair.Accrued.of_debt {pair : LiquidationPair} {D' : ℤ}
    (hrules : pair.rules = .noDust) (hj : pair.deposit.jTokens = 0)
    (hl : { pair with positionDebt := D' }.liftsCloseFactor = .ok true)
    (hle : pair.positionDebt ≤ D')
    (hD' : D' ≤ pair.positionDebt + accruedCeil pair.positionDebt pair.debtAccrualBps) :
    Accrued pair { pair with positionDebt := D' } where
  rules := hrules
  borrowPrice := rfl
  borrowDecimals := rfl
  borrowIncentive := rfl
  collateralPrice := rfl
  collateralDecimals := rfl
  collateralIncentive := rfl
  floorCents := rfl
  floorDecimals := rfl
  plain := rfl
  lifted := hl
  debt_le := hle
  le_debt := hD'
  supply S S' hS hS' := by
    have h0 : pair.suppliedTokens = .ok 0 := by
      rw [suppliedTokens, PoolData.jTokensToTokensFloor, hj, PoolData.shareFloor_zero]
    obtain rfl : (0 : ℤ) = S := ok_unique h0 hS
    obtain rfl : (0 : ℤ) = S' := ok_unique h0 hS'
    simp [accruedCeil, bpsFactor]

/-- $8 owed against $6 of gold: an offer of $7 takes the gold whole, also after the debt accrued. -/
theorem clearing_offer_survives_ten_bps :
    ∃ q, { dustPair 80000000 60000000 with positionDebt := 80080000, debtAccrualBps := 10 }.quote
      70000000 = .ok q ∧ q.isAccepted = true := by
  have hq : { dustPair 80000000 60000000 with positionDebt := 80080000, debtAccrualBps := 10 }.quote
      70000000 = .ok (.accepted 60000000 54545455) := by decide +kernel
  refine ⟨_, hq, ?_⟩
  exact @clearing_offer_survives_accrual { dustPair 80000000 60000000 with debtAccrualBps := 10 }
    { dustPair 80000000 60000000 with positionDebt := 80080000, debtAccrualBps := 10 }
    ⟨54545455, 55090910⟩ _ 70000000 maxVal 70000000 60000000 54545455 rfl (by decide) (by decide)
    (by decide) (by decide) (by decide) (by decide) (by decide) (by decide +kernel) (by decide)
    (by decide) (by decide) (by decide +kernel) (by decide +kernel) (.inl (by decide +kernel))
    (by decide +kernel) (by decide) (by decide +kernel)
    (.of_debt rfl rfl (by decide +kernel) (by decide) (by decide +kernel)) hq

/-- An insolvent pair whose debt estimate, a hundredfold, leaves the range. -/
def saturatedPair (debt : ℤ) : LiquidationPair where
  rules := .noDust
  borrowPool := { dustPool "USDC" 1 with maxLiquidationIncentiveBps := 0 }
  collateralPool := { dustPool "GOLD" 1 with maxLiquidationIncentiveBps := 0, tokenDecimals := 0 }
  deposit := { jTokens := 0, collateral := 10 ^ 29, poolAddress := "GOLD" }
  positionDebt := debt
  obligationDebtValue := 10 ^ 29
  obligationCollateralValue := 10 ^ 29
  isInsolvent := true
  minCollateralValueCents := 10 ^ 30
  oraclePriceDecimals := 0
  debtAccrualBps := 1000000
  supplyAccrualBps := 0
  margin := .initial

/-- With a saturated estimate the clearing offer is short of the accrued debt and leaves dust. -/
theorem saturated_clearing_offer_leaves_dust :
    (saturatedPair (10 ^ 33)).rules = .noDust ∧
      0 < (saturatedPair (10 ^ 33)).borrowPool.oracleAssetPrice ∧
      0 < (saturatedPair (10 ^ 33)).collateralPool.oracleAssetPrice ∧
      0 ≤ (saturatedPair (10 ^ 33)).incentiveBps ∧
      0 ≤ (saturatedPair (10 ^ 33)).debtAccrualBps ∧
      0 ≤ (saturatedPair (10 ^ 33)).supplyAccrualBps ∧
      (saturatedPair (10 ^ 33)).liftsCloseFactor = .ok true ∧
      (10 : ℤ) ^ 33 ≤ maxVal ∧
      (saturatedPair (10 ^ 33)).fitRepay (10 ^ 33) maxVal =
        .ok (some 18194259529507392404900417675304295) ∧
      (saturatedPair (10 ^ 33)).quote 18194259529507392404900417675304295 =
        .ok (.accepted (10 ^ 26) (10 ^ 33)) ∧
      (saturatedPair (10 ^ 33)).clearing =
        .ok (some ⟨10 ^ 33, 18194259529507392404900417675304295⟩) ∧
      Accrued (saturatedPair (10 ^ 33)) (saturatedPair (101 * 10 ^ 33)) ∧
      (saturatedPair (101 * 10 ^ 33)).quote 18194259529507392404900417675304295 =
        .ok .leavesDust := by
  refine ⟨rfl, by decide, by decide, by decide, by decide, by decide, by decide +kernel, by decide,
    by decide +kernel, by decide +kernel, by decide +kernel, ?_, by decide +kernel⟩
  exact .of_debt rfl rfl (by decide +kernel) (by decide) (by decide +kernel)

end AlulaKeeper
