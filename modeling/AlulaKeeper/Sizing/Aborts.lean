import Mathlib
import AlulaKeeper.Sizing.Headroom

/-!
# Where the sizing of a pair does not abort

The checked operations of a pair's sizing end in an error; its unchecked ones abort the process. On a pair
with a positive incentive factor they stay in range: what they need of the prices is checked before them.

* `LiquidationPair.Sized`: the debt and the borrow price are `i128`s, the factor is positive.
* `LiquidationPair.Tradable`: so are the prices.
* `LiquidationPair.quote_noAbort`, `LiquidationPair.fitRepay_noAbort`: no offer aborts on a sized pair.
* `LiquidationPair.fitRepay_le`: what is offered for a repay.
-/

namespace AlulaKeeper

open I128

theorem noAbort_mOu {α : Type} (o : Option α) : NoAbort (mOu o) := noAbort_orErr _ o

theorem noAbort_pure {α : Type} (a : α) : NoAbort (pure a : Res α) := nofun

section Scalings

variable {v D C : ℤ} {pool : PoolData}

theorem noAbort_dustFloorValue {cents : ℤ} {n : ℕ} : NoAbort (dustFloorValue cents n) :=
  (noAbort_mOu _).bind fun _ _ => (noAbort_mOu _).bind fun _ _ => noAbort_mOu _

theorem noAbort_valueFloor : NoAbort (valueFloor v pool) :=
  (noAbort_mOu _).bind fun _ _ => (noAbort_mOu _).bind fun _ _ => noAbort_mOu _

theorem noAbort_amountFloor : NoAbort (amountFloor v pool) :=
  (noAbort_mOu _).bind fun _ _ => (noAbort_mOu _).bind fun _ _ => noAbort_mOu _

theorem noAbort_valueCeil : NoAbort (valueCeil v pool) := by
  refine (noAbort_mOu _).bind fun factor hfactor => (noAbort_mOu _).bind fun _ _ => ?_
  obtain ⟨hfit, rfl⟩ := checkedPow10_eq_some.mp (mOu_eq_ok.mp hfactor)
  exact (noAbort_raw (fits_pow10_sub_one hfit)).bind fun _ _ =>
    (noAbort_mOu _).bind fun _ _ => noAbort_mOu _

theorem noAbort_amountCeil (hp : 0 < pool.oracleAssetPrice) (hfit : Fits pool.oracleAssetPrice) :
    NoAbort (amountCeil v pool) := by
  refine (noAbort_mOu _).bind fun _ _ => (noAbort_mOu _).bind fun _ _ => ?_
  exact (noAbort_raw (hfit.of_nonneg_of_le (by omega) (by omega))).bind fun _ _ =>
    (noAbort_mOu _).bind fun _ _ => noAbort_mOu _

theorem noAbort_addIncentive {incentive : ℤ} : NoAbort (addIncentive v incentive) :=
  (noAbort_mOu _).bind fun _ _ => (noAbort_mOu _).bind fun _ _ => noAbort_mOu _

theorem noAbort_strictlyUnder : NoAbort (strictlyUnder v) :=
  (noAbort_mOu _).bind fun _ _ => noAbort_mOu _

theorem noAbort_healthFactorCap : NoAbort (healthFactorCap v D C) :=
  (noAbort_mOu _).bind fun _ _ => (noAbort_mOu _).bind fun _ _ => (noAbort_mOu _).bind fun _ _ =>
    (noAbort_mOu _).bind fun _ _ => noAbort_strictlyUnder

end Scalings

namespace LiquidationPair

/-- Prices and incentive factor are positive and the debt is an `i128`. -/
structure Tradable (pair : LiquidationPair) : Prop where
  borrow_pos : 0 < pair.borrowPool.oracleAssetPrice
  borrow_fits : Fits pair.borrowPool.oracleAssetPrice
  collateral_pos : 0 < pair.collateralPool.oracleAssetPrice
  factor_pos : 0 < bpsFactor + pair.incentiveBps
  debt_le : pair.positionDebt ≤ maxVal
  supplied : NoAbort pair.suppliedTokens

/-- The debt and the borrow price are `i128`s, and the incentive factor is positive; the prices may be
anything. -/
structure Sized (pair : LiquidationPair) : Prop where
  borrow_fits : Fits pair.borrowPool.oracleAssetPrice
  factor_pos : 0 < bpsFactor + pair.incentiveBps
  debt_le : pair.positionDebt ≤ maxVal
  supplied : NoAbort pair.suppliedTokens

variable {pair : LiquidationPair} {pc r repay maxOffer : ℤ} {lifted : Bool}

theorem Sized.tradable (h : pair.Sized) (hb : 0 < pair.borrowPool.oracleAssetPrice)
    (hc : 0 < pair.collateralPool.oracleAssetPrice) : pair.Tradable :=
  ⟨hb, h.borrow_fits, hc, h.factor_pos, h.debt_le, h.supplied⟩

/-! ## The parts of a quote -/

theorem noAbort_sweep :
    NoAbort (computeExpectedSeizedCollateral repay pair.borrowPool pair.collateralPool pair.deposit
      pair.obligationDebtValue pair.obligationCollateralValue pair.isInsolvent
      pair.minCollateralValueCents pair.oraclePriceDecimals) := by
  refine NoAbort.ite (fun _ => noAbort_pure _) fun _ => (noAbort_mOu _).bind fun sum _ => ?_
  refine NoAbort.ite (fun _ => noAbort_pure _) fun _ => noAbort_valueFloor.bind fun _ _ =>
    noAbort_amountFloor.bind fun _ _ => noAbort_addIncentive.bind fun _ _ => ?_
  refine NoAbort.ite (fun _ => noAbort_pure _) fun _ => NoAbort.bind ?_ fun _ _ =>
    (noAbort_mOu _).bind fun _ _ => noAbort_valueFloor.bind fun _ _ =>
      noAbort_dustFloorValue.bind fun _ _ => noAbort_pure _
  exact NoAbort.ite (fun _ => noAbort_pure _) fun _ => noAbort_healthFactorCap.bind fun _ _ =>
    noAbort_amountFloor.bind fun _ _ => noAbort_pure _

theorem noAbort_buys : NoAbort (pair.buys r lifted) := by
  refine noAbort_valueFloor.bind fun _ _ => noAbort_amountFloor.bind fun _ _ =>
    noAbort_addIncentive.bind fun _ _ => ?_
  split_ifs
  · exact noAbort_pure _
  · exact noAbort_pure _
  · refine NoAbort.bind ?_ fun _ _ => noAbort_amountFloor.bind fun _ _ => noAbort_pure _
    exact (noAbort_mOu _).bind fun _ _ => (noAbort_mOu _).bind fun _ _ => noAbort_strictlyUnder

theorem noAbort_leavesDust {left debt : ℤ} : NoAbort (pair.leavesDust left debt) := by
  unfold leavesDust
  split_ifs
  · exact noAbort_pure _
  · refine noAbort_dustFloorValue.bind fun _ _ => noAbort_valueFloor.bind fun _ _ => ?_
    split_ifs
    · exact noAbort_pure _
    · exact noAbort_valueCeil.bind fun _ _ => noAbort_pure _

namespace Sized

variable (h : pair.Sized)

include h

theorem noAbort_positionCollateral : NoAbort pair.positionCollateral :=
  h.supplied.bind fun _ _ => noAbort_mOu _

theorem noAbort_isSmallPosition : NoAbort pair.isSmallPosition := by
  refine noAbort_dustFloorValue.bind fun _ _ => (noAbort_mOu _).bind fun _ _ =>
    h.noAbort_positionCollateral.bind fun _ _ => noAbort_valueFloor.bind fun _ _ => ?_
  split_ifs
  · exact noAbort_pure _
  · exact noAbort_valueCeil.bind fun _ _ => noAbort_pure _

theorem noAbort_liftsCloseFactor : NoAbort pair.liftsCloseFactor := by
  unfold liftsCloseFactor
  split_ifs
  · exact noAbort_pure _
  · exact h.noAbort_isSmallPosition
  · exact noAbort_pure _

end Sized

namespace Tradable

variable (h : pair.Tradable)

include h

theorem sized : pair.Sized := ⟨h.borrow_fits, h.factor_pos, h.debt_le, h.supplied⟩

theorem noAbort_wholePositionRepay : NoAbort (pair.wholePositionRepay pc) := by
  refine (noAbort_mOu _).bind fun factor hfactor => noAbort_valueCeil.bind fun _ _ =>
    (noAbort_mOu _).bind fun _ _ => ?_
  obtain ⟨hfit, rfl⟩ := checkedAdd_eq_some.mp (mOu_eq_ok.mp hfactor)
  have hpos := h.factor_pos
  exact (noAbort_raw (hfit.of_nonneg_of_le (by omega) (by omega))).bind fun _ _ =>
    (noAbort_mOu _).bind fun _ _ => (noAbort_mOu _).bind fun _ _ =>
      noAbort_amountCeil h.borrow_pos h.borrow_fits

theorem noAbort_refundedRepay {seized : ℤ} : NoAbort (pair.refundedRepay pc seized r) := by
  unfold refundedRepay
  split_ifs
  · refine h.sized.noAbort_isSmallPosition.bind fun small _ => ?_
    split_ifs
    · exact h.noAbort_wholePositionRepay.bind fun _ _ => noAbort_pure _
    · exact noAbort_pure _
  · exact noAbort_pure _

theorem fits_debt_sub (h0 : 0 ≤ r) (hle : r ≤ pair.positionDebt) : Fits (pair.positionDebt - r) :=
  (show Fits maxVal by decide).of_nonneg_of_le (by omega) (by have := h.debt_le; omega)

theorem noAbort_overCloseFactor (hD : 0 < pair.positionDebt) :
    NoAbort (pair.overCloseFactor r lifted) := by
  unfold overCloseFactor
  split_ifs
  · exact noAbort_pure _
  · exact (noAbort_mOu _).bind fun _ _ => (noAbort_raw (h.fits_debt_sub (by omega) hD)).bind
      fun _ _ => (noAbort_mOu _).bind fun _ _ => (noAbort_mOu _).bind fun _ _ => noAbort_pure _

theorem fits_collateral_sub {b : ℤ} (hpc : pair.positionCollateral = .ok pc) (h0 : 0 ≤ r)
    (hb : pair.buys r lifted = .ok b) : Fits (pc - min pc b) := by
  have hfit := fits_positionCollateral hpc
  have hb0 := (downward_buys h.borrow_pos.le h.collateral_pos h.factor_pos.le lifted).nonneg h0 hb
  rcases le_or_gt pc 0 with hneg | hpos
  · rw [min_eq_left (by omega), sub_self]
    exact fits_zero
  · exact hfit.of_nonneg_of_le (by omega) (by omega)

end Tradable

/-! ## Quotes -/

/-- **No offer to a sized pair aborts**: without prices, debt or collateral it is quoted nothing. -/
theorem quote_noAbort (hs : pair.Sized) (offer : ℤ) : NoAbort (pair.quote offer) := by
  unfold quote
  cases pair.rules with
  | sweep => exact noAbort_sweep.bind fun _ _ => noAbort_pure _
  | noDust =>
    refine hs.noAbort_positionCollateral.bind fun pc hpc => ?_
    split_ifs with hn
    · exact noAbort_pure _
    · have h : pair.Tradable := hs.tradable (by omega) (by omega)
      have hD : 0 < pair.positionDebt := by omega
      have hr : 0 ≤ min offer pair.positionDebt := by omega
      refine hs.noAbort_liftsCloseFactor.bind fun lifted _ =>
        (h.noAbort_overCloseFactor hD).bind fun exceeds _ => ?_
      split_ifs
      · exact noAbort_pure _
      · refine noAbort_buys.bind fun b hb => h.noAbort_refundedRepay.bind fun repaid hrepaid => ?_
        have hmem := refundedRepay_mem h.borrow_pos h.collateral_pos.le h.factor_pos.le (by omega) hr
          hrepaid
        refine (noAbort_raw (h.fits_collateral_sub hpc hr hb)).bind fun _ _ =>
          (noAbort_raw (h.fits_debt_sub hmem.1 (by omega))).bind fun _ _ =>
          noAbort_leavesDust.bind fun dust _ => ?_
        split_ifs <;> exact noAbort_pure _

theorem accepts_noAbort (h : pair.Sized) (offer : ℤ) : NoAbort (pair.accepts offer) :=
  (quote_noAbort h offer).bind fun _ _ => noAbort_pure _

theorem tradable_of_refused (hs : pair.Sized) (hrules : pair.rules = .noDust) {offer : ℤ}
    (h : pair.accepts offer = .ok false) : pair.Tradable ∧ 0 < pair.positionDebt := by
  obtain ⟨q, hq, h⟩ := bind_eq_ok.mp h
  obtain ⟨pc, hpc⟩ := positionCollateral_of_quote hrules ⟨q, hq⟩
  rw [quote, hrules] at hq
  have hquotes : ¬ pair.QuotesNothing offer pc := fun hnothing => by
    obtain rfl : Seizure.accepted 0 0 = q := ok_unique (quoteNoDust_nothing hpc hnothing) hq
    cases pure_eq_ok.mp h
  unfold QuotesNothing at hquotes
  exact ⟨hs.tradable (by omega) (by omega), by omega⟩

/-! ## Fitted repays -/

theorem noAbort_grown {a bps : ℤ} : NoAbort (grown a bps) := noAbort_mOu _

theorem noAbort_repayBuying {target debt : ℤ} (hle : debt ≤ maxVal) :
    NoAbort (pair.repayBuying lifted target debt) := by
  refine noAbort_buys.bind fun b _ => ?_
  split_ifs
  · exact noAbort_pure _
  · exact (Search.least_noAbort hle fun x _ _ => noAbort_buys.bind fun _ _ => noAbort_pure _).bind
      fun _ _ => noAbort_pure _

theorem clearing_noAbort (h : pair.Sized) : NoAbort pair.clearing := by
  refine h.noAbort_positionCollateral.bind fun _ _ => ?_
  split_ifs
  · exact noAbort_pure _
  · refine h.noAbort_liftsCloseFactor.bind fun lifted _ => noAbort_grown.bind fun gD hgD =>
      h.supplied.bind fun _ _ => noAbort_grown.bind fun _ _ => (noAbort_mOu _).bind fun _ _ =>
      (noAbort_repayBuying ?_).bind fun buying _ => NoAbort.bind ?_ fun _ _ =>
      (noAbort_repayBuying h.debt_le).bind fun _ _ => noAbort_pure _
    · obtain ⟨hfit, rfl⟩ := grown_eq_ok.mp hgD
      exact hfit.2
    · cases buying with
      | none => exact noAbort_grown
      | some x =>
        refine h.noAbort_isSmallPosition.bind fun small _ => ?_
        split_ifs <;> exact noAbort_grown

theorem keepsBothSides_noAbort (h : pair.Tradable) (hD : 0 < pair.positionDebt)
    (hpc : pair.positionCollateral = .ok pc) {floor : ℤ} (h1 : 1 ≤ r) :
    NoAbort (pair.keepsBothSides lifted floor pc r) := by
  have hr : 0 ≤ min r pair.positionDebt := by omega
  refine noAbort_buys.bind fun b hb =>
    (noAbort_raw (h.fits_collateral_sub hpc hr hb)).bind fun _ _ =>
    (noAbort_raw (h.fits_debt_sub hr (min_le_right _ _))).bind fun _ _ => ?_
  refine NoAbort.ite (fun _ => noAbort_pure _) fun _ => noAbort_valueFloor.bind fun _ _ => ?_
  exact NoAbort.ite (fun _ => noAbort_pure _) fun _ => noAbort_valueCeil.bind fun _ _ =>
    noAbort_pure _

theorem largestPartialRepay_noAbort (h : pair.Tradable) (hD : 0 < pair.positionDebt) {upper : ℤ}
    (hle : upper ≤ maxVal) : NoAbort (pair.largestPartialRepay upper) := by
  refine h.sized.noAbort_positionCollateral.bind fun pc hpc => h.sized.noAbort_liftsCloseFactor.bind
    fun lifted _ => noAbort_dustFloorValue.bind fun floor _ => ?_
  split_ifs with h1
  · exact noAbort_pure _
  · refine (keepsBothSides_noAbort h hD hpc le_rfl).bind fun keeps _ => ?_
    split_ifs
    · exact noAbort_pure _
    · have hfit : Fits upper := (show Fits maxVal by decide).of_nonneg_of_le (by omega) hle
      refine (Search.greatest_noAbort le_rfl (by omega) hfit fun x hx _ =>
        keepsBothSides_noAbort h hD hpc hx).bind fun low _ => (quote_noAbort h.sized low).bind fun q _ => ?_
      split_ifs <;> exact noAbort_pure _

theorem offer_noAbort (h : pair.Sized) {x : ℤ} {next : Res (Option ℤ)}
    (hn : pair.accepts x = .ok false → NoAbort next) :
    NoAbort (pair.accepts x >>= fun a => if a = true then pure (some x) else next) := by
  refine (accepts_noAbort h x).bind fun a ha => ?_
  cases a with
  | true => exact noAbort_pure _
  | false => exact hn ha

/-- **No fit of a repay to a sized pair aborts.** -/
theorem fitRepay_noAbort (h : pair.Sized) (hle : repay ≤ maxVal) :
    NoAbort (pair.fitRepay repay maxOffer) := by
  unfold fitRepay
  split_ifs with hsweep
  · exact noAbort_pure _
  · have hrules : pair.rules = .noDust := by
      cases hr : pair.rules with
      | sweep => exact absurd hr hsweep
      | noDust => rfl
    have hpart : ∀ x, pair.accepts x = .ok false →
        NoAbort (pair.largestPartialRepay (min repay maxOffer)) := fun x hx => by
      obtain ⟨htradable, hD⟩ := tradable_of_refused h hrules hx
      exact largestPartialRepay_noAbort htradable hD ((min_le_left _ _).trans hle)
    refine (clearing_noAbort h).bind fun c _ => ?_
    cases c with
    | none => exact offer_noAbort h (hpart _)
    | some clear =>
      dsimp only
      split_ifs
      · exact offer_noAbort h (hpart _)
      · exact offer_noAbort h fun _ => offer_noAbort h (hpart _)
      · exact offer_noAbort h (hpart _)

theorem largestPartialRepay_le {upper o : ℤ} (hle : upper ≤ maxVal)
    (h : pair.largestPartialRepay upper = .ok (some o)) : o ≤ upper := by
  obtain ⟨pc, -, h⟩ := bind_eq_ok.mp h
  obtain ⟨lifted, -, h⟩ := bind_eq_ok.mp h
  obtain ⟨floor, -, h⟩ := bind_eq_ok.mp h
  split_ifs at h with h1
  · cases pure_eq_ok.mp h
  · obtain ⟨keeps, -, h⟩ := bind_eq_ok.mp h
    split_ifs at h
    · cases pure_eq_ok.mp h
    · obtain ⟨low, hlow, h⟩ := bind_eq_ok.mp h
      obtain ⟨q, -, h⟩ := bind_eq_ok.mp h
      have hfit : Fits upper := (show Fits maxVal by decide).of_nonneg_of_le (by omega) hle
      have hmem := Search.greatest_mem le_rfl (by omega) hfit hlow
      split_ifs at h
      · obtain rfl := Option.some.inj (pure_eq_ok.mp h)
        exact hmem.2
      · cases pure_eq_ok.mp h

theorem offer_le {x o bound : ℤ} {next : Res (Option ℤ)} (hx : x ≤ bound)
    (hn : next = .ok (some o) → o ≤ bound)
    (h : (pair.accepts x >>= fun a => if a = true then pure (some x) else next) = .ok (some o)) :
    o ≤ bound := by
  obtain ⟨a, -, h⟩ := bind_eq_ok.mp h
  cases a with
  | true =>
    obtain rfl := Option.some.inj (pure_eq_ok.mp h)
    exact hx
  | false => exact hn h

theorem fitRepay_le {o : ℤ} (hle : repay ≤ maxVal) (h : pair.fitRepay repay maxOffer = .ok (some o)) :
    o ≤ max repay maxOffer := by
  unfold fitRepay at h
  split_ifs at h with hsweep
  · obtain rfl := Option.some.inj (pure_eq_ok.mp h)
    exact le_max_left _ _
  · have hpart : pair.largestPartialRepay (min repay maxOffer) = .ok (some o) →
        o ≤ max repay maxOffer := fun hl => by
      have := largestPartialRepay_le ((min_le_left _ _).trans hle) hl
      omega
    obtain ⟨c, -, h⟩ := bind_eq_ok.mp h
    cases c with
    | none => exact offer_le (le_max_left _ _) hpart h
    | some clear =>
      dsimp only at h
      split_ifs at h with hat hoffer
      · exact offer_le ((min_le_right _ _).trans (le_max_right _ _)) hpart h
      · exact offer_le (le_max_left _ _) (offer_le (hoffer.trans (le_max_right _ _)) hpart) h
      · exact offer_le (le_max_left _ _) hpart h

end LiquidationPair

end AlulaKeeper
