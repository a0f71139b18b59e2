import Mathlib
import AlulaKeeper.Sizing.SeizureCaps

/-!
# Arithmetic headroom of the no-dust sizing

The no-dust sizing of a solvent pair evaluates `LiquidationPair.buys` at the whole debt whatever repay is
asked for, and its LTV cap is a direct product.

* `LiquidationPair.SweepReturns`, `LiquidationPair.NoDustReturns`: every repay up to the debt is quoted, and
  under the no-dust rules also fitted.
* `LiquidationPair.Headroom`: the conversion of the whole debt, its padding and the two ends of the repay
  range stay in range.
* `LiquidationPair.clearing_of_headroom`: then the clearing probe returns.
* `LiquidationPair.quote_returns`, `LiquidationPair.fitRepay_returns`: headroom at the ends is headroom at
  every offer.
* `noDust_headroom_iff`: headroom is what the no-dust sizing needs.
-/

namespace AlulaKeeper

open I128

namespace LiquidationPair

section Statement

variable (pair : LiquidationPair)

/-- The sweep rules quote every repay up to the debt. -/
def SweepReturns : Prop :=
  ∀ repay, 1 ≤ repay → repay ≤ pair.positionDebt →
    Returns ({ pair with rules := .sweep }.quote repay)

/-- The no-dust rules quote and fit every repay up to the debt, whatever the largest offer. -/
def NoDustReturns : Prop :=
  ∀ repay, 1 ≤ repay → repay ≤ pair.positionDebt → ∀ maxOffer, repay ≤ maxOffer →
    Returns ({ pair with rules := .noDust }.quote repay) ∧
      Returns ({ pair with rules := .noDust }.fitRepay repay maxOffer)

/-- The least repay up to the debt that buys the whole collateral `pc`. -/
def BuysOut (lifted : Bool) (pc x : ℤ) : Prop :=
  IsLeast {x | 1 ≤ x ∧ x ≤ pair.positionDebt ∧ ∃ b, pair.buys x lifted = .ok b ∧ pc ≤ b} x

/-- Range conditions on a pair with priced, positive collateral `pc`. -/
structure PricedHeadroom (pc : ℤ) (lifted : Bool) : Prop where
  borrowPrice : 0 < pair.borrowPool.oracleAssetPrice
  collateralPrice : 0 < pair.collateralPool.oracleAssetPrice
  lifts : pair.liftsCloseFactor = .ok lifted
  /-- The whole debt can be converted, unlifted through the product of its value and the obligation's
  collateral value. -/
  worth : Returns (pair.buys pair.positionDebt lifted)
  /-- A debt too small for the whole collateral can be padded. -/
  pastDebt : ∀ b, pair.buys pair.positionDebt lifted = .ok b → b < pc →
    Fits (pair.positionDebt + fixedMulCeil pair.positionDebt pair.margin.refundedBps)
  /-- The repay that buys the whole collateral can be padded. -/
  pastCollateral : ∀ x, pair.BuysOut lifted pc x →
    Fits (x + fixedMulCeil x (if lifted then pair.margin.refundedBps else pair.margin.unrefundedBps))
  /-- The close factor scales the whole debt to bps. -/
  share : lifted = false → Fits (pair.positionDebt * bpsFactor + (pair.positionDebt - 1))
  /-- A small position the whole debt buys out has a price. -/
  whole : lifted = true → ∀ b, pair.buys pair.positionDebt lifted = .ok b → pc ≤ b →
    Returns (pair.wholePositionRepay pc)
  /-- What the smallest repay leaves can be compared with the floor. -/
  least : ∀ b, pair.buys 1 lifted = .ok b →
    Returns (pair.leavesDust (pc - min pc b) (pair.positionDebt - 1))

/-- What the no-dust sizing of a pair needs: the whole debt and the ends of the repay range are in range,
and a pair without prices passes the clearing probe. -/
def Headroom : Prop :=
  pair.positionDebt ≤ 0 ∨ ∃ pc, pair.positionCollateral = .ok pc ∧
    (pc ≤ 0 ∨
      (pair.borrowPool.oracleAssetPrice ≤ 0 ∨ pair.collateralPool.oracleAssetPrice ≤ 0) ∧
        Returns pair.clearing ∨
      ∃ lifted, pair.PricedHeadroom pc lifted)

end Statement

variable {pair : LiquidationPair} {pc r : ℤ} {lifted : Bool}

/-! ## One offer -/

theorem overCloseFactor_returns_iff (hD : 0 < pair.positionDebt) :
    Returns (pair.overCloseFactor r false) ↔ Fits (r * bpsFactor) ∧ Fits (pair.positionDebt - 1) ∧
      Fits (r * bpsFactor + (pair.positionDebt - 1)) := by
  simp only [Returns, overCloseFactor, Bool.false_eq_true, if_false, bind_eq_ok, mOu_eq_ok,
    checkedMul_eq_some, checkedAdd_eq_some, rawSub_eq_ok, pure_eq_ok]
  constructor
  · rintro ⟨_, _, ⟨h1, rfl⟩, _, ⟨h2, rfl⟩, _, ⟨h3, rfl⟩, -⟩
    exact ⟨h1, h2, h3⟩
  · rintro ⟨h1, h2, h3⟩
    exact ⟨_, _, ⟨h1, rfl⟩, _, ⟨h2, rfl⟩, _, ⟨h3, rfl⟩, _,
      (checkedDiv_eq_some_of_pos h3 hD).mpr rfl, rfl⟩

theorem overCloseFactor_returns (hD : 0 < pair.positionDebt) (h0 : 0 ≤ r)
    (hle : r ≤ pair.positionDebt)
    (h : lifted = false → Fits (pair.positionDebt * bpsFactor + (pair.positionDebt - 1))) :
    Returns (pair.overCloseFactor r lifted) := by
  cases lifted with
  | true => exact ⟨false, rfl⟩
  | false =>
    have hfit := h rfl
    have hb : bpsFactor = 10000 := rfl
    rw [overCloseFactor_returns_iff hD]
    rw [hb] at hfit ⊢
    exact ⟨hfit.of_nonneg_of_le (by omega) (by omega), hfit.of_nonneg_of_le (by omega) (by omega),
      hfit.of_nonneg_of_le (by omega) (by omega)⟩

/-- **The dust check returns on smaller leftovers.** -/
theorem leavesDust_returns {left debt left' debt' : ℤ} (hb : 0 ≤ pair.borrowPool.oracleAssetPrice)
    (hc : 0 ≤ pair.collateralPool.oracleAssetPrice) (hl : left' ≤ left) (hd : debt' ≤ debt)
    (h : Returns (pair.leavesDust left debt)) : Returns (pair.leavesDust left' debt') := by
  unfold leavesDust at h ⊢
  by_cases h0 : left' ≤ 0 ∨ debt' ≤ 0
  · rw [if_pos h0]
    exact ⟨false, rfl⟩
  · rw [if_neg h0]
    rw [if_neg (by omega)] at h
    obtain ⟨d, h⟩ := h
    simp only [bind_eq_ok] at h
    obtain ⟨floor, hfloor, V, hV, h⟩ := h
    obtain ⟨v, hv, -, hle⟩ := downward_valueFloor hc (by omega) hl hV
    rw [hfloor, ok_bind, show valueFloor left' pair.collateralPool = .ok v from hv, ok_bind]
    by_cases hlt : v < floor
    · rw [if_pos hlt]
      exact ⟨true, rfl⟩
    · rw [if_neg hlt]
      rw [if_neg (by omega)] at h
      obtain ⟨W, hW, -⟩ := bind_eq_ok.mp h
      exact ((downward_valueCeil hb).returns (by omega) hd ⟨W, hW⟩).bind fun a _ => ⟨_, rfl⟩

theorem amountCeil_nonneg {pool : PoolData} {v a : ℤ} (hp : 0 < pool.oracleAssetPrice)
    (hv : 0 ≤ v) (h : amountCeil v pool = .ok a) : 0 ≤ a := by
  simp only [amountCeil, tokenFactor, bind_eq_ok, mOu_eq_ok, checkedPow10_eq_some,
    checkedMul_eq_some, checkedAdd_eq_some, rawSub_eq_ok] at h
  obtain ⟨_, ⟨-, rfl⟩, _, ⟨-, rfl⟩, _, ⟨-, rfl⟩, _, ⟨hfit, rfl⟩, h⟩ := h
  rw [checkedDiv_eq_some_of_pos hfit hp] at h
  have hprod : 0 ≤ v * pow10 pool.tokenDecimals := mul_nonneg hv (pow10_pos _).le
  rw [← h]
  exact Int.tdiv_nonneg (by omega) hp.le

theorem wholePositionRepay_nonneg {w : ℤ} (hb : 0 < pair.borrowPool.oracleAssetPrice)
    (hc : 0 ≤ pair.collateralPool.oracleAssetPrice) (hf : 0 ≤ bpsFactor + pair.incentiveBps)
    (hpc : 0 ≤ pc) (h : pair.wholePositionRepay pc = .ok w) : 0 ≤ w := by
  simp only [wholePositionRepay, bind_eq_ok, mOu_eq_ok, checkedAdd_eq_some, checkedMul_eq_some,
    rawSub_eq_ok] at h
  obtain ⟨_, ⟨-, rfl⟩, v, hv, _, ⟨-, rfl⟩, _, ⟨-, rfl⟩, _, ⟨hfit, rfl⟩, value, hvalue, hw⟩ := h
  have hv0 := (downward_valueCeil hc).nonneg hpc hv
  rcases eq_or_lt_of_le hf with h0 | hpos
  · simp [checkedDiv, ← h0] at hvalue
  · rw [checkedDiv_eq_some_of_pos hfit hpos] at hvalue
    have hprod : 0 ≤ v * bpsFactor := mul_nonneg hv0 bpsFactor_pos.le
    refine amountCeil_nonneg hb ?_ hw
    rw [← hvalue]
    exact Int.tdiv_nonneg (by omega) hpos.le

theorem refundedRepay_of_ne {seized : ℤ} (hne : seized ≠ pc) : pair.refundedRepay pc seized r = .ok r := by
  rw [refundedRepay, if_neg hne]
  rfl

/-- **A refund keeps the repay**, or the smaller price of a small position taken whole. -/
theorem refundedRepay_cases {seized r' : ℤ} (h : pair.refundedRepay pc seized r = .ok r') :
    r' ≤ r ∧ (r' = r ∨
      seized = pc ∧ pair.isSmallPosition = .ok true ∧ pair.wholePositionRepay pc = .ok r') := by
  unfold refundedRepay at h
  split_ifs at h with hwhole
  · obtain ⟨small, hsmall, h⟩ := bind_eq_ok.mp h
    cases small with
    | true =>
      obtain ⟨w, hw, h⟩ := bind_eq_ok.mp h
      have hmin := pure_eq_ok.mp h
      refine ⟨by omega, ?_⟩
      rcases min_choice r w with hr | hr
      · exact .inl (by omega)
      · exact .inr ⟨hwhole, hsmall, by rw [hw, ← hmin, hr]⟩
    | false =>
      have heq := pure_eq_ok.mp h
      exact ⟨heq.ge, .inl heq.symm⟩
  · have heq := pure_eq_ok.mp h
    exact ⟨heq.ge, .inl heq.symm⟩

theorem refundedRepay_mem {seized r' : ℤ} (hb : 0 < pair.borrowPool.oracleAssetPrice)
    (hc : 0 ≤ pair.collateralPool.oracleAssetPrice) (hf : 0 ≤ bpsFactor + pair.incentiveBps)
    (hpc : 0 ≤ pc) (hr : 0 ≤ r) (h : pair.refundedRepay pc seized r = .ok r') :
    0 ≤ r' ∧ r' ≤ r := by
  obtain ⟨hle, rfl | ⟨-, -, hw⟩⟩ := refundedRepay_cases h
  · exact ⟨hr, hle⟩
  · exact ⟨wholePositionRepay_nonneg hb hc hf hpc hw, hle⟩

section Range

variable (hrules : pair.rules = .noDust) (hsolvent : pair.isInsolvent = false)
  (hb : 0 < pair.borrowPool.oracleAssetPrice) (hc : 0 < pair.collateralPool.oracleAssetPrice)
  (hf : 0 ≤ bpsFactor + pair.incentiveBps) (hpc : pair.positionCollateral = .ok pc)
  (hpos : 0 < pc) (hD : 0 < pair.positionDebt)

include hrules hsolvent in
theorem lifts_eq_small : pair.liftsCloseFactor = pair.isSmallPosition := by
  simp [liftsCloseFactor, hsolvent, hrules]

include hpc in
theorem fits_positionCollateral : Fits pc := by
  simp only [positionCollateral, bind_eq_ok, mOu_eq_ok, checkedAdd_eq_some] at hpc
  obtain ⟨_, -, hfit, rfl⟩ := hpc
  exact hfit

include hb in
theorem fits_of_buys {D : ℤ} (h0 : 0 ≤ D) (h : Returns (pair.buys D lifted)) : Fits D := by
  obtain ⟨b, h⟩ := h
  obtain ⟨v, hv, -⟩ := bind_eq_ok.mp h
  obtain ⟨-, hfit, -⟩ := valueFloor_eq_ok.mp hv
  exact hfit.of_nonneg_of_le h0 (le_mul_of_one_le_right h0 hb)

include hb hc hf in
theorem left_returns (hh : pair.PricedHeadroom pc lifted) {b : ℤ} (h1 : 1 ≤ r)
    (hr : pair.buys r lifted = .ok b) :
    Returns (pair.leavesDust (pc - min pc b) (pair.positionDebt - r)) := by
  obtain ⟨b₁, hb₁, -, hle⟩ := downward_buys hb.le hc hf lifted (by omega) h1 hr
  exact leavesDust_returns hb.le hc.le (by omega) (by omega) (hh.least b₁ hb₁)

include hrules hsolvent hb hc hf in
theorem refundedRepay_returns (hh : pair.PricedHeadroom pc lifted) {b : ℤ} (h0 : 0 ≤ r)
    (hle : r ≤ pair.positionDebt) (hr : pair.buys r lifted = .ok b) :
    Returns (pair.refundedRepay pc (min pc b) r) := by
  unfold refundedRepay
  split_ifs with hs
  · rw [← lifts_eq_small hrules hsolvent, hh.lifts, ok_bind]
    cases lifted with
    | true =>
      obtain ⟨B, hB⟩ := hh.worth
      have hbB := (downward_buys hb.le hc hf true).mono h0 hle hr hB
      have hw := hh.whole rfl B hB ((min_eq_left_iff.mp hs).trans hbB)
      exact hw.bind fun _ _ => ⟨_, rfl⟩
    | false => exact ⟨r, rfl⟩
  · exact ⟨r, rfl⟩

include hrules hsolvent hb hc hf hpc hpos hD in
/-- **Headroom at the ends is headroom at every offer.** -/
theorem quote_returns (hh : pair.PricedHeadroom pc lifted) (offer : ℤ) :
    Returns (pair.quote offer) := by
  have hbuys := hh.worth
  have hq : pair.quote offer = pair.quoteNoDust offer := by rw [quote, hrules]
  rw [hq]
  by_cases hn : pair.QuotesNothing offer pc
  · exact ⟨_, quoteNoDust_nothing hpc hn⟩
  · have h1 : 1 ≤ min offer pair.positionDebt := by
      unfold QuotesNothing at hn
      omega
    have hle : min offer pair.positionDebt ≤ pair.positionDebt := min_le_right _ _
    obtain ⟨exceeds, he⟩ := overCloseFactor_returns hD (by omega) hle hh.share
    cases exceeds with
    | true =>
      exact ⟨_, (quoteNoDust_eq_ok_iff hpc hn).mpr ⟨lifted, true, hh.lifts, he, .inl ⟨rfl, rfl⟩⟩⟩
    | false =>
      obtain ⟨b, hr⟩ := (downward_buys hb.le hc hf lifted).returns (by omega) hle hbuys
      obtain ⟨repaid, hrep⟩ :=
        refundedRepay_returns hrules hsolvent hb hc hf hh (by omega) hle hr
      have hmem := refundedRepay_mem hb hc.le hf hpos.le (by omega) hrep
      have hb0 := (downward_buys hb.le hc hf lifted).nonneg (by omega) hr
      have hfpc := fits_positionCollateral hpc
      have hfD := fits_of_buys hb hD.le hbuys
      obtain ⟨dust, hd⟩ : Returns (pair.leavesDust (pc - min pc b) (pair.positionDebt - repaid)) := by
        by_cases hs : min pc b = pc
        · rw [hs, sub_self, leavesDust, if_pos (.inl le_rfl)]
          exact ⟨false, rfl⟩
        · rw [refundedRepay, if_neg hs, pure_eq_ok] at hrep
          rw [← hrep]
          exact left_returns hb hc hf hh h1 hr
      exact ⟨_, (quoteNoDust_eq_ok_iff hpc hn).mpr ⟨lifted, false, hh.lifts, he, .inr ⟨rfl, b,
        repaid, dust, hr, hrep, hfpc.of_nonneg_of_le (by omega) (by omega),
        hfD.of_nonneg_of_le (by omega) (by omega), hd, rfl⟩⟩⟩

/-! ## The fitted repay -/

include hb hc hf hpc hpos hD in
theorem keepsBothSides_returns_iff (hbuys : Returns (pair.buys pair.positionDebt lifted))
    {floor b : ℤ} (hfloor : pair.dustFloor = .ok floor) (h0 : 0 ≤ r) (hle : r ≤ pair.positionDebt)
    (hr : pair.buys r lifted = .ok b) :
    Returns (pair.keepsBothSides lifted floor pc r) ↔
      Returns (pair.leavesDust (pc - min pc b) (pair.positionDebt - r)) := by
  have hb0 := (downward_buys hb.le hc hf lifted).nonneg h0 hr
  have hleft : (rawSub pc (min pc b) : Res ℤ) = .ok (pc - min pc b) :=
    raw_eq_ok.mpr ⟨(fits_positionCollateral hpc).of_nonneg_of_le (by omega) (by omega), rfl⟩
  have hdebt : (rawSub pair.positionDebt r : Res ℤ) = .ok (pair.positionDebt - r) :=
    raw_eq_ok.mpr ⟨(fits_of_buys hb hD.le hbuys).of_nonneg_of_le (by omega) (by omega), rfl⟩
  simp only [keepsBothSides, min_eq_left hle, hr, ok_bind, hleft, hdebt]
  by_cases hs : pc - min pc b > 0 ∧ pair.positionDebt - r > 0
  · rw [if_neg (not_not.mpr hs), leavesDust, if_neg (by omega), hfloor, ok_bind]
    cases hv : valueFloor (pc - min pc b) pair.collateralPool with
    | error e => exact Iff.rfl
    | ok v =>
      simp only [ok_bind]
      split_ifs with hlt
      · exact iff_of_true ⟨false, rfl⟩ ⟨true, rfl⟩
      · cases hw : valueCeil (pair.positionDebt - r) pair.borrowPool with
        | error e => exact Iff.rfl
        | ok w => exact iff_of_true ⟨_, rfl⟩ ⟨_, rfl⟩
  · rw [if_pos hs, leavesDust, if_pos (by omega)]

include hrules hsolvent in
theorem dustFloor_of_lifts (hl : pair.liftsCloseFactor = .ok lifted) : Returns pair.dustFloor := by
  rw [lifts_eq_small hrules hsolvent, isSmallPosition] at hl
  obtain ⟨floor, hfloor, -⟩ := bind_eq_ok.mp hl
  exact ⟨floor, hfloor⟩

include hrules hsolvent hb hc hf hpc hpos hD in
theorem largestPartialRepay_returns (hh : pair.PricedHeadroom pc lifted)
    (hle : r ≤ pair.positionDebt) : Returns (pair.largestPartialRepay r) := by
  have hbuys := hh.worth
  have hq := quote_returns hrules hsolvent hb hc hf hpc hpos hD hh
  obtain ⟨floor, hfloor⟩ := dustFloor_of_lifts hrules hsolvent hh.lifts
  have hkeeps : ∀ x, 1 ≤ x → x ≤ r → Returns (pair.keepsBothSides lifted floor pc x) := by
    intro x h1 h2
    obtain ⟨b, hx⟩ := (downward_buys hb.le hc hf lifted).returns (by omega) (h2.trans hle) hbuys
    exact (keepsBothSides_returns_iff hb hc hf hpc hpos hD hbuys hfloor (by omega) (h2.trans hle)
      hx).mpr (left_returns hb hc hf hh h1 hx)
  rw [largestPartialRepay, hpc, ok_bind, hh.lifts, ok_bind, hfloor, ok_bind]
  by_cases h1 : r < 1
  · rw [if_pos h1]
    exact ⟨none, rfl⟩
  · rw [if_neg h1]
    refine (hkeeps 1 le_rfl (by omega)).bind fun keeps _ => ?_
    cases keeps with
    | false => exact ⟨none, rfl⟩
    | true =>
      have hfit : Fits r :=
        (fits_of_buys hb hD.le hbuys).of_nonneg_of_le (by omega) hle
      refine (Search.greatest_returns le_rfl (by omega) hfit hkeeps).bind fun low _ => ?_
      refine (hq low).bind fun q _ => ?_
      split_ifs
      · exact ⟨_, rfl⟩
      · exact ⟨_, rfl⟩

/-! ### The clearing probe -/

theorem fits_suppliedTokens {S : ℤ} (h : pair.suppliedTokens = .ok S) : Fits S := by
  unfold suppliedTokens PoolData.jTokensToTokensFloor PoolData.shareFloor at h
  split_ifs at h with h0
  · obtain rfl := pure_eq_ok.mp h
    exact fits_zero
  · obtain ⟨x, -, h⟩ := bind_eq_ok.mp h
    rw [rawDiv, if_neg h0, raw_eq_ok] at h
    exact h.2 ▸ h.1

include hpc hpos hD in
theorem clearing_returns_iff (haccr : pair.debtAccrualBps = 0) (haccr' : pair.supplyAccrualBps = 0)
    (hl : pair.liftsCloseFactor = .ok lifted) (hfits : Fits pair.positionDebt) :
    Returns pair.clearing ↔ ∃ buying, pair.repayBuying lifted pc pair.positionDebt = .ok buying ∧
      Returns (clearing.clearingOffer pair buying pair.positionDebt) := by
  have hpc' := hpc
  simp only [positionCollateral, bind_eq_ok, mOu_eq_ok, checkedAdd_eq_some] at hpc'
  obtain ⟨S, hS, hsum, rfl⟩ := hpc'
  have hgD : grown pair.positionDebt 0 = .ok pair.positionDebt := by
    rw [grown_eq_ok, fixedMulCeil_zero, add_zero]
    exact ⟨hfits, rfl⟩
  have hgS : grown S 0 = .ok S := by
    rw [grown_eq_ok, fixedMulCeil_zero, add_zero]
    exact ⟨fits_suppliedTokens hS, rfl⟩
  have hgC : mOu (checkedAdd pair.deposit.collateral S) = .ok (S + pair.deposit.collateral) := by
    rw [mOu_eq_ok, checkedAdd_eq_some, add_comm]
    exact ⟨hsum, rfl⟩
  have hno : ¬ (pair.positionDebt ≤ 0 ∨ S + pair.deposit.collateral ≤ 0) := by omega
  simp only [Returns, clearing, hpc, ok_bind, if_neg hno, hl, haccr, haccr', hgD, hS, hgS, hgC,
    bind_eq_ok, pure_eq_ok]
  constructor
  · rintro ⟨_, buying, hbuying, offer, hoffer, -⟩
    exact ⟨buying, hbuying, offer, hoffer⟩
  · rintro ⟨buying, hbuying, offer, hoffer⟩
    exact ⟨_, buying, hbuying, offer, hoffer, buying, hbuying, rfl⟩

include hb hc hf hD in
theorem buysOut_of_repayBuying {x : ℤ} (hfits : Fits pair.positionDebt)
    (h : pair.repayBuying lifted pc pair.positionDebt = .ok (some x)) : pair.BuysOut lifted pc x := by
  obtain ⟨h1, hle, hbuys, hleast⟩ := repayBuying_some hb.le hc hf hD hfits h
  refine ⟨⟨h1, hle, hbuys⟩, ?_⟩
  rintro y ⟨hy, -, b, hby, hpc⟩
  by_contra hlt
  have := hleast y hy (not_le.mp hlt) b hby
  omega

include hrules hsolvent hb hc hf hpc hpos hD in
/-- **The probe needs the whole debt valued and its offer padded.** -/
theorem clearing_of_headroom (haccr : pair.debtAccrualBps = 0) (haccr' : pair.supplyAccrualBps = 0)
    (hh : pair.PricedHeadroom pc lifted) : Returns pair.clearing := by
  have hfits := fits_of_buys hb hD.le hh.worth
  rw [clearing_returns_iff hpc hpos hD haccr haccr' hh.lifts hfits]
  obtain ⟨buying, hbuying⟩ : Returns (pair.repayBuying lifted pc pair.positionDebt) :=
    repayBuying_returns hb.le hc hf hD hfits hh.worth
  refine ⟨buying, hbuying, ?_⟩
  cases buying with
  | none =>
    obtain ⟨b, hbuys, hlt⟩ := repayBuying_none hbuying
    exact ⟨_, grown_eq_ok.mpr ⟨hh.pastDebt b hbuys hlt, rfl⟩⟩
  | some x =>
    have hfit := hh.pastCollateral x (buysOut_of_repayBuying hb hc hf hD hfits hbuying)
    simp only [clearing.clearingOffer, ← lifts_eq_small hrules hsolvent, hh.lifts, ok_bind]
    cases lifted with
    | true => exact ⟨_, grown_eq_ok.mpr ⟨hfit, rfl⟩⟩
    | false => exact ⟨_, grown_eq_ok.mpr ⟨hfit, rfl⟩⟩

include hpc hpos hD in
theorem buys_of_clearing (hl : pair.liftsCloseFactor = .ok lifted) (h : Returns pair.clearing) :
    Returns (pair.buys pair.positionDebt lifted) := by
  obtain ⟨c, h⟩ := h
  rw [clearing, hpc, ok_bind, if_neg (by omega), hl, ok_bind] at h
  simp only [bind_eq_ok] at h
  obtain ⟨_, -, _, -, _, -, _, -, _, -, _, -, _, hbuying, -⟩ := h
  obtain ⟨b, hb, -⟩ := bind_eq_ok.mp hbuying
  exact ⟨b, hb⟩

theorem offer_returns {x : ℤ} {next : Res (Option ℤ)} (h : Returns (pair.accepts x))
    (hn : Returns next) :
    Returns (pair.accepts x >>= fun a => if a = true then pure (some x) else next) := by
  refine h.bind fun a _ => ?_
  cases a with
  | true => exact ⟨_, rfl⟩
  | false => exact hn

include hrules hsolvent hb hc hf hpc hpos hD in
/-- **Every repay up to the debt is fitted**, whatever the largest offer. -/
theorem fitRepay_returns (haccr : pair.debtAccrualBps = 0) (haccr' : pair.supplyAccrualBps = 0)
    (hh : pair.PricedHeadroom pc lifted) (hle : r ≤ pair.positionDebt) (maxOffer : ℤ) :
    Returns (pair.fitRepay r maxOffer) := by
  have hclear := clearing_of_headroom hrules hsolvent hb hc hf hpc hpos hD haccr haccr' hh
  have hq := quote_returns hrules hsolvent hb hc hf hpc hpos hD hh
  have hacc : ∀ x, Returns (pair.accepts x) := fun x => (hq x).bind fun _ _ => ⟨_, rfl⟩
  have hpart : Returns (pair.largestPartialRepay (min r maxOffer)) :=
    largestPartialRepay_returns hrules hsolvent hb hc hf hpc hpos hD hh
      ((min_le_left _ _).trans hle)
  rw [fitRepay, if_neg (by rw [hrules]; decide)]
  refine hclear.bind fun c _ => ?_
  cases c with
  | none => exact offer_returns (hacc r) hpart
  | some clear =>
    dsimp only
    split_ifs
    · exact offer_returns (hacc _) hpart
    · exact offer_returns (hacc r) (offer_returns (hacc _) hpart)
    · exact offer_returns (hacc r) hpart

/-! ## What the sizing needs -/

section Needed

include hrules in
theorem clearing_of_fitRepay {x maxOffer : ℤ} (h : Returns (pair.fitRepay x maxOffer)) :
    Returns pair.clearing := by
  obtain ⟨o, h⟩ := h
  rw [fitRepay, if_neg (by rw [hrules]; decide)] at h
  obtain ⟨c, hc, -⟩ := bind_eq_ok.mp h
  exact ⟨c, hc⟩

include hb hc hf hpc hpos hD in
theorem clearing_offer_pos (haccr : pair.debtAccrualBps = 0) (hm : 0 ≤ pair.margin.refundedBps)
    (hm' : 0 ≤ pair.margin.unrefundedBps) {c : Option Clearing} (h : pair.clearing = .ok c) :
    ∃ clear, c = some clear ∧ 1 ≤ clear.offer := by
  rw [clearing, hpc, ok_bind, if_neg (by omega)] at h
  simp only [bind_eq_ok, pure_eq_ok, grown_eq_ok, haccr, fixedMulCeil_zero, add_zero] at h
  obtain ⟨lifted, -, _, ⟨hfits, rfl⟩, _, -, _, -, _, -, buying, hbuying, offer, hoffer, _, -, rfl⟩ := h
  refine ⟨_, rfl, ?_⟩
  cases buying with
  | none => exact (by omega : (1 : ℤ) ≤ _).trans (le_grown hD.le hm hoffer)
  | some x =>
    have hx := (repayBuying_some hb.le hc hf hD hfits hbuying).1
    obtain ⟨small, -, hoffer⟩ := bind_eq_ok.mp hoffer
    cases small with
    | true => exact hx.trans (le_grown (by omega) hm hoffer)
    | false => exact hx.trans (le_grown (by omega) hm' hoffer)

include hrules hb hc hf hpc hpos hD in
/-- A refused smallest offer is shrunk: the search test has returned on it. -/
theorem keepsBothSides_of_refused (haccr : pair.debtAccrualBps = 0)
    (hm : 0 ≤ pair.margin.refundedBps) (hm' : 0 ≤ pair.margin.unrefundedBps)
    (hl : pair.liftsCloseFactor = .ok lifted) {floor : ℤ} (hfloor : pair.dustFloor = .ok floor)
    (hrefused : pair.accepts 1 = .ok false) (h : Returns (pair.fitRepay 1 1)) :
    Returns (pair.keepsBothSides lifted floor pc 1) := by
  have hpart : Returns (pair.largestPartialRepay (min 1 1)) := by
    obtain ⟨o, h⟩ := h
    rw [fitRepay, if_neg (by rw [hrules]; decide)] at h
    obtain ⟨c, hclear, h⟩ := bind_eq_ok.mp h
    obtain ⟨clear, rfl, hoffer⟩ := clearing_offer_pos hb hc hf hpc hpos hD haccr hm hm' hclear
    have hone : min (max 1 clear.offer) 1 = 1 := by omega
    simp only [hone, hrefused, ok_bind, Bool.false_eq_true, if_false] at h
    split_ifs at h with h1 h2
    · exact ⟨o, h⟩
    · have h3 : clear.offer = 1 := by omega
      rw [h3, hrefused, ok_bind] at h
      exact ⟨o, h⟩
    · exact ⟨o, h⟩
  obtain ⟨o, h⟩ := hpart
  rw [largestPartialRepay, hpc, ok_bind, hl, ok_bind, hfloor, ok_bind, if_neg (by decide)] at h
  obtain ⟨keeps, hkeeps, -⟩ := bind_eq_ok.mp h
  exact ⟨keeps, hkeeps⟩

include hrules hsolvent hb hc hf hpc hpos hD in
/-- What the smallest repay leaves is compared with the floor by its quote or by its fit. -/
theorem left_returns_of_quote (haccr : pair.debtAccrualBps = 0) (hm : 0 ≤ pair.margin.refundedBps)
    (hm' : 0 ≤ pair.margin.unrefundedBps) (hl : pair.liftsCloseFactor = .ok lifted)
    (hworth : Returns (pair.buys pair.positionDebt lifted)) (hq : Returns (pair.quote 1))
    (hfit : Returns (pair.fitRepay 1 1)) {b : ℤ} (hbuys : pair.buys 1 lifted = .ok b) :
    Returns (pair.leavesDust (pc - min pc b) (pair.positionDebt - 1)) := by
  obtain ⟨q, hq⟩ := hq
  have hn : ¬ pair.QuotesNothing 1 pc := by
    unfold QuotesNothing
    omega
  have hmin : min 1 pair.positionDebt = 1 := min_eq_left hD
  have hq' := hq
  rw [quote, hrules] at hq'
  dsimp only at hq'
  rw [quoteNoDust_eq_ok_iff hpc hn, hmin] at hq'
  obtain ⟨lifted', exceeds, hl', -, ⟨-, rfl⟩ | ⟨-, b', repaid, dust, hbuys', hrep, -, -, hdust, -⟩⟩ := hq'
  · -- over the close factor, the quote stops early, but the fit goes on to the partial repay
    obtain ⟨floor, hfloor⟩ := dustFloor_of_lifts hrules hsolvent hl
    have hrefused : pair.accepts 1 = .ok false := by rw [accepts, hq, ok_bind]; rfl
    exact (keepsBothSides_returns_iff (r := 1) hb hc hf hpc hpos hD hworth hfloor (by omega) hD hbuys).mp
      (keepsBothSides_of_refused hrules hb hc hf hpc hpos hD haccr hm hm' hl hfloor hrefused hfit)
  · obtain rfl := ok_unique hl hl'
    obtain rfl := ok_unique hbuys hbuys'
    by_cases hs : min pc b = pc
    · rw [hs, sub_self, leavesDust, if_pos (.inl le_rfl)]
      exact ⟨false, rfl⟩
    · rw [ok_unique hrep (refundedRepay_of_ne hs)] at hdust
      exact ⟨dust, hdust⟩

include hrules hsolvent hb hc hf hpc hpos hD in
/-- **The sizing needs the headroom it has**: where the quotes and the fit of the smallest repay return,
the range conditions hold. -/
theorem pricedHeadroom_of_returns (haccr : pair.debtAccrualBps = 0)
    (haccr' : pair.supplyAccrualBps = 0) (hm : 0 ≤ pair.margin.refundedBps)
    (hm' : 0 ≤ pair.margin.unrefundedBps)
    (hq : ∀ x, 1 ≤ x → x ≤ pair.positionDebt → Returns (pair.quote x))
    (hfit : Returns (pair.fitRepay 1 1)) : ∃ lifted, pair.PricedHeadroom pc lifted := by
  have hn : ¬ pair.QuotesNothing pair.positionDebt pc := by
    unfold QuotesNothing
    omega
  obtain ⟨q, hqD⟩ := hq pair.positionDebt hD le_rfl
  rw [quote, hrules] at hqD
  dsimp only at hqD
  rw [quoteNoDust_eq_ok_iff hpc hn, min_self] at hqD
  obtain ⟨lifted, exceeds, hl, hover, hrest⟩ := hqD
  have hclear := clearing_of_fitRepay hrules hfit
  have hworth := buys_of_clearing hpc hpos hD hl hclear
  have hfits := fits_of_buys hb hD.le hworth
  obtain ⟨buying, hbuying, offer, hoffer⟩ :=
    (clearing_returns_iff hpc hpos hD haccr haccr' hl hfits).mp hclear
  refine ⟨lifted, hb, hc, hl, hworth, ?pastDebt, ?pastCollateral, ?share, ?whole, ?least⟩
  case pastDebt =>
    intro b hbuys hlt
    cases buying with
    | none => exact (grown_eq_ok.mp hoffer).1
    | some x =>
      obtain ⟨⟨hx, hle, b', hbuys', hpc'⟩, -⟩ := buysOut_of_repayBuying hb hc hf hD hfits hbuying
      have := (downward_buys hb.le hc hf lifted).mono (by omega) hle hbuys' hbuys
      omega
  case pastCollateral =>
    intro x hx
    cases buying with
    | none =>
      obtain ⟨b, hbuys, hlt⟩ := repayBuying_none hbuying
      obtain ⟨⟨h1, hle, b', hbuys', hpc'⟩, -⟩ := hx
      have := (downward_buys hb.le hc hf lifted).mono (by omega) hle hbuys' hbuys
      omega
    | some y =>
      obtain rfl := hx.unique (buysOut_of_repayBuying hb hc hf hD hfits hbuying)
      simp only [clearing.clearingOffer, ← lifts_eq_small hrules hsolvent, hl, ok_bind] at hoffer
      cases lifted with
      | true => exact (grown_eq_ok.mp hoffer).1
      | false => exact (grown_eq_ok.mp hoffer).1
  case share =>
    rintro rfl
    exact ((overCloseFactor_returns_iff hD).mp ⟨_, hover⟩).2.2
  case whole =>
    rintro rfl b hbuys hle
    rw [overCloseFactor, if_pos rfl, pure_eq_ok] at hover
    obtain ⟨htrue, -⟩ | ⟨-, b', repaid, -, hbuys', hrep, -⟩ := hrest
    · exact absurd (hover.trans htrue) (by decide)
    · obtain rfl := ok_unique hbuys hbuys'
      rw [refundedRepay, if_pos (min_eq_left hle), ← lifts_eq_small hrules hsolvent, hl,
        ok_bind] at hrep
      obtain ⟨w, hw, -⟩ := bind_eq_ok.mp hrep
      exact ⟨w, hw⟩
  case least =>
    intro b hbuys
    exact left_returns_of_quote hrules hsolvent hb hc hf hpc hpos hD haccr hm hm' hl hworth
      (hq 1 le_rfl hD) hfit hbuys

end Needed

end Range

/-! ## The two rule sets -/

theorem positionCollateral_of_quote (hrules : pair.rules = .noDust) {x : ℤ} (h : Returns (pair.quote x)) :
    Returns pair.positionCollateral := by
  obtain ⟨q, h⟩ := h
  simp only [quote, hrules] at h
  obtain ⟨pc, hpc, -⟩ := bind_eq_ok.mp h
  exact ⟨pc, hpc⟩

theorem noDust_accepted {repay seized repaid : ℤ} (hrules : pair.rules = .noDust)
    (hq : pair.quote repay = .ok (.accepted seized repaid)) :
    seized = 0 ∧ repaid = 0 ∨ ∃ pc lifted b, pair.positionCollateral = .ok pc ∧ 0 < pc ∧
      0 < min repay pair.positionDebt ∧ pair.liftsCloseFactor = .ok lifted ∧
      pair.buys (min repay pair.positionDebt) lifted = .ok b ∧ seized = min pc b ∧
      pair.refundedRepay pc seized (min repay pair.positionDebt) = .ok repaid := by
  obtain ⟨pc, hpc⟩ := positionCollateral_of_quote hrules ⟨_, hq⟩
  rw [quote, hrules] at hq
  by_cases hn : pair.QuotesNothing repay pc
  · obtain ⟨rfl, rfl⟩ := Seizure.accepted.inj (ok_unique (quoteNoDust_nothing hpc hn) hq)
    exact .inl ⟨rfl, rfl⟩
  · obtain ⟨lifted, _, hl, -, ⟨-, hbad⟩ | ⟨-, b, r, dust, hb, hr, -, -, -, hres⟩⟩ :=
      (quoteNoDust_eq_ok_iff hpc hn).mp hq
    · cases hbad
    · cases dust with
      | true => cases hres
      | false =>
        obtain ⟨rfl, rfl⟩ := Seizure.accepted.inj hres
        unfold QuotesNothing at hn
        exact .inr ⟨pc, lifted, b, hpc, by omega, by omega, hl, hb, rfl, hr⟩

/-- With nothing held or priced, every offer is accepted for nothing. -/
theorem fitRepay_nothing (hrules : pair.rules = .noDust) (hpc : pair.positionCollateral = .ok pc)
    (hn : ∀ x, pair.QuotesNothing x pc) (hclear : Returns pair.clearing) (repay maxOffer : ℤ) :
    Returns (pair.quote repay) ∧ Returns (pair.fitRepay repay maxOffer) := by
  have hq : ∀ x, pair.quote x = .ok (.accepted 0 0) := fun x => by
    rw [quote, hrules]
    exact quoteNoDust_nothing hpc (hn x)
  have hacc : ∀ x, pair.accepts x = .ok true := fun x => by rw [accepts, hq, ok_bind]; rfl
  refine ⟨⟨_, hq repay⟩, ?_⟩
  rw [fitRepay, if_neg (by rw [hrules]; decide)]
  refine hclear.bind fun c _ => ?_
  cases c with
  | none =>
    rw [hacc, ok_bind]
    exact ⟨_, rfl⟩
  | some clear =>
    simp only [hacc, ok_bind, if_true]
    split_ifs <;> exact ⟨_, rfl⟩

theorem clearing_nothing (hpc : pair.positionCollateral = .ok pc) (hle : pc ≤ 0) :
    Returns pair.clearing := by
  rw [clearing, hpc, ok_bind, if_pos (.inr hle)]
  exact ⟨none, rfl⟩

/-- **What the no-dust sizing needs**, on a pair under the no-dust rules. -/
theorem returns_iff_headroom (hrules : pair.rules = .noDust) (hsolvent : pair.isInsolvent = false)
    (hf : 0 ≤ bpsFactor + pair.incentiveBps) (haccr : pair.debtAccrualBps = 0)
    (haccr' : pair.supplyAccrualBps = 0) (hm : 0 ≤ pair.margin.refundedBps)
    (hm' : 0 ≤ pair.margin.unrefundedBps) :
    (∀ x, 1 ≤ x → x ≤ pair.positionDebt → ∀ maxOffer, x ≤ maxOffer →
      Returns (pair.quote x) ∧ Returns (pair.fitRepay x maxOffer)) ↔ pair.Headroom := by
  constructor
  · intro h
    rcases le_or_gt pair.positionDebt 0 with h0 | hD
    · exact .inl h0
    · obtain ⟨hq, hfit⟩ := h 1 le_rfl hD 1 le_rfl
      obtain ⟨pc, hpc⟩ := positionCollateral_of_quote hrules hq
      refine .inr ⟨pc, hpc, ?_⟩
      rcases le_or_gt pc 0 with h0 | hpos
      · exact .inl h0
      · have hclear := clearing_of_fitRepay hrules hfit
        rcases le_or_gt pair.borrowPool.oracleAssetPrice 0 with h0 | hb
        · exact .inr (.inl ⟨.inl h0, hclear⟩)
        · rcases le_or_gt pair.collateralPool.oracleAssetPrice 0 with h0 | hc
          · exact .inr (.inl ⟨.inr h0, hclear⟩)
          · exact .inr (.inr (pricedHeadroom_of_returns hrules hsolvent hb hc hf hpc hpos hD haccr
              haccr' hm hm' (fun x h1 h2 => (h x h1 h2 x le_rfl).1) hfit))
  · rintro (h0 | ⟨pc, hpc, h⟩) x h1 hle maxOffer -
    · omega
    · have hD : 0 < pair.positionDebt := by omega
      obtain h0 | ⟨hunpriced, hclear⟩ | ⟨lifted, hh⟩ := h
      · exact fitRepay_nothing hrules hpc (fun _ => .inr (.inr (.inl h0)))
          (clearing_nothing hpc h0) x maxOffer
      · exact fitRepay_nothing hrules hpc (fun _ => .inr (.inr (.inr hunpriced))) hclear x maxOffer
      · rcases le_or_gt pc 0 with h0 | hpos
        · exact fitRepay_nothing hrules hpc (fun _ => .inr (.inr (.inl h0)))
            (clearing_nothing hpc h0) x maxOffer
        · have hb := hh.borrowPrice
          have hc := hh.collateralPrice
          exact ⟨quote_returns hrules hsolvent hb hc hf hpc hpos hD hh x,
            fitRepay_returns hrules hsolvent hb hc hf hpc hpos hD haccr haccr' hh hle maxOffer⟩

/-! ## The sweep rules at the whole debt -/

theorem downward_healthFactorCap {D C : ℤ} (hD : 0 < D) (hC : 0 ≤ C) :
    Downward (healthFactorCap · D C) := by
  have hs := scalar9_pos
  intro x X Y h0 hle hY
  obtain ⟨_, hscaled, hY'⟩ := bind_eq_ok.mp hY
  obtain ⟨hf, hhf, h⟩ := bind_eq_ok.mp hY'
  obtain ⟨hfit, rfl⟩ := checkedMul_eq_some.mp (mOu_eq_ok.mp hscaled)
  have hhf0 : 0 ≤ hf := by
    rw [mOu_eq_ok, checkedDiv_eq_some_of_pos hfit hD] at hhf
    rw [← hhf]
    exact Int.tdiv_nonneg (mul_nonneg hC hs.le) hD.le
  have hprod : Downward fun v : ℤ => mOu (checkedMul v hf) >>= fun p => mOu (checkedDiv p scalar9) :=
    downward_mulDiv (P := True) hhf0 hs fun _ _ => by rw [true_and]; exact mulDiv_eq_ok hs
  have hrest := hprod.bind downward_strictlyUnder
  simp only [bind_assoc] at hrest
  obtain ⟨y, hy, hy0, hyY⟩ := hrest h0 hle h
  refine ⟨y, ?_, hy0, hyY⟩
  simp only [healthFactorCap, hscaled, ok_bind, hhf]
  exact hy

/-- The sweep seizure of a solvent obligation before the position caps it. -/
def sweepBuys (pair : LiquidationPair) (repay : ℤ) : Res ℤ :=
  valueFloor repay pair.borrowPool >>= fun v =>
    (amountFloor v pair.collateralPool >>= fun a => addIncentive a pair.incentiveBps) >>= fun wi =>
      (healthFactorCap v pair.obligationDebtValue pair.obligationCollateralValue >>= fun x =>
        amountFloor x pair.collateralPool) >>= fun cap => pure (min wi cap)

theorem downward_sweepBuys (hb : 0 ≤ pair.borrowPool.oracleAssetPrice)
    (hc : 0 < pair.collateralPool.oracleAssetPrice) (hf : 0 ≤ bpsFactor + pair.incentiveBps)
    (hD : 0 < pair.obligationDebtValue) (hC : 0 ≤ pair.obligationCollateralValue) :
    Downward pair.sweepBuys :=
  (downward_valueFloor hb).bind
    (((downward_amountFloor hc).bind (downward_addIncentive hf)).min
      ((downward_healthFactorCap hD hC).bind (downward_amountFloor hc)))

/-- **The sweep rules return on every repay when they price the whole debt.** -/
theorem sweepReturns_of_whole {t : ℤ} (hsolvent : pair.isInsolvent = false)
    (hb : 0 ≤ pair.borrowPool.oracleAssetPrice) (hc : 0 < pair.collateralPool.oracleAssetPrice)
    (hf : 0 ≤ bpsFactor + pair.incentiveBps) (hD : 0 < pair.obligationDebtValue)
    (hC : 0 < pair.obligationCollateralValue)
    (ht : rateTokens pair.deposit pair.collateralPool = .ok t) (hpos : 0 < t) (hfit : Fits t)
    (hwhole : Returns (pair.sweepBuys pair.positionDebt))
    (hvalue : Returns (valueFloor t pair.collateralPool)) (hfloor : Returns pair.dustFloor) :
    pair.SweepReturns := by
  intro repay h1 hle
  have hdown := downward_sweepBuys hb hc hf hD hC.le
  obtain ⟨b, hbuys⟩ := hdown.returns (by omega) hle hwhole
  have hb0 := hdown.nonneg (by omega) hbuys
  simp only [sweepBuys, bind_eq_ok, pure_eq_ok] at hbuys
  obtain ⟨v, hv, wi, ⟨a, ha, hwi⟩, cap, ⟨x, hx, hcap⟩, rfl⟩ := hbuys
  obtain ⟨floor, hfloor⟩ := hfloor
  have hleft : Fits (t - min (min t wi) cap) := hfit.of_nonneg_of_le (by omega) (by omega)
  obtain ⟨left, hl⟩ : Returns (valueFloor (t - min (min t wi) cap) pair.collateralPool) :=
    (downward_valueFloor hc.le).returns (by omega) (by omega) hvalue
  have hinc : addIncentive a (min pair.borrowPool.maxLiquidationIncentiveBps
      pair.collateralPool.maxLiquidationIncentiveBps) = .ok wi := hwi
  have hpos' : ¬ (repay ≤ 0 ∨ pair.collateralPool.oracleAssetPrice ≤ 0) := by omega
  have hvals : ¬ (pair.obligationDebtValue ≤ 0 ∨ pair.obligationCollateralValue ≤ 0) := by omega
  have hsub : mOu (checkedSub t (min (min t wi) cap)) = .ok (t - min (min t wi) cap) :=
    mOu_eq_ok.mpr (checkedSub_eq_some.mpr ⟨hleft, rfl⟩)
  have hfloor' : dustFloorValue pair.minCollateralValueCents pair.oraclePriceDecimals =
      .ok floor := hfloor
  simp only [quote, computeExpectedSeizedCollateral, computeExpectedSeizedCollateral.ltvCapped,
    if_neg hpos', ht, ok_bind, if_neg (not_le.mpr hpos), hv, ha, hinc, hsolvent, Bool.not_false,
    true_and, if_neg hvals, Bool.false_eq_true, if_false, hx, hcap, pure_bind, hsub, hl, hfloor']
  exact ⟨_, rfl⟩

end LiquidationPair

open LiquidationPair

/-- **Headroom of the no-dust rules against the sweep rules.** For a solvent pair with no accrual, that the
no-dust rules return wherever the sweep rules do comes down to `Headroom`. -/
theorem noDust_headroom_iff (pair : LiquidationPair) (hsolvent : pair.isInsolvent = false)
    (hf : 0 ≤ bpsFactor + pair.incentiveBps) (haccr : pair.debtAccrualBps = 0)
    (haccr' : pair.supplyAccrualBps = 0) (hm : 0 ≤ pair.margin.refundedBps)
    (hm' : 0 ≤ pair.margin.unrefundedBps) :
    (pair.SweepReturns → pair.NoDustReturns) ↔
      (pair.SweepReturns → Headroom { pair with rules := .noDust }) :=
  imp_congr_right fun _ =>
    @returns_iff_headroom { pair with rules := .noDust } rfl hsolvent hf haccr haccr' hm hm'

/-- A $1,000 debt against $2,000 has the headroom. -/
theorem noDust_sizes_a_thousand_dollars : (dustPair 10000000000 20000000000).NoDustReturns := by
  have hsweep : (dustPair 10000000000 20000000000).SweepReturns :=
    sweepReturns_of_whole (t := 20000000000) (by decide) (by decide) (by decide) (by decide)
      (by decide) (by decide) (by decide +kernel) (by decide) (by decide) (by decide +kernel)
      (by decide +kernel) (by decide +kernel)
  have hhead : Headroom (dustPair 10000000000 20000000000) := by
    have hD : (dustPair 10000000000 20000000000).buys 10000000000 false = .ok 11000000000 := by
      decide +kernel
    refine .inr ⟨20000000000, by decide +kernel, .inr (.inr ⟨false, by decide, by decide,
      by decide +kernel, ⟨_, hD⟩, fun _ _ _ => by decide, ?_, fun _ => by decide, nofun, fun b hb => ?_⟩)⟩
    · -- no repay up to the debt buys the whole collateral
      rintro x ⟨⟨h1, hle, b, hb, hpc⟩, -⟩
      have := (downward_buys (by decide) (by decide) (by decide) false).mono (by omega) hle hb hD
      omega
    · have h1 : (dustPair 10000000000 20000000000).buys 1 false = .ok 1 := by decide +kernel
      obtain rfl : (1 : ℤ) = b := ok_unique h1 hb
      decide +kernel
  exact (noDust_headroom_iff (dustPair 10000000000 20000000000) (by decide) (by decide) (by decide)
    (by decide) (by decide) (by decide)).mpr (fun _ => hhead) hsweep

/-- A $190,000 debt against $200,000: the sweep rules quote every repay, the no-dust rules overflow on
$95,000 and fit no repay at all. -/
theorem noDust_overflows_where_sweep_returns :
    (dustPair 1900000000000 2000000000000).isInsolvent = false ∧
      (dustPair 1900000000000 2000000000000).debtAccrualBps = 0 ∧
      (dustPair 1900000000000 2000000000000).supplyAccrualBps = 0 ∧
      (dustPair 1900000000000 2000000000000).SweepReturns ∧
      { dustPair 1900000000000 2000000000000 with rules := .noDust }.quote 950000000000 =
        .error (.err .overOrUnderflow) ∧
      { dustPair 1900000000000 2000000000000 with rules := .noDust }.fitRepay 1 1 =
        .error (.err .overOrUnderflow) := by
  refine ⟨by decide, by decide, by decide, ?_, by decide +kernel, by decide +kernel⟩
  exact sweepReturns_of_whole (t := 2000000000000) (by decide) (by decide) (by decide) (by decide)
    (by decide) (by decide) (by decide +kernel) (by decide) (by decide) (by decide +kernel)
    (by decide +kernel) (by decide +kernel)

end AlulaKeeper
