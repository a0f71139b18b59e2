import Mathlib
import AlulaKeeper.Sizing.Headroom

/-!
# How far an offer reaches into a position

Both dust rules seize what an offer buys, capped by the position; the sweep rules then take the whole position
when the rest of it is worth less than the dust floor.

* `LiquidationPair.offerBuys`, `LiquidationPair.Sweeps`: the two parts of a seizure.
* `LiquidationPair.Reaches`: more than a given amount is taken.
* `LiquidationPair.lt_seized_iff`: a quote seizes more than an amount exactly when its offer reaches past it.
-/

namespace AlulaKeeper

open I128

namespace LiquidationPair

/-! ## The parts of a seizure -/

section Parts

variable (pair : LiquidationPair)

/-- The position's tokens, as the pair's rules convert its shares. -/
def position : Res ℤ :=
  match pair.rules with
  | .sweep => rateTokens pair.deposit pair.collateralPool
  | .noDust => pair.positionCollateral

/-- What an offer buys before the position caps it. -/
def offerBuys (offer : ℤ) : Res ℤ :=
  match pair.rules with
  | .sweep => if pair.isInsolvent then pair.buys offer true else pair.sweepBuys offer
  | .noDust => pair.liftsCloseFactor >>= pair.buys (min offer pair.positionDebt)

/-- The rest of the position is worth less than the dust floor of a sweep market. -/
def Sweeps (position bought : ℤ) : Prop :=
  pair.rules = .sweep ∧ ∃ value floor,
    valueFloor (position - min position bought) pair.collateralPool = .ok value ∧
      pair.dustFloor = .ok floor ∧ value < floor

/-- **The offer reaches past `n`.** The position is larger, and the offer buys more or the sweep takes the
rest. -/
def Reaches (offer n : ℤ) : Prop :=
  ∃ position bought, pair.position = .ok position ∧ pair.offerBuys offer = .ok bought ∧ n < position ∧
    (n < bought ∨ pair.Sweeps position bought)

end Parts

variable {pair : LiquidationPair} {repay seized repaid : ℤ}

/-! ## Quotes that seize -/

/-- The sweep market's capped amount is what the offer buys, capped by the position. -/
theorem ltvCapped_eq (hrules : pair.rules = .sweep) {value noBonus withIncentive position capped : ℤ}
    (hvalue : valueFloor repay pair.borrowPool = .ok value)
    (hnoBonus : amountFloor value pair.collateralPool = .ok noBonus)
    (hwithIncentive : addIncentive noBonus pair.incentiveBps = .ok withIncentive)
    (h : computeExpectedSeizedCollateral.ltvCapped pair.collateralPool pair.obligationDebtValue
      pair.obligationCollateralValue pair.isInsolvent (min position withIncentive) value = .ok capped) :
    ∃ bought, pair.offerBuys repay = .ok bought ∧ capped = min position bought := by
  unfold computeExpectedSeizedCollateral.ltvCapped at h
  rw [offerBuys, hrules]
  cases hinsolvent : pair.isInsolvent with
  | true =>
    rw [hinsolvent, if_pos rfl, pure_eq_ok] at h
    simp only [if_true, buys_lifted, hvalue, ok_bind, hnoBonus]
    exact ⟨withIncentive, hwithIncentive, h.symm⟩
  | false =>
    simp only [hinsolvent, Bool.false_eq_true, if_false, bind_eq_ok, pure_eq_ok] at h
    obtain ⟨strict, hstrict, amount, hamount, h⟩ := h
    simp only [Bool.false_eq_true, if_false, sweepBuys, hvalue, ok_bind, hnoBonus, hwithIncentive, hstrict,
      hamount]
    exact ⟨min withIncentive amount, rfl, h.symm.trans (min_assoc _ _ _)⟩

theorem sweep_of_seized (hrules : pair.rules = .sweep)
    (h : pair.quote repay = .ok (.accepted seized repaid)) (hpos : 0 < seized) :
    0 < repay ∧ ∃ position bought, pair.position = .ok position ∧
      pair.offerBuys repay = .ok bought ∧
      (pair.Sweeps position bought ∧ seized = position ∨
        ¬ pair.Sweeps position bought ∧ seized = min position bought) := by
  simp only [quote, hrules] at h
  obtain ⟨s, hs, h⟩ := bind_eq_ok.mp h
  obtain ⟨rfl, rfl⟩ := Seizure.accepted.inj (pure_eq_ok.mp h)
  have hzero : (pure 0 : Res ℤ) ≠ .ok s := fun h => hpos.ne (pure_eq_ok.mp h)
  unfold computeExpectedSeizedCollateral at hs
  obtain ⟨hnone, hs⟩ := ite_eq_ok_of_ne hzero hs
  refine ⟨not_le.mp fun hle => hnone (.inl hle), ?_⟩
  obtain ⟨position, hposition, hs⟩ := bind_eq_ok.mp hs
  obtain ⟨-, hs⟩ := ite_eq_ok_of_ne hzero hs
  obtain ⟨value, hvalue, hs⟩ := bind_eq_ok.mp hs
  obtain ⟨noBonus, hnoBonus, hs⟩ := bind_eq_ok.mp hs
  obtain ⟨withIncentive, hwithIncentive, hs⟩ := bind_eq_ok.mp hs
  obtain ⟨-, hs⟩ := ite_eq_ok_of_ne hzero hs
  obtain ⟨capped, hcapped, hs⟩ := bind_eq_ok.mp hs
  obtain ⟨left, hleft, hs⟩ := bind_eq_ok.mp hs
  obtain ⟨leftValue, hleftValue, hs⟩ := bind_eq_ok.mp hs
  obtain ⟨threshold, hthreshold, hs⟩ := bind_eq_ok.mp hs
  obtain ⟨bought, hbought, hcap⟩ := ltvCapped_eq hrules hvalue hnoBonus hwithIncentive hcapped
  obtain ⟨-, hleft⟩ := checkedSub_eq_some.mp (mOu_eq_ok.mp hleft)
  rw [← hleft, hcap] at hleftValue
  have hsweeps : pair.Sweeps position bought ↔ leftValue < threshold := by
    have hfloor : pair.dustFloor = .ok threshold := hthreshold
    simp only [Sweeps, hrules, hleftValue, hfloor, Except.ok.injEq, true_and, exists_and_left,
      exists_eq_left']
  refine ⟨position, bought, by rw [LiquidationPair.position, hrules]; exact hposition, hbought, ?_⟩
  have hseized := pure_eq_ok.mp hs
  by_cases hlt : leftValue < threshold
  · rw [if_pos hlt] at hseized
    exact .inl ⟨hsweeps.mpr hlt, by omega⟩
  · rw [if_neg hlt] at hseized
    exact .inr ⟨fun h => hlt (hsweeps.mp h), by omega⟩

theorem noDust_of_seized (hrules : pair.rules = .noDust)
    (h : pair.quote repay = .ok (.accepted seized repaid)) (hpos : 0 < seized) :
    0 < repay ∧ ∃ position bought, pair.position = .ok position ∧ pair.offerBuys repay = .ok bought ∧
      seized = min position bought := by
  obtain ⟨rfl, -⟩ | ⟨position, lifted, bought, hposition, -, hrepay, hlifted, hbought, hseized, -⟩ :=
    noDust_accepted hrules h
  · exact absurd hpos (lt_irrefl 0)
  · refine ⟨hrepay.trans_le (min_le_left _ _), position, bought, ?_, ?_, hseized⟩
    · rw [LiquidationPair.position, hrules]
      exact hposition
    · rw [offerBuys, hrules, hlifted]
      exact hbought

theorem repay_pos_of_seized (h : pair.quote repay = .ok (.accepted seized repaid)) (hpos : 0 < seized) :
    0 < repay := by
  cases hrules : pair.rules with
  | sweep => exact (sweep_of_seized hrules h hpos).1
  | noDust => exact (noDust_of_seized hrules h hpos).1

theorem seized_eq (h : pair.quote repay = .ok (.accepted seized repaid)) (hpos : 0 < seized) :
    ∃ position bought, pair.position = .ok position ∧ pair.offerBuys repay = .ok bought ∧
      (pair.Sweeps position bought ∧ seized = position ∨
        ¬ pair.Sweeps position bought ∧ seized = min position bought) := by
  cases hrules : pair.rules with
  | sweep => exact (sweep_of_seized hrules h hpos).2
  | noDust =>
    obtain ⟨-, position, bought, hposition, hbought, hseized⟩ := noDust_of_seized hrules h hpos
    refine ⟨position, bought, hposition, hbought, .inr ⟨fun hsweeps => ?_, hseized⟩⟩
    exact absurd (hrules.symm.trans hsweeps.1) (by decide)

theorem seized_le_position (h : pair.quote repay = .ok (.accepted seized repaid)) (hpos : 0 < seized) :
    ∃ position, pair.position = .ok position ∧ seized ≤ position := by
  obtain ⟨position, _, hposition, -, ⟨-, rfl⟩ | ⟨-, rfl⟩⟩ := seized_eq h hpos
  · exact ⟨_, hposition, le_rfl⟩
  · exact ⟨_, hposition, min_le_left _ _⟩

/-- **A quote seizes more than `n` exactly when its offer reaches past `n`.** -/
theorem lt_seized_iff {n : ℤ} (h : pair.quote repay = .ok (.accepted seized repaid)) (hpos : 0 < seized) :
    n < seized ↔ pair.Reaches repay n := by
  obtain ⟨position, bought, hposition, hbought, hseized⟩ := seized_eq h hpos
  have hreaches : pair.Reaches repay n ↔ n < position ∧ (n < bought ∨ pair.Sweeps position bought) := by
    simp only [Reaches, hposition, hbought, Except.ok.injEq, exists_and_left, exists_eq_left']
  rw [hreaches]
  obtain ⟨hsweeps, rfl⟩ | ⟨hsweeps, rfl⟩ := hseized
  · simp only [hsweeps, or_true, and_true]
  · simp only [hsweeps, or_false, lt_min_iff]

end LiquidationPair

end AlulaKeeper
