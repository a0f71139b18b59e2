import Mathlib
import AlulaKeeper.Sizing.Fitting

/-!
# The largest partial repay

`largest_partial_repay` bisects upward for the last repay that keeps both sides over the dust floor and quotes
it once more. Repays that keep both sides are downward closed, since a smaller repay buys no more, and within
the close factor's cap the quote accepts each of them: the search is exact.

* `LiquidationPair.LeavesBothSides`: the market accepts a repay and leaves both sides worth the floor.
* `Priced.keepsBothSides_of_le`: below such a repay every test of the search passes.
* `Priced.largestPartialRepay_exact`: the search returns the largest of them, or there is none.
-/

namespace AlulaKeeper

open I128

namespace LiquidationPair

/-- The market accepts the repay `x`, and both sides it leaves are positive and worth the floor. -/
def LeavesBothSides (pair : LiquidationPair) (pc floor x : ℤ) : Prop :=
  ∃ seized repaid collateralWorth debtWorth, pair.quote x = .ok (.accepted seized repaid) ∧
    0 < pc - seized ∧ 0 < pair.positionDebt - repaid ∧
    valueFloor (pc - seized) pair.collateralPool = .ok collateralWorth ∧ floor ≤ collateralWorth ∧
    valueCeil (pair.positionDebt - repaid) pair.borrowPool = .ok debtWorth ∧ floor ≤ debtWorth

variable {pair : LiquidationPair} {lifted : Bool} {pc floor x y upper : ℤ}

theorem worth_of_not_leavesDust {collateralLeft debtLeft : ℤ} (hfloor : pair.dustFloor = .ok floor)
    (hcollateral : 0 < collateralLeft) (hdebt : 0 < debtLeft)
    (h : pair.leavesDust collateralLeft debtLeft = .ok false) :
    ∃ w v, valueFloor collateralLeft pair.collateralPool = .ok w ∧ floor ≤ w ∧
      valueCeil debtLeft pair.borrowPool = .ok v ∧ floor ≤ v := by
  rw [leavesDust, if_neg (by omega), hfloor, ok_bind] at h
  obtain ⟨w, hw, h⟩ := bind_eq_ok.mp h
  split_ifs at h with hlt
  · cases pure_eq_ok.mp h
  · obtain ⟨v, hv, h⟩ := bind_eq_ok.mp h
    have hge : floor ≤ v := by simpa using h
    exact ⟨w, v, hw, not_lt.mp hlt, hv, hge⟩

section Priced

variable (h : pair.Priced) (hl : pair.liftsCloseFactor = .ok lifted)
  (hpc : pair.positionCollateral = .ok pc) (hD : 0 < pair.positionDebt) (hpos : 0 < pc)

include h hl hpc hD hpos

/-- What leaves both sides passes the search's test: nothing was taken whole, so nothing was refunded. -/
theorem Priced.keepsSides_of_leaves (h1 : 1 ≤ x) (hleaves : pair.LeavesBothSides pc floor x) :
    ∃ b, pair.buys (min x pair.positionDebt) lifted = .ok b ∧ pair.KeepsSides floor pc x b := by
  obtain ⟨seized, repaid, w, v, hq, hcollateral, hdebt, hw, hwf, hv, hvf⟩ := hleaves
  obtain ⟨b, hb, hr, -, rfl⟩ := h.accepted_cases hl hpc hD hpos h1 hq
  have hlt : b < pc := by omega
  have hmin : min pc b = b := by omega
  have hrepaid : repaid = min x pair.positionDebt := ok_unique hr (refundedRepay_of_ne (by omega))
  have hx : min x pair.positionDebt = x := by omega
  rw [hmin] at hw
  rw [hrepaid, hx] at hv
  refine ⟨b, hb, by omega, hlt, fun u hu => ?_, fun u hu => ?_⟩
  · rwa [ok_unique hu hw]
  · rwa [ok_unique hu hv]

theorem Priced.keepsBothSides_of_le {v : Bool} (hf : 0 ≤ bpsFactor + pair.incentiveBps)
    (hfloor : pair.dustFloor = .ok floor) (h1 : 1 ≤ x) (hxy : x ≤ y)
    (hleaves : pair.LeavesBothSides pc floor y) (hv : pair.keepsBothSides lifted floor pc x = .ok v) :
    v = true := by
  obtain ⟨by', hby, hkeeps⟩ := h.keepsSides_of_leaves hl hpc hD hpos (h1.trans hxy) hleaves
  obtain ⟨bx, hbx, hiff⟩ := keepsBothSides_eq_ok hfloor hv
  have hmono := downward_buys h.borrowPrice.le h.collateralPrice hf lifted
  have hle : bx ≤ by' := hmono.mono (by omega) (min_le_min_right _ hxy) hbx hby
  exact hiff.mpr (h.keepsSides_between hkeeps hkeeps hxy (le_max_of_le_left hle))

/-- What passes the search's test and the close factor is accepted and leaves both sides. -/
theorem Priced.leaves_of_keepsSides {a : Bool} {b : ℤ} (hfloor : pair.dustFloor = .ok floor) (h1 : 1 ≤ x)
    (hadmits : pair.Admits x) (hb : pair.buys (min x pair.positionDebt) lifted = .ok b)
    (hkeeps : pair.KeepsSides floor pc x b) (ha : pair.accepts x = .ok a) :
    a = true ∧ pair.LeavesBothSides pc floor x := by
  obtain ⟨q, hq, rfl⟩ := accepts_eq_ok.mp ha
  obtain ⟨hno, -⟩ | ⟨-, b', repaid, dust, hb', hr, hdust, rfl⟩ := h.quote_cases hl hpc hD hpos h1 hq
  · exact absurd hadmits hno
  obtain rfl := ok_unique hb hb'
  have hdebt := hkeeps.debt
  have hcollateral := hkeeps.collateral
  have hmin : min pc b = b := by omega
  have hrepaid : repaid = min x pair.positionDebt := ok_unique hr (refundedRepay_of_ne (by omega))
  have hx : min x pair.positionDebt = x := by omega
  rw [hmin, hrepaid, hx] at hdust hq
  obtain rfl := (leavesDust_eq_ok hfloor hdebt hcollateral hdust).mpr hkeeps
  obtain ⟨w, v, hw, hwf, hv, hvf⟩ := worth_of_not_leavesDust hfloor (by omega) (by omega) hdust
  exact ⟨rfl, b, x, w, v, hq, by omega, by omega, hw, hwf, hv, hvf⟩

/-- Within the cap every repay passes the close factor, also as the quote rounds it. -/
theorem Priced.not_overCloseFactor_of_le
    (hcap : lifted = false → upper ≤ computeCloseFactorRepayCap false pair.positionDebt
      pair.borrowPool.liquidationCloseFactorBps) (h1 : 1 ≤ x) (hx : x ≤ upper) :
    pair.Admits x ∧ pair.quote x ≠ .ok .overCloseFactor := by
  have hadmits : pair.Admits x := by
    cases lifted with
    | true => exact .inl hl
    | false => exact admits_of_le_cap hD hl h1 (hx.trans (hcap rfl))
  refine ⟨hadmits, fun hq => ?_⟩
  obtain ⟨hno, -⟩ | ⟨-, b, repaid, dust, -, -, -, hres⟩ := h.quote_cases hl hpc hD hpos h1 hq
  · exact hno hadmits
  · cases dust <;> cases hres

/-- **The search for a partial repay is exact.** Up to an `upper` within the close factor's cap, unless the
close factor is lifted, it returns the largest repay that the market accepts and that leaves both sides
worth the floor; where it returns none there is no such repay. -/
theorem Priced.largestPartialRepay_exact {r : Option ℤ}
    (hborrow : 0 ≤ pair.borrowPool.maxLiquidationIncentiveBps)
    (hcollateral : 0 ≤ pair.collateralPool.maxLiquidationIncentiveBps)
    (hcap : lifted = false → upper ≤ computeCloseFactorRepayCap false pair.positionDebt
      pair.borrowPool.liquidationCloseFactorBps) (hfits : Fits upper)
    (hfloor : pair.dustFloor = .ok floor) (hr : pair.largestPartialRepay upper = .ok r) :
    (∀ x, r = some x → IsGreatest {y | 1 ≤ y ∧ y ≤ upper ∧ pair.LeavesBothSides pc floor y} x) ∧
      (r = none → ∀ y, 1 ≤ y → y ≤ upper → ¬ pair.LeavesBothSides pc floor y) ∧
      ∀ y, 1 ≤ y → y ≤ upper → pair.quote y ≠ .ok .overCloseFactor := by
  have hf : 0 ≤ bpsFactor + pair.incentiveBps :=
    add_nonneg bpsFactor_pos.le (le_min hborrow hcollateral)
  have hadmits := fun {x} => h.not_overCloseFactor_of_le hl hpc hD hpos (x := x) hcap
  refine and_assoc.mp ⟨?_, fun y hy hle => (hadmits hy hle).2⟩
  rcases lt_or_ge upper 1 with hempty | h1
  · rw [largestPartialRepay, hpc, ok_bind, hl, ok_bind, hfloor, ok_bind, if_pos hempty, pure_eq_ok] at hr
    subst hr
    exact ⟨by simp, fun _ y hy hle => by omega⟩
  obtain ⟨floor', hfloor', hsearch⟩ := largestPartialRepay_eq_ok hl hpc h1 hfits hr
  obtain rfl := ok_unique hfloor hfloor'
  have hbelow := fun {x y v} => h.keepsBothSides_of_le hl hpc hD hpos (x := x) (y := y) (v := v) hf hfloor
  obtain ⟨hone, rfl⟩ | ⟨low, a, -, hlow, hle, hpass, hnext, ha, rfl⟩ := hsearch
  · refine ⟨by simp, fun _ y hy _ hleaves => ?_⟩
    exact absurd (hbelow le_rfl hy hleaves hone) (by decide)
  · obtain ⟨b, hb, hkeeps⟩ := keepsBothSides_eq_ok hfloor hpass
    obtain ⟨rfl, hleaves⟩ := h.leaves_of_keepsSides hl hpc hD hpos hfloor hlow (hadmits hlow hle).1 hb
      (hkeeps.mp rfl) ha
    refine ⟨fun x hx => ?_, by simp⟩
    obtain rfl := Option.some.inj hx
    refine ⟨⟨hlow, hle, hleaves⟩, ?_⟩
    rintro y ⟨hy1, hy, hyleaves⟩
    by_contra hlt
    have hstop := hnext.resolve_left (by omega)
    exact absurd (hbelow (by omega) (by omega) hyleaves hstop) (by decide)

end Priced

/-- Of six dollars of debt five must stay: one can be repaid, whatever could be spent. -/
theorem largestPartialRepay_exact_six :
    (dustPair 60000000 200000000).largestPartialRepay 65000000 = .ok (some 10000000) ∧
      IsGreatest {y | 1 ≤ y ∧ y ≤ 65000000 ∧
        (dustPair 60000000 200000000).LeavesBothSides 200000000 500000000000000 y} 10000000 :=
  ⟨by decide +kernel, (@Priced.largestPartialRepay_exact (dustPair 60000000 200000000) true 200000000
    500000000000000 65000000 ⟨rfl, by decide, by decide⟩ (by decide) (by decide) (by decide) (by decide)
    (some 10000000) (by decide) (by decide) (by decide) (by decide) (by decide) (by decide +kernel)).1
    10000000 rfl⟩

end LiquidationPair

end AlulaKeeper
