import Mathlib
import AlulaKeeper.Lending.Pool

/-!
# What a pool lets leave

`compute_max_safe_withdrawal` and `available_for_borrow` are two headrooms of one pool: a quotient rounded
up, and a share of the supply counted from the utilization rounded down.

* `bpsFixedDivCeil_le_iff`: what the ceiled quotient is under, without the rounding.
* `PoolData.SafeAmount`: an amount that may leave under a utilization.
* `computeMaxSafeWithdrawal_isGreatest`: the safe withdrawal is the largest such amount.
* `availableForBorrow_le_iff`: when what is available for borrowing is a safe withdrawal.
-/

namespace AlulaKeeper

open I128

/-! ## The quotients -/

theorem bpsFixedDivCeil_le_iff {a other r : ℤ} (hnonneg : 0 ≤ a) (hpos : 0 < other)
    (h : bpsFixedDivCeil a other = .ok r) (k : ℤ) : r ≤ k ↔ a * bpsFactor ≤ k * other := by
  obtain ⟨-, -, -, rfl⟩ := (bpsFixedDivCeil_eq_ok_of_pos hpos).mp h
  exact ceil_tdiv_le_iff (mul_nonneg hnonneg (by decide)) hpos

namespace PoolData

variable {pool : PoolData} {margin u w : ℤ}

theorem utilizationRatioBps_eq (hsupply : 0 < pool.totalSupply) (hborrowed : 0 ≤ pool.totalBorrowed)
    (h : pool.utilizationRatioBps = .ok u) :
    Fits (pool.totalBorrowed * bpsFactor) ∧ u = pool.totalBorrowed * bpsFactor / pool.totalSupply := by
  rw [utilizationRatioBps, if_neg hsupply.ne'] at h
  obtain ⟨hfits, rfl⟩ := (bpsFixedDivFloor_eq_ok_of_pos hsupply).mp h
  exact ⟨hfits, Int.tdiv_eq_ediv_of_nonneg (mul_nonneg hborrowed (by decide))⟩

/-- A pool of the dust tests with `borrowed` of `supplied` lent out. -/
def usedPool (supplied borrowed : Underlying) : PoolData :=
  { dustPool "USDC" usd with totalSupply := supplied, totalBorrowed := borrowed }

/-! ## The safe withdrawal -/

/-- `amount` may leave with the utilization of what stays at or under `safe`; nothing always may. -/
def SafeAmount (pool : PoolData) (safe amount : ℤ) : Prop :=
  amount = 0 ∨ 0 < safe ∧ pool.totalBorrowed * bpsFactor ≤ safe * (pool.totalSupply - amount)

/-- Saturating the safe utilization changes no comparison the code gets to: saturated above, it leaves
room for an empty pool of debt only. -/
theorem saturated_band {limit borrowed k : ℤ} (hborrowed : 0 ≤ borrowed)
    (hsafe : 0 < saturatingSub limit margin)
    (hfits : Fits (borrowed * bpsFactor + (saturatingSub limit margin - 1))) :
    borrowed * bpsFactor ≤ (limit - margin) * k ↔ borrowed * bpsFactor ≤ saturatingSub limit margin * k := by
  have hpos : 0 < limit - margin := clamp_pos_iff.mp hsafe
  rcases le_or_gt (limit - margin) maxVal with hle | hgt
  · have hfits : Fits (limit - margin) := ⟨le_trans (by decide) hpos.le, hle⟩
    rw [saturatingSub, clamp_of_fits hfits]
  · have hmax : saturatingSub limit margin = maxVal := clamp_eq_max hgt.le
    have hsum := hfits.2
    rw [hmax] at hsum hsafe
    have hzero : borrowed = 0 := by unfold bpsFactor at hsum; omega
    rw [hmax, hzero, zero_mul]
    exact (mul_nonneg_iff_of_pos_left hpos).trans (mul_nonneg_iff_of_pos_left hsafe).symm

theorem computeMaxSafeWithdrawal_cases (h : pool.computeMaxSafeWithdrawal margin = .ok w) :
    ∃ u, pool.utilizationRatioBps = .ok u ∧
      (saturatingSub pool.utilizationRatioLimitBps margin ≤ 0 ∧ w = 0 ∨
        0 < saturatingSub pool.utilizationRatioLimitBps margin ∧
          saturatingSub pool.utilizationRatioLimitBps margin ≤ u ∧ w = 0 ∨
        0 < saturatingSub pool.utilizationRatioLimitBps margin ∧
          u < saturatingSub pool.utilizationRatioLimitBps margin ∧
          ∃ minSupply, bpsFixedDivCeil pool.totalBorrowed
              (saturatingSub pool.utilizationRatioLimitBps margin) = .ok minSupply ∧
            w = max 0 (pool.totalSupply - minSupply)) := by
  obtain ⟨u, hu, h⟩ := bind_eq_ok.mp h
  dsimp only at h
  refine ⟨u, hu, ?_⟩
  split_ifs at h with hsafe hcurrent
  · exact .inl ⟨hsafe, (pure_eq_ok.mp h).symm⟩
  · exact .inr (.inl ⟨not_le.mp hsafe, hcurrent, (pure_eq_ok.mp h).symm⟩)
  · obtain ⟨minSupply, hmin, h⟩ := bind_eq_ok.mp h
    refine .inr (.inr ⟨not_le.mp hsafe, not_le.mp hcurrent, minSupply, hmin, ?_⟩)
    split_ifs at h with hle
    · rw [max_eq_left (sub_nonpos.mpr hle)]
      exact (pure_eq_ok.mp h).symm
    · rw [max_eq_right (sub_nonneg.mpr (not_le.mp hle).le)]
      exact (rawSub_eq_ok.mp h).2.symm

theorem band_passed {limit a : ℤ} (hsupply : 0 ≤ pool.totalSupply) (hborrowed : 0 ≤ pool.totalBorrowed)
    (hu : pool.utilizationRatioBps = .ok u) (hsafe : 0 < saturatingSub limit margin)
    (hpassed : saturatingSub limit margin ≤ u) (ha : 0 < a) :
    (limit - margin) * (pool.totalSupply - a) < pool.totalBorrowed * bpsFactor := by
  rcases hsupply.eq_or_lt with hzero | hsupply
  · -- an empty pool has no utilization to be past
    rw [utilizationRatioBps, if_pos hzero.symm, pure_eq_ok] at hu
    omega
  obtain ⟨hfits, rfl⟩ := utilizationRatioBps_eq hsupply hborrowed hu
  have hcovered := (Int.le_ediv_iff_mul_le hsupply).mp hpassed
  have hpos : 0 < limit - margin := clamp_pos_iff.mp hsafe
  rcases le_or_gt (limit - margin) maxVal with hle | hgt
  · have hclamp : saturatingSub limit margin = limit - margin :=
      clamp_of_fits ⟨le_trans (by decide) hpos.le, hle⟩
    rw [hclamp] at hcovered
    nlinarith
  · -- a saturated band is past only at `maxVal` itself, which no bps amount is
    have hmax : saturatingSub limit margin = maxVal := clamp_eq_max hgt.le
    rw [hmax] at hcovered
    have hle : maxVal ≤ maxVal * pool.totalSupply := le_mul_of_one_le_right (by decide) hsupply
    have heq : pool.totalBorrowed * bpsFactor = maxVal := le_antisymm hfits.2 (hle.trans hcovered)
    have hdvd : bpsFactor ∣ maxVal := heq ▸ Dvd.intro_left pool.totalBorrowed rfl
    exact absurd hdvd (by decide)

/-- The safe withdrawal is a safe amount, and no larger one is. -/
theorem computeMaxSafeWithdrawal_isGreatest (hsupply : 0 ≤ pool.totalSupply)
    (hborrowed : 0 ≤ pool.totalBorrowed) (h : pool.computeMaxSafeWithdrawal margin = .ok w) :
    w ≤ pool.totalSupply ∧
      IsGreatest {a | pool.SafeAmount (pool.utilizationRatioLimitBps - margin) a} w := by
  obtain ⟨u, hu, ⟨hsafe, rfl⟩ | ⟨hsafe, hpassed, rfl⟩ | ⟨hsafe, -, minSupply, hmin, rfl⟩⟩ :=
    computeMaxSafeWithdrawal_cases h
  · refine ⟨hsupply, .inl rfl, ?_⟩
    rintro a (rfl | ⟨hpos, -⟩)
    · exact le_rfl
    · exact absurd (clamp_pos_iff.mpr hpos) hsafe.not_gt
  · refine ⟨hsupply, .inl rfl, ?_⟩
    rintro a (rfl | ⟨-, hcovers⟩)
    · exact le_rfl
    · by_contra hlt
      exact (band_passed hsupply hborrowed hu hsafe hpassed (not_le.mp hlt)).not_ge hcovers
  · have hband := fun k => saturated_band (k := k) hborrowed hsafe
      ((bpsFixedDivCeil_eq_ok_of_pos hsafe).mp hmin).2.2.1
    have hleast := bpsFixedDivCeil_le_iff hborrowed hsafe hmin
    have hpos : 0 < pool.utilizationRatioLimitBps - margin := clamp_pos_iff.mp hsafe
    have hnonneg : 0 ≤ minSupply := by
      by_contra hneg
      have hunder := (hleast (-1)).mp (by omega)
      have hover : 0 ≤ pool.totalBorrowed * bpsFactor := mul_nonneg hborrowed (by decide)
      linarith
    refine ⟨max_le hsupply (by linarith), ?_, ?_⟩
    · rcases le_or_gt (pool.totalSupply - minSupply) 0 with hle | hgt
      · exact .inl (max_eq_left hle)
      · rw [max_eq_right hgt.le]
        refine .inr ⟨hpos, ?_⟩
        rw [sub_sub_cancel, hband, mul_comm (saturatingSub _ _)]
        exact (hleast minSupply).mp le_rfl
    · rintro a (rfl | ⟨-, hcovers⟩)
      · exact le_max_left _ _
      · rw [hband, mul_comm (saturatingSub _ _), ← hleast] at hcovers
        exact le_max_of_le_right (by linarith)

/-- **The safe withdrawal is safe and tight.** It lies within the supply and is the largest amount that may
leave under the limit less the margin. A positive one keeps the utilization recomputed on what stays within
the band; one token more breaches it. -/
theorem computeMaxSafeWithdrawal_tight (hsupply : 0 ≤ pool.totalSupply) (hborrowed : 0 ≤ pool.totalBorrowed)
    (h : pool.computeMaxSafeWithdrawal margin = .ok w) :
    0 ≤ w ∧ w ≤ pool.totalSupply ∧
      IsGreatest {a | pool.SafeAmount (pool.utilizationRatioLimitBps - margin) a} w ∧
      (0 < w →
        (∀ u, 0 < pool.totalSupply - w → bpsFixedDivCeil pool.totalBorrowed (pool.totalSupply - w) = .ok u →
          u ≤ pool.utilizationRatioLimitBps - margin) ∧
        (pool.utilizationRatioLimitBps - margin) * (pool.totalSupply - (w + 1)) <
          pool.totalBorrowed * bpsFactor ∧
        (∀ u, 0 < pool.totalSupply - (w + 1) →
          bpsFixedDivCeil pool.totalBorrowed (pool.totalSupply - (w + 1)) = .ok u →
          pool.utilizationRatioLimitBps - margin < u)) := by
  obtain ⟨hle, hgreatest⟩ := computeMaxSafeWithdrawal_isGreatest hsupply hborrowed h
  refine ⟨hgreatest.2 (.inl rfl), hle, hgreatest, fun hw => ?_⟩
  obtain ⟨hpos, hcovers⟩ := hgreatest.1.resolve_left hw.ne'
  have hbreach : (pool.utilizationRatioLimitBps - margin) * (pool.totalSupply - (w + 1)) <
      pool.totalBorrowed * bpsFactor := by
    by_contra hkeeps
    have hmore := hgreatest.2 (show w + 1 ∈ _ from .inr ⟨hpos, not_lt.mp hkeeps⟩)
    linarith
  refine ⟨fun u hremain hu => ?_, hbreach, fun u hremain hu => ?_⟩
  · exact (bpsFixedDivCeil_le_iff hborrowed hremain hu _).mpr hcovers
  · exact not_le.mp fun hunder => hbreach.not_ge ((bpsFixedDivCeil_le_iff hborrowed hremain hu _).mp hunder)

/-- A half-borrowed pool under a 90% limit, with a 5% margin. -/
theorem computeMaxSafeWithdrawal_tight_half :
    (usedPool 1000000 500000).computeMaxSafeWithdrawal 500 = .ok 411764 ∧
      IsGreatest {a | (usedPool 1000000 500000).SafeAmount (9000 - 500) a} 411764 :=
  ⟨by decide, (computeMaxSafeWithdrawal_tight (by decide) (by decide) (by decide)).2.2.1⟩

/-! ## What is available for borrowing -/

/-- What flooring the utilization drops is covered by what `available_for_borrow` leaves in the pool: the
share of its supply above the limit, the remainder of its own division, and what its product saturates. -/
def FlooringCovered (pool : PoolData) : Prop :=
  let utilization := pool.totalBorrowed * bpsFactor / pool.totalSupply
  let left := pool.totalSupply * (pool.utilizationRatioLimitBps - utilization)
  let counted := min left maxVal
  pool.utilizationRatioLimitBps ≤ utilization ∨
    pool.totalBorrowed * bpsFactor % pool.totalSupply ≤
      (bpsFactor - pool.utilizationRatioLimitBps) * (counted / bpsFactor) + counted % bpsFactor +
        (left - counted)

instance (pool : PoolData) : Decidable pool.FlooringCovered :=
  inferInstanceAs (Decidable (_ ∨ _))

theorem availableForBorrow_eq {a : ℤ} (hsupply : 0 < pool.totalSupply) (hborrowed : 0 ≤ pool.totalBorrowed)
    (h : pool.availableForBorrow = .ok a) :
    let utilization := pool.totalBorrowed * bpsFactor / pool.totalSupply
    pool.utilizationRatioLimitBps ≤ utilization ∧ a = 0 ∨
      utilization < pool.utilizationRatioLimitBps ∧
        a = min (pool.totalSupply * (pool.utilizationRatioLimitBps - utilization)) maxVal / bpsFactor := by
  obtain ⟨u, hu, h⟩ := bind_eq_ok.mp h
  obtain ⟨-, rfl⟩ := utilizationRatioBps_eq hsupply hborrowed hu
  dsimp only at h ⊢
  split_ifs at h with hlimit
  · exact .inl ⟨hlimit, (pure_eq_ok.mp h).symm⟩
  have hunder := not_le.mp hlimit
  refine .inr ⟨hunder, ?_⟩
  obtain ⟨left, hleft, h⟩ := bind_eq_ok.mp h
  obtain ⟨-, rfl⟩ := rawSub_eq_ok.mp hleft
  rw [← pure_eq_ok.mp h]
  have hnonneg : 0 ≤ pool.totalSupply *
      (pool.utilizationRatioLimitBps - pool.totalBorrowed * bpsFactor / pool.totalSupply) :=
    mul_nonneg hsupply.le (sub_nonneg.mpr hunder.le)
  have hmul : ∀ x : ℤ, 0 ≤ x → clamp x = min x maxVal := by
    intro x hx
    unfold clamp minVal maxVal
    omega
  rw [saturatingDiv, saturatingMul, clamp_of_fits ((fits_clamp _).tdiv (by decide)), hmul _ hnonneg,
    Int.tdiv_eq_ediv_of_nonneg (le_min hnonneg (by decide))]

/-- **When what is available for borrowing can be withdrawn.** `available_for_borrow` is within the safe
withdrawal of no margin, and withdrawing it stays within the limit, exactly when what flooring the
utilization drops is covered. -/
theorem availableForBorrow_le_iff {a : ℤ} (hsupply : 0 < pool.totalSupply)
    (hborrowed : 0 ≤ pool.totalBorrowed) (hlimit : 0 < pool.utilizationRatioLimitBps)
    (ha : pool.availableForBorrow = .ok a) (hw : pool.computeMaxSafeWithdrawal 0 = .ok w) :
    (a ≤ w ↔ pool.FlooringCovered) ∧
      (pool.SafeAmount pool.utilizationRatioLimitBps a ↔ pool.FlooringCovered) := by
  obtain ⟨-, hgreatest⟩ := computeMaxSafeWithdrawal_isGreatest hsupply.le hborrowed hw
  rw [sub_zero] at hgreatest
  have hw0 : 0 ≤ w := hgreatest.2 (.inl rfl)
  rcases availableForBorrow_eq hsupply hborrowed ha with ⟨hover, rfl⟩ | ⟨hunder, hcount⟩
  · exact ⟨iff_of_true hw0 (.inl hover), iff_of_true (.inl rfl) (.inl hover)⟩
  have hsafe : ∀ b, 0 ≤ b → (b ≤ w ↔ pool.SafeAmount pool.utilizationRatioLimitBps b) := by
    intro b hb
    refine ⟨fun hle => ?_, fun hsafe => hgreatest.2 hsafe⟩
    rcases hgreatest.1 with rfl | ⟨-, hcovers⟩
    · exact .inl (le_antisymm hle hb)
    · exact .inr ⟨hlimit, hcovers.trans (by gcongr)⟩
  have hnonneg : 0 ≤ a := by
    rw [hcount]
    exact Int.ediv_nonneg (le_min (mul_nonneg hsupply.le (sub_nonneg.mpr hunder.le)) (by decide)) (by decide)
  have hcovers : pool.SafeAmount pool.utilizationRatioLimitBps a ↔
      pool.totalBorrowed * bpsFactor ≤ pool.utilizationRatioLimitBps * (pool.totalSupply - a) := by
    refine ⟨?_, fun hcovers => .inr ⟨hlimit, hcovers⟩⟩
    rintro (rfl | ⟨-, hcovers⟩)
    · rw [sub_zero]
      exact ((Int.ediv_lt_iff_lt_mul hsupply).mp hunder).le
    · exact hcovers
  have hcovered : pool.SafeAmount pool.utilizationRatioLimitBps a ↔ pool.FlooringCovered := by
    rw [hcovers]
    -- both divisions with their remainders: the rest is linear
    have hborrow := Int.mul_ediv_add_emod (pool.totalBorrowed * bpsFactor) pool.totalSupply
    have hdivide := Int.mul_ediv_add_emod (min (pool.totalSupply * (pool.utilizationRatioLimitBps -
      pool.totalBorrowed * bpsFactor / pool.totalSupply)) maxVal) bpsFactor
    rw [← hcount] at hdivide
    unfold FlooringCovered
    dsimp only
    rw [or_iff_right hunder.not_ge, ← hcount]
    constructor <;> intro hle <;> linarith
  exact ⟨(hsafe a hnonneg).trans hcovered, hcovered⟩

/-- Half a bps of utilization is dropped, and the supply above the limit covers it. -/
theorem availableForBorrow_le_iff_half :
    0 < (usedPool 1000000 500050).totalBorrowed * bpsFactor % (usedPool 1000000 500050).totalSupply ∧
      (usedPool 1000000 500050).FlooringCovered ∧
      ((400000 : ℤ) ≤ 444388 ↔ (usedPool 1000000 500050).FlooringCovered) ∧
      ((usedPool 1000000 500050).SafeAmount 9000 400000 ↔ (usedPool 1000000 500050).FlooringCovered) :=
  ⟨by decide, by decide,
    availableForBorrow_le_iff (by decide) (by decide) (by decide) (by decide) (by decide)⟩

/-- Half a bps of utilization, dropped by the floor, lends what the limit does not let leave. -/
theorem availableForBorrow_over_safe :
    0 < (usedPool 1000000 899950).totalSupply ∧ 0 ≤ (usedPool 1000000 899950).totalBorrowed ∧
      (usedPool 1000000 899950).utilizationRatioLimitBps = 9000 ∧
      (usedPool 1000000 899950).availableForBorrow = .ok 100 ∧
      (usedPool 1000000 899950).computeMaxSafeWithdrawal 0 = .ok 55 ∧ ¬ (100 : ℤ) ≤ 55 ∧
      bpsFixedDivCeil (usedPool 1000000 899950).totalBorrowed (1000000 - 100) = .ok 9001 := by
  decide

end PoolData

end AlulaKeeper
