import Mathlib
import AlulaKeeper.Lib.Compounding
import AlulaKeeper.Lending.Pair

/-!
# Interest since the last update

`accrual_since_update_bps` is linear in the APY and rounded up, and a clearing offer is grown by it. A pool
compounds every second; within a year the linear figure is never under what it compounds to.

* `accruedBps`: the figure of one APY.
* `year_le_accruedBps`: it dominates the growth a year's APY allows, also where its sum saturates.
* `PoolData.accrualSinceUpdateBps_dominates`: what is grown by it covers the compounded amount.
-/

namespace AlulaKeeper

open I128

/-- The figure `accrual_since_update_bps` gives for one APY. -/
def accruedBps (apyBps : ℤ) (elapsed : ℕ) : ℤ :=
  (saturatingAdd (saturatingMul apyBps elapsed) (secondsInYear - 1)).tdiv secondsInYear

theorem PoolData.accrualSinceUpdateBps_eq (pool : PoolData) (now : ℕ) :
    pool.accrualSinceUpdateBps now =
      (accruedBps pool.borrowApyBps (now - pool.lastAccrualTimestamp),
        accruedBps pool.supplyApyBps (now - pool.lastAccrualTimestamp)) := rfl

/-- Seconds in a year, as a count of steps. -/
def yearSteps : ℕ := secondsInYear.toNat

theorem yearSteps_cast : (yearSteps : ℤ) = secondsInYear := by decide

theorem yearSteps_pos : 0 < yearSteps := by decide

theorem accruedBps_mono {apy : ℤ} (hapy : 0 ≤ apy) {m n : ℕ} (h : m ≤ n) :
    accruedBps apy m ≤ accruedBps apy n := by
  have hcast : (m : ℤ) ≤ n := Int.ofNat_le.mpr h
  have hprod : saturatingMul apy m ≤ saturatingMul apy n := clamp_mono (mul_le_mul_of_nonneg_left hcast hapy)
  exact Int.tdiv_le_tdiv (by decide) (clamp_mono (add_le_add_left hprod _))

variable {apy : ℤ} {n : ℕ}

theorem accruedBps_eq (hfits : Fits (apy * n)) :
    accruedBps apy n = (clamp (apy * n + (secondsInYear - 1))).tdiv secondsInYear := by
  rw [accruedBps, saturatingMul, clamp_of_fits hfits, saturatingAdd]

theorem le_accruedBps (hapy : 0 ≤ apy) (hfits : Fits (apy * n)) (hsum : Fits (apy * n + (secondsInYear - 1))) :
    apy * n ≤ accruedBps apy n * secondsInYear := by
  rw [accruedBps_eq hfits, clamp_of_fits hsum]
  exact le_ceil_tdiv_mul (mul_nonneg hapy (Int.natCast_nonneg n)) (by decide)

/-- A sum that saturates drops less than a year of the product. -/
theorem lt_accruedBps_of_saturated (hfits : Fits (apy * n)) (hsum : maxVal ≤ apy * n + (secondsInYear - 1)) :
    apy * n < (accruedBps apy n + 1) * secondsInYear ∧
      ∀ k, k * secondsInYear ≤ maxVal → k ≤ accruedBps apy n := by
  rw [accruedBps_eq hfits, clamp_eq_max hsum]
  constructor
  · refine hfits.2.trans_lt ?_
    decide
  · intro k hk
    exact (le_tdiv_iff (by decide) (by decide)).mpr hk

/-! ## Against a year of compounding -/

section Year

variable {ρ : ℝ}

theorem linear_share (apy n : ℝ) :
    n / yearSteps * (apy / 10000) = apy * n / yearSteps / 10000 := by ring

theorem year_le_of_exact (hapy : 0 ≤ apy) (hρ : 0 ≤ ρ) (hyear : (1 + ρ) ^ yearSteps ≤ 1 + (apy : ℝ) / 10000)
    (hn : n ≤ yearSteps) (hfits : Fits (apy * n)) (hsum : Fits (apy * n + (secondsInYear - 1))) :
    (1 + ρ) ^ n ≤ 1 + (accruedBps apy n : ℝ) / 10000 := by
  have hY : (0 : ℝ) < yearSteps := Nat.cast_pos.mpr yearSteps_pos
  have hshare : (apy : ℝ) * n / yearSteps ≤ accruedBps apy n := by
    have hle := le_accruedBps hapy hfits hsum
    rw [← yearSteps_cast] at hle
    rw [div_le_iff₀ hY]
    exact_mod_cast hle
  have hpow := Compounding.pow_le_linear hρ (by positivity) yearSteps_pos hn hyear
  rw [linear_share] at hpow
  linarith

theorem large_of_saturated (hapy : 0 ≤ apy) (hn : n ≤ yearSteps)
    (hsum : maxVal < apy * n + (secondsInYear - 1)) :
    90000 * (yearSteps : ℤ) ≤ apy * n ∧ (yearSteps : ℤ) ≤ apy := by
  constructor
  · have hsmall : 90000 * (yearSteps : ℤ) ≤ maxVal - (secondsInYear - 1) := by decide
    omega
  · have hle : apy * n ≤ apy * yearSteps := mul_le_mul_of_nonneg_left (by omega) hapy
    have hpos : (0 : ℤ) < yearSteps := by decide
    have hsq : (yearSteps : ℤ) * yearSteps ≤ maxVal - (secondsInYear - 1) := by decide
    refine le_of_mul_le_mul_right ?_ hpos
    omega

/-- Of an APY of a bps a second, every second left of the year earns a bps. -/
theorem bps_le_remaining (hn : n < yearSteps) (hapy : (yearSteps : ℤ) ≤ apy) :
    (1 / 10000 : ℝ) ≤ (1 - n / yearSteps) * (apy / 10000) := by
  have hY : (0 : ℝ) < yearSteps := Nat.cast_pos.mpr yearSteps_pos
  have hnonneg : (0 : ℝ) ≤ apy := hY.le.trans (by exact_mod_cast hapy)
  have hstep : 1 / (yearSteps : ℝ) ≤ 1 - n / yearSteps := by
    rw [le_sub_iff_add_le, ← add_div, div_le_one hY, add_comm]
    exact_mod_cast hn
  have hone : 1 ≤ 1 / (yearSteps : ℝ) * apy := by
    rw [one_div_mul_eq_div, one_le_div hY]
    exact_mod_cast hapy
  have hmul : 1 / (yearSteps : ℝ) * apy ≤ (1 - n / yearSteps) * apy := by gcongr
  linarith

/-- Where the sum saturates the APY is so large that the compounding stays a whole bps under the share. -/
theorem year_le_of_saturated (hapy : 0 ≤ apy) (hρ : 0 ≤ ρ)
    (hyear : (1 + ρ) ^ yearSteps ≤ 1 + (apy : ℝ) / 10000) (hn : n < yearSteps) (hfits : Fits (apy * n))
    (hsum : maxVal < apy * n + (secondsInYear - 1)) : (1 + ρ) ^ n ≤ 1 + (accruedBps apy n : ℝ) / 10000 := by
  have hY : (0 : ℝ) < yearSteps := Nat.cast_pos.mpr yearSteps_pos
  obtain ⟨hlarge, hapyLarge⟩ := large_of_saturated hapy hn.le hsum
  have hshare : (apy : ℝ) * n / yearSteps ≤ accruedBps apy n + 1 := by
    have hlt := (lt_accruedBps_of_saturated hfits hsum.le).1
    rw [← yearSteps_cast] at hlt
    rw [div_le_iff₀ hY]
    exact_mod_cast hlt.le
  have hearned : (9 + 1 / 10000 : ℝ) ≤ 1 + n / yearSteps * (apy / 10000) := by
    have hbps : (90000 : ℝ) ≤ apy * n / yearSteps := by
      rw [le_div_iff₀ hY]
      exact_mod_cast hlarge
    rw [linear_share]
    linarith
  have hpart : (n : ℝ) / yearSteps ≤ 1 := by
    rw [div_le_one hY]
    exact_mod_cast hn.le
  have hgap := Compounding.one_add_rpow_add_le (by positivity) (by norm_num) (by norm_num) hpart
    (bps_le_remaining hn hapyLarge) hearned
  have hpow := Compounding.pow_le_rpow_of_period (n := n) hρ yearSteps_pos hyear
  rw [linear_share] at hgap
  linarith

theorem year_le_accruedBps (hapy : 0 ≤ apy) (hρ : 0 ≤ ρ) (hyear : (1 + ρ) ^ yearSteps ≤ 1 + (apy : ℝ) / 10000)
    (hn : n ≤ yearSteps) (hfits : Fits (apy * n)) : (1 + ρ) ^ n ≤ 1 + (accruedBps apy n : ℝ) / 10000 := by
  rcases le_or_gt (apy * n + (secondsInYear - 1)) maxVal with hle | hgt
  · have hnonneg : 0 ≤ apy * n := mul_nonneg hapy (Int.natCast_nonneg n)
    exact year_le_of_exact hapy hρ hyear hn hfits ⟨le_trans (by decide) (add_nonneg hnonneg (by decide)), hle⟩
  rcases hn.lt_or_eq with hlt | rfl
  · exact year_le_of_saturated hapy hρ hyear hlt hfits hgt
  · -- a whole year: the figure of the saturated sum is still at least the APY
    have hle : apy ≤ accruedBps apy yearSteps := by
      refine (lt_accruedBps_of_saturated hfits hgt.le).2 apy ?_
      rw [← yearSteps_cast]
      exact hfits.2
    have hcast : (apy : ℝ) ≤ accruedBps apy yearSteps := by exact_mod_cast hle
    linarith

end Year

/-! ## What is grown by the figure -/

/-- Growing by `bps` covers `n` seconds of interest: an amount that compounds every second, at a rate that
makes at most `apyBps` in a year, stays within `bps` of it rounded up, and within what `grown` returns for it
short of saturation. -/
def CoversCompounding (apyBps bps : ℤ) (n : ℕ) : Prop :=
  ∀ ρ : ℝ, 0 ≤ ρ → (1 + ρ) ^ yearSteps ≤ 1 + (apyBps : ℝ) / 10000 → ∀ amount : ℤ, 0 ≤ amount →
    (amount : ℝ) * (1 + ρ) ^ n ≤ amount + ⌈(amount : ℝ) * bps / 10000⌉ ∧
      ∀ g, Fits (amount * bps + (bpsFactor - 1)) → grown amount bps = .ok g → (amount : ℝ) * (1 + ρ) ^ n ≤ g

theorem accruedBps_nonneg (hapy : 0 ≤ apy) : 0 ≤ accruedBps apy n := by
  have hprod : 0 ≤ saturatingMul apy n := clamp_nonneg (mul_nonneg hapy (Int.natCast_nonneg n))
  exact Int.tdiv_nonneg (clamp_nonneg (add_nonneg hprod (by decide))) (by decide)

theorem mul_le_grown {amount bps g : ℤ} (hnonneg : 0 ≤ amount * bps)
    (hfits : Fits (amount * bps + (bpsFactor - 1))) (h : grown amount bps = .ok g) :
    amount * bps ≤ (g - amount) * bpsFactor := by
  simp only [grown, mOu_eq_ok, checkedAdd_eq_some] at h
  obtain ⟨-, rfl⟩ := h
  have hprod : Fits (amount * bps) := hfits.of_nonneg_of_le hnonneg (by unfold bpsFactor; omega)
  rw [add_sub_cancel_left, fixedMulCeil_eq, clamp_of_fits hprod, clamp_of_fits hfits]
  exact le_ceil_tdiv_mul hnonneg bpsFactor_pos

theorem coversCompounding (hapy : 0 ≤ apy) (hn : n ≤ yearSteps) (hfits : Fits (apy * n)) :
    CoversCompounding apy (accruedBps apy n) n := by
  intro ρ hρ hyear amount hamount
  have hcast : (0 : ℝ) ≤ amount := by exact_mod_cast hamount
  have hgrowth : (amount : ℝ) * (1 + ρ) ^ n ≤ amount + amount * accruedBps apy n / 10000 := by
    calc (amount : ℝ) * (1 + ρ) ^ n ≤ amount * (1 + accruedBps apy n / 10000) :=
          mul_le_mul_of_nonneg_left (year_le_accruedBps hapy hρ hyear hn hfits) hcast
      _ = amount + amount * accruedBps apy n / 10000 := by ring
  refine ⟨?_, fun g hsum hg => ?_⟩
  · have hceil := Int.le_ceil ((amount : ℝ) * accruedBps apy n / 10000)
    linarith
  · have hgrown := mul_le_grown (mul_nonneg hamount (accruedBps_nonneg hapy)) hsum hg
    have hreal : (amount : ℝ) * accruedBps apy n ≤ (g - amount) * 10000 := by
      unfold bpsFactor at hgrown
      exact_mod_cast hgrown
    linarith

/-- **The accrual estimate dominates compounding within a year.** Of both totals, unless the product of an APY
and the seconds saturates; and it never falls as time passes. -/
theorem PoolData.accrualSinceUpdateBps_dominates (pool : PoolData) (now : ℕ)
    (hyear : now - pool.lastAccrualTimestamp ≤ yearSteps) :
    (0 ≤ pool.borrowApyBps → Fits (pool.borrowApyBps * (now - pool.lastAccrualTimestamp : ℕ)) →
        CoversCompounding pool.borrowApyBps (pool.accrualSinceUpdateBps now).1
          (now - pool.lastAccrualTimestamp)) ∧
      (0 ≤ pool.supplyApyBps → Fits (pool.supplyApyBps * (now - pool.lastAccrualTimestamp : ℕ)) →
        CoversCompounding pool.supplyApyBps (pool.accrualSinceUpdateBps now).2
          (now - pool.lastAccrualTimestamp)) ∧
      (0 ≤ pool.borrowApyBps → Monotone fun t => (pool.accrualSinceUpdateBps t).1) ∧
      (0 ≤ pool.supplyApyBps → Monotone fun t => (pool.accrualSinceUpdateBps t).2) := by
  simp only [accrualSinceUpdateBps_eq]
  refine ⟨fun hapy hfits => coversCompounding hapy hyear hfits,
    fun hapy hfits => coversCompounding hapy hyear hfits, fun hapy t t' h => ?_, fun hapy t t' h => ?_⟩
  · exact accruedBps_mono hapy (Nat.sub_le_sub_right h _)
  · exact accruedBps_mono hapy (Nat.sub_le_sub_right h _)

/-- Half the APY of 100%, spread over the seconds of a year, compounds to less than doubling. -/
theorem half_rate_le : (1 + 1 / (2 * yearSteps : ℝ)) ^ yearSteps ≤ 1 + ((10000 : ℤ) : ℝ) / 10000 := by
  have hY : (0 : ℝ) < yearSteps := Nat.cast_pos.mpr yearSteps_pos
  have hstep : 1 + 1 / (2 * yearSteps : ℝ) ≤ Real.exp (1 / (2 * yearSteps)) := by
    rw [add_comm]
    exact Real.add_one_le_exp _
  have hhalf : (yearSteps : ℝ) * (1 / (2 * yearSteps)) = 1 / 2 := by field_simp
  have hsq : Real.exp (1 / 2) * Real.exp (1 / 2) = Real.exp 1 := by rw [← Real.exp_add]; norm_num
  have hexp := Real.exp_one_lt_d9
  calc (1 + 1 / (2 * yearSteps : ℝ)) ^ yearSteps ≤ Real.exp (1 / (2 * yearSteps)) ^ yearSteps :=
        pow_le_pow_left₀ (by positivity) hstep _
    _ = Real.exp (1 / 2) := by rw [← Real.exp_nat_mul, hhalf]
    _ ≤ 1 + ((10000 : ℤ) : ℝ) / 10000 := by push_cast; nlinarith [Real.exp_pos (1 / 2)]

/-- A pool whose borrows cost 100% a year. -/
def doublingPool : PoolData := { dustPool "USDC" usd with borrowApyBps := 10000 }

/-- A day at that rate against the figure for 100%. -/
theorem accrualSinceUpdateBps_dominates_day :
    (doublingPool.accrualSinceUpdateBps 86400).1 = 28 ∧ grown 1000000 28 = .ok 1002800 ∧
      ((1000000 : ℤ) : ℝ) * (1 + 1 / (2 * yearSteps : ℝ)) ^ 86400 ≤ (1002800 : ℤ) := by
  refine ⟨by decide, by decide, ?_⟩
  have hcovers := (PoolData.accrualSinceUpdateBps_dominates doublingPool 86400 (by decide)).1
    (by decide) (by decide)
  exact (hcovers _ (by positivity) half_rate_le 1000000 (by decide)).2 1002800 (by decide) (by decide)

end AlulaKeeper
