import Mathlib

/-!
# Compounding inside a period

A rate that compounds to at most `1 + x` over `N` steps has compounded, after `n ≤ N` of them, to at most its
linear share `1 + (n / N) * x` (Bernoulli's inequality for an exponent under one).

* `pow_le_rpow_of_period`: what the period bounds, as a real power.
* `pow_le_linear`: the linear share.
* `one_add_rpow_add_le`: away from the ends of a period with a large `x` the share has room to spare.
-/

namespace Compounding

variable {ρ x : ℝ} {n N : ℕ}

theorem pow_le_rpow_of_period (hρ : 0 ≤ ρ) (hN : 0 < N) (h : (1 + ρ) ^ N ≤ 1 + x) :
    (1 + ρ) ^ n ≤ (1 + x) ^ ((n : ℝ) / N) := by
  have hbase : (0 : ℝ) ≤ 1 + ρ := by linarith
  have hpos : (0 : ℝ) < N := Nat.cast_pos.mpr hN
  calc (1 + ρ) ^ n = ((1 + ρ) ^ N) ^ ((n : ℝ) / N) := by
        rw [← Real.rpow_natCast (1 + ρ) N, ← Real.rpow_mul hbase, mul_div_cancel₀ _ hpos.ne',
          Real.rpow_natCast]
    _ ≤ (1 + x) ^ ((n : ℝ) / N) := Real.rpow_le_rpow (pow_nonneg hbase N) h (by positivity)

/-- **Linear interest dominates compounding inside the period.** -/
theorem pow_le_linear (hρ : 0 ≤ ρ) (hx : 0 ≤ x) (hN : 0 < N) (hn : n ≤ N) (h : (1 + ρ) ^ N ≤ 1 + x) :
    (1 + ρ) ^ n ≤ 1 + (n : ℝ) / N * x := by
  have hshare : (n : ℝ) / N ≤ 1 := by
    rw [div_le_one (Nat.cast_pos.mpr hN)]
    exact_mod_cast hn
  calc (1 + ρ) ^ n ≤ (1 + x) ^ ((n : ℝ) / N) := pow_le_rpow_of_period hρ hN h
    _ ≤ 1 + (n : ℝ) / N * x := rpow_one_add_le_one_add_mul_self (by linarith) (by positivity) hshare

theorem exp_two_le : Real.exp 2 ≤ 9 := by
  have h1 := Real.exp_one_lt_d9
  have h0 := Real.exp_pos 1
  calc Real.exp 2 = Real.exp 1 * Real.exp 1 := by rw [← Real.exp_add]; norm_num
    _ ≤ 3 * 3 := by gcongr <;> linarith
    _ = 9 := by norm_num

/-- The linear share can give up `c` when what is left of the period still earns as much. -/
theorem one_add_rpow_add_le {p c : ℝ} (hx : 0 ≤ x) (hc : 0 ≤ c) (hc1 : c ≤ 1) (hp1 : p ≤ 1)
    (hleft : c ≤ (1 - p) * x) (hearned : 9 + c ≤ 1 + p * x) : (1 + x) ^ p + c ≤ 1 + p * x := by
  have hbase : (0 : ℝ) < 1 + x := by linarith
  have hlog : 0 ≤ Real.log (1 + x) := Real.log_nonneg (by linarith)
  rcases le_or_gt (p * Real.log (1 + x)) 2 with hsmall | hlarge
  · have hpow : (1 + x) ^ p ≤ 9 := by
      rw [Real.rpow_def_of_pos hbase, mul_comm]
      exact (Real.exp_le_exp.mpr hsmall).trans exp_two_le
    linarith
  -- `(1 + x) ^ p = (1 + x) / (1 + x) ^ (1 - p)`, and the divisor is at least `1 + (1 - p) * log (1 + x)`
  have hdivisor : 1 + (1 - p) * Real.log (1 + x) ≤ (1 + x) ^ (1 - p) := by
    rw [Real.rpow_def_of_pos hbase, add_comm, mul_comm (Real.log _)]
    exact Real.add_one_le_exp _
  have hprod : (1 + x) ^ p * (1 + x) ^ (1 - p) = 1 + x := by
    rw [← Real.rpow_add hbase, add_sub_cancel, Real.rpow_one]
  have hpow : 0 ≤ (1 + x) ^ p := Real.rpow_nonneg hbase.le p
  have hle : (1 + x) ^ p * (1 + (1 - p) * Real.log (1 + x)) ≤ 1 + x :=
    (mul_le_mul_of_nonneg_left hdivisor hpow).trans hprod.le
  have hq : 0 ≤ (1 - p) * Real.log (1 + x) := mul_nonneg (by linarith) hlog
  have hgap : 1 + x ≤ (1 + p * x - c) * (1 + (1 - p) * Real.log (1 + x)) := by
    have hgain : (1 - p) * x ≤ (1 - p) * x * (p * Real.log (1 + x) - 1) :=
      le_mul_of_one_le_right (mul_nonneg (by linarith) hx) (by linarith)
    have hloss : c * ((1 - p) * Real.log (1 + x)) ≤ (1 - p) * Real.log (1 + x) :=
      mul_le_of_le_one_left hq hc1
    linarith
  have := le_of_mul_le_mul_right (hle.trans hgap) (by linarith)
  linarith

end Compounding
