import Mathlib
import AlulaKeeper.Keeper.Balancer

/-!
# The price-impact gate

`compute_swap_price_impact` corrects for the tokens' decimals in the numerator or in the denominator,
whichever needs it. Either way it measures one number, the price of a whole token.

* `wholePrice`: that price on the oracle's scale, rounded down.
* `computeSwapPriceImpact_eq`: what the gate returns, without the two branches.
* `computeSwapPriceImpact_bounds_loss`: the price, its invariance and the bound on the loss.
* `AdmittedProbe.bounds_loss`: the same bound for a probe the balancer admits.
-/

namespace AlulaKeeper

open I128

/-- `amountOut` whole tokens a whole token of `amountIn`, times `10 ^ oracleDecimals`, rounded down. -/
def wholePrice (amountIn amountOut : ℤ) (inDecimals outDecimals oracleDecimals : ℕ) : ℤ :=
  amountOut * pow10 (inDecimals + oracleDecimals) / (amountIn * pow10 outDecimals)

section Price

variable {oraclePrice amountIn amountOut : ℤ} {inDecimals outDecimals oracleDecimals : ℕ}
  {impact : SwapPriceImpact}

theorem corrected_numerator (h : outDecimals ≤ inDecimals) :
    amountOut * pow10 oracleDecimals * pow10 (Nat.dist inDecimals outDecimals) / amountIn =
      wholePrice amountIn amountOut inDecimals outDecimals oracleDecimals := by
  have hsplit : pow10 (inDecimals + oracleDecimals) =
      pow10 (Nat.dist inDecimals outDecimals) * pow10 outDecimals * pow10 oracleDecimals := by
    rw [← pow10_add, ← pow10_add, Nat.dist_eq_sub_of_le_right h, Nat.sub_add_cancel h]
  rw [wholePrice, hsplit, ← Int.mul_ediv_mul_of_pos_left _ _ (pow10_pos outDecimals)]
  congr 1
  ring

theorem corrected_denominator (h : inDecimals < outDecimals) :
    amountOut * pow10 oracleDecimals / (amountIn * pow10 (Nat.dist inDecimals outDecimals)) =
      wholePrice amountIn amountOut inDecimals outDecimals oracleDecimals := by
  have hsplit : pow10 outDecimals = pow10 (Nat.dist inDecimals outDecimals) * pow10 inDecimals := by
    rw [← pow10_add, Nat.dist_eq_sub_of_le h.le, Nat.sub_add_cancel h.le]
  rw [wholePrice, hsplit, pow10_add, ← Int.mul_ediv_mul_of_pos_left _ _ (pow10_pos inDecimals)]
  congr 1 <;> ring

theorem checkedDiv_eq_ediv {n d e : ℤ} (hn : 0 ≤ n) (hfits : Fits n) (hd : 0 < d)
    (h : checkedDiv n d = some e) : e = n / d := by
  rw [checkedDiv_eq_some_of_pos hfits hd, Int.tdiv_eq_ediv_of_nonneg hn] at h
  exact h.symm

/-- **What the gate returns.** The price of a whole token and its distance from the oracle's in bps of it. -/
theorem computeSwapPriceImpact_eq (hout : 0 ≤ amountOut)
    (h : computeSwapPriceImpact oraclePrice amountIn amountOut inDecimals outDecimals oracleDecimals =
      some impact) :
    0 < amountIn ∧ 0 < oraclePrice ∧
      impact.executionPriceScaled = wholePrice amountIn amountOut inDecimals outDecimals oracleDecimals ∧
      impact.bps = ((oraclePrice - impact.executionPriceScaled) * bpsFactor).tdiv oraclePrice := by
  unfold computeSwapPriceImpact at h
  split_ifs at h with hguard hdec
  all_goals
    simp only [Option.bind_eq_bind, Option.bind_eq_some_iff, checkedPow10_eq_some, checkedMul_eq_some,
      checkedSub_eq_some, Option.some.injEq, exists_eq_left', Option.pure_def] at h
    have hin : 0 < amountIn := not_le.mp fun hle => hguard (.inl hle)
    have horacle : 0 < oraclePrice := not_le.mp fun hle => hguard (.inr hle)
    have hscaled : 0 ≤ amountOut * pow10 oracleDecimals := mul_nonneg hout (pow10_pos _).le
    have hcorrection := pow10_pos (Nat.dist inDecimals outDecimals)
  · obtain ⟨_, ⟨-, rfl⟩, _, ⟨-, rfl⟩, _, ⟨-, rfl⟩, _, ⟨hfits, rfl⟩, price, hprice, _, ⟨-, rfl⟩, _,
      ⟨hdiff, rfl⟩, bps, hbps, rfl⟩ := h
    refine ⟨hin, horacle, ?_, ((checkedDiv_eq_some_of_pos hdiff horacle).mp hbps).symm⟩
    rw [← corrected_numerator hdec]
    exact checkedDiv_eq_ediv (mul_nonneg hscaled hcorrection.le) hfits hin hprice
  · obtain ⟨_, ⟨-, rfl⟩, _, ⟨-, rfl⟩, _, ⟨hfits, rfl⟩, _, ⟨-, rfl⟩, price, hprice, _, ⟨-, rfl⟩, _,
      ⟨hdiff, rfl⟩, bps, hbps, rfl⟩ := h
    refine ⟨hin, horacle, ?_, ((checkedDiv_eq_some_of_pos hdiff horacle).mp hbps).symm⟩
    rw [← corrected_denominator (not_le.mp hdec)]
    exact checkedDiv_eq_ediv hscaled hfits (mul_pos hin hcorrection) hprice

/-! ## What the price is -/

theorem pow10_cast (n : ℕ) : ((pow10 n : ℤ) : ℚ) = 10 ^ n := by
  unfold pow10
  push_cast
  rfl

theorem wholePrice_eq_floor (hin : 0 < amountIn) :
    wholePrice amountIn amountOut inDecimals outDecimals oracleDecimals =
      ⌊((amountOut : ℚ) / 10 ^ outDecimals) / ((amountIn : ℚ) / 10 ^ inDecimals) * 10 ^ oracleDecimals⌋ := by
  have hdenominator : 0 < amountIn * pow10 outDecimals := mul_pos hin (pow10_pos _)
  obtain ⟨d, hd⟩ := Int.eq_ofNat_of_zero_le hdenominator.le
  have hcast : (d : ℚ) = amountIn * 10 ^ outDecimals := by
    have := congrArg (fun z : ℤ => (z : ℚ)) hd
    push_cast [pow10_cast] at this
    exact this.symm
  have hin' : (amountIn : ℚ) ≠ 0 := by exact_mod_cast hin.ne'
  rw [wholePrice, hd, ← Rat.floor_intCast_div_natCast, hcast]
  congr 1
  push_cast [pow10_cast]
  rw [pow_add]
  field_simp

/-- The price does not depend on the units the amounts are counted in. -/
theorem wholePrice_scale (a b : ℕ) :
    wholePrice (amountIn * pow10 a) (amountOut * pow10 b) (inDecimals + a) (outDecimals + b) oracleDecimals =
      wholePrice amountIn amountOut inDecimals outDecimals oracleDecimals := by
  unfold wholePrice
  rw [← Int.mul_ediv_mul_of_pos_left (amountOut * pow10 (inDecimals + oracleDecimals)) _ (pow10_pos (a + b))]
  simp only [pow10_add]
  congr 1 <;> ring

/-! ## What a price within the cap loses -/

/-- An impact within `M` bps leaves more than `10000 - M - 1` bps of the oracle's price. -/
theorem price_of_bps_le {price M : ℤ} (horacle : 0 < oraclePrice) (hM : 0 ≤ M)
    (h : ((oraclePrice - price) * bpsFactor).tdiv oraclePrice ≤ M) :
    oraclePrice * (10000 - M - 1) < price * 10000 := by
  have hb : bpsFactor = 10000 := rfl
  rw [hb] at h
  rcases le_or_gt price oraclePrice with hle | hgt
  · -- worse than the oracle: the truncation is a floor
    have hnonneg : 0 ≤ (oraclePrice - price) * 10000 := by omega
    rw [Int.tdiv_eq_ediv_of_nonneg hnonneg, ← Int.lt_add_one_iff, Int.ediv_lt_iff_lt_mul horacle] at h
    linarith
  · have hcap : oraclePrice * (10000 - M - 1) ≤ oraclePrice * 10000 :=
      mul_le_mul_of_nonneg_left (by omega) horacle.le
    linarith

theorem loss_of_bps_le {M : ℤ} (hout : 0 ≤ amountOut)
    (h : computeSwapPriceImpact oraclePrice amountIn amountOut inDecimals outDecimals oracleDecimals =
      some impact) (hM : 0 ≤ M) (hle : impact.bps ≤ M) :
    amountIn * pow10 outDecimals * oraclePrice * (10000 - M - 1) <
      amountOut * pow10 (inDecimals + oracleDecimals) * 10000 := by
  obtain ⟨hin, horacle, hprice, hbps⟩ := computeSwapPriceImpact_eq hout h
  rw [hbps] at hle
  have hkept := price_of_bps_le horacle hM hle
  have hdenominator : 0 < amountIn * pow10 outDecimals := mul_pos hin (pow10_pos _)
  have hfloor : impact.executionPriceScaled * (amountIn * pow10 outDecimals) ≤
      amountOut * pow10 (inDecimals + oracleDecimals) := by
    rw [hprice]
    exact Int.ediv_mul_le _ hdenominator.ne'
  calc amountIn * pow10 outDecimals * oraclePrice * (10000 - M - 1)
      = oraclePrice * (10000 - M - 1) * (amountIn * pow10 outDecimals) := by ring
    _ < impact.executionPriceScaled * 10000 * (amountIn * pow10 outDecimals) :=
        mul_lt_mul_of_pos_right hkept hdenominator
    _ = impact.executionPriceScaled * (amountIn * pow10 outDecimals) * 10000 := by ring
    _ ≤ amountOut * pow10 (inDecimals + oracleDecimals) * 10000 := by linarith

/-- **The gate measures whole-token prices and bounds the loss.** The execution price is the quotient of
whole tokens on the oracle's scale, rounded down; recounting either amount in other units changes nothing; and
an impact within `M` bps loses less than `M + 1` bps of the oracle's value. -/
theorem computeSwapPriceImpact_bounds_loss (hout : 0 ≤ amountOut)
    (h : computeSwapPriceImpact oraclePrice amountIn amountOut inDecimals outDecimals oracleDecimals =
      some impact) :
    impact.executionPriceScaled =
        ⌊((amountOut : ℚ) / 10 ^ outDecimals) / ((amountIn : ℚ) / 10 ^ inDecimals) * 10 ^ oracleDecimals⌋ ∧
      (∀ (a b : ℕ) (impact' : SwapPriceImpact),
        computeSwapPriceImpact oraclePrice (amountIn * pow10 a) (amountOut * pow10 b) (inDecimals + a)
          (outDecimals + b) oracleDecimals = some impact' → impact' = impact) ∧
      ∀ M : ℤ, 0 ≤ M → M ≤ 10000 → impact.bps ≤ M →
        amountIn * pow10 outDecimals * oraclePrice * (10000 - M - 1) <
          amountOut * pow10 (inDecimals + oracleDecimals) * 10000 := by
  obtain ⟨hin, -, hprice, hbps⟩ := computeSwapPriceImpact_eq hout h
  refine ⟨hprice.trans (wholePrice_eq_floor hin), fun a b impact' h' => ?_,
    fun M hM _ hle => loss_of_bps_le hout h hM hle⟩
  obtain ⟨-, -, hprice', hbps'⟩ := computeSwapPriceImpact_eq (mul_nonneg hout (pow10_pos b).le) h'
  rw [wholePrice_scale, ← hprice] at hprice'
  rw [hprice', ← hbps] at hbps'
  cases impact
  cases impact'
  simp_all

/-- A hundred tokens of seven decimals for 180 of eight where the oracle says 200: 1000 bps, in whole tokens
as in the units of the chain. -/
theorem computeSwapPriceImpact_bounds_loss_tenth :
    computeSwapPriceImpact (2 * pow10 14) (100 * pow10 7) (180 * pow10 8) 7 8 14 =
        some ⟨1000, 18 * pow10 13⟩ ∧
      computeSwapPriceImpact (2 * pow10 14) (100 * pow10 7 * pow10 2) (180 * pow10 8 * pow10 1) (7 + 2) (8 + 1)
        14 = some ⟨1000, 18 * pow10 13⟩ ∧
      100 * pow10 7 * pow10 8 * (2 * pow10 14) * (10000 - 1000 - 1) <
        180 * pow10 8 * pow10 (7 + 14) * 10000 :=
  have h : computeSwapPriceImpact (2 * pow10 14) (100 * pow10 7) (180 * pow10 8) 7 8 14 =
    some ⟨1000, 18 * pow10 13⟩ := by decide
  ⟨h, by decide,
    (computeSwapPriceImpact_bounds_loss (by decide) h).2.2 1000 (by decide) (by decide) (by decide)⟩

end Price

/-- What a probe that was admitted pays out is over the kept share of the oracle's value. -/
theorem AdmittedProbe.bounds_loss {config : BalancerConfig} {reader : LedgerReader}
    {assetIndex : Address → Option AssetInfo} {provider assetIn assetOut : Address} {oraclePrice balance : ℤ}
    {oracleDecimals : ℕ} {route : Probe} (hcap : 0 ≤ config.maxPriceImpactBps) (hout : 0 ≤ route.amountOut)
    (h : AdmittedProbe config reader assetIndex provider assetIn assetOut oraclePrice oracleDecimals balance
      route) :
    ∃ inInfo outInfo, assetIndex assetIn = some inInfo ∧ assetIndex assetOut = some outInfo ∧
      route.amountIn * pow10 outInfo.decimals * oraclePrice * (10000 - config.maxPriceImpactBps - 1) <
        route.amountOut * pow10 (inInfo.decimals + oracleDecimals) * 10000 := by
  obtain ⟨inInfo, outInfo, impact, hin, hout', -, -, himpact, hle, -⟩ := h
  exact ⟨inInfo, outInfo, hin, hout', loss_of_bps_le hout himpact hcap hle⟩

end AlulaKeeper
