import Mathlib
import AlulaKeeper.Lib.Downward
import AlulaKeeper.Lending.Pair

/-!
# What a repay buys

Specifications of the scalings inside `LiquidationPair.buys` and of the sweep market's seizure, and
their behaviour on smaller repays.

* `amountFloor_eq_ok`, `addIncentive_eq_ok`, `strictlyUnder_eq_ok`, `healthFactorCap_eq_ok`,
  `ltvImprovingValue_eq_ok`: what each scaling checks and computes.
* `LiquidationPair.downward_buys`: a pair that can price a repay can price every smaller one, and the
  smaller one buys no more.
* `LiquidationPair.repayBuying_some`, `LiquidationPair.repayBuying_none`, `LiquidationPair.clearing_spec`:
  what the search for a clearing repay finds and the probe computes.
-/

namespace AlulaKeeper

open I128

variable {pool : PoolData} {v r : ℤ}

/-! ## The scalings -/

theorem amountFloor_eq_ok (hp : 0 < pool.oracleAssetPrice) :
    amountFloor v pool = .ok r ↔ Fits (pow10 pool.tokenDecimals) ∧
      Fits (v * pow10 pool.tokenDecimals) ∧
        r = (v * pow10 pool.tokenDecimals).tdiv pool.oracleAssetPrice := by
  simp only [amountFloor, tokenFactor, bind_eq_ok, mOu_eq_ok, checkedPow10_eq_some,
    checkedMul_eq_some]
  constructor
  · rintro ⟨_, ⟨ht, rfl⟩, _, ⟨hx, rfl⟩, h⟩
    rw [checkedDiv_eq_some_of_pos hx hp] at h
    exact ⟨ht, hx, h.symm⟩
  · rintro ⟨ht, hx, rfl⟩
    exact ⟨_, ⟨ht, rfl⟩, _, ⟨hx, rfl⟩, (checkedDiv_eq_some_of_pos hx hp).mpr rfl⟩

theorem addIncentive_eq_ok {incentive : ℤ} :
    addIncentive v incentive = .ok r ↔ Fits (bpsFactor + incentive) ∧
      Fits (v * (bpsFactor + incentive)) ∧ r = (v * (bpsFactor + incentive)).tdiv bpsFactor := by
  simp only [addIncentive, bind_eq_ok, mOu_eq_ok, checkedAdd_eq_some, checkedMul_eq_some]
  constructor
  · rintro ⟨_, ⟨hf, rfl⟩, _, ⟨hx, rfl⟩, h⟩
    rw [checkedDiv_eq_some_of_pos hx bpsFactor_pos] at h
    exact ⟨hf, hx, h.symm⟩
  · rintro ⟨hf, hx, rfl⟩
    exact ⟨_, ⟨hf, rfl⟩, _, ⟨hx, rfl⟩, (checkedDiv_eq_some_of_pos hx bpsFactor_pos).mpr rfl⟩

theorem mulDiv_eq_ok {a b d : ℤ} (hd : 0 < d) :
    (mOu (checkedMul a b) >>= fun p => mOu (checkedDiv p d)) = .ok r ↔
      Fits (a * b) ∧ r = (a * b).tdiv d := by
  simp only [bind_eq_ok, mOu_eq_ok, checkedMul_eq_some]
  constructor
  · rintro ⟨_, ⟨hx, rfl⟩, h⟩
    rw [checkedDiv_eq_some_of_pos hx hd] at h
    exact ⟨hx, h.symm⟩
  · rintro ⟨hx, rfl⟩
    exact ⟨_, ⟨hx, rfl⟩, (checkedDiv_eq_some_of_pos hx hd).mpr rfl⟩

theorem strictlyUnder_eq_ok :
    strictlyUnder v = .ok r ↔ Fits (v * 999) ∧ r = (v * 999).tdiv 1000 :=
  mulDiv_eq_ok (by norm_num)

theorem scalar9_pos : 0 < scalar9 := by decide

/-- The health-factor cap, exactly. -/
def healthFactorValue (liquidatedValue debtValue collateralValue : ℤ) : ℤ :=
  (((liquidatedValue * (collateralValue * scalar9).tdiv debtValue).tdiv scalar9) * 999).tdiv 1000

/-- The direct product's cap, exactly. -/
def directProductValue (repaidValue debtValue collateralValue : ℤ) : ℤ :=
  ((repaidValue * collateralValue).tdiv debtValue * 999).tdiv 1000

theorem healthFactorCap_eq {D C : ℤ} (hD : 0 < D) (h : healthFactorCap v D C = .ok r) :
    r = healthFactorValue v D C := by
  simp only [healthFactorCap, bind_eq_ok, mOu_eq_ok, checkedMul_eq_some] at h
  obtain ⟨_, ⟨hs, rfl⟩, hf, hhf, _, ⟨hp, rfl⟩, m, hm, hr⟩ := h
  rw [checkedDiv_eq_some_of_pos hs hD] at hhf
  rw [checkedDiv_eq_some_of_pos hp scalar9_pos] at hm
  subst hhf hm
  exact (strictlyUnder_eq_ok.mp hr).2

namespace LiquidationPair

variable {pair : LiquidationPair}

theorem ltvImprovingValue_eq_ok (hD : 0 < pair.obligationDebtValue) :
    pair.ltvImprovingValue v = .ok r ↔ Fits (v * pair.obligationCollateralValue) ∧
      strictlyUnder ((v * pair.obligationCollateralValue).tdiv pair.obligationDebtValue) = .ok r := by
  simp only [ltvImprovingValue, ← bind_assoc]
  simp only [bind_eq_ok, mulDiv_eq_ok hD]
  constructor
  · rintro ⟨_, ⟨hx, rfl⟩, h⟩
    exact ⟨hx, h⟩
  · rintro ⟨hx, h⟩
    exact ⟨_, ⟨hx, rfl⟩, h⟩

/-! ## Smaller repays -/

theorem downward_valueFloor (hp : 0 ≤ pool.oracleAssetPrice) : Downward (valueFloor · pool) :=
  downward_mulDiv hp (pow10_pos _) fun _ _ => valueFloor_eq_ok

theorem downward_valueCeil (hp : 0 ≤ pool.oracleAssetPrice) : Downward (valueCeil · pool) :=
  downward_mulDivCeil hp (pow10_pos _) fun _ _ => valueCeil_eq_ok

theorem downward_amountFloor (hp : 0 < pool.oracleAssetPrice) : Downward (amountFloor · pool) :=
  downward_mulDiv (pow10_pos _).le hp fun _ _ => amountFloor_eq_ok hp

theorem downward_addIncentive {incentive : ℤ} (h : 0 ≤ bpsFactor + incentive) :
    Downward (addIncentive · incentive) :=
  downward_mulDiv h bpsFactor_pos fun _ _ => addIncentive_eq_ok

theorem downward_strictlyUnder : Downward strictlyUnder :=
  downward_mulDiv (P := True) (b := 999) (d := 1000) (by norm_num) (by norm_num) fun _ _ => by
    rw [true_and]; exact strictlyUnder_eq_ok

theorem downward_ltvImprovingValue (hD : 0 < pair.obligationDebtValue)
    (hC : 0 < pair.obligationCollateralValue) : Downward pair.ltvImprovingValue := by
  have hprod : Downward fun v : ℤ => mOu (checkedMul v pair.obligationCollateralValue) >>= fun p =>
      mOu (checkedDiv p pair.obligationDebtValue) :=
    downward_mulDiv (P := True) hC.le hD fun _ _ => by rw [true_and]; exact mulDiv_eq_ok hD
  have h := hprod.bind downward_strictlyUnder
  simp only [bind_assoc] at h
  exact h

theorem buys_lifted (repaid : ℤ) :
    pair.buys repaid true = valueFloor repaid pair.borrowPool >>= fun v =>
      amountFloor v pair.collateralPool >>= fun a => addIncentive a pair.incentiveBps := by
  simp [buys]

/-- **Smaller repays buy no more**, and are priced wherever a larger one is. -/
theorem downward_buys (hb : 0 ≤ pair.borrowPool.oracleAssetPrice)
    (hc : 0 < pair.collateralPool.oracleAssetPrice) (hf : 0 ≤ bpsFactor + pair.incentiveBps)
    (lifted : Bool) : Downward (pair.buys · lifted) := by
  have hinc := (downward_amountFloor hc).bind (downward_addIncentive hf)
  cases lifted with
  | true =>
    have h := (downward_valueFloor hb).bind hinc
    simp only [buys_lifted]
    exact h
  | false =>
    simp only [buys, Bool.false_eq_true, if_false]
    by_cases h0 : pair.obligationDebtValue ≤ 0 ∨ pair.obligationCollateralValue ≤ 0
    · have h := (downward_valueFloor hb).bind hinc.const
      simp only [if_pos h0, bind_assoc] at h ⊢
      exact h
    · have hltv : Downward pair.ltvImprovingValue :=
        downward_ltvImprovingValue (by omega) (by omega)
      have h := (downward_valueFloor hb).bind (hinc.min (hltv.bind (downward_amountFloor hc)))
      simp only [if_neg h0, bind_assoc] at h ⊢
      exact h

/-! ## Growth -/

theorem grown_eq_ok {a bps g : ℤ} :
    grown a bps = .ok g ↔ Fits (a + fixedMulCeil a bps) ∧ g = a + fixedMulCeil a bps := by
  rw [grown, mOu_eq_ok, checkedAdd_eq_some]
  exact and_congr_right fun _ => eq_comm

theorem le_grown {a bps g : ℤ} (ha : 0 ≤ a) (hb : 0 ≤ bps) (h : grown a bps = .ok g) : a ≤ g := by
  obtain ⟨-, rfl⟩ := grown_eq_ok.mp h
  have := fixedMulCeil_nonneg (mul_nonneg ha hb)
  omega

/-! ## The no-dust quote -/

/-- The quote's early exit: nothing is offered, owed, held or priced. -/
def QuotesNothing (pair : LiquidationPair) (repay positionCollateral : ℤ) : Prop :=
  repay ≤ 0 ∨ pair.positionDebt ≤ 0 ∨ positionCollateral ≤ 0 ∨
    pair.borrowPool.oracleAssetPrice ≤ 0 ∨ pair.collateralPool.oracleAssetPrice ≤ 0

theorem quoteNoDust_nothing {repay pc : ℤ} (hpc : pair.positionCollateral = .ok pc)
    (h : pair.QuotesNothing repay pc) : pair.quoteNoDust repay = .ok (.accepted 0 0) := by
  unfold QuotesNothing at h
  rw [quoteNoDust, hpc, ok_bind, if_pos h]
  rfl

theorem quoteNoDust_eq_ok_iff {repay pc : ℤ} {q : Seizure} (hpc : pair.positionCollateral = .ok pc)
    (h : ¬ pair.QuotesNothing repay pc) :
    pair.quoteNoDust repay = .ok q ↔ ∃ lifted exceeds, pair.liftsCloseFactor = .ok lifted ∧
      pair.overCloseFactor (min repay pair.positionDebt) lifted = .ok exceeds ∧
        (exceeds = true ∧ q = .overCloseFactor ∨ exceeds = false ∧ ∃ b repaid dust,
          pair.buys (min repay pair.positionDebt) lifted = .ok b ∧
          pair.refundedRepay pc (min pc b) (min repay pair.positionDebt) = .ok repaid ∧
          Fits (pc - min pc b) ∧ Fits (pair.positionDebt - repaid) ∧
          pair.leavesDust (pc - min pc b) (pair.positionDebt - repaid) = .ok dust ∧
          q = if dust then .leavesDust else .accepted (min pc b) repaid) := by
  unfold QuotesNothing at h
  rw [quoteNoDust, hpc, ok_bind, if_neg h]
  simp only [bind_eq_ok]
  constructor
  · rintro ⟨lifted, hl, exceeds, ho, hq⟩
    refine ⟨lifted, exceeds, hl, ho, ?_⟩
    cases exceeds with
    | true => exact .inl ⟨rfl, (pure_eq_ok.mp hq).symm⟩
    | false =>
      simp only [Bool.false_eq_true, if_false, bind_eq_ok, rawSub_eq_ok] at hq
      obtain ⟨b, hb, repaid, hr, _, ⟨h1, rfl⟩, _, ⟨h2, rfl⟩, dust, hd, hq⟩ := hq
      refine .inr ⟨rfl, b, repaid, dust, hb, hr, h1, h2, hd, ?_⟩
      cases dust <;> exact (pure_eq_ok.mp hq).symm
  · rintro ⟨lifted, exceeds, hl, ho, ⟨rfl, rfl⟩ | ⟨rfl, b, repaid, dust, hb, hr, h1, h2, hd, rfl⟩⟩
    · exact ⟨lifted, hl, true, ho, rfl⟩
    · refine ⟨lifted, hl, false, ho, ?_⟩
      simp only [Bool.false_eq_true, if_false, bind_eq_ok, rawSub_eq_ok]
      refine ⟨b, hb, repaid, hr, _, ⟨h1, rfl⟩, _, ⟨h2, rfl⟩, dust, hd, ?_⟩
      cases dust <;> rfl

/-! ## The search for a clearing repay -/

section Clearing

variable {lifted : Bool} {target debt x : ℤ}

theorem repayBuying_none (h : pair.repayBuying lifted target debt = .ok none) :
    ∃ b, pair.buys debt lifted = .ok b ∧ b < target := by
  obtain ⟨b, hb, h⟩ := bind_eq_ok.mp h
  split_ifs at h with hlt
  · exact ⟨b, hb, hlt⟩
  · obtain ⟨x, -, h⟩ := bind_eq_ok.mp h
    cases pure_eq_ok.mp h

/-- **The search finds the least repay that buys the target.** -/
theorem repayBuying_some (hb : 0 ≤ pair.borrowPool.oracleAssetPrice)
    (hc : 0 < pair.collateralPool.oracleAssetPrice) (hf : 0 ≤ bpsFactor + pair.incentiveBps)
    (h1 : 1 ≤ debt) (hfit : Fits debt) (h : pair.repayBuying lifted target debt = .ok (some x)) :
    1 ≤ x ∧ x ≤ debt ∧ (∃ b, pair.buys x lifted = .ok b ∧ target ≤ b) ∧
      ∀ y, 1 ≤ y → y < x → ∀ b, pair.buys y lifted = .ok b → b < target := by
  obtain ⟨B, hB, h⟩ := bind_eq_ok.mp h
  split_ifs at h with hlt
  · simp at h
  · obtain ⟨z, hz, h⟩ := bind_eq_ok.mp h
    obtain rfl := Option.some.inj (pure_eq_ok.mp h)
    have hpass : ∀ y v, (do return decide ((← pair.buys y lifted) ≥ target) : Res Bool) = .ok v ↔
        ∃ b, pair.buys y lifted = .ok b ∧ decide (b ≥ target) = v := fun y v => by
      simp only [bind_eq_ok, pure_eq_ok]
    have hmem := Search.least_mem le_rfl h1 hfit hz
    refine ⟨hmem.1, hmem.2, ?_, fun y hy hyz b hby => ?_⟩
    · obtain ⟨b, hbz, hd⟩ := (hpass z true).mp
        (Search.least_passes le_rfl h1 hfit hz ((hpass debt true).mpr ⟨B, hB, by simp; omega⟩))
      exact ⟨b, hbz, of_decide_eq_true hd⟩
    · by_contra hcon
      refine Search.least_below le_rfl h1 hfit (fun u v hu huv hv hpu hpv => ?_) hz hy hyz
        ((hpass y true).mpr ⟨b, hby, by simp; omega⟩)
      obtain ⟨bu, hbu, hdu⟩ := (hpass u true).mp hpu
      obtain ⟨bv, hbv, hdv⟩ := (hpass v false).mp hpv
      have := (downward_buys hb hc hf lifted).mono (by omega) huv hbu hbv
      simp only [decide_eq_true_eq, decide_eq_false_iff_not] at hdu hdv
      omega

theorem repayBuying_returns (hb : 0 ≤ pair.borrowPool.oracleAssetPrice)
    (hc : 0 < pair.collateralPool.oracleAssetPrice) (hf : 0 ≤ bpsFactor + pair.incentiveBps)
    (h1 : 1 ≤ debt) (hfit : Fits debt) (h : Returns (pair.buys debt lifted)) :
    Returns (pair.repayBuying lifted target debt) := by
  refine h.bind fun b _ => ?_
  split_ifs
  · exact ⟨none, rfl⟩
  · refine (Search.least_returns le_rfl h1 hfit fun x hx hle => ?_).bind fun x _ => ⟨some x, rfl⟩
    exact ((downward_buys hb hc hf lifted).returns (by omega) hle h).bind fun _ _ => ⟨_, rfl⟩

/-- What a clearing probe has computed. -/
theorem clearing_spec {c : Clearing} (hl : pair.liftsCloseFactor = .ok lifted)
    (h : pair.clearing = .ok (some c)) :
    ∃ S, pair.suppliedTokens = .ok S ∧
      pair.positionCollateral = .ok (S + pair.deposit.collateral) ∧
      0 < pair.positionDebt ∧ 0 < S + pair.deposit.collateral ∧ ∃ gD buying at?,
      grown pair.positionDebt pair.debtAccrualBps = .ok gD ∧
      pair.repayBuying lifted (pair.deposit.collateral + (S + fixedMulCeil S pair.supplyAccrualBps))
        gD = .ok buying ∧
      clearing.clearingOffer pair buying gD = .ok c.offer ∧
      pair.repayBuying lifted (S + pair.deposit.collateral) pair.positionDebt = .ok at? ∧
      c.atSnapshot = at?.getD pair.positionDebt := by
  obtain ⟨pc, hpc, h⟩ := bind_eq_ok.mp h
  have hpc' := hpc
  simp only [positionCollateral, bind_eq_ok, mOu_eq_ok, checkedAdd_eq_some] at hpc'
  obtain ⟨S, hS, -, rfl⟩ := hpc'
  by_cases h0 : pair.positionDebt ≤ 0 ∨ S + pair.deposit.collateral ≤ 0
  · rw [if_pos h0] at h
    cases pure_eq_ok.mp h
  · rw [if_neg h0, hl, ok_bind, hS] at h
    simp only [bind_eq_ok, ok_bind, mOu_eq_ok, checkedAdd_eq_some, pure_eq_ok] at h
    obtain ⟨gD, hgD, gS, hgS, _, ⟨-, rfl⟩, buying, hbuying, offer, hoffer, at?, hat, hres⟩ := h
    obtain ⟨-, rfl⟩ := grown_eq_ok.mp hgS
    obtain rfl := Option.some.inj hres
    exact ⟨S, hS, hpc, by omega, by omega, gD, buying, at?, hgD, hbuying, hoffer, hat, rfl⟩

end Clearing

end LiquidationPair

end AlulaKeeper
