import Mathlib
import AlulaKeeper.Lib.Fold
import AlulaKeeper.Lending.Cover

/-!
# Covers on a degraded snapshot

A snapshot may miss pools the market holds. The verdict's functions treat a missing pool differently: a
missing deposit pool bails out, a missing borrow pool means "not covered" and "no acceptable liquidation".

* `Agree`: two snapshots alike on every pool an obligation touches; every verdict agrees on them
  (`Agree.coversDebt`, `Agree.acceptable`).
* `MarketData.dropPools`: a degraded snapshot, and what its lookups find.
* `acceptable_of_unpriced`: with a touched pool unpriced there is never an acceptable liquidation.
* `degraded_cover_iff`: when dropping pools creates a cover the full snapshot refuses.
-/

namespace AlulaKeeper

open I128

/-! ## Snapshots alike on the pools touched -/

/-- `S'` has the parameters of `S` and finds the same data for every pool the obligation touches. -/
structure Agree (obligation : Obligation) (S S' : MarketData) : Prop where
  insolvencyLtvBps : S'.insolvencyLtvBps = S.insolvencyLtvBps
  oraclePriceDecimals : S'.oraclePriceDecimals = S.oraclePriceDecimals
  minCollateralValueCents : S'.minCollateralValueCents = S.minCollateralValueCents
  findPool : ∀ a ∈ poolsTouched obligation, S'.findPool a = S.findPool a

section Agree

variable {obligation : Obligation} {S S' : MarketData} (h : Agree obligation S S')

include h in
theorem Agree.borrow {b : BorrowPosition} (hb : b ∈ obligation.borrows) :
    S'.findPool b.poolAddress = S.findPool b.poolAddress :=
  h.findPool _ (List.mem_append_left _ (List.mem_map_of_mem hb))

include h in
theorem Agree.deposit {d : DepositPosition} (hd : d ∈ obligation.deposits) :
    S'.findPool d.poolAddress = S.findPool d.poolAddress :=
  h.findPool _ (List.mem_append_right _ (List.mem_map_of_mem hd))

include h in
theorem Agree.debtValue :
    computeObligationDebtValue obligation S' = computeObligationDebtValue obligation S :=
  Fold.foldlM_congr fun b hb _ => by rw [h.borrow hb]

include h in
theorem Agree.collateralValue :
    computeObligationCollateralValue obligation S' = computeObligationCollateralValue obligation S :=
  Fold.foldlM_congr fun d hd _ => by rw [h.deposit hd]

include h in
theorem Agree.insolvent : computeIsInsolvent obligation S' = computeIsInsolvent obligation S := by
  simp only [computeIsInsolvent, h.debtValue, h.collateralValue, h.insolvencyLtvBps]

include h in
theorem Agree.unpriced :
    unpricedPoolsTouched obligation S' = [] ↔ unpricedPoolsTouched obligation S = [] := by
  rw [unpricedPoolsTouched_eq_nil_iff, unpricedPoolsTouched_eq_nil_iff]
  exact forall₂_congr fun a ha => by rw [h.findPool a ha]

include h in
theorem Agree.newPair (rules : DustRules) (borrowPool collateralPool : PoolData)
    (deposit : DepositPosition) (isInsolvent : Bool) :
    LiquidationPair.new rules obligation S' borrowPool collateralPool deposit isInsolvent =
      LiquidationPair.new rules obligation S borrowPool collateralPool deposit isInsolvent := by
  simp only [LiquidationPair.new, h.debtValue, h.collateralValue, h.minCollateralValueCents,
    h.oraclePriceDecimals]

include h in
theorem Agree.acceptable (margin : ℤ) (now : ℕ) :
    hasAcceptableLiquidation obligation S' margin now =
      hasAcceptableLiquidation obligation S margin now := by
  have hpair : ∀ isInsolvent borrowPool, ∀ d ∈ obligation.deposits,
      pairIsAcceptable obligation S' margin now isInsolvent borrowPool d =
        pairIsAcceptable obligation S margin now isInsolvent borrowPool d := by
    intro isInsolvent borrowPool d hd
    simp only [pairIsAcceptable, h.deposit hd, h.newPair]
  have hempty : (unpricedPoolsTouched obligation S').isEmpty =
      (unpricedPoolsTouched obligation S).isEmpty := by
    rw [Bool.eq_iff_iff, List.isEmpty_iff, List.isEmpty_iff]
    exact h.unpriced
  simp only [hasAcceptableLiquidation, hempty, h.insolvent]
  congr 2
  funext isInsolvent
  refine anyM_congr fun b hb => ?_
  rw [h.borrow hb]
  congr 1
  funext borrowPool
  exact anyM_congr (hpair isInsolvent borrowPool)

include h in
theorem Agree.coversDebt :
    seizableCollateralCoversDebt obligation S' = seizableCollateralCoversDebt obligation S := by
  have hdebt : ∀ (borrows : List BorrowPosition) (v : ℤ), (∀ b ∈ borrows, b ∈ obligation.borrows) →
      pricedDebtValue.go S' borrows v = pricedDebtValue.go S borrows v := by
    intro borrows
    induction borrows with
    | nil => intro v _; rfl
    | cons b borrows ih =>
      intro v hmem
      have hrest := fun w => ih w fun x hx => hmem x (List.mem_cons_of_mem _ hx)
      simp only [pricedDebtValue.go, h.borrow (hmem b List.mem_cons_self), hrest]
  have hcoll : seizableCollateralValue obligation S' = seizableCollateralValue obligation S :=
    Fold.foldlM_congr fun d hd _ => by rw [h.deposit hd]
  have hpriced : pricedDebtValue obligation S' = pricedDebtValue obligation S :=
    hdebt obligation.borrows 0 fun _ hb => hb
  simp only [seizableCollateralCoversDebt, hpriced, hcoll]

end Agree

/-! ## Dropped pools -/

/-- The snapshot without the pools at the `dropped` addresses. -/
def MarketData.dropPools (S : MarketData) (dropped : Address → Bool) : MarketData :=
  { S with poolsData := S.poolsData.filter fun p => !dropped p.poolAddress }

section Dropped

variable {obligation : Obligation} {S : MarketData} {dropped : Address → Bool} {margin : ℤ} {now : ℕ}

theorem findPool_dropPools (a : Address) :
    (S.dropPools dropped).findPool a = if dropped a then none else S.findPool a := by
  rw [MarketData.findPool, MarketData.dropPools, List.find?_filter]
  split_ifs with h
  · rw [List.find?_eq_none]
    intro p _ hp
    by_cases hpa : p.poolAddress = a
    · simp [hpa, h] at hp
    · simp [hpa] at hp
  · refine congrArg (fun f => S.poolsData.find? f) (funext fun p => ?_)
    by_cases hp : p.poolAddress = a
    · simp [hp, h]
    · simp [hp]

theorem findPool_of_dropPools {a : Address} {pool : PoolData}
    (h : (S.dropPools dropped).findPool a = some pool) : S.findPool a = some pool := by
  rw [findPool_dropPools] at h
  split_ifs at h with hd
  exact h

theorem acceptable_of_unpriced {S : MarketData} {a : Address} (ha : a ∈ poolsTouched obligation)
    (hnone : S.findPool a = none) : hasAcceptableLiquidation obligation S margin now = .ok false := by
  have hne : unpricedPoolsTouched obligation S ≠ [] := by
    intro h
    obtain ⟨pool, hpool⟩ := unpricedPoolsTouched_eq_nil_iff.mp h a ha
    rw [hnone] at hpool
    cases hpool
  rw [hasAcceptableLiquidation, List.isEmpty_eq_false_iff.mpr hne]
  rfl

/-- Deposits the degraded snapshot prices as dust are dust on the full one. -/
theorem allDepositsDust_of_dropPools {t : ℤ} {deposits : List DepositPosition}
    (h : allDepositsDust (S.dropPools dropped) t deposits = .ok true) :
    allDepositsDust S t deposits = .ok true := by
  rw [allDepositsDust_eq_true_iff] at h ⊢
  intro d hd
  obtain ⟨pool, v, hpool, hv⟩ := h d hd
  exact ⟨pool, v, findPool_of_dropPools hpool, hv⟩

/-- If every deposit is priced after the drop and no borrowed pool was dropped, nothing touched changed. -/
theorem agree_dropPools
    (hdep : ∀ d ∈ obligation.deposits, ∃ pool, (S.dropPools dropped).findPool d.poolAddress = some pool)
    (hbor : ∀ b ∈ obligation.borrows, (S.dropPools dropped).findPool b.poolAddress = none →
      S.findPool b.poolAddress = none) : Agree obligation S (S.dropPools dropped) where
  insolvencyLtvBps := rfl
  oraclePriceDecimals := rfl
  minCollateralValueCents := rfl
  findPool a ha := by
    rcases List.mem_append.mp ha with ha | ha
    · obtain ⟨b, hb, rfl⟩ := List.mem_map.mp ha
      cases hf : (S.dropPools dropped).findPool b.poolAddress with
      | none => exact (hbor b hb hf).symm
      | some pool => exact (findPool_of_dropPools hf).symm
    · obtain ⟨d, hd, rfl⟩ := List.mem_map.mp ha
      obtain ⟨pool, hpool⟩ := hdep d hd
      rw [hpool, findPool_of_dropPools hpool]

theorem agree_of_none_missing {t : ℤ}
    (hdust : allDepositsDust (S.dropPools dropped) t obligation.deposits = .ok true)
    (hmiss : ¬ ∃ b ∈ obligation.borrows, dropped b.poolAddress = true ∧
      ∃ pool, S.findPool b.poolAddress = some pool) : Agree obligation S (S.dropPools dropped) := by
  apply agree_dropPools
  · intro d hmem
    obtain ⟨pool, v, hpool, -⟩ := allDepositsDust_eq_true_iff.mp hdust d hmem
    exact ⟨pool, hpool⟩
  · intro b hbor hnone
    rw [findPool_dropPools] at hnone
    split_ifs at hnone with hdrop
    · cases hf : S.findPool b.poolAddress with
      | none => rfl
      | some pool => exact absurd ⟨b, hbor, hdrop, pool, hf⟩ hmiss
    · exact hnone

/-- A cover that exists only because a pool was dropped: on a no-dust market, a borrowed pool the full
snapshot prices is missing, every deposit is dust, and with the pool priced the collateral covers the debt
or the liquidator acts. -/
structure CoverGap (rules : DustRules) (margin : ℤ) (now : ℕ) (obligation : Obligation)
    (S : MarketData) (dropped : Address → Bool) : Prop where
  noDust : rules = .noDust
  borrows : obligation.borrows ≠ []
  noRequest : obligation.openBadDebtRequests = 0
  deposits : obligation.deposits ≠ []
  dust : ∃ t, centsToOracleValueCeil S.minCollateralValueCents S.oraclePriceDecimals = .ok t ∧
    allDepositsDust (S.dropPools dropped) t obligation.deposits = .ok true
  missing : ∃ b ∈ obligation.borrows, dropped b.poolAddress = true ∧
    ∃ pool, S.findPool b.poolAddress = some pool
  uncovered : seizableCollateralCoversDebt obligation (S.dropPools dropped) = .ok false
  refused : seizableCollateralCoversDebt obligation S = .ok true ∨
    seizableCollateralCoversDebt obligation S = .ok false ∧
      hasAcceptableLiquidation obligation S margin now = .ok true

/-- **When a degraded snapshot creates a cover.** A cover the degraded snapshot issues and the full one
refuses exists exactly through a gap. -/
theorem degraded_cover_iff (rules : DustRules) (margin : ℤ) (now : ℕ) (obligation : Obligation)
    (S : MarketData) (dropped : Address → Bool) :
    (isEligibleForBadDebtRequestIssuance rules margin now obligation (S.dropPools dropped) =
        .ok true →
      isEligibleForBadDebtRequestIssuance rules margin now obligation S ≠ .ok false) ↔
      ¬ CoverGap rules margin now obligation S dropped := by
  constructor
  · rintro h ⟨rfl, hb, ho, hd, ⟨t, ht, hdust⟩, ⟨b, hbor, hdrop, -⟩, huncov, href⟩
    refine h ?_ ?_
    · rw [isEligible_eq_coverVerdict hb ho hd, coverVerdict_eq_true_iff]
      have hnone : (S.dropPools dropped).findPool b.poolAddress = none := by
        rw [findPool_dropPools, if_pos hdrop]
      exact ⟨t, ht, hdust, fun _ => ⟨huncov, acceptable_of_unpriced
        (List.mem_append_left _ (List.mem_map_of_mem hbor)) hnone⟩⟩
    · rw [isEligible_eq_coverVerdict hb ho hd, coverVerdict_eq_false_iff]
      exact ⟨t, ht, .inr ⟨allDepositsDust_of_dropPools hdust, rfl, href⟩⟩
  · intro hgap he' he
    obtain ⟨hb, ho⟩ := owes_of_isEligible he'
    have hd : obligation.deposits ≠ [] := fun h => by simp [isEligible_of_no_deposits hb ho h] at he
    rw [isEligible_eq_coverVerdict hb ho hd] at he' he
    obtain ⟨t, ht, hdust, hrules⟩ := coverVerdict_eq_true_iff.mp he'
    obtain ⟨t', ht', hcase⟩ := coverVerdict_eq_false_iff.mp he
    obtain rfl : t = t' := ok_unique ht ht'
    rw [allDepositsDust_of_dropPools hdust] at hcase
    obtain hbad | ⟨-, hn, href⟩ := hcase
    · cases hbad
    · obtain ⟨huncov, hunacc⟩ := hrules hn
      refine hgap ⟨hn, hb, ho, hd, ⟨t, ht, hdust⟩, ?_, huncov, href⟩
      -- with no borrowed pool dropped both snapshots would judge alike
      by_contra hmiss
      have hagree := agree_of_none_missing hdust hmiss
      rw [← hagree.coversDebt, ← hagree.acceptable, huncov, hunacc] at href
      simp at href

/-- $1 of USDC owed against $4.50 of gold on a no-dust market: without the USDC pool the cover is issued,
with it the collateral covers the debt. -/
theorem dropping_the_debt_pool_creates_a_cover :
    isEligibleForBadDebtRequestIssuance .noDust 0 0 (dustBorrower 10000000 45000000)
        ((dustMarket usd).dropPools (· == "USDC")) = .ok true ∧
      isEligibleForBadDebtRequestIssuance .noDust 0 0 (dustBorrower 10000000 45000000)
        (dustMarket usd) = .ok false := by
  decide +kernel

end Dropped

end AlulaKeeper
