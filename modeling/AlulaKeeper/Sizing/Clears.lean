import Mathlib
import AlulaKeeper.Sizing.Headroom

/-!
# The offers that clear a side

An accepted no-dust quote leaves dust on no side: it takes the whole collateral, repays the whole debt, or
keeps both sides over the floor. `clearing` finds where the first two begin.

* `LiquidationPair.Priced`: a no-dust pair the market prices.
* `LiquidationPair.repaidShareBps`, `LiquidationPair.Admits`: what the close factor lets through.
* `LiquidationPair.Clears`: an accepted offer that takes a side whole.
* `LiquidationPair.Priced.quote_cases`: what the market does with an offer it prices.
* `LiquidationPair.Priced.atSnapshot_le_iff`: from the snapshot's clearing repay on, an offer covers a side.
* `clears_iff`: the offers that clear.
-/

namespace AlulaKeeper

open I128

namespace LiquidationPair

/-- A no-dust pair with positive prices. -/
structure Priced (pair : LiquidationPair) : Prop where
  rules : pair.rules = .noDust
  borrowPrice : 0 < pair.borrowPool.oracleAssetPrice
  collateralPrice : 0 < pair.collateralPool.oracleAssetPrice

/-- The repaid share of the debt in bps, rounded up. -/
def repaidShareBps (pair : LiquidationPair) (offer : ℤ) : ℤ :=
  (min offer pair.positionDebt * bpsFactor + (pair.positionDebt - 1)) / pair.positionDebt

/-- The close factor lets `offer` through. -/
def Admits (pair : LiquidationPair) (offer : ℤ) : Prop :=
  pair.liftsCloseFactor = .ok true ∨
    pair.repaidShareBps offer ≤ pair.borrowPool.liquidationCloseFactorBps

/-- The market accepts `offer` for the whole collateral or the whole debt. -/
def Clears (pair : LiquidationPair) (offer : ℤ) : Prop :=
  ∃ seized repaid, pair.quote offer = .ok (.accepted seized repaid) ∧
    (pair.positionCollateral = .ok seized ∨ repaid = pair.positionDebt)

variable {pair : LiquidationPair} {lifted : Bool} {pc offer : ℤ} {q : Seizure} {c : Clearing}

theorem Priced.not_quotesNothing (h : pair.Priced) (hD : 0 < pair.positionDebt) (hpos : 0 < pc)
    (h1 : 1 ≤ offer) : ¬ pair.QuotesNothing offer pc := by
  have hb := h.borrowPrice
  have hc := h.collateralPrice
  unfold QuotesNothing
  omega

/-! ## The close factor -/

theorem overCloseFactor_eq_ok {exceeds : Bool} (hD : 0 < pair.positionDebt) (h1 : 1 ≤ offer)
    (hl : pair.liftsCloseFactor = .ok lifted)
    (h : pair.overCloseFactor (min offer pair.positionDebt) lifted = .ok exceeds) :
    exceeds = false ↔ pair.Admits offer := by
  unfold Admits
  cases lifted with
  | true =>
    rw [overCloseFactor, if_pos rfl, pure_eq_ok] at h
    exact iff_of_true h.symm (.inl hl)
  | false =>
    have hnot : pair.liftsCloseFactor ≠ .ok true := fun ht => absurd (ok_unique hl ht) (by decide)
    rw [or_iff_right hnot]
    simp only [overCloseFactor, Bool.false_eq_true, if_false, bind_eq_ok, mOu_eq_ok, checkedMul_eq_some,
      checkedAdd_eq_some, rawSub_eq_ok, pure_eq_ok] at h
    obtain ⟨_, ⟨-, rfl⟩, _, ⟨-, rfl⟩, _, ⟨hsum, rfl⟩, share, hshare, rfl⟩ := h
    rw [checkedDiv_eq_some_of_pos hsum hD] at hshare
    have hnonneg : 0 ≤ min offer pair.positionDebt * bpsFactor + (pair.positionDebt - 1) := by
      have hmul : 0 ≤ min offer pair.positionDebt * bpsFactor :=
        mul_nonneg (le_min (by omega) hD.le) bpsFactor_pos.le
      omega
    rw [← hshare, Int.tdiv_eq_ediv_of_nonneg hnonneg, decide_eq_false_iff_not, not_lt]
    rfl

/-! ## What a repay buys on any incentive -/

/-- With an incentive below `-BPS_FACTOR` a repay buys its incentive amount, or nothing. -/
theorem Priced.buys_of_neg {x b : ℤ} (h : pair.Priced) (hf : bpsFactor + pair.incentiveBps < 0)
    (hx : 0 ≤ x) (hbuys : pair.buys x lifted = .ok b) :
    ∃ v a, valueFloor x pair.borrowPool = .ok v ∧ amountFloor v pair.collateralPool = .ok a ∧ 0 ≤ a ∧
      b = if lifted = false ∧ (pair.obligationDebtValue ≤ 0 ∨ pair.obligationCollateralValue ≤ 0) then 0
        else (a * (bpsFactor + pair.incentiveBps)).tdiv bpsFactor := by
  obtain ⟨v, hv, hbuys⟩ := bind_eq_ok.mp hbuys
  obtain ⟨a, ha, hbuys⟩ := bind_eq_ok.mp hbuys
  obtain ⟨w, hw, hbuys⟩ := bind_eq_ok.mp hbuys
  obtain ⟨-, -, rfl⟩ := addIncentive_eq_ok.mp hw
  have hv0 := (downward_valueFloor h.borrowPrice.le).nonneg hx hv
  have ha0 := (downward_amountFloor h.collateralPrice).nonneg hv0 ha
  refine ⟨v, a, hv, ha, ha0, ?_⟩
  cases lifted with
  | true =>
    rw [if_neg (by simp)]
    exact (pure_eq_ok.mp hbuys).symm
  | false =>
    rw [if_neg (by decide)] at hbuys
    by_cases h0 : pair.obligationDebtValue ≤ 0 ∨ pair.obligationCollateralValue ≤ 0
    · rw [if_pos ⟨rfl, h0⟩]
      rw [if_pos h0] at hbuys
      exact (pure_eq_ok.mp hbuys).symm
    · rw [if_neg fun hand => h0 hand.2]
      rw [if_neg h0] at hbuys
      obtain ⟨l, hl, hbuys⟩ := bind_eq_ok.mp hbuys
      obtain ⟨t, ht, hbuys⟩ := bind_eq_ok.mp hbuys
      have hl0 := (downward_ltvImprovingValue (by omega) (by omega)).nonneg hv0 hl
      have ht0 := (downward_amountFloor h.collateralPrice).nonneg hl0 ht
      have hneg : (a * (bpsFactor + pair.incentiveBps)).tdiv bpsFactor ≤ 0 :=
        tdiv_nonpos (mul_nonpos_of_nonneg_of_nonpos ha0 hf.le) bpsFactor_pos
      rw [← pure_eq_ok.mp hbuys, min_eq_left (hneg.trans ht0)]

theorem Priced.buys_nonpos_of_neg {x b : ℤ} (h : pair.Priced) (hf : bpsFactor + pair.incentiveBps < 0)
    (hx : 0 ≤ x) (hbuys : pair.buys x lifted = .ok b) : b ≤ 0 := by
  obtain ⟨v, a, -, -, ha, rfl⟩ := h.buys_of_neg hf hx hbuys
  split_ifs
  · exact le_rfl
  · exact tdiv_nonpos (mul_nonpos_of_nonneg_of_nonpos ha hf.le) bpsFactor_pos

/-- Between two repays one buys no more than the better of them. -/
theorem Priced.buys_le_max {y x z by' bx bz : ℤ} (h : pair.Priced) (hy : 0 ≤ y) (hyx : y ≤ x) (hxz : x ≤ z)
    (hby : pair.buys y lifted = .ok by') (hbx : pair.buys x lifted = .ok bx)
    (hbz : pair.buys z lifted = .ok bz) : bx ≤ max by' bz := by
  rcases le_or_gt 0 (bpsFactor + pair.incentiveBps) with hf | hf
  · exact le_max_of_le_right
      ((downward_buys h.borrowPrice.le h.collateralPrice hf lifted).mono (hy.trans hyx) hxz hbx hbz)
  · obtain ⟨vy, ay, hvy, hay, -, rfl⟩ := h.buys_of_neg hf hy hby
    obtain ⟨vx, ax, hvx, hax, -, rfl⟩ := h.buys_of_neg hf (hy.trans hyx) hbx
    refine le_max_of_le_left ?_
    split_ifs
    · exact le_rfl
    · have hv := (downward_valueFloor h.borrowPrice.le).mono hy hyx hvy hvx
      have hv0 := (downward_valueFloor h.borrowPrice.le).nonneg hy hvy
      have ha := (downward_amountFloor h.collateralPrice).mono hv0 hv hay hax
      exact Int.tdiv_le_tdiv bpsFactor_pos (mul_le_mul_of_nonpos_right ha hf.le)

/-- **The search splits the repays**: those from its result on buy the target. -/
theorem Priced.repayBuying_iff {target debt : ℤ} {x? : Option ℤ} (h : pair.Priced) (h1 : 1 ≤ debt)
    (htarget : 0 < target) (hx : pair.repayBuying lifted target debt = .ok x?) :
    (∀ x ∈ x?, 1 ≤ x ∧ x ≤ debt) ∧ ∀ y b, 1 ≤ y → y ≤ debt → pair.buys y lifted = .ok b →
      (target ≤ b ↔ ∃ x ∈ x?, x ≤ y) := by
  obtain ⟨B, hB, -⟩ := bind_eq_ok.mp hx
  have hfits : Fits debt := fits_of_buys h.borrowPrice (by omega) ⟨B, hB⟩
  rcases le_or_gt 0 (bpsFactor + pair.incentiveBps) with hf | hf
  · have hmono := downward_buys h.borrowPrice.le h.collateralPrice hf lifted
    cases x? with
    | none =>
      obtain ⟨B', hB', hlt⟩ := repayBuying_none hx
      refine ⟨by simp, fun y b hy hle hb => iff_of_false ?_ (by simp)⟩
      have := hmono.mono (by omega) hle hb hB'
      omega
    | some x =>
      obtain ⟨hx1, hxD, ⟨bx, hbx, hbuys⟩, hbelow⟩ :=
        repayBuying_some h.borrowPrice.le h.collateralPrice hf h1 hfits hx
      simp only [Option.mem_some_iff, exists_eq_left', forall_eq']
      refine ⟨⟨hx1, hxD⟩, fun y b hy hle hb => ⟨fun hge => ?_, fun hxy => ?_⟩⟩
      · by_contra hlt
        exact absurd (hbelow y hy (not_le.mp hlt) b hb) (not_lt.mpr hge)
      · exact hbuys.trans (hmono.mono (by omega) hxy hbx hb)
  · -- nothing buys a positive target
    have hnone : x? = none := by
      have hB0 := h.buys_nonpos_of_neg hf (by omega) hB
      rw [repayBuying, hB, ok_bind, if_pos (by omega), pure_eq_ok] at hx
      exact hx.symm
    subst hnone
    refine ⟨by simp, fun y b hy hle hb => iff_of_false ?_ (by simp)⟩
    have := h.buys_nonpos_of_neg hf (by omega) hb
    omega

/-! ## Quotes the market prices -/

section Quotes

variable (h : pair.Priced) (hl : pair.liftsCloseFactor = .ok lifted)
  (hpc : pair.positionCollateral = .ok pc) (hD : 0 < pair.positionDebt) (hpos : 0 < pc)

include h hl hpc hD hpos

/-- From the snapshot's clearing repay on, an offer covers the debt or buys the collateral. -/
theorem Priced.atSnapshot_le_iff {b : ℤ} (hclear : pair.clearing = .ok (some c)) (h1 : 1 ≤ offer)
    (hb : pair.buys (min offer pair.positionDebt) lifted = .ok b) :
    c.atSnapshot ≤ offer ↔ pair.positionDebt ≤ offer ∨ pc ≤ b := by
  obtain ⟨S, -, hpc', -, -, gD, buying, at?, -, -, -, hat, hsnap⟩ := clearing_spec hl hclear
  obtain rfl := ok_unique hpc hpc'
  obtain ⟨hmem, hsplit⟩ := h.repayBuying_iff hD hpos hat
  rw [hsnap, hsplit _ b (le_min h1 hD) (min_le_right _ _) hb]
  cases at? with
  | none => simp
  | some x =>
    have := hmem x rfl
    simp only [Option.getD_some, Option.mem_some_iff, exists_eq_left']
    omega

/-- **What the market does with an offer.** It is over the close factor, or judged by what it leaves. -/
theorem Priced.quote_cases (h1 : 1 ≤ offer) (hq : pair.quote offer = .ok q) :
    ¬ pair.Admits offer ∧ q = .overCloseFactor ∨ pair.Admits offer ∧ ∃ b repaid dust,
      pair.buys (min offer pair.positionDebt) lifted = .ok b ∧
      pair.refundedRepay pc (min pc b) (min offer pair.positionDebt) = .ok repaid ∧
      pair.leavesDust (pc - min pc b) (pair.positionDebt - repaid) = .ok dust ∧
      q = if dust then .leavesDust else .accepted (min pc b) repaid := by
  rw [quote, h.rules] at hq
  obtain ⟨lifted', exceeds, hl', hover, hres⟩ :=
    (quoteNoDust_eq_ok_iff hpc (h.not_quotesNothing hD hpos h1)).mp hq
  obtain rfl := ok_unique hl hl'
  have hadmits := overCloseFactor_eq_ok hD h1 hl hover
  rcases hres with ⟨rfl, rfl⟩ | ⟨rfl, b, repaid, dust, hb, hr, -, -, hd, rfl⟩
  · exact .inl ⟨fun ha => absurd (hadmits.mpr ha) (by decide), rfl⟩
  · exact .inr ⟨hadmits.mp rfl, b, repaid, dust, hb, hr, hd, rfl⟩

/-- **An accepted quote** seizes what is bought and leaves no dust. -/
theorem Priced.accepted_cases {s r : ℤ} (h1 : 1 ≤ offer) (hq : pair.quote offer = .ok (.accepted s r)) :
    ∃ b, pair.buys (min offer pair.positionDebt) lifted = .ok b ∧
      pair.refundedRepay pc (min pc b) (min offer pair.positionDebt) = .ok r ∧
      pair.leavesDust (pc - min pc b) (pair.positionDebt - r) = .ok false ∧ s = min pc b := by
  obtain ⟨-, hbad⟩ | ⟨-, b, repaid, dust, hb, hr, hd, hres⟩ := h.quote_cases hl hpc hD hpos h1 hq
  · cases hbad
  cases dust with
  | true => cases hres
  | false =>
    obtain ⟨rfl, rfl⟩ := Seizure.accepted.inj hres
    exact ⟨b, hb, hr, hd, rfl⟩

/-- An offer the close factor lets through clears exactly when it covers the debt or buys the collateral. -/
theorem Priced.clears_iff_covers {b : ℤ} (h1 : 1 ≤ offer) (ha : pair.Admits offer)
    (hq : pair.quote offer = .ok q) (hb : pair.buys (min offer pair.positionDebt) lifted = .ok b) :
    pair.Clears offer ↔ pair.positionDebt ≤ offer ∨ pc ≤ b := by
  constructor
  · rintro ⟨s, r, hacc, hside⟩
    obtain ⟨b', hb', hr, -, rfl⟩ := h.accepted_cases hl hpc hD hpos h1 hacc
    obtain rfl := ok_unique hb hb'
    by_contra hnot
    have hlt : b < pc := not_le.mp fun hle => hnot (.inr hle)
    have hrepaid : r = min offer pair.positionDebt := ok_unique hr (refundedRepay_of_ne (by omega))
    rcases hside with hs | hs
    · rw [hpc, Except.ok.injEq] at hs
      omega
    · omega
  · intro hcovers
    obtain ⟨hno, -⟩ | ⟨-, b', repaid, dust, hb', hr, hd, rfl⟩ := h.quote_cases hl hpc hD hpos h1 hq
    · exact absurd ha hno
    obtain rfl := ok_unique hb hb'
    have hpart : b < pc → repaid = min offer pair.positionDebt := by
      intro hlt
      exact ok_unique hr (refundedRepay_of_ne (by omega))
    have hside : pc - min pc b ≤ 0 ∨ pair.positionDebt - repaid ≤ 0 := by
      rcases le_or_gt pc b with hle | hlt
      · exact .inl (by omega)
      · rw [hpart hlt]
        exact .inr (by omega)
    rw [leavesDust, if_pos hside, pure_eq_ok] at hd
    subst hd
    refine ⟨_, _, hq, ?_⟩
    rcases le_or_gt pc b with hle | hlt
    · exact .inl (by rw [hpc, min_eq_left hle])
    · exact .inr (by rw [hpart hlt]; omega)

theorem Priced.repaid_le {s r : ℤ} (h1 : 1 ≤ offer) (hq : pair.quote offer = .ok (.accepted s r)) :
    r ≤ min offer pair.positionDebt := by
  obtain ⟨b, -, hr, -⟩ := h.accepted_cases hl hpc hD hpos h1 hq
  exact (refundedRepay_cases hr).1

end Quotes

/-! ## Where clearing begins -/

theorem clearing_some (hpc : pair.positionCollateral = .ok pc) (hD : 0 < pair.positionDebt) (hpos : 0 < pc)
    (h : Returns pair.clearing) : ∃ c, pair.clearing = .ok (some c) := by
  obtain ⟨c?, h⟩ := h
  cases c? with
  | some c => exact ⟨c, h⟩
  | none =>
    rw [clearing, hpc, ok_bind, if_neg (by omega)] at h
    simp only [bind_eq_ok, pure_eq_ok] at h
    obtain ⟨_, -, _, -, _, -, _, -, _, -, _, -, _, -, _, -, hnone⟩ := h
    cases hnone

theorem lifts_of_clearing (hclear : pair.clearing = .ok (some c)) :
    ∃ lifted, pair.liftsCloseFactor = .ok lifted := by
  obtain ⟨pc, -, h⟩ := bind_eq_ok.mp hclear
  obtain ⟨-, h⟩ := ite_eq_ok_of_ne (by simp) h
  obtain ⟨lifted, hl, -⟩ := bind_eq_ok.mp h
  exact ⟨lifted, hl⟩

theorem Priced.of_clearing (h : pair.Priced) (hclear : pair.clearing = .ok (some c)) :
    ∃ lifted pc, pair.liftsCloseFactor = .ok lifted ∧ pair.positionCollateral = .ok pc ∧
      0 < pair.positionDebt ∧ 0 < pc ∧ 1 ≤ c.atSnapshot ∧ c.atSnapshot ≤ pair.positionDebt := by
  obtain ⟨lifted, hl⟩ := lifts_of_clearing hclear
  obtain ⟨S, -, hpc, hD, hpos, gD, buying, at?, -, -, -, hat, hsnap⟩ := clearing_spec hl hclear
  obtain ⟨hmem, -⟩ := h.repayBuying_iff hD hpos hat
  refine ⟨lifted, _, hl, hpc, hD, hpos, ?_⟩
  rw [hsnap]
  cases at? with
  | none => exact ⟨hD, le_rfl⟩
  | some x => exact hmem x rfl

theorem Priced.one_le_of_clears (h : pair.Priced) (hpc : pair.positionCollateral = .ok pc)
    (hD : 0 < pair.positionDebt) (hpos : 0 < pc) (hclears : pair.Clears offer) : 1 ≤ offer := by
  obtain ⟨s, r, hq, hside⟩ := hclears
  by_contra hlt
  have hnothing : pair.QuotesNothing offer pc := .inl (by omega)
  rw [quote, h.rules] at hq
  obtain ⟨rfl, rfl⟩ := Seizure.accepted.inj (ok_unique (quoteNoDust_nothing hpc hnothing) hq)
  rcases hside with hs | hs
  · exact hpos.ne (ok_unique hs hpc)
  · exact hD.ne hs

/-- **The offers that clear** are those from the snapshot's clearing repay on that the close factor lets
through. -/
theorem Priced.clears_iff_atSnapshot_le (h : pair.Priced) (hclear : pair.clearing = .ok (some c))
    (h1 : 1 ≤ offer) (hq : pair.quote offer = .ok q) :
    pair.Clears offer ↔ c.atSnapshot ≤ offer ∧ pair.Admits offer := by
  obtain ⟨lifted, pc, hl, hpc, hD, hpos, -⟩ := h.of_clearing hclear
  obtain ⟨hno, rfl⟩ | ⟨ha, b, -, -, hb, -⟩ := h.quote_cases hl hpc hD hpos h1 hq
  · refine iff_of_false ?_ fun hand => hno hand.2
    rintro ⟨s, r, hacc, -⟩
    cases ok_unique hq hacc
  · rw [and_iff_left ha, h.clears_iff_covers hl hpc hD hpos h1 ha hq hb,
      h.atSnapshot_le_iff hl hpc hD hpos hclear h1 hb]

end LiquidationPair

open LiquidationPair

/-- **`clearing` finds exactly the clearing offers.** On a lifted pair its snapshot repay is the least of
them, and the market accepts every larger offer for no more than the offer and the debt. -/
theorem clears_iff {pair : LiquidationPair} {c : Clearing} (hrules : pair.rules = .noDust)
    (hb : 0 < pair.borrowPool.oracleAssetPrice) (hc : 0 < pair.collateralPool.oracleAssetPrice)
    (hclear : pair.clearing = .ok (some c)) :
    (∀ offer q, 1 ≤ offer → pair.quote offer = .ok q →
      (pair.Clears offer ↔ c.atSnapshot ≤ offer ∧ pair.Admits offer)) ∧
    (pair.liftsCloseFactor = .ok true →
      (Returns (pair.quote c.atSnapshot) → IsLeast {offer | pair.Clears offer} c.atSnapshot) ∧
      ∀ offer q, c.atSnapshot ≤ offer → pair.quote offer = .ok q →
        ∃ seized repaid, q = .accepted seized repaid ∧ repaid ≤ min offer pair.positionDebt) := by
  have h : pair.Priced := ⟨hrules, hb, hc⟩
  obtain ⟨lifted, pc, hl, hpc, hD, hpos, h1, -⟩ := h.of_clearing hclear
  refine ⟨fun offer q => h.clears_iff_atSnapshot_le hclear, fun htrue => ⟨?_, ?_⟩⟩
  · rintro ⟨q, hq⟩
    refine ⟨(h.clears_iff_atSnapshot_le hclear h1 hq).mpr ⟨le_rfl, .inl htrue⟩, ?_⟩
    intro offer hclears
    have hone := h.one_le_of_clears hpc hD hpos hclears
    obtain ⟨s, r, hacc, -⟩ := id hclears
    exact ((h.clears_iff_atSnapshot_le hclear hone hacc).mp hclears).1
  · intro offer q hle hq
    have hone : 1 ≤ offer := h1.trans hle
    obtain ⟨s, r, hacc, -⟩ := (h.clears_iff_atSnapshot_le hclear hone hq).mpr ⟨hle, .inl htrue⟩
    exact ⟨s, r, ok_unique hq hacc, h.repaid_le hl hpc hD hpos hone hacc⟩

theorem small_pair_clears_from_its_snapshot :
    (dustPair 80000000 60000000).clearing = .ok (some ⟨54545455, 55090910⟩) ∧
      (dustPair 80000000 60000000).quote 54545455 = .ok (.accepted 60000000 54545455) ∧
      IsLeast {offer | (dustPair 80000000 60000000).Clears offer} 54545455 :=
  have hclear : (dustPair 80000000 60000000).clearing = .ok (some ⟨54545455, 55090910⟩) := by
    decide +kernel
  have hquote : (dustPair 80000000 60000000).quote 54545455 = .ok (.accepted 60000000 54545455) := by
    decide +kernel
  ⟨hclear, hquote, ((clears_iff rfl (by decide) (by decide) hclear).2
    (by decide +kernel)).1 ⟨_, hquote⟩⟩

end AlulaKeeper
