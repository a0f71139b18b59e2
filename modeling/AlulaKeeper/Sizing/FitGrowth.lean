import Mathlib
import AlulaKeeper.Sizing.Fitting

/-!
# Budgets, margins and the fitted repay

The same repay fitted twice: with a larger budget, or with the margin of the retry.

* `LiquidationPair.Priced.accepts_of_le_partial`, `LiquidationPair.Priced.le_partial`: offers around a partial
  repay that was found.
* `LiquidationPair.clearing_margins`: a wider margin moves only the padded offer, and up.
* `LiquidationPair.padded_grows_iff`, `LiquidationPair.below_grows_iff`: the two branches of the fit.
* `fit_grows_iff`: when the second fit offers at least as much.
-/

namespace AlulaKeeper

open I128

namespace LiquidationPair

variable {pair : LiquidationPair} {c c' : Clearing} {repay upper low x : ℤ}

/-! ## A partial repay that was found -/

section Partial

/-- The market accepts every offer up to a partial repay that was found. -/
theorem Priced.accepts_of_le_partial (h : pair.Priced) (hclear : pair.clearing = .ok (some c))
    (hfits : Fits repay) (hle : upper ≤ repay)
    (hpart : pair.largestPartialRepay upper = .ok (some low)) (h1 : 1 ≤ x) (hxlow : x ≤ low) :
    pair.accepts x ≠ .ok false := by
  obtain ⟨lifted, pc, hl, hpc, hD, hpos, -, -⟩ := h.of_clearing hclear
  obtain ⟨floor, hfloor, -, -, -, hadmits, ⟨b₁, hb₁, hk₁⟩, ⟨b, hb, hk⟩, -⟩ :=
    h.partial_spec hclear hl hpc hfits hle hpart
  intro hrefused
  have hx : pair.Admits x := hadmits.mono hD hxlow
  obtain ⟨q, hq, -⟩ := accepts_eq_ok.mp hrefused
  obtain ⟨hno, -⟩ | ⟨-, bx, -, -, hbx, -⟩ := h.quote_cases hl hpc hD hpos h1 hq
  · exact hno hx
  · have hmax := h.buys_le_max (le_min zero_le_one hD.le) (min_le_min_right _ h1)
      (min_le_min_right _ hxlow) hb₁ hbx hb
    have hkeeps := h.keepsSides_between hk₁ hk hxlow hmax
    have := (h.accepted_iff hl hpc hD hpos hfloor hclear h1 hrefused).mpr ⟨hx, .inr ⟨bx, hbx, hkeeps⟩⟩
    cases this

/-- A partial repay that was found is at least every accepted offer that does not clear. -/
theorem Priced.le_partial (h : pair.Priced) (hclear : pair.clearing = .ok (some c))
    (hfits : Fits repay) (hle : upper ≤ repay)
    (hpart : pair.largestPartialRepay upper = .ok (some low)) (hx : x ≤ upper) (hlt : x < c.atSnapshot)
    (hacc : pair.accepts x = .ok true) : x ≤ low := by
  obtain ⟨lifted, pc, hl, hpc, hD, hpos, -, -⟩ := h.of_clearing hclear
  obtain ⟨floor, hfloor, hlow, -, -, -, ⟨b₁, hb₁, hk₁⟩, -, hnext⟩ :=
    h.partial_spec hclear hl hpc hfits hle hpart
  by_contra hgt
  obtain ⟨-, hclears | ⟨bx, hbx, hkx⟩⟩ :=
    (h.accepted_iff hl hpc hD hpos hfloor hclear (by omega) hacc).mp rfl
  · omega
  · rcases hnext with heq | hfails
    · omega
    · -- the repay after `low` lies between the first one and `x`
      obtain ⟨b, hb, hiff⟩ := keepsBothSides_eq_ok hfloor hfails
      have hmax := h.buys_le_max (le_min zero_le_one hD.le) (min_le_min_right _ (by omega))
        (min_le_min_right _ (by omega)) hb₁ hb hbx
      exact absurd (hiff.mpr (h.keepsSides_between hk₁ hkx (by omega) hmax)) (by decide)

end Partial

/-! ## Wider margins -/

theorem grown_le_grown {y bps bps' g g' : ℤ} (h0 : 0 ≤ bps) (hle : bps ≤ bps') (hg : grown y bps = .ok g)
    (hg' : grown y bps' = .ok g') : g ≤ g' ∨ g ≤ 0 ∧ g' ≤ 0 := by
  obtain ⟨-, rfl⟩ := grown_eq_ok.mp hg
  obtain ⟨-, rfl⟩ := grown_eq_ok.mp hg'
  rcases le_or_gt 0 y with hy | hy
  · exact .inl (add_le_add_right (fixedMulCeil_mono (mul_le_mul_of_nonneg_left hle hy)) y)
  · have hceil : ∀ b : ℤ, 0 ≤ b → fixedMulCeil y b ≤ 0 := fun b hb =>
      fixedMulCeil_nonpos (mul_nonpos_of_nonpos_of_nonneg hy.le hb)
    exact .inr ⟨add_nonpos hy.le (hceil bps h0), add_nonpos hy.le (hceil bps' (h0.trans hle))⟩

/-- **A wider margin moves only the padded offer, and up.** -/
theorem clearing_margins (hclear : (pair.withMargin .initial).clearing = .ok (some c))
    (hclear' : (pair.withMargin .retry).clearing = .ok (some c')) :
    c'.atSnapshot = c.atSnapshot ∧ (c.offer ≤ c'.offer ∨ c.offer ≤ 0 ∧ c'.offer ≤ 0) := by
  obtain ⟨lifted, hl⟩ := lifts_of_clearing hclear
  have hl' : (pair.withMargin .retry).liftsCloseFactor = .ok lifted := hl
  obtain ⟨S, hS, -, -, -, gD, buying, at?, hgD, hbuying, hoffer, hat, hsnap⟩ := clearing_spec hl hclear
  obtain ⟨S', hS', -, -, -, gD', buying', at?', hgD', hbuying', hoffer', hat', hsnap'⟩ :=
    clearing_spec hl' hclear'
  obtain rfl : S = S' := ok_unique hS hS'
  obtain rfl : gD = gD' := ok_unique hgD hgD'
  obtain rfl : buying = buying' := ok_unique hbuying hbuying'
  obtain rfl : at? = at?' := ok_unique hat hat'
  refine ⟨hsnap'.trans hsnap.symm, ?_⟩
  have hrefunded : 0 ≤ ClearingMargin.initial.refundedBps ∧
      ClearingMargin.initial.refundedBps ≤ ClearingMargin.retry.refundedBps := by decide
  have hunrefunded : 0 ≤ ClearingMargin.initial.unrefundedBps ∧
      ClearingMargin.initial.unrefundedBps ≤ ClearingMargin.retry.unrefundedBps := by decide
  cases buying with
  | none => exact grown_le_grown hrefunded.1 hrefunded.2 hoffer hoffer'
  | some y =>
    obtain ⟨small, hsmall, hoffer⟩ := bind_eq_ok.mp hoffer
    obtain ⟨small', hsmall', hoffer'⟩ := bind_eq_ok.mp hoffer'
    obtain rfl : small = small' := ok_unique hsmall hsmall'
    cases small with
    | true => exact grown_le_grown hrefunded.1 hrefunded.2 hoffer hoffer'
    | false => exact grown_le_grown hunrefunded.1 hunrefunded.2 hoffer hoffer'

/-! ## The two branches of the fit -/

section Branches

variable {maxOffer maxOffer' o : ℤ} {r : Option ℤ}

/-- **A repay that clears.** The second fit offers as much exactly when the close factor lets its padded offer
through wherever it lets the first one through. -/
theorem padded_grows_iff (hrules : pair.rules = .noDust) (hclear : pair.clearing = .ok (some c))
    (hat : c'.atSnapshot = c.atSnapshot) (hfits : Fits repay) (hmax : repay ≤ maxOffer)
    (hmax' : repay ≤ maxOffer') (hle : c.atSnapshot ≤ repay)
    (hpad : c.padded repay maxOffer ≤ c'.padded repay maxOffer')
    (hfit : pair.fitFrom c repay maxOffer = .ok (some o)) (hfit' : pair.fitFrom c' repay maxOffer' = .ok r) :
    (∃ o' ∈ r, o ≤ o') ↔ (pair.Priced → pair.Admits (c.padded repay maxOffer) →
      pair.Admits (c'.padded repay maxOffer')) := by
  have hge : repay ≤ c.padded repay maxOffer := le_min (le_max_left _ _) hmax
  have hge' : repay ≤ c'.padded repay maxOffer' := hge.trans hpad
  obtain ⟨lifted, hl⟩ := lifts_of_clearing hclear
  obtain ⟨S, -, hpc, -⟩ := clearing_spec hl hclear
  have hadmits := fun (h : pair.Priced) {x : ℤ} {a : Bool} (hx : repay ≤ x) (ha : pair.accepts x = .ok a) =>
    h.accepts_clearing_iff hclear (hle.trans hx) ha
  rcases (fitFrom_clears (hat.symm ▸ hle)).mp hfit' with ⟨hacc', rfl⟩ | ⟨href', hpart'⟩
  · -- the second padded offer is taken, and is at least whatever the first fit found
    refine iff_of_true ⟨_, rfl, ?_⟩ fun h _ => (hadmits h hge' hacc').mp rfl
    obtain ⟨-, heq⟩ | ⟨href, hpart⟩ := (fitFrom_clears hle).mp hfit
    · rw [Option.some.inj heq]
      exact hpad
    · have h := (priced_of_refused hrules hpc href).1
      obtain ⟨-, -, -, hlow, -⟩ := h.partial_spec hclear hl hpc hfits (min_le_left _ _) hpart
      omega
  · have h := (priced_of_refused hrules hpc href').1
    have hno : ¬ pair.Admits (c'.padded repay maxOffer') :=
      fun ha => absurd ((hadmits h hge' href').mpr ha) (by decide)
    rw [min_eq_left hmax'] at hpart'
    obtain ⟨hacc, heq⟩ | ⟨href, hpart⟩ := (fitFrom_clears hle).mp hfit
    · refine iff_of_false ?_ fun hkeep => hno (hkeep h ((hadmits h hge hacc).mp rfl))
      rintro ⟨o', ho', hoo'⟩
      rw [Option.mem_def.mp ho'] at hpart'
      obtain ⟨-, -, -, -, hlt, -⟩ := h.partial_spec hclear hl hpc hfits le_rfl hpart'
      rw [Option.some.inj heq] at hoo'
      omega
    · rw [min_eq_left hmax] at hpart
      obtain rfl := ok_unique hpart hpart'
      exact iff_of_true ⟨o, rfl, le_rfl⟩ fun _ ha => absurd ((hadmits h hge href).mpr ha) (by decide)

/-- **A repay that does not clear.** Where the market refuses it and takes the first clearing offer, the
second fit offers as much exactly when the market takes a second clearing offer that is no smaller or, with
none taken, a partial repay is found and the first clearing offer was under the repay. -/
theorem below_grows_iff (hrules : pair.rules = .noDust) (hclear : pair.clearing = .ok (some c))
    (hat : c'.atSnapshot = c.atSnapshot) (hfits : Fits repay)
    (hupper : min repay maxOffer' = min repay maxOffer) (hlt : repay < c.atSnapshot)
    (hoffer : c.offer ≤ c'.offer ∨ c.offer ≤ 0 ∧ c'.offer ≤ 0)
    (hfit : pair.fitFrom c repay maxOffer = .ok (some o)) (hfit' : pair.fitFrom c' repay maxOffer' = .ok r) :
    (∃ o' ∈ r, o ≤ o') ↔ (pair.accepts repay = .ok false → pair.Takes c maxOffer →
      pair.Takes c' maxOffer' ∧ c.offer ≤ c'.offer ∨
      ¬ pair.Takes c' maxOffer' ∧ c.offer ≤ repay ∧
        ∃ low, pair.largestPartialRepay (min repay maxOffer) = .ok (some low)) := by
  obtain ⟨lifted, hl⟩ := lifts_of_clearing hclear
  obtain ⟨S, -, hpc, -⟩ := clearing_spec hl hclear
  have hle : min repay maxOffer ≤ repay := min_le_left _ _
  have hcases' := fitFrom_below (hat.symm ▸ hlt) hfit'
  rw [hupper] at hcases'
  obtain ⟨hacc, heq⟩ | ⟨href, ⟨htakes, heq⟩ | ⟨hnot, hpart⟩⟩ := fitFrom_below hlt hfit
  · -- the repay itself is taken, both times
    obtain ⟨-, rfl⟩ | ⟨href', -⟩ := hcases'
    · refine iff_of_true ⟨repay, rfl, (Option.some.inj heq).le⟩ fun href => ?_
      exact absurd (ok_unique hacc href) (by decide)
    · exact absurd (ok_unique hacc href') (by decide)
  · obtain rfl := Option.some.inj heq
    have h := (priced_of_refused hrules hpc href).1
    simp only [href, htakes, forall_const]
    obtain ⟨hacc', -⟩ | ⟨-, ⟨htakes', rfl⟩ | ⟨hnot', hpart'⟩⟩ := hcases'
    · exact absurd (ok_unique hacc' href) (by decide)
    · simp [htakes']
    · have hno : ¬ pair.Takes c' maxOffer' :=
        fun ht => absurd (ok_unique ht.2 (hnot' ht.1)) (by decide)
      simp only [hno, false_and, not_false_eq_true, true_and, false_or, hpart', Except.ok.injEq]
      constructor
      · rintro ⟨low, hlow, hol⟩
        obtain rfl := Option.mem_def.mp hlow
        obtain ⟨-, -, -, hlu, -⟩ := h.partial_spec hclear hl hpc hfits hle hpart'
        exact ⟨by omega, low, rfl⟩
      · rintro ⟨hor, low, rfl⟩
        have hlow := h.le_partial hclear hfits hle hpart' (le_min hor htakes.1) (hor.trans_lt hlt) htakes.2
        exact ⟨low, rfl, hlow⟩
  · have h := (priced_of_refused hrules hpc href).1
    have hno : ¬ pair.Takes c maxOffer := fun ht => absurd (ok_unique ht.2 (hnot ht.1)) (by decide)
    refine iff_of_true ?_ fun _ ht => absurd ht hno
    obtain ⟨-, -, hlow, hlu, -⟩ := h.partial_spec hclear hl hpc hfits hle hpart
    obtain ⟨hacc', -⟩ | ⟨-, ⟨htakes', rfl⟩ | ⟨-, hpart'⟩⟩ := hcases'
    · exact absurd (ok_unique hacc' href) (by decide)
    · refine ⟨_, rfl, ?_⟩
      rcases le_or_gt c.offer maxOffer with hafford | hdear
      · -- a refused clearing offer is over every partial repay
        have hone := (priced_of_refused hrules hpc (hnot hafford)).2
        by_contra hsmall
        exact h.accepts_of_le_partial hclear hfits hle hpart hone (by omega) (hnot hafford)
      · omega
    · exact ⟨o, Option.mem_def.mpr (ok_unique hpart' hpart), le_rfl⟩

end Branches

/-! ## Growing fits -/

/-- A padded repay that clears stays within the close factor. -/
def PadsWithin (pair : LiquidationPair) (c c' : Clearing) (repay maxOffer maxOffer' : ℤ) : Prop :=
  c.atSnapshot ≤ repay → pair.Priced → pair.Admits (c.padded repay maxOffer) →
    pair.Admits (c'.padded repay maxOffer')

/-- A clearing offer the market takes for a refused repay is followed by one it takes, no smaller. Without
one, a partial repay makes up for a clearing offer under the repay. -/
def TakesAgain (pair : LiquidationPair) (c c' : Clearing) (repay maxOffer : ℤ) : Prop :=
  repay < c.atSnapshot → pair.accepts repay = .ok false → pair.Takes c maxOffer →
    pair.Takes c' maxOffer ∧ c.offer ≤ c'.offer ∨
    ¬ pair.Takes c' maxOffer ∧ c.offer ≤ repay ∧
      ∃ low, pair.largestPartialRepay (min repay maxOffer) = .ok (some low)

section Margin

variable {margin : ClearingMargin}

theorem accepts_withMargin : (pair.withMargin margin).accepts = pair.accepts := rfl

theorem largestPartialRepay_withMargin :
    (pair.withMargin margin).largestPartialRepay = pair.largestPartialRepay := rfl

theorem fitFrom_withMargin : (pair.withMargin margin).fitFrom = pair.fitFrom := by
  funext c repay maxOffer
  simp only [fitFrom, accepts_withMargin, largestPartialRepay_withMargin]

theorem padsWithin_withMargin {maxOffer maxOffer' : ℤ} :
    (pair.withMargin margin).PadsWithin c c' repay maxOffer maxOffer' ↔
      pair.PadsWithin c c' repay maxOffer maxOffer' := by
  have hpriced : (pair.withMargin margin).Priced ↔ pair.Priced :=
    ⟨fun h => ⟨h.rules, h.borrowPrice, h.collateralPrice⟩,
      fun h => ⟨h.rules, h.borrowPrice, h.collateralPrice⟩⟩
  have hadmits : (pair.withMargin margin).Admits = pair.Admits := rfl
  rw [PadsWithin, PadsWithin, hpriced, hadmits]

theorem takesAgain_withMargin {maxOffer : ℤ} :
    (pair.withMargin margin).TakesAgain c c' repay maxOffer ↔ pair.TakesAgain c c' repay maxOffer := by
  simp only [TakesAgain, Takes, accepts_withMargin, largestPartialRepay_withMargin]

end Margin

section Growth

variable {maxOffer maxOffer' o : ℤ} {r : Option ℤ}

theorem fitRepay_of_clearing_none (hrules : pair.rules = .noDust) (hclear : pair.clearing = .ok none) :
    pair.fitRepay repay maxOffer = pair.accepts repay >>= fun a =>
      if a = true then pure (some repay) else pair.largestPartialRepay (min repay maxOffer) := by
  rw [fitRepay, if_neg (by rw [hrules]; decide), hclear, ok_bind]

/-- Whether there is a side to clear does not depend on the margin. -/
theorem clearing_none_of_margin {margin margin' : ClearingMargin}
    (h : (pair.withMargin margin).clearing = .ok none) :
    (pair.withMargin margin').clearing ≠ .ok (some c) := by
  intro hclear
  obtain ⟨lifted, hl⟩ := lifts_of_clearing hclear
  obtain ⟨S, -, hpc, hD, hpos, -⟩ := clearing_spec hl hclear
  have hpc' : (pair.withMargin margin).positionCollateral = .ok (S + pair.deposit.collateral) := hpc
  obtain ⟨c', hsome⟩ := clearing_some hpc' hD hpos ⟨_, h⟩
  cases ok_unique h hsome

theorem budget_grows_iff (hrules : pair.rules = .noDust) (hfits : Fits repay) (hmax : repay ≤ maxOffer)
    (hle : maxOffer ≤ maxOffer') (hfit : pair.fitRepay repay maxOffer = .ok (some o))
    (hfit' : pair.fitRepay repay maxOffer' = .ok r) :
    (∃ o' ∈ r, o ≤ o') ↔
      ∀ c, pair.clearing = .ok (some c) → pair.PadsWithin c c repay maxOffer maxOffer' := by
  have hupper : min repay maxOffer' = min repay maxOffer := by omega
  obtain ⟨c?, hclear⟩ := clearing_of_fitRepay hrules ⟨_, hfit⟩
  cases c? with
  | none =>
    rw [fitRepay_of_clearing_none hrules hclear] at hfit hfit'
    rw [hupper] at hfit'
    obtain rfl := ok_unique hfit hfit'
    exact iff_of_true ⟨o, rfl, le_rfl⟩ fun c hc => by cases ok_unique hclear hc
  | some c =>
    rw [fitRepay_eq_fitFrom hrules hclear] at hfit hfit'
    simp only [hclear, Except.ok.injEq, Option.some.injEq, forall_eq', PadsWithin]
    rcases le_or_gt c.atSnapshot repay with hat | hlt
    · have hpad : c.padded repay maxOffer ≤ c.padded repay maxOffer' := min_le_min_left _ hle
      rw [padded_grows_iff hrules hclear rfl hfits hmax (hmax.trans hle) hat hpad hfit hfit']
      simp only [hat, forall_const]
    · rw [below_grows_iff hrules hclear rfl hfits hupper hlt (.inl le_rfl) hfit hfit']
      refine iff_of_true (fun _ ht => .inl ⟨⟨ht.1.trans hle, ht.2⟩, le_rfl⟩) fun hat => ?_
      exact absurd hat (not_le.mpr hlt)

theorem padding_grows_iff (hrules : pair.rules = .noDust) (h1 : 1 ≤ repay) (hfits : Fits repay)
    (hclear : pair.clearing = .ok (some c)) (hat : c'.atSnapshot = c.atSnapshot)
    (hoffer : c.offer ≤ c'.offer ∨ c.offer ≤ 0 ∧ c'.offer ≤ 0)
    (hfit : pair.fitFrom c repay maxOffer = .ok (some o)) (hfit' : pair.fitFrom c' repay maxOffer = .ok r) :
    (∃ o' ∈ r, o ≤ o') ↔
      pair.PadsWithin c c' repay maxOffer maxOffer ∧ pair.TakesAgain c c' repay maxOffer := by
  rcases lt_or_ge repay c.atSnapshot with hlt | hge
  · have hpads : pair.PadsWithin c c' repay maxOffer maxOffer := fun hle => absurd hle (not_le.mpr hlt)
    rw [and_iff_right hpads, below_grows_iff hrules hclear hat hfits rfl hlt hoffer hfit hfit']
    exact ⟨fun h _ => h, fun h => h hlt⟩
  · have htakes : pair.TakesAgain c c' repay maxOffer := fun hlt => absurd hge (not_le.mpr hlt)
    rw [and_iff_left htakes]
    rcases le_or_gt repay maxOffer with hmax | hshort
    · have hpad : c.padded repay maxOffer ≤ c'.padded repay maxOffer := by
        unfold Clearing.padded
        omega
      rw [padded_grows_iff hrules hclear hat hfits hmax hmax hge hpad hfit hfit']
      exact ⟨fun h _ => h, fun h => h hge⟩
    · -- the budget clips both paddings to itself
      have hclip : ∀ d : Clearing, min (max repay d.offer) maxOffer = maxOffer := by
        intro d
        omega
      have hsame : pair.fitFrom c' repay maxOffer = pair.fitFrom c repay maxOffer := by
        rw [fitFrom, fitFrom, hat]
        simp only [hclip, if_pos hge]
      obtain rfl := ok_unique hfit (hsame ▸ hfit')
      refine iff_of_true ⟨o, rfl, le_rfl⟩ fun _ _ hadmits => ?_
      rw [Clearing.padded, hclip] at hadmits ⊢
      exact hadmits

theorem margin_grows_iff (hrules : pair.rules = .noDust) (h1 : 1 ≤ repay) (hfits : Fits repay)
    (hfit : (pair.withMargin .initial).fitRepay repay maxOffer = .ok (some o))
    (hfit' : (pair.withMargin .retry).fitRepay repay maxOffer = .ok r) :
    (∃ o' ∈ r, o ≤ o') ↔ ∀ c, (pair.withMargin .initial).clearing = .ok (some c) →
      ∀ c', (pair.withMargin .retry).clearing = .ok (some c') →
        pair.PadsWithin c c' repay maxOffer maxOffer ∧ pair.TakesAgain c c' repay maxOffer := by
  have hrules₁ : (pair.withMargin .initial).rules = .noDust := hrules
  have hrules₂ : (pair.withMargin .retry).rules = .noDust := hrules
  obtain ⟨c?, hclear⟩ := clearing_of_fitRepay hrules₁ ⟨_, hfit⟩
  obtain ⟨c?', hclear'⟩ := clearing_of_fitRepay hrules₂ ⟨_, hfit'⟩
  cases c? with
  | none =>
    cases c?' with
    | some c' => exact absurd hclear' (clearing_none_of_margin hclear)
    | none =>
      rw [fitRepay_of_clearing_none hrules₁ hclear] at hfit
      rw [fitRepay_of_clearing_none hrules₂ hclear'] at hfit'
      obtain rfl := ok_unique hfit hfit'
      exact iff_of_true ⟨o, rfl, le_rfl⟩ fun c hc => by cases ok_unique hclear hc
  | some c =>
    cases c?' with
    | none => exact absurd hclear (clearing_none_of_margin hclear')
    | some c' =>
      obtain ⟨hat, hoffer⟩ := clearing_margins hclear hclear'
      rw [fitRepay_eq_fitFrom hrules₁ hclear] at hfit
      rw [fitRepay_eq_fitFrom hrules₂ hclear'] at hfit'
      simp only [hclear, hclear', Except.ok.injEq, Option.some.injEq, forall_eq']
      rw [fitFrom_withMargin, ← @fitFrom_withMargin pair .initial] at hfit'
      rw [padding_grows_iff hrules₁ h1 hfits hclear hat hoffer hfit hfit', padsWithin_withMargin,
        takesAgain_withMargin]

end Growth

end LiquidationPair

open LiquidationPair

/-- **When a larger budget or the margin of the retry never shrinks the fit.** -/
theorem fit_grows_iff {pair : LiquidationPair} {repay : ℤ} (hrules : pair.rules = .noDust) (h1 : 1 ≤ repay)
    (hfits : Fits repay) :
    (∀ maxOffer maxOffer' o r, repay ≤ maxOffer → maxOffer ≤ maxOffer' →
      pair.fitRepay repay maxOffer = .ok (some o) → pair.fitRepay repay maxOffer' = .ok r →
      ((∃ o' ∈ r, o ≤ o') ↔
        ∀ c, pair.clearing = .ok (some c) → pair.PadsWithin c c repay maxOffer maxOffer')) ∧
    ∀ maxOffer o r, (pair.withMargin .initial).fitRepay repay maxOffer = .ok (some o) →
      (pair.withMargin .retry).fitRepay repay maxOffer = .ok r →
      ((∃ o' ∈ r, o ≤ o') ↔ ∀ c, (pair.withMargin .initial).clearing = .ok (some c) →
        ∀ c', (pair.withMargin .retry).clearing = .ok (some c') →
          pair.PadsWithin c c' repay maxOffer maxOffer ∧ pair.TakesAgain c c' repay maxOffer) := by
  constructor
  · intro maxOffer maxOffer' o r hmax hle hfit hfit'
    exact budget_grows_iff hrules hfits hmax hle hfit hfit'
  · intro maxOffer o r hfit hfit'
    exact margin_grows_iff hrules h1 hfits hfit hfit'

theorem small_pair_fit_grows :
    (dustPair 50000000 200000000).fitRepay 49999999 50500000 = .ok (some 50500000) ∧
      (dustPair 50000000 200000000).fitRepay 49999999 60000000 = .ok (some 50500000) ∧
      (∀ c, (dustPair 50000000 200000000).clearing = .ok (some c) →
        (dustPair 50000000 200000000).PadsWithin c c 49999999 50500000 60000000) ∧
      ((dustPair 50000000 200000000).withMargin .initial).fitRepay 49999999 53000000 =
        .ok (some 50500000) ∧
      ((dustPair 50000000 200000000).withMargin .retry).fitRepay 49999999 53000000 =
        .ok (some 52500000) ∧
      (dustPair 50000000 200000000).TakesAgain ⟨50000000, 50500000⟩ ⟨50000000, 52500000⟩ 49999999
        53000000 := by
  have hfit₁ : (dustPair 50000000 200000000).fitRepay 49999999 50500000 = .ok (some 50500000) := by
    decide +kernel
  have hfit₂ : (dustPair 50000000 200000000).fitRepay 49999999 60000000 = .ok (some 50500000) := by
    decide +kernel
  have hfit₃ : ((dustPair 50000000 200000000).withMargin .initial).fitRepay 49999999 53000000 =
      .ok (some 50500000) := by decide +kernel
  have hfit₄ : ((dustPair 50000000 200000000).withMargin .retry).fitRepay 49999999 53000000 =
      .ok (some 52500000) := by decide +kernel
  obtain ⟨hbudget, hmargin⟩ :=
    @fit_grows_iff (dustPair 50000000 200000000) 49999999 rfl (by decide) (by decide)
  refine ⟨hfit₁, hfit₂, (hbudget _ _ _ _ (by decide) (by decide) hfit₁ hfit₂).mp ⟨_, rfl, le_rfl⟩, hfit₃,
    hfit₄, ?_⟩
  exact ((hmargin _ _ _ hfit₃ hfit₄).mp ⟨_, rfl, by decide⟩ _ (by decide +kernel) _
    (by decide +kernel)).2

/-- GOLD beside other collateral of the obligation, enough of it for the incentive to bind. -/
def mixedPair : LiquidationPair :=
  { dustPair 1000000000 549000000 with obligationCollateralValue := 12000000000000000 }

/-- A larger budget pads over the close factor, and the retry pads over the budget. -/
theorem larger_budget_and_margin_shrink_the_fit :
    (mixedPair.withMargin .retry).rules = .noDust ∧
      (mixedPair.withMargin .retry).fitRepay 499090910 500000000 = .ok (some 500000000) ∧
      (mixedPair.withMargin .retry).fitRepay 499090910 600000000 = .ok (some 453636364) ∧
      ((dustPair 50000000 200000000).withMargin .initial).rules = .noDust ∧
      ((dustPair 50000000 200000000).withMargin .initial).fitRepay 49999999 51000000 =
        .ok (some 50500000) ∧
      ((dustPair 50000000 200000000).withMargin .retry).fitRepay 49999999 51000000 = .ok none :=
  ⟨rfl, by decide +kernel, by decide +kernel, rfl, by decide +kernel, by decide +kernel⟩

end AlulaKeeper
