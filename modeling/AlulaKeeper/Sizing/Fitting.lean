import Mathlib
import AlulaKeeper.Sizing.Clears

/-!
# The fitted repay

`fitRepay` looks at the planned repay, at the padded clearing offer and at the largest partial repay. The
offers the market accepts are those that clear and, below them, those that keep both sides over the floor.

* `LiquidationPair.KeepsSides`: both sides left are worth the floor.
* `LiquidationPair.Priced.accepted_iff`: the offers the market accepts.
* `LiquidationPair.largestPartialRepay_eq_ok`: what the search for a partial repay finds.
* `gives_up_iff`: when a fit that gives up left nothing.
-/

namespace AlulaKeeper

open I128

/-- The padded offer for a repay that clears, up to the budget. -/
def Clearing.padded (c : Clearing) (repay maxOffer : ℤ) : ℤ := min (max repay c.offer) maxOffer

namespace LiquidationPair

/-- A repay `x` for `bought` leaves both sides positive and worth `floor`. -/
structure KeepsSides (pair : LiquidationPair) (floor pc x bought : ℤ) : Prop where
  debt : x < pair.positionDebt
  collateral : bought < pc
  collateralWorth : ∀ w, valueFloor (pc - bought) pair.collateralPool = .ok w → floor ≤ w
  debtWorth : ∀ w, valueCeil (pair.positionDebt - x) pair.borrowPool = .ok w → floor ≤ w

variable {pair : LiquidationPair} {lifted : Bool} {pc floor offer : ℤ} {q : Seizure} {c : Clearing}

/-! ## Partial repays -/

theorem leavesDust_eq_ok {x b : ℤ} {dust : Bool} (hfloor : pair.dustFloor = .ok floor)
    (hx : x < pair.positionDebt) (hb : b < pc)
    (h : pair.leavesDust (pc - b) (pair.positionDebt - x) = .ok dust) :
    dust = false ↔ pair.KeepsSides floor pc x b := by
  rw [leavesDust, if_neg (by omega), hfloor, ok_bind] at h
  obtain ⟨w, hw, h⟩ := bind_eq_ok.mp h
  by_cases hlt : w < floor
  · rw [if_pos hlt] at h
    obtain rfl := pure_eq_ok.mp h
    exact iff_of_false (by decide) fun hk => absurd (hk.collateralWorth w hw) (not_le.mpr hlt)
  · rw [if_neg hlt] at h
    obtain ⟨w', hw', h⟩ := bind_eq_ok.mp h
    rw [← pure_eq_ok.mp h, decide_eq_false_iff_not, not_lt]
    constructor
    · intro hge
      refine ⟨hx, hb, fun u hu => ?_, fun u hu => ?_⟩
      · rw [ok_unique hu hw]
        exact not_lt.mp hlt
      · rw [ok_unique hu hw']
        exact hge
    · exact fun hk => hk.debtWorth w' hw'

theorem keepsBothSides_eq_ok {x : ℤ} {v : Bool} (hfloor : pair.dustFloor = .ok floor)
    (h : pair.keepsBothSides lifted floor pc x = .ok v) :
    ∃ b, pair.buys (min x pair.positionDebt) lifted = .ok b ∧
      (v = true ↔ pair.KeepsSides floor pc x b) := by
  obtain ⟨b, hb, h⟩ := bind_eq_ok.mp h
  simp only [bind_eq_ok, rawSub_eq_ok] at h
  obtain ⟨_, ⟨-, rfl⟩, _, ⟨-, rfl⟩, h⟩ := h
  refine ⟨b, hb, ?_⟩
  by_cases hs : pc - min pc b > 0 ∧ pair.positionDebt - min x pair.positionDebt > 0
  · have hbpc : min pc b = b := by omega
    have hx : min x pair.positionDebt = x := by omega
    rw [if_neg (not_not.mpr hs), hbpc, hx] at h
    obtain ⟨w, hw, h⟩ := bind_eq_ok.mp h
    -- the search asks the opposite of the dust check
    have hdust : pair.leavesDust (pc - b) (pair.positionDebt - x) = .ok (!v) := by
      rw [leavesDust, if_neg (by omega), hfloor, ok_bind, hw, ok_bind]
      by_cases hlt : w < floor
      · rw [if_pos hlt] at h ⊢
        rw [← pure_eq_ok.mp h]
        rfl
      · rw [if_neg hlt] at h ⊢
        obtain ⟨w', hw', h⟩ := bind_eq_ok.mp h
        rw [hw', ok_bind, ← pure_eq_ok.mp h, pure_eq_ok]
        simp only [ge_iff_le, ← not_lt, decide_not, Bool.not_not]
    rw [← leavesDust_eq_ok hfloor (by omega) (by omega) hdust, Bool.not_eq_false']
  · rw [if_pos hs] at h
    obtain rfl := pure_eq_ok.mp h
    refine iff_of_false (by decide) fun hk => hs ?_
    have := hk.debt
    have := hk.collateral
    omega

/-- Between two repays that keep both sides, every repay that buys no more than the better of them does. -/
theorem Priced.keepsSides_between {y x z by' bx bz : ℤ} (h : pair.Priced)
    (hy : pair.KeepsSides floor pc y by') (hz : pair.KeepsSides floor pc z bz) (hxz : x ≤ z)
    (hbx : bx ≤ max by' bz) : pair.KeepsSides floor pc x bx := by
  have hyc := hy.collateral
  have hzc := hz.collateral
  have hzd := hz.debt
  refine ⟨by omega, by omega, fun w hw => ?_, fun w hw => ?_⟩
  · have hd : Downward (valueFloor · pair.collateralPool) := downward_valueFloor h.collateralPrice.le
    rcases le_total by' bz with hle | hle
    · have hleft : pc - bz ≤ pc - bx := by omega
      obtain ⟨u, hu⟩ := hd.returns (by omega) hleft ⟨w, hw⟩
      exact (hz.collateralWorth u hu).trans (hd.mono (by omega) hleft hu hw)
    · have hleft : pc - by' ≤ pc - bx := by omega
      obtain ⟨u, hu⟩ := hd.returns (by omega) hleft ⟨w, hw⟩
      exact (hy.collateralWorth u hu).trans (hd.mono (by omega) hleft hu hw)
  · have hd : Downward (valueCeil · pair.borrowPool) := downward_valueCeil h.borrowPrice.le
    have hleft : pair.positionDebt - z ≤ pair.positionDebt - x := by omega
    obtain ⟨u, hu⟩ := hd.returns (by omega) hleft ⟨w, hw⟩
    exact (hz.debtWorth u hu).trans (hd.mono (by omega) hleft hu hw)

/-- **What the search for a partial repay finds**: the last repay that keeps both sides, if the market
accepts it. -/
theorem largestPartialRepay_eq_ok {upper : ℤ} {r : Option ℤ} (hl : pair.liftsCloseFactor = .ok lifted)
    (hpc : pair.positionCollateral = .ok pc) (h1 : 1 ≤ upper) (hfit : Fits upper)
    (h : pair.largestPartialRepay upper = .ok r) :
    ∃ floor, pair.dustFloor = .ok floor ∧
      (pair.keepsBothSides lifted floor pc 1 = .ok false ∧ r = none ∨
        ∃ low a, pair.keepsBothSides lifted floor pc 1 = .ok true ∧ 1 ≤ low ∧ low ≤ upper ∧
          pair.keepsBothSides lifted floor pc low = .ok true ∧
          (low = upper ∨ pair.keepsBothSides lifted floor pc (low + 1) = .ok false) ∧
          pair.accepts low = .ok a ∧ r = if a then some low else none) := by
  rw [largestPartialRepay, hpc, ok_bind, hl, ok_bind] at h
  obtain ⟨floor, hfloor, h⟩ := bind_eq_ok.mp h
  refine ⟨floor, hfloor, ?_⟩
  rw [if_neg (by omega)] at h
  obtain ⟨keeps, hkeeps, h⟩ := bind_eq_ok.mp h
  cases keeps with
  | false => exact .inl ⟨hkeeps, (pure_eq_ok.mp h).symm⟩
  | true =>
    obtain ⟨low, hlow, h⟩ := bind_eq_ok.mp h
    obtain ⟨q, hq, h⟩ := bind_eq_ok.mp h
    obtain ⟨hmem, hle, -, hnext⟩ := Search.greatestFrom_spec le_rfl h1 hfit le_rfl hlow
    refine .inr ⟨low, q.isAccepted, hkeeps, hmem, hle,
      Search.greatest_passes le_rfl h1 hfit hlow hkeeps, hnext, ?_, ?_⟩
    · rw [accepts, hq, ok_bind]
      rfl
    · split_ifs at h ⊢ with hacc
      · exact (pure_eq_ok.mp h).symm
      · exact (pure_eq_ok.mp h).symm

/-! ## The offers the market accepts -/

theorem accepts_eq_ok {a : Bool} :
    pair.accepts offer = .ok a ↔ ∃ q, pair.quote offer = .ok q ∧ q.isAccepted = a := by
  simp only [accepts, bind_eq_ok, pure_eq_ok]

theorem accepts_iff : pair.accepts offer = .ok true ↔
    ∃ seized repaid, pair.quote offer = .ok (.accepted seized repaid) := by
  rw [accepts_eq_ok]
  constructor
  · rintro ⟨q, hq, hacc⟩
    cases q with
    | accepted seized repaid => exact ⟨seized, repaid, hq⟩
    | overCloseFactor => cases hacc
    | leavesDust => cases hacc
  · rintro ⟨seized, repaid, hq⟩
    exact ⟨_, hq, rfl⟩

theorem priced_of_refused (hrules : pair.rules = .noDust) (hpc : pair.positionCollateral = .ok pc)
    (h : pair.accepts x = .ok false) : pair.Priced ∧ 1 ≤ x := by
  have hn : ¬ pair.QuotesNothing x pc := by
    intro hnothing
    obtain ⟨q, hq, hacc⟩ := accepts_eq_ok.mp h
    rw [quote, hrules] at hq
    rw [← ok_unique (quoteNoDust_nothing hpc hnothing) hq] at hacc
    cases hacc
  unfold QuotesNothing at hn
  exact ⟨⟨hrules, by omega, by omega⟩, by omega⟩

section Accepted

variable (h : pair.Priced) (hl : pair.liftsCloseFactor = .ok lifted)
  (hpc : pair.positionCollateral = .ok pc) (hD : 0 < pair.positionDebt) (hpos : 0 < pc)

include h hl hpc hD hpos

omit hl hpc hD hpos in
/-- From the snapshot's clearing repay on, the close factor alone decides. -/
theorem Priced.accepts_clearing_iff {a : Bool} (hclear : pair.clearing = .ok (some c))
    (hle : c.atSnapshot ≤ offer) (ha : pair.accepts offer = .ok a) : a = true ↔ pair.Admits offer := by
  obtain ⟨lifted, pc, hl, hpc, hD, hpos, h1, -⟩ := h.of_clearing hclear
  have hone : 1 ≤ offer := h1.trans hle
  obtain ⟨q, hq, rfl⟩ := accepts_eq_ok.mp ha
  obtain ⟨hno, rfl⟩ | ⟨hadmits, -⟩ := h.quote_cases hl hpc hD hpos hone hq
  · exact iff_of_false (by decide) hno
  · obtain ⟨s, r, hacc, -⟩ := (h.clears_iff_atSnapshot_le hclear hone hq).mpr ⟨hle, hadmits⟩
    rw [ok_unique hq hacc]
    exact iff_of_true rfl hadmits

/-- **The offers the market accepts** clear, or keep both sides. -/
theorem Priced.accepted_iff {a : Bool} (hfloor : pair.dustFloor = .ok floor)
    (hclear : pair.clearing = .ok (some c)) (h1 : 1 ≤ offer) (ha : pair.accepts offer = .ok a) :
    a = true ↔ pair.Admits offer ∧ (c.atSnapshot ≤ offer ∨
      ∃ b, pair.buys (min offer pair.positionDebt) lifted = .ok b ∧ pair.KeepsSides floor pc offer b) := by
  rcases le_or_gt c.atSnapshot offer with hle | hlt
  · rw [h.accepts_clearing_iff hclear hle ha]
    exact (and_iff_left (.inl hle)).symm
  · rw [or_iff_right (not_le.mpr hlt)]
    obtain ⟨q, hq, rfl⟩ := accepts_eq_ok.mp ha
    obtain ⟨hno, rfl⟩ | ⟨hadmits, b, repaid, dust, hb, hr, hd, rfl⟩ := h.quote_cases hl hpc hD hpos h1 hq
    · exact iff_of_false (by decide) fun hand => hno hand.1
    · rw [← not_le, h.atSnapshot_le_iff hl hpc hD hpos hclear h1 hb, not_or, not_le, not_le] at hlt
      have hmin : min pc b = b := by omega
      have hrepaid : repaid = offer := by
        have := ok_unique hr (refundedRepay_of_ne (by omega))
        omega
      rw [hmin, hrepaid] at hd
      simp only [hb, Except.ok.injEq, exists_eq_left', hadmits, true_and]
      rw [← leavesDust_eq_ok hfloor hlt.1 hlt.2 hd]
      cases dust <;> simp [Seizure.isAccepted]

end Accepted

/-- **What a partial repay that was found keeps.** -/
theorem Priced.partial_spec (h : pair.Priced) (hclear : pair.clearing = .ok (some c))
    (hl : pair.liftsCloseFactor = .ok lifted) (hpc : pair.positionCollateral = .ok pc)
    (hfits : Fits repay) (hle : upper ≤ repay)
    (hpart : pair.largestPartialRepay upper = .ok (some low)) :
    ∃ floor, pair.dustFloor = .ok floor ∧ 1 ≤ low ∧ low ≤ upper ∧ low < c.atSnapshot ∧ pair.Admits low ∧
      (∃ b, pair.buys (min 1 pair.positionDebt) lifted = .ok b ∧ pair.KeepsSides floor pc 1 b) ∧
      (∃ b, pair.buys (min low pair.positionDebt) lifted = .ok b ∧ pair.KeepsSides floor pc low b) ∧
      (low = upper ∨ pair.keepsBothSides lifted floor pc (low + 1) = .ok false) := by
  obtain ⟨lifted', pc', hl', hpc', hD, hpos, -, -⟩ := h.of_clearing hclear
  obtain rfl := ok_unique hl hl'
  obtain rfl := ok_unique hpc hpc'
  have hupper : 1 ≤ upper := by
    by_contra hlt
    rw [largestPartialRepay, hpc, ok_bind, hl, ok_bind] at hpart
    obtain ⟨floor, -, hpart⟩ := bind_eq_ok.mp hpart
    rw [if_pos (by omega)] at hpart
    cases pure_eq_ok.mp hpart
  obtain ⟨floor, hfloor, ⟨-, hbad⟩ | ⟨low', a, hone, hlow, hle', hpass, hnext, ha, hres⟩⟩ :=
    largestPartialRepay_eq_ok hl hpc hupper (hfits.of_nonneg_of_le (by omega) hle) hpart
  · cases hbad
  · cases a with
    | false => cases hres
    | true =>
      obtain rfl := Option.some.inj hres
      obtain ⟨b₁, hb₁, hiff₁⟩ := keepsBothSides_eq_ok hfloor hone
      obtain ⟨b, hb, hiff⟩ := keepsBothSides_eq_ok hfloor hpass
      have hkeeps := hiff.mp rfl
      have hlt : low < c.atSnapshot := by
        rw [← not_le, h.atSnapshot_le_iff hl hpc hD hpos hclear hlow hb]
        have := hkeeps.debt
        have := hkeeps.collateral
        omega
      have hadmits := ((h.accepted_iff hl hpc hD hpos hfloor hclear hlow ha).mp rfl).1
      exact ⟨floor, hfloor, hlow, hle', hlt, hadmits, ⟨b₁, hb₁, hiff₁.mp rfl⟩, ⟨b, hb, hkeeps⟩, hnext⟩

/-! ## The close factor and smaller offers -/

theorem Admits.mono {x y : ℤ} (hD : 0 < pair.positionDebt) (hxy : x ≤ y) (h : pair.Admits y) :
    pair.Admits x := by
  refine h.imp_right fun hle => le_trans (Int.ediv_le_ediv hD ?_) hle
  have hmin : min x pair.positionDebt * bpsFactor ≤ min y pair.positionDebt * bpsFactor :=
    mul_le_mul_of_nonneg_right (min_le_min_right _ hxy) bpsFactor_pos.le
  omega

theorem admits_of_le_cap {x : ℤ} (hD : 0 < pair.positionDebt) (hl : pair.liftsCloseFactor = .ok lifted)
    (h1 : 1 ≤ x) (hcap : x ≤ computeCloseFactorRepayCap lifted pair.positionDebt
      pair.borrowPool.liquidationCloseFactorBps) : pair.Admits x := by
  cases lifted with
  | true => exact .inl hl
  | false =>
    rw [computeCloseFactorRepayCap, if_neg (by decide)] at hcap
    refine .inr ?_
    have hpos : 0 ≤ pair.positionDebt * pair.borrowPool.liquidationCloseFactorBps := by
      by_contra hneg
      have := fixedMulFloor_nonpos (not_le.mp hneg).le
      omega
    have hle : min x pair.positionDebt * bpsFactor ≤
        pair.positionDebt * pair.borrowPool.liquidationCloseFactorBps :=
      calc min x pair.positionDebt * bpsFactor
          ≤ fixedMulFloor pair.positionDebt pair.borrowPool.liquidationCloseFactorBps * bpsFactor :=
            mul_le_mul_of_nonneg_right ((min_le_left _ _).trans hcap) bpsFactor_pos.le
        _ ≤ pair.positionDebt * pair.borrowPool.liquidationCloseFactorBps := fixedMulFloor_mul_le hpos
    have hlt : min x pair.positionDebt * bpsFactor + (pair.positionDebt - 1) <
        (pair.borrowPool.liquidationCloseFactorBps + 1) * pair.positionDebt := by
      linarith
    exact Int.lt_add_one_iff.mp (Int.ediv_lt_of_lt_mul hD hlt)

theorem fits_of_le_cap {x : ℤ} (hbuys : Returns (pair.buys pair.positionDebt lifted))
    (hb : 0 < pair.borrowPool.oracleAssetPrice) (hD : 0 < pair.positionDebt) (h1 : 1 ≤ x)
    (hcap : x ≤ computeCloseFactorRepayCap lifted pair.positionDebt
      pair.borrowPool.liquidationCloseFactorBps) : Fits x := by
  have hfits : Fits (computeCloseFactorRepayCap lifted pair.positionDebt
      pair.borrowPool.liquidationCloseFactorBps) := by
    cases lifted with
    | true => exact fits_of_buys hb hD.le hbuys
    | false => exact fits_clamp _
  exact hfits.of_nonneg_of_le (by omega) hcap

theorem overCloseFactor_returns_of_le {x y : ℤ} (hD : 0 < pair.positionDebt) (h0 : 0 ≤ x) (hxy : x ≤ y)
    (h : Returns (pair.overCloseFactor y lifted)) : Returns (pair.overCloseFactor x lifted) := by
  cases lifted with
  | true => exact ⟨false, rfl⟩
  | false =>
    have hb : bpsFactor = 10000 := rfl
    rw [overCloseFactor_returns_iff hD, hb] at h ⊢
    obtain ⟨h1, h2, h3⟩ := h
    exact ⟨h1.of_nonneg_of_le (by omega) (by omega), h2, h3.of_nonneg_of_le (by omega) (by omega)⟩

theorem refundedRepay_returns_of {seized x y r : ℤ} (h : pair.refundedRepay pc seized x = .ok r) :
    Returns (pair.refundedRepay pc seized y) := by
  unfold refundedRepay at h ⊢
  split_ifs at h ⊢
  · obtain ⟨small, hsmall, h⟩ := bind_eq_ok.mp h
    rw [hsmall, ok_bind]
    cases small with
    | true =>
      obtain ⟨w, hw, -⟩ := bind_eq_ok.mp h
      rw [if_pos rfl, hw]
      exact ⟨_, rfl⟩
    | false => exact ⟨y, rfl⟩
  · exact ⟨y, rfl⟩

theorem Priced.quote_of_whole {x b : ℤ} (h : pair.Priced) (hf : 0 ≤ bpsFactor + pair.incentiveBps)
    (hl : pair.liftsCloseFactor = .ok lifted) (hpc : pair.positionCollateral = .ok pc)
    (hfits : Fits pair.positionDebt) (hpos : 0 < pc) (h1 : 1 ≤ x) (hx : x ≤ pair.positionDebt)
    (hb : pair.buys x lifted = .ok b) (hwhole : pc ≤ b) (hover : Returns (pair.overCloseFactor x lifted))
    (hrefund : Returns (pair.refundedRepay pc pc x)) : Returns (pair.quote x) := by
  obtain ⟨exceeds, hover⟩ := hover
  obtain ⟨r, hr⟩ := hrefund
  have hmem := refundedRepay_mem h.borrowPrice h.collateralPrice.le hf hpos.le (by omega) hr
  rw [quote, h.rules]
  simp only [Returns, quoteNoDust_eq_ok_iff hpc (h.not_quotesNothing (by omega) hpos h1), min_eq_left hx]
  cases exceeds with
  | true => exact ⟨_, lifted, true, hl, hover, .inl ⟨rfl, rfl⟩⟩
  | false =>
    refine ⟨_, lifted, false, hl, hover, .inr ⟨rfl, b, r, false, hb, ?_, ?_, ?_, ?_, rfl⟩⟩
    · rw [min_eq_left hwhole]
      exact hr
    · rw [min_eq_left hwhole, sub_self]
      exact fits_zero
    · exact hfits.of_nonneg_of_le (by omega) (by omega)
    · rw [leavesDust, if_pos (.inl (by omega))]
      rfl

theorem Priced.quote_atSnapshot {s r : ℤ} (h : pair.Priced) (hf : 0 ≤ bpsFactor + pair.incentiveBps)
    (hclear : pair.clearing = .ok (some c)) (hle : c.atSnapshot ≤ offer)
    (hq : pair.quote offer = .ok (.accepted s r)) : Returns (pair.quote c.atSnapshot) := by
  obtain ⟨lifted, pc, hl, hpc, hD, hpos, h1, hat⟩ := h.of_clearing hclear
  have hq' := hq
  rw [quote, h.rules] at hq'
  obtain ⟨lifted', exceeds, hl', hover, hrest⟩ :=
    (quoteNoDust_eq_ok_iff hpc (h.not_quotesNothing hD hpos (h1.trans hle))).mp hq'
  obtain rfl := ok_unique hl hl'
  rcases hat.lt_or_eq with hlt | heq
  · obtain ⟨-, hbad⟩ | ⟨-, b, repaid, dust, hb, hr, -⟩ := hrest
    · cases hbad
    · have hmono := downward_buys h.borrowPrice.le h.collateralPrice hf lifted
      have hmin : c.atSnapshot ≤ min offer pair.positionDebt := le_min hle hat
      obtain ⟨b', hb'⟩ := hmono.returns (by omega) hmin ⟨b, hb⟩
      have hwhole : pc ≤ b' := by
        have hself : min c.atSnapshot pair.positionDebt = c.atSnapshot := min_eq_left hat
        have := (h.atSnapshot_le_iff hl hpc hD hpos hclear h1 (hself.symm ▸ hb')).mp le_rfl
        omega
      have hbb := hmono.mono (by omega) hmin hb' hb
      rw [min_eq_left (hwhole.trans hbb)] at hr
      have hfits := fits_of_buys h.borrowPrice hD.le (buys_of_clearing hpc hpos hD hl ⟨_, hclear⟩)
      exact h.quote_of_whole hf hl hpc hfits hpos h1 hat hb' hwhole
        (overCloseFactor_returns_of_le hD (by omega) hmin ⟨exceeds, hover⟩) (refundedRepay_returns_of hr)
  · -- an offer from the debt on is quoted as the debt is
    have hmin : min c.atSnapshot pair.positionDebt = min offer pair.positionDebt := by omega
    rw [quote, h.rules]
    refine ⟨.accepted s r,
      (quoteNoDust_eq_ok_iff hpc (h.not_quotesNothing hD hpos h1)).mpr ⟨lifted, exceeds, hl, ?_, ?_⟩⟩
    · rw [hmin]
      exact hover
    · rw [hmin]
      exact hrest

/-! ## The fit after its clearing probe -/

/-- What `fitRepay` does with the clearing it found. -/
def fitFrom (pair : LiquidationPair) (c : Clearing) (repay maxOffer : ℤ) : Res (Option ℤ) :=
  if repay ≥ c.atSnapshot then do
    let offer := min (max repay c.offer) maxOffer
    if ← pair.accepts offer then
      return some offer
    pair.largestPartialRepay (min repay maxOffer)
  else do
    if ← pair.accepts repay then
      return some repay
    if c.offer ≤ maxOffer then
      if ← pair.accepts c.offer then
        return some c.offer
      pair.largestPartialRepay (min repay maxOffer)
    else
      pair.largestPartialRepay (min repay maxOffer)

theorem fitRepay_eq_fitFrom {repay maxOffer : ℤ} (hrules : pair.rules = .noDust)
    (hclear : pair.clearing = .ok (some c)) :
    pair.fitRepay repay maxOffer = pair.fitFrom c repay maxOffer := by
  rw [fitRepay, if_neg (by rw [hrules]; decide), hclear, ok_bind]
  rfl

theorem offer_eq_ok {x : ℤ} {next : Res (Option ℤ)} {r : Option ℤ} :
    (pair.accepts x >>= fun a => if a = true then pure (some x) else next) = .ok r ↔
      pair.accepts x = .ok true ∧ r = some x ∨ pair.accepts x = .ok false ∧ next = .ok r := by
  constructor
  · intro h
    obtain ⟨a, ha, h⟩ := bind_eq_ok.mp h
    cases a with
    | true => exact .inl ⟨ha, (pure_eq_ok.mp h).symm⟩
    | false => exact .inr ⟨ha, h⟩
  · rintro (⟨ha, rfl⟩ | ⟨ha, h⟩)
    · rw [ha]
      rfl
    · rw [ha]
      exact h

/-- The market takes the clearing offer within the budget. -/
def Takes (pair : LiquidationPair) (c : Clearing) (maxOffer : ℤ) : Prop :=
  c.offer ≤ maxOffer ∧ pair.accepts c.offer = .ok true

section Fit

variable {repay maxOffer : ℤ} {r : Option ℤ}

/-- A repay that clears is padded up to the budget, or shrunk. -/
theorem fitFrom_clears (hle : c.atSnapshot ≤ repay) :
    pair.fitFrom c repay maxOffer = .ok r ↔
      pair.accepts (c.padded repay maxOffer) = .ok true ∧ r = some (c.padded repay maxOffer) ∨
      pair.accepts (c.padded repay maxOffer) = .ok false ∧
        pair.largestPartialRepay (min repay maxOffer) = .ok r := by
  rw [fitFrom, if_pos hle]
  exact offer_eq_ok

/-- A repay that does not clear is offered as it is, then cleared within the budget, then shrunk. -/
theorem fitFrom_below (hlt : repay < c.atSnapshot) (h : pair.fitFrom c repay maxOffer = .ok r) :
    pair.accepts repay = .ok true ∧ r = some repay ∨ pair.accepts repay = .ok false ∧
      (pair.Takes c maxOffer ∧ r = some c.offer ∨
        (c.offer ≤ maxOffer → pair.accepts c.offer = .ok false) ∧
          pair.largestPartialRepay (min repay maxOffer) = .ok r) := by
  rw [fitFrom, if_neg (not_le.mpr hlt)] at h
  refine (offer_eq_ok.mp h).imp_right fun ⟨hrefused, h⟩ => ⟨hrefused, ?_⟩
  by_cases hle : c.offer ≤ maxOffer
  · rw [if_pos hle] at h
    exact (offer_eq_ok.mp h).imp (fun h => ⟨⟨hle, h.1⟩, h.2⟩) fun h => ⟨fun _ => h.1, h.2⟩
  · rw [if_neg hle] at h
    exact .inr ⟨fun h => absurd h hle, h⟩

end Fit

/-! ## Giving up -/

/-- A partial search that finds nothing under the close factor's cap leaves no partial repay. -/
theorem Priced.refused_of_none {repay : ℤ} (h : pair.Priced) (hf : 0 ≤ bpsFactor + pair.incentiveBps)
    (hl : pair.liftsCloseFactor = .ok lifted) (hclear : pair.clearing = .ok (some c)) (h1 : 1 ≤ repay)
    (hcap : repay ≤ computeCloseFactorRepayCap lifted pair.positionDebt
      pair.borrowPool.liquidationCloseFactorBps) (hfits : Fits repay)
    (hpart : pair.largestPartialRepay repay = .ok none) (ho : 1 ≤ offer) (hlt : offer < c.atSnapshot) :
    pair.accepts offer ≠ .ok true := by
  obtain ⟨lifted', pc, hl', hpc, hD, hpos, -, -⟩ := h.of_clearing hclear
  obtain rfl := ok_unique hl hl'
  obtain ⟨floor, hfloor, hcases⟩ := largestPartialRepay_eq_ok hl hpc h1 hfits hpart
  intro hacc
  obtain ⟨-, hle | ⟨b, hb, hkeeps⟩⟩ := (h.accepted_iff hl hpc hD hpos hfloor hclear ho hacc).mp rfl
  · omega
  · rcases hcases with ⟨hone, -⟩ | ⟨low, a, -, hlow, hle, hpass, -, ha, hnone⟩
    · obtain ⟨b₁, hb₁, hiff⟩ := keepsBothSides_eq_ok hfloor hone
      have hbb : b₁ ≤ b := (downward_buys h.borrowPrice.le h.collateralPrice hf lifted).mono (by omega)
        (min_le_min_right _ ho) hb₁ hb
      exact absurd (hiff.mpr (h.keepsSides_between hkeeps hkeeps ho (by omega))) (by decide)
    · obtain ⟨b', hb', hiff⟩ := keepsBothSides_eq_ok hfloor hpass
      have hadmits := admits_of_le_cap hD hl hlow (hle.trans hcap)
      obtain rfl := (h.accepted_iff hl hpc hD hpos hfloor hclear hlow ha).mpr
        ⟨hadmits, .inr ⟨b', hb', hiff.mp rfl⟩⟩
      cases hnone

end LiquidationPair

open LiquidationPair

/-- **When a fit that gives up left nothing.** The market accepts no offer up to the budget, unless the
budget covers the snapshot's clearing repay and the close factor lets it through. -/
theorem gives_up_iff {pair : LiquidationPair} {lifted : Bool} {pc repay maxOffer : ℤ}
    (hrules : pair.rules = .noDust) (hb : 0 < pair.borrowPool.oracleAssetPrice)
    (hc : 0 < pair.collateralPool.oracleAssetPrice)
    (hi : 0 ≤ pair.borrowPool.maxLiquidationIncentiveBps)
    (hi' : 0 ≤ pair.collateralPool.maxLiquidationIncentiveBps) (hD : 0 < pair.positionDebt)
    (hpc : pair.positionCollateral = .ok pc) (hpos : 0 < pc) (hl : pair.liftsCloseFactor = .ok lifted)
    (h1 : 1 ≤ repay) (hcap : repay ≤ computeCloseFactorRepayCap lifted pair.positionDebt
      pair.borrowPool.liquidationCloseFactorBps) (hmax : repay ≤ maxOffer)
    (hfit : pair.fitRepay repay maxOffer = .ok none) :
    ∃ c, pair.clearing = .ok (some c) ∧
      ((∀ offer seized repaid, 1 ≤ offer → offer ≤ maxOffer →
          pair.quote offer ≠ .ok (.accepted seized repaid)) ↔
        ¬ (c.atSnapshot ≤ maxOffer ∧ pair.Admits c.atSnapshot ∧ Returns (pair.quote c.atSnapshot))) := by
  have h : pair.Priced := ⟨hrules, hb, hc⟩
  have hf : 0 ≤ bpsFactor + pair.incentiveBps := add_nonneg bpsFactor_pos.le (le_min hi hi')
  obtain ⟨c, hclear⟩ := clearing_some hpc hD hpos (clearing_of_fitRepay hrules ⟨_, hfit⟩)
  have hfits : Fits repay := fits_of_le_cap (buys_of_clearing hpc hpos hD hl ⟨_, hclear⟩) hb hD h1 hcap
  have hpart : pair.largestPartialRepay repay = .ok none := by
    rw [fitRepay_eq_fitFrom hrules hclear] at hfit
    rcases le_or_gt c.atSnapshot repay with hle | hlt
    · obtain ⟨-, hbad⟩ | ⟨-, hpart⟩ := (fitFrom_clears hle).mp hfit
      · cases hbad
      · rwa [min_eq_left hmax] at hpart
    · obtain ⟨-, hbad⟩ | ⟨-, ⟨-, hbad⟩ | ⟨-, hpart⟩⟩ := fitFrom_below hlt hfit
      · cases hbad
      · cases hbad
      · rwa [min_eq_left hmax] at hpart
  refine ⟨c, hclear, ?_, ?_⟩
  · rintro hnone ⟨hle, hadmits, q, hq⟩
    obtain ⟨-, -, -, -, -, -, hone, -⟩ := h.of_clearing hclear
    obtain ⟨s, r, hacc, -⟩ := (h.clears_iff_atSnapshot_le hclear hone hq).mpr ⟨le_rfl, hadmits⟩
    exact hnone _ s r hone hle hacc
  · intro hnot offer s r ho hle hq
    rcases le_or_gt c.atSnapshot offer with hge | hlt
    · have hadmits := (h.accepts_clearing_iff hclear hge (accepts_iff.mpr ⟨s, r, hq⟩)).mp rfl
      exact hnot ⟨hge.trans hle, hadmits.mono hD hge, h.quote_atSnapshot hf hclear hge hq⟩
    · exact h.refused_of_none hf hl hclear h1 hcap hfits hpart ho hlt (accepts_iff.mpr ⟨s, r, hq⟩)

theorem short_budget_leaves_nothing :
    (dustPair 50000000 200000000).fitRepay 49999999 49999999 = .ok none ∧
      ∀ offer seized repaid, 1 ≤ offer → offer ≤ 49999999 →
        (dustPair 50000000 200000000).quote offer ≠ .ok (.accepted seized repaid) := by
  have hfit : (dustPair 50000000 200000000).fitRepay 49999999 49999999 = .ok none := by decide +kernel
  have hclear : (dustPair 50000000 200000000).clearing = .ok (some ⟨50000000, 50500000⟩) := by
    decide +kernel
  obtain ⟨c, hc, hiff⟩ := @gives_up_iff (dustPair 50000000 200000000) true 200000000 _ _ rfl (by decide)
    (by decide) (by decide) (by decide) (by decide) (by decide +kernel) (by decide) (by decide +kernel)
    (by decide) (by decide) le_rfl hfit
  obtain rfl := Option.some.inj (ok_unique hclear hc)
  exact ⟨hfit, hiff.mpr fun hclears => absurd hclears.1 (by decide)⟩

/-- A budget between the clearing repay and the padded offer: the market would take the whole debt. -/
theorem unpadded_clear_given_up :
    (dustPair 50000000 200000000).rules = .noDust ∧
      0 < (dustPair 50000000 200000000).borrowPool.oracleAssetPrice ∧
      0 < (dustPair 50000000 200000000).collateralPool.oracleAssetPrice ∧
      0 ≤ (dustPair 50000000 200000000).incentiveBps ∧
      (dustPair 50000000 200000000).positionCollateral = .ok 200000000 ∧
      (dustPair 50000000 200000000).liftsCloseFactor = .ok true ∧
      (49999999 : ℤ) ≤ computeCloseFactorRepayCap true 50000000
        (dustPair 50000000 200000000).borrowPool.liquidationCloseFactorBps ∧
      (dustPair 50000000 200000000).fitRepay 49999999 50000000 = .ok none ∧
      (dustPair 50000000 200000000).quote 50000000 = .ok (.accepted 55000000 50000000) :=
  ⟨rfl, by decide, by decide, by decide, by decide +kernel, by decide +kernel, by decide, by decide +kernel,
    by decide +kernel⟩

end AlulaKeeper
