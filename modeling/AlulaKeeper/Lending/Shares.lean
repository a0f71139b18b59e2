import Mathlib
import AlulaKeeper.Lib.Fold
import AlulaKeeper.Lending.Pool

/-!
# Shares and tokens

The eight conversions of a pool between its shares and the underlying tokens are two roundings of two
ratios. Each rounding is described by the comparison it decides, and the rest follows from these.

* `le_shareFloor_iff`, `shareCeil_le_iff`: what a rounded share is above and below.
* `PoolData.Adjoint`: how the four conversions of one kind of share fit together.
* `PoolData.conversions_adjoint`: both kinds do, and what is redeemed or owed adds up.
-/

namespace AlulaKeeper

open I128

namespace PoolData

/-! ## The two roundings -/

section Roundings

variable {a n d e r : ℤ}

theorem le_shareFloor_iff (ha : 0 ≤ a) (hn : 0 < n) (hd : 0 < d) (h : shareFloor a n d e = .ok r) (k : ℤ) :
    k ≤ r ↔ k * d ≤ a * n := by
  obtain ⟨-, rfl⟩ := (shareFloor_eq_ok_of_pos hd).mp h
  exact le_tdiv_iff (mul_nonneg ha hn.le) hd

theorem shareCeil_le_iff (ha : 0 ≤ a) (hn : 0 < n) (hd : 0 < d) (h : shareCeil a n d e = .ok r) (k : ℤ) :
    r ≤ k ↔ a * n ≤ k * d := by
  obtain ⟨-, -, -, rfl⟩ := (shareCeil_eq_ok_of_pos hd).mp h
  exact ceil_tdiv_le_iff (mul_nonneg ha hn.le) hd

theorem shareFloor_nonneg (ha : 0 ≤ a) (hn : 0 < n) (hd : 0 < d) (h : shareFloor a n d e = .ok r) : 0 ≤ r := by
  rw [le_shareFloor_iff ha hn hd h, zero_mul]
  exact mul_nonneg ha hn.le

theorem shareCeil_nonneg (ha : 0 ≤ a) (hn : 0 < n) (hd : 0 < d) (h : shareCeil a n d e = .ok r) : 0 ≤ r := by
  by_contra hneg
  have hle := (shareCeil_le_iff ha hn hd h (-1)).mp (by omega)
  have hprod : 0 ≤ a * n := mul_nonneg ha hn.le
  linarith

theorem shareFloor_shareCeil {c e' : ℤ} (ha : 0 ≤ a) (hn : 0 < n) (hd : 0 < d)
    (hfloor : shareFloor a n d e = .ok r) (hceil : shareCeil a n d e' = .ok c) : r ≤ c ∧ c ≤ r + 1 := by
  have hle := (le_shareFloor_iff ha hn hd hfloor r).mp le_rfl
  have hlt : a * n < (r + 1) * d := by
    by_contra hge
    have := (le_shareFloor_iff ha hn hd hfloor (r + 1)).mpr (not_lt.mp hge)
    omega
  constructor
  · have hcovers := (shareCeil_le_iff ha hn hd hceil c).mp le_rfl
    exact le_of_mul_le_mul_right (hle.trans hcovers) hd
  · exact (shareCeil_le_iff ha hn hd hceil (r + 1)).mpr hlt.le

end Roundings

/-! ## One kind of share -/

/-- The conversions of one kind of share are adjoint, wherever they return: tokens rounded down to shares
against shares rounded up to tokens, and tokens rounded up against shares rounded down. A way there and back,
with either rounding on the way back, creates nothing, and the roundings are one apart. -/
structure Adjoint (toSharesFloor toSharesCeil toTokensFloor toTokensCeil : ℤ → Res ℤ) : Prop where
  le_floor_iff : ∀ {share token s x}, 0 ≤ share → 0 ≤ token →
    toSharesFloor token = .ok s → toTokensCeil share = .ok x → (share ≤ s ↔ x ≤ token)
  ceil_le_iff : ∀ {share token s x}, 0 ≤ share → 0 ≤ token →
    toSharesCeil token = .ok s → toTokensFloor share = .ok x → (s ≤ share ↔ token ≤ x)
  issued_le : ∀ {token s x}, 0 ≤ token → toSharesFloor token = .ok s →
    toTokensFloor s = .ok x ∨ toTokensCeil s = .ok x → x ≤ token
  le_issued : ∀ {token s x}, 0 ≤ token → toSharesCeil token = .ok s →
    toTokensFloor s = .ok x ∨ toTokensCeil s = .ok x → token ≤ x
  redeemed_le : ∀ {share x s}, 0 ≤ share → toTokensFloor share = .ok x →
    toSharesFloor x = .ok s ∨ toSharesCeil x = .ok s → s ≤ share
  le_redeemed : ∀ {share x s}, 0 ≤ share → toTokensCeil share = .ok x →
    toSharesFloor x = .ok s ∨ toSharesCeil x = .ok s → share ≤ s
  shares_apart : ∀ {token f c}, 0 ≤ token → toSharesFloor token = .ok f → toSharesCeil token = .ok c →
    f ≤ c ∧ c ≤ f + 1
  tokens_apart : ∀ {share f c}, 0 ≤ share → toTokensFloor share = .ok f → toTokensCeil share = .ok c →
    f ≤ c ∧ c ≤ f + 1

section OneKind

variable {shares tokens : ℤ}

/-- A way there rounded down and back by either rounding ends at or under where it started. -/
theorem floor_then_le {a b m e e' : ℤ} (hs : 0 < shares) (ht : 0 < tokens) (ha : 0 ≤ a)
    (hthere : shareFloor a shares tokens e = .ok m)
    (hback : shareFloor m tokens shares e' = .ok b ∨ shareCeil m tokens shares e' = .ok b) : b ≤ a := by
  have hm := shareFloor_nonneg ha hs ht hthere
  have hle := (le_shareFloor_iff ha hs ht hthere m).mp le_rfl
  rcases hback with hback | hback
  · have hb := (le_shareFloor_iff hm ht hs hback b).mp le_rfl
    exact le_of_mul_le_mul_right (hb.trans hle) hs
  · exact (shareCeil_le_iff hm ht hs hback a).mpr hle

/-- A way there rounded up and back by either rounding ends at or over where it started. -/
theorem le_ceil_then {a b m e e' : ℤ} (hs : 0 < shares) (ht : 0 < tokens) (ha : 0 ≤ a)
    (hthere : shareCeil a shares tokens e = .ok m)
    (hback : shareFloor m tokens shares e' = .ok b ∨ shareCeil m tokens shares e' = .ok b) : a ≤ b := by
  have hm := shareCeil_nonneg ha hs ht hthere
  have hle := (shareCeil_le_iff ha hs ht hthere m).mp le_rfl
  rcases hback with hback | hback
  · exact (le_shareFloor_iff hm ht hs hback a).mpr hle
  · have hb := (shareCeil_le_iff hm ht hs hback b).mp le_rfl
    exact le_of_mul_le_mul_right (hle.trans hb) hs

/-- Both ratios of positive totals give adjoint conversions; what an empty pool answers does not matter. -/
theorem adjoint_of_pos {e : ℤ} (hs : 0 < shares) (ht : 0 < tokens) :
    Adjoint (fun token => shareFloor token shares tokens token) (fun token => shareCeil token shares tokens token)
      (fun share => shareFloor share tokens shares e) (fun share => shareCeil share tokens shares e) where
  le_floor_iff hshare htoken hfloor hceil := by
    rw [le_shareFloor_iff htoken hs ht hfloor, shareCeil_le_iff hshare ht hs hceil]
  ceil_le_iff hshare htoken hceil hfloor := by
    rw [shareCeil_le_iff htoken hs ht hceil, le_shareFloor_iff hshare ht hs hfloor]
  issued_le htoken hthere hback := floor_then_le hs ht htoken hthere hback
  le_issued htoken hthere hback := le_ceil_then hs ht htoken hthere hback
  redeemed_le hshare hthere hback := floor_then_le ht hs hshare hthere hback
  le_redeemed hshare hthere hback := le_ceil_then ht hs hshare hthere hback
  shares_apart htoken hfloor hceil := shareFloor_shareCeil htoken hs ht hfloor hceil
  tokens_apart hshare hfloor hceil := shareFloor_shareCeil hshare ht hs hfloor hceil

end OneKind

/-! ## What a list of shares adds up to -/

section Sums

variable {total value : ℤ} {shares values : List ℤ}

theorem sum_shareFloor_le {e : ℤ} (htotal : 0 < total) (hvalue : 0 < value) (hshares : ∀ s ∈ shares, 0 ≤ s)
    (h : shares.mapM (fun s => shareFloor s value total e) = .ok values) :
    values.sum * total ≤ shares.sum * value := by
  refine Fold.mapM_sum_le (fun s hs v hv => ?_) h
  exact (le_shareFloor_iff (hshares s hs) hvalue htotal hv v).mp le_rfl

theorem le_sum_shareCeil {e : ℤ} (htotal : 0 < total) (hvalue : 0 < value) (hshares : ∀ s ∈ shares, 0 ≤ s)
    (h : shares.mapM (fun s => shareCeil s value total e) = .ok values) :
    shares.sum * value ≤ values.sum * total := by
  have hneg : values.sum * -total ≤ shares.sum * -value := by
    refine Fold.mapM_sum_le (fun s hs v hv => ?_) h
    have hcovers := (shareCeil_le_iff (hshares s hs) hvalue htotal hv v).mp le_rfl
    linarith
  linarith

end Sums

/-! ## A pool's conversions -/

variable {pool : PoolData}

theorem sum_jTokensToTokensFloor_le {deposits : List DepositPosition} {values : List Underlying}
    (hsupply : 0 < pool.totalSupply) (htotal : 0 < pool.totalJTokens)
    (hheld : ∀ p ∈ deposits, 0 ≤ p.jTokens) (hsum : (deposits.map (·.jTokens)).sum ≤ pool.totalJTokens)
    (h : (deposits.map (·.jTokens)).mapM pool.jTokensToTokensFloor = .ok values) :
    values.sum ≤ pool.totalSupply := by
  have hheld' : ∀ s ∈ deposits.map (·.jTokens), 0 ≤ s := by
    intro s hs
    obtain ⟨p, hp, rfl⟩ := List.mem_map.mp hs
    exact hheld p hp
  have hle := sum_shareFloor_le htotal hsupply hheld' h
  refine le_of_mul_le_mul_right ?_ htotal
  calc values.sum * pool.totalJTokens
      ≤ (deposits.map (·.jTokens)).sum * pool.totalSupply := hle
    _ ≤ pool.totalJTokens * pool.totalSupply := mul_le_mul_of_nonneg_right hsum hsupply.le
    _ = pool.totalSupply * pool.totalJTokens := mul_comm _ _

theorem le_sum_dTokensToTokensCeil {borrows : List BorrowPosition} {values : List Underlying}
    (hborrowed : 0 < pool.totalBorrowed) (htotal : 0 < pool.totalDTokens)
    (hheld : ∀ p ∈ borrows, 0 ≤ p.dTokens) (hsum : (borrows.map (·.dTokens)).sum = pool.totalDTokens)
    (h : (borrows.map (·.dTokens)).mapM pool.dTokensToTokensCeil = .ok values) :
    pool.totalBorrowed ≤ values.sum := by
  have hheld' : ∀ s ∈ borrows.map (·.dTokens), 0 ≤ s := by
    intro s hs
    obtain ⟨p, hp, rfl⟩ := List.mem_map.mp hs
    exact hheld p hp
  have hle := le_sum_shareCeil htotal hborrowed hheld' h
  rw [hsum, mul_comm] at hle
  exact le_of_mul_le_mul_right hle htotal

/-- **Shares are adjoint to tokens and never over-issued.** The conversions of a pool's j-tokens and of its
d-tokens are adjoint; no list of deposits within the j-tokens redeems more than the supply, and no list of
borrows that makes up the d-tokens owes less than what is borrowed. -/
theorem conversions_adjoint (hsupply : 0 < pool.totalSupply) (hjTokens : 0 < pool.totalJTokens)
    (hborrowed : 0 < pool.totalBorrowed) (hdTokens : 0 < pool.totalDTokens) :
    Adjoint pool.tokensToJTokensFloor pool.tokensToJTokensCeil pool.jTokensToTokensFloor
        pool.jTokensToTokensCeil ∧
      Adjoint pool.tokensToDTokensFloor pool.tokensToDTokensCeil pool.dTokensToTokensFloor
        pool.dTokensToTokensCeil ∧
      (∀ (deposits : List DepositPosition) (values : List Underlying), (∀ p ∈ deposits, 0 ≤ p.jTokens) →
        (deposits.map (·.jTokens)).sum ≤ pool.totalJTokens →
        (deposits.map (·.jTokens)).mapM pool.jTokensToTokensFloor = .ok values →
        values.sum ≤ pool.totalSupply) ∧
      ∀ (borrows : List BorrowPosition) (values : List Underlying), (∀ p ∈ borrows, 0 ≤ p.dTokens) →
        (borrows.map (·.dTokens)).sum = pool.totalDTokens →
        (borrows.map (·.dTokens)).mapM pool.dTokensToTokensCeil = .ok values →
        pool.totalBorrowed ≤ values.sum :=
  ⟨adjoint_of_pos hjTokens hsupply, adjoint_of_pos hdTokens hborrowed,
    fun _ _ hheld hsum h => sum_jTokensToTokensFloor_le hsupply hjTokens hheld hsum h,
    fun _ _ hheld hsum h => le_sum_dTokensToTokensCeil hborrowed hdTokens hheld hsum h⟩

/-- A supply grown by a third and a debt grown by a quarter. -/
def grownPool : PoolData :=
  { dustPool "USDC" usd with
    totalSupply := 4000, totalJTokens := 3000, totalBorrowed := 2500, totalDTokens := 2000 }

theorem conversions_adjoint_grown :
    grownPool.tokensToJTokensFloor 13 = .ok 9 ∧ grownPool.jTokensToTokensCeil 10 = .ok 14 ∧
      ((10 : ℤ) ≤ 9 ↔ (14 : ℤ) ≤ 13) ∧
      grownPool.tokensToDTokensCeil 13 = .ok 11 ∧ grownPool.dTokensToTokensFloor 11 = .ok 13 ∧
      ((11 : ℤ) ≤ 11 ↔ (13 : ℤ) ≤ 13) ∧ [(1333 : ℤ), 2666].sum ≤ grownPool.totalSupply ∧
      grownPool.totalBorrowed ≤ [(1250 : ℤ), 1250].sum := by
  obtain ⟨hj, hd, hredeem, howe⟩ :=
    @conversions_adjoint grownPool (by decide) (by decide) (by decide) (by decide)
  exact ⟨by decide, by decide, hj.le_floor_iff (by decide) (by decide) (by decide) (by decide),
    by decide, by decide, hd.ceil_le_iff (by decide) (by decide) (by decide) (by decide),
    hredeem [⟨1000, 0, "USDC"⟩, ⟨2000, 0, "USDC"⟩] [1333, 2666] (by decide) (by decide) (by decide),
    howe [⟨1000, "USDC"⟩, ⟨1000, "USDC"⟩] [1250, 1250] (by decide) (by decide) (by decide)⟩

end PoolData

end AlulaKeeper
