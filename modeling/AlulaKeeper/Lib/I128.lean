import Mathlib

/-!
# Checked, saturating and trapping `i128` arithmetic

A machine integer is the `ℤ` it denotes; the operations decide what happens when the exact result
leaves the range.

* `Fits`: the exact result is an `i128`; `checked*` return `none` otherwise, `saturating*` clamp,
  and `raw*` abort the process.
* `Fault`: how a computation ends without a value, by an error `e` it returns or by an abort.
* `bind_eq_ok`, `orErr_eq_ok`, `raw_eq_ok`: what a computation that returned has computed.
* `Returns`, `NoAbort`: it returns, or at least does not abort.
* `Fits.tdiv`, `Fits.mul_of_le`, `Fits.of_mem`: quotients, smaller products and values between two
  that fit.
-/

namespace I128

/-- `i128::MAX`. -/
def maxVal : ℤ := 170141183460469231731687303715884105727

/-- `i128::MIN`. -/
def minVal : ℤ := -170141183460469231731687303715884105728

/-- The integer is an `i128`. -/
def Fits (x : ℤ) : Prop := minVal ≤ x ∧ x ≤ maxVal

instance : DecidablePred Fits := fun x => inferInstanceAs (Decidable (minVal ≤ x ∧ x ≤ maxVal))

theorem Fits.tdiv {a b : ℤ} (ha : Fits a) (hb : 0 < b) : Fits (a.tdiv b) := by
  unfold Fits minVal maxVal at *
  have hn := Int.natAbs_tdiv_le_natAbs a b
  rcases Int.le_total 0 a with h0 | h0
  · have := Int.tdiv_nonneg h0 hb.le
    omega
  · have := Int.tdiv_nonneg (Int.neg_nonneg_of_nonpos h0) hb.le
    rw [Int.neg_tdiv] at this
    omega

theorem Fits.of_mem {a x b : ℤ} (ha : Fits a) (hb : Fits b) (h1 : a ≤ x) (h2 : x ≤ b) : Fits x :=
  ⟨ha.1.trans h1, h2.trans hb.2⟩

theorem fits_zero : Fits 0 := by decide

theorem minVal_neg : minVal < 0 := by decide

theorem ediv_le_tdiv {a b : ℤ} (hb : 0 < b) : a / b ≤ a.tdiv b := by
  rw [Int.tdiv_eq_ediv, Int.sign_eq_one_of_pos hb]
  split_ifs <;> omega

theorem le_ceil_tdiv_mul {n d : ℤ} (hn : 0 ≤ n) (hd : 0 < d) : n ≤ (n + (d - 1)).tdiv d * d := by
  rw [Int.tdiv_eq_ediv_of_nonneg (by omega)]
  have h1 := Int.emod_lt_of_pos (n + (d - 1)) hd
  have h2 := Int.mul_ediv_add_emod (n + (d - 1)) d
  linarith

theorem tdiv_nonpos {a d : ℤ} (ha : a ≤ 0) (hd : 0 < d) : a.tdiv d ≤ 0 := by
  calc a.tdiv d ≤ (0 : ℤ).tdiv d := Int.tdiv_le_tdiv hd ha
    _ = 0 := Int.zero_tdiv d

theorem tdiv_mul_le {n d : ℤ} (hn : 0 ≤ n) (hd : 0 < d) : n.tdiv d * d ≤ n := by
  rw [Int.tdiv_eq_ediv_of_nonneg hn]
  exact Int.ediv_mul_le n hd.ne'

/-- A quotient rounded down is the largest whose product stays under the dividend. -/
theorem le_tdiv_iff {n d k : ℤ} (hn : 0 ≤ n) (hd : 0 < d) : k ≤ n.tdiv d ↔ k * d ≤ n := by
  rw [Int.tdiv_eq_ediv_of_nonneg hn]
  exact Int.le_ediv_iff_mul_le hd

/-- A quotient rounded up is the smallest whose product covers the dividend. -/
theorem ceil_tdiv_le_iff {n d k : ℤ} (hn : 0 ≤ n) (hd : 0 < d) :
    (n + (d - 1)).tdiv d ≤ k ↔ n ≤ k * d := by
  rw [Int.tdiv_eq_ediv_of_nonneg (by omega), ← Int.lt_add_one_iff, Int.ediv_lt_iff_lt_mul hd]
  constructor <;> intro h <;> linarith

theorem tdiv_sub_one_mul_lt {n d : ℤ} (hd : 0 < d) : (n.tdiv d - 1) * d < n := by
  have hdiv := Int.mul_tdiv_add_tmod n d
  have hmod := Int.lt_tmod_of_pos n hd
  linarith

/-- A quotient rounded up is at least everything less than one above the exact one. -/
theorem le_ceil_tdiv {n d k : ℤ} (hd : 0 < d) (h : (k - 1) * d < n) : k ≤ (n + (d - 1)).tdiv d := by
  refine le_trans ?_ (ediv_le_tdiv hd)
  rw [Int.le_ediv_iff_mul_le hd]
  linarith

theorem Fits.of_nonneg_of_le {x b : ℤ} (hb : Fits b) (h1 : 0 ≤ x) (h2 : x ≤ b) : Fits x :=
  fits_zero.of_mem hb h1 h2

theorem Fits.mul_of_le {a A b : ℤ} (h : Fits (A * b)) (ha : 0 ≤ a) (hA : a ≤ A) : Fits (a * b) := by
  rcases Int.le_total 0 b with hb | hb
  · exact h.of_nonneg_of_le (mul_nonneg ha hb) (mul_le_mul_of_nonneg_right hA hb)
  · exact h.of_mem fits_zero (mul_le_mul_of_nonpos_right hA hb) (mul_nonpos_of_nonneg_of_nonpos ha hb)

/-! ## Checked operations -/

/-- The exact result, if it is an `i128`. -/
def check (x : ℤ) : Option ℤ := if Fits x then some x else none

@[simp] theorem check_eq_some {x r : ℤ} : check x = some r ↔ Fits x ∧ x = r := by
  unfold check; split_ifs with h <;> simp [h]

/-- `checked_add`. -/
def checkedAdd (a b : ℤ) : Option ℤ := check (a + b)

/-- `checked_sub`. -/
def checkedSub (a b : ℤ) : Option ℤ := check (a - b)

/-- `checked_mul`. -/
def checkedMul (a b : ℤ) : Option ℤ := check (a * b)

/-- Truncating; `none` for a zero divisor and for `MIN / -1`. -/
def checkedDiv (a b : ℤ) : Option ℤ := if b = 0 then none else check (a.tdiv b)

/-- `checked_neg`. -/
def checkedNeg (a : ℤ) : Option ℤ := check (-a)

/-- `checked_abs`. -/
def checkedAbs (a : ℤ) : Option ℤ := check |a|

/-- `10 ^ n`, exactly. -/
def pow10 (n : ℕ) : ℤ := ((10 ^ n : ℕ) : ℤ)

/-- `10_i128.checked_pow(n)`. -/
def checkedPow10 (n : ℕ) : Option ℤ := check (pow10 n)

theorem pow10_pos (n : ℕ) : 0 < pow10 n := by unfold pow10; positivity

theorem pow10_add (m n : ℕ) : pow10 (m + n) = pow10 m * pow10 n := by
  unfold pow10; rw [pow_add]; push_cast; rfl

theorem fits_pow10 {n : ℕ} : Fits (pow10 n) ↔ n ≤ 38 := by
  have hmono : ∀ {m k : ℕ}, m ≤ k → pow10 m ≤ pow10 k := fun h =>
    Int.ofNat_le.mpr (Nat.pow_le_pow_right (by norm_num) h)
  constructor
  · rintro ⟨-, hle⟩
    by_contra hlt
    have hbig : maxVal < pow10 39 := by decide
    exact absurd (hbig.trans_le (hmono (not_le.mp hlt))) (not_lt.mpr hle)
  · intro h
    have hsmall : Fits (pow10 38) := by decide
    exact hsmall.of_nonneg_of_le (pow10_pos n).le (hmono h)

@[simp] theorem checkedAdd_eq_some {a b r : ℤ} : checkedAdd a b = some r ↔ Fits (a + b) ∧ a + b = r :=
  check_eq_some

@[simp] theorem checkedSub_eq_some {a b r : ℤ} : checkedSub a b = some r ↔ Fits (a - b) ∧ a - b = r :=
  check_eq_some

@[simp] theorem checkedMul_eq_some {a b r : ℤ} : checkedMul a b = some r ↔ Fits (a * b) ∧ a * b = r :=
  check_eq_some

@[simp] theorem checkedPow10_eq_some {n : ℕ} {r : ℤ} :
    checkedPow10 n = some r ↔ Fits (pow10 n) ∧ pow10 n = r :=
  check_eq_some

theorem checkedDiv_eq_some_of_pos {a b r : ℤ} (ha : Fits a) (hb : 0 < b) :
    checkedDiv a b = some r ↔ a.tdiv b = r := by
  unfold checkedDiv
  rw [if_neg hb.ne', check_eq_some]
  exact and_iff_right (ha.tdiv hb)

/-! ## Saturating operations -/

/-- The nearest `i128`. -/
def clamp (x : ℤ) : ℤ := max minVal (min maxVal x)

/-- `saturating_add`. -/
def saturatingAdd (a b : ℤ) : ℤ := clamp (a + b)

/-- `saturating_sub`. -/
def saturatingSub (a b : ℤ) : ℤ := clamp (a - b)

/-- `saturating_mul`. -/
def saturatingMul (a b : ℤ) : ℤ := clamp (a * b)

/-- The divisor is nowhere zero in the uses of this operation. -/
def saturatingDiv (a b : ℤ) : ℤ := clamp (a.tdiv b)

/-- `10_i128.saturating_pow(n)`. -/
def saturatingPow10 (n : ℕ) : ℤ := clamp (pow10 n)

theorem clamp_of_fits {x : ℤ} (h : Fits x) : clamp x = x := by
  unfold clamp; unfold Fits at h; omega

theorem fits_clamp (x : ℤ) : Fits (clamp x) := by
  unfold Fits clamp minVal maxVal; omega

theorem clamp_mono {x y : ℤ} (h : x ≤ y) : clamp x ≤ clamp y := by
  unfold clamp; omega

theorem clamp_nonneg {x : ℤ} (h : 0 ≤ x) : 0 ≤ clamp x := by
  unfold clamp minVal maxVal; omega

theorem clamp_le {x : ℤ} (h : 0 ≤ x) : clamp x ≤ x := by
  unfold clamp minVal; omega

theorem clamp_le_of_min_le {x : ℤ} (h : minVal ≤ x) : clamp x ≤ x := by
  unfold clamp; omega

theorem clamp_nonpos {x : ℤ} (h : x ≤ 0) : clamp x ≤ 0 := by
  unfold clamp minVal maxVal; omega

theorem clamp_pos_iff {x : ℤ} : 0 < clamp x ↔ 0 < x := by
  unfold clamp minVal maxVal; omega

theorem clamp_eq_max {x : ℤ} (h : maxVal ≤ x) : clamp x = maxVal := by
  unfold clamp minVal maxVal at *; omega

/-! ## Computations that return, fail or abort -/

/-- How a computation ends without a value. -/
inductive Fault (ε : Type) where
  /-- It returns the error `e`. -/
  | err (e : ε)
  /-- An unchecked operation overflowed or divided by zero: the process aborts. -/
  | abort
  deriving DecidableEq, Repr

section Fallible

variable {ε α β : Type}

/-- `Option::ok_or`. -/
def orErr (e : ε) : Option α → Except (Fault ε) α
  | some a => .ok a
  | none => .error (.err e)

/-- `Result::ok`: an error becomes `none`, an abort stays one. -/
def toOption : Except (Fault ε) α → Except (Fault ε) (Option α)
  | .ok a => .ok (some a)
  | .error (.err _) => .ok none
  | .error .abort => .error .abort

@[simp] theorem bind_eq_ok {x : Except (Fault ε) α} {f : α → Except (Fault ε) β} {r : β} :
    (x >>= f) = .ok r ↔ ∃ a, x = .ok a ∧ f a = .ok r := by
  cases x with
  | error e => simp [bind, Except.bind]
  | ok a => simp [bind, Except.bind]

@[simp] theorem pure_eq_ok {a r : α} : (pure a : Except (Fault ε) α) = .ok r ↔ a = r := by
  simp [pure, Except.pure]

@[simp] theorem ok_bind (a : α) (f : α → Except (Fault ε) β) :
    ((.ok a : Except (Fault ε) α) >>= f) = f a := rfl

@[simp] theorem error_bind (e : Fault ε) (f : α → Except (Fault ε) β) :
    ((.error e : Except (Fault ε) α) >>= f) = .error e := rfl

@[simp] theorem orErr_eq_ok {e : ε} {o : Option α} {r : α} : orErr e o = .ok r ↔ o = some r := by
  cases o <;> simp [orErr]

@[simp] theorem toOption_eq_some {x : Except (Fault ε) α} {a : α} :
    toOption x = .ok (some a) ↔ x = .ok a := by
  rcases x with (e | _) | b <;> simp [toOption]

theorem ok_unique {x : Except (Fault ε) α} {a b : α} (ha : x = .ok a) (hb : x = .ok b) : a = b := by
  rw [ha] at hb
  exact Except.ok.inj hb

/-- A computation that did not take an early exit took the other branch. -/
theorem ite_eq_ok_of_ne {c : Prop} [Decidable c] {x y : Except (Fault ε) α} {a : α} (hx : x ≠ .ok a)
    (h : (if c then x else y) = .ok a) : ¬ c ∧ y = .ok a := by
  split_ifs at h with hc
  · exact absurd h hx
  · exact ⟨hc, h⟩

/-- The exact result, or an abort. -/
def raw (x : ℤ) : Except (Fault ε) ℤ := if Fits x then .ok x else .error .abort

@[simp] theorem raw_eq_ok {x r : ℤ} : (raw x : Except (Fault ε) ℤ) = .ok r ↔ Fits x ∧ x = r := by
  unfold raw; split_ifs with h <;> simp [h]

/-- `a + b`. -/
def rawAdd (a b : ℤ) : Except (Fault ε) ℤ := raw (a + b)

/-- `a - b`. -/
def rawSub (a b : ℤ) : Except (Fault ε) ℤ := raw (a - b)

/-- `a * b`. -/
def rawMul (a b : ℤ) : Except (Fault ε) ℤ := raw (a * b)

/-- `a / b`: aborts on a zero divisor and on `MIN / -1`. -/
def rawDiv (a b : ℤ) : Except (Fault ε) ℤ := if b = 0 then .error .abort else raw (a.tdiv b)

/-- `10_i128.pow(n)`. -/
def rawPow10 (n : ℕ) : Except (Fault ε) ℤ := raw (pow10 n)

@[simp] theorem rawAdd_eq_ok {a b r : ℤ} :
    (rawAdd a b : Except (Fault ε) ℤ) = .ok r ↔ Fits (a + b) ∧ a + b = r :=
  raw_eq_ok

@[simp] theorem rawSub_eq_ok {a b r : ℤ} :
    (rawSub a b : Except (Fault ε) ℤ) = .ok r ↔ Fits (a - b) ∧ a - b = r :=
  raw_eq_ok

@[simp] theorem rawMul_eq_ok {a b r : ℤ} :
    (rawMul a b : Except (Fault ε) ℤ) = .ok r ↔ Fits (a * b) ∧ a * b = r :=
  raw_eq_ok

@[simp] theorem rawPow10_eq_ok {n : ℕ} {r : ℤ} :
    (rawPow10 n : Except (Fault ε) ℤ) = .ok r ↔ Fits (pow10 n) ∧ pow10 n = r :=
  raw_eq_ok

theorem rawDiv_of_pos {a b : ℤ} (ha : Fits a) (hb : 0 < b) :
    (rawDiv a b : Except (Fault ε) ℤ) = .ok (a.tdiv b) := by
  unfold rawDiv
  rw [if_neg hb.ne', raw_eq_ok]
  exact ⟨ha.tdiv hb, rfl⟩

/-- The computation returns a value. -/
def Returns (x : Except (Fault ε) α) : Prop := ∃ a, x = .ok a

instance {x : Except (Fault ε) α} : Decidable (Returns x) :=
  match x with
  | .ok a => isTrue ⟨a, rfl⟩
  | .error _ => isFalse (by rintro ⟨a, h⟩; cases h)

theorem Returns.bind {x : Except (Fault ε) α} {f : α → Except (Fault ε) β} (hx : Returns x)
    (hf : ∀ a, x = .ok a → Returns (f a)) : Returns (x >>= f) := by
  obtain ⟨a, ha⟩ := hx
  obtain ⟨b, hb⟩ := hf a ha
  exact ⟨b, bind_eq_ok.mpr ⟨a, ha, hb⟩⟩

/-- The computation does not abort; it may return an error. -/
def NoAbort (x : Except (Fault ε) α) : Prop := x ≠ .error .abort

theorem Returns.noAbort {x : Except (Fault ε) α} (h : Returns x) : NoAbort x := by
  obtain ⟨a, rfl⟩ := h
  nofun

theorem noAbort_orErr (e : ε) (o : Option α) : NoAbort (orErr e o) := by
  cases o <;> nofun

theorem noAbort_raw {x : ℤ} (h : Fits x) : NoAbort (raw x : Except (Fault ε) ℤ) :=
  Returns.noAbort ⟨x, raw_eq_ok.mpr ⟨h, rfl⟩⟩

theorem NoAbort.bind {x : Except (Fault ε) α} {f : α → Except (Fault ε) β} (hx : NoAbort x)
    (hf : ∀ a, x = .ok a → NoAbort (f a)) : NoAbort (x >>= f) := by
  cases x with
  | ok a => exact hf a rfl
  | error e =>
    intro h
    cases h
    exact hx rfl

theorem noAbort_raw_iff {x : ℤ} : NoAbort (raw x : Except (Fault ε) ℤ) ↔ Fits x := by
  refine ⟨fun h => ?_, noAbort_raw⟩
  by_contra hfits
  exact h (if_neg hfits)

theorem noAbort_bind_iff {x : Except (Fault ε) α} {f : α → Except (Fault ε) β} :
    NoAbort (x >>= f) ↔ NoAbort x ∧ ∀ a, x = .ok a → NoAbort (f a) := by
  refine ⟨fun h => ⟨?_, ?_⟩, fun h => h.1.bind h.2⟩
  · rintro rfl
    exact h rfl
  · rintro a rfl
    exact h

theorem NoAbort.ite {c : Prop} [Decidable c] {x y : Except (Fault ε) α} (hx : c → NoAbort x)
    (hy : ¬ c → NoAbort y) : NoAbort (if c then x else y) := by
  split_ifs with h
  · exact hx h
  · exact hy h

theorem NoAbort.toOption {x : Except (Fault ε) α} (h : NoAbort x) : Returns (toOption x) := by
  rcases x with (e | _) | a
  · exact ⟨none, rfl⟩
  · exact absurd rfl h
  · exact ⟨some a, rfl⟩

end Fallible

end I128
