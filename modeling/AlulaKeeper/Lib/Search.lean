import Mathlib
import AlulaKeeper.Lib.I128

/-!
# Binary search with a fallible test

Two loops over an interval `[low, high]` of `i128` values, testing a midpoint with a test `p` that
may fail:

* `least p low high`: the least value passing a test that stays passed, `high` assumed to pass;
* `greatest p low high`: the greatest value passing a test that stays failed, `low` assumed to pass.

`fuel` bounds the iterations; `high - low` of them always suffice. What a loop returned lies in the
interval (`least_mem`, `greatest_mem`), passes the test unless it is the assumed end
(`least_passes`, `greatest_passes`) and separates the interval (`least_below`, `greatest_above`).
A loop that fails reports a failure of `p` inside the interval (`least_error`, `greatest_error`).
-/

namespace Search

open I128

variable {ε : Type} (p : ℤ → Except (Fault ε) Bool)

/-- `while low < high { mid = low + (high - low) / 2; if p(mid)? { high = mid } else { low = mid + 1 } }`,
then `high`. -/
def leastFrom : ℕ → ℤ → ℤ → Except (Fault ε) ℤ
  | 0, _, high => .ok high
  | fuel + 1, low, high =>
    if low < high then do
      let mid ← rawAdd low ((← rawSub high low).tdiv 2)
      if ← p mid then leastFrom fuel low mid else leastFrom fuel (← rawAdd mid 1) high
    else .ok high

/-- `while low < high { mid = low + (high - low + 1) / 2; if p(mid)? { low = mid } else { high = mid - 1 } }`,
then `low`. -/
def greatestFrom : ℕ → ℤ → ℤ → Except (Fault ε) ℤ
  | 0, low, _ => .ok low
  | fuel + 1, low, high =>
    if low < high then do
      let mid ← rawAdd low ((← rawAdd (← rawSub high low) 1).tdiv 2)
      if ← p mid then greatestFrom fuel mid high else greatestFrom fuel low (← rawSub mid 1)
    else .ok low

/-- The least point of the range that passes, by bisection. -/
def least (low high : ℤ) : Except (Fault ε) ℤ := leastFrom p (high - low).toNat low high

/-- The greatest point of the range that passes. -/
def greatest (low high : ℤ) : Except (Fault ε) ℤ := greatestFrom p (high - low).toNat low high

variable {p} {low high r : ℤ} {fuel : ℕ}

/-! ## One iteration -/

theorem tdiv_two {d : ℤ} (hd : 0 ≤ d) : d.tdiv 2 = d / 2 := Int.tdiv_eq_ediv_of_nonneg hd

/-- The midpoint of an interval of positive values does not overflow. -/
theorem leastFrom_step (hl : 1 ≤ low) (hh : Fits high) (h : low < high) :
    leastFrom p (fuel + 1) low high = (do
      if ← p (low + (high - low) / 2) then leastFrom p fuel low (low + (high - low) / 2)
      else leastFrom p fuel (low + (high - low) / 2 + 1) high) := by
  have h1 : (rawSub high low : Except (Fault ε) ℤ) = .ok (high - low) :=
    raw_eq_ok.mpr ⟨hh.of_nonneg_of_le (by omega) (by omega), rfl⟩
  have h2 : (rawAdd low ((high - low).tdiv 2) : Except (Fault ε) ℤ) = .ok (low + (high - low) / 2) := by
    rw [tdiv_two (by omega)]
    exact raw_eq_ok.mpr ⟨hh.of_nonneg_of_le (by omega) (by omega), rfl⟩
  have h3 : (rawAdd (low + (high - low) / 2) 1 : Except (Fault ε) ℤ) =
      .ok (low + (high - low) / 2 + 1) :=
    raw_eq_ok.mpr ⟨hh.of_nonneg_of_le (by omega) (by omega), rfl⟩
  rw [leastFrom, if_pos h]
  simp only [h1, h2, h3, ok_bind]

theorem greatestFrom_step (hl : 1 ≤ low) (hh : Fits high) (h : low < high) :
    greatestFrom p (fuel + 1) low high = (do
      if ← p (low + (high - low + 1) / 2) then greatestFrom p fuel (low + (high - low + 1) / 2) high
      else greatestFrom p fuel low (low + (high - low + 1) / 2 - 1)) := by
  have h1 : (rawSub high low : Except (Fault ε) ℤ) = .ok (high - low) :=
    raw_eq_ok.mpr ⟨hh.of_nonneg_of_le (by omega) (by omega), rfl⟩
  have h2 : (rawAdd (high - low) 1 : Except (Fault ε) ℤ) = .ok (high - low + 1) :=
    raw_eq_ok.mpr ⟨hh.of_nonneg_of_le (by omega) (by omega), rfl⟩
  have h3 : (rawAdd low ((high - low + 1).tdiv 2) : Except (Fault ε) ℤ) =
      .ok (low + (high - low + 1) / 2) := by
    rw [tdiv_two (by omega)]
    exact raw_eq_ok.mpr ⟨hh.of_nonneg_of_le (by omega) (by omega), rfl⟩
  have h4 : (rawSub (low + (high - low + 1) / 2) 1 : Except (Fault ε) ℤ) =
      .ok (low + (high - low + 1) / 2 - 1) :=
    raw_eq_ok.mpr ⟨hh.of_nonneg_of_le (by omega) (by omega), rfl⟩
  rw [greatestFrom, if_pos h]
  simp only [h1, h2, h3, h4, ok_bind]

/-! ## The least passing value -/

/-- **Run of the downward search.** The result is in the interval and, unless it is the upper end,
passed the test; everything tested below it failed. -/
theorem leastFrom_spec (hl : 1 ≤ low) (hle : low ≤ high) (hh : Fits high)
    (hf : (high - low).toNat ≤ fuel) (h : leastFrom p fuel low high = .ok r) :
    low ≤ r ∧ r ≤ high ∧ (r = high ∨ p r = .ok true) ∧ (r = low ∨ p (r - 1) = .ok false) := by
  induction fuel generalizing low high with
  | zero =>
    simp only [leastFrom, Except.ok.injEq] at h
    subst h
    exact ⟨hle, le_rfl, .inl rfl, .inl (by omega)⟩
  | succ fuel ih =>
    by_cases hlt : low < high
    · rw [leastFrom_step hl hh hlt] at h
      obtain ⟨b, hb, h⟩ := bind_eq_ok.mp h
      cases b with
      | true =>
        obtain ⟨h1, h2, h3, h4⟩ := ih hl (by omega) (hh.of_nonneg_of_le (by omega) (by omega))
          (by omega) h
        refine ⟨h1, by omega, .inr ?_, h4⟩
        rcases h3 with h3 | h3
        · rw [h3]; exact hb
        · exact h3
      | false =>
        obtain ⟨h1, h2, h3, h4⟩ := ih (by omega) (by omega) hh (by omega) h
        refine ⟨by omega, h2, h3, .inr ?_⟩
        rcases h4 with h4 | h4
        · rw [h4, add_sub_cancel_right]; exact hb
        · exact h4
    · rw [leastFrom, if_neg hlt, Except.ok.injEq] at h
      subst h
      exact ⟨hle, le_rfl, .inl rfl, .inl (by omega)⟩

/-- **A failing downward search failed on a value of the interval.** -/
theorem leastFrom_error {e : Fault ε} (hl : 1 ≤ low) (hle : low ≤ high) (hh : Fits high)
    (h : leastFrom p fuel low high = .error e) : ∃ x, low ≤ x ∧ x ≤ high ∧ p x = .error e := by
  induction fuel generalizing low high with
  | zero => simp [leastFrom] at h
  | succ fuel ih =>
    by_cases hlt : low < high
    · rw [leastFrom_step hl hh hlt] at h
      cases hb : p (low + (high - low) / 2) with
      | error e' =>
        rw [hb, error_bind] at h
        cases h
        exact ⟨_, by omega, by omega, hb⟩
      | ok b =>
        rw [hb, ok_bind] at h
        cases b with
        | true =>
          obtain ⟨x, h1, h2, h3⟩ := ih hl (by omega) (hh.of_nonneg_of_le (by omega) (by omega)) h
          exact ⟨x, h1, by omega, h3⟩
        | false =>
          obtain ⟨x, h1, h2, h3⟩ := ih (by omega) (by omega) hh h
          exact ⟨x, by omega, h2, h3⟩
    · rw [leastFrom, if_neg hlt] at h
      cases h

theorem least_mem (hl : 1 ≤ low) (hle : low ≤ high) (hh : Fits high)
    (h : least p low high = .ok r) : low ≤ r ∧ r ≤ high :=
  have hs := leastFrom_spec hl hle hh le_rfl h
  ⟨hs.1, hs.2.1⟩

theorem least_passes (hl : 1 ≤ low) (hle : low ≤ high) (hh : Fits high)
    (h : least p low high = .ok r) (hp : p high = .ok true) : p r = .ok true := by
  rcases (leastFrom_spec hl hle hh le_rfl h).2.2.1 with h1 | h1
  · rw [h1]; exact hp
  · exact h1

/-- Below the result a test that stays passed fails. -/
theorem least_below (hl : 1 ≤ low) (hle : low ≤ high) (hh : Fits high)
    (hmono : ∀ x y, low ≤ x → x ≤ y → y ≤ high → p x = .ok true → p y ≠ .ok false)
    (h : least p low high = .ok r) {x : ℤ} (hx : low ≤ x) (hxr : x < r) : p x ≠ .ok true := by
  intro hp
  obtain ⟨h1, h2, -, h4⟩ := leastFrom_spec hl hle hh le_rfl h
  rcases h4 with h4 | h4
  · omega
  · exact hmono x (r - 1) hx (by omega) (by omega) hp h4

theorem least_error {e : Fault ε} (hl : 1 ≤ low) (hle : low ≤ high) (hh : Fits high)
    (h : least p low high = .error e) : ∃ x, low ≤ x ∧ x ≤ high ∧ p x = .error e :=
  leastFrom_error hl hle hh h

theorem least_returns (hl : 1 ≤ low) (hle : low ≤ high) (hh : Fits high)
    (hp : ∀ x, low ≤ x → x ≤ high → Returns (p x)) : Returns (least p low high) := by
  cases h : least p low high with
  | ok r => exact ⟨r, rfl⟩
  | error e =>
    obtain ⟨x, h1, h2, h3⟩ := least_error hl hle hh h
    obtain ⟨b, hb⟩ := hp x h1 h2
    rw [h3] at hb
    cases hb

theorem least_noAbort (hh : high ≤ maxVal) (hp : ∀ x, 1 ≤ x → x ≤ high → NoAbort (p x)) :
    NoAbort (least p 1 high) := by
  intro h
  rcases lt_or_ge high 1 with hlt | hle
  · have h0 : (high - 1).toNat = 0 := by omega
    rw [least, h0] at h
    cases h
  · have hfit : Fits high := (show Fits maxVal by decide).of_nonneg_of_le (by omega) hh
    obtain ⟨x, h1, h2, h3⟩ := least_error le_rfl hle hfit h
    exact hp x h1 h2 h3

/-! ## The greatest passing value -/

/-- **Run of the upward search.** The result is in the interval and, unless it is the lower end,
passed the test; the value after it failed unless it is the upper end. -/
theorem greatestFrom_spec (hl : 1 ≤ low) (hle : low ≤ high) (hh : Fits high)
    (hf : (high - low).toNat ≤ fuel) (h : greatestFrom p fuel low high = .ok r) :
    low ≤ r ∧ r ≤ high ∧ (r = low ∨ p r = .ok true) ∧ (r = high ∨ p (r + 1) = .ok false) := by
  induction fuel generalizing low high with
  | zero =>
    simp only [greatestFrom, Except.ok.injEq] at h
    subst h
    exact ⟨le_rfl, hle, .inl rfl, .inl (by omega)⟩
  | succ fuel ih =>
    by_cases hlt : low < high
    · rw [greatestFrom_step hl hh hlt] at h
      obtain ⟨b, hb, h⟩ := bind_eq_ok.mp h
      cases b with
      | true =>
        obtain ⟨h1, h2, h3, h4⟩ := ih (by omega) (by omega) hh (by omega) h
        refine ⟨by omega, h2, .inr ?_, h4⟩
        rcases h3 with h3 | h3
        · rw [h3]; exact hb
        · exact h3
      | false =>
        obtain ⟨h1, h2, h3, h4⟩ := ih hl (by omega) (hh.of_nonneg_of_le (by omega) (by omega))
          (by omega) h
        refine ⟨h1, by omega, h3, .inr ?_⟩
        rcases h4 with h4 | h4
        · rw [h4, sub_add_cancel]; exact hb
        · exact h4
    · rw [greatestFrom, if_neg hlt, Except.ok.injEq] at h
      subst h
      exact ⟨le_rfl, hle, .inl rfl, .inl (by omega)⟩

/-- **A failing upward search failed on a value of the interval.** -/
theorem greatestFrom_error {e : Fault ε} (hl : 1 ≤ low) (hle : low ≤ high) (hh : Fits high)
    (h : greatestFrom p fuel low high = .error e) : ∃ x, low ≤ x ∧ x ≤ high ∧ p x = .error e := by
  induction fuel generalizing low high with
  | zero => simp [greatestFrom] at h
  | succ fuel ih =>
    by_cases hlt : low < high
    · rw [greatestFrom_step hl hh hlt] at h
      cases hb : p (low + (high - low + 1) / 2) with
      | error e' =>
        rw [hb, error_bind] at h
        cases h
        exact ⟨_, by omega, by omega, hb⟩
      | ok b =>
        rw [hb, ok_bind] at h
        cases b with
        | true =>
          obtain ⟨x, h1, h2, h3⟩ := ih (by omega) (by omega) hh h
          exact ⟨x, by omega, h2, h3⟩
        | false =>
          obtain ⟨x, h1, h2, h3⟩ := ih hl (by omega) (hh.of_nonneg_of_le (by omega) (by omega)) h
          exact ⟨x, h1, by omega, h3⟩
    · rw [greatestFrom, if_neg hlt] at h
      cases h

theorem greatest_mem (hl : 1 ≤ low) (hle : low ≤ high) (hh : Fits high)
    (h : greatest p low high = .ok r) : low ≤ r ∧ r ≤ high :=
  have hs := greatestFrom_spec hl hle hh le_rfl h
  ⟨hs.1, hs.2.1⟩

theorem greatest_passes (hl : 1 ≤ low) (hle : low ≤ high) (hh : Fits high)
    (h : greatest p low high = .ok r) (hp : p low = .ok true) : p r = .ok true := by
  rcases (greatestFrom_spec hl hle hh le_rfl h).2.2.1 with h1 | h1
  · rw [h1]; exact hp
  · exact h1

theorem greatest_returns (hl : 1 ≤ low) (hle : low ≤ high) (hh : Fits high)
    (hp : ∀ x, low ≤ x → x ≤ high → Returns (p x)) : Returns (greatest p low high) := by
  cases h : greatest p low high with
  | ok r => exact ⟨r, rfl⟩
  | error e =>
    obtain ⟨x, h1, h2, h3⟩ := greatestFrom_error hl hle hh h
    obtain ⟨b, hb⟩ := hp x h1 h2
    rw [h3] at hb
    cases hb

theorem greatest_noAbort (hl : 1 ≤ low) (hle : low ≤ high) (hh : Fits high)
    (hp : ∀ x, low ≤ x → x ≤ high → NoAbort (p x)) : NoAbort (greatest p low high) := by
  intro h
  obtain ⟨x, h1, h2, h3⟩ := greatestFrom_error hl hle hh h
  exact hp x h1 h2 h3

end Search
