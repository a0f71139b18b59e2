import Mathlib

/-!
# A replica behind a log

A log of `length` entries takes the state of a keyed map from `state 0` to `state length`; the entry `n` changes
no key outside `touches n`. A replica handles the entries in order and may start over from an earlier one. What
it writes for a key may have been read later than the entry.

* `Settled`: the replica has the state of every key that no entry ahead of it changes.
* `Settled.take`, `Settled.rewind`: an entry handled, and a return to an earlier one.
-/

namespace Replica

variable {κ ν : Type}

/-- A log, by the states before and after each entry. -/
structure Log (κ ν : Type) where
  length : ℕ
  state : ℕ → κ → ν
  touches : ℕ → Set κ
  frame : ∀ n k, n < length → k ∉ touches n → state (n + 1) k = state n k

/-- No entry from `n` on changes the key. -/
def Log.Quiet (log : Log κ ν) (n : ℕ) (k : κ) : Prop := ∀ i, n ≤ i → i < log.length → k ∉ log.touches i

/-- Of the keys in `dom`, those that no entry ahead changes have their value. -/
def Settled (log : Log κ ν) (dom : Set κ) (next : ℕ) (m : κ → ν) : Prop :=
  ∀ k ∈ dom, log.Quiet next k → m k = log.state next k

variable {log : Log κ ν} {dom : Set κ} {next n n' : ℕ} {m m' : κ → ν} {k : κ}

theorem Log.Quiet.mono (h : log.Quiet n k) (hle : n ≤ n') : log.Quiet n' k :=
  fun i hi hlt => h i (hle.trans hi) hlt

theorem Log.Quiet.state_eq (h : log.Quiet n k) (hle : n ≤ n') (hlt : n' ≤ log.length) :
    log.state n' k = log.state n k := by
  induction n', hle using Nat.le_induction with
  | base => rfl
  | succ n' hle ih =>
    rw [log.frame n' k (by omega) (h n' hle (by omega)), ih (by omega)]

/-- **One entry handled.** A key it touches is written with its value as of that entry or of a later one. -/
theorem Settled.take (h : Settled log dom next m) (hnext : next < log.length)
    (hoff : ∀ k ∈ dom, k ∉ log.touches next → m' k = m k)
    (hon : ∀ k ∈ dom, k ∈ log.touches next → ∃ n, next < n ∧ n ≤ log.length ∧ m' k = log.state n k) :
    Settled log dom (next + 1) m' := by
  intro k hk hquiet
  by_cases htouched : k ∈ log.touches next
  · obtain ⟨n, hlt, hle, hvalue⟩ := hon k hk htouched
    rw [hvalue, hquiet.state_eq hlt hle]
  · have hnow : log.Quiet next k := by
      intro i hi hlt
      obtain rfl | hi := hi.eq_or_lt
      · exact htouched
      · exact hquiet i hi hlt
    rw [hoff k hk htouched, h k hk hnow, log.frame next k hnext htouched]

/-- **A return.** What is settled stays so when earlier entries are handled again. -/
theorem Settled.rewind (h : Settled log dom next m) (hle : n ≤ next) (hnext : next ≤ log.length) :
    Settled log dom n m := by
  intro k hk hquiet
  rw [h k hk (hquiet.mono hle), hquiet.state_eq hle hnext]

theorem Settled.congr (h : Settled log dom next m) (heq : ∀ k ∈ dom, m' k = m k) : Settled log dom next m' := by
  intro k hk hquiet
  rw [heq k hk, h k hk hquiet]

end Replica
