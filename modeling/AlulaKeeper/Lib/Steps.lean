import Mathlib

/-!
# Runs of a step system

A step system is a partial function `step : σ → α → Option σ`; an action is enabled where it is defined.

* `Run`: a run whose every action meets a guard in the state before it.
* `Run.invariant`: what one guarded step preserves holds at the end of every guarded run.
* `exec`: the state a list of actions leads to, if they make up a run.
-/

namespace Steps

variable {σ α : Type} (step : σ → α → Option σ)

/-- A run from `s` to `u` whose actions all meet `guard` in the state before them. -/
inductive Run (guard : σ → α → Prop) : σ → List α → σ → Prop
  | nil (s : σ) : Run guard s [] s
  | cons {s t u : σ} {a : α} {as : List α} (hg : guard s a) (hs : step s a = some t)
      (hr : Run guard t as u) : Run guard s (a :: as) u

variable {step} {guard : σ → α → Prop} {s t u : σ} {as bs : List α}

theorem Run.append (h : Run step guard s as t) (h' : Run step guard t bs u) :
    Run step guard s (as ++ bs) u := by
  induction h with
  | nil s => exact h'
  | cons hg hs _ ih => exact .cons hg hs (ih h')

theorem Run.weaken {guard' : σ → α → Prop} (hguard : ∀ s a, guard s a → guard' s a) (h : Run step guard s as u) :
    Run step guard' s as u := by
  induction h with
  | nil s => exact .nil s
  | cons hg hs _ ih => exact .cons (hguard _ _ hg) hs ih

/-- **Run rule.** An invariant that guarded steps preserve holds in every state a guarded run reaches. -/
theorem Run.invariant {I : σ → Prop}
    (hstep : ∀ s a t, I s → guard s a → step s a = some t → I t) (h : Run step guard s as u)
    (h0 : I s) : I u := by
  induction h with
  | nil s => exact h0
  | cons hg hs _ ih => exact ih (hstep _ _ _ h0 hg hs)

variable (step guard)

/-- The state after the actions, unless one of them is not enabled or misses its guard. -/
def exec [∀ s a, Decidable (guard s a)] : σ → List α → Option σ
  | s, [] => some s
  | s, a :: as => if guard s a then (step s a).bind fun t => exec t as else none

variable {step guard}

theorem Run.of_exec [∀ s a, Decidable (guard s a)] (h : exec step guard s as = some u) :
    Run step guard s as u := by
  induction as generalizing s with
  | nil =>
    obtain rfl := Option.some.inj h
    exact .nil s
  | cons a as ih =>
    simp only [exec, Option.ite_none_right_eq_some, Option.bind_eq_some_iff] at h
    obtain ⟨hg, t, hs, ht⟩ := h
    exact .cons hg hs (ih ht)

end Steps
