import Mathlib
import AlulaKeeper.Lib.I128

/-!
# Loops that skip, keep or stop

A `for` loop whose body goes on to the next element, keeps something and goes on, or returns from the whole
function with a fixed answer. A loop of this shape is a fold of what its elements keep exactly as long as no
element stops it.

* `Loop.run`: the loop.
* `run_of_goesOn`: without a stop it is the fold of what is kept.
* `run_eq_ok_cases`: what a returned answer went through.
* `run_of_stop`: with a stop it is the fixed answer.
-/

namespace Loop

open I128

/-- How the body of a loop ends. -/
inductive Turn (β : Type) where
  | skip
  | keep (b : β)
  | stop
  deriving DecidableEq, Repr

variable {ε α β σ : Type} (body : α → Except (Fault ε) (Turn β)) (add : σ → β → σ) (stopped : σ)

/-- The loop over a list, from what was kept so far. -/
def run : σ → List α → Except (Fault ε) σ
  | s, [] => .ok s
  | s, x :: xs => do
    match ← body x with
    | .skip => run s xs
    | .keep b => run (add s b) xs
    | .stop => return stopped

/-- The loop goes on after `x`. -/
def GoesOn (x : α) : Prop := ∃ turn, body x = .ok turn ∧ turn ≠ .stop

/-- What `x` keeps. -/
def kept (x : α) : Option β :=
  match body x with
  | .ok (.keep b) => some b
  | _ => none

variable {body add stopped} {s r : σ} {x : α} {xs : List α}

theorem kept_eq_some {b : β} : kept body x = some b ↔ body x = .ok (.keep b) := by
  unfold kept
  split
  · rename_i c hc
    rw [hc, Option.some.injEq, Except.ok.injEq, Turn.keep.injEq]
  · rename_i hother
    constructor
    · intro h
      cases h
    · intro h
      exact (hother b h).elim

theorem mem_keeps {b : β} : b ∈ xs.filterMap (kept body) ↔ ∃ x ∈ xs, body x = .ok (.keep b) := by
  simp only [List.mem_filterMap, kept_eq_some]

/-- **A loop nothing stops** folds what its elements keep. -/
theorem run_of_goesOn (h : ∀ x ∈ xs, GoesOn body x) :
    run body add stopped s xs = .ok ((xs.filterMap (kept body)).foldl add s) := by
  induction xs generalizing s with
  | nil => rfl
  | cons x xs ih =>
    have hrest := fun y hy => h y (List.mem_cons_of_mem x hy)
    obtain ⟨turn, hturn, hne⟩ := h x List.mem_cons_self
    rw [run, hturn, ok_bind]
    cases turn with
    | skip =>
      have hnone : kept body x = none := by rw [kept, hturn]
      rw [List.filterMap_cons_none hnone]
      exact ih hrest
    | keep b =>
      rw [List.filterMap_cons_some (kept_eq_some.mpr hturn), List.foldl_cons]
      exact ih hrest
    | stop => exact absurd rfl hne

/-- **What returns went on to the end or was stopped.** -/
theorem run_eq_ok_cases (h : run body add stopped s xs = .ok r) :
    (∀ x ∈ xs, GoesOn body x) ∨ (∃ x ∈ xs, body x = .ok .stop) ∧ r = stopped := by
  induction xs generalizing s with
  | nil => exact .inl fun _ hx => (List.not_mem_nil hx).elim
  | cons x xs ih =>
    obtain ⟨turn, hturn, h⟩ := bind_eq_ok.mp h
    have hon : turn ≠ .stop → (∃ s', run body add stopped s' xs = .ok r) →
        (∀ y ∈ x :: xs, GoesOn body y) ∨ (∃ y ∈ x :: xs, body y = .ok .stop) ∧ r = stopped := by
      rintro hne ⟨s', h⟩
      obtain hrest | ⟨⟨y, hy, hstop⟩, hr⟩ := ih h
      · exact .inl (List.forall_mem_cons.mpr ⟨⟨turn, hturn, hne⟩, hrest⟩)
      · exact .inr ⟨⟨y, List.mem_cons_of_mem x hy, hstop⟩, hr⟩
    cases turn with
    | skip => exact hon (by simp) ⟨s, h⟩
    | keep b => exact hon (by simp) ⟨_, h⟩
    | stop => exact .inr ⟨⟨x, List.mem_cons_self, hturn⟩, (pure_eq_ok.mp h).symm⟩

/-- **A loop an element stops** answers with the fixed answer, if its bodies return. -/
theorem run_of_stop (hreturns : ∀ x ∈ xs, Returns (body x)) (hstop : ∃ x ∈ xs, body x = .ok .stop) :
    run body add stopped s xs = .ok stopped := by
  induction xs generalizing s with
  | nil => exact (List.not_mem_nil hstop.choose_spec.1).elim
  | cons x xs ih =>
    have hrest := fun y hy => hreturns y (List.mem_cons_of_mem x hy)
    obtain ⟨turn, hturn⟩ := hreturns x List.mem_cons_self
    obtain ⟨y, hy, hstop⟩ := hstop
    rw [run, hturn, ok_bind]
    have hlater : turn ≠ .stop → ∃ z ∈ xs, body z = .ok .stop := by
      intro hne
      obtain rfl | hy := List.mem_cons.mp hy
      · exact absurd (ok_unique hturn hstop) hne
      · exact ⟨y, hy, hstop⟩
    cases turn with
    | skip => exact ih hrest (hlater (by simp))
    | keep b => exact ih hrest (hlater (by simp))
    | stop => rfl

end Loop
