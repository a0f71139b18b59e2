import Mathlib
import AlulaKeeper.Lib.I128

/-!
# Folds and sums over a list

Rules for `List.foldlM` over a checked sum, and for sums of which one term or one part is known.

* `foldlM_le`, `foldlM_rawAdd`: what a returned total bounds, and what it is.
* `returns_foldlM_rawAdd`: a total that fits is returned.
* `foldlM_invariant`, `foldlM_step`, `foldlM_noAbort`: a fold from its steps.
* `mapM_sum_le`: a linear bound on every element, for the sums.
* `foldlM_rel`: two totals of one list, compared step by step.
* `sum_add_le_sum`: one term grows and none shrinks.
* `sum_le_sum_of_subset`: a part without repetitions.
-/

namespace Fold

open I128

variable {ε α : Type} {step : ℤ → α → Except (Fault ε) ℤ} {l : List α} {a s : ℤ}

/-- **Bounded increments.** If every step adds at most `B`, the total is at most `B` a step. -/
theorem foldlM_le {B : ℤ} (hstep : ∀ x ∈ l, ∀ t t', step t x = .ok t' → t' ≤ t + B)
    (h : l.foldlM step a = .ok s) : s ≤ a + l.length * B := by
  induction l generalizing a with
  | nil =>
    simp only [List.foldlM_nil, pure_eq_ok] at h
    simp [h]
  | cons x l ih =>
    rw [List.foldlM_cons] at h
    obtain ⟨t, ht, h⟩ := bind_eq_ok.mp h
    have h1 := hstep x List.mem_cons_self a t ht
    have h2 := ih (fun y hy => hstep y (List.mem_cons_of_mem _ hy)) h
    rw [List.length_cons]
    push_cast
    linarith

theorem foldlM_invariant {I : ℤ → Prop} (hstep : ∀ x ∈ l, ∀ t t', I t → step t x = .ok t' → I t') (ha : I a)
    (h : l.foldlM step a = .ok s) : I s := by
  induction l generalizing a with
  | nil =>
    rw [List.foldlM_nil, pure_eq_ok] at h
    rwa [← h]
  | cons x l ih =>
    rw [List.foldlM_cons] at h
    obtain ⟨t, ht, h⟩ := bind_eq_ok.mp h
    exact ih (fun y hy => hstep y (List.mem_cons_of_mem _ hy)) (hstep x List.mem_cons_self a t ha ht) h

theorem mapM_sum_le {f : ℤ → Except (Fault ε) ℤ} {xs ys : List ℤ} {c d : ℤ}
    (hf : ∀ x ∈ xs, ∀ y, f x = .ok y → y * c ≤ x * d) (h : xs.mapM f = .ok ys) :
    ys.sum * c ≤ xs.sum * d := by
  induction xs generalizing ys with
  | nil =>
    rw [List.mapM_nil, pure_eq_ok] at h
    simp [← h]
  | cons x xs ih =>
    simp only [List.mapM_cons, bind_eq_ok, pure_eq_ok] at h
    obtain ⟨y, hy, ys, hys, rfl⟩ := h
    have hhead := hf x List.mem_cons_self y hy
    have htail := ih (fun z hz => hf z (List.mem_cons_of_mem _ hz)) hys
    rw [List.sum_cons, List.sum_cons]
    linarith

theorem foldlM_step {x : α} (hx : x ∈ l) (h : l.foldlM step a = .ok s) : ∃ t t', step t x = .ok t' := by
  induction l generalizing a with
  | nil => cases hx
  | cons y l ih =>
    rw [List.foldlM_cons] at h
    obtain ⟨t, ht, h⟩ := bind_eq_ok.mp h
    obtain rfl | hx := List.mem_cons.mp hx
    · exact ⟨a, t, ht⟩
    · exact ih hx h

theorem foldlM_noAbort (hstep : ∀ x ∈ l, ∀ t, NoAbort (step t x)) : NoAbort (l.foldlM step a) := by
  induction l generalizing a with
  | nil => nofun
  | cons x l ih =>
    rw [List.foldlM_cons]
    exact (hstep x List.mem_cons_self a).bind fun _ _ => ih fun y hy => hstep y (List.mem_cons_of_mem _ hy)

theorem foldlM_congr {step' : ℤ → α → Except (Fault ε) ℤ}
    (h : ∀ x ∈ l, ∀ t, step t x = step' t x) : l.foldlM step a = l.foldlM step' a := by
  induction l generalizing a with
  | nil => rfl
  | cons x l ih =>
    rw [List.foldlM_cons, List.foldlM_cons, h x List.mem_cons_self]
    congr 1
    funext t
    exact ih fun y hy => h y (List.mem_cons_of_mem _ hy)

/-- Two folds over one list keep a relation between their accumulators that every pair of steps keeps. -/
theorem foldlM_rel {step' : ℤ → α → Except (Fault ε) ℤ} {R : ℤ → ℤ → Prop} {b s' : ℤ}
    (hstep : ∀ x ∈ l, ∀ t t' u u', R t u → step t x = .ok t' → step' u x = .ok u' → R t' u')
    (hR : R a b) (h : l.foldlM step a = .ok s) (h' : l.foldlM step' b = .ok s') : R s s' := by
  induction l generalizing a b with
  | nil =>
    simp only [List.foldlM_nil, pure_eq_ok] at h h'
    rwa [← h, ← h']
  | cons x l ih =>
    rw [List.foldlM_cons] at h h'
    obtain ⟨t, ht, h⟩ := bind_eq_ok.mp h
    obtain ⟨u, hu, h'⟩ := bind_eq_ok.mp h'
    exact ih (fun y hy => hstep y (List.mem_cons_of_mem _ hy))
      (hstep x List.mem_cons_self a t b u hR ht hu) h h'

theorem foldlM_rawAdd {f : α → ℤ}
    (h : l.foldlM (fun t x => (rawAdd t (f x) : Except (Fault ε) ℤ)) a = .ok s) :
    s = a + (l.map f).sum := by
  induction l generalizing a with
  | nil =>
    simp only [List.foldlM_nil, pure_eq_ok] at h
    simp [h]
  | cons x l ih =>
    rw [List.foldlM_cons] at h
    obtain ⟨t, ht, h⟩ := bind_eq_ok.mp h
    obtain ⟨-, rfl⟩ := rawAdd_eq_ok.mp ht
    rw [ih h, List.map_cons, List.sum_cons, add_assoc]

/-- A trapping sum of non-negative terms whose exact total fits returns, in whatever order it is taken. -/
theorem returns_foldlM_rawAdd {f : α → ℤ} (ha : 0 ≤ a) (hf : ∀ x ∈ l, 0 ≤ f x)
    (hle : a + (l.map f).sum ≤ maxVal) :
    Returns (l.foldlM (fun t x => (rawAdd t (f x) : Except (Fault ε) ℤ)) a) := by
  induction l generalizing a with
  | nil => exact ⟨a, rfl⟩
  | cons x l ih =>
    rw [List.map_cons, List.sum_cons] at hle
    have hx := hf x List.mem_cons_self
    have hl : ∀ y ∈ l, 0 ≤ f y := fun y hy => hf y (List.mem_cons_of_mem _ hy)
    have hrest : 0 ≤ (l.map f).sum := by
      refine List.sum_nonneg fun v hv => ?_
      obtain ⟨y, hy, rfl⟩ := List.mem_map.mp hv
      exact hl y hy
    have hfits : Fits (a + f x) := ⟨le_trans (by decide) (add_nonneg ha hx), by linarith⟩
    rw [List.foldlM_cons, rawAdd, raw_eq_ok.mpr ⟨hfits, rfl⟩, ok_bind]
    exact ih (add_nonneg ha hx) hl (by linarith)

theorem sum_add_le_sum {f g : α → ℤ} {x : α} (h : ∀ y ∈ l, f y ≤ g y) (hx : x ∈ l)
    (hgain : f x + a ≤ g x) : (l.map f).sum + a ≤ (l.map g).sum := by
  induction l with
  | nil => cases hx
  | cons y l ih =>
    simp only [List.map_cons, List.sum_cons]
    have hy := h y List.mem_cons_self
    have hl : ∀ z ∈ l, f z ≤ g z := fun z hz => h z (List.mem_cons_of_mem y hz)
    obtain rfl | hx := List.mem_cons.mp hx
    · have := List.sum_le_sum hl
      linarith
    · have := ih hl hx
      linarith

/-- A list without repetitions sums to at most a list of non-negative terms that contains it. -/
theorem sum_le_sum_of_subset {l m : List α} {f : α → ℤ} (hnodup : l.Nodup) (hsub : l ⊆ m)
    (hf : ∀ x ∈ m, 0 ≤ f x) : (l.map f).sum ≤ (m.map f).sum := by
  obtain ⟨k, hperm, hk⟩ := hnodup.subperm hsub
  rw [← (hperm.map f).sum_eq]
  refine (hk.map f).sum_le_sum fun v hv => ?_
  obtain ⟨x, hx, rfl⟩ := List.mem_map.mp hv
  exact hf x hx

end Fold
