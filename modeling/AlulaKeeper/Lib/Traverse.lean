import Mathlib

/-!
# Results for a whole list

`List.mapM` in `Except`: a result for every element, or the first error.

* `mapM_eq_ok_iff`: it returns the results of its elements, one for each.
* `mapM_of_forall₂`: element by element from another list.
* `forall₂_of_keys`: entries under the same keys, from their values.
-/

namespace Traverse

variable {ε α β γ : Type} {f : α → Except ε β} {xs : List α} {ys : List β} {zs : List γ}

theorem mapM_cons_eq_ok {x : α} :
    (x :: xs).mapM f = .ok ys ↔ ∃ y ys', f x = .ok y ∧ xs.mapM f = .ok ys' ∧ ys = y :: ys' := by
  rw [List.mapM_cons]
  cases hx : f x with
  | error e => simp [bind, Except.bind]
  | ok y =>
    cases hxs : xs.mapM f with
    | error e => simp [bind, Except.bind]
    | ok ys' => simp [bind, Except.bind, pure, Except.pure, eq_comm]

theorem mapM_eq_ok_iff : xs.mapM f = .ok ys ↔ List.Forall₂ (fun x y => f x = .ok y) xs ys := by
  induction xs generalizing ys with
  | nil => simp [pure, Except.pure, eq_comm]
  | cons x xs ih =>
    rw [mapM_cons_eq_ok, List.forall₂_cons_left_iff]
    simp only [ih]

theorem mapM_of_forall₂ {g : γ → β} (h : List.Forall₂ (fun z x => f x = .ok (g z)) zs xs) :
    xs.mapM f = .ok (zs.map g) := by
  rw [mapM_eq_ok_iff, List.forall₂_map_right_iff]
  exact h.flip

theorem forall₂_of_keys {κ : Type} {R : α → β → Prop} {as : List (κ × α)} {bs : List (κ × β)}
    (hkeys : bs.map Prod.fst = as.map Prod.fst) (h : List.Forall₂ R (as.map Prod.snd) (bs.map Prod.snd)) :
    List.Forall₂ (fun a b => b.1 = a.1 ∧ R a.2 b.2) as bs := by
  induction as generalizing bs with
  | nil =>
    rw [List.map_nil, List.map_eq_nil_iff] at hkeys
    rw [hkeys]
    exact .nil
  | cons a as ih =>
    obtain ⟨b, bs', rfl, hkey, hkeys⟩ := List.map_eq_cons_iff.mp hkeys
    rw [List.map_cons, List.map_cons, List.forall₂_cons] at h
    exact .cons ⟨hkey, h.1⟩ (ih hkeys h.2)

end Traverse
