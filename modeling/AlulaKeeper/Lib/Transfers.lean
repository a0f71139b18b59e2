import Mathlib

/-!
# Transfers into and out of accounts

A list of transfers is paid one after the other, and no account is ever overdrawn.

* `pay`: what the accounts hold in the end, unless one of the transfers overdraws.
* `pays_cons`, `pays_append`, `pay_eq_add`: transfer by transfer, part by part, and what became of an account.
* `pay_of_le`: fuller accounts pay too, and change as much.
* `pay_covered`: where part of what is held pays, no more than that part is lost.
-/

namespace Transfers

/-- An amount that an account receives, or pays where it is negative. -/
structure Transfer (κ : Type) where
  account : κ
  amount : ℤ
  deriving DecidableEq, Repr

variable {κ : Type} [DecidableEq κ]

/-- The accounts after a transfer. -/
def move (w : κ → ℤ) (t : Transfer κ) : κ → ℤ := Function.update w t.account (w t.account + t.amount)

/-- The transfers, one after the other; none may overdraw its account. -/
def pay : (κ → ℤ) → List (Transfer κ) → Option (κ → ℤ)
  | w, [] => some w
  | w, t :: ts => if 0 ≤ w t.account + t.amount then pay (move w t) ts else none

variable {w w' v : κ → ℤ} {t : Transfer κ} {ts us : List (Transfer κ)} {a : κ}

theorem move_apply : move w t a = w a + if a = t.account then t.amount else 0 := by
  by_cases h : a = t.account
  · subst h
    simp [move]
  · simp [move, h]

theorem pay_cons_of_nonneg (h : 0 ≤ w t.account + t.amount) : pay w (t :: ts) = pay (move w t) ts :=
  if_pos h

theorem pay_cons_eq_some :
    pay w (t :: ts) = some w' ↔ 0 ≤ w t.account + t.amount ∧ pay (move w t) ts = some w' := by
  by_cases h : 0 ≤ w t.account + t.amount <;> simp [pay, h]

theorem pays_nil : ∃ w', pay w [] = some w' := ⟨w, rfl⟩

theorem pays_cons (h : 0 ≤ w t.account + t.amount) (hrest : ∃ w', pay (move w t) ts = some w') :
    ∃ w', pay w (t :: ts) = some w' := by
  rwa [pay_cons_of_nonneg h]

theorem pays_append (h : pay w ts = some w') (hrest : ∃ v, pay w' us = some v) :
    ∃ v, pay w (ts ++ us) = some v := by
  induction ts generalizing w with
  | nil =>
    obtain rfl := Option.some.inj h
    exact hrest
  | cons t ts ih =>
    obtain ⟨hpos, h⟩ := pay_cons_eq_some.mp h
    exact pays_cons hpos (ih h)

/-- What an account receives in all. -/
def net (ts : List (Transfer κ)) (a : κ) : ℤ := (ts.map fun t => if a = t.account then t.amount else 0).sum

theorem pay_eq_add (h : pay w ts = some w') : w' a = w a + net ts a := by
  induction ts generalizing w with
  | nil =>
    obtain rfl := Option.some.inj h
    simp [net]
  | cons t ts ih =>
    have hrest := ih (pay_cons_eq_some.mp h).2
    rw [hrest, move_apply, net, net, List.map_cons, List.sum_cons, add_assoc]

theorem pay_nonneg (hw : ∀ a, 0 ≤ w a) (h : pay w ts = some w') (a : κ) : 0 ≤ w' a := by
  induction ts generalizing w with
  | nil =>
    obtain rfl := Option.some.inj h
    exact hw a
  | cons t ts ih =>
    obtain ⟨hpos, h⟩ := pay_cons_eq_some.mp h
    refine ih (fun b => ?_) h
    by_cases hb : b = t.account
    · subst hb
      simpa [move] using hpos
    · simpa [move, hb] using hw b

theorem pay_of_le (hle : ∀ a, w a ≤ v a) (h : pay w ts = some w') : ∃ v', pay v ts = some v' := by
  induction ts generalizing w v with
  | nil => exact ⟨v, rfl⟩
  | cons t ts ih =>
    obtain ⟨hpos, h⟩ := pay_cons_eq_some.mp h
    have hv : 0 ≤ v t.account + t.amount := by
      have hacc := hle t.account
      omega
    rw [pay_cons_of_nonneg hv]
    refine ih (fun a => ?_) h
    rw [move_apply, move_apply]
    have ha := hle a
    omega

/-- **What a part pays costs no more than the part.** -/
theorem pay_covered (hw : ∀ a, 0 ≤ w a) (h : pay w ts = some w') (hle : ∀ a, w a ≤ v a) :
    ∃ v', pay v ts = some v' ∧ ∀ a, v a - w a ≤ v' a := by
  obtain ⟨v', hv⟩ := pay_of_le hle h
  refine ⟨v', hv, fun a => ?_⟩
  have hend := pay_nonneg hw h a
  rw [pay_eq_add h] at hend
  rw [pay_eq_add hv]
  omega

end Transfers
