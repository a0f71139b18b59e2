import Mathlib

/-!
# Searching texts

* `afterFirst`: what follows the first occurrence of a marker.
* `afterFirst_append`: it is found behind any text that does not contain it, if the marker's first letter
  occurs nowhere else in it.
* `leadingNumber`: the number at the start of a text.
-/

namespace Text

section Search

variable {α : Type} [DecidableEq α] {marker text before after rest : List α} {a : α}

/-- What follows the first occurrence of the marker. -/
def afterFirst (marker : List α) : List α → Option (List α)
  | [] => if marker <+: [] then some [] else none
  | a :: text =>
    if marker <+: a :: text then some ((a :: text).drop marker.length) else afterFirst marker text

theorem afterFirst_of_prefix (h : marker <+: text) :
    afterFirst marker text = some (text.drop marker.length) := by
  cases text with
  | nil => simp [afterFirst, h]
  | cons a text => rw [afterFirst, if_pos h]

omit [DecidableEq α] in
/-- A marker that starts inside a text does not start another one after it. -/
theorem not_prefix_of_append (after : List α) (ha : a ∉ marker) {b : α} (hnot : ¬ a :: marker <+: b :: before) :
    ¬ a :: marker <+: b :: before ++ a :: after := by
  rintro ⟨rest, hrest⟩
  rw [List.cons_append, List.cons_append, List.cons_eq_cons] at hrest
  obtain ⟨hab, htail⟩ := hrest
  obtain ⟨mid, hbefore, -⟩ | ⟨mid, hmarker, hafter⟩ := List.append_eq_append_iff.mp htail
  · exact hnot ⟨mid, by rw [hab, hbefore, List.cons_append]⟩
  · cases mid with
    | nil => exact hnot ⟨[], by rw [hmarker, hab]; simp⟩
    | cons c mid =>
      obtain ⟨hc, -⟩ := List.cons_eq_cons.mp hafter
      refine ha ?_
      rw [hmarker, hc]
      simp

/-- **The first occurrence is the one after a text without any.** -/
theorem afterFirst_append (rest : List α) (ha : a ∉ marker) (hnot : ¬ a :: marker <:+: before) :
    afterFirst (a :: marker) (before ++ (a :: marker ++ rest)) = some rest := by
  induction before with
  | nil =>
    rw [List.nil_append, afterFirst_of_prefix (List.prefix_append _ _), List.drop_left]
  | cons b before ih =>
    rw [List.infix_cons_iff, not_or] at hnot
    have hskip := not_prefix_of_append (marker ++ rest) ha hnot.1
    rw [List.cons_append, afterFirst, if_neg (by simpa using hskip)]
    exact ih hnot.2

theorem afterFirst_append_of_not_mem (marker text : List α) (hnot : a ∉ before) :
    afterFirst (a :: marker) (before ++ text) = afterFirst (a :: marker) text := by
  induction before with
  | nil => rfl
  | cons b before ih =>
    rw [List.mem_cons, not_or] at hnot
    have hskip : ¬ a :: marker <+: b :: (before ++ text) := fun h => hnot.1 (List.cons_prefix_cons.mp h).1
    rw [List.cons_append, afterFirst, if_neg hskip]
    exact ih hnot.2

end Search

/-! ## Numbers -/

/-- The number at the start of a text, if it starts with a digit and the number is below the bound. -/
def leadingNumber (bound : ℕ) (text : List Char) : Option ℕ :=
  let digits := text.takeWhile Char.isDigit
  if digits = [] then none
  else
    let n := Nat.ofDigitChars 10 digits 0
    if n < bound then some n else none

theorem takeWhile_isDigit_toDigits {n : ℕ} {rest : List Char}
    (hrest : ∀ c ∈ rest.head?, c.isDigit = false) :
    (Nat.toDigits 10 n ++ rest).takeWhile Char.isDigit = Nat.toDigits 10 n := by
  have hdigits : ∀ c ∈ Nat.toDigits 10 n, c.isDigit = true := fun c hc =>
    Nat.isDigit_of_mem_toDigits (by decide) (by decide) hc
  have hstop : rest.takeWhile Char.isDigit = [] := by
    cases rest with
    | nil => rfl
    | cons c rest => simp [hrest c rfl]
  rw [List.takeWhile_append_of_pos hdigits, hstop, List.append_nil]

theorem leadingNumber_toDigits (bound n : ℕ) {rest : List Char}
    (hrest : ∀ c ∈ rest.head?, c.isDigit = false) :
    leadingNumber bound (Nat.toDigits 10 n ++ rest) = if n < bound then some n else none := by
  simp only [leadingNumber, takeWhile_isDigit_toDigits hrest, Nat.toDigits_ne_nil, if_false,
    Nat.ofDigitChars_ten_toDigits]

end Text
