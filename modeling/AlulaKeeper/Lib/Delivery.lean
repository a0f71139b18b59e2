import Mathlib

/-!
# In-order delivery

Items are numbered; a consumer takes them off a list from the front, and `done` says which it need not
see any more.

* `InOrder done l`: no item of `l` is delivered before one below it, unless that one is done.
* `Covers done l n`: every item below `n` is done or still on its way in `l`.
-/

namespace Delivery

variable {done done' : ℕ → Prop} {l m : List ℕ} {i n k : ℕ}

/-- Every item of the list finds the items below it done or delivered. -/
def InOrder (done : ℕ → Prop) : List ℕ → Prop
  | [] => True
  | i :: l => (∀ j < i, done j) ∧ InOrder (fun j => done j ∨ j = i) l

/-- Every item below `n` is done or in the list. -/
def Covers (done : ℕ → Prop) (l : List ℕ) (n : ℕ) : Prop := ∀ j < n, done j ∨ j ∈ l

theorem covers_nil : Covers done [] n ↔ ∀ j < n, done j := by
  simp [Covers]

theorem Covers.of_le (h : Covers done l n) (hk : k ≤ n) : Covers done l k :=
  fun j hj => h j (hj.trans_le hk)

theorem Covers.append (h : Covers done l n) (m : List ℕ) : Covers done (l ++ m) n :=
  fun j hj => (h j hj).imp_right (List.mem_append_left m)

theorem InOrder.mono (hd : ∀ j, done j → done' j) (h : InOrder done l) : InOrder done' l := by
  induction l generalizing done done' with
  | nil => trivial
  | cons i l ih => exact ⟨fun j hj => hd j (h.1 j hj), ih (fun j => Or.imp_left (hd j)) h.2⟩

theorem inOrder_append :
    InOrder done (l ++ m) ↔ InOrder done l ∧ InOrder (fun j => done j ∨ j ∈ l) m := by
  induction l generalizing done with
  | nil => simp [InOrder]
  | cons i l ih => simp only [List.cons_append, InOrder, ih, List.mem_cons, or_assoc, and_assoc]

theorem InOrder.covers (h : InOrder done (l ++ i :: m)) : Covers done l i :=
  (inOrder_append.mp h).2.1

theorem inOrder_range (h : ∀ j < n, done j) (k : ℕ) : InOrder done (List.range' n k) := by
  induction k generalizing n done with
  | zero => trivial
  | succ k ih =>
    refine ⟨h, ih fun j hj => ?_⟩
    obtain hlt | rfl := Nat.lt_succ_iff_lt_or_eq.mp hj
    · exact .inl (h j hlt)
    · exact .inr rfl

theorem InOrder.append_range (h : InOrder done l) (hc : Covers done l n) (k : ℕ) :
    InOrder done (l ++ List.range' n k) :=
  inOrder_append.mpr ⟨h, inOrder_range hc k⟩

theorem Covers.append_range (h : Covers done l n) (k : ℕ) :
    Covers done (l ++ List.range' n k) (n + k) := by
  intro j hj
  rw [List.mem_append, List.mem_range'_1]
  obtain hlt | hge := lt_or_ge j n
  · exact (h j hlt).imp_right .inl
  · exact .inr (.inr ⟨hge, hj⟩)

theorem Covers.tail (hd : ∀ j, done j → done' j) (hi : done' i) (h : Covers done (i :: l) n) :
    Covers done' l n := by
  intro j hj
  obtain hdone | hmem := h j hj
  · exact .inl (hd j hdone)
  · obtain rfl | hmem := List.mem_cons.mp hmem
    · exact .inl hi
    · exact .inr hmem

theorem InOrder.tail (hd : ∀ j, done j → done' j) (hi : done' i) (h : InOrder done (i :: l)) :
    InOrder done' l := by
  refine h.2.mono ?_
  rintro j (hj | rfl)
  · exact hd j hj
  · exact hi

end Delivery
