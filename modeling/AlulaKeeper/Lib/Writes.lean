import Mathlib

/-!
# Sequences of writes to a keyed map

`writeAll m ws` performs the writes `ws` on the map `m`, in order.

* `writeAll_of_untouched`: a key that is not written keeps its value.
* `writeAll_of_written`: a key that is written has the value of one of its writes.
* `writeAll_congr`: what was there before under a written key does not matter.
* `writeAll_again`: writes that are performed again change nothing.
-/

namespace Writes

variable {κ ν : Type} [DecidableEq κ]

/-- The map after the writes. -/
def writeAll (m : κ → ν) (ws : List (κ × ν)) : κ → ν :=
  ws.foldl (fun m w => Function.update m w.1 w.2) m

variable {m m' : κ → ν} {ws : List (κ × ν)} {k : κ}

theorem writeAll_of_untouched (h : ∀ w ∈ ws, w.1 ≠ k) : writeAll m ws k = m k := by
  induction ws generalizing m with
  | nil => rfl
  | cons w ws ih =>
    have hne : k ≠ w.1 := (h w List.mem_cons_self).symm
    calc writeAll m (w :: ws) k
        = writeAll (Function.update m w.1 w.2) ws k := rfl
      _ = Function.update m w.1 w.2 k := ih fun w' hw' => h w' (List.mem_cons_of_mem w hw')
      _ = m k := Function.update_of_ne hne _ _

theorem writeAll_of_written (h : ∃ w ∈ ws, w.1 = k) : ∃ w ∈ ws, w.1 = k ∧ writeAll m ws k = w.2 := by
  induction ws generalizing m with
  | nil => simp at h
  | cons w ws ih =>
    by_cases hlater : ∃ w' ∈ ws, w'.1 = k
    · obtain ⟨w', hw', hk, hvalue⟩ := ih hlater (m := Function.update m w.1 w.2)
      exact ⟨w', List.mem_cons_of_mem w hw', hk, hvalue⟩
    · -- the head is the last write to the key
      have hlast : ∀ w' ∈ ws, w'.1 ≠ k := fun w' hw' hk => hlater ⟨w', hw', hk⟩
      obtain rfl : w.1 = k := by
        obtain ⟨w', hw', hk⟩ := h
        obtain rfl | hw' := List.mem_cons.mp hw'
        · exact hk
        · exact absurd hk (hlast w' hw')
      refine ⟨w, List.mem_cons_self, rfl, ?_⟩
      calc writeAll m (w :: ws) w.1
          = writeAll (Function.update m w.1 w.2) ws w.1 := rfl
        _ = Function.update m w.1 w.2 w.1 := writeAll_of_untouched hlast
        _ = w.2 := Function.update_self ..

/-- **The last write wins.** Maps that agree off the written keys agree after the writes. -/
theorem writeAll_congr (h : ∀ k, (∀ w ∈ ws, w.1 ≠ k) → m k = m' k) :
    writeAll m ws = writeAll m' ws := by
  induction ws generalizing m m' with
  | nil =>
    funext k
    exact h k nofun
  | cons w ws ih =>
    refine ih fun k hk => ?_
    change Function.update m w.1 w.2 k = Function.update m' w.1 w.2 k
    by_cases hwk : k = w.1
    · rw [hwk, Function.update_self, Function.update_self]
    · rw [Function.update_of_ne hwk, Function.update_of_ne hwk]
      exact h k (List.forall_mem_cons.mpr ⟨Ne.symm hwk, hk⟩)

/-- **Replay.** Writes that are performed again change nothing. -/
theorem writeAll_again : writeAll (writeAll m ws) ws = writeAll m ws :=
  writeAll_congr fun _ hk => writeAll_of_untouched hk

end Writes
