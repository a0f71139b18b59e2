import Mathlib

/-!
# Fields by name

Entries under keys, some of which name a field.

* `get`: the value of the first entry that names a field.
* `Distinct`: no field is named twice; then entries are found in whatever order they stand (`get_of_mem`).
-/

namespace Fields

variable {κ β : Type} (name : κ → Option String)

/-- The value of the first entry under the name. -/
def get (entries : List (κ × β)) (key : String) : Option β :=
  entries.findSome? fun entry => if name entry.1 = some key then some entry.2 else none

/-- No name stands twice. -/
def Distinct (entries : List (κ × β)) : Prop := (entries.filterMap fun entry => name entry.1).Nodup

variable {name} {entries entries' : List (κ × β)} {entry : κ × β} {key : String} {value : β}

theorem get_cons : get name (entry :: entries) key =
    if name entry.1 = some key then some entry.2 else get name entries key := by
  by_cases h : name entry.1 = some key <;> simp [get, h]

theorem Distinct.of_cons (hd : Distinct name (entry :: entries)) :
    (∀ key, name entry.1 = some key → ∀ other ∈ entries, name other.1 ≠ some key) ∧ Distinct name entries := by
  unfold Distinct at hd ⊢
  rw [List.filterMap_cons] at hd
  cases hname : name entry.1 with
  | none =>
    rw [hname] at hd
    exact ⟨by simp, hd⟩
  | some key =>
    rw [hname] at hd
    have hd := List.nodup_cons.mp hd
    refine ⟨?_, hd.2⟩
    rintro _ ⟨rfl⟩ other hother h
    exact hd.1 (List.mem_filterMap.mpr ⟨other, hother, h⟩)

/-- Among distinct names every entry is found under its own. -/
theorem get_of_mem {k : κ} (hd : Distinct name entries) (hk : name k = some key)
    (hmem : (k, value) ∈ entries) : get name entries key = some value := by
  induction entries with
  | nil => exact absurd hmem List.not_mem_nil
  | cons entry entries ih =>
    rw [get_cons]
    obtain rfl | hmem := List.mem_cons.mp hmem
    · rw [if_pos hk]
    · have hne : name entry.1 ≠ some key := fun h => hd.of_cons.1 key h _ hmem hk
      rw [if_neg hne]
      exact ih hd.of_cons.2 hmem

end Fields
