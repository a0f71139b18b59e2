import Mathlib
import AlulaKeeper.Lib.I128

/-!
# Fallible functions that return on smaller inputs

`Downward f`: where `f` returns, it returns on every smaller non-negative input too, a smaller
non-negative value. Checked scalings are downward (`downward_mulDiv`, `downward_mulDivCeil`) and
sequencing keeps the property (`Downward.bind`, `Downward.min`), so a chain of checked multiplications and
divisions needs its range checked at the top of an interval only.
-/

namespace I128

variable {ε : Type} {f g : ℤ → Except (Fault ε) ℤ}

/-- Where `f` returns, it returns a smaller non-negative value on smaller non-negative inputs. -/
def Downward (f : ℤ → Except (Fault ε) ℤ) : Prop :=
  ∀ ⦃x X Y⦄, 0 ≤ x → x ≤ X → f X = .ok Y → ∃ y, f x = .ok y ∧ 0 ≤ y ∧ y ≤ Y

theorem Downward.returns (hf : Downward f) {x X : ℤ} (h0 : 0 ≤ x) (h : x ≤ X) (hX : Returns (f X)) :
    Returns (f x) := by
  obtain ⟨Y, hY⟩ := hX
  obtain ⟨y, hy, -⟩ := hf h0 h hY
  exact ⟨y, hy⟩

theorem Downward.nonneg (hf : Downward f) {x y : ℤ} (h0 : 0 ≤ x) (hx : f x = .ok y) : 0 ≤ y := by
  obtain ⟨y', hy', h, -⟩ := hf h0 le_rfl hx
  rw [hx, Except.ok.injEq] at hy'
  omega

theorem Downward.mono (hf : Downward f) {x X y Y : ℤ} (h0 : 0 ≤ x) (h : x ≤ X) (hx : f x = .ok y)
    (hX : f X = .ok Y) : y ≤ Y := by
  obtain ⟨y', hy', -, hle⟩ := hf h0 h hX
  rw [hx, Except.ok.injEq] at hy'
  omega

/-! ## Sequencing -/

theorem Downward.bind (hf : Downward f) (hg : Downward g) : Downward fun x => f x >>= g := by
  intro x X Y h0 h hY
  obtain ⟨A, hA, hY⟩ := bind_eq_ok.mp hY
  obtain ⟨a, ha, ha0, haA⟩ := hf h0 h hA
  obtain ⟨y, hy, hy0, hyY⟩ := hg ha0 haA hY
  exact ⟨y, bind_eq_ok.mpr ⟨a, ha, hy⟩, hy0, hyY⟩

theorem Downward.min (hf : Downward f) (hg : Downward g) :
    Downward fun x => f x >>= fun a => g x >>= fun b => pure (min a b) := by
  intro x X Y h0 h hY
  simp only [bind_eq_ok, pure_eq_ok] at hY
  obtain ⟨A, hA, B, hB, rfl⟩ := hY
  obtain ⟨a, ha, ha0, haA⟩ := hf h0 h hA
  obtain ⟨b, hb, hb0, hbB⟩ := hg h0 h hB
  refine ⟨_, bind_eq_ok.mpr ⟨a, ha, bind_eq_ok.mpr ⟨b, hb, rfl⟩⟩, le_min ha0 hb0, ?_⟩
  exact min_le_min haA hbB

theorem Downward.const (hf : Downward f) : Downward fun x => f x >>= fun _ => pure 0 := by
  intro x X Y h0 h hY
  simp only [bind_eq_ok, pure_eq_ok] at hY
  obtain ⟨A, hA, rfl⟩ := hY
  obtain ⟨a, ha, -⟩ := hf h0 h hA
  exact ⟨0, bind_eq_ok.mpr ⟨a, ha, rfl⟩, le_rfl, le_rfl⟩

/-! ## Checked scalings

`P` stands for what a scaling checks besides its input. -/

theorem downward_mulDiv {P : Prop} {b d : ℤ} (hb : 0 ≤ b) (hd : 0 < d)
    (hf : ∀ x y, f x = .ok y ↔ P ∧ Fits (x * b) ∧ y = (x * b).tdiv d) : Downward f := by
  intro x X Y h0 h hY
  obtain ⟨hP, hfit, rfl⟩ := (hf X Y).mp hY
  refine ⟨_, (hf x _).mpr ⟨hP, hfit.mul_of_le h0 h, rfl⟩, ?_, ?_⟩
  · exact Int.tdiv_nonneg (mul_nonneg h0 hb) hd.le
  · exact Int.tdiv_le_tdiv hd (mul_le_mul_of_nonneg_right h hb)

theorem downward_mulDivCeil {P : Prop} {b d : ℤ} (hb : 0 ≤ b) (hd : 0 < d)
    (hf : ∀ x y, f x = .ok y ↔
      P ∧ Fits (x * b) ∧ Fits (x * b + (d - 1)) ∧ y = (x * b + (d - 1)).tdiv d) : Downward f := by
  intro x X Y h0 h hY
  obtain ⟨hP, hfit, hsum, rfl⟩ := (hf X Y).mp hY
  have hx : 0 ≤ x * b := mul_nonneg h0 hb
  have hle : x * b ≤ X * b := mul_le_mul_of_nonneg_right h hb
  refine ⟨_, (hf x _).mpr ⟨hP, hfit.mul_of_le h0 h, ?_, rfl⟩, ?_, ?_⟩
  · exact hsum.of_nonneg_of_le (by omega) (by omega)
  · exact Int.tdiv_nonneg (by omega) hd.le
  · exact Int.tdiv_le_tdiv hd (by omega)

end I128
