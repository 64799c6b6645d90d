/-
Linear interpolation between two points.

The value is the mean of the two ordinates, weighted by the distance from the
other point, and so lies between them; `interpolate_eq_slope` is the form with a
slope.

* `interpolate_left`, `interpolate_right` — through the points;
* `min_le_interpolate`, `interpolate_le_max` — between the ordinates;
* `interpolate_mono` — in the abscissa.
-/
import Mathlib.Algebra.Order.Field.Basic
import Mathlib.Tactic.FieldSimp
import Mathlib.Tactic.Ring

namespace Interpolation

variable {K : Type*} [Field K]

/-- The line through `(x₀, y₀)` and `(x₁, y₁)` at `x`. -/
def interpolate (x₀ y₀ x₁ y₁ x : K) : K := (y₀ * (x₁ - x) + y₁ * (x - x₀)) / (x₁ - x₀)

section Field

variable {x₀ y₀ x₁ y₁ x : K}

theorem interpolate_eq_slope (h : x₀ ≠ x₁) :
    interpolate x₀ y₀ x₁ y₁ x = (y₁ - y₀) / (x₁ - x₀) * (x - x₀) + y₀ := by
  have hne : x₁ - x₀ ≠ 0 := sub_ne_zero.mpr h.symm
  rw [interpolate]
  field_simp
  ring

theorem interpolate_left (h : x₀ ≠ x₁) : interpolate x₀ y₀ x₁ y₁ x₀ = y₀ := by
  rw [interpolate_eq_slope h, sub_self, mul_zero, zero_add]

theorem interpolate_right (h : x₀ ≠ x₁) : interpolate x₀ y₀ x₁ y₁ x₁ = y₁ := by
  rw [interpolate_eq_slope h, div_mul_cancel₀ _ (sub_ne_zero.mpr h.symm), sub_add_cancel]

end Field

variable [LinearOrder K] [IsStrictOrderedRing K] {x₀ y₀ x₁ y₁ x x' y : K}

/-- No more than a bound of both ordinates. -/
theorem interpolate_le (h : x₀ < x₁) (h₀ : x₀ ≤ x) (h₁ : x ≤ x₁) (hy₀ : y₀ ≤ y) (hy₁ : y₁ ≤ y) :
    interpolate x₀ y₀ x₁ y₁ x ≤ y := by
  rw [interpolate, div_le_iff₀ (sub_pos.mpr h)]
  calc y₀ * (x₁ - x) + y₁ * (x - x₀) ≤ y * (x₁ - x) + y * (x - x₀) :=
        add_le_add (mul_le_mul_of_nonneg_right hy₀ (sub_nonneg.mpr h₁))
          (mul_le_mul_of_nonneg_right hy₁ (sub_nonneg.mpr h₀))
    _ = y * (x₁ - x₀) := by ring

theorem le_interpolate (h : x₀ < x₁) (h₀ : x₀ ≤ x) (h₁ : x ≤ x₁) (hy₀ : y ≤ y₀) (hy₁ : y ≤ y₁) :
    y ≤ interpolate x₀ y₀ x₁ y₁ x := by
  rw [interpolate, le_div_iff₀ (sub_pos.mpr h)]
  calc y * (x₁ - x₀) = y * (x₁ - x) + y * (x - x₀) := by ring
    _ ≤ y₀ * (x₁ - x) + y₁ * (x - x₀) :=
        add_le_add (mul_le_mul_of_nonneg_right hy₀ (sub_nonneg.mpr h₁))
          (mul_le_mul_of_nonneg_right hy₁ (sub_nonneg.mpr h₀))

theorem interpolate_le_max (h : x₀ < x₁) (h₀ : x₀ ≤ x) (h₁ : x ≤ x₁) :
    interpolate x₀ y₀ x₁ y₁ x ≤ max y₀ y₁ :=
  interpolate_le h h₀ h₁ (le_max_left _ _) (le_max_right _ _)

theorem min_le_interpolate (h : x₀ < x₁) (h₀ : x₀ ≤ x) (h₁ : x ≤ x₁) :
    min y₀ y₁ ≤ interpolate x₀ y₀ x₁ y₁ x :=
  le_interpolate h h₀ h₁ (min_le_left _ _) (min_le_right _ _)

theorem interpolate_mono (h : x₀ < x₁) (hy : y₀ ≤ y₁) (hx : x ≤ x') :
    interpolate x₀ y₀ x₁ y₁ x ≤ interpolate x₀ y₀ x₁ y₁ x' := by
  have hslope : 0 ≤ (y₁ - y₀) / (x₁ - x₀) :=
    div_nonneg (sub_nonneg.mpr hy) (sub_nonneg.mpr h.le)
  rw [interpolate_eq_slope h.ne, interpolate_eq_slope h.ne]
  exact add_le_add_left (mul_le_mul_of_nonneg_left (sub_le_sub_right hx x₀) hslope) y₀

end Interpolation
