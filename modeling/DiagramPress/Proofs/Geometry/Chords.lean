-- Places at equal angles on a circle: how far any two of them are apart, and on which axis.
-- Boxes are apart on one axis if their centres are as far apart as half of both diagonals.
import Mathlib.Analysis.Real.Pi.Bounds
import Mathlib.Analysis.SpecialFunctions.Trigonometric.Bounds

namespace DiagramPress.Circle

open Real

/-! ## Chords -/

/-- The angle of a place, where so many places stand at equal angles. -/
noncomputable def angle (count s : ℕ) : ℝ := 2 * π * s / count

/-- How far apart two of these places are on the circle with radius 1. -/
noncomputable def chord (count s t : ℕ) : ℝ := 2 * |sin (π * (s - t) / count)|

theorem chord_nonneg (count s t : ℕ) : 0 ≤ chord count s t :=
  mul_nonneg zero_le_two (abs_nonneg _)

theorem chord_comm (count s t : ℕ) : chord count s t = chord count t s := by
  have hneg : π * ((s : ℝ) - t) / count = -(π * (t - s) / count) := by ring
  rw [chord, hneg, sin_neg, abs_neg, chord]

theorem half_angle_add (count s t : ℕ) :
    (angle count s + angle count t) / 2 = π * (s + t) / count := by
  unfold angle
  ring

theorem half_angle_sub (count s t : ℕ) :
    (angle count s - angle count t) / 2 = π * (s - t) / count := by
  unfold angle
  ring

/-- The part of a chord across. -/
theorem abs_cos_sub_cos (count s t : ℕ) :
    |cos (angle count s) - cos (angle count t)| =
      chord count s t * |sin (π * (s + t) / count)| := by
  rw [cos_sub_cos, half_angle_add, half_angle_sub, abs_mul, abs_mul, abs_neg, abs_two, chord]
  ring

/-- The part of a chord down. -/
theorem abs_sin_sub_sin (count s t : ℕ) :
    |sin (angle count s) - sin (angle count t)| =
      chord count s t * |cos (π * (s + t) / count)| := by
  rw [sin_sub_sin, half_angle_add, half_angle_sub, abs_mul, abs_mul, abs_two, chord]

theorem sq_chord (count s t : ℕ) :
    (cos (angle count s) - cos (angle count t)) ^ 2 +
      (sin (angle count s) - sin (angle count t)) ^ 2 = chord count s t ^ 2 := by
  rw [← sq_abs (cos _ - cos _), ← sq_abs (sin _ - sin _), abs_cos_sub_cos, abs_sin_sub_sin,
    mul_pow, mul_pow, ← mul_add, sq_abs, sq_abs, sin_sq_add_cos_sq, mul_one]

/-! ## The shortest chord -/

theorem sin_le_sin_of_between {x y : ℝ} (hy : 0 ≤ y) (hyx : y ≤ x) (hx : x ≤ π - y) :
    sin y ≤ sin x := by
  have hpi := pi_pos
  rcases le_total x (π / 2) with h | h
  · exact sin_le_sin_of_le_of_le_pi_div_two (by linarith) h hyx
  · rw [← sin_pi_sub x]
    exact sin_le_sin_of_le_of_le_pi_div_two (by linarith) (by linarith) (by linarith)

theorem chord_neighbours {count : ℕ} (h : 0 < count) : chord count 0 1 = 2 * sin (π / count) := by
  have hone : (1 : ℝ) ≤ count := by exact_mod_cast h
  have hneg : π * (((0 : ℕ) : ℝ) - (1 : ℕ)) / count = -(π / count) := by
    push_cast
    ring
  rw [chord, hneg, sin_neg, abs_neg, abs_of_nonneg]
  exact sin_nonneg_of_nonneg_of_le_pi (by positivity) (div_le_self pi_pos.le hone)

/-- No chord is shorter than the one between neighbours. -/
theorem chord_neighbours_le {count s t : ℕ} (hs : s < count) (ht : t < count) (hne : s ≠ t) :
    chord count 0 1 ≤ chord count s t := by
  wlog h : t < s generalizing s t
  · rw [chord_comm count s]
    exact this ht hs hne.symm (by omega)
  have hcount : (0 : ℝ) < count := by exact_mod_cast Nat.zero_lt_of_lt hs
  have hleast : (1 : ℝ) ≤ s - t := by
    have hle : (t : ℝ) + 1 ≤ s := by exact_mod_cast h
    linarith
  have hmost : (s : ℝ) - t ≤ count - 1 := by
    have hle : (s : ℝ) + 1 ≤ count := by exact_mod_cast hs
    have hpos : (0 : ℝ) ≤ t := Nat.cast_nonneg t
    linarith
  rw [chord_neighbours (Nat.zero_lt_of_lt hs)]
  refine mul_le_mul_of_nonneg_left (le_trans (sin_le_sin_of_between ?_ ?_ ?_) (le_abs_self _))
    zero_le_two
  · positivity
  · exact div_le_div_of_nonneg_right (le_mul_of_one_le_right pi_pos.le hleast) hcount.le
  · rw [le_sub_iff_add_le, ← add_div, div_le_iff₀ hcount]
    have hscaled := mul_le_mul_of_nonneg_left hmost pi_pos.le
    linarith

/-- Two to six places are as far from each other as from the centre. -/
theorem one_le_chord {count : ℕ} (htwo : 2 ≤ count) (hsix : count ≤ 6) : 1 ≤ chord count 0 1 := by
  have hleast : (2 : ℝ) ≤ count := by exact_mod_cast htwo
  have hmost : (count : ℝ) ≤ 6 := by exact_mod_cast hsix
  have hcount : (0 : ℝ) < count := by linarith
  have hpi := pi_pos
  have hhalf : sin (π / 6) ≤ sin (π / count) := by
    refine sin_le_sin_of_between (by positivity) ?_ ?_
    · exact div_le_div_of_nonneg_left hpi.le hcount hmost
    · have hneighbours : π / count ≤ π / 2 := div_le_div_of_nonneg_left hpi.le two_pos hleast
      linarith
  rw [sin_pi_div_six] at hhalf
  rw [chord_neighbours (by omega)]
  linarith

/-- From seven places on, the way along the chords is hardly shorter than the circle. -/
theorem circle_le_chords {count : ℕ} (h : 7 ≤ count) :
    28 * (2 * π) ≤ 29 * (count * chord count 0 1) := by
  have hseven : (7 : ℝ) ≤ count := by exact_mod_cast h
  have hcount : (0 : ℝ) < count := by linarith
  have hpos : 0 < π / count := div_pos pi_pos hcount
  have hsmall : π / count ≤ 9 / 20 := by
    rw [div_le_iff₀ hcount]
    linarith [pi_lt_d2]
  have hsquare : (π / count) ^ 2 ≤ 6 / 29 := by nlinarith
  have hsine : 28 * (π / count) ≤ 29 * sin (π / count) := by
    nlinarith [sin_gt_sub_cube hpos]
  have hscaled := mul_le_mul_of_nonneg_left hsine hcount.le
  have hpi : count * (π / count) = π := by field_simp
  rw [chord_neighbours (by omega)]
  linarith

/-! ## Centres and diagonals -/

/-- Places on two circles around one centre are as far apart as the radii differ, at least. -/
theorem sub_le_distance {r r' : ℝ} (hr : 0 ≤ r) (hr' : 0 ≤ r') (a b : ℝ) :
    r' - r ≤ √((r * cos a - r' * cos b) * (r * cos a - r' * cos b) +
      (r * sin a - r' * sin b) * (r * sin a - r' * sin b)) := by
  refine le_sqrt_of_sq_le ?_
  have hcos : cos a * cos b + sin a * sin b ≤ 1 := cos_sub a b ▸ cos_le_one (a - b)
  have hscaled := mul_le_mul_of_nonneg_left hcos (mul_nonneg hr hr')
  have hsquare : (r * cos a - r' * cos b) * (r * cos a - r' * cos b) +
      (r * sin a - r' * sin b) * (r * sin a - r' * sin b) =
        r ^ 2 + r' ^ 2 - 2 * (r * r' * (cos a * cos b + sin a * sin b)) := by
    linear_combination r ^ 2 * sin_sq_add_cos_sq a + r' ^ 2 * sin_sq_add_cos_sq b
  rw [hsquare]
  linarith

/-- Boxes whose centres are as far apart as half of both diagonals are apart on one axis. -/
theorem half_le_of_diagonals {width height width' height' dx dy : ℝ}
    (h : √(width * width + height * height) + √(width' * width' + height' * height') ≤
      2 * √(dx * dx + dy * dy)) :
    (width + width') / 2 ≤ |dx| ∨ (height + height') / 2 ≤ |dy| := by
  by_contra hnone
  push Not at hnone
  obtain ⟨hx, hy⟩ := hnone
  have hacross : dx * dx < ((width + width') / 2) * ((width + width') / 2) := by
    rw [← abs_mul_abs_self dx]
    exact mul_self_lt_mul_self (abs_nonneg _) hx
  have halong : dy * dy < ((height + height') / 2) * ((height + height') / 2) := by
    rw [← abs_mul_abs_self dy]
    exact mul_self_lt_mul_self (abs_nonneg _) hy
  have hsquare {a b : ℝ} : √(a * a + b * b) * √(a * a + b * b) = a * a + b * b :=
    mul_self_sqrt (add_nonneg (mul_self_nonneg a) (mul_self_nonneg b))
  have hcauchy : width * width' + height * height' ≤
      √(width * width + height * height) * √(width' * width' + height' * height') := by
    rw [← sqrt_mul (add_nonneg (mul_self_nonneg _) (mul_self_nonneg _))]
    refine le_sqrt_of_sq_le ?_
    nlinarith [sq_nonneg (width * height' - height * width')]
  have hsum := mul_self_le_mul_self (add_nonneg (sqrt_nonneg _) (sqrt_nonneg _)) h
  nlinarith [hsquare (a := width) (b := height), hsquare (a := width') (b := height'),
    hsquare (a := dx) (b := dy)]

end DiagramPress.Circle
