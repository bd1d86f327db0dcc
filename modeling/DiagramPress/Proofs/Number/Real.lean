-- The real numbers, on which roots, angles and diagonals are what their names say.
import Mathlib.Analysis.SpecialFunctions.Trigonometric.Basic
import DiagramPress.Proofs.Number.Exact

namespace DiagramPress

/-- The real numbers, with angles in radians. -/
noncomputable instance : ExactScalar ℝ where
  decLt := inferInstance
  decLe := inferInstance
  ofNat n := n
  sqrt := Real.sqrt
  cos := Real.cos
  sin := Real.sin
  hypot a b := √(a * a + b * b)
  turn := (2 : ℕ) * Real.pi
  round a := if 0 ≤ a then ⌊a + 1 / (2 : ℕ)⌋ else ⌈a - 1 / (2 : ℕ)⌉
  ceil a := ⌈a⌉
  wholePart a := ⌊a⌋₊
  shorter a b := decide (a.2 - a.1 < b.2 - b.1)
  ofNat_eq_cast _ := rfl

end DiagramPress
