-- Arithmetic with rounding: numbers whose sums may be off, but never fall when a part
-- grows. Finite floats are such numbers, and so are exact ones.
import DiagramPress.Proofs.Number.Exact

namespace DiagramPress

/-- Of any two numbers one is not greater than the other, and sums grow with their parts. -/
class RoundedScalar (α : Type) [Scalar α] : Prop where
  le_trans {a b c : α} (h : a ≤ b) (h' : b ≤ c) : a ≤ c
  le_total (a b : α) : a ≤ b ∨ b ≤ a
  lt_iff_not_le (a b : α) : a < b ↔ ¬ b ≤ a
  add_le_add {a b : α} (h : a ≤ b) (c : α) : a + c ≤ b + c
  le_add (a : α) {b : α} (h : Scalar.ofNat 0 ≤ b) : a ≤ a + b
  ofNat_nonneg (n : Nat) : (Scalar.ofNat 0 : α) ≤ Scalar.ofNat n

instance ExactScalar.isRounded {α : Type} [ExactScalar α] : RoundedScalar α where
  le_trans h h' := h.trans h'
  le_total a b := LinearOrder.le_total a b
  lt_iff_not_le _ _ := not_le.symm
  add_le_add h c := add_le_add_left h c
  le_add a _ h := le_add_of_nonneg_right (Scalar.nonneg_iff.mp h)
  ofNat_nonneg n := by
    rw [Scalar.nonneg_iff, Scalar.ofNat_eq_cast]
    exact Nat.cast_nonneg n

namespace RoundedScalar

variable {α : Type} [Scalar α] [RoundedScalar α]

theorem le_refl (a : α) : a ≤ a := (le_total a a).elim id id

theorem le_of_lt {a b : α} (h : a < b) : a ≤ b :=
  (le_total a b).resolve_right ((lt_iff_not_le a b).mp h)

end RoundedScalar

namespace Scalar

variable {α : Type} [Scalar α] [RoundedScalar α]

theorem le_greatest_left (a b : α) : a ≤ greatest a b := by
  unfold greatest
  split
  · rename_i h
    have hcomparable : isNaN a = false := by simp [isNaN, RoundedScalar.le_refl]
    rw [hcomparable, Bool.or_false, decide_eq_true_eq] at h
    exact RoundedScalar.le_of_lt h
  · exact RoundedScalar.le_refl a

theorem le_greatest_right (a b : α) : b ≤ greatest a b := by
  unfold greatest
  split
  · exact RoundedScalar.le_refl b
  · rename_i h
    by_contra hfar
    have hlt : a < b := (RoundedScalar.lt_iff_not_le a b).mpr hfar
    exact h (by simp [hlt])

end Scalar

end DiagramPress
