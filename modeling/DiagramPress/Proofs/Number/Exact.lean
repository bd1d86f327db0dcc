-- Arithmetic without rounding: numbers of an ordered field, on which the laws of
-- sizes and places hold exactly. Roots and angles may be whatever they are.
import Mathlib.Algebra.Order.Field.Basic
import Mathlib.Algebra.Order.Ring.Rat
import Mathlib.Data.Rat.Floor
import DiagramPress.Number.Scalar
import DiagramPress.Text.Words

namespace DiagramPress

/-- A number type whose sums, differences, products, quotients and comparisons are
those of an ordered field. -/
class ExactScalar (α : Type) extends Field α, LinearOrder α, IsStrictOrderedRing α, Scalar α where
  ofNat_eq_cast (n : Nat) : Scalar.ofNat n = (n : α)

namespace Scalar

variable {α : Type} [ExactScalar α]

theorem ofNat_eq_cast (n : Nat) : (ofNat n : α) = n := ExactScalar.ofNat_eq_cast n

/-- The zero that scalars have is the zero of the field. -/
theorem ofNat_zero : (ofNat 0 : α) = 0 := by rw [ofNat_eq_cast, Nat.cast_zero]

theorem numeral_zero : @OfNat.ofNat α (nat_lit 0) (instNumeral (nat_lit 0)) = 0 := ofNat_zero

theorem numeral_one : @OfNat.ofNat α (nat_lit 1) (instNumeral (nat_lit 1)) = 1 :=
  (ofNat_eq_cast 1).trans Nat.cast_one

theorem nonneg_iff {a : α} : ofNat 0 ≤ a ↔ 0 ≤ a := by rw [ofNat_zero]

/-- What is divided by two in a definition is cut into halves. -/
theorem half_add_half (a : α) :
    a / @OfNat.ofNat α (nat_lit 2) (instNumeral (nat_lit 2)) +
      a / @OfNat.ofNat α (nat_lit 2) (instNumeral (nat_lit 2)) = a := by
  have htwo : @OfNat.ofNat α (nat_lit 2) (instNumeral (nat_lit 2)) = 1 + 1 := by
    refine (ofNat_eq_cast 2).trans ?_
    rw [← Nat.cast_one, ← Nat.cast_add]
  have hpos : (0 : α) < 1 + 1 := add_pos zero_lt_one zero_lt_one
  rw [htwo, ← add_div, div_eq_iff hpos.ne', mul_add, mul_one]

/-- What is put into the middle of a room that is large enough stands inside. -/
theorem exists_centred {size room : α} (h : size ≤ room) :
    ∃ lead, (room - size) / @OfNat.ofNat α (nat_lit 2) (instNumeral (nat_lit 2)) = lead ∧
      0 ≤ lead ∧ lead + size ≤ room := by
  refine ⟨_, rfl, ?_⟩
  have hhalves := half_add_half (room - size)
  generalize (room - size) / @OfNat.ofNat α (nat_lit 2) (instNumeral (nat_lit 2)) = lead at hhalves
  have hlead : 0 ≤ lead := by
    by_contra hneg
    have hlt := add_neg (not_le.mp hneg) (not_le.mp hneg)
    rw [hhalves] at hlt
    exact absurd (sub_nonneg.mpr h) (not_le.mpr hlt)
  refine ⟨hlead, ?_⟩
  rw [eq_sub_iff_add_eq] at hhalves
  rw [← hhalves, add_assoc]
  exact le_add_of_nonneg_left hlead

theorem isNaN_eq_false (a : α) : isNaN a = false := by simp [isNaN]

theorem least_eq_min (a b : α) : least a b = min a b := by
  rw [least, isNaN_eq_false, Bool.or_false]
  by_cases h : b < a
  · rw [if_pos (by simpa using h), min_eq_right h.le]
  · rw [if_neg (by simpa using h), min_eq_left (not_lt.mp h)]

theorem greatest_eq_max (a b : α) : greatest a b = max a b := by
  rw [greatest, isNaN_eq_false, Bool.or_false]
  by_cases h : a < b
  · rw [if_pos (by simpa using h), max_eq_right h.le]
  · rw [if_neg (by simpa using h), max_eq_left (not_lt.mp h)]

theorem abs_eq_abs (a : α) : abs a = |a| := by
  unfold abs
  rw [numeral_zero, zero_sub]
  by_cases h : a ≤ 0
  · rw [if_pos h, abs_of_nonpos h]
  · rw [if_neg h, abs_of_pos (not_le.mp h)]

end Scalar

/-- The rational numbers. They have no angles, and of roots only the whole part. -/
instance : ExactScalar ℚ where
  decLt := inferInstance
  decLe := inferInstance
  ofNat n := n
  sqrt a := Nat.sqrt ⌊a⌋₊
  cos _ := 1
  sin _ := 0
  hypot a b := Nat.sqrt ⌊a * a + b * b⌋₊
  turn := 360
  round a := if 0 ≤ a then ⌊a + 1 / 2⌋ else ⌈a - 1 / 2⌉
  ceil a := ⌈a⌉
  wholePart a := ⌊a⌋₊
  shorter a b := decide (a.2 - a.1 < b.2 - b.1)
  ofNat_eq_cast _ := rfl

/-! ## Texts of rational numbers -/

namespace Fraction

/-- The value of some digits. -/
def digits? (cs : List Char) : Option Nat :=
  if cs.isEmpty || !cs.all Char.isDigit then none else some (Nat.ofDigitChars 10 cs 0)

/-- A whole number, or one divided by another. -/
def unsigned? (cs : List Char) : Option ℚ :=
  match Text.splitOnce? '/' cs with
  | none => (digits? cs).map Nat.cast
  | some (top, bottom) => do
    let top ← digits? top
    let bottom ← digits? bottom
    return (top : ℚ) / bottom

def read? : List Char → Option ℚ
  | '-' :: cs => (unsigned? cs).map fun a => -a
  | cs => unsigned? cs

end Fraction

/-- Rational numbers are written as fractions. -/
instance : NumberText ℚ where
  plain a := toString a
  brief a := toString a
  fixed _ a := toString a
  json a := toString a
  read? text := Fraction.read? text.toList

end DiagramPress
