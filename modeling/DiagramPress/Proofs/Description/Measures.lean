-- The distances and sizes of an accepted description are above zero, with one exception:
-- a value that is no number is not below zero either, and so the check lets it pass.
import DiagramPress.Proofs.Description.WellFormed

namespace DiagramPress

/-! ## Floats beside zero -/

namespace Single

open Float.Model

theorem ofNat_zero : ofNat 0 = 0 := by decide +kernel

/-- What is not at most zero is above it, or no number. -/
theorem not_le_zero_iff (v : Float32) : ¬ v ≤ 0 ↔ 0 < v ∨ v.isNaN = true := by
  have hle : v ≤ 0 ↔ v.toModel.unpack.le (.zero .positive) = true := decide_eq_true_iff
  have hlt : 0 < v ↔ UnpackedFloat.lt (.zero .positive) v.toModel.unpack = true :=
    decide_eq_true_iff
  have hnan : v.isNaN = v.toModel.unpack.isNaN := rfl
  rw [hle, hlt, hnan]
  cases v.toModel.unpack with
  | infinity sign => cases sign <;> decide
  | notANumber => decide
  | zero sign => cases sign <;> decide
  | finite sign mantissa exponent h =>
    cases sign with
    | positive =>
      change ¬ false = true ↔ true = true ∨ false = true
      decide
    | negative =>
      change ¬ true = true ↔ false = true ∨ false = true
      decide

theorem isNaN_eq_false_of_pos {v : Float32} (h : 0 < v) : v.isNaN = false := by
  have hlt : UnpackedFloat.lt (.zero .positive) v.toModel.unpack = true := decide_eq_true_iff.mp h
  have hnan : v.isNaN = v.toModel.unpack.isNaN := rfl
  rw [hnan]
  cases hunpack : v.toModel.unpack with
  | notANumber =>
    rw [hunpack] at hlt
    cases hlt
  | _ => rfl

end Single

/-! ## The measures of a description -/

namespace Description

/-- The distances to keep, and the widths and heights that are declared. -/
def measures {α : Type} (d : Description α) : List α :=
  [d.layout.spacing.node, d.layout.spacing.layer] ++
    (d.nodes.filterMap (·.size)).flatMap fun s => [s.width, s.height]

theorem WellFormed.not_le_zero {α : Type} [Scalar α] {d : Description α} (h : d.WellFormed) :
    ∀ v ∈ d.measures, ¬ v ≤ 0 := by
  intro v hv
  rcases List.mem_append.mp hv with hv | hv
  · rcases List.mem_pair.mp hv with rfl | rfl
    · exact h.spacing.1
    · exact h.spacing.2
  · obtain ⟨s, hs, hv⟩ := List.mem_flatMap.mp hv
    obtain ⟨n, hn, hsize⟩ := List.mem_filterMap.mp hs
    rcases List.mem_pair.mp hv with rfl | rfl
    · exact (h.sizes n hn s hsize).1
    · exact (h.sizes n hn s hsize).2

/-- A measure of an accepted description is above zero exactly if it is a number. -/
theorem accepted_measures_are_positive_if_numbers {text : String} {d : Description Float32}
    (h : parse text = .ok d) : ∀ v ∈ d.measures, 0 < v ↔ v.isNaN = false := by
  intro v hv
  have hzero : ¬ v ≤ Single.ofNat 0 :=
    ((problems_eq_nil_iff d).mp (problems_of_parse h)).not_le_zero v hv
  rw [Single.ofNat_zero] at hzero
  refine ⟨Single.isNaN_eq_false_of_pos, fun hnumber => ?_⟩
  rcases (Single.not_le_zero_iff v).mp hzero with hpos | hnan
  · exact hpos
  · rw [hnumber] at hnan
    cases hnan

/-- A text in which every measure but one is a usual number. -/
def tallText : String :=
  "\x7blayout:\x7bspacing:\x7bnode:1e-45\x7d\x7d," ++
    "nodes:[\x7bid:\x27a\x27,size:\x7bwidth:0.5,height:Infinity\x7d\x7d]\x7d"

/-- The least number above zero is far enough, and infinity is not too high. -/
theorem extreme_measures_are_positive :
    ∃ d, parse tallText = .ok d ∧ d.measures.length = 4 ∧ ∀ v ∈ d.measures, 0 < v := by
  have hread : (match parse tallText with
      | .ok d => decide (d.measures.length = 4) && d.measures.all fun v => !v.isNaN
      | .error _ => false) = true := by decide +kernel
  cases h : parse tallText with
  | error cause =>
    rw [h] at hread
    cases hread
  | ok d =>
    rw [h] at hread
    simp only [Bool.and_eq_true, decide_eq_true_eq, List.all_eq_true, Bool.not_eq_true'] at hread
    exact ⟨d, rfl, hread.1, fun v hv =>
      (accepted_measures_are_positive_if_numbers h v hv).mpr (hread.2 v hv)⟩

/-- A text in which a distance and a width are no numbers. -/
def numberlessText : String :=
  "\x7blayout:\x7bspacing:\x7bnode:NaN\x7d\x7d," ++
    "nodes:[\x7bid:\x27a\x27,size:\x7bwidth:NaN,height:60\x7d\x7d]\x7d"

theorem measures_that_are_no_numbers_are_accepted :
    ∃ d, parse numberlessText = .ok d ∧ ¬ 0 < d.layout.spacing.node ∧
      ∃ n ∈ d.nodes, ∃ s, n.size = some s ∧ ¬ 0 < s.width := by
  have hread : (match parse numberlessText with
      | .ok d => !decide (0 < d.layout.spacing.node) &&
          d.nodes.any fun n => n.size.any fun s => !decide (0 < s.width)
      | .error _ => false) = true := by decide +kernel
  cases h : parse numberlessText with
  | error cause =>
    rw [h] at hread
    cases hread
  | ok d =>
    rw [h] at hread
    simp only [Bool.and_eq_true, Bool.not_eq_true', decide_eq_false_iff_not, List.any_eq_true,
      Option.any_eq_true] at hread
    obtain ⟨hspacing, n, hn, s, hs, hwidth⟩ := hread
    exact ⟨d, rfl, hspacing, n, hn, s, hs, hwidth⟩

end Description

end DiagramPress
