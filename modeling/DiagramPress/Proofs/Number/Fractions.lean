-- Rational numbers as texts: a fraction reads back as the number it was written
-- for, and rounding to two places moves a number by half a hundredth at most.
import DiagramPress.Proofs.Number.Exact
import DiagramPress.Markup.Document
import DiagramPress.Proofs.Markup.References
import DiagramPress.Proofs.Number.Written
import DiagramPress.Proofs.Text.Pieces

namespace DiagramPress

namespace Fraction

/-! ## Reading digits -/

theorem digits?_toDigits (n : Nat) : digits? (Nat.toDigits 10 n) = some n := by
  have hne : (Nat.toDigits 10 n).isEmpty = false := by
    rw [List.isEmpty_eq_false_iff]
    exact Nat.toDigits_ne_nil
  have hall : (Nat.toDigits 10 n).all Char.isDigit = true := by
    rw [List.all_eq_true]
    intro c hc
    exact Nat.isDigit_of_mem_toDigits (by decide) (by decide) hc
  rw [digits?, hne, hall, Nat.ofDigitChars_ten_toDigits]
  rfl

theorem slash_not_mem_digits (n : Nat) : '/' ∉ Nat.toDigits 10 n := fun hm =>
  absurd (Nat.isDigit_of_mem_toDigits (by decide) (by decide) hm) (by decide)

/-! ## Fractions -/

/-- The text of a fraction without its sign. -/
def unsignedText (top bottom : Nat) : List Char :=
  if bottom = 1 then Nat.toDigits 10 top else Nat.toDigits 10 top ++ '/' :: Nat.toDigits 10 bottom

theorem unsigned?_unsignedText (top bottom : Nat) :
    unsigned? (unsignedText top bottom) = some ((top : ℚ) / bottom) := by
  unfold unsignedText unsigned?
  by_cases hone : bottom = 1
  · rw [if_pos hone, Text.splitOnce?_of_not_mem (slash_not_mem_digits top)]
    simp [digits?_toDigits, hone]
  · rw [if_neg hone, Text.splitOnce?_append (slash_not_mem_digits top)]
    simp [digits?_toDigits]

theorem isDigit_of_mem {n : Nat} {c : Char} (h : c ∈ Nat.toDigits 10 n) : c.isDigit = true :=
  Nat.isDigit_of_mem_toDigits (by decide) (by decide) h

theorem unsignedText_head (top bottom : Nat) :
    ∃ c rest, unsignedText top bottom = c :: rest ∧ c.isDigit = true := by
  obtain ⟨c, rest, hdigits⟩ := List.exists_cons_of_ne_nil (Nat.toDigits_ne_nil (b := 10) (n := top))
  have hc : c.isDigit = true := isDigit_of_mem (n := top) (by simp [hdigits])
  unfold unsignedText
  split
  · exact ⟨c, rest, hdigits, hc⟩
  · exact ⟨c, _, by rw [hdigits, List.cons_append], hc⟩

/-- A number is its numerator over its denominator, with the sign in front. -/
theorem toList_toString_rat (q : ℚ) : (toString q).toList =
    (if q.num < 0 then ['-'] else []) ++ unsignedText q.num.natAbs q.den := by
  have htext : toString q = if q.den = 1 then toString q.num
      else toString q.num ++ "/" ++ toString q.den := rfl
  have hsigned : (toString q.num).toList =
      (if q.num < 0 then ['-'] else []) ++ Nat.toDigits 10 q.num.natAbs := by
    rcases q.num with n | n
    · simp [toString, Int.repr]
    · simp [toString, Int.repr, Int.negSucc_lt_zero]
  rw [htext, unsignedText]
  by_cases hone : q.den = 1
  · rw [if_pos hone, if_pos hone, hsigned]
  · rw [if_neg hone, if_neg hone, String.toList_append, String.toList_append, hsigned,
      toList_toString]
    simp

theorem read?_toString (q : ℚ) : (NumberText.read? (toString q) : Option ℚ) = some q := by
  have hread : (NumberText.read? (toString q) : Option ℚ) = read? (toString q).toList := rfl
  rw [hread, toList_toString_rat]
  by_cases hneg : q.num < 0
  · have habs : ((q.num.natAbs : Nat) : ℚ) = -q.num := by
      rw [Nat.cast_natAbs, abs_of_neg hneg, Int.cast_neg]
    rw [if_pos hneg, List.cons_append, List.nil_append, read?, unsigned?_unsignedText,
      Option.map_some, habs, neg_div, neg_neg, Rat.num_div_den]
  · have habs : ((q.num.natAbs : Nat) : ℚ) = q.num := by
      rw [Nat.cast_natAbs, abs_of_nonneg (not_lt.mp hneg)]
    obtain ⟨c, rest, htext, hdigit⟩ := unsignedText_head q.num.natAbs q.den
    have hminus : c ≠ '-' := by
      rintro rfl
      exact absurd hdigit (by decide)
    rw [if_neg hneg, List.nil_append, htext, read?, ← htext, unsigned?_unsignedText, habs,
      Rat.num_div_den]
    intro cs hcs
    exact hminus (List.cons.inj hcs).1

/-! ## The characters of fractions -/

theorem mem_toString_rat {q : ℚ} {c : Char} (hc : c ∈ (toString q).toList) :
    c.isDigit = true ∨ c = '-' ∨ c = '/' := by
  rw [toList_toString_rat] at hc
  rcases List.mem_append.mp hc with hc | hc
  · split at hc
    · exact .inr (.inl (List.mem_singleton.mp hc))
    · cases hc
  · unfold unsignedText at hc
    split at hc
    · exact .inl (isDigit_of_mem hc)
    · rcases List.mem_append.mp hc with hc | hc
      · exact .inl (isDigit_of_mem hc)
      · rcases List.mem_cons.mp hc with rfl | hc
        · exact .inr (.inr rfl)
        · exact .inl (isDigit_of_mem hc)

/-- No character of a fraction needs a guard. -/
theorem not_reserved_toString (q : ℚ) : ∀ c ∈ (toString q).toList, Markup.isReserved c = false := by
  intro c hc
  rcases mem_toString_rat hc with hdigit | rfl | rfl
  · exact Markup.reserved_of_digit hdigit
  · decide
  · decide

end Fraction

/-! ## Rounding -/

theorem abs_round_sub_le (q : ℚ) : |Scalar.round q - q| ≤ 1 / 2 := by
  have hround : Scalar.round q = if 0 ≤ q then (⌊q + 1 / 2⌋ : ℚ) else ⌈q - 1 / 2⌉ := rfl
  rw [hround, abs_le]
  by_cases h : 0 ≤ q
  · rw [if_pos h]
    have hle := Int.floor_le (q + 1 / 2)
    have hlt := Int.lt_floor_add_one (q + 1 / 2)
    constructor <;> linarith
  · rw [if_neg h]
    have hle := Int.le_ceil (q - 1 / 2)
    have hlt := Int.ceil_lt_add_one (q - 1 / 2)
    constructor <;> linarith

/-- A coordinate is written with an error of half a hundredth at most. -/
theorem abs_hundredths_sub_le (q : ℚ) : |Markup.hundredths q - q| ≤ 5 / 1000 := by
  have hround := abs_le.mp (abs_round_sub_le (q * 100))
  have hhundredths : Markup.hundredths q = Scalar.round (q * 100) / 100 := rfl
  rw [hhundredths, abs_le]
  constructor <;> linarith

end DiagramPress
