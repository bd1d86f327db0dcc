-- White space stands in no word: the tables of letters, marks and digits leave
-- it out.
import DiagramPress.Text.Category
import DiagramPress.Text.Words

namespace DiagramPress.Text

/-! ## The code points of white space -/

/-- The code points of white space, by their first and their last ones. -/
def blankRanges : List (Nat × Nat) :=
  [(0x09, 0x0D), (0x20, 0x20), (0x85, 0x85), (0xA0, 0xA0), (0x1680, 0x1680), (0x2000, 0x200A),
    (0x2028, 0x2029), (0x202F, 0x202F), (0x205F, 0x205F), (0x3000, 0x3000)]

theorem exists_blankRange {c : Char} (h : isBlank c = true) :
    ∃ b ∈ blankRanges, b.1 ≤ c.toNat ∧ c.toNat ≤ b.2 := by
  simp only [isBlank, Bool.or_eq_true, Bool.and_eq_true, decide_eq_true_eq] at h
  simp only [blankRanges, List.mem_cons, List.not_mem_nil, or_false, exists_eq_or_imp,
    exists_eq_left]
  omega

/-- No white space lies in the ranges. -/
def withoutBlanks (ranges : Array (Nat × Nat)) : Bool :=
  ranges.toList.all fun r => blankRanges.all fun b => b.2.blt r.1 || r.2.blt b.1

theorem inRanges_of_isBlank {ranges : Array (Nat × Nat)} (hranges : withoutBlanks ranges = true)
    {c : Char} (h : isBlank c = true) : inRanges ranges c = false := by
  obtain ⟨b, hb, hfirst, hlast⟩ := exists_blankRange h
  rw [inRanges, ← Array.any_toList, List.any_eq_false]
  intro r hr
  have hapart := List.all_eq_true.mp (List.all_eq_true.mp hranges r hr) b hb
  simp only [Bool.or_eq_true, Nat.blt_eq] at hapart
  simp only [Bool.and_eq_true, decide_eq_true_eq]
  omega

/-! ## Words -/

/-- The tables of what words are made of. -/
def wordTables : List (Array (Nat × Nat)) :=
  [letters, enclosedLetters, nonspacingMarks, spacingMarks, enclosingMarks, digits, connectors]

theorem isWordChar_eq_any {c : Char} (h : 0x80 ≤ c.toNat) :
    isWordChar c = (wordTables.any (inRanges · c) || isJoinControl c) := by
  simp [isWordChar, wordTables, Nat.not_lt.mpr h, Bool.or_assoc]

theorem withoutBlanks_wordTables : ∀ ranges ∈ wordTables, withoutBlanks ranges = true := by
  decide +kernel

theorem isJoinControl_of_isBlank {c : Char} (h : isBlank c = true) : isJoinControl c = false := by
  obtain ⟨b, hb, hfirst, hlast⟩ := exists_blankRange h
  have hapart : ∀ b ∈ blankRanges, b.2 < 0x200C ∨ 0x200D < b.1 := by decide
  have := hapart b hb
  simp only [isJoinControl, Bool.or_eq_false_iff, decide_eq_false_iff_not]
  omega

theorem isWordChar_of_isBlank {c : Char} (h : isBlank c = true) : isWordChar c = false := by
  by_cases hascii : c.toNat < 0x80
  · have hplain : ∀ n < 0x80, isBlank (Char.ofNat n) = true →
        ((Char.ofNat n).isAlphanum || Char.ofNat n = '_') = false := by decide
    have := hplain c.toNat hascii
    rw [Char.ofNat_toNat] at this
    rw [isWordChar, if_pos hascii]
    exact this h
  · rw [isWordChar_eq_any (Nat.not_lt.mp hascii), isJoinControl_of_isBlank h, Bool.or_false,
      List.any_eq_false]
    intro ranges hmem
    simp [inRanges_of_isBlank (withoutBlanks_wordTables ranges hmem) h]

end DiagramPress.Text
