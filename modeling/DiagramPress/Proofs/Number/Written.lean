-- The text of a number holds nothing but digits, a point, a minus sign and the
-- letters of the values without digits.
import DiagramPress.Number.Single
import DiagramPress.Text.Words

namespace DiagramPress

/-! ## Natural numbers -/

theorem toList_toString (n : Nat) : (toString n).toList = Nat.toDigits 10 n := by
  simp

theorem toString_toList_inj {a b : Nat} (h : (toString a).toList = (toString b).toList) :
    a = b := by
  rw [toList_toString, toList_toString] at h
  rw [← Nat.ofDigitChars_ten_toDigits (n := a), h, Nat.ofDigitChars_ten_toDigits]

theorem toString_injective : Function.Injective (toString : Nat → String) :=
  fun _ _ h => toString_toList_inj (congrArg String.toList h)

/-! ## Characters of numbers -/

/-- A character of the text of a number. -/
def isNumeric (c : Char) : Bool := c.isAlphanum || c = '.' || c = '-'

theorem isNumeric_of_isDigit {c : Char} (h : c.isDigit = true) : isNumeric c = true := by
  simp [isNumeric, Char.isAlphanum, h]

theorem isBlank_of_isNumeric {c : Char} (h : isNumeric c = true) : Text.isBlank c = false := by
  have hnumeric : ∀ n < 0x80, isNumeric (Char.ofNat n) = true →
      Text.isBlank (Char.ofNat n) = false := by decide
  have hlt : c.toNat < 0x80 := by
    have hval : c.toNat = c.val.toNat := rfl
    have halphanum : c.isAlphanum = ((decide (c.val ≥ 'A'.val ∧ c.val ≤ 'Z'.val) ||
        decide (c.val ≥ 'a'.val) && decide (c.val ≤ 'z'.val)) ||
        decide (c.val ≥ '0'.val) && decide (c.val ≤ '9'.val)) := rfl
    simp only [isNumeric, halphanum, Bool.or_eq_true, Bool.and_eq_true, decide_eq_true_eq,
      UInt32.le_iff_toNat_le, ge_iff_le] at h
    have hupper : 'Z'.val.toNat = 90 := rfl
    have hlower : 'z'.val.toNat = 122 := rfl
    have hdigit : '9'.val.toNat = 57 := rfl
    rcases h with (h | rfl) | rfl
    · omega
    · decide
    · decide
  have := hnumeric c.toNat hlt
  rw [Char.ofNat_toNat] at this
  exact this h

namespace Decimal

theorem isNumeric_digits (n : Nat) : ∀ c ∈ digits n, isNumeric c = true := fun _ hc =>
  isNumeric_of_isDigit (Nat.isDigit_of_mem_toDigits (by decide) (by decide) hc)

theorem isNumeric_zeros (n : Nat) : ∀ c ∈ zeros n, isNumeric c = true := by
  intro c hc
  rw [List.eq_of_mem_replicate hc]
  decide

theorem isNumeric_positional (d : Decimal) : ∀ c ∈ positional d, isNumeric c = true := by
  intro c hc
  have hds := isNumeric_digits d.coefficient
  unfold positional at hc
  dsimp only at hc
  split at hc
  · split at hc
    · exact hds c hc
    · rcases List.mem_append.mp hc with hc | hc
      · exact hds c hc
      · exact isNumeric_zeros _ c hc
  · split at hc
    · rcases List.mem_append.mp hc with hc | hc
      · exact hds c (List.mem_of_mem_take hc)
      · rcases List.mem_cons.mp hc with rfl | hc
        · decide
        · exact hds c (List.mem_of_mem_drop hc)
    · simp only [List.cons_append, List.mem_cons, List.mem_append] at hc
      rcases hc with rfl | rfl | hc | hc
      · decide
      · decide
      · exact isNumeric_zeros _ c hc
      · exact hds c hc

end Decimal

namespace Single

theorem isNumeric_signed (negative : Bool) {text : List Char} (h : ∀ c ∈ text, isNumeric c = true) :
    ∀ c ∈ (signed negative text).toList, isNumeric c = true := by
  intro c hc
  rw [signed, String.toList_ofList] at hc
  split at hc
  · rcases List.mem_cons.mp hc with rfl | hc
    · decide
    · exact h c hc
  · exact h c hc

theorem isNumeric_plain (x : Float32) : ∀ c ∈ (plain x).toList, isNumeric c = true := by
  unfold plain
  split
  · exact List.all_eq_true.mp (by decide)
  · split <;> exact List.all_eq_true.mp (by decide)
  · rename_i negative b _
    exact isNumeric_signed negative
      (Decimal.isNumeric_positional (Decimal.shortest .single .up b))

theorem isNumeric_brief (x : Float32) : ∀ c ∈ (brief x).toList, isNumeric c = true := by
  unfold brief
  split
  · split
    · exact isNumeric_signed _ (Decimal.isNumeric_digits _)
    · exact isNumeric_plain x
  · exact isNumeric_plain x

end Single

/-- Numbers whose brief text holds nothing but letters, digits, points and minus signs. -/
class PlainNumbers (α : Type) [NumberText α] : Prop where
  isNumeric_brief : ∀ x : α, ∀ c ∈ (NumberText.brief x).toList, isNumeric c = true

instance : PlainNumbers Float32 := ⟨Single.isNumeric_brief⟩

end DiagramPress
