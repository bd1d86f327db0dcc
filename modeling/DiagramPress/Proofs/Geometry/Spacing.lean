-- Boxes with a gap between them: on one of the two axes, one box ends before the
-- other one starts, and the gap fits in between. Without a gap, boxes of positive
-- sizes are apart in this sense exactly if they share no point inside.
import DiagramPress.Proofs.Geometry.Covering
import Mathlib.Order.Lattice
import Mathlib.Tactic.Linarith

namespace DiagramPress

structure Size.Positive {α : Type} [ExactScalar α] (s : Size α) : Prop where
  width : 0 < s.width
  height : 0 < s.height

namespace Bounds

variable {α : Type}

/-- On one axis there is at least that gap between the boxes. -/
def ApartBy [Scalar α] (gap : α) (a b : Bounds α) : Prop :=
  a.right + gap ≤ b.x ∨ b.right + gap ≤ a.x ∨ a.bottom + gap ≤ b.y ∨ b.bottom + gap ≤ a.y

/-- The point is in the box and on none of its sides. -/
structure Interior [Scalar α] (b : Bounds α) (p : Point α) : Prop where
  left : b.x < p.x
  top : b.y < p.y
  right : p.x < b.right
  bottom : p.y < b.bottom

/-- The boxes share no point but on their sides. -/
def Apart [Scalar α] (a b : Bounds α) : Prop := ∀ p, a.Interior p → ¬ b.Interior p

theorem Apart.symm [Scalar α] {a b : Bounds α} (h : a.Apart b) : b.Apart a :=
  fun p hb ha => h p ha hb

namespace ApartBy

theorem symm [Scalar α] {gap : α} {a b : Bounds α} (h : a.ApartBy gap b) : b.ApartBy gap a := by
  rcases h with h | h | h | h
  · exact .inr (.inl h)
  · exact .inl h
  · exact .inr (.inr (.inr h))
  · exact .inr (.inr (.inl h))

variable [ExactScalar α] {gap : α} {a b : Bounds α}

theorem mono {less : α} (h : a.ApartBy gap b) (hless : less ≤ gap) : a.ApartBy less b := by
  unfold ApartBy at h ⊢
  rcases h with h | h | h | h
  · exact .inl (by linarith)
  · exact .inr (.inl (by linarith))
  · exact .inr (.inr (.inl (by linarith)))
  · exact .inr (.inr (.inr (by linarith)))

/-- What two boxes keep apart, they keep apart for all that they cover. -/
theorem of_covers {a' b' : Bounds α} (h : a.ApartBy gap b) (ha : a.Covers a') (hb : b.Covers b') :
    a'.ApartBy gap b' := by
  obtain ⟨hax, hay, har, hab⟩ := ha
  obtain ⟨hbx, hby, hbr, hbb⟩ := hb
  unfold ApartBy at h ⊢
  rcases h with h | h | h | h
  · exact .inl (by linarith)
  · exact .inr (.inl (by linarith))
  · exact .inr (.inr (.inl (by linarith)))
  · exact .inr (.inr (.inr (by linarith)))

/-- Boxes with a gap that is not negative share no point but on their sides. -/
theorem apart (hgap : 0 ≤ gap) (h : a.ApartBy gap b) : a.Apart b := by
  intro p ha hb
  rcases h with h | h | h | h
  · exact lt_asymm ha.right (((le_add_of_nonneg_right hgap).trans h).trans_lt hb.left)
  · exact lt_asymm hb.right (((le_add_of_nonneg_right hgap).trans h).trans_lt ha.left)
  · exact lt_asymm ha.bottom (((le_add_of_nonneg_right hgap).trans h).trans_lt hb.top)
  · exact lt_asymm hb.bottom (((le_add_of_nonneg_right hgap).trans h).trans_lt ha.top)

end ApartBy

section

variable [ExactScalar α] {gap : α} {a b : Bounds α}

/-- Boxes that are moved together keep the gaps that they had. -/
theorem apartBy_shift (offset : Point α) :
    (a.shift offset).ApartBy gap (b.shift offset) ↔ a.ApartBy gap b := by
  unfold ApartBy right bottom
  simp only [Bounds.shift]
  refine or_congr ?_ (or_congr ?_ (or_congr ?_ ?_)) <;> constructor <;> intro h <;> linarith

/-- Intervals of which each starts before the other one ends have a number inside of both. -/
theorem exists_between_both {lo hi lo' hi' : α} (h : lo < hi) (h' : lo' < hi') (hlo : lo < hi')
    (hlo' : lo' < hi) : ∃ x, lo < x ∧ x < hi ∧ lo' < x ∧ x < hi' := by
  obtain ⟨x, hleft, hright⟩ := exists_between (max_lt (lt_min h hlo) (lt_min hlo' h'))
  rw [max_lt_iff] at hleft
  rw [lt_min_iff] at hright
  exact ⟨x, hleft.1, hright.1, hleft.2, hright.2⟩

/-- Boxes of positive sizes share a point inside of both, unless one of them ends on one axis
where the other one starts or before. -/
theorem apart_iff_apartBy (ha : a.size.Positive) (hb : b.size.Positive) :
    a.Apart b ↔ a.ApartBy 0 b := by
  refine ⟨fun h => ?_, fun h => h.apart le_rfl⟩
  have hright {b : Bounds α} (hb : b.size.Positive) : b.x < b.right :=
    lt_add_of_pos_right _ hb.width
  have hbottom {b : Bounds α} (hb : b.size.Positive) : b.y < b.bottom :=
    lt_add_of_pos_right _ hb.height
  by_contra hnone
  unfold ApartBy at hnone
  simp only [add_zero, not_or, not_le] at hnone
  obtain ⟨h₁, h₂, h₃, h₄⟩ := hnone
  obtain ⟨x, hax, hxa, hbx, hxb⟩ := exists_between_both (hright ha) (hright hb) h₂ h₁
  obtain ⟨y, hay, hya, hby, hyb⟩ := exists_between_both (hbottom ha) (hbottom hb) h₄ h₃
  exact h ⟨x, y⟩ ⟨hax, hay, hxa, hya⟩ ⟨hbx, hby, hxb, hyb⟩

end

/-- Room inside a box stays room when both boxes are moved together. -/
theorem Surrounds.shift [ExactScalar α] {padding : Padding α} {outer inner : Bounds α}
    (h : Surrounds padding outer inner) (offset : Point α) :
    Surrounds padding (outer.shift offset) (inner.shift offset) := by
  obtain ⟨hleft, htop, hright, hbottom⟩ := h
  unfold Bounds.right at hright
  unfold Bounds.bottom at hbottom
  constructor
  · simp only [Bounds.shift]
    linarith
  · simp only [Bounds.shift]
    linarith
  · simp only [Bounds.shift, Bounds.right]
    linarith
  · simp only [Bounds.shift, Bounds.bottom]
    linarith

/-! ## Boxes around centres -/

/-- The box of that size with its centre there. -/
def around [Scalar α] (center : Point α) (size : Size α) : Bounds α :=
  ofCorner ⟨center.x - size.width / 2, center.y - size.height / 2⟩ size

section

variable [ExactScalar α] {gap : α}

/-- On one axis: what is around two centres keeps the gap if these are far enough apart. -/
theorem gap_of_distance_iff {x y length length' : α} :
    x - length / Scalar.ofNat 2 + length + gap ≤ y - length' / Scalar.ofNat 2 ∨
        y - length' / Scalar.ofNat 2 + length' + gap ≤ x - length / Scalar.ofNat 2 ↔
      length / Scalar.ofNat 2 + length' / Scalar.ofNat 2 + gap ≤ |x - y| := by
  have hhalf : length / Scalar.ofNat 2 + length / Scalar.ofNat 2 = length :=
    Scalar.half_add_half length
  have hhalf' : length' / Scalar.ofNat 2 + length' / Scalar.ofNat 2 = length' :=
    Scalar.half_add_half length'
  rw [le_abs']
  refine or_congr ⟨fun h => ?_, fun h => ?_⟩ ⟨fun h => ?_, fun h => ?_⟩ <;> linarith

/-- Boxes keep a gap between them exactly if, on one axis, their centres are half of both boxes
and the gap apart. -/
theorem apartBy_around {c c' : Point α} {s s' : Size α} :
    (around c s).ApartBy gap (around c' s') ↔
      s.width / Scalar.ofNat 2 + s'.width / Scalar.ofNat 2 + gap ≤ |c.x - c'.x| ∨
        s.height / Scalar.ofNat 2 + s'.height / Scalar.ofNat 2 + gap ≤ |c.y - c'.y| := by
  rw [← gap_of_distance_iff, ← gap_of_distance_iff, or_assoc]
  exact Iff.rfl

end

end Bounds

end DiagramPress
