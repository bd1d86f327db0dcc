-- Boxes around boxes: where numbers are exact, the union of boxes covers each of
-- them, with room to spare on every side if it is asked for.
import DiagramPress.Proofs.Number.Exact
import DiagramPress.Layout.Adapter
import Mathlib.Tactic.Positivity

namespace DiagramPress

/-- No side of the padding is negative. -/
structure Padding.Nonneg {α : Type} [Scalar α] (p : Padding α) : Prop where
  top : 0 ≤ p.top
  left : 0 ≤ p.left
  bottom : 0 ≤ p.bottom
  right : 0 ≤ p.right

namespace Bounds

variable {α : Type}

/-! ## Covering -/

/-- No side of the inner box is outside the outer one. -/
structure Covers [Scalar α] (outer inner : Bounds α) : Prop where
  left : outer.x ≤ inner.x
  top : outer.y ≤ inner.y
  right : inner.right ≤ outer.right
  bottom : inner.bottom ≤ outer.bottom

/-- Around the inner box there is room inside the outer one, on every side as much
as the padding says. -/
structure Surrounds [Scalar α] (padding : Padding α) (outer inner : Bounds α) : Prop where
  left : outer.x ≤ inner.x - padding.left
  top : outer.y ≤ inner.y - padding.top
  right : inner.right + padding.right ≤ outer.right
  bottom : inner.bottom + padding.bottom ≤ outer.bottom

variable [ExactScalar α]

theorem Covers.refl (b : Bounds α) : b.Covers b := ⟨le_rfl, le_rfl, le_rfl, le_rfl⟩

theorem Covers.trans {a b c : Bounds α} (h : a.Covers b) (h' : b.Covers c) : a.Covers c :=
  ⟨h.left.trans h'.left, h.top.trans h'.top, h'.right.trans h.right, h'.bottom.trans h.bottom⟩

/-- A box that covers another one contains it, without the slack that is allowed. -/
theorem Covers.contains {outer inner : Bounds α} (h : outer.Covers inner) :
    outer.contains inner = true := by
  have hslack : (0 : α) ≤ slack := by
    rw [slack, Scalar.decimal, Scalar.ofNat_eq_cast, Scalar.ofNat_eq_cast]
    positivity
  simp only [Bounds.contains, Bool.and_eq_true, decide_eq_true_eq, and_assoc]
  exact ⟨(sub_le_self _ hslack).trans h.left, (sub_le_self _ hslack).trans h.top,
    h.right.trans (le_add_of_nonneg_right hslack), h.bottom.trans (le_add_of_nonneg_right hslack)⟩

/-- Padding that is not negative is room. -/
theorem Surrounds.covers {padding : Padding α} {outer inner : Bounds α}
    (h : Surrounds padding outer inner) (hpadding : padding.Nonneg) : outer.Covers inner where
  left := h.left.trans (sub_le_self _ (Scalar.nonneg_iff.mp hpadding.left))
  top := h.top.trans (sub_le_self _ (Scalar.nonneg_iff.mp hpadding.top))
  right := (le_add_of_nonneg_right (Scalar.nonneg_iff.mp hpadding.right)).trans h.right
  bottom := (le_add_of_nonneg_right (Scalar.nonneg_iff.mp hpadding.bottom)).trans h.bottom

/-! ## Unions -/

theorem right_union (a b : Bounds α) : (a.union b).right = max a.right b.right := by
  simp only [union, right, Scalar.greatest_eq_max, add_sub_cancel]

theorem bottom_union (a b : Bounds α) : (a.union b).bottom = max a.bottom b.bottom := by
  simp only [union, bottom, Scalar.greatest_eq_max, add_sub_cancel]

theorem x_union (a b : Bounds α) : (a.union b).x = min a.x b.x := Scalar.least_eq_min a.x b.x

theorem y_union (a b : Bounds α) : (a.union b).y = min a.y b.y := Scalar.least_eq_min a.y b.y

theorem union_covers_left (a b : Bounds α) : (a.union b).Covers a where
  left := by rw [x_union]; exact min_le_left _ _
  top := by rw [y_union]; exact min_le_left _ _
  right := by rw [right_union]; exact le_max_left _ _
  bottom := by rw [bottom_union]; exact le_max_left _ _

theorem union_covers_right (a b : Bounds α) : (a.union b).Covers b where
  left := by rw [x_union]; exact min_le_right _ _
  top := by rw [y_union]; exact min_le_right _ _
  right := by rw [right_union]; exact le_max_right _ _
  bottom := by rw [bottom_union]; exact le_max_right _ _

/-- A box that has grown around others covers what it was and all of them. -/
theorem foldl_union_covers {β : Type} (grown : β → Bounds α) (members : List β) (b : Bounds α) :
    (members.foldl (fun b m => b.union (grown m)) b).Covers b ∧
      ∀ m ∈ members, (members.foldl (fun b m => b.union (grown m)) b).Covers (grown m) := by
  induction members generalizing b with
  | nil => exact ⟨.refl b, fun m hm => absurd hm List.not_mem_nil⟩
  | cons first rest ih =>
    obtain ⟨hstart, hrest⟩ := ih (b.union (grown first))
    refine ⟨hstart.trans (union_covers_left _ _), fun m hm => ?_⟩
    rcases List.mem_cons.mp hm with rfl | hm
    · exact hstart.trans (union_covers_right _ _)
    · exact hrest m hm

/-- To cover a box with padding around it is to surround the box. -/
theorem covers_padded_iff {padding : Padding α} {outer inner : Bounds α} :
    outer.Covers (Layout.padded padding inner) ↔ Surrounds padding outer inner := by
  have hright : (Layout.padded padding inner).right = inner.right + padding.right := by
    simp only [Layout.padded, right]
    ring
  have hbottom : (Layout.padded padding inner).bottom = inner.bottom + padding.bottom := by
    simp only [Layout.padded, bottom]
    ring
  constructor
  · exact fun h => ⟨h.left, h.top, hright ▸ h.right, hbottom ▸ h.bottom⟩
  · exact fun h => ⟨h.left, h.top, hright ▸ h.right, hbottom ▸ h.bottom⟩

end Bounds

end DiagramPress
