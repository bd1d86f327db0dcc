-- Methods that keep children apart: what it means for a placement, and why boxes
-- that are packed into rows never come closer than the spacing.
import DiagramPress.Proofs.Geometry.Spacing
import DiagramPress.Proofs.Layout.Methods

namespace DiagramPress

namespace Placement

variable {α : Type}

/-! ## Children apart -/

/-- The boxes of the children at the points that a method gives them. -/
def boxes (p : Placement α) (points : List (Point α)) : List (Bounds α) :=
  List.zipWith Bounds.ofCorner points p.sizes

/-- The boxes have the sizes of the children. -/
theorem getElem?_sizes_of_boxes {p : Placement α} {points : List (Point α)} {i : Nat}
    {b : Bounds α} [Scalar α] (h : (p.boxes points)[i]? = some b) : p.sizes[i]? = some b.size := by
  obtain ⟨point, size, -, hsize, rfl⟩ := List.getElem?_zipWith_eq_some.mp h
  exact hsize

/-- Between every two of the children there is at least the gap. -/
def IsSpacedBy [Scalar α] (p : Placement α) (gap : α) (points : List (Point α)) : Prop :=
  (p.boxes points).Pairwise (Bounds.ApartBy gap)

variable [ExactScalar α] {p : Placement α} {gap : α}

theorem IsSpacedBy.mono {points : List (Point α)} {less : α} (h : p.IsSpacedBy gap points)
    (hless : less ≤ gap) : p.IsSpacedBy less points :=
  h.imp fun hapart => hapart.mono hless

/-- Points are moved to the origin by one offset for all of them. -/
theorem exists_normalize_eq (points : List (Point α)) :
    ∃ offset : Point α,
      normalize points = points.map fun q => ⟨q.x + offset.x, q.y + offset.y⟩ := by
  by_cases h : points = []
  · subst h
    exact ⟨⟨0, 0⟩, rfl⟩
  · obtain ⟨corner, -, heq⟩ := exists_isCorner h
    refine ⟨⟨-corner.x, -corner.y⟩, heq.trans (List.map_congr_left fun q _ => ?_)⟩
    simp only [Point.relativeTo, sub_eq_add_neg]

/-- The boxes are moved to the origin as they are. -/
theorem exists_boxes_normalize (p : Placement α) (points : List (Point α)) :
    ∃ offset : Point α, p.boxes (normalize points) = (p.boxes points).map (·.shift offset) := by
  obtain ⟨offset, hoffset⟩ := exists_normalize_eq points
  refine ⟨offset, ?_⟩
  rw [hoffset, boxes, boxes, List.zipWith_map_left, List.map_zipWith]
  rfl

/-- Children stay apart when they are moved to the origin. -/
theorem IsSpacedBy.normalize {points : List (Point α)} (h : p.IsSpacedBy gap points) :
    p.IsSpacedBy gap (normalize points) := by
  obtain ⟨offset, hboxes⟩ := exists_boxes_normalize p points
  rw [IsSpacedBy, hboxes, List.pairwise_map]
  exact h.imp (Bounds.apartBy_shift offset).mpr

/-- Corners are what boxes around the centres start from. -/
theorem boxes_cornersOf (p : Placement α) (centers : List (Point α)) :
    p.boxes (cornersOf centers p.sizes) = List.zipWith Bounds.around centers p.sizes := by
  unfold boxes cornersOf
  generalize p.sizes = sizes
  induction centers generalizing sizes with
  | nil => rfl
  | cons c centers ih =>
    cases sizes with
    | nil => rfl
    | cons size sizes =>
      rw [List.zipWith_cons_cons, List.zipWith_cons_cons, List.zipWith_cons_cons, ih]
      rfl

end Placement

/-! ## Rows -/

namespace Rows

variable {α : Type} [ExactScalar α]

/-- Where boxes may go from now on: to the right of what is in the row, or below the row. -/
def Cursor.Leaves (gap : α) (c : Cursor α) (b : Bounds α) : Prop :=
  c.y + (c.rowHeight + gap) ≤ b.y ∨ b.y = c.y ∧ c.x ≤ b.x

/-- A box goes to where the cursor leaves room. What the next cursor leaves room for,
this one leaves room for as well, and there is a gap between the box and that. -/
theorem step_leaves {gap : α} (hgap : 0 ≤ gap) (limit : α) (cursor : Cursor α) {size : Size α}
    (hsize : size.Nonneg) :
    cursor.Leaves gap (Bounds.ofCorner (step gap limit cursor size).1 size) ∧
      ∀ b, (step gap limit cursor size).2.Leaves gap b → cursor.Leaves gap b ∧
        (Bounds.ofCorner (step gap limit cursor size).1 size).ApartBy gap b := by
  obtain ⟨hwidth, hheight⟩ := hsize
  have hplaced (start : Cursor α) (b : Bounds α) (hb : Cursor.Leaves gap
      ⟨start.x + (size.width + gap), start.y, Scalar.greatest start.rowHeight size.height⟩ b) :
      (Bounds.ofCorner ⟨start.x, start.y⟩ size).ApartBy gap b := by
    unfold Cursor.Leaves at hb
    unfold Bounds.ApartBy Bounds.right Bounds.bottom Bounds.ofCorner
    rw [Scalar.greatest_eq_max] at hb
    rcases hb with hb | ⟨-, hb⟩
    · have hrow := le_max_right start.rowHeight size.height
      exact .inr (.inr (.inl (by linarith)))
    · exact .inl (by linarith)
  unfold step
  dsimp only
  split
  · refine ⟨.inl le_rfl, fun b hb => ⟨.inl ?_, hplaced _ b hb⟩⟩
    rcases hb with hb | ⟨hb, -⟩
    · rw [Scalar.greatest_eq_max] at hb
      refine (le_add_of_nonneg_right ?_).trans hb
      exact add_nonneg (hheight.trans (le_max_right _ _)) hgap
    · exact hb.ge
  · refine ⟨.inr ⟨rfl, le_rfl⟩, fun b hb => ⟨?_, hplaced _ b hb⟩⟩
    rcases hb with hb | ⟨hy, hx⟩
    · have hrow := le_max_left cursor.rowHeight size.height
      rw [Scalar.greatest_eq_max] at hb
      simp only at hb
      exact .inl (by linarith)
    · simp only at hx
      exact .inr ⟨hy, by linarith⟩

theorem pairwise_fill {gap : α} (hgap : 0 ≤ gap) (limit : α) (cursor : Cursor α)
    {sizes : List (Size α)} (hsizes : ∀ s ∈ sizes, s.Nonneg) :
    (∀ b ∈ List.zipWith Bounds.ofCorner (fill gap limit cursor sizes) sizes, cursor.Leaves gap b) ∧
      (List.zipWith Bounds.ofCorner (fill gap limit cursor sizes) sizes).Pairwise
        (Bounds.ApartBy gap) := by
  induction sizes generalizing cursor with
  | nil => exact ⟨fun b hb => absurd hb List.not_mem_nil, .nil⟩
  | cons size rest ih =>
    obtain ⟨hbox, hnext⟩ := step_leaves hgap limit cursor (hsizes size List.mem_cons_self)
    obtain ⟨hleft, hpairs⟩ := ih (step gap limit cursor size).2 fun s hs =>
      hsizes s (List.mem_cons_of_mem _ hs)
    rw [fill, List.zipWith_cons_cons]
    refine ⟨fun b hb => ?_, hpairs.cons fun b hb => (hnext b (hleft b hb)).2⟩
    rcases List.mem_cons.mp hb with rfl | hb
    · exact hbox
    · exact (hnext b (hleft b hb)).1

theorem isSpacedBy_place {p : Placement α} (hgap : 0 ≤ p.nodeSpacing)
    (hsizes : ∀ s ∈ p.sizes, s.Nonneg) : p.IsSpacedBy p.nodeSpacing (place p) :=
  (pairwise_fill hgap _ _ hsizes).2

end Rows

end DiagramPress
