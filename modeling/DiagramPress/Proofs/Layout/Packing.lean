-- Boxes that are packed into rows: in their order they fill one row after the other from
-- the left margin on, and a row ends only where the next box would stick out of it.
import Mathlib.Data.List.Fold
import DiagramPress.Proofs.Layout.Spacing

namespace DiagramPress

variable {α : Type} [ExactScalar α]

namespace Rows

/-! ## Rows of boxes -/

/-- Boxes side by side from the left margin on, with the gap between neighbours and all tops at
one height. -/
structure IsRow (gap : α) (row : List (Bounds α)) : Prop where
  atMargin : ∃ b ∈ row.head?, b.x = 0
  onward : row.IsChain fun a b => b.x = a.right + gap ∧ b.y = a.y

/-- The first box of the lower row would stick out of the upper one. -/
def Overflows (gap limit : α) (upper lower : List (Bounds α)) : Prop :=
  ∀ a ∈ upper.getLast?, ∀ b ∈ lower.head?, limit < a.right + gap + b.width

/-- Rows that lie below each other, and of which none has room for the start of the next one. -/
structure AreStacked (gap limit : α) (rows : List (List (Bounds α))) : Prop where
  isRow : ∀ row ∈ rows, IsRow gap row
  below : rows.Pairwise fun upper lower => ∀ a ∈ upper, ∀ b ∈ lower, a.bottom + gap ≤ b.y
  full : rows.IsChain (Overflows gap limit)

theorem IsRow.append {gap : α} {row : List (Bounds α)} (h : IsRow gap row) {last b : Bounds α}
    (hlast : last ∈ row.getLast?) (hx : b.x = last.right + gap) (hy : b.y = last.y) :
    IsRow gap (row ++ [b]) where
  atMargin := by
    obtain ⟨first, hfirst, hmargin⟩ := h.atMargin
    refine ⟨first, ?_, hmargin⟩
    rw [Option.mem_def] at hfirst ⊢
    rw [List.head?_append, hfirst, Option.some_or]
  onward := by
    refine List.isChain_append.mpr ⟨h.onward, .singleton b, fun a ha c hc => ?_⟩
    obtain rfl := Option.mem_unique ha hlast
    rw [List.head?_cons, Option.mem_def, Option.some.injEq] at hc
    subst hc
    exact ⟨hx, hy⟩

namespace AreStacked

variable {gap limit : α} {rows : List (List (Bounds α))} {row : List (Bounds α)}

/-- The last row goes on with one more box. -/
theorem extend (h : AreStacked gap limit (rows ++ [row])) {last b : Bounds α}
    (hlast : last ∈ row.getLast?) (hx : b.x = last.right + gap) (hy : b.y = last.y) :
    AreStacked gap limit (rows ++ [row ++ [b]]) := by
  obtain ⟨hrow, hbelow, hfull⟩ := h
  rw [List.pairwise_append] at hbelow
  rw [List.isChain_append] at hfull
  constructor
  case isRow =>
    intro r hr
    rcases List.mem_append.mp hr with hr | hr
    · exact hrow r (List.mem_append_left _ hr)
    · rw [List.mem_singleton.mp hr]
      exact (hrow row (by simp)).append hlast hx hy
  case below =>
    refine List.pairwise_append.mpr ⟨hbelow.1, List.pairwise_singleton _ _, ?_⟩
    intro upper hupper lower hlower a ha c hc
    obtain rfl := List.mem_singleton.mp hlower
    have hrest := hbelow.2.2 upper hupper row (by simp) a ha
    rcases List.mem_append.mp hc with hc | hc
    · exact hrest c hc
    · rw [List.mem_singleton.mp hc, hy]
      exact hrest last (List.mem_of_getLast? hlast)
  case full =>
    refine List.isChain_append.mpr ⟨hfull.1, .singleton _, ?_⟩
    intro upper hupper lower hlower a ha c hc
    obtain rfl := Option.some.inj hlower
    refine hfull.2.2 upper hupper row rfl a ha c ?_
    obtain ⟨first, hfirst, -⟩ := (hrow row (by simp)).atMargin
    rw [Option.mem_def] at hfirst hc ⊢
    rwa [List.head?_append, hfirst, Option.some_or, ← hfirst] at hc

/-- A box that does not fit into the last row starts a new one. -/
theorem start (h : AreStacked gap limit (rows ++ [row])) {last b : Bounds α}
    (hlast : last ∈ row.getLast?) (hx : b.x = 0)
    (hy : ∀ upper ∈ rows ++ [row], ∀ a ∈ upper, a.bottom + gap ≤ b.y)
    (hwide : limit < last.right + gap + b.width) :
    AreStacked gap limit (rows ++ [row] ++ [[b]]) := by
  constructor
  case isRow =>
    intro r hr
    rcases List.mem_append.mp hr with hr | hr
    · exact h.isRow r hr
    · rw [List.mem_singleton.mp hr]
      exact ⟨⟨b, rfl, hx⟩, .singleton b⟩
  case below =>
    refine List.pairwise_append.mpr ⟨h.below, List.pairwise_singleton _ _, ?_⟩
    intro upper hupper lower hlower a ha c hc
    obtain rfl := List.mem_singleton.mp hlower
    rw [List.mem_singleton.mp hc]
    exact hy upper hupper a ha
  case full =>
    refine List.isChain_append.mpr ⟨h.full, .singleton _, ?_⟩
    intro upper hupper lower hlower a ha c hc
    obtain rfl := Option.some.inj hlower
    obtain rfl := Option.some.inj hc
    rw [List.getLast?_concat] at hupper
    obtain rfl := Option.some.inj hupper
    obtain rfl := Option.mem_unique ha hlast
    exact hwide

end AreStacked

/-! ## Filling the rows -/

/-- The boxes placed so far, the last row apart, and where the cursor is behind them. -/
structure Cursor.IsBehind (c : Cursor α) (gap limit : α) (rows : List (List (Bounds α)))
    (row : List (Bounds α)) : Prop where
  stacked : AreStacked gap limit (rows ++ [row])
  atEnd : ∃ last ∈ row.getLast?, c.x = last.right + gap ∧ c.y = last.y
  bottoms : ∀ b ∈ row, b.bottom ≤ c.y + c.rowHeight
  rowHeight : 0 ≤ c.rowHeight

section

variable {gap limit : α} {c : Cursor α} {rows : List (List (Bounds α))} {row : List (Bounds α)}

/-- All that is placed ends above where a new row would start. -/
theorem Cursor.IsBehind.bottom_le (h : c.IsBehind gap limit rows row) (hgap : 0 ≤ gap) :
    ∀ upper ∈ rows ++ [row], ∀ a ∈ upper, a.bottom + gap ≤ c.y + (c.rowHeight + gap) := by
  obtain ⟨last, hlast, -, hy⟩ := h.atEnd
  have hheight := h.rowHeight
  intro upper hupper a ha
  rcases List.mem_append.mp hupper with hupper | hupper
  · have hbelow := (List.pairwise_append.mp h.stacked.below).2.2 upper hupper row (by simp) a ha
      last (List.mem_of_getLast? hlast)
    linarith
  · rw [List.mem_singleton.mp hupper] at ha
    linarith [h.bottoms a ha]

/-- One more box goes to the end of the last row, or to the start of a new one. -/
theorem Cursor.IsBehind.step (h : c.IsBehind gap limit rows row) (hgap : 0 ≤ gap) {size : Size α}
    (hsize : size.Nonneg) :
    ∃ rows' row', (Rows.step gap limit c size).2.IsBehind gap limit rows' row' ∧
      (rows' ++ [row']).flatten = (rows ++ [row]).flatten ++
        [Bounds.ofCorner (Rows.step gap limit c size).1 size] := by
  obtain ⟨last, hlast, hx, hy⟩ := h.atEnd
  have hheight := h.rowHeight
  unfold Rows.step
  dsimp only
  split
  · -- a new row
    rename_i hnew
    generalize hb : Bounds.ofCorner ⟨Scalar.ofNat 0, c.y + (c.rowHeight + gap)⟩ size = b
    have hbx : b.x = 0 := by rw [← hb, Bounds.ofCorner, Scalar.ofNat_zero]
    refine ⟨rows ++ [row], [b], ⟨?_, ⟨b, rfl, ?_, ?_⟩, fun a ha => ?_, ?_⟩, ?_⟩
    · refine h.stacked.start hlast hbx (fun upper hupper a ha => ?_) ?_
      · rw [← hb]
        exact h.bottom_le hgap upper hupper a ha
      · rw [← hx, ← hb]
        exact hnew.2
    · rw [← hb]
      exact (add_assoc _ _ _).symm
    · rw [← hb]
      rfl
    · rw [List.mem_singleton.mp ha, ← hb, Scalar.greatest_eq_max]
      exact add_le_add_right (le_max_right _ _) _
    · rw [Scalar.greatest_eq_max]
      exact hsize.height.trans (le_max_right _ _)
    · rw [← hb]
      simp
  · -- the same row
    generalize hb : Bounds.ofCorner ⟨c.x, c.y⟩ size = b
    have hby : b.y = last.y := by rw [← hb, ← hy]; rfl
    refine ⟨rows, row ++ [b], ⟨?_, ⟨b, List.getLast?_concat, ?_, ?_⟩, fun a ha => ?_, ?_⟩, ?_⟩
    · refine h.stacked.extend hlast ?_ hby
      rw [← hx, ← hb]
      rfl
    · rw [← hb]
      exact (add_assoc _ _ _).symm
    · rw [← hb]
      rfl
    · rw [Scalar.greatest_eq_max]
      rcases List.mem_append.mp ha with ha | ha
      · exact (h.bottoms a ha).trans (add_le_add_right (le_max_left _ _) _)
      · rw [List.mem_singleton.mp ha, ← hb]
        exact add_le_add_right (le_max_right _ _) _
    · rw [Scalar.greatest_eq_max]
      exact hheight.trans (le_max_left _ _)
    · simp

/-- However many boxes follow, they go on with the rows. -/
theorem Cursor.IsBehind.exists_rows (h : c.IsBehind gap limit rows row) (hgap : 0 ≤ gap)
    {sizes : List (Size α)} (hsizes : ∀ s ∈ sizes, s.Nonneg) :
    ∃ rows', AreStacked gap limit rows' ∧ rows'.flatten = (rows ++ [row]).flatten ++
      List.zipWith Bounds.ofCorner (fill gap limit c sizes) sizes := by
  induction sizes generalizing c rows row with
  | nil => exact ⟨rows ++ [row], h.stacked, (List.append_nil _).symm⟩
  | cons size rest ih =>
    obtain ⟨rows', row', hnext, hflatten⟩ := h.step hgap (hsizes size List.mem_cons_self)
    obtain ⟨all, hall, hflatten'⟩ := ih hnext fun s hs => hsizes s (List.mem_cons_of_mem _ hs)
    refine ⟨all, hall, ?_⟩
    rw [hflatten', hflatten, fill, List.zipWith_cons_cons, List.append_assoc,
      List.singleton_append]

/-- The first box starts the first row. -/
theorem isBehind_first (size : Size α) :
    (Rows.step gap limit ⟨0, 0, 0⟩ size).2.IsBehind gap limit []
      [Bounds.ofCorner (Rows.step gap limit ⟨0, 0, 0⟩ size).1 size] := by
  have hstep : Rows.step gap limit ⟨0, 0, 0⟩ size =
      (⟨0, 0⟩, ⟨0 + (size.width + gap), 0, Scalar.greatest 0 size.height⟩) := by
    unfold Rows.step
    rw [Scalar.numeral_zero]
    dsimp only
    rw [if_neg fun h => lt_irrefl 0 h.1]
  rw [hstep]
  refine ⟨⟨fun r hr => ?_, List.pairwise_singleton _ _, .singleton _⟩, ⟨_, rfl, ?_, rfl⟩,
    fun b hb => ?_, ?_⟩
  · rw [List.nil_append, List.mem_singleton] at hr
    subst hr
    exact ⟨⟨_, rfl, rfl⟩, .singleton _⟩
  · exact (add_assoc _ _ _).symm
  · rw [List.mem_singleton.mp hb, Scalar.greatest_eq_max]
    exact add_le_add_right (le_max_right _ _) _
  · rw [Scalar.greatest_eq_max]
    exact le_max_left _ _

theorem exists_rows_fill (hgap : 0 ≤ gap) {sizes : List (Size α)} (hsizes : ∀ s ∈ sizes, s.Nonneg) :
    ∃ rows, AreStacked gap limit rows ∧
      rows.flatten = List.zipWith Bounds.ofCorner (fill gap limit ⟨0, 0, 0⟩ sizes) sizes := by
  cases sizes with
  | nil => exact ⟨[], ⟨by simp, .nil, .nil⟩, rfl⟩
  | cons size rest =>
    exact (isBehind_first size).exists_rows hgap fun s hs => hsizes s (List.mem_cons_of_mem _ hs)

/-! ## The width of the rows -/

/-- A box that is no wider than a row does not stick out of it. -/
theorem right_step_le (hc : c.Nonneg) {size : Size α} (hwidth : size.width ≤ limit) :
    (Bounds.ofCorner (Rows.step gap limit c size).1 size).right ≤ limit := by
  unfold Rows.step
  dsimp only
  split
  · rw [Bounds.right, Bounds.ofCorner, Scalar.numeral_zero, zero_add]
    exact hwidth
  · rename_i hfits
    rw [Scalar.numeral_zero, not_and_or, not_lt, not_lt] at hfits
    rcases hfits with hmargin | hfits
    · obtain hzero : c.x = 0 := le_antisymm hmargin hc.x
      rw [Bounds.right, Bounds.ofCorner, hzero, zero_add]
      exact hwidth
    · exact hfits

theorem right_fill_le (hgap : 0 ≤ gap) (hc : c.Nonneg) {sizes : List (Size α)}
    (hsizes : ∀ s ∈ sizes, s.Nonneg) (hwidths : ∀ s ∈ sizes, s.width ≤ limit) :
    ∀ b ∈ List.zipWith Bounds.ofCorner (fill gap limit c sizes) sizes,
      0 ≤ b.x ∧ b.right ≤ limit := by
  induction sizes generalizing c with
  | nil => exact fun b hb => absurd hb List.not_mem_nil
  | cons size rest ih =>
    obtain ⟨hpoint, hnext⟩ := step_nonneg hgap limit hc (hsizes size List.mem_cons_self)
    intro b hb
    rw [fill, List.zipWith_cons_cons] at hb
    rcases List.mem_cons.mp hb with rfl | hb
    · exact ⟨hpoint.x, right_step_le hc (hwidths size List.mem_cons_self)⟩
    · exact ih hnext (fun s hs => hsizes s (List.mem_cons_of_mem _ hs))
        (fun s hs => hwidths s (List.mem_cons_of_mem _ hs)) b hb

end

end Rows

namespace Placement

variable (p : Placement α)

/-- The room that the boxes take, each with the spacing added to its sides. -/
def paddedArea : α :=
  (p.sizes.map fun s => (s.width + p.nodeSpacing) * (s.height + p.nodeSpacing)).sum

/-- The width of the widest box, zero if there is none. -/
def widest : α := (p.sizes.map (·.width)).foldr max 0

/-- How wide a row may be. -/
def rowLimit : α := max (Scalar.sqrt p.paddedArea) p.widest

variable {p}

theorem width_le_widest {s : Size α} (hs : s ∈ p.sizes) : s.width ≤ p.widest := by
  unfold widest
  generalize p.sizes = sizes at hs
  induction sizes with
  | nil => exact absurd hs List.not_mem_nil
  | cons t rest ih =>
    rw [List.map_cons, List.foldr_cons]
    rcases List.mem_cons.mp hs with rfl | hs
    · exact le_max_left _ _
    · exact (ih hs).trans (le_max_right _ _)

theorem limit_eq : Rows.limit p.nodeSpacing p.sizes = p.rowLimit := by
  have hgreatest : (Scalar.greatest : α → α → α) = max := by
    funext a b
    exact Scalar.greatest_eq_max a b
  have harea : p.sizes.foldl
      (fun sum s => sum + (s.width + p.nodeSpacing) * (s.height + p.nodeSpacing)) 0 =
        p.paddedArea := by
    rw [paddedArea, List.sum_eq_foldl, List.foldl_map]
  have hwidest : (p.sizes.map (·.width)).foldl max 0 = p.widest := by
    rw [widest, List.foldl_eq_foldr]
  unfold Rows.limit
  rw [hgreatest, Scalar.numeral_zero, harea, hwidest]
  rfl

/-- The boxes stand in their order in rows within the limit, with the spacing between any two. -/
structure IsPacked (p : Placement α) (points : List (Point α)) : Prop where
  count : points.length = p.sizes.length
  spaced : p.IsSpacedBy p.nodeSpacing points
  within : ∀ b ∈ p.boxes points, 0 ≤ b.x ∧ b.right ≤ p.rowLimit
  inRows : ∃ rows, Rows.AreStacked p.nodeSpacing p.rowLimit rows ∧ rows.flatten = p.boxes points

end Placement

namespace Rows

/-- Without negative sizes and gaps, boxes are packed into rows in their order. -/
theorem boxes_are_packed_into_rows {p : Placement α} (hgap : 0 ≤ p.nodeSpacing)
    (hsizes : ∀ s ∈ p.sizes, s.Nonneg) : p.IsPacked (place p) := by
  have hplace : place p = fill p.nodeSpacing p.rowLimit ⟨0, 0, 0⟩ p.sizes := by
    rw [place, Placement.limit_eq, Scalar.numeral_zero]
  constructor
  case count => exact length_fill _ _ _ _
  case spaced => exact isSpacedBy_place hgap hsizes
  case within =>
    rw [hplace]
    exact right_fill_le hgap ⟨le_rfl, le_rfl, le_rfl⟩ hsizes fun s hs =>
      (Placement.width_le_widest hs).trans (le_max_right _ _)
  case inRows =>
    rw [hplace]
    exact exists_rows_fill hgap hsizes

/-- Boxes of which one has no height and is as wide as a row may be. -/
def unevenBoxes : Placement ℚ where
  sizes := [⟨20, 30⟩, ⟨50, 0⟩, ⟨0, 25⟩, ⟨25, 0⟩]
  edges := []
  flow := .down
  nodeSpacing := 10
  layerSpacing := 0
  iterations := 0

theorem uneven_boxes_are_packed :
    (0 ≤ unevenBoxes.nodeSpacing ∧ ∀ s ∈ unevenBoxes.sizes, s.Nonneg) ∧
      (place unevenBoxes).map (fun q => (q.x, q.y)) = [(0, 0), (0, 40), (0, 50), (10, 50)] ∧
      unevenBoxes.IsPacked (place unevenBoxes) := by
  have hsizes : ∀ s ∈ unevenBoxes.sizes, s.Nonneg := by
    intro s hs
    simp only [unevenBoxes, List.mem_cons, List.not_mem_nil, or_false] at hs
    rcases hs with rfl | rfl | rfl | rfl <;> constructor <;> decide +kernel
  have hgap : 0 ≤ unevenBoxes.nodeSpacing := by decide +kernel
  exact ⟨⟨hgap, hsizes⟩, by decide +kernel, boxes_are_packed_into_rows hgap hsizes⟩

end Rows

end DiagramPress
