-- One picture for the four flows: with the axes exchanged, trees that grow to the right are
-- trees that grow down; and trees that grow up are trees that grow down, upside down.
import DiagramPress.Proofs.Layout.TreeSpacing

namespace DiagramPress

variable {α : Type}

/-! ## The axes exchanged -/

def Point.transposed (p : Point α) : Point α := ⟨p.y, p.x⟩

def Size.transposed (s : Size α) : Size α := ⟨s.height, s.width⟩

def Flow.transposed : Flow → Flow
  | .down => .right
  | .up => .left
  | .right => .down
  | .left => .up

/-- The same children with the axes exchanged. -/
def Placement.transposed (p : Placement α) : Placement α :=
  { p with sizes := p.sizes.map Size.transposed, flow := p.flow.transposed }

theorem map_transposed_transposed (points : List (Point α)) :
    (points.map Point.transposed).map Point.transposed = points := by
  rw [List.map_map]
  exact List.map_id points

/-- Both axes are moved to the origin in the same way. -/
theorem Placement.normalize_transposed [Scalar α] (points : List (Point α)) :
    normalize (points.map Point.transposed) = (normalize points).map Point.transposed := by
  have hx : (points.map Point.transposed).map (·.x) = points.map (·.y) := List.map_map
  have hy : (points.map Point.transposed).map (·.y) = points.map (·.x) := List.map_map
  unfold normalize
  rw [hx, hy]
  cases Scalar.least? (points.map (·.x)) with
  | none => cases Scalar.least? (points.map (·.y)) <;> rfl
  | some x =>
    cases Scalar.least? (points.map (·.y)) with
    | none => rfl
    | some y =>
      dsimp only
      rw [Bool.and_comm]
      split
      · rw [List.map_map, List.map_map]
        rfl
      · rfl

namespace TreePlacement

theorem treesOf_transposed (p : Placement α) : treesOf p.transposed = treesOf p := by
  have hcount : p.transposed.count = p.count := List.length_map _
  unfold treesOf
  rw [hcount]
  rfl

theorem depthOf_transposed (p : Placement α) : depthOf p.transposed = depthOf p := by
  funext i
  unfold depthOf
  rw [treesOf_transposed]

section

variable [Scalar α] (p : Placement α)

theorem sizeAcross_transposed : sizeAcross p.transposed = sizeAcross p := by
  funext i
  unfold sizeAcross Placement.transposed
  rw [List.getElem?_map]
  cases p.sizes[i]? with
  | none => rfl
  | some s => cases p.flow <;> rfl

theorem sizeAlong_transposed : sizeAlong p.transposed = sizeAlong p := by
  funext i
  unfold sizeAlong Placement.transposed
  rw [List.getElem?_map]
  cases p.sizes[i]? with
  | none => rfl
  | some s => cases p.flow <;> rfl

theorem acrossAt_transposed : acrossAt p.transposed = acrossAt p := by
  funext i
  unfold acrossAt
  rw [treesOf_transposed, sizeAcross_transposed]
  rfl

theorem thickness_transposed : thickness p.transposed = thickness p := by
  have hcount : p.transposed.count = p.count := List.length_map _
  funext d
  unfold thickness deepest
  rw [treesOf_transposed, sizeAlong_transposed, depthOf_transposed, hcount]

theorem alongAt_transposed : alongAt p.transposed = alongAt p := by
  funext i
  unfold alongAt deepest
  rw [treesOf_transposed, sizeAlong_transposed, depthOf_transposed, thickness_transposed]
  rfl

theorem pointOf_transposed (flow : Flow) (size : Size α) (across along : α) :
    pointOf flow.transposed size.transposed across along =
      (pointOf flow size across along).transposed := by
  cases flow <;> rfl

/-- Trees with the axes exchanged are the trees as they are, with the axes exchanged. -/
theorem place_transposed : place p.transposed = (place p).map Point.transposed := by
  have hpoints : points p.transposed = (points p).map Point.transposed := by
    rw [points_eq, points_eq, acrossAt_transposed, alongAt_transposed]
    unfold Placement.transposed
    rw [List.zipIdx_map, List.map_map, List.map_map]
    exact List.map_congr_left fun entry _ => pointOf_transposed p.flow entry.1 _ _
  unfold place
  rw [hpoints, Placement.normalize_transposed]

theorem place_eq_transposed : place p = (place p.transposed).map Point.transposed := by
  rw [place_transposed, map_transposed_transposed]

end

end TreePlacement

/-! ## Upside down -/

/-- The box in a picture of that height, turned upside down. -/
def Bounds.upsideDown [Scalar α] (height : α) (b : Bounds α) : Bounds α :=
  { b with y := height - b.y - b.height }

namespace Placement

variable [ExactScalar α]

/-- The least coordinate from left to right does not depend on heights. -/
theorem IsCorner.x_eq {points points' : List (Point α)} {corner corner' : Point α}
    (h : IsCorner points corner) (h' : IsCorner points' corner')
    (hsame : points.map (·.x) = points'.map (·.x)) : corner.x = corner'.x := by
  have hle {l l' : List (Point α)} {c c' : Point α} (h : IsCorner l c) (h' : IsCorner l' c')
      (hsame : l.map (·.x) = l'.map (·.x)) : c.x ≤ c'.x := by
    obtain ⟨q, hq, hx⟩ := h'.x_mem
    have hmem := List.mem_map_of_mem (f := fun q : Point α => q.x) hq
    rw [← hsame] at hmem
    obtain ⟨r, hr, hrx⟩ := List.mem_map.mp hmem
    rw [← hx, ← hrx]
    exact h.x_le r hr
  exact le_antisymm (hle h h' hsame) (hle h' h hsame.symm)

end Placement

namespace TreePlacement

section

variable [ExactScalar α] (p : Placement α)

theorem boxes_relativeTo (corner : Point α) : p.boxes ((points p).map (·.relativeTo corner)) =
    p.sizes.zipIdx.map fun (size, i) => Bounds.ofCorner
      ((pointOf p.flow size (acrossAt p i) (alongAt p i)).relativeTo corner) size := by
  have hsizes : p.sizes.zipIdx.map (·.1) = p.sizes := List.zipIdx_map_fst _ _
  unfold Placement.boxes
  rw [points_eq, List.map_map]
  nth_rewrite 2 [← hsizes]
  rw [List.zipWith_map, List.zipWith_self]
  rfl

theorem acrossAt_up : acrossAt { p with flow := .up } = acrossAt { p with flow := .down } := rfl

theorem alongAt_up : alongAt { p with flow := .up } = alongAt { p with flow := .down } := rfl

end

section

variable [ExactScalar α] {p : Placement α} {corner corner' : Point α}

/-- The least coordinate from top to bottom, in terms of what the points are made of. -/
theorem least_y (h : Placement.IsCorner (points p) corner) :
    (∀ e ∈ p.sizes.zipIdx, corner.y ≤ (pointOf p.flow e.1 (acrossAt p e.2) (alongAt p e.2)).y) ∧
      ∃ e ∈ p.sizes.zipIdx,
        (pointOf p.flow e.1 (acrossAt p e.2) (alongAt p e.2)).y = corner.y := by
  rw [points_eq] at h
  constructor
  · intro e he
    exact h.y_le _ (List.mem_map_of_mem he)
  · obtain ⟨_, hq, hy⟩ := h.y_mem
    obtain ⟨e, he, rfl⟩ := List.mem_map.mp hq
    exact ⟨e, he, hy⟩

variable (hdown : Placement.IsCorner (points { p with flow := .down }) corner)
  (hup : Placement.IsCorner (points { p with flow := .up }) corner')
include hdown hup

/-- The boxes of trees that grow down reach from the top to a height that the least coordinates
of both pictures give. -/
theorem height_of_corners :
    let boxes := Placement.boxes { p with flow := .down }
      ((points { p with flow := .down }).map (·.relativeTo corner))
    (∀ b ∈ boxes, 0 ≤ b.y ∧ b.bottom ≤ -corner.y - corner'.y) ∧
      (∃ b ∈ boxes, b.y = 0) ∧ ∃ b ∈ boxes, b.bottom = -corner.y - corner'.y := by
  intro boxes
  have hboxes : boxes = _ := boxes_relativeTo _ corner
  obtain ⟨hlow, lowest, hlowest, hy⟩ := least_y hdown
  obtain ⟨hhigh, highest, hhighest, hy'⟩ := least_y hup
  rw [alongAt_up, acrossAt_up] at hhigh hy'
  simp only [pointOf] at hhigh hy'
  rw [hboxes]
  refine ⟨fun b hb => ?_, ⟨_, List.mem_map_of_mem hlowest, sub_eq_zero.mpr hy⟩,
    ⟨_, List.mem_map_of_mem hhighest, ?_⟩⟩
  · obtain ⟨e, he, rfl⟩ := List.mem_map.mp hb
    have hle := hhigh e he
    refine ⟨sub_nonneg.mpr (hlow e he), ?_⟩
    simp only [Bounds.bottom, Bounds.ofCorner, Point.relativeTo, pointOf]
    linarith
  · rw [← hy']
    simp only [Bounds.bottom, Bounds.ofCorner, Point.relativeTo, pointOf]
    ring

/-- Both pictures have the same least coordinate from left to right, and what is low in one of
them is high in the other one. -/
theorem upsideDown_of_corners :
    Placement.boxes { p with flow := .up }
        ((points { p with flow := .up }).map (·.relativeTo corner')) =
      (Placement.boxes { p with flow := .down }
        ((points { p with flow := .down }).map (·.relativeTo corner))).map
          (Bounds.upsideDown (-corner.y - corner'.y)) := by
  have hx : corner.x = corner'.x := by
    apply hdown.x_eq hup
    rw [points_eq, points_eq, List.map_map, List.map_map]
    rfl
  rw [boxes_relativeTo, boxes_relativeTo, List.map_map]
  refine List.map_congr_left fun e _ => ?_
  simp only [Function.comp_apply, Bounds.upsideDown, Bounds.ofCorner, Point.relativeTo, pointOf,
    alongAt_up, acrossAt_up, hx]
  congr 1
  ring

end

/-! ## One picture -/

/-- To the right, trees stand as they stand downwards with the axes exchanged, and to the left as
they stand upwards, number for number. Where numbers are exact, trees upwards are those
downwards, upside down in a picture of their height. -/
theorem flows_show_one_picture :
    (∀ (α : Type) [Scalar α] (p : Placement α),
      place { p with flow := .right } = (place { p with
        sizes := p.sizes.map Size.transposed, flow := .down }).map Point.transposed ∧
      place { p with flow := .left } = (place { p with
        sizes := p.sizes.map Size.transposed, flow := .up }).map Point.transposed) ∧
    ∀ (α : Type) [ExactScalar α] (p : Placement α),
      let down := { p with flow := .down }
      let up := { p with flow := .up }
      ∃ height, (∀ b ∈ down.boxes (place down), 0 ≤ b.y ∧ b.bottom ≤ height) ∧
        (p.sizes ≠ [] → (∃ b ∈ down.boxes (place down), b.y = 0) ∧
          ∃ b ∈ down.boxes (place down), b.bottom = height) ∧
        up.boxes (place up) = (down.boxes (place down)).map (Bounds.upsideDown height) := by
  constructor
  · intro α _ p
    exact ⟨place_eq_transposed { p with flow := .right },
      place_eq_transposed { p with flow := .left }⟩
  · intro α _ p down up
    by_cases hne : p.sizes = []
    · have hnone (q : Placement α) (hq : q.sizes = []) : q.boxes (place q) = [] := by
        unfold Placement.boxes
        rw [hq, List.zipWith_nil_right]
      rw [hnone down hne, hnone up hne]
      exact ⟨0, fun b hb => absurd hb List.not_mem_nil, fun h => absurd hne h, rfl⟩
    · obtain ⟨corner, hdown, hplaceDown⟩ := Placement.exists_isCorner (points_ne_nil (p := down) hne)
      obtain ⟨corner', hup, hplaceUp⟩ := Placement.exists_isCorner (points_ne_nil (p := up) hne)
      obtain ⟨hinside, hends⟩ := height_of_corners hdown hup
      unfold place
      rw [hplaceDown, hplaceUp]
      exact ⟨-corner.y - corner'.y, hinside, fun _ => hends, upsideDown_of_corners hdown hup⟩

/-- A parent and two children of other heights and widths. -/
def unevenTree : Placement ℚ where
  sizes := [⟨40, 20⟩, ⟨60, 30⟩, ⟨10, 50⟩]
  edges := [(0, 1), (0, 2)]
  flow := .down
  nodeSpacing := 10
  layerSpacing := 25
  iterations := 0

theorem an_uneven_tree_is_turned_upside_down :
    let up := { unevenTree with flow := .up }
    unevenTree.sizes ≠ [] ∧ ∃ height, ∃ b ∈ unevenTree.boxes (place unevenTree),
      0 ≤ b.y ∧ b.bottom = height ∧
        up.boxes (place up) =
          (unevenTree.boxes (place unevenTree)).map (Bounds.upsideDown height) := by
  intro up
  have hne : unevenTree.sizes ≠ [] := List.cons_ne_nil _ _
  obtain ⟨height, hinside, hends, hup⟩ := flows_show_one_picture.2 ℚ unevenTree
  obtain ⟨-, b, hb, hbottom⟩ := hends hne
  exact ⟨hne, height, b, hb, (hinside b hb).1, hbottom, hup⟩

end TreePlacement

end DiagramPress
