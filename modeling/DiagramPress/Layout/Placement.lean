-- What a placement method is given: the free children of one container, by
-- their sizes and the connections between them.
import DiagramPress.Layout.Vocabulary

namespace DiagramPress

/-- The children are numbered from 0. Edges lead from one child to another. -/
structure Placement (α : Type) where
  sizes : List (Size α)
  edges : List (Nat × Nat)
  flow : Flow
  nodeSpacing : α
  layerSpacing : α
  /-- How often a simulation is stepped. -/
  iterations : Nat

namespace Placement

variable {α : Type} [Scalar α]

def count (p : Placement α) : Nat := p.sizes.length

/-- Moves points so that the least coordinate on each axis is zero. -/
def normalize (points : List (Point α)) : List (Point α) :=
  match Scalar.least? (points.map (·.x)), Scalar.least? (points.map (·.y)) with
  | some x, some y =>
    if Scalar.isFinite x && Scalar.isFinite y then
      points.map fun p => ⟨p.x - x, p.y - y⟩
    else points
  | _, _ => points

/-- Corners from centres. -/
def cornersOf (centers : List (Point α)) (sizes : List (Size α)) : List (Point α) :=
  List.zipWith (fun c s => ⟨c.x - s.width / 2, c.y - s.height / 2⟩) centers sizes

end Placement

end DiagramPress
