-- Tree placement: every subtree takes a stretch across the flow, each parent
-- stands over the middle of its children, and depths follow the flow.
import DiagramPress.Layout.Placement
import DiagramPress.Layout.SpanningForest

namespace DiagramPress.TreePlacement

variable {α : Type} [Scalar α]

/-! ## Across the flow -/

/-- The sizes across the flow, and the gap between subtrees. -/
structure Across (α : Type) where
  size : Nat → α
  gap : α

mutual

/-- How far a subtree reaches across the flow. -/
def extent (a : Across α) : Rose → α
  | .node i children => Scalar.greatest (a.size i) (rowExtent a children)

/-- How far subtrees side by side reach. -/
def rowExtent (a : Across α) : List Rose → α
  | [] => 0
  | t :: rest => rowExtentFrom a (0 + extent a t) rest

/-- Adds further subtrees, each behind a gap. -/
def rowExtentFrom (a : Across α) (sum : α) : List Rose → α
  | [] => sum
  | t :: rest => rowExtentFrom a (sum + a.gap + extent a t) rest

end

/-- The room that the children of one parent take together. -/
def childrenExtent (a : Across α) (children : List Rose) : α :=
  children.foldl (fun sum t => sum + extent a t) 0 +
    a.gap * Scalar.ofNat (children.length - 1)

mutual

/-- The places across the flow in a subtree that starts at `start`. -/
def across (a : Across α) (start : α) : Rose → List (Nat × α)
  | t@(.node i children) =>
    (i, start + (extent a t - a.size i) / 2) ::
      acrossRow a (start + (extent a t - childrenExtent a children) / 2) children

/-- The places in subtrees side by side. -/
def acrossRow (a : Across α) (cursor : α) : List Rose → List (Nat × α)
  | [] => []
  | t :: rest => across a cursor t ++ acrossRow a (cursor + (extent a t + a.gap)) rest

end

/-! ## Along the flow -/

/-- The thickness of the layer at a depth. -/
def layerExtent (size : Nat → α) (depth : Nat → Nat) (count d : Nat) : α :=
  ((List.range count).filter fun i => depth i = d).foldl
    (fun thickest i => Scalar.greatest thickest (size i)) 0

/-- Where the layer at a depth starts. -/
def layerOffset (extent : Nat → α) (gap : α) : Nat → α
  | 0 => 0
  | d + 1 => layerOffset extent gap d + extent d + gap

/-! ## Points -/

def sizeAcross (p : Placement α) (i : Nat) : α :=
  match p.sizes[i]? with
  | some s => if p.flow.isVertical then s.width else s.height
  | none => 0

def sizeAlong (p : Placement α) (i : Nat) : α :=
  match p.sizes[i]? with
  | some s => if p.flow.isVertical then s.height else s.width
  | none => 0

/-- The point of a box from its places across and along the flow. -/
def pointOf (flow : Flow) (size : Size α) (across along : α) : Point α :=
  match flow with
  | .down => ⟨across, along⟩
  | .up => ⟨across, -along - size.height⟩
  | .right => ⟨along, across⟩
  | .left => ⟨-along - size.width, across⟩

/-- The points before they are moved to the origin. -/
def points (p : Placement α) : List (Point α) :=
  let trees := (SpanningForest.ofEdges p.count p.edges).trees
  let depths := Rose.depthsOf 0 trees
  let depth (i : Nat) : Nat := (depths.lookup i).getD 0
  let deepest := (depths.map (·.2)).foldl max 0
  let extents := (List.range (deepest + 1)).map (layerExtent (sizeAlong p) depth p.count)
  let extentAt (d : Nat) : α := extents[d]?.getD 0
  let offsets := (List.range (deepest + 1)).map (layerOffset extentAt p.layerSpacing)
  let places := acrossRow ⟨sizeAcross p, p.nodeSpacing⟩ 0 trees
  p.sizes.zipIdx.map fun (size, i) =>
    let d := depth i
    let along := offsets[d]?.getD 0 + (extentAt d - sizeAlong p i) / 2
    pointOf p.flow size ((places.lookup i).getD 0) along

def place (p : Placement α) : List (Point α) := Placement.normalize (points p)

end DiagramPress.TreePlacement
