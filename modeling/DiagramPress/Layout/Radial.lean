-- Radial placement: the first tree stands in rings around its root, and the
-- trees after it go on with further rings.
import DiagramPress.Layout.Placement
import DiagramPress.Layout.SpanningForest

namespace DiagramPress.RadialPlacement

variable {α : Type} [Scalar α]

/-- The rings from the inside out, each with its members in order. -/
def rings (forest : SpanningForest) : List (List Nat) := forest.trees.flatMap Rose.levels

def diagonal (p : Placement α) (i : Nat) : α :=
  match p.sizes[i]? with
  | some s => Scalar.hypot s.width s.height
  | none => 0

/-- The members of a ring at equal angles. -/
def onRing (radius : α) (members : List Nat) : List (Nat × Point α) :=
  members.zipIdx.map fun (i, slot) =>
    let angle : α := Scalar.turn * Scalar.ofNat slot / Scalar.ofNat members.length
    (i, ⟨radius * Scalar.cos angle, radius * Scalar.sin angle⟩)

/-- The next radius: a step further out, or what the members need side by side. -/
def nextRadius (p : Placement α) (step radius : α) (members : List Nat) : α :=
  let around := members.foldl (fun sum i => sum + (diagonal p i + p.nodeSpacing)) 0
  Scalar.greatest (radius + step) (around / Scalar.turn)

/-- The centres on the rings outside `radius`. -/
def outward (p : Placement α) (step : α) : α → List (List Nat) → List (Nat × Point α)
  | _, [] => []
  | radius, members :: rest =>
    let radius := nextRadius p step radius members
    onRing radius members ++ outward p step radius rest

/-- All centres; a root that is alone on the first ring stands in the middle. -/
def centers (p : Placement α) : List (Nat × Point α) :=
  let diagonals := (List.range p.count).map (diagonal p)
  let step := diagonals.foldl Scalar.greatest 0 + p.layerSpacing
  match rings (SpanningForest.ofEdges p.count p.edges) with
  | [middle] :: outer => (middle, Point.origin) :: outward p step 0 outer
  | all => outward p step 0 all

def place (p : Placement α) : List (Point α) :=
  let found := centers p
  let ordered := (List.range p.count).map fun i => (found.lookup i).getD Point.origin
  Placement.normalize (Placement.cornersOf ordered p.sizes)

end DiagramPress.RadialPlacement
