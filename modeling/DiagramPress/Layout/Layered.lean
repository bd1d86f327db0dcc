-- Layered placement: connections lead from layer to layer along the flow.
import DiagramPress.Layout.Layered.Columns
import DiagramPress.Layout.Placement

namespace DiagramPress.Layered

variable {α : Type} [Scalar α]

/-! ## Along the flow -/

/-- The number without the digits after its point. -/
def truncate (x : α) : α :=
  if x < 0 then -Scalar.ofNat (Scalar.wholePart (-x)) else Scalar.ofNat (Scalar.wholePart x)

/-- The centres of the layers, given the heights in each. -/
def layerCenters (gap : α) : α → List (List α) → List α
  | _, [] => []
  | top, heights :: rest =>
    let height : α :=
      match heights.map truncate with
      | [] => 0
      | h :: more => more.foldl Scalar.greatest h
    (top + height / 2) :: layerCenters gap (top + (height + gap / 2)) rest

/-! ## Points -/

/-- The size of a child as the layers see it: along the flow is downwards. -/
def turned (flow : Flow) (s : Size α) : Size α :=
  if flow.isVertical then s else ⟨s.height, s.width⟩

/-- The centre of a child on the page. -/
def centerOf (flow : Flow) (x y : α) : Point α :=
  match flow with
  | .down => ⟨x, y⟩
  | .up => ⟨x, -y⟩
  | .right => ⟨y, x⟩
  | .left => ⟨-y, x⟩

/-- The gap around the steps of long edges. -/
def stepGap : α := 20

/-- The centres of the children. -/
def centers (p : Placement α) : List (Point α) :=
  let order := Acyclic.order p.count p.edges
  let edges := Acyclic.edges p.count p.edges
  let network := Network.ofEdges (ranks p.count order edges) edges
  let rows := layers network
  let sizes := (p.sizes.map (turned p.flow)).toArray
  let sizeOf (v : Nat) : Size α := sizes.getD v ⟨0, 0⟩
  let widths : Widths α :=
    ⟨fun v => (sizeOf v).width, fun v => if network.isStep v then stepGap else p.nodeSpacing⟩
  let xs := (places network widths rows).toArray
  let ys := (layerCenters p.layerSpacing 0
    (rows.map fun row => row.map fun v => (sizeOf v).height)).toArray
  (List.range p.count).map fun v =>
    centerOf p.flow (xs.getD v 0) (ys.getD (network.rank v) 0)

/-- Moves centres so that the boxes around them start at zero. -/
def fromZero (centers : List (Point α)) (sizes : List (Size α)) : List (Point α) :=
  let corners := Placement.cornersOf centers sizes
  match Scalar.least? (corners.map (·.x)), Scalar.least? (corners.map (·.y)) with
  | some x, some y => centers.map fun c => ⟨c.x - x, c.y - y⟩
  | _, _ => centers

def place (p : Placement α) : List (Point α) :=
  Placement.normalize (Placement.cornersOf (fromZero (centers p) p.sizes) p.sizes)

end DiagramPress.Layered
