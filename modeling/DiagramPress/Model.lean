-- The model of a diagram: cells with their ids, labels, styles and, once they
-- are placed, their boxes. Positions are absolute.
import DiagramPress.Geometry
import DiagramPress.Style

namespace DiagramPress

/-! ## Cells -/

namespace Model

/-- The cell that every document starts with; it has no parent. -/
def rootCell : Nat := 0

/-- The layer that holds every cell outside all groups. -/
def layerCell : Nat := 1

/-- The first id for a cell of the diagram itself. -/
def firstCell : Nat := 2

variable (α : Type)

structure Node where
  id : String
  cell : Nat
  /-- The label, escaped for markup. -/
  label : String
  style : Style
  group : Option String
  position : Option (Point α)
  size : Size α

structure Edge where
  cell : Nat
  source : String
  target : String
  sourceCell : Nat
  targetCell : Nat
  /-- The label, escaped for markup. -/
  label : String
  style : Style

structure Group where
  id : String
  cell : Nat
  /-- The label, escaped for markup. -/
  label : String
  parent : Option String
  parentCell : Nat
  style : Style
  position : Option (Point α)
  size : Option (Size α)

end Model

structure Model (α : Type) where
  title : String
  background : String
  groups : List (Model.Group α)
  nodes : List (Model.Node α)
  edges : List Model.Edge

/-! ## Boxes -/

variable {α : Type} [Scalar α]

namespace Model

/-- The size written for a group that was never placed. -/
def unplacedGroupSize : Size α := ⟨200, 200⟩

def Node.bounds? (node : Model.Node α) : Option (Bounds α) :=
  node.position.map fun p => Bounds.ofCorner p node.size

def Group.bounds? (group : Model.Group α) : Option (Bounds α) :=
  match group.position, group.size with
  | some p, some s => some (Bounds.ofCorner p s)
  | _, _ => none

/-- The first node with that id. -/
def node? (m : Model α) (id : String) : Option (Model.Node α) := m.nodes.find? fun n => n.id = id

/-- The first group with that id. -/
def group? (m : Model α) (id : String) : Option (Model.Group α) :=
  m.groups.find? fun g => g.id = id

/-- The box of a node or a group, if there is one and it is placed. -/
def boundsOf? (m : Model α) (id : String) : Option (Bounds α) :=
  match m.node? id with
  | some node => node.bounds?
  | none => (m.group? id).bind Group.bounds?

end Model

end DiagramPress
