-- The document of a diagram: nested elements, each on a line of its own, with
-- the cells of the model in a flat list that refers to parents by their ids.
import DiagramPress.Markup.Element
import DiagramPress.Model

namespace DiagramPress.Markup

/-! ## Cells -/

/-- A cell of the diagram as the document holds it. The box of a vertex is
relative to the parent. -/
inductive Cell (α : Type) where
  | vertex (id : Nat) (value style : String) (parent : Nat) (box : Bounds α)
  | edge (id : Nat) (value style : String) (source target : Nat)

variable {α : Type} [Scalar α]

/-- A point as seen from another one, if there is another one. -/
def relativeTo? (p : Point α) : Option (Point α) → Point α
  | some base => p.relativeTo base
  | none => p

/-- The box of a group; one that is not placed has a default. -/
def groupBox (m : Model α) (group : Model.Group α) : Bounds α :=
  match group.position, group.size with
  | some p, some s =>
    let base := (group.parent.bind m.group?).bind (·.position)
    Bounds.ofCorner (relativeTo? p base) s
  | _, _ => Bounds.ofCorner Point.origin Model.unplacedGroupSize

def groupCell (m : Model α) (group : Model.Group α) : Cell α :=
  .vertex group.cell group.label group.style.text group.parentCell (groupBox m group)

def nodeBox (m : Model α) (node : Model.Node α) : Bounds α :=
  let corner :=
    match node.position with
    | some p => relativeTo? p ((node.group.bind m.group?).bind (·.position))
    | none => Point.origin
  Bounds.ofCorner corner node.size

/-- The cell of the group around a node, else the layer. -/
def nodeParent (m : Model α) (node : Model.Node α) : Nat :=
  ((node.group.bind m.group?).map (·.cell)).getD Model.layerCell

def nodeCell (m : Model α) (node : Model.Node α) : Cell α :=
  .vertex node.cell node.label node.style.text (nodeParent m node) (nodeBox m node)

def edgeCell (edge : Model.Edge) : Cell α :=
  .edge edge.cell edge.label edge.style.text edge.sourceCell edge.targetCell

/-- The cells of a model: groups, then nodes, then edges. -/
def cellsOf (m : Model α) : List (Cell α) :=
  m.groups.map (groupCell m) ++ m.nodes.map (nodeCell m) ++ m.edges.map edgeCell

/-! ## Elements of cells -/

/-- A coordinate to two places. -/
def hundredths (v : α) : α := Scalar.round (v * 100) / 100

variable [NumberText α]

def coordinate (v : α) : String := NumberText.brief (hundredths v)

/-- A cell with its geometry inside. -/
def cellElement (attributes geometry : List Attribute) : Element :=
  .block "mxCell" attributes [.lone "mxGeometry" geometry]

def vertexAttributes (id : Nat) (value style : String) (parent : Nat) : List Attribute :=
  [⟨"id", toString id⟩, ⟨"value", value⟩, ⟨"style", style⟩, ⟨"vertex", "1"⟩,
    ⟨"parent", toString parent⟩]

def boxAttributes (box : Bounds α) : List Attribute :=
  [⟨"x", coordinate box.x⟩, ⟨"y", coordinate box.y⟩, ⟨"width", coordinate box.width⟩,
    ⟨"height", coordinate box.height⟩, ⟨"as", "geometry"⟩]

/-- An edge without a label has no value. -/
def edgeAttributes (id : Nat) (value style : String) (source target : Nat) : List Attribute :=
  ⟨"id", toString id⟩ :: (if value.isEmpty then [] else [⟨"value", value⟩]) ++
    [⟨"style", style⟩, ⟨"edge", "1"⟩, ⟨"source", toString source⟩, ⟨"target", toString target⟩,
      ⟨"parent", toString Model.layerCell⟩]

def Cell.element : Cell α → Element
  | vertex id value style parent box =>
    cellElement (vertexAttributes id value style parent) (boxAttributes box)
  | edge id value style source target =>
    cellElement (edgeAttributes id value style source target)
      [⟨"relative", "1"⟩, ⟨"as", "geometry"⟩]

/-! ## The document -/

/-- The two cells that every document starts with. -/
def foundation : List Element :=
  [.lone "mxCell" [⟨"id", toString Model.rootCell⟩],
    .lone "mxCell" [⟨"id", toString Model.layerCell⟩, ⟨"parent", toString Model.rootCell⟩]]

/-- The page and the view on it. -/
def pageAttributes (background : String) : List Attribute :=
  [⟨"dx", "1422"⟩, ⟨"dy", "794"⟩, ⟨"grid", "1"⟩, ⟨"gridSize", "10"⟩, ⟨"guides", "1"⟩,
    ⟨"tooltips", "1"⟩, ⟨"connect", "1"⟩, ⟨"arrows", "1"⟩, ⟨"fold", "1"⟩, ⟨"page", "1"⟩,
    ⟨"pageScale", "1"⟩, ⟨"pageWidth", "1100"⟩, ⟨"pageHeight", "850"⟩, ⟨"math", "0"⟩,
    ⟨"shadow", "0"⟩, ⟨"background", background⟩]

/-- The name that the document gives for the program that wrote it. -/
def host : String := "drawr"

/-- The document of a model, which says when it was modified. -/
def document (m : Model α) (modified : String) : Element :=
  .block "mxfile" [⟨"host", host⟩, ⟨"modified", modified⟩, ⟨"type", "device"⟩]
    [.block "diagram" [⟨"name", m.title⟩, ⟨"id", "diagram-1"⟩]
      [.block "mxGraphModel" (pageAttributes m.background)
        [.block "root" [] (foundation ++ (cellsOf m).map Cell.element)]]]

/-- The text of the document. -/
def encode (m : Model α) (modified : String) : String :=
  String.ofList ((document m modified).lines 0)

end DiagramPress.Markup
