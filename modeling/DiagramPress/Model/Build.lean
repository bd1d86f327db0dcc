-- From a description to a model: cells get their ids, labels are escaped, and
-- the layers of style are laid over each other.
import DiagramPress.Catalog.Shapes
import DiagramPress.Catalog.Themes
import DiagramPress.Markup.Escape
import DiagramPress.Model
import DiagramPress.Settings

namespace DiagramPress

/-- The tables that a model is built with. -/
structure Tables (α : Type) where
  shapes : ShapeCatalog
  themes : ThemeSet α

/-- Something that was made good while the model was built. -/
inductive Diagnostic where
  | unknownShape (node type : String) (suggestion : Option String)
  | unresolvedEdge (source target : String)
deriving DecidableEq, Repr

def Diagnostic.text : Diagnostic → String
  | unknownShape node type suggestion =>
    "node \"" ++ node ++ "\": unknown shape type \"" ++ type ++ "\"." ++
      (match suggestion with
        | some name => " Did you mean \"" ++ name ++ "\"?"
        | none => "") ++
      " Using default."
  | unresolvedEdge source target =>
    "edge " ++ source ++ " -> " ++ target ++ ": endpoint not found, edge dropped"

variable {α : Type} [Scalar α] [NumberText α]

def Tables.builtin : Tables α := ⟨ShapeCatalog.builtin, ThemeSet.builtin⟩

/-! ## Styles -/

namespace Style

/-- Sets a key if there is a value for it. -/
def setIf (style : Style) (key : String) : Option String → Style
  | some value => style.set key value
  | none => style

def setBoolIf (style : Style) (key : String) : Option Bool → Style
  | some value => style.setBool key value
  | none => style

end Style

namespace Build

/-- The box that stands for an unknown shape. -/
def defaultShapeStyle : String := "rounded=1;whiteSpace=wrap;html=1;"

/-- A type that holds a mark of style texts is itself a style text. -/
def isStyleText (type : String) : Bool := type.toList.any fun c => c = '=' || c = ';'

/-- The style a node starts from, and what is to be said about its type. -/
def baseStyle (node : Description.Node α) (shapes : ShapeCatalog) : Style × Option Diagnostic :=
  match shapes.resolve? node.type with
  | some base => (Style.parse base, none)
  | none =>
    if isStyleText node.type then (Style.parse node.type, none)
    else
      (Style.parse defaultShapeStyle,
        some (.unknownShape node.id node.type (shapes.suggest? node.type)))

/-- The style of a node: its shape, then the theme, then its own wishes. -/
def nodeStyle (base : Style) (paint : NodePaint α) (wish : StyleOverride α) : Style :=
  let style := base.set "fillColor" (wish.fillColor.getD paint.fillColor)
  let style := style.set "strokeColor" (wish.strokeColor.getD paint.strokeColor)
  let style := style.set "fontColor" (wish.fontColor.getD paint.fontColor)
  let style := style.set "fontSize" (NumberText.brief (wish.fontSize.getD paint.fontSize))
  let style := style.set "fontFamily" (wish.fontFamily.getD paint.fontFamily)
  let style := style.setBoolIf "rounded" wish.rounded
  let style := style.setBoolIf "shadow"
    (if wish.shadow.isSome || paint.shadow then some (wish.shadow.getD paint.shadow) else none)
  let style := style.setBoolIf "dashed" wish.dashed
  let style := style.setIf "opacity" (wish.opacity.map NumberText.brief)
  style.setIf "strokeWidth" (wish.strokeWidth.map NumberText.brief)

def edgeStyle (routing : Routing) (paint : EdgePaint α) (wish : StyleOverride α) : Style :=
  let style :=
    if routing = .orthogonal then
      (Style.empty.set "edgeStyle" "orthogonalEdgeStyle").set "rounded" "1"
    else Style.empty
  let style := style.set "html" "1"
  let style := style.set "strokeColor" (wish.strokeColor.getD paint.strokeColor)
  let style := style.set "strokeWidth" (NumberText.brief (wish.strokeWidth.getD paint.strokeWidth))
  let style := style.set "fontColor" (wish.fontColor.getD paint.fontColor)
  let style := style.set "fontSize" (NumberText.brief (wish.fontSize.getD paint.fontSize))
  style.setBoolIf "dashed" wish.dashed

def groupStyle (paint : GroupPaint α) (wish : StyleOverride α) : Style :=
  let style := Style.parse "rounded=1;whiteSpace=wrap;html=1;container=1;collapsible=0;"
  let style := style.set "fillColor" (wish.fillColor.getD paint.fillColor)
  let style := style.set "strokeColor" (wish.strokeColor.getD paint.strokeColor)
  let style := style.set "fontColor" (wish.fontColor.getD paint.fontColor)
  let style := style.set "fontSize" (NumberText.brief (wish.fontSize.getD paint.fontSize))
  let style := style.setBool "dashed" (wish.dashed.getD paint.dashed)
  let style := style.set "verticalAlign" "top"
  let style := style.set "fontStyle" "1"
  style.setIf "opacity" (wish.opacity.map NumberText.brief)

/-! ## Cells -/

/-- The cell of the last entry with that id, if the first one has cell `first`. -/
def cellOf? (first : Nat) (ids : List String) (id : String) : Option Nat :=
  ((ids.zipIdx first).reverse.find? fun (name, _) => name = id).map (·.2)

def buildGroup (paint : GroupPaint α) (ids : List String) (group : Description.Group α) :
    Model.Group α :=
  let cellOf := cellOf? Model.firstCell ids
  { id := group.id
    cell := (cellOf group.id).getD Model.layerCell
    label := Markup.escape group.label
    parent := group.parent
    parentCell := (group.parent.bind cellOf).getD Model.layerCell
    style := groupStyle paint (group.style.getD .blank)
    position := none
    size := none }

def buildNode (tables : Tables α) (paint : NodePaint α) (size : Size α)
    (node : Description.Node α) (cell : Nat) : Model.Node α :=
  { id := node.id
    cell := cell
    label := Markup.escape node.label
    style := nodeStyle (baseStyle node tables.shapes).1 paint (node.style.getD .blank)
    group := node.group
    position := node.position
    size := node.size.getD size }

/-- An edge without its cell, or what is to be said about it. -/
def buildEdge (paint : EdgePaint α) (cellOf : String → Option Nat) (edge : Description.Edge α) :
    Except Diagnostic Model.Edge :=
  match cellOf edge.source, cellOf edge.target with
  | some sourceCell, some targetCell =>
    .ok
      { cell := 0
        source := edge.source
        target := edge.target
        sourceCell := sourceCell
        targetCell := targetCell
        label := Markup.escape (edge.label.getD "")
        style := edgeStyle edge.routing paint (edge.style.getD .blank) }
  | _, _ => .error (.unresolvedEdge edge.source edge.target)

end Build

open Build

/-- Builds the model of a description. Groups, then nodes, then edges have
consecutive cells; what the tables do not know is made good and reported. -/
def Description.build (d : Description α) (tables : Tables α) (settings : ModelSettings α) :
    Model α × List Diagnostic :=
  let theme := tables.themes.get d.theme
  let groupIds := d.groups.map (·.id)
  let nodeIds := d.nodes.map (·.id)
  let firstNode := Model.firstCell + d.groups.length
  let firstEdge := firstNode + d.nodes.length
  let cellOf (id : String) : Option Nat :=
    (cellOf? firstNode nodeIds id).or (cellOf? Model.firstCell groupIds id)
  let edges := d.edges.map (buildEdge theme.edge cellOf)
  let kept := edges.filterMap fun
    | .ok edge => some edge
    | .error _ => none
  let dropped := edges.filterMap fun
    | .ok _ => none
    | .error diagnostic => some diagnostic
  let model : Model α :=
    { title := d.title
      background := theme.background
      groups := d.groups.map (buildGroup theme.group groupIds)
      nodes := (d.nodes.zipIdx firstNode).map fun (node, cell) =>
        buildNode tables theme.node settings.nodeSize node cell
      edges := (kept.zipIdx firstEdge).map fun (edge, cell) => { edge with cell := cell } }
  (model, (d.nodes.filterMap fun node => (baseStyle node tables.shapes).2) ++ dropped)

end DiagramPress
