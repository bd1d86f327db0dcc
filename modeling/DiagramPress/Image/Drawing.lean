-- The image of a model: groups, then nodes, then edges, each as an element of
-- its own with its label.
import DiagramPress.Image.Canvas
import DiagramPress.Image.Label
import DiagramPress.Markup.Element

namespace DiagramPress.Image

open Markup (Attribute Element)

/-! ## Figures -/

/-- The outline of a node. -/
inductive Figure where
  | diamond
  | ellipse
  | cylinder
  | box
deriving DecidableEq, Repr

/-- The figure that a style asks for. -/
def Figure.ofStyle (style : Style) : Figure :=
  let shape := (style.get? "shape").getD ""
  if style.hasFlag "rhombus" || shape = "rhombus" then .diamond
  else if style.hasFlag "ellipse" || shape = "ellipse" || shape = "cloud" then .ellipse
  else if "cylinder".toList.isPrefixOf shape.toList then .cylinder
  else .box

/-! ## Attributes -/

/-- A setting of the style as an attribute. -/
def styled (name : String) (style : Style) (key default : String) : Attribute :=
  ⟨name, (style.get? key).getD default⟩

/-- The colors and the line of a node. -/
def paint (style : Style) : List Attribute :=
  [styled "fill" style "fillColor" "#dae8fc", styled "stroke" style "strokeColor" "#6c8ebf",
    styled "stroke-width" style "strokeWidth" "1"]

def dashes (style : Style) (pattern : String) : List Attribute :=
  if style.isEnabled "dashed" then [⟨"stroke-dasharray", pattern⟩] else []

variable {α : Type} [Scalar α] [NumberText α]

/-- A coordinate with two places. -/
def places (v : α) : String := NumberText.fixed 2 v

def cornerAttributes (p : Point α) : List Attribute := [⟨"x", places p.x⟩, ⟨"y", places p.y⟩]

def boxAttributes (b : Bounds α) : List Attribute :=
  cornerAttributes b.corner ++ [⟨"width", places b.width⟩, ⟨"height", places b.height⟩]

/-- A pair of coordinates inside a list of points. -/
def pair (x y : α) : String := places x ++ "," ++ places y

def ellipse (center : Point α) (rx ry : α) (style : Style) : Element :=
  .lone "ellipse" ([⟨"cx", places center.x⟩, ⟨"cy", places center.y⟩, ⟨"rx", places rx⟩,
    ⟨"ry", places ry⟩] ++ paint style)

/-! ## Labels -/

/-- The lines of a label; all but the first step down from the one before. -/
def labelSpans (layout : LabelLayout α) : List Element :=
  layout.lines.zipIdx.map fun (line, index) =>
    .span "tspan"
      [⟨"x", places layout.x⟩, ⟨"dy", places (if index = 0 then 0 else layout.lineHeight)⟩]
      [.text line]

def labelAttributes (style : LabelStyle α) (layout : LabelLayout α) : List Attribute :=
  cornerAttributes ⟨layout.x, layout.y⟩ ++
    [⟨"text-anchor", style.align.anchor⟩, ⟨"font-family", style.fontFamily⟩,
      ⟨"font-size", NumberText.plain style.fontSize⟩] ++
    (if style.bold then [⟨"font-weight", "bold"⟩] else []) ++
    (if style.italic then [⟨"font-style", "italic"⟩] else []) ++ [⟨"fill", style.fontColor⟩]

/-- The label of a node, unless it is blank. -/
def labelElements (label : String) (cell : Bounds α) (style : Style)
    (settings : RenderSettings α) : List Element :=
  let labelStyle : LabelStyle α := LabelStyle.ofStyle style settings.fontFamily
  match labelStyle.layout? (Markup.unescape label) cell with
  | some layout => [.span "text" (labelAttributes labelStyle layout) (labelSpans layout)]
  | none => []

/-! ## Groups, nodes and edges -/

def groupElement (canvas : Canvas α) (settings : RenderSettings α) (group : Model.Group α) :
    Element :=
  let b := canvas.place (groupBox group)
  let label := Markup.unescape group.label
  let rect : Element :=
    .lone "rect" (boxAttributes b ++
      [styled "fill" group.style "fillColor" "#f5f5f5",
        styled "stroke" group.style "strokeColor" "#999999", ⟨"stroke-width", "1"⟩, ⟨"rx", "6"⟩] ++
      dashes group.style "8,4")
  let text : Element :=
    .span "text" (cornerAttributes ⟨b.x + 10, b.y + 18⟩ ++
      [⟨"font-family", settings.fontFamily⟩,
        ⟨"font-size", NumberText.plain ((group.style.number? "fontSize").getD (13 : α))⟩,
        ⟨"font-weight", "bold"⟩, styled "fill" group.style "fontColor" "#333"])
      [.text label]
  .block "g" [] (rect :: if (Text.trim label.toList).isEmpty then [] else [text])

def figureElements (figure : Figure) (b : Bounds α) (style : Style) (cap : α) : List Element :=
  let c := b.center
  match figure with
  | .diamond =>
    let corners := [pair c.x b.y, pair b.right c.y, pair c.x b.bottom, pair b.x c.y]
    [.lone "polygon" (⟨"points", String.intercalate " " corners⟩ :: paint style)]
  | .ellipse => [ellipse c (b.width / 2) (b.height / 2) style]
  | .cylinder =>
    let rx := b.width / 2
    let arc := "A" ++ pair rx cap ++ " 0 0,1 "
    let outline :=
      "M" ++ pair b.x (b.y + cap) ++ " " ++ arc ++ pair b.right (b.y + cap) ++ " V" ++
        places (b.bottom - cap) ++ " " ++ arc ++ pair b.x (b.bottom - cap) ++ " Z"
    [.lone "path" (⟨"d", outline⟩ :: paint style), ellipse ⟨c.x, b.y + cap⟩ rx cap style]
  | .box =>
    let corner := if style.isEnabled "rounded" then "6" else "0"
    [.lone "rect" (boxAttributes b ++ paint style ++ ⟨"rx", corner⟩ :: dashes style "6,3")]

def nodeElement (canvas : Canvas α) (settings : RenderSettings α) (node : Model.Node α) :
    Element :=
  let b := canvas.place (nodeBox node)
  .block "g" [] (figureElements (Figure.ofStyle node.style) b node.style settings.cylinderCap ++
    labelElements node.label b node.style settings)

/-- An edge whose ends are placed. -/
def edgeElement? (canvas : Canvas α) (settings : RenderSettings α) (m : Model α)
    (edge : Model.Edge) : Option Element :=
  (canvas.line? m edge).map fun (s, t) =>
    let label := Markup.unescape edge.label
    let line : Element :=
      .lone "line" [⟨"x1", places s.x⟩, ⟨"y1", places s.y⟩, ⟨"x2", places t.x⟩, ⟨"y2", places t.y⟩,
        styled "stroke" edge.style "strokeColor" "#666",
        styled "stroke-width" edge.style "strokeWidth" "1", ⟨"marker-end", "url(#arrowhead)"⟩]
    let text : Element :=
      .span "text" (cornerAttributes ⟨(s.x + t.x) / 2, (s.y + t.y) / 2 - 5⟩ ++
        [⟨"text-anchor", "middle"⟩, ⟨"font-family", settings.fontFamily⟩,
          ⟨"font-size", NumberText.plain ((edge.style.number? "fontSize").getD (11 : α))⟩,
          styled "fill" edge.style "fontColor" "#333"])
        [.text label]
    .block "g" [] (line :: if label.isEmpty then [] else [text])

/-! ## The image -/

/-- The head of the arrows, which edges refer to. -/
def arrowhead (color : String) : Element :=
  .span "marker" [⟨"id", "arrowhead"⟩, ⟨"markerWidth", "10"⟩, ⟨"markerHeight", "7"⟩,
      ⟨"refX", "10"⟩, ⟨"refY", "3.5"⟩, ⟨"orient", "auto"⟩]
    [.lone "polygon" [⟨"points", "0 0, 10 3.5, 0 7"⟩, ⟨"fill", color⟩]]

def background (color : String) : Element :=
  .lone "rect" [⟨"width", "100%"⟩, ⟨"height", "100%"⟩, ⟨"fill", color⟩]

/-- The size of the image in whole units. -/
def rootAttributes (size : Size α) : List Attribute :=
  let width := NumberText.plain (Scalar.ceil size.width)
  let height := NumberText.plain (Scalar.ceil size.height)
  [⟨"xmlns", "http://www.w3.org/2000/svg"⟩, ⟨"xmlns:xlink", "http://www.w3.org/1999/xlink"⟩,
    ⟨"version", "1.1"⟩, ⟨"width", width ++ "px"⟩, ⟨"height", height ++ "px"⟩,
    ⟨"viewBox", "0 0 " ++ width ++ " " ++ height⟩]

/-- What an image shows, in the order in which it is painted. -/
def painted (canvas : Canvas α) (settings : RenderSettings α) (m : Model α) : List Element :=
  m.groups.map (groupElement canvas settings) ++ m.nodes.map (nodeElement canvas settings) ++
    m.edges.filterMap (edgeElement? canvas settings m)

def root (m : Model α) (settings : RenderSettings α) : Element :=
  let canvas := Canvas.ofModel m settings
  .block "svg" (rootAttributes canvas.size)
    (.block "defs" [] [arrowhead settings.arrowColor] :: background m.background ::
      painted canvas settings m)

/-- What stands in front of the image. -/
def prolog : String :=
  "<?xml version=\"1.0\" encoding=\"UTF-8\"?>\n" ++
    "<!DOCTYPE svg PUBLIC \"-//W3C//DTD SVG 1.1//EN\" " ++
    "\"http://www.w3.org/Graphics/SVG/1.1/DTD/svg11.dtd\">\n"

/-- The text of the image of a model. -/
def draw (m : Model α) (settings : RenderSettings α) : String :=
  prolog ++ String.ofList ((root m settings).lines 0 ++ ['\n'])

end DiagramPress.Image
