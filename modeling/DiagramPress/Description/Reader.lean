-- Reading a description from its text. Each record is read into a draft, in
-- which every field may still be missing, and then completed with defaults.
import DiagramPress.Data.Decoder
import DiagramPress.Description

namespace DiagramPress

open Data

/-! ## Drafts -/

structure Spacing.Draft where
  node : Option Float32 := none
  layer : Option Float32 := none

structure LayoutChoice.Draft where
  algorithm : Option Algorithm := none
  direction : Option Direction := none
  spacing : Option (Spacing Float32) := none

structure StyleOverride.Draft where
  fillColor : Option (Option String) := none
  strokeColor : Option (Option String) := none
  fontColor : Option (Option String) := none
  fontSize : Option (Option Float32) := none
  fontFamily : Option (Option String) := none
  rounded : Option (Option Bool) := none
  dashed : Option (Option Bool) := none
  shadow : Option (Option Bool) := none
  opacity : Option (Option Float32) := none
  strokeWidth : Option (Option Float32) := none

structure Point.Draft where
  x : Option Float32 := none
  y : Option Float32 := none

structure Size.Draft where
  width : Option Float32 := none
  height : Option Float32 := none

namespace Description

structure NodeDraft where
  id : Option String := none
  label : Option String := none
  type : Option String := none
  group : Option (Option String) := none
  style : Option (Option (StyleOverride Float32)) := none
  position : Option (Option (Point Float32)) := none
  size : Option (Option (Size Float32)) := none

structure EdgeDraft where
  source : Option String := none
  target : Option String := none
  label : Option (Option String) := none
  style : Option (Option (StyleOverride Float32)) := none
  routing : Option Routing := none

structure GroupDraft where
  id : Option String := none
  label : Option String := none
  parent : Option (Option String) := none
  style : Option (Option (StyleOverride Float32)) := none

structure Draft where
  title : Option String := none
  theme : Option ThemeName := none
  layout : Option (LayoutChoice Float32) := none
  nodes : Option (List (Description.Node Float32)) := none
  edges : Option (List (Description.Edge Float32)) := none
  groups : Option (List (Description.Group Float32)) := none

end Description

/-! ## Small records -/

/-- The format of descriptions. -/
def Description.format : Format := .json5

namespace Description

def readString : Value → Except DecodeError String := format.string

def readFlag : Value → Except DecodeError Bool := format.boolean

def readNumber : Value → Except DecodeError Float32 := format.single

end Description

open Description (format readString readFlag readNumber)

def Spacing.fields : List (FieldReader Spacing.Draft) :=
  [.of "node" true (·.node) (fun d v => { d with node := some v }) readNumber,
    .of "layer" true (·.layer) (fun d v => { d with layer := some v }) readNumber]

def Spacing.read (t : Value) : Except DecodeError (Spacing Float32) :=
  (format.record "Spacing" fields {} t).map fun d =>
    ⟨d.node.getD defaultNode, d.layer.getD defaultLayer⟩

def LayoutChoice.fields : List (FieldReader LayoutChoice.Draft) :=
  [.of "algorithm" true (·.algorithm) (fun d v => { d with algorithm := some v })
      (Format.word Algorithm.word Algorithm.all),
    .of "direction" true (·.direction) (fun d v => { d with direction := some v })
      (Format.word Direction.word Direction.all),
    .of "spacing" true (·.spacing) (fun d v => { d with spacing := some v }) Spacing.read]

def LayoutChoice.read (t : Value) : Except DecodeError (LayoutChoice Float32) :=
  (format.record "LayoutSpec" fields {} t).map fun d =>
    ⟨d.algorithm.getD .hierarchical, d.direction.getD .topBottom,
      d.spacing.getD Spacing.default⟩

def StyleOverride.fields : List (FieldReader StyleOverride.Draft) :=
  [.of "fillColor" true (·.fillColor) (fun d v => { d with fillColor := some v })
      (Format.option readString),
    .of "strokeColor" true (·.strokeColor) (fun d v => { d with strokeColor := some v })
      (Format.option readString),
    .of "fontColor" true (·.fontColor) (fun d v => { d with fontColor := some v })
      (Format.option readString),
    .of "fontSize" true (·.fontSize) (fun d v => { d with fontSize := some v })
      (Format.option readNumber),
    .of "fontFamily" true (·.fontFamily) (fun d v => { d with fontFamily := some v })
      (Format.option readString),
    .of "rounded" true (·.rounded) (fun d v => { d with rounded := some v })
      (Format.option readFlag),
    .of "dashed" true (·.dashed) (fun d v => { d with dashed := some v })
      (Format.option readFlag),
    .of "shadow" true (·.shadow) (fun d v => { d with shadow := some v })
      (Format.option readFlag),
    .of "opacity" true (·.opacity) (fun d v => { d with opacity := some v })
      (Format.option readNumber),
    .of "strokeWidth" true (·.strokeWidth) (fun d v => { d with strokeWidth := some v })
      (Format.option readNumber)]

def StyleOverride.read (t : Value) : Except DecodeError (StyleOverride Float32) :=
  (format.record "StyleOverride" fields {} t).map fun d =>
    ⟨d.fillColor.join, d.strokeColor.join, d.fontColor.join, d.fontSize.join, d.fontFamily.join,
      d.rounded.join, d.dashed.join, d.shadow.join, d.opacity.join, d.strokeWidth.join⟩

def Point.fields : List (FieldReader Point.Draft) :=
  [.of "x" false (·.x) (fun d v => { d with x := some v }) readNumber,
    .of "y" false (·.y) (fun d v => { d with y := some v }) readNumber]

def Point.read (t : Value) : Except DecodeError (Point Float32) := do
  let d ← format.record "PositionSpec" fields {} t
  return ⟨← required "x" d.x, ← required "y" d.y⟩

def Size.fields : List (FieldReader Size.Draft) :=
  [.of "width" false (·.width) (fun d v => { d with width := some v }) readNumber,
    .of "height" false (·.height) (fun d v => { d with height := some v }) readNumber]

def Size.read (t : Value) : Except DecodeError (Size Float32) := do
  let d ← format.record "SizeSpec" fields {} t
  return ⟨← required "width" d.width, ← required "height" d.height⟩

/-! ## Nodes, edges and groups -/

namespace Description

def nodeFields : List (FieldReader NodeDraft) :=
  [.of "id" false (·.id) (fun d v => { d with id := some v }) readString,
    .of "label" true (·.label) (fun d v => { d with label := some v }) readString,
    .of "type" true (·.type) (fun d v => { d with type := some v }) readString,
    .of "group" true (·.group) (fun d v => { d with group := some v })
      (Format.option readString),
    .of "style" true (·.style) (fun d v => { d with style := some v })
      (Format.option StyleOverride.read),
    .of "position" true (·.position) (fun d v => { d with position := some v })
      (Format.option Point.read),
    .of "size" true (·.size) (fun d v => { d with size := some v }) (Format.option Size.read)]

def readNode (t : Value) : Except DecodeError (Description.Node Float32) := do
  let d ← format.record "NodeSpec" nodeFields {} t
  return { id := ← required "id" d.id, label := d.label.getD "", type := d.type.getD defaultType,
           group := d.group.join, style := d.style.join, position := d.position.join,
           size := d.size.join }

def edgeFields : List (FieldReader EdgeDraft) :=
  [.of "from" false (·.source) (fun d v => { d with source := some v }) readString,
    .of "to" false (·.target) (fun d v => { d with target := some v }) readString,
    .of "label" true (·.label) (fun d v => { d with label := some v })
      (Format.option readString),
    .of "style" true (·.style) (fun d v => { d with style := some v })
      (Format.option StyleOverride.read),
    .of "routing" true (·.routing) (fun d v => { d with routing := some v })
      (Format.word Routing.word Routing.all)]

def readEdge (t : Value) : Except DecodeError (Description.Edge Float32) := do
  let d ← format.record "EdgeSpec" edgeFields {} t
  return { source := ← required "from" d.source, target := ← required "to" d.target,
           label := d.label.join, style := d.style.join, routing := d.routing.getD .orthogonal }

def groupFields : List (FieldReader GroupDraft) :=
  [.of "id" false (·.id) (fun d v => { d with id := some v }) readString,
    .of "label" true (·.label) (fun d v => { d with label := some v }) readString,
    .of "parent" true (·.parent) (fun d v => { d with parent := some v })
      (Format.option readString),
    .of "style" true (·.style) (fun d v => { d with style := some v })
      (Format.option StyleOverride.read)]

def readGroup (t : Value) : Except DecodeError (Description.Group Float32) := do
  let d ← format.record "GroupSpec" groupFields {} t
  return { id := ← required "id" d.id, label := d.label.getD "", parent := d.parent.join,
           style := d.style.join }

/-! ## Whole descriptions -/

def fields : List (FieldReader Draft) :=
  [.of "title" true (·.title) (fun d v => { d with title := some v }) readString,
    .of "theme" true (·.theme) (fun d v => { d with theme := some v })
      (Format.word ThemeName.word ThemeName.all),
    .of "layout" true (·.layout) (fun d v => { d with layout := some v }) LayoutChoice.read,
    .of "nodes" false (·.nodes) (fun d v => { d with nodes := some v }) (format.list readNode),
    .of "edges" true (·.edges) (fun d v => { d with edges := some v }) (format.list readEdge),
    .of "groups" true (·.groups) (fun d v => { d with groups := some v })
      (format.list readGroup)]

def read (t : Value) : Except DecodeError (Description Float32) := do
  let d ← format.record "Diagram" fields {} t
  return { title := d.title.getD defaultTitle, theme := d.theme.getD .professional,
           layout := d.layout.getD LayoutChoice.default, nodes := ← required "nodes" d.nodes,
           edges := d.edges.getD [], groups := d.groups.getD [] }

/-- Reads a description from its text. -/
def decode (text : String) : Except DecodeError (Description Float32) :=
  match Json5.parse? text with
  | some t => read t
  | none => .error .grammar

end Description

end DiagramPress
