-- The description of a diagram, as its author wrote it: what there is, how it
-- hangs together, and what may be said about its look and its layout.
import DiagramPress.Geometry

namespace DiagramPress

/-! ## Words of the description -/

inductive ThemeName where
  | professional
  | colorful
  | monochrome
  | blueprint
  | pastel
deriving DecidableEq, Repr, Inhabited

namespace ThemeName

def all : List ThemeName := [professional, colorful, monochrome, blueprint, pastel]

def word : ThemeName → String
  | professional => "professional"
  | colorful => "colorful"
  | monochrome => "monochrome"
  | blueprint => "blueprint"
  | pastel => "pastel"

end ThemeName

/-- How the free cells are placed. -/
inductive Algorithm where
  | hierarchical
  | force
  | tree
  | radial
  | box
  | none
deriving DecidableEq, Repr, Inhabited

namespace Algorithm

def all : List Algorithm := [hierarchical, force, tree, radial, box, none]

def word : Algorithm → String
  | hierarchical => "hierarchical"
  | force => "force"
  | tree => "tree"
  | radial => "radial"
  | box => "box"
  | none => "none"

end Algorithm

/-- Where the edges of the diagram lead. -/
inductive Direction where
  | topBottom
  | bottomTop
  | leftRight
  | rightLeft
deriving DecidableEq, Repr, Inhabited

namespace Direction

def all : List Direction := [topBottom, bottomTop, leftRight, rightLeft]

def word : Direction → String
  | topBottom => "TB"
  | bottomTop => "BT"
  | leftRight => "LR"
  | rightLeft => "RL"

end Direction

inductive Routing where
  | straight
  | orthogonal
deriving DecidableEq, Repr

namespace Routing

def all : List Routing := [straight, orthogonal]

def word : Routing → String
  | straight => "straight"
  | orthogonal => "orthogonal"

end Routing

/-! ## The parts of a description -/

variable (α : Type)

/-- The distances that the layout keeps. -/
structure Spacing where
  node : α
  layer : α

structure LayoutChoice where
  algorithm : Algorithm
  direction : Direction
  spacing : Spacing α

/-- What an author may say about the look of one cell. -/
structure StyleOverride where
  fillColor : Option String
  strokeColor : Option String
  fontColor : Option String
  fontSize : Option α
  fontFamily : Option String
  rounded : Option Bool
  dashed : Option Bool
  shadow : Option Bool
  opacity : Option α
  strokeWidth : Option α

namespace Description

structure Node where
  id : String
  label : String
  type : String
  group : Option String
  style : Option (StyleOverride α)
  position : Option (Point α)
  size : Option (Size α)

structure Edge where
  source : String
  target : String
  label : Option String
  style : Option (StyleOverride α)
  routing : Routing

structure Group where
  id : String
  label : String
  parent : Option String
  style : Option (StyleOverride α)

end Description

structure Description where
  title : String
  theme : ThemeName
  layout : LayoutChoice α
  nodes : List (Description.Node α)
  edges : List (Description.Edge α)
  groups : List (Description.Group α)

/-! ## What holds when nothing is said -/

variable {α}

namespace Spacing

def defaultNode [Scalar α] : α := 50

def defaultLayer [Scalar α] : α := 80

def default [Scalar α] : Spacing α := ⟨defaultNode, defaultLayer⟩

end Spacing

def LayoutChoice.default [Scalar α] : LayoutChoice α :=
  ⟨.hierarchical, .topBottom, Spacing.default⟩

/-- Nothing said about the look. -/
def StyleOverride.blank : StyleOverride α :=
  ⟨none, none, none, none, none, none, none, none, none, none⟩

namespace Description

def defaultTitle : String := "Untitled Diagram"

def defaultType : String := "flowchart.process"

end Description

end DiagramPress
