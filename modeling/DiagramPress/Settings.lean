-- The settings of the program, apart from the description: sizes and margins
-- that no description mentions.
import DiagramPress.Geometry

namespace DiagramPress

/-- Room inside a container, between its sides and what it holds. -/
structure Padding (α : Type) where
  top : α
  left : α
  bottom : α
  right : α

structure ModelSettings (α : Type) where
  defaultNodeWidth : α
  defaultNodeHeight : α

structure LayoutSettings (α : Type) where
  groupPadding : Padding α
  rootMargin : α
  emptyGroupWidth : α
  emptyGroupHeight : α
  forceIterations : Nat

structure RenderSettings (α : Type) where
  padding : α
  defaultCanvasWidth : α
  defaultCanvasHeight : α
  cylinderCap : α
  arrowColor : String
  fontFamily : String

structure Settings (α : Type) where
  model : ModelSettings α
  layout : LayoutSettings α
  render : RenderSettings α

variable {α : Type}

namespace Padding

def uniform (room : α) : Padding α := ⟨room, room, room, room⟩

def default [Scalar α] : Padding α := ⟨40, 20, 20, 20⟩

end Padding

namespace ModelSettings

def default [Scalar α] : ModelSettings α := ⟨120, 60⟩

def nodeSize (s : ModelSettings α) : Size α := ⟨s.defaultNodeWidth, s.defaultNodeHeight⟩

end ModelSettings

namespace LayoutSettings

def default [Scalar α] : LayoutSettings α := ⟨Padding.default, 8, 200, 200, 300⟩

def emptyGroupSize (s : LayoutSettings α) : Size α := ⟨s.emptyGroupWidth, s.emptyGroupHeight⟩

end LayoutSettings

def RenderSettings.default [Scalar α] : RenderSettings α :=
  ⟨20, 200, 200, 10, "#666", "Helvetica"⟩

def Settings.default [Scalar α] : Settings α :=
  ⟨ModelSettings.default, LayoutSettings.default, RenderSettings.default⟩

end DiagramPress
