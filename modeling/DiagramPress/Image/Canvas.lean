-- The area of an image: how large it is, and where the boxes of the model come
-- to stand on it.
import DiagramPress.Model
import DiagramPress.Settings

namespace DiagramPress.Image

variable {α : Type} [Scalar α]

/-! ## Boxes -/

/-- The box in which a node is drawn; without a place it stands at the origin. -/
def nodeBox (node : Model.Node α) : Bounds α :=
  Bounds.ofCorner (node.position.getD Point.origin) node.size

/-- The box in which a group is drawn; what it lacks has a default. -/
def groupBox (group : Model.Group α) : Bounds α :=
  Bounds.ofCorner (group.position.getD Point.origin) (group.size.getD Model.unplacedGroupSize)

/-- The smallest box around all boxes, if there are any. -/
def hull? : List (Bounds α) → Option (Bounds α)
  | [] => none
  | b :: rest => some (rest.foldl Bounds.union b)

/-- All boxes of a model. -/
def boxes (m : Model α) : List (Bounds α) := m.nodes.map nodeBox ++ m.groups.map groupBox

/-! ## The canvas -/

structure Canvas (α : Type) where
  size : Size α
  /-- How far everything is moved. -/
  offset : Point α

namespace Canvas

/-- A canvas that holds all boxes of a model with room around them. -/
def ofModel (m : Model α) (settings : RenderSettings α) : Canvas α :=
  let blank : Bounds α :=
    Bounds.ofCorner Point.origin ⟨settings.defaultCanvasWidth, settings.defaultCanvasHeight⟩
  let b := (hull? (boxes m)).getD blank
  { size := ⟨b.width + settings.padding * 2, b.height + settings.padding * 2⟩
    offset := ⟨settings.padding - b.x, settings.padding - b.y⟩ }

def place (canvas : Canvas α) (b : Bounds α) : Bounds α := b.shift canvas.offset

/-- The ends of the line drawn for an edge: where the line between the centres
leaves the two boxes. An edge with an end that is not placed is not drawn. -/
def line? (canvas : Canvas α) (m : Model α) (edge : Model.Edge) : Option (Point α × Point α) :=
  match m.boundsOf? edge.source, m.boundsOf? edge.target with
  | some s, some t =>
    let s := canvas.place s
    let t := canvas.place t
    some (s.exitToward t.center, t.exitToward s.center)
  | _, _ => none

end Canvas

end DiagramPress.Image
