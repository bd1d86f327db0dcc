-- Packing boxes into rows, in their order, so that the block is close to square.
import DiagramPress.Layout.Placement

namespace DiagramPress.Rows

variable {α : Type} [Scalar α]

/-- Where the next box goes: the end of the current row, its top and its height so far. -/
structure Cursor (α : Type) where
  x : α
  y : α
  rowHeight : α

/-- Places a box at the cursor, or at the start of a new row if it does not fit. -/
def step (gap limit : α) (cursor : Cursor α) (size : Size α) : Point α × Cursor α :=
  let start : Cursor α :=
    if 0 < cursor.x ∧ limit < cursor.x + size.width then
      ⟨0, cursor.y + (cursor.rowHeight + gap), 0⟩
    else cursor
  (⟨start.x, start.y⟩,
    ⟨start.x + (size.width + gap), start.y, Scalar.greatest start.rowHeight size.height⟩)

def fill (gap limit : α) : Cursor α → List (Size α) → List (Point α)
  | _, [] => []
  | cursor, size :: rest =>
    let (point, cursor) := step gap limit cursor size
    point :: fill gap limit cursor rest

/-- How wide a row may be: the side of a square of the padded area, or the widest box. -/
def limit (gap : α) (sizes : List (Size α)) : α :=
  let area := sizes.foldl (fun sum s => sum + (s.width + gap) * (s.height + gap)) 0
  let widest := (sizes.map (·.width)).foldl Scalar.greatest 0
  Scalar.greatest (Scalar.sqrt area) widest

def place (p : Placement α) : List (Point α) :=
  fill p.nodeSpacing (limit p.nodeSpacing p.sizes) ⟨0, 0, 0⟩ p.sizes

end DiagramPress.Rows
