-- Points, sizes and boxes in the plane, with the y axis pointing down.
import DiagramPress.Number.Scalar

namespace DiagramPress

structure Point (α : Type) where
  x : α
  y : α
deriving Repr

structure Size (α : Type) where
  width : α
  height : α
deriving Repr

/-- A box with sides along the axes, given by its upper left corner. -/
structure Bounds (α : Type) where
  x : α
  y : α
  width : α
  height : α
deriving Repr

variable {α : Type} [Scalar α]

namespace Point

def origin : Point α := ⟨0, 0⟩

/-- The point as seen from another one. -/
def relativeTo (p base : Point α) : Point α := ⟨p.x - base.x, p.y - base.y⟩

end Point

namespace Bounds

def ofCorner (corner : Point α) (size : Size α) : Bounds α :=
  ⟨corner.x, corner.y, size.width, size.height⟩

def corner (b : Bounds α) : Point α := ⟨b.x, b.y⟩

def size (b : Bounds α) : Size α := ⟨b.width, b.height⟩

def right (b : Bounds α) : α := b.x + b.width

def bottom (b : Bounds α) : α := b.y + b.height

def center (b : Bounds α) : Point α := ⟨b.x + b.width / 2, b.y + b.height / 2⟩

/-- How far a box may stick out of another one that still contains it. -/
def slack : α := Scalar.decimal 1 2

def contains (outer inner : Bounds α) : Bool :=
  decide (outer.x - slack ≤ inner.x) && decide (outer.y - slack ≤ inner.y) &&
    decide (inner.right ≤ outer.right + slack) && decide (inner.bottom ≤ outer.bottom + slack)

/-- The smallest box around both. -/
def union (a b : Bounds α) : Bounds α :=
  let x := Scalar.least a.x b.x
  let y := Scalar.least a.y b.y
  ⟨x, y, Scalar.greatest a.right b.right - x, Scalar.greatest a.bottom b.bottom - y⟩

/-- The box moved by an offset. -/
def shift (b : Bounds α) (offset : Point α) : Bounds α :=
  { b with x := b.x + offset.x, y := b.y + offset.y }

/-- How often an offset fits between the centre and the side, if it leads there at all. -/
def reach? (half offset : α) : Option α :=
  if Scalar.same offset 0 then none else some (half / Scalar.abs offset)

/-- The point where the ray from the centre towards `toward` leaves the box. -/
def exitToward (b : Bounds α) (toward : Point α) : Point α :=
  let c := b.center
  let dx := toward.x - c.x
  let dy := toward.y - c.y
  let along (scale : α) : Point α := ⟨c.x + dx * scale, c.y + dy * scale⟩
  match reach? (b.width / 2) dx, reach? (b.height / 2) dy with
  | none, none => c
  | some sx, none => along sx
  | none, some sy => along sy
  | some sx, some sy => along (Scalar.least sx sy)

end Bounds

end DiagramPress
