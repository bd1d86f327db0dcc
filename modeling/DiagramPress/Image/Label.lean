-- The text of a label inside its cell: the settings read from the cell's
-- style, the lines, and where the first baseline stands.
import DiagramPress.Geometry
import DiagramPress.Style

namespace DiagramPress

inductive HorizontalAlign where
  | left
  | center
  | right
deriving DecidableEq, Repr

/-- The name of the alignment in the image. -/
def HorizontalAlign.anchor : HorizontalAlign → String
  | .left => "start"
  | .center => "middle"
  | .right => "end"

inductive VerticalAlign where
  | top
  | middle
  | bottom
deriving DecidableEq, Repr

/-- The name of the alignment in a style. -/
def VerticalAlign.name : VerticalAlign → String
  | .top => "top"
  | .middle => "middle"
  | .bottom => "bottom"

/-- The text settings of a cell. -/
structure LabelStyle (α : Type) where
  fontSize : α
  fontColor : String
  fontFamily : String
  align : HorizontalAlign
  verticalAlign : VerticalAlign
  spacingTop : α
  spacingRight : α
  spacingBottom : α
  spacingLeft : α
  bold : Bool
  italic : Bool

/-- The lines of a label, the anchor of the first baseline and the step from
one baseline to the next. -/
structure LabelLayout (α : Type) where
  x : α
  y : α
  lineHeight : α
  lines : List String

variable {α : Type} [Scalar α]

namespace LabelStyle

/-- The bits of a font style: digits with a plus sign if wanted, of a number
that fits a 32-bit word. -/
def fontBits? (text : String) : Option Nat :=
  let ds :=
    match text.toList with
    | '+' :: rest => rest
    | rest => rest
  if ds.isEmpty || !ds.all Char.isDigit then none
  else
    let n := ds.foldl (fun n c => 10 * n + (c.toNat - '0'.toNat)) 0
    if n < Nat.pow 2 32 then some n else none

/-- Reads the text settings of a style; what it does not say has a default. -/
def ofStyle [NumberText α] (style : Style) (family : String) : LabelStyle α :=
  let bits := ((style.get? "fontStyle").bind fontBits?).getD 0
  let spacing (key : String) : α := (style.number? key).getD 5
  { fontSize := (style.number? "fontSize").getD 12
    fontColor := (style.get? "fontColor").getD "#333"
    fontFamily := (style.get? "fontFamily").getD family
    align :=
      match style.get? "align" with
      | some "left" => .left
      | some "right" => .right
      | _ => .center
    verticalAlign :=
      match style.get? "verticalAlign" with
      | some "top" => .top
      | some "bottom" => .bottom
      | _ => .middle
    spacingTop := spacing "spacingTop"
    spacingRight := spacing "spacingRight"
    spacingBottom := spacing "spacingBottom"
    spacingLeft := spacing "spacingLeft"
    bold := bits % 2 = 1
    italic := bits / 2 % 2 = 1 }

/-- The width of an average character. -/
def charWidth (s : LabelStyle α) : α :=
  s.fontSize * Scalar.decimal (if s.bold then 65 else 58) 2

def lineHeight (s : LabelStyle α) : α := s.fontSize * Scalar.decimal 13 1

/-- How far the baseline stands below the top of a line. -/
def ascent (s : LabelStyle α) : α := s.fontSize * Scalar.decimal 85 2

/-- How many characters a line may have in a cell of this width: never fewer than ten. -/
def budget (s : LabelStyle α) (width : α) : Nat :=
  max (Scalar.wholePart ((width - s.spacingLeft - s.spacingRight) / s.charWidth)) 10

end LabelStyle

/-- Lays a text out in its cell: each line of the text is filled on its own.
A blank text has no layout. -/
def LabelStyle.layout? (s : LabelStyle α) (text : String) (cell : Bounds α) :
    Option (LabelLayout α) :=
  if (Text.trim text.toList).isEmpty then none
  else
    let lines := (Text.split (· = '\n') text.toList).flatMap (Text.wrap (s.budget cell.width))
    let block : α := Scalar.ofNat lines.length * s.lineHeight
    let x :=
      match s.align with
      | .left => cell.x + s.spacingLeft
      | .center => cell.x + cell.width / 2
      | .right => cell.right - s.spacingRight
    let y :=
      match s.verticalAlign with
      | .top => cell.y + s.spacingTop + s.ascent
      | .middle => cell.y + (cell.height - block) / 2 + s.ascent
      | .bottom => cell.bottom - s.spacingBottom - block + s.ascent
    some ⟨x, y, s.lineHeight, lines.map String.ofList⟩

end DiagramPress
