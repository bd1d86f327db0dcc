-- The settings of a container as texts in its frame: how they are written by
-- those who ask for a layout and read by those who compute it.
import DiagramPress.Layout.Frame
import DiagramPress.Settings
import DiagramPress.Text.Words

namespace DiagramPress

/-! ## Words -/

/-- How the children of a container are placed. -/
inductive Method where
  | layered
  | force
  | tree
  | radial
  | rows
deriving DecidableEq, Repr

namespace Method

def all : List Method := [layered, force, tree, radial, rows]

def word : Method → String
  | layered => "layered"
  | force => "force"
  | tree => "mrtree"
  | radial => "radialTree"
  | rows => "rectpacking"

def parse? (text : String) : Option Method := all.find? fun m => m.word = text

def default : Method := layered

end Method

/-- Where connections lead on the page. -/
inductive Flow where
  | down
  | up
  | right
  | left
deriving DecidableEq, Repr

namespace Flow

def all : List Flow := [down, up, right, left]

def word : Flow → String
  | down => "DOWN"
  | up => "UP"
  | right => "RIGHT"
  | left => "LEFT"

def parse? (text : String) : Option Flow := all.find? fun f => f.word = text

def default : Flow := down

def isVertical : Flow → Bool
  | down => true
  | up => true
  | right => false
  | left => false

end Flow

/-! ## The text of a padding -/

namespace Padding

variable {α : Type} [NumberText α]

def text (p : Padding α) : String :=
  "[top=" ++ NumberText.plain p.top ++ ",left=" ++ NumberText.plain p.left ++
    ",bottom=" ++ NumberText.plain p.bottom ++ ",right=" ++ NumberText.plain p.right ++ "]"

/-- Sets one side from a piece such as `top=40`; any other piece is passed over. -/
def readSide (p : Padding α) (piece : List Char) : Padding α :=
  match Text.splitOnce? '=' piece with
  | none => p
  | some (side, amount) =>
    match NumberText.read? (String.ofList (Text.trim amount)) with
    | none => p
    | some v =>
      match String.ofList (Text.trim side) with
      | "top" => { p with top := v }
      | "left" => { p with left := v }
      | "bottom" => { p with bottom := v }
      | "right" => { p with right := v }
      | _ => p

/-- Reads a padding; a side that the text does not give keeps its default. -/
def read (text : String) (default : Padding α) : Padding α :=
  let inner := (Text.trim text.toList).dropWhile (· = '[')
  let inner := (inner.reverse.dropWhile (· = ']')).reverse
  (Text.split (· = ',') inner).foldl readSide default

end Padding

/-! ## The settings of a container -/

structure ContainerSettings (α : Type) where
  method : Method
  flow : Flow
  nodeSpacing : α
  layerSpacing : α
  padding : Padding α

namespace ContainerSettings

def methodKey : String := "algorithm"

def flowKey : String := "direction"

def nodeSpacingKey : String := "spacing.nodeNode"

def layerSpacingKey : String := "spacing.layer"

def paddingKey : String := "padding"

variable {α : Type} [Scalar α] [NumberText α]

/-- Writes the settings into a frame. -/
def write (s : ContainerSettings α) (f : Frame α) : Frame α :=
  let f := f.withOption methodKey s.method.word
  let f := f.withOption flowKey s.flow.word
  let f := f.withOption nodeSpacingKey (NumberText.plain s.nodeSpacing)
  let f := f.withOption layerSpacingKey (NumberText.plain s.layerSpacing)
  f.withOption paddingKey s.padding.text

/-- A setting that is a number and not negative, else its default. -/
def readDistance (f : Frame α) (key : String) (default : α) : α :=
  match (f.options.get? key).bind NumberText.read? with
  | some v => if 0 ≤ v then v else default
  | none => default

/-- Reads the settings of a frame; what is missing or unknown has a default. -/
def read (f : Frame α) : ContainerSettings α :=
  let none : Padding α := Padding.uniform 0
  { method := ((f.options.get? methodKey).bind Method.parse?).getD Method.default
    flow := ((f.options.get? flowKey).bind Flow.parse?).getD Flow.default
    nodeSpacing := readDistance f nodeSpacingKey 50
    layerSpacing := readDistance f layerSpacingKey 80
    padding := ((f.options.get? paddingKey).map fun text => Padding.read text none).getD none }

end ContainerSettings

end DiagramPress
