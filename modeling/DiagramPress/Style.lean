-- The style of a cell: a list of settings in the order in which their keys
-- were introduced, written as `key=value;flag;`.
import DiagramPress.Number.Scalar
import DiagramPress.Text.Words

namespace DiagramPress

namespace Style

/-- One setting: a bare flag such as `rhombus`, or a key with its value. -/
inductive Entry where
  | flag (name : String)
  | pair (key value : String)
deriving DecidableEq, Repr

/-- Flags and pairs share one space of keys. -/
def Entry.key : Entry → String
  | .flag name => name
  | .pair key _ => key

def Entry.text : Entry → String
  | .flag name => name ++ ";"
  | .pair key value => key ++ "=" ++ value ++ ";"

end Style

structure Style where
  entries : List Style.Entry
deriving DecidableEq, Repr

namespace Style

/-! ## Writing settings -/

def empty : Style := ⟨[]⟩

instance : Inhabited Style := ⟨empty⟩

/-- Puts `entry` where the first entry of its key stands, or at the end. -/
def replace (entry : Entry) : List Entry → List Entry
  | [] => [entry]
  | e :: rest => if e.key = entry.key then entry :: rest else e :: replace entry rest

/-- Gives a key its value, in the place where the key was introduced. -/
def set (style : Style) (key value : String) : Style :=
  ⟨replace (.pair key value) style.entries⟩

/-- A switch is written as a digit. -/
def setBool (style : Style) (key : String) (value : Bool) : Style :=
  style.set key (if value then "1" else "0")

/-- Introduces a flag, unless its name is already a key. -/
def setFlag (style : Style) (name : String) : Style :=
  if style.entries.any fun e => e.key = name then style else ⟨style.entries ++ [.flag name]⟩

/-! ## Reading settings -/

def get? (style : Style) (key : String) : Option String :=
  style.entries.findSome? fun
    | .pair k value => if k = key then some value else none
    | .flag _ => none

def number? {α : Type} [NumberText α] (style : Style) (key : String) : Option α :=
  (style.get? key).bind NumberText.read?

def isEnabled (style : Style) (key : String) : Bool := style.get? key == some "1"

def hasFlag (style : Style) (name : String) : Bool :=
  style.entries.any fun e => e = .flag name

/-! ## The text of a style -/

/-- Adds one piece of a style text: a pair if it holds an equals sign, else a flag. -/
def addPiece (style : Style) (piece : List Char) : Style :=
  let piece := Text.trim piece
  if piece.isEmpty then style
  else
    match Text.splitOnce? '=' piece with
    | some (key, value) =>
      style.set (String.ofList (Text.trim key)) (String.ofList (Text.trim value))
    | none => style.setFlag (String.ofList piece)

/-- Reads a style text. Every text is one; later settings win. -/
def parse (text : String) : Style :=
  (Text.split (· = ';') text.toList).foldl addPiece empty

/-- Each entry with its semicolon. -/
def text (style : Style) : String := String.join (style.entries.map Entry.text)

end Style

end DiagramPress
