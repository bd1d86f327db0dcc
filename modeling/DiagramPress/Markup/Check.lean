-- Checking a document for the mistakes that keep an editor from opening it.
-- What is only doubtful is a warning and makes no document invalid.
import DiagramPress.Markup.Escape
import DiagramPress.Markup.Reader

namespace DiagramPress.Markup

/-! ## What can be wrong -/

/-- An end of an edge. -/
inductive End where
  | source
  | target
deriving DecidableEq, Repr

namespace End

def all : List End := [source, target]

def name : End → String
  | source => "source"
  | target => "target"

end End

inductive Fault where
  | noWrapper
  | noRoot
  | noLayer
  | duplicateId (id : String)
  | noGeometry (id : String)
  | unmarkedGeometry (id : String)
  | missingEnd (id : String) (role : End)
  | unknownEnd (reference : String) (role : End)
  | absoluteEdge (id : String)
deriving DecidableEq, Repr

def quotedId (id : String) : String := "id=\"" ++ id ++ "\""

def Fault.message : Fault → String
  | noWrapper => "Missing <mxfile> wrapper element"
  | noRoot => "Missing foundation cell id=\"0\" (root cell)"
  | noLayer => "Missing foundation cell id=\"1\" with parent=\"0\" (default layer)"
  | duplicateId id => "Duplicate cell " ++ quotedId id
  | noGeometry id => "Vertex cell " ++ quotedId id ++ " is missing <mxGeometry> element"
  | unmarkedGeometry id =>
    "Vertex cell " ++ quotedId id ++ " geometry is missing as=\"geometry\" attribute"
  | missingEnd id role =>
    "Edge cell " ++ quotedId id ++ " is missing " ++ role.name ++ " attribute"
  | unknownEnd reference role =>
    "Edge references non-existent " ++ role.name ++ " " ++ quotedId reference
  | absoluteEdge id =>
    "Edge cell " ++ quotedId id ++ " geometry is missing relative=\"1\" attribute"

inductive Doubt where
  | foreignName (found own : String)
  | quotedColor
  | bareAmpersand (preview : String)
deriving DecidableEq, Repr

def Doubt.message : Doubt → String
  | foreignName found own =>
    "Style contains CSS '" ++ found ++ "'; use '" ++ own ++ "' instead"
  | quotedColor =>
    "Style contains quoted hex color; hex values should not be quoted inside style strings"
  | bareAmpersand preview =>
    "Possible unescaped ampersand in attribute value: \"" ++ preview ++ "\""

structure CheckReport where
  errors : List Fault
  warnings : List Doubt
deriving DecidableEq, Repr

def CheckReport.valid (r : CheckReport) : Bool := r.errors.isEmpty

/-! ## Faults -/

namespace FoundCell

def has (cell : FoundCell) (name value : String) : Bool := cell.get? name == some value.toList

/-- How messages call the cell. -/
def shownId (cell : FoundCell) : String :=
  ((cell.get? "id").map String.ofList).getD "unknown"

end FoundCell

def isRoot (cell : FoundCell) : Bool := cell.has "id" "0" && (cell.get? "parent").isNone

def isLayer (cell : FoundCell) : Bool := cell.has "id" "1" && cell.has "parent" "0"

def wrapperFaults (text : List Char) (cells : List FoundCell) : List Fault :=
  (if occurs "<mxfile".toList text then [] else [.noWrapper]) ++
    (if cells.any isRoot then [] else [.noRoot]) ++
    (if cells.any isLayer then [] else [.noLayer])

/-- A fault for every id that stands in the list before. -/
def repeatedIds (seen : List (List Char)) : List (List Char) → List Fault
  | [] => []
  | id :: rest =>
    if seen.contains id then .duplicateId (String.ofList id) :: repeatedIds seen rest
    else repeatedIds (id :: seen) rest

def vertexFaults (cell : FoundCell) : List Fault :=
  if cell.has "vertex" "1" then
    match cell.geometry? with
    | none => [.noGeometry cell.shownId]
    | some g =>
      if g.get? "as" == some "geometry".toList then [] else [.unmarkedGeometry cell.shownId]
  else []

def endFaults (ids : List (List Char)) (cell : FoundCell) (role : End) : List Fault :=
  match cell.get? role.name with
  | none => [.missingEnd cell.shownId role]
  | some reference =>
    if ids.contains reference then [] else [.unknownEnd (String.ofList reference) role]

def edgeFaults (ids : List (List Char)) (cell : FoundCell) : List Fault :=
  if cell.has "edge" "1" then
    let relative := (cell.geometry?.bind (·.get? "relative")) == some ['1']
    End.all.flatMap (endFaults ids cell) ++ if relative then [] else [.absoluteEdge cell.shownId]
  else []

def faults (text : List Char) : List Fault :=
  let cells := cells text
  let ids := cells.filterMap (·.get? "id")
  wrapperFaults text cells ++ repeatedIds [] ids ++
    cells.flatMap fun cell => vertexFaults cell ++ edgeFaults ids cell

/-! ## Doubts -/

/-- Property names of style sheets and the names that styles have for them. -/
def foreignNames : List (String × String) :=
  [("background-color", "fillColor"), ("border-color", "strokeColor"), ("font-size", "fontSize")]

/-- The text after a quote character, plain or as a reference. -/
def afterQuote? (text : List Char) : Option (List Char) :=
  (Text.after? ['\x27'] text).or (Text.after? "&apos;".toList text)

/-- A hexadecimal color between quotes starts the text. -/
def startsQuotedColor (text : List Char) : Bool :=
  match (afterQuote? text).bind (Text.after? ['#']) with
  | none => false
  | some rest =>
    !(rest.takeWhile isHexDigit).isEmpty && (afterQuote? (rest.dropWhile isHexDigit)).isSome

def hasQuotedColor : List Char → Bool
  | [] => false
  | c :: rest => startsQuotedColor (c :: rest) || hasQuotedColor rest

def styleDoubts (style : List Char) : List Doubt :=
  (foreignNames.filter fun (found, _) => occurs found.toList style).map
      (fun (found, own) => .foreignName found own) ++
    if hasQuotedColor style then [.quotedColor] else []

/-- How many characters of a value a message shows. -/
def previewLength : Nat := 50

def doubts (text : List Char) : List Doubt :=
  (scan styleValue text).flatMap styleDoubts ++
    ((scan namedValue text).filter fun (_, value) => hasBareAmpersandChars value).map
      fun (_, value) => .bareAmpersand (String.ofList (value.take previewLength))

/-- The report on a document. -/
def check (text : String) : CheckReport := ⟨faults text.toList, doubts text.toList⟩

end DiagramPress.Markup
