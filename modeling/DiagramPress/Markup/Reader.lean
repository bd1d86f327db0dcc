-- Reading cells from the text of a document. Tags and attributes are found by
-- their look alone, so that a damaged document can be read as well.
import DiagramPress.Text.Category
import DiagramPress.Text.Words

namespace DiagramPress.Markup

/-! ## Patterns -/

/-- A pattern looks at a text and at the character in front of it. If it fits
there, it says how many characters it takes, at least one, and what it finds. -/
abbrev Pattern (β : Type) := Option Char → List Char → Option (Nat × β)

/-- What a pattern finds after the next `skip` characters, which belong to a
finding before. -/
def scanAfter {β : Type} (p : Pattern β) : Option Char → Nat → List Char → List β
  | _, _, [] => []
  | _, skip + 1, c :: rest => scanAfter p (some c) skip rest
  | before, 0, c :: rest =>
    match p before (c :: rest) with
    | some (length, found) => found :: scanAfter p (some c) (length - 1) rest
    | none => scanAfter p (some c) 0 rest

/-- Everything a pattern finds from left to right; findings do not overlap. -/
def scan {β : Type} (p : Pattern β) (text : List Char) : List β := scanAfter p none 0 text

/-- `word` stands somewhere in the text. -/
def occurs (word : List Char) : List Char → Bool
  | [] => word.isEmpty
  | c :: rest => word.isPrefixOf (c :: rest) || occurs word rest

/-- Characters up to the next `mark`, without it. -/
def until? (mark : Char) (text : List Char) : Option (List Char) :=
  if text.contains mark then some (text.takeWhile (· ≠ mark)) else none

/-- The text goes on with something else than a word. -/
def wordEnds : List Char → Bool
  | [] => true
  | c :: _ => !Text.isWordChar c

/-! ## Tags and attributes -/

/-- A start tag with the given name: the whole tag, and the text from the tag on. -/
def tag (name : String) : Pattern (List Char × List Char) := fun _ text =>
  let opening := '<' :: name.toList
  match Text.after? opening text with
  | none => none
  | some rest =>
    if wordEnds rest then
      (until? '>' rest).map fun inside =>
        let whole := opening ++ inside ++ ['>']
        (whole.length, whole, text)
    else none

def startsName (c : Char) : Bool := c.isAlpha || c = '_'

def continuesName (c : Char) : Bool := Text.isWordChar c || c = '.' || c = '-'

/-- An attribute: its name and its value. -/
def namedValue : Pattern (List Char × List Char)
  | _, [] => none
  | _, c :: rest =>
    if startsName c then
      let name := c :: rest.takeWhile continuesName
      match Text.after? ['=', '\"'] (rest.dropWhile continuesName) with
      | none => none
      | some rest => (until? '\"' rest).map fun value => (name.length + value.length + 3, name, value)
    else none

/-- The value of a style attribute, wherever it stands. -/
def styleValue : Pattern (List Char) := fun before text =>
  if (before.map Text.isWordChar).getD false then none
  else
    let opening := "style=\"".toList
    match Text.after? opening text with
    | none => none
    | some rest => (until? '\"' rest).map fun value => (opening.length + value.length + 1, value)

abbrev Attributes := List (List Char × List Char)

def attributes (tag : List Char) : Attributes := scan namedValue tag

/-- The value of the last attribute with that name. -/
def Attributes.get? (as : Attributes) (name : String) : Option (List Char) :=
  as.reverse.lookup name.toList

/-! ## Cells -/

structure FoundCell where
  attributes : Attributes
  /-- The text of the cell with all that is inside it. -/
  block : List Char

namespace FoundCell

def closing : List Char := "</mxCell>".toList

/-- The text up to the end of the first `word`, or all of it. -/
def upTo (word : List Char) : List Char → List Char
  | [] => []
  | c :: rest =>
    if word.isPrefixOf (c :: rest) then (c :: rest).take word.length
    else c :: upTo word rest

def ofTag (tag text : List Char) : FoundCell :=
  { attributes := Markup.attributes tag
    block :=
      if ['/', '>'].isSuffixOf tag then tag
      else tag ++ upTo closing (text.drop tag.length) }

def get? (cell : FoundCell) (name : String) : Option (List Char) := cell.attributes.get? name

/-- The attributes of the first geometry in the cell. -/
def geometry? (cell : FoundCell) : Option Attributes :=
  ((scan (tag "mxGeometry") cell.block).head?).map fun (tag, _) => Markup.attributes tag

end FoundCell

/-- The cells of a document, in order. -/
def cells (text : List Char) : List FoundCell :=
  (scan (tag "mxCell") text).map fun (tag, text) => FoundCell.ofTag tag text

end DiagramPress.Markup
