-- The outline of descriptions that the program shows: which fields there are,
-- what they hold and what holds when they are missing.
import DiagramPress.Data.Writer
import DiagramPress.Description

namespace DiagramPress.Description

open Data (Document)

/-! ## Fields -/

/-- A field in plain words. -/
def worded (name words : String) : String × Document := (name, .string words)

/-- A field that takes one of some words. -/
def choice (name default : String) (words : List String) : String × Document :=
  (name, .object [("default", .string default), ("enum", .array (words.map .string))])

def textWithDefault (name default : String) : String × Document :=
  (name, .object [("default", .string default), ("type", .string "string")])

def numberWithDefault (name : String) (default : Nat) : String × Document :=
  (name, .object [("default", .count default), ("type", .string "number")])

/-! ## Records -/

def styleOutline : Document :=
  .object [worded "dashed" "boolean", worded "fillColor" "string", worded "fontColor" "string",
    worded "fontFamily" "string", worded "fontSize" "number", worded "opacity" "number 0..100",
    worded "rounded" "boolean", worded "shadow" "boolean", worded "strokeColor" "string",
    worded "strokeWidth" "number"]

def edgeOutline : Document :=
  .object [worded "from" "node or group id (required)", worded "label" "string",
    choice "routing" Routing.orthogonal.word (Routing.all.map Routing.word),
    ("style", styleOutline), worded "to" "node or group id (required)"]

def groupOutline : Document :=
  .object [worded "id" "string (required)", worded "label" "string", worded "parent" "group id",
    ("style", styleOutline)]

def nodeOutline : Document :=
  .object [worded "group" "group id", worded "id" "string (required)", worded "label" "string",
    ("position", .object [worded "x" "number", worded "y" "number"]),
    ("size", .object [worded "height" "number > 0", worded "width" "number > 0"]),
    ("style", styleOutline), textWithDefault "type" defaultType]

def layoutOutline : Document :=
  .object [choice "algorithm" Algorithm.hierarchical.word (Algorithm.all.map Algorithm.word),
    choice "direction" Direction.topBottom.word (Direction.all.map Direction.word),
    ("spacing", .object [numberWithDefault "layer" 80, numberWithDefault "node" 50])]

/-- The outline of whole descriptions; the fields are in the order of their names. -/
def outline : Document :=
  .object [("edges", .object [("items", edgeOutline)]), ("groups", .object [("items", groupOutline)]),
    ("layout", layoutOutline),
    ("nodes", .object [("items", nodeOutline), ("minItems", .count 1)]),
    choice "theme" ThemeName.professional.word (ThemeName.all.map ThemeName.word),
    textWithDefault "title" defaultTitle]

end DiagramPress.Description
