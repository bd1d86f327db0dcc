-- The two formats a diagram can be written in, and how one of them is chosen.

namespace DiagramPress

inductive OutputFormat where
  /-- An image that carries its document. -/
  | image
  /-- The document alone. -/
  | document
deriving DecidableEq, Repr

namespace OutputFormat

def all : List OutputFormat := [image, document]

/-- The name of the format on a command line. -/
def word : OutputFormat → String
  | image => "drawio-svg"
  | document => "drawio"

/-- The end of the names of files in this format, without the first point. -/
def extension : OutputFormat → String
  | image => "drawio.svg"
  | document => "drawio"

def default : OutputFormat := image

/-! ## Names of files -/

/-- The parts of a path; empty ones and single points do not count. -/
def pathParts (path : String) : List String :=
  (path.splitOn "/").filter fun part => part ≠ "" ∧ part ≠ "."

/-- The last part of a path, unless it leads upwards. -/
def fileName? (path : String) : Option String :=
  (pathParts path).getLast?.bind fun part => if part = ".." then none else some part

/-- The format that the end of a name stands for; the case of its letters does not matter. -/
def ofFileName? (name : String) : Option OutputFormat :=
  let letters := name.toList.map Char.toLower
  all.find? fun f => ('.' :: f.extension.toList).isSuffixOf letters

/-- The name of the output wins over the format that was asked for. -/
def select (output : Option String) (requested : Option OutputFormat) : OutputFormat :=
  (((output.bind fileName?).bind ofFileName?).or requested).getD default

end OutputFormat

end DiagramPress
