-- What the program asks of its surroundings, and a store of files in memory
-- that can answer it.
import DiagramPress.OutputFormat

namespace DiagramPress.Console

/-- Why a file cannot be read or written. -/
inductive FileError where
  | missing
  | isFolder
  | notFolder
  | taken
  | noText
  /-- Nothing is given as input, and somebody sits at the keyboard. -/
  | keyboard
  | other (text : String)
deriving DecidableEq, Repr

def FileError.message : FileError → String
  | missing => "No such file or directory (os error 2)"
  | isFolder => "Is a directory (os error 21)"
  | notFolder => "Not a directory (os error 20)"
  | taken => "File exists (os error 17)"
  | noText => "stream did not contain valid UTF-8"
  | keyboard =>
    "no input file provided and stdin is a terminal\n" ++
      "usage: drawr generate <input.json> -o <output>\n" ++
      "   or: echo '\x7b\"nodes\":[...]\x7d' | drawr generate -o <output>"
  | other text => text

/-- How the program reads and writes, in any monad. Writing makes the folders
that are missing on the way. -/
structure Surroundings (m : Type → Type) where
  read : String → m (Except FileError String)
  write : String → String → m (Except FileError Unit)
  input : m (Except FileError String)
  print : String → m Unit
  complain : String → m Unit

/-- The folder that a path leads through, unless it is the current one. -/
def folderOf? (path : String) : Option String :=
  match (OutputFormat.pathParts path).dropLast with
  | [] => none
  | parts => some ((if ['/'].isPrefixOf path.toList then "/" else "") ++ String.intercalate "/" parts)

/-! ## Files in memory -/

/-- Files and folders by the parts of their paths. -/
structure FileStore where
  files : List (List String × String)
  folders : List (List String)
deriving DecidableEq, Repr

namespace FileStore

def empty : FileStore := ⟨[], []⟩

/-- The parts of a path, where two points lead back up. -/
def partsOf (path : String) : List String :=
  (path.splitOn "/").foldl (fun parts part =>
    if part = "" ∨ part = "." then parts
    else if part = ".." then parts.dropLast
    else parts ++ [part]) []

def file? (s : FileStore) (parts : List String) : Option String := s.files.lookup parts

def isFolder (s : FileStore) (parts : List String) : Bool :=
  parts.isEmpty || s.folders.contains parts

/-- The paths that lead to the parts, the shortest first, without the whole. -/
def above (parts : List String) : List (List String) :=
  (List.range parts.length).map fun n => parts.take n

/-- A file stands where a folder would have to be. -/
def isBlocked (s : FileStore) (parts : List String) : Bool :=
  (above parts).any fun p => (s.file? p).isSome

/-- The path says that a folder is meant. -/
def meansFolder (path : String) : Bool :=
  ['/'].isSuffixOf path.toList || ['/', '.'].isSuffixOf path.toList

def read (s : FileStore) (path : String) : Except FileError String :=
  let parts := partsOf path
  if path = "" then .error .missing
  else if s.isFolder parts then .error .isFolder
  else if s.isBlocked parts then .error .notFolder
  else
    match s.file? parts with
    | none => .error .missing
    | some text => if meansFolder path then .error .notFolder else .ok text

/-- Makes a folder with all folders above it. -/
def makeFolder (s : FileStore) (parts : List String) : Except FileError FileStore :=
  if s.isFolder parts then .ok s
  else if (s.file? parts).isSome then .error .taken
  else if s.isBlocked parts then .error .notFolder
  else .ok { s with folders := s.folders ++ above parts ++ [parts] }

/-- Gives a file its text. -/
def put (s : FileStore) (parts : List String) (text : String) : FileStore :=
  { s with files := (parts, text) :: s.files.filter fun f => f.1 ≠ parts }

def write (s : FileStore) (path text : String) : Except FileError FileStore := do
  let parts := partsOf path
  let s ← s.makeFolder parts.dropLast
  if s.isFolder parts then throw .isFolder
  if meansFolder path then
    throw (if ['/'].isSuffixOf path.toList then .isFolder else .missing)
  return s.put parts text

end FileStore

end DiagramPress.Console
