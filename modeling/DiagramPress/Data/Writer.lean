-- Writing JSON: a document with its fields in a chosen order, on one line or
-- over several lines with two spaces for each level.

namespace DiagramPress.Data

/-- A document to be written. A number is given by its text. -/
inductive Document where
  | null
  | boolean (b : Bool)
  | number (text : String)
  | string (s : String)
  | array (items : List Document)
  | object (fields : List (String × Document))

namespace Document

def count (n : Nat) : Document := .number (toString n)

def option {β : Type} (write : β → Document) : Option β → Document
  | some b => write b
  | none => .null

/-! ## Strings -/

/-- A digit for a number below sixteen, in lower case. -/
def hexDigit (n : Nat) : Char := Char.ofNat (if n < 10 then n + 48 else n + 87)

/-- A character inside quotes: only quotes, backslashes and control characters
are written in another way. -/
def escapeChar (c : Char) : List Char :=
  if c = '\"' then ['\\', '\"']
  else if c = '\\' then ['\\', '\\']
  else if c = '\n' then ['\\', 'n']
  else if c = '\r' then ['\\', 'r']
  else if c = '\t' then ['\\', 't']
  else if c = '\x08' then ['\\', 'b']
  else if c = '\x0c' then ['\\', 'f']
  else if c.toNat < 0x20 then
    ['\\', 'u', '0', '0', hexDigit (c.toNat / 16), hexDigit (c.toNat % 16)]
  else [c]

def quoted (s : String) : String :=
  "\"" ++ String.ofList (s.toList.flatMap escapeChar) ++ "\""

/-! ## On one line -/

mutual

def compact : Document → String
  | .null => "null"
  | .boolean b => if b then "true" else "false"
  | .number text => text
  | .string s => quoted s
  | .array items => "[" ++ String.intercalate "," (compactItems items) ++ "]"
  | .object fields => "\x7b" ++ String.intercalate "," (compactFields fields) ++ "\x7d"

def compactItems : List Document → List String
  | [] => []
  | d :: rest => d.compact :: compactItems rest

def compactFields : List (String × Document) → List String
  | [] => []
  | (key, d) :: rest => (quoted key ++ ":" ++ d.compact) :: compactFields rest

end

/-! ## Over several lines -/

/-- Puts items between brackets, each on a line of its own. -/
def block (opening closing : String) (level : Nat) (items : List String) : String :=
  if items.isEmpty then opening ++ closing
  else
    let indent (n : Nat) : String := "\n" ++ String.ofList (List.replicate (2 * n) ' ')
    opening ++ String.intercalate "," (items.map (indent (level + 1) ++ ·)) ++ indent level ++
      closing

mutual

/-- The document with its lines indented for `level`. -/
def prettyAt (level : Nat) : Document → String
  | .array items => block "[" "]" level (prettyItems (level + 1) items)
  | .object fields => block "\x7b" "\x7d" level (prettyFields (level + 1) fields)
  | d => d.compact

def prettyItems (level : Nat) : List Document → List String
  | [] => []
  | d :: rest => d.prettyAt level :: prettyItems level rest

def prettyFields (level : Nat) : List (String × Document) → List String
  | [] => []
  | (key, d) :: rest => (quoted key ++ ": " ++ d.prettyAt level) :: prettyFields level rest

end

def pretty (d : Document) : String := d.prettyAt 0

end Document

end DiagramPress.Data
