-- Structured texts as trees, and everything that can be wrong with one when a
-- value of a known shape is read from it.
import DiagramPress.Number.Decimal
import DiagramPress.Text.Quoted

namespace DiagramPress.Data

/-! ## What can go wrong -/

/-- What stands in a tree where something else was wanted. -/
inductive Found where
  | nothing (word : String)
  | boolean (b : Bool)
  | integer (n : Int)
  | floating (text : String)
  | string (s : String)
  | sequence
  | map
deriving DecidableEq, Repr

namespace Found

def text : Found → String
  | nothing word => word
  | boolean b => "boolean \x60" ++ (if b then "true" else "false") ++ "\x60"
  | integer n => "integer \x60" ++ toString n ++ "\x60"
  | floating digits => "floating point \x60" ++ digits ++ "\x60"
  | string s => "string " ++ Text.quoted s
  | sequence => "sequence"
  | map => "map"

end Found

inductive DecodeError where
  /-- The text breaks the grammar. -/
  | grammar
  | wrongType (found : Found) (wanted : String)
  | wrongValue (found : Found) (wanted : String)
  | wrongLength (length : Nat) (wanted : String)
  | tooManyItems (length : Nat)
  | missingField (name : String)
  | duplicateField (name : String)
  | unknownVariant (name : String) (known : List String)
  | emptyVariant
  | noVariant
  | badNumber
  | numberTooLarge
  | badInteger
  | badHex
  | strayTrailSurrogate
  | missingTrailSurrogate
  | wantedTrailSurrogate
deriving DecidableEq, Repr

namespace DecodeError

/-- A name between grave accents. -/
def ticked (name : String) : String := "\x60" ++ name ++ "\x60"

def variants (known : List String) : String :=
  match known with
  | [a, b] => ticked a ++ " or " ++ ticked b
  | _ => "one of " ++ String.intercalate ", " (known.map ticked)

def message : DecodeError → String
  | grammar => "the text breaks the grammar"
  | wrongType found wanted => "invalid type: " ++ found.text ++ ", expected " ++ wanted
  | wrongValue found wanted => "invalid value: " ++ found.text ++ ", expected " ++ wanted
  | wrongLength length wanted => "invalid length " ++ toString length ++ ", expected " ++ wanted
  | tooManyItems length =>
    "invalid length " ++ toString length ++ ", expected fewer elements in array"
  | missingField name => "missing field " ++ ticked name
  | duplicateField name => "duplicate field " ++ ticked name
  | unknownVariant name known =>
    "unknown variant " ++ ticked name ++ ", expected " ++ variants known
  | emptyVariant => "expected a nonempty object"
  | noVariant => "expected a string or an object"
  | badNumber => "error parsing number"
  | numberTooLarge => "error parsing number: too large"
  | badInteger => "error parsing integer"
  | badHex => "error parsing hex"
  | strayTrailSurrogate => "unexpected unicode trail surrogate"
  | missingTrailSurrogate => "missing unicode trail surrogate"
  | wantedTrailSurrogate => "expecting unicode trail surrogate"

end DecodeError

/-- A field that has to be there. -/
def required {β : Type} (name : String) : Option β → Except DecodeError β
  | some b => .ok b
  | none => .error (.missingField name)

/-! ## Trees -/

/-- A structured text. Numbers keep their token; a string keeps what is wrong
with its escapes until somebody reads it. -/
inductive Value where
  | null
  | boolean (b : Bool)
  | number (token : List Char)
  | string (content : Except DecodeError String)
  | array (items : List Value)
  | object (fields : List (Except DecodeError String × Value))

/-- The two formats. They differ in how they read numbers and in what they
pass over. -/
inductive Format where
  | json5
  | json
deriving DecidableEq, Repr

namespace Value

mutual

/-- How deep containers are nested. -/
def depth : Value → Nat
  | array items => depthOfItems items + 1
  | object fields => depthOfFields fields + 1
  | _ => 0

def depthOfItems : List Value → Nat
  | [] => 0
  | t :: rest => max t.depth (depthOfItems rest)

def depthOfFields : List (Except DecodeError String × Value) → Nat
  | [] => 0
  | (_, t) :: rest => max t.depth (depthOfFields rest)

end

end Value

end DiagramPress.Data
