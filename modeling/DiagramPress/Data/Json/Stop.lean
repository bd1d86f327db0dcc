-- Reading a JSON text from left to right: what can stop a reader, and the
-- place in the text where it stops.
import DiagramPress.Data.Value

namespace DiagramPress.Data.Json

/-! ## What stops a reader -/

/-- A break of the grammar. -/
inductive Flaw where
  | endOfList
  | endOfObject
  | endOfString
  | endOfValue
  | noColon
  | noListSeparator
  | noObjectSeparator
  | noKey
  | noValue
  | unknownWord
  | badNumber
  | numberTooLarge
  | badEscape
  | controlCharacter
  | loneSurrogate
  | halfPair
  | trailingComma
  | trailingText
deriving DecidableEq, Repr

def Flaw.message : Flaw → String
  | endOfList => "EOF while parsing a list"
  | endOfObject => "EOF while parsing an object"
  | endOfString => "EOF while parsing a string"
  | endOfValue => "EOF while parsing a value"
  | noColon => "expected " ++ DecodeError.ticked ":"
  | noListSeparator => "expected " ++ DecodeError.ticked "," ++ " or " ++ DecodeError.ticked "]"
  | noObjectSeparator =>
    "expected " ++ DecodeError.ticked "," ++ " or " ++ DecodeError.ticked "\x7d"
  | noKey => "key must be a string"
  | noValue => "expected value"
  | unknownWord => "expected ident"
  | badNumber => "invalid number"
  | numberTooLarge => "number out of range"
  | badEscape => "invalid escape"
  | controlCharacter =>
    "control character (\\u0000-\\u001F) found while parsing a string"
  | loneSurrogate => "lone leading surrogate in hex escape"
  | halfPair => "unexpected end of hex escape"
  | trailingComma => "trailing comma"
  | trailingText => "trailing characters"

/-- Either the text is no JSON, or it is the JSON of something else. -/
inductive Cause where
  | grammar (flaw : Flaw)
  | shape (error : DecodeError)
deriving DecidableEq, Repr

def Cause.message : Cause → String
  | grammar flaw => flaw.message
  | shape error => error.message

/-- The cause, and how many bytes of the text were not read. -/
structure Stop where
  cause : Cause
  unread : Nat
deriving DecidableEq, Repr

/-! ## Places -/

/-- A place in a text: lines are counted from 1, and the column is the number
of bytes before it on its line. -/
structure Place where
  line : Nat
  column : Nat
deriving DecidableEq, Repr

namespace Place

def start : Place := ⟨1, 0⟩

/-- The place so many bytes further on. -/
def advance (place : Place) : Nat → List Char → Place
  | 0, _ => place
  | _, [] => place
  | bytes, c :: rest =>
    if c = '\n' then advance ⟨place.line + 1, 0⟩ (bytes - 1) rest
    else advance ⟨place.line, place.column + min c.utf8Size bytes⟩ (bytes - c.utf8Size) rest

/-- The place in front of the last `unread` bytes. -/
def before (unread : Nat) (text : String) : Place :=
  advance start (text.utf8ByteSize - unread) text.toList

def text (place : Place) : String :=
  "line " ++ toString place.line ++ " column " ++ toString place.column

end Place

/-! ## Readers -/

/-- A reader takes characters from the front of a text. -/
abbrev Reader := StateT (List Char) (Except Stop)

def bytes (cs : List Char) : Nat := cs.foldl (fun n c => n + c.utf8Size) 0

variable {β : Type}

/-- Stops in front of the next character. -/
def stop (flaw : Flaw) : Reader β := fun cs => .error ⟨.grammar flaw, bytes cs⟩

/-- Stops behind the first byte of the next character. -/
def stopAtNext (flaw : Flaw) : Reader β := fun cs => .error ⟨.grammar flaw, bytes cs - 1⟩

/-- Stops because something else is wanted than what has just been read. -/
def refuse (error : DecodeError) : Reader β := fun cs => .error ⟨.shape error, bytes cs⟩

def peek : Reader (Option Char) := fun cs => .ok (cs.head?, cs)

/-- Takes one character. -/
def next : Reader Unit := fun cs => .ok ((), cs.drop 1)

def isSpace (c : Char) : Bool := c = ' ' || c = '\n' || c = '\t' || c = '\r'

/-- Passes over spaces, then looks at the next character. -/
def look : Reader (Option Char) := fun cs =>
  let cs := cs.dropWhile isSpace
  .ok (cs.head?, cs)

/-- Takes the next character if it is `c`. -/
def accept (c : Char) : Reader Unit := fun cs =>
  .ok ((), if cs.head? = some c then cs.drop 1 else cs)

/-- Repeats a step with enough fuel for one step on each character. -/
def repeated (loop : Nat → Reader β) : Reader β := fun cs => loop (cs.length + 1) cs

/-- Nothing but spaces is left. -/
def finish : Reader Unit := do
  if (← look).isSome then stopAtNext .trailingText

end DiagramPress.Data.Json
