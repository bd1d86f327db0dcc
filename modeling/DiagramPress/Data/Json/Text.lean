-- Strings and words in JSON.
import DiagramPress.Data.Json.Stop
import DiagramPress.Text.Surrogate

namespace DiagramPress.Data.Json

/-! ## Escapes -/

/-- The character of an escape that is not a number. -/
def escaped? (c : Char) : Option Char :=
  if c = '\"' ∨ c = '\\' ∨ c = '/' then some c
  else if c = 'b' then some '\x08'
  else if c = 'f' then some '\x0c'
  else if c = 'n' then some '\n'
  else if c = 'r' then some '\r'
  else if c = 't' then some '\t'
  else none

/-- Takes four hexadecimal digits. Any four bytes are taken for them before
they are looked at. -/
def hex4 : Reader Nat := fun cs =>
  match Text.hex4? cs with
  | some (n, rest) => .ok (n, rest)
  | none =>
    if bytes cs < 4 then .error ⟨.grammar .endOfString, 0⟩
    else .error ⟨.grammar .badEscape, bytes cs - 4⟩

/-- Takes the character `c` inside a pair of surrogates. -/
def inPair (c : Char) : Reader Unit := do
  match ← peek with
  | none => stop .endOfString
  | some d => if d = c then next else stopAtNext .halfPair

/-- Takes what follows the letter of a numbered escape. -/
def numbered : Reader Char := do
  let n ← hex4
  if Text.isTrail n then stop .loneSurrogate
  else if Text.isLead n then
    inPair '\\'
    inPair 'u'
    let trail ← hex4
    if Text.isTrail trail then return Text.ofSurrogates n trail else stop .loneSurrogate
  else return Char.ofNat n

/-- Takes what follows a backslash. -/
def escape : Reader Char := do
  match ← peek with
  | none => stop .endOfString
  | some 'u' =>
    next
    numbered
  | some c =>
    match escaped? c with
    | some value =>
      next
      return value
    | none => stopAtNext .badEscape

/-- Passes over what follows a backslash; a number need not be a character. -/
def passEscape : Reader Unit := do
  match ← peek with
  | none => stop .endOfString
  | some 'u' =>
    next
    let _ ← hex4
  | some c => if (escaped? c).isSome then next else stopAtNext .badEscape

/-! ## Strings -/

/-- A character that has to be escaped. -/
def isControl (c : Char) : Bool := c.toNat < 0x20

/-- Takes characters up to the closing quote, and the quote. -/
def charsFrom : Nat → Reader (List Char)
  | 0 => stop .endOfString
  | fuel + 1 => do
    match ← peek with
    | none => stop .endOfString
    | some '\"' =>
      next
      return []
    | some '\\' =>
      next
      let c ← escape
      return c :: (← charsFrom fuel)
    | some c =>
      next
      if isControl c then stop .controlCharacter else return c :: (← charsFrom fuel)

/-- Takes a string after its opening quote. -/
def string : Reader String := do
  return String.ofList (← repeated charsFrom)

/-- Passes over characters up to the closing quote, and over the quote. -/
def passCharsFrom : Nat → Reader Unit
  | 0 => stop .endOfString
  | fuel + 1 => do
    match ← peek with
    | none => stop .endOfString
    | some '\"' => next
    | some '\\' =>
      next
      passEscape
      passCharsFrom fuel
    | some c =>
      if isControl c then stop .controlCharacter
      else
        next
        passCharsFrom fuel

/-- Passes over a string after its opening quote. -/
def passString : Reader Unit := repeated passCharsFrom

/-! ## Words -/

/-- Takes the characters of a word. -/
def word : List Char → Reader Unit
  | [] => return ()
  | c :: rest => do
    match ← peek with
    | none => stop .endOfValue
    | some d =>
      if d = c then
        next
        word rest
      else stopAtNext .unknownWord

end DiagramPress.Data.Json
