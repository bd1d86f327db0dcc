-- Text inside markup: the five characters with a meaning of their own are
-- written as references, and references are read back as characters.

namespace DiagramPress.Markup

/-! ## References -/

/-- The names a reference may have after its ampersand, each with its semicolon. -/
def namedReferences : List (List Char × Char) :=
  [("amp;".toList, '&'), ("lt;".toList, '<'), ("gt;".toList, '>'),
    ("quot;".toList, '\"'), ("apos;".toList, '\x27')]

def isHexDigit (c : Char) : Bool :=
  c.isDigit || ('a' ≤ c && c ≤ 'f') || ('A' ≤ c && c ≤ 'F')

/-- The value of a hexadecimal digit. -/
def hexDigit (c : Char) : Nat :=
  if c.isDigit then c.toNat - '0'.toNat
  else if 'a' ≤ c then c.toNat - 'a'.toNat + 10
  else c.toNat - 'A'.toNat + 10

/-- The value of a run of digits to the base. -/
def readNumber (base : Nat) (cs : List Char) : Nat :=
  cs.foldl (fun n c => base * n + hexDigit c) 0

/-- A code point that is a character. -/
def charOf? (n : Nat) : Option Char :=
  if n.isValidChar then some (Char.ofNat n) else none

/-- What follows an ampersand, if it makes a reference: how many characters
it takes, and the character it stands for. A number that is no character
still makes a reference. -/
def reference? (after : List Char) : Option (Nat × Option Char) :=
  match namedReferences.find? fun (name, _) => name.isPrefixOf after with
  | some (name, c) => some (name.length, some c)
  | none =>
    match after with
    | '#' :: numeric =>
      let (lead, base, body) :=
        match numeric with
        | 'x' :: body => (2, 16, body)
        | 'X' :: body => (2, 16, body)
        | body => (1, 10, body)
      let ds := body.takeWhile fun c => if base = 16 then isHexDigit c else c.isDigit
      if ds.isEmpty then none
      else
        match body.drop ds.length with
        | ';' :: _ => some (lead + ds.length + 1, charOf? (readNumber base ds))
        | _ => none
    | _ => none

/-! ## Writing -/

/-- The text that stands for a character inside markup. -/
def escapeChar (c : Char) : List Char :=
  if c = '&' then "&amp;".toList
  else if c = '<' then "&lt;".toList
  else if c = '>' then "&gt;".toList
  else if c = '\"' then "&quot;".toList
  else if c = '\x27' then "&apos;".toList
  else [c]

/-- The text in the place of every occurrence of a character. -/
def replaceChar (c : Char) (text cs : List Char) : List Char :=
  cs.flatMap fun x => if x = c then text else [x]

/-- Every one of the five characters as a reference. The ampersands of the text go
first: those that come in later belong to references. -/
def escapeChars (cs : List Char) : List Char :=
  let cs := replaceChar '&' "&amp;".toList cs
  let cs := replaceChar '<' "&lt;".toList cs
  let cs := replaceChar '>' "&gt;".toList cs
  let cs := replaceChar '\"' "&quot;".toList cs
  replaceChar '\x27' "&apos;".toList cs

/-- As `escapeChars`, but an ampersand that already starts a reference stays. -/
def guardChars : List Char → List Char
  | [] => []
  | c :: rest =>
    if c = '&' ∧ (reference? rest).isSome then '&' :: guardChars rest
    else escapeChar c ++ guardChars rest

/-! ## Reading -/

/-- Reads the references after the next `skip` characters, which a reference
before them has used up. -/
def unescapeAfter : Nat → List Char → List Char
  | _, [] => []
  | skip + 1, _ :: rest => unescapeAfter skip rest
  | 0, c :: rest =>
    if c = '&' then
      match reference? rest with
      | some (length, some value) => value :: unescapeAfter length rest
      | _ => '&' :: unescapeAfter 0 rest
    else c :: unescapeAfter 0 rest

def unescapeChars (cs : List Char) : List Char := unescapeAfter 0 cs

/-- Some ampersand starts no reference. -/
def hasBareAmpersandChars : List Char → Bool
  | [] => false
  | c :: rest => (c = '&' && (reference? rest).isNone) || hasBareAmpersandChars rest

/-! ## On texts -/

/-- Writes the five reserved characters as references. -/
def escape (text : String) : String := String.ofList (escapeChars text.toList)

/-- Makes a text safe between quotes and leaves the references it holds alone. -/
def guard (text : String) : String := String.ofList (guardChars text.toList)

/-- Reads the references of a text. -/
def unescape (text : String) : String := String.ofList (unescapeChars text.toList)

/-- The text holds an ampersand that starts no reference. -/
def hasBareAmpersand (text : String) : Bool := hasBareAmpersandChars text.toList

end DiagramPress.Markup
