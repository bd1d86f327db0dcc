-- The grammar of JSON5: JSON with comments, trailing commas, bare keys, more
-- kinds of numbers and either kind of quotes.
import DiagramPress.Data.Value
import DiagramPress.Text.Category
import DiagramPress.Text.Surrogate
import DiagramPress.Text.Words

namespace DiagramPress.Data.Json5

/-! ## Characters -/

def isLineEnd (c : Char) : Bool :=
  c = '\n' || c = '\r' || c.toNat = 0x2028 || c.toNat = 0x2029

/-- Blanks between tokens: tabs, spaces of every width, the byte order mark
and the ends of lines. -/
def isSpace (c : Char) : Bool :=
  let n := c.toNat
  isLineEnd c || n = 0x09 || n = 0x0B || n = 0x0C || n = 0x20 || n = 0xA0 || n = 0xFEFF ||
    n = 0x1680 || (0x2000 ≤ n && n ≤ 0x200A) || n = 0x202F || n = 0x205F || n = 0x3000

def startsName (c : Char) : Bool :=
  if c.toNat < 0x80 then c.isAlpha || c = '$' || c = '_'
  else Text.inRanges Text.letters c

def continuesName (c : Char) : Bool :=
  if c.toNat < 0x80 then c.isAlphanum || c = '$' || c = '_' || c = '^' || c.toNat = 0x60
  else
    startsName c || Text.isJoinControl c || Text.inRanges Text.nonspacingMarks c ||
      Text.inRanges Text.diacritics c || Text.inRanges Text.digits c ||
      Text.inRanges Text.connectors c

/-! ## Blanks and comments -/

/-- What follows the end of a block comment. -/
def afterBlock? : List Char → Option (List Char)
  | [] => none
  | '*' :: '/' :: rest => some rest
  | _ :: rest => afterBlock? rest

/-- Drops blanks and comments. A block comment that is never closed is none. -/
def skip : Nat → List Char → List Char
  | 0, cs => cs
  | fuel + 1, cs =>
    match cs.dropWhile isSpace with
    | '/' :: '/' :: rest => skip fuel (rest.dropWhile fun c => !isLineEnd c)
    | '/' :: '*' :: rest =>
      match afterBlock? rest with
      | some rest => skip fuel rest
      | none => '/' :: '*' :: rest
    | cs => cs

/-- Drops all blanks and comments; each comment is at least two characters. -/
def trimmed (cs : List Char) : List Char := skip (cs.length + 1) cs

/-! ## Strings and names -/

/-- A piece of a string or a name, as it was written. -/
inductive Piece where
  | plain (c : Char)
  | escaped (c : Char)
  | nul
  | hex (n : Nat)
  | code (n : Nat)

namespace Piece

/-- The piece read as a hexadecimal number, as the second half of a pair is. -/
def number? : Piece → Option Nat
  | plain c => if Markup.isHexDigit c then some (Markup.hexDigit c) else none
  | escaped c => if Markup.isHexDigit c then some (Markup.hexDigit c) else none
  | nul => some 0
  | hex n => some n
  | code n => some n

/-- The character of an escape that is not a number. -/
def unescaped (c : Char) : Char :=
  if c = 'b' then '\x08'
  else if c = 'f' then '\x0c'
  else if c = 'n' then '\n'
  else if c = 'r' then '\r'
  else if c = 't' then '\t'
  else if c = 'v' then '\x0b'
  else c

/-- The text of the pieces; surrogates have to come in pairs. -/
def text : List Piece → Except DecodeError (List Char)
  | [] => .ok []
  | plain c :: rest => (text rest).map (c :: ·)
  | escaped c :: rest => (text rest).map (unescaped c :: ·)
  | nul :: rest => (text rest).map ('\x00' :: ·)
  | hex n :: rest => (text rest).map (Char.ofNat n :: ·)
  | [code n] =>
    if Text.isTrail n then .error .strayTrailSurrogate
    else if Text.isLead n then .error .missingTrailSurrogate
    else .ok [Char.ofNat n]
  | code n :: next :: rest =>
    if Text.isTrail n then .error .strayTrailSurrogate
    else if Text.isLead n then
      match next.number? with
      | none => .error .badHex
      | some trail =>
        if Text.isTrail trail then (text rest).map (Text.ofSurrogates n trail :: ·)
        else .error .wantedTrailSurrogate
    else (text (next :: rest)).map (Char.ofNat n :: ·)

end Piece

/-- The piece of an escape, given what follows the backslash. -/
def escape? : List Char → Option (Piece × List Char)
  | 'u' :: rest => (Text.hex4? rest).map fun (n, rest) => (.code n, rest)
  | 'x' :: a :: b :: rest =>
    if Markup.isHexDigit a && Markup.isHexDigit b then
      some (.hex (Markup.readNumber 16 [a, b]), rest)
    else none
  | 'x' :: _ => none
  | '0' :: rest => some (.nul, rest)
  | c :: rest => if c.isDigit || isLineEnd c then none else some (.escaped c, rest)
  | [] => none

/-- The pieces of a string up to the closing quote. A backslash before the end
of a line joins the lines. -/
def string? (quote : Char) : Nat → List Char → Option (List Piece × List Char)
  | 0, _ => none
  | fuel + 1, cs =>
    match cs with
    | [] => none
    | '\\' :: '\r' :: '\n' :: rest => string? quote fuel rest
    | '\\' :: c :: rest =>
      if isLineEnd c then string? quote fuel rest
      else do
        let (piece, rest) ← escape? (c :: rest)
        let (pieces, rest) ← string? quote fuel rest
        some (piece :: pieces, rest)
    | c :: rest =>
      if c = quote then some ([], rest)
      else if c = '\\' || isLineEnd c then none
      else do
        let (pieces, rest) ← string? quote fuel rest
        some (.plain c :: pieces, rest)

/-- The pieces of a bare key from here on. -/
def nameRest : Nat → List Char → List Piece × List Char
  | 0, cs => ([], cs)
  | fuel + 1, cs =>
    match cs with
    | '\\' :: 'u' :: rest =>
      match Text.hex4? rest with
      | some (n, rest) =>
        let (pieces, rest) := nameRest fuel rest
        (.code n :: pieces, rest)
      | none => ([], cs)
    | c :: rest =>
      if continuesName c then
        let (pieces, rest) := nameRest fuel rest
        (.plain c :: pieces, rest)
      else ([], cs)
    | [] => ([], cs)

/-- A bare key: it starts with a letter, a dollar sign or an underscore. -/
def name? (cs : List Char) : Option (List Piece × List Char) :=
  let starts :=
    match cs with
    | '\\' :: 'u' :: rest => (Text.hex4? rest).isSome
    | c :: _ => startsName c
    | [] => false
  if starts then some (nameRest cs.length cs) else none

/-- A quoted or bare key, or the pieces of a quoted string. -/
def quoted? (cs : List Char) : Option (List Piece × List Char) :=
  match cs with
  | '\"' :: rest => string? '\"' (rest.length + 1) rest
  | '\x27' :: rest => string? '\x27' (rest.length + 1) rest
  | _ => none

def content (pieces : List Piece) : Except DecodeError String :=
  (Piece.text pieces).map String.ofList

/-! ## Numbers -/

/-- Splits off a run of digits, at least one. -/
def digits? (cs : List Char) : Option (List Char × List Char) :=
  let ds := cs.takeWhile Char.isDigit
  if ds.isEmpty then none else some (ds, cs.drop ds.length)

/-- The letter of an exponent and its sign. -/
def exponentSign? : List Char → Option (List Char × List Char)
  | e :: rest =>
    if e = 'e' ∨ e = 'E' then
      match rest with
      | '+' :: rest => some ([e, '+'], rest)
      | '-' :: rest => some ([e, '-'], rest)
      | _ => some ([e], rest)
    else none
  | [] => none

/-- An exponent, if a whole one stands here. -/
def exponent (cs : List Char) : List Char × List Char :=
  let found := (exponentSign? cs).bind fun (sign, rest) =>
    (digits? rest).map fun (ds, rest) => (sign ++ ds, rest)
  found.getD ([], cs)

/-- The whole part of a decimal: a zero, or digits that start with none. -/
def whole? : List Char → Option (List Char × List Char)
  | '0' :: rest => some (['0'], rest)
  | cs => digits? cs

/-- A number without its sign. -/
def unsigned? (cs : List Char) : Option (List Char × List Char) :=
  let hex :=
    match cs with
    | '0' :: x :: rest =>
      let ds := rest.takeWhile Markup.isHexDigit
      if (x = 'x' || x = 'X') && !ds.isEmpty then some ('0' :: x :: ds, rest.drop ds.length)
      else none
    | _ => none
  let word (w : String) := (Text.after? w.toList cs).map fun rest => (w.toList, rest)
  let pointed :=
    match cs with
    | '.' :: rest => (digits? rest).map fun (ds, rest) =>
        let (e, rest) := exponent rest
        ('.' :: ds ++ e, rest)
    | _ => none
  let decimal := (whole? cs).map fun (ds, rest) =>
    match rest with
    | '.' :: rest =>
      let places := rest.takeWhile Char.isDigit
      let (e, rest) := exponent (rest.drop places.length)
      (ds ++ '.' :: places ++ e, rest)
    | _ =>
      let (e, rest) := exponent rest
      (ds ++ e, rest)
  hex.or (decimal.or (pointed.or ((word "Infinity").or (word "NaN"))))

/-- The token of a number; a sign stands right before it. -/
def number? (cs : List Char) : Option (List Char × List Char) :=
  match cs with
  | '+' :: rest => (unsigned? rest).map fun (token, rest) => ('+' :: token, rest)
  | '-' :: rest => (unsigned? rest).map fun (token, rest) => ('-' :: token, rest)
  | _ => unsigned? cs

/-! ## Values -/

mutual

/-- Reads one value that starts right here. Every step uses up a character, so
the fuel never runs out on a text that is shorter. -/
def value? : Nat → List Char → Option (Value × List Char)
  | 0, _ => none
  | fuel + 1, cs =>
    match cs with
    | '[' :: rest =>
      match trimmed rest with
      | ']' :: rest => some (.array [], rest)
      | rest => (items? fuel rest).map fun (items, rest) => (.array items, rest)
    | '\x7b' :: rest =>
      match trimmed rest with
      | '\x7d' :: rest => some (.object [], rest)
      | rest => (fields? fuel rest).map fun (fields, rest) => (.object fields, rest)
    | cs =>
      let word (w : String) (t : Value) := (Text.after? w.toList cs).map fun rest => (t, rest)
      let quoted := (quoted? cs).map fun (pieces, rest) => (Value.string (content pieces), rest)
      let number := (number? cs).map fun (token, rest) => (Value.number token, rest)
      (word "null" .null).or ((word "true" (.boolean true)).or
        ((word "false" (.boolean false)).or (quoted.or number)))

/-- The items of an array up to its closing bracket; a last comma may stand
before the bracket. -/
def items? : Nat → List Char → Option (List Value × List Char)
  | 0, _ => none
  | fuel + 1, cs => do
    let (item, rest) ← value? fuel cs
    match trimmed rest with
    | ']' :: rest => some ([item], rest)
    | ',' :: rest =>
      match trimmed rest with
      | ']' :: rest => some ([item], rest)
      | rest =>
        let (items, rest) ← items? fuel rest
        some (item :: items, rest)
    | _ => none

/-- The fields of an object up to its closing brace. -/
def fields? : Nat → List Char →
    Option (List (Except DecodeError String × Value) × List Char)
  | 0, _ => none
  | fuel + 1, cs => do
    let (pieces, rest) ← (name? cs).or (quoted? cs)
    match trimmed rest with
    | ':' :: rest =>
      let (v, rest) ← value? fuel (trimmed rest)
      let field := (content pieces, v)
      match trimmed rest with
      | '\x7d' :: rest => some ([field], rest)
      | ',' :: rest =>
        match trimmed rest with
        | '\x7d' :: rest => some ([field], rest)
        | rest =>
          let (fields, rest) ← fields? fuel rest
          some (field :: fields, rest)
      | _ => none
    | _ => none

end

/-- The tree of a text, if the text follows the grammar. -/
def parse? (text : String) : Option Value := do
  let cs := trimmed text.toList
  let (tree, rest) ← value? (2 * cs.length + 2) cs
  if (trimmed rest).isEmpty then some tree else none

end DiagramPress.Data.Json5
