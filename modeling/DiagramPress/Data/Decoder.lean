-- Reading values of known shapes from trees: texts, numbers, lists, words of
-- a vocabulary, and records, which may be written as objects or as rows.
import DiagramPress.Data.Json.Number
import DiagramPress.Data.Json5
import DiagramPress.Number.Single

namespace DiagramPress.Data

/-! ## Tokens of numbers -/

namespace Token

/-- The sign of a token and the rest of it. -/
def unsigned : List Char → Bool × List Char
  | '-' :: rest => (true, rest)
  | '+' :: rest => (false, rest)
  | cs => (false, cs)

/-- The digits after the mark of a hexadecimal token. -/
def hexDigits? : List Char → Option (List Char)
  | '0' :: x :: d :: rest => if x = 'x' ∨ x = 'X' then some (d :: rest) else none
  | _ => none

def isWord (token : List Char) : Bool :=
  token = "Infinity".toList || token = "-Infinity".toList || token = "NaN".toList ||
    token = "-NaN".toList

/-- The token has neither a point nor an exponent, so it is read as an integer
where no float is wanted. -/
def isInteger (token : List Char) : Bool :=
  !token.contains '.' &&
    ((hexDigits? token).isSome || (!token.contains 'e' && !token.contains 'E')) &&
    !isWord token

/-- A hexadecimal token of at most 32 bits. -/
def hex (ds : List Char) : Except DecodeError Nat :=
  if ds.all Markup.isHexDigit ∧ Markup.readNumber 16 ds < Nat.pow 2 32 then
    .ok (Markup.readNumber 16 ds)
  else .error .badHex

/-- A decimal token as a sign and the nearest number of twice the digits. -/
def double (token : List Char) : Except DecodeError (Bool × Binary) :=
  let (negative, body) := unsigned token
  match Decimal.read? body with
  | some d =>
    match d.toBinary .double with
    | some b => .ok (negative, b)
    | none => .error .numberTooLarge
  | none => .error (if (Single.word? body).isSome then .numberTooLarge else .badNumber)

/-- A token of JSON5 as the number it stands for. -/
def json5Number (token : List Char) : Except DecodeError FloatParts :=
  if token = "Infinity".toList then .ok (.infinite false)
  else if token = "-Infinity".toList then .ok (.infinite true)
  else if token = "NaN".toList ∨ token = "-NaN".toList then .ok .nan
  else
    match hexDigits? token with
    | some ds => (hex ds).map fun n => .finite false ⟨n, 0⟩
    | none => (double token).map fun (negative, b) => .finite negative b

/-- A signed decimal integer of at most 64 bits. -/
def json5Integer (token : List Char) : Except DecodeError Int :=
  match hexDigits? token with
  | some ds => (hex ds).map Int.ofNat
  | none =>
    let (negative, body) := unsigned token
    if body.isEmpty || !body.all Char.isDigit then .error .badInteger
    else
      let n := Decimal.readDigits 0 body
      if negative then
        if n ≤ Nat.pow 2 63 then .ok (-(n : Int)) else .error .badInteger
      else if n < Nat.pow 2 63 then .ok n
      else .error .badInteger

/-- A float for a message, with a point in it. -/
def pointed (negative : Bool) (digits : List Char) : String :=
  Single.signed negative (if digits.contains '.' then digits else digits ++ ['.', '0'])

/-- What a token stands for where no number is wanted. -/
def found (format : Format) (token : List Char) : Except DecodeError Found :=
  match format with
  | .json5 =>
    if isInteger token then (json5Integer token).map .integer
    else
      (json5Number token).map fun
        | .nan => .floating "NaN"
        | .infinite negative => .floating (if negative then "-inf" else "inf")
        | .finite negative b =>
          .floating (pointed negative (Decimal.shortest .double .up b).positional)
  | .json =>
    match Json.Number.ofToken token with
    | .ok n => .ok n.found
    | .error _ => .error .grammar

end Token

/-! ## What stands there -/

namespace Format

/-- What a tree is, for a message. -/
def describe (format : Format) : Value → Except DecodeError Found
  | .null => .ok (.nothing (if format = .json5 then "unit value" else "null"))
  | .boolean b => .ok (.boolean b)
  | .number token => Token.found format token
  | .string content => content.map .string
  | .array _ => .ok .sequence
  | .object _ => .ok .map

/-- The error that something else stands where `wanted` belongs. -/
def mismatch {β : Type} (format : Format) (t : Value) (wanted : String) : Except DecodeError β :=
  (format.describe t).bind fun found => .error (.wrongType found wanted)

mutual

/-- Passes over a tree. JSON5 still reads every text and number in it. -/
def pass (format : Format) : Value → Except DecodeError Unit
  | .array items => passItems format items
  | .object fields => passFields format fields
  | .number token =>
    if format = .json5 then (Token.found format token).map fun _ => () else .ok ()
  | .string content => if format = .json5 then content.map fun _ => () else .ok ()
  | _ => .ok ()

def passItems (format : Format) : List Value → Except DecodeError Unit
  | [] => .ok ()
  | t :: rest => (pass format t).bind fun _ => passItems format rest

def passFields (format : Format) :
    List (Except DecodeError String × Value) → Except DecodeError Unit
  | [] => .ok ()
  | (key, t) :: rest =>
    (if format = .json5 then key.map fun _ => () else .ok ()).bind fun _ =>
      (pass format t).bind fun _ => passFields format rest

end

/-! ## Plain values -/

def string (format : Format) : Value → Except DecodeError String
  | .string content => content
  | t => format.mismatch t "a string"

def boolean (format : Format) : Value → Except DecodeError Bool
  | .boolean b => .ok b
  | t => format.mismatch t "a boolean"

/-- A 32-bit float. JSON5 rounds twice, by way of the longer format, and so
does JSON for what is no integer. -/
def single (format : Format) (t : Value) : Except DecodeError Float32 :=
  let ofParts : FloatParts → Float32
    | .finite negative b => Single.ofBinary negative b
    | parts => Single.ofParts parts
  match format, t with
  | .json5, .number token => (Token.json5Number token).map ofParts
  | .json5, _ => .error .badNumber
  | .json, .number token =>
    match Json.Number.ofToken token with
    | .ok n => .ok n.single
    | .error _ => .error .grammar
  | .json, t => format.mismatch t "f32"

/-- Nothing where `null` stands, else what `read` reads. -/
def option {β : Type} (read : Value → Except DecodeError β) : Value → Except DecodeError (Option β)
  | .null => .ok none
  | t => (read t).map some

def list {β : Type} (format : Format) (read : Value → Except DecodeError β) :
    Value → Except DecodeError (List β)
  | .array items => items.mapM read
  | t => format.mismatch t "a sequence"

/-- A map from texts to texts; of two values of a key the later one counts. -/
def textMap (format : Format) : Value → Except DecodeError (List (String × String))
  | .object fields =>
    fields.mapM fun (key, t) =>
      key.bind fun key => (format.string t).map fun value => (key, value)
  | t => format.mismatch t "a map"

/-- A word of a vocabulary: a string, or the first key of an object. -/
def word {β : Type} (wordOf : β → String) (all : List β) (t : Value) : Except DecodeError β :=
  let ofName (name : String) : Except DecodeError β :=
    match all.find? fun b => wordOf b = name with
    | some b => .ok b
    | none => .error (.unknownVariant name (all.map wordOf))
  match t with
  | .string content => content.bind ofName
  | .object ((key, _) :: _) => key.bind ofName
  | .object [] => .error .emptyVariant
  | _ => .error .noVariant

end Format

/-! ## Records -/

/-- How one field of a record is read into a draft of type `σ`. -/
structure FieldReader (σ : Type) where
  name : String
  /-- The field may be left off at the end of a row. -/
  canLeaveOff : Bool
  isSet : σ → Bool
  read : Value → σ → Except DecodeError σ

/-- A field that is kept as an option in the draft. -/
def FieldReader.of {σ β : Type} (name : String) (canLeaveOff : Bool) (get : σ → Option β)
    (set : σ → β → σ) (read : Value → Except DecodeError β) : FieldReader σ where
  name := name
  canLeaveOff := canLeaveOff
  isSet draft := (get draft).isSome
  read t draft := (read t).map (set draft)

namespace Format

/-- Reads the fields of an object in the order in which they stand. Unknown
ones are passed over, and none may stand twice. -/
def readFields {σ : Type} (format : Format) (known : List (FieldReader σ)) :
    List (Except DecodeError String × Value) → σ → Except DecodeError σ
  | [], draft => .ok draft
  | (key, t) :: rest, draft =>
    key.bind fun key =>
      match known.find? fun f => f.name = key with
      | none => (format.pass t).bind fun _ => readFields format known rest draft
      | some f =>
        if f.isSet draft then .error (.duplicateField key)
        else (f.read t draft).bind fun draft => readFields format known rest draft

/-- Reads the fields of a row in the order in which they are declared. -/
def readRow {σ : Type} (format : Format) (wanted : String) (items : List Value) :
    Nat → List (FieldReader σ) → List Value → σ → Except DecodeError σ
  | index, f :: known, [], draft =>
    if f.canLeaveOff then readRow format wanted items (index + 1) known [] draft
    else .error (.wrongLength index wanted)
  | index, f :: known, t :: rest, draft =>
    (f.read t draft).bind fun draft => readRow format wanted items (index + 1) known rest draft
  | _, [], [], draft => .ok draft
  | _, [], _ :: _, draft =>
    match format with
    | .json5 => .ok draft
    | .json => .error (.tooManyItems items.length)

/-- Reads a record into a draft. `name` is how messages call it. -/
def record {σ : Type} (format : Format) (name : String) (known : List (FieldReader σ)) (draft : σ) :
    Value → Except DecodeError σ
  | .object fields => format.readFields known fields draft
  | .array items =>
    let elements := if known.length = 1 then " element" else " elements"
    let wanted := "struct " ++ name ++ " with " ++ toString known.length ++ elements
    format.readRow wanted items 0 known items draft
  | t => format.mismatch t ("struct " ++ name)

end Format

end DiagramPress.Data
