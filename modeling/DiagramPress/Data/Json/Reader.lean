-- Reading values of known shapes straight from a JSON text, and passing over
-- those that nobody asks for.
import DiagramPress.Data.Json.Number
import DiagramPress.Data.Json.Text

namespace DiagramPress.Data.Json

/-! ## Going through lists and objects -/

/-- Goes to the next item of a list, if there is one before the bracket. -/
def toItem (first : Bool) : Reader Bool := do
  match ← look with
  | none => stopAtNext .endOfList
  | some ']' => return false
  | some c =>
    if first then return true
    else if c = ',' then
      next
      match ← look with
      | none => stopAtNext .endOfValue
      | some ']' => stopAtNext .trailingComma
      | some _ => return true
    else stopAtNext .noListSeparator

/-- Takes the next key of an object, if there is one before the brace. -/
def toKey (first : Bool) : Reader (Option String) := do
  let key : Reader (Option String) := do
    next
    return some (← string)
  match ← look with
  | none => stopAtNext .endOfObject
  | some '\x7d' => return none
  | some c =>
    if first then
      if c = '\"' then key else stopAtNext .noKey
    else if c = ',' then
      next
      match ← look with
      | none => stopAtNext .endOfValue
      | some '\"' => key
      | some '\x7d' => stopAtNext .trailingComma
      | some _ => stopAtNext .noKey
    else stopAtNext .noObjectSeparator

/-- Takes the colon after a key. -/
def colon : Reader Unit := do
  match ← look with
  | none => stopAtNext .endOfObject
  | some ':' => next
  | some _ => stopAtNext .noColon

/-- Takes the bracket after the last item of a list. -/
def endList : Reader Unit := do
  match ← look with
  | none => stopAtNext .endOfList
  | some ']' => next
  | some ',' =>
    next
    if (← look) = some ']' then stopAtNext .trailingComma else stopAtNext .trailingText
  | some _ => stopAtNext .trailingText

/-- Passes over a number. -/
def passNumber : Reader Unit := do
  accept '-'
  match ← peek with
  | none => stop .badNumber
  | some c =>
    if c = '0' then
      next
      if ((← peek).map Char.isDigit).getD false then stopAtNext .badNumber
    else if c.isDigit then
      let _ ← digits
    else stopAtNext .badNumber
  if (← peek) = some '.' then
    next
    if (← digits).isEmpty then stopAtNext .badNumber
  let letter ← peek
  if letter = some 'e' ∨ letter = some 'E' then
    next
    let sign ← peek
    if sign = some '+' ∨ sign = some '-' then next
    if (← digits).isEmpty then stopAtNext .badNumber

def isStartOfNumber (c : Char) : Bool := c = '-' || c.isDigit

mutual

/-- Passes over a value. -/
def passFrom : Nat → Reader Unit
  | 0 => stop .endOfValue
  | fuel + 1 => do
    match ← look with
    | none => stopAtNext .endOfValue
    | some 'n' => word "null".toList
    | some 't' => word "true".toList
    | some 'f' => word "false".toList
    | some '\"' =>
      next
      passString
    | some '[' =>
      next
      match ← look with
      | none => stopAtNext .endOfList
      | some ']' => next
      | some _ => passItemsFrom fuel
    | some '\x7b' =>
      next
      match ← look with
      | none => stopAtNext .endOfObject
      | some '\x7d' => next
      | some _ => passFieldsFrom fuel
    | some c => if isStartOfNumber c then passNumber else stopAtNext .noValue

/-- Passes over the items of a list, at least one, and the bracket. -/
def passItemsFrom : Nat → Reader Unit
  | 0 => stop .endOfValue
  | fuel + 1 => do
    passFrom fuel
    match ← look with
    | none => stopAtNext .endOfList
    | some ']' => next
    | some ',' =>
      next
      passItemsFrom fuel
    | some _ => stopAtNext .noListSeparator

/-- Passes over the fields of an object, at least one, and the brace. -/
def passFieldsFrom : Nat → Reader Unit
  | 0 => stop .endOfValue
  | fuel + 1 => do
    match ← look with
    | none => stopAtNext .endOfObject
    | some '\"' => next
    | some _ => stopAtNext .noKey
    passString
    colon
    passFrom fuel
    match ← look with
    | none => stopAtNext .endOfObject
    | some '\x7d' => next
    | some ',' =>
      next
      passFieldsFrom fuel
    | some _ => stopAtNext .noObjectSeparator

end

/-- Passes over a value that nobody asks for. Every value takes a character,
so two steps for each are enough. -/
def pass : Reader Unit := fun cs => passFrom (2 * cs.length + 2) cs

/-! ## Plain values -/

/-- Reads what stands there instead of what is wanted. A list or an object is
not read for that. -/
def mismatch {β : Type} (wanted : String) : Reader β := do
  let wrong (found : Found) : Reader β := refuse (.wrongType found wanted)
  match ← peek with
  | none => stopAtNext .noValue
  | some 'n' =>
    word "null".toList
    wrong (.nothing "null")
  | some 't' =>
    word "true".toList
    wrong (.boolean true)
  | some 'f' =>
    word "false".toList
    wrong (.boolean false)
  | some '\"' =>
    next
    wrong (.string (← string))
  | some '[' => wrong .sequence
  | some '\x7b' => wrong .map
  | some c => if isStartOfNumber c then wrong (← number).found else stopAtNext .noValue

/-- Reads a value that begins with certain characters. -/
def expecting {β : Type} (begins : Char → Bool) (wanted : String) (read : Reader β) : Reader β := do
  match ← look with
  | none => stopAtNext .endOfValue
  | some c => if begins c then read else mismatch wanted

/-- Reads a text. -/
def text : Reader String :=
  expecting (· = '\"') "a string" do
    next
    string

/-- Reads a 32-bit float. -/
def single : Reader Float32 :=
  expecting isStartOfNumber "f32" do
    return (← number).single

/-- Reads a count of at most 64 bits. -/
def count : Reader Nat :=
  expecting isStartOfNumber "usize" do
    match ← number with
    | .integer n =>
      if n < 0 then refuse (.wrongValue (.integer n) "usize") else return n.toNat
    | n => refuse (.wrongType n.found "usize")

/-- Reads nothing where `null` stands. -/
def option {β : Type} (read : Reader β) : Reader (Option β) := do
  if (← look) = some 'n' then
    word "null".toList
    return none
  else return some (← read)

/-! ## Records -/

/-- How one field of a record is read into a draft of type `σ`. -/
structure FieldReader (σ : Type) where
  name : String
  isSet : σ → Bool
  read : σ → Reader σ

/-- A field that is kept as an option in the draft. -/
def FieldReader.of {σ β : Type} (name : String) (get : σ → Option β) (set : σ → β → σ)
    (read : Reader β) : FieldReader σ where
  name := name
  isSet draft := (get draft).isSome
  read draft := do return set draft (← read)

variable {σ β : Type}

/-- Reads the fields of an object in the order in which they stand. Unknown
ones are passed over, and none may stand twice. -/
def fieldsFrom (known : List (FieldReader σ)) : Nat → Bool → σ → Reader σ
  | 0, _, draft => return draft
  | fuel + 1, first, draft => do
    match ← toKey first with
    | none => return draft
    | some key =>
      match known.find? fun f => f.name = key with
      | none =>
        colon
        pass
        fieldsFrom known fuel false draft
      | some f =>
        if f.isSet draft then
          let _ ← look
          accept '\x7d'
          refuse (.duplicateField key)
        else
          colon
          fieldsFrom known fuel false (← f.read draft)

/-- Reads the items of a row in the order in which fields are declared. -/
def rowFrom (wanted : String) : Nat → List (FieldReader σ) → σ → Reader σ
  | _, [], draft => do
    endList
    return draft
  | index, f :: known, draft => do
    if ← toItem (index = 0) then rowFrom wanted (index + 1) known (← f.read draft)
    else
      next
      refuse (.wrongLength index wanted)

/-- How messages call a row that stands for a record. -/
def rowName (name : String) (fields : Nat) : String :=
  "struct " ++ name ++ " with " ++ toString fields ++ (if fields = 1 then " element" else " elements")

/-- Reads a record, written as an object or as a row, and completes its draft. -/
def record (name : String) (known : List (FieldReader σ)) (draft : σ)
    (complete : σ → Except DecodeError β) : Reader β := do
  let draft : σ ← expecting (fun c => c = '[' || c = '\x7b') ("struct " ++ name) do
    if (← peek) = some '[' then
      next
      rowFrom (rowName name known.length) 0 known draft
    else
      next
      let draft ← repeated fun fuel => fieldsFrom known fuel true draft
      next
      return draft
  match complete draft with
  | .ok b => return b
  | .error e => refuse e

/-- Reads a whole text. -/
def run (read : Reader β) (text : String) : Except Stop β :=
  ((do
    let b ← read
    finish
    return b : Reader β) text.toList).map (·.1)

end DiagramPress.Data.Json
