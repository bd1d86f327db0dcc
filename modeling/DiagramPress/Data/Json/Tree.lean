-- Reading a JSON text as a tree.
import DiagramPress.Data.Json.Reader

namespace DiagramPress.Data.Json

/-- Takes the token of a number. -/
def numberToken : Reader (List Char) := fun cs =>
  (number cs).map fun (_, rest) => (cs.take (cs.length - rest.length), rest)

mutual

/-- Reads any value. -/
def treeFrom : Nat → Reader Value
  | 0 => stop .endOfValue
  | fuel + 1 => do
    match ← look with
    | none => stopAtNext .endOfValue
    | some 'n' =>
      word "null".toList
      return .null
    | some 't' =>
      word "true".toList
      return .boolean true
    | some 'f' =>
      word "false".toList
      return .boolean false
    | some '\"' =>
      next
      return .string (.ok (← string))
    | some '[' =>
      next
      return .array (← itemsFrom fuel true)
    | some '\x7b' =>
      next
      return .object (← namedFrom fuel true)
    | some c =>
      if isStartOfNumber c then return .number (← numberToken) else stopAtNext .noValue

/-- Reads the items of a list and the bracket. -/
def itemsFrom : Nat → Bool → Reader (List Value)
  | 0, _ => stop .endOfList
  | fuel + 1, first => do
    if ← toItem first then
      let item ← treeFrom fuel
      return item :: (← itemsFrom fuel false)
    else
      next
      return []

/-- Reads the fields of an object and the brace. -/
def namedFrom : Nat → Bool → Reader (List (Except DecodeError String × Value))
  | 0, _ => stop .endOfObject
  | fuel + 1, first => do
    match ← toKey first with
    | none =>
      next
      return []
    | some key =>
      colon
      let value ← treeFrom fuel
      return (.ok key, value) :: (← namedFrom fuel false)

end

/-- The tree of a text. -/
def parse (text : String) : Except Stop Value :=
  run (fun cs => treeFrom (2 * cs.length + 2) cs) text

end DiagramPress.Data.Json
