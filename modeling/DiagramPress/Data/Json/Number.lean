-- Numbers in JSON. Integers of 64 bits are exact; every other number is read
-- as a float of the longer format, its digits first and then its exponent.
import DiagramPress.Data.Json.Stop
import DiagramPress.Number.Single

namespace DiagramPress.Data.Json

/-! ## Values -/

inductive Number where
  | integer (n : Int)
  | floating (negative : Bool) (value : Binary)
deriving DecidableEq, Repr

namespace Number

/-- A float for a message, with a point in it. -/
def floatText (negative : Bool) (value : Binary) : String :=
  Single.signed negative ((Decimal.shortest .double .even value).json (-5) 16)

/-- What stands in the text, for a message. -/
def found : Number → Found
  | integer n => .integer n
  | floating negative value => .floating (floatText negative value)

/-- The nearest 32-bit float. -/
def single : Number → Float32
  | integer n => Single.ofRatio (decide (n < 0)) n.natAbs 1
  | floating negative value => Single.ofBinary negative value

end Number

/-! ## Digits and exponents -/

/-- Continues a count with digits as long as it fits 64 bits. Gives the digits
that are left as well. -/
def gather : Nat → List Char → Nat × List Char
  | n, [] => (n, [])
  | n, d :: ds =>
    let more := 10 * n + (d.toNat - '0'.toNat)
    if more < Nat.pow 2 64 then gather more ds else (n, d :: ds)

/-- The largest exponent of ten that one step can take off. -/
def greatestPower : Nat := 308

/-- The float nearest to a power of ten. -/
def powerOfTen (n : Nat) : Binary :=
  (BinaryFormat.double.round (Nat.pow 10 n) 1).getD ⟨0, 0⟩

/-- The rounded product with a power of ten, `none` beyond the largest float. -/
def scaledUp (value : Binary) (n : Nat) : Option Binary :=
  let (num, den) := value.toRatio
  let (power, one) := (powerOfTen n).toRatio
  BinaryFormat.double.round (num * power) (den * one)

/-- The rounded quotient by a power of ten. -/
def scaledDown (value : Binary) (n : Nat) : Option Binary :=
  let (num, den) := value.toRatio
  let (power, one) := (powerOfTen n).toRatio
  BinaryFormat.double.round (num * one) (den * power)

/-- Multiplies by ten to the exponent, `none` beyond the largest float. Two
steps of the greatest power bring every count of 64 bits down to zero. -/
def scale : Nat → Binary → Int → Option Binary
  | 0, value, _ => some value
  | fuel + 1, value, exponent =>
    if exponent.natAbs ≤ greatestPower then
      if 0 ≤ exponent then scaledUp value exponent.natAbs else scaledDown value exponent.natAbs
    else if value.mantissa = 0 then some value
    else if 0 ≤ exponent then none
    else (scaledDown value greatestPower).bind fun v => scale fuel v (exponent + greatestPower)

/-- The float of a count with an exponent. -/
def floatOf (count : Nat) (exponent : Int) : Option Binary :=
  (BinaryFormat.double.round count 1).bind fun value => scale 3 value exponent

/-! ## Reading -/

/-- Takes digits, perhaps none. -/
def digits : Reader (List Char) := fun cs =>
  .ok (cs.takeWhile Char.isDigit, cs.dropWhile Char.isDigit)

/-- Takes the whole part of a number. A zero stands alone. -/
def whole : Reader (List Char) := do
  match ← peek with
  | none => stop .endOfValue
  | some c =>
    if c = '0' then
      next
      if ((← peek).map Char.isDigit).getD false then stopAtNext .badNumber
      return ['0']
    else if c.isDigit then digits
    else stopAtNext .badNumber

/-- Takes a point with digits, if there is one. -/
def fraction : Reader (List Char) := do
  if (← peek) = some '.' then
    next
    let ds ← digits
    if ds.isEmpty then
      if (← peek).isSome then stopAtNext .badNumber else stop .endOfValue
    return ds
  else return []

/-- An exponent fits 31 bits. -/
def greatestExponent : Nat := Nat.pow 2 31 - 1

/-- How many of the digits are taken before their number is too large. -/
def fitting : Nat → List Char → Nat
  | _, [] => 0
  | n, d :: ds =>
    let more := 10 * n + (d.toNat - '0'.toNat)
    if more ≤ greatestExponent then fitting more ds + 1 else 0

/-- Takes an exponent, if there is one: its sign and its digits. -/
def exponent? : Reader (Option (Bool × List Char)) := do
  let letter ← peek
  if letter = some 'e' ∨ letter = some 'E' then
    next
    let sign ← peek
    if sign = some '+' ∨ sign = some '-' then next
    match ← peek with
    | none => stop .endOfValue
    | some c =>
      if c.isDigit then return some (sign = some '-', ← digits)
      else stopAtNext .badNumber
  else return none

/-- A number beyond all floats, found with so many digits of its exponent to go. -/
def tooLarge {β : Type} (ahead : Nat) : Reader β := fun cs =>
  .error ⟨.grammar .numberTooLarge, bytes cs + ahead⟩

/-- The float with the given digits. -/
def float (negative : Bool) (count : Nat) (shift : Int) (exponent : Option (Bool × List Char)) :
    Reader Number := do
  let ofScale (e : Int) : Reader Number :=
    match floatOf count e with
    | some value => return .floating negative value
    | none => tooLarge 0
  match exponent with
  | none => ofScale shift
  | some (down, ds) =>
    let fit := fitting 0 ds
    if fit = ds.length then
      let e : Int := Decimal.readDigits 0 ds
      ofScale (if down then shift - e else shift + e)
    else if count = 0 ∨ down then return .floating negative ⟨0, 0⟩
    else tooLarge (ds.length - fit - 1)

/-- Reads a number: an integer if it has neither a point nor an exponent and
fits 64 bits. A negative zero is no integer. -/
def number : Reader Number := do
  let negative := (← peek) = some '-'
  accept '-'
  let ds ← whole
  let point := (← peek) = some '.'
  let places ← fraction
  let exponent ← exponent?
  let (count, rest) := gather 0 ds
  if rest.isEmpty ∧ !point ∧ exponent.isNone then
    if !negative then return .integer count
    else if 0 < count ∧ count ≤ Nat.pow 2 63 then return .integer (-(count : Int))
    else float negative count 0 none
  else
    let (count, left) := gather count places
    float negative count ((rest.length : Int) - (places.length - left.length : Nat)) exponent

/-- The number of a token. -/
def Number.ofToken (token : List Char) : Except Stop Number := (number token).map (·.1)

end DiagramPress.Data.Json
