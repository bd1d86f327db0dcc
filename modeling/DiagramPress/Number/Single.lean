-- 32-bit floats as the scalars of a drawing: their parts, how they are
-- rounded from decimals, and how they are written and read.
import DiagramPress.Number.Scalar
import DiagramPress.Number.Decimal

namespace DiagramPress

/-! ## The parts of a float -/

/-- What the bits of a float stand for. -/
inductive FloatParts where
  | nan
  | infinite (negative : Bool)
  | finite (negative : Bool) (value : Binary)
deriving DecidableEq, Repr

namespace Single

/-- The sign, and the mantissa with its exponent. -/
def parts (x : Float32) : FloatParts :=
  let bits := x.toBits.toNat
  let negative := decide (bits / Nat.pow 2 31 = 1)
  let field : Nat := bits / Nat.pow 2 23 % Nat.pow 2 8
  let fraction : Nat := bits % Nat.pow 2 23
  if field = 255 then
    if fraction = 0 then .infinite negative else .nan
  else if field = 0 then .finite negative ⟨fraction, -149⟩
  else .finite negative ⟨Nat.pow 2 23 + fraction, (field : Int) - 150⟩

/-- The bits without the sign of a number that the format holds. -/
def magnitudeBits (b : Binary) : Nat :=
  if b.mantissa < Nat.pow 2 23 then b.mantissa
  else (b.exponent + 150).toNat * Nat.pow 2 23 + (b.mantissa - Nat.pow 2 23)

/-- The float that the parts describe. -/
def ofParts : FloatParts → Float32
  | .nan => Float32.ofBits 0x7fc00000
  | .infinite negative => Float32.ofBits (if negative then 0xff800000 else 0x7f800000)
  | .finite negative b =>
    Float32.ofBits (UInt32.ofNat ((if negative then Nat.pow 2 31 else 0) + magnitudeBits b))

/-- The float nearest to a fraction, infinite beyond the largest. -/
def ofRatio (negative : Bool) (num den : Nat) : Float32 :=
  match BinaryFormat.single.round num den with
  | some b => ofParts (.finite negative b)
  | none => ofParts (.infinite negative)

/-- The float nearest to a decimal, infinite beyond the largest. -/
def ofDecimal (negative : Bool) (d : Decimal) : Float32 :=
  match d.toBinary BinaryFormat.single with
  | some b => ofParts (.finite negative b)
  | none => ofParts (.infinite negative)

/-- The float nearest to a number of another format. -/
def ofBinary (negative : Bool) (b : Binary) : Float32 :=
  let (num, den) := b.toRatio
  ofRatio negative num den

def ofNat (n : Nat) : Float32 := ofRatio false n 1

/-- The nearest whole number, halves away from zero. -/
def round (x : Float32) : Float32 :=
  match parts x with
  | .finite negative b =>
    let (num, den) := b.toRatio
    ofRatio negative ((2 * num + den) / (2 * den)) 1
  | _ => x

/-- The least whole number that is not below. -/
def ceil (x : Float32) : Float32 :=
  match parts x with
  | .finite negative b =>
    let (num, den) := b.toRatio
    ofRatio negative (if negative then num / den else (num + den - 1) / den) 1
  | _ => x

/-- The largest count that a 64-bit word holds. -/
def greatestCount : Nat := Nat.pow 2 64 - 1

/-- The whole part of a positive number, at most `greatestCount`. -/
def wholePart (x : Float32) : Nat :=
  match parts x with
  | .finite false b => min (let (num, den) := b.toRatio; num / den) greatestCount
  | .infinite false => greatestCount
  | _ => 0

def isInfinite (x : Float32) : Bool :=
  match parts x with
  | .infinite _ => true
  | _ => false

/-- The root of the sum of squares, formed with twice the digits. One infinite
side makes the diagonal infinite, whatever the other one is. -/
def hypot (x y : Float32) : Float32 :=
  if isInfinite x || isInfinite y then ofParts (.infinite false)
  else
    let a := x.toFloat
    let b := y.toFloat
    (a * a + b * b).sqrt.toFloat32

/-- Compares the lengths of two stretches with twice the digits. -/
def shorter (a b : Float32 × Float32) : Bool :=
  decide (a.2.toFloat - a.1.toFloat < b.2.toFloat - b.1.toFloat)

end Single

instance : Scalar Float32 where
  decLt := inferInstance
  decLe := inferInstance
  ofNat := Single.ofNat
  sqrt := Float32.sqrt
  cos := Float32.cos
  sin := Float32.sin
  hypot := Single.hypot
  turn := Float32.ofBits 0x40c90fdb
  round := Single.round
  ceil := Single.ceil
  wholePart := Single.wholePart
  shorter := Single.shorter

/-! ## Text -/

namespace Single

/-- A minus sign before the text of a negative number. -/
def signed (negative : Bool) (text : List Char) : String :=
  String.ofList (if negative then '-' :: text else text)

/-- The fewest digits that read back, without an exponent. -/
def plain (x : Float32) : String :=
  match parts x with
  | .nan => "NaN"
  | .infinite negative => if negative then "-inf" else "inf"
  | .finite negative b => signed negative (Decimal.shortest .single .up b).positional

/-- The whole number a float stands for, if it is one below 10^9 in size. -/
def smallWhole? (b : Binary) : Option Nat :=
  let (num, den) := b.toRatio
  if num % den = 0 ∧ num / den < Nat.pow 10 9 then some (num / den) else none

/-- As `plain`, but whole numbers below 10^9 are written exactly, and zero without a sign. -/
def brief (x : Float32) : String :=
  match parts x with
  | .finite negative b =>
    match smallWhole? b with
    | some n => signed (negative && n ≠ 0) (Decimal.digits n)
    | none => plain x
  | _ => plain x

/-- A fixed number of digits after the point. -/
def fixed (places : Nat) (x : Float32) : String :=
  match parts x with
  | .finite negative b =>
    let (num, den) := b.toRatio
    signed negative (Decimal.fixed places num den)
  | _ => plain x

/-- The form in a JSON document, which has no text for what is not finite. -/
def json (x : Float32) : String :=
  match parts x with
  | .finite negative b =>
    signed negative ((Decimal.shortest .single .even b).json (-6) 13)
  | _ => "null"

/-- The words that stand for a value without digits. -/
def word? (text : List Char) : Option FloatParts :=
  let lower := String.ofList (text.map Char.toLower)
  if lower = "inf" ∨ lower = "infinity" then some (.infinite false)
  else if lower = "nan" then some .nan
  else none

/-- Reads a float: a sign if wanted, then a decimal literal or a word. -/
def read? (text : String) : Option Float32 :=
  let (negative, body) :=
    match text.toList with
    | '-' :: rest => (true, rest)
    | '+' :: rest => (false, rest)
    | rest => (false, rest)
  match word? body with
  | some .nan => some (ofParts .nan)
  | some _ => some (ofParts (.infinite negative))
  | none => (Decimal.read? body).map (ofDecimal negative)

end Single

instance : NumberText Float32 where
  plain := Single.plain
  brief := Single.brief
  fixed := Single.fixed
  json := Single.json
  read? := Single.read?

end DiagramPress
