-- Decimal texts: reading a literal, the shortest digits of a binary number,
-- and the three ways the program lays digits out.
import DiagramPress.Number.Rounding

namespace DiagramPress

/-- `coefficient * 10 ^ exponent`. -/
structure Decimal where
  coefficient : Nat
  exponent : Int
deriving DecidableEq, Repr

namespace Decimal

/-! ## Digits -/

/-- The decimal digits of a whole number, the leading one first. -/
def digits (n : Nat) : List Char := Nat.toDigits 10 n

def zeros (n : Nat) : List Char := List.replicate n '0'

/-- Drops the zeros at the end of the coefficient, at most `fuel` of them. -/
def trimmed : Nat → Decimal → Decimal
  | 0, d => d
  | fuel + 1, d =>
    if d.coefficient ≠ 0 ∧ d.coefficient % 10 = 0 then
      trimmed fuel ⟨d.coefficient / 10, d.exponent + 1⟩
    else d

/-- The value of a run of decimal digits, continued from `acc`. -/
def readDigits (acc : Nat) (cs : List Char) : Nat :=
  cs.foldl (fun n c => 10 * n + (c.toNat - '0'.toNat)) acc

/-! ## Reading a literal -/

/-- The exponent part of a literal: a letter `e`, a sign if wanted, digits. -/
def readExponent? : List Char → Option Int
  | [] => some 0
  | e :: rest =>
    if e = 'e' ∨ e = 'E' then
      let (negative, ds) :=
        match rest with
        | '-' :: ds => (true, ds)
        | '+' :: ds => (false, ds)
        | ds => (false, ds)
      if ds.isEmpty ∨ !ds.all Char.isDigit then none
      else
        let n : Int := readDigits 0 ds
        some (if negative then -n else n)
    else none

/-- Reads an unsigned literal: digits with at most one point among them, at
least one digit in all, then an exponent if wanted. -/
def read? (cs : List Char) : Option Decimal :=
  let whole := cs.takeWhile Char.isDigit
  let rest := cs.dropWhile Char.isDigit
  let (places, rest) :=
    match rest with
    | '.' :: more => (more.takeWhile Char.isDigit, more.dropWhile Char.isDigit)
    | _ => ([], rest)
  if whole.isEmpty ∧ places.isEmpty then none
  else (readExponent? rest).map fun e =>
    ⟨readDigits 0 (whole ++ places), e - places.length⟩

/-! ## To a binary format -/

/-- A literal whose leading digit stands further out than this is zero or
beyond every format, so no power that large is ever formed. -/
def farthestPlace : Int := 400

/-- The number of the format nearest to the decimal, `none` beyond the largest. -/
def toBinary (f : BinaryFormat) (d : Decimal) : Option Binary :=
  let place := d.exponent + (digits d.coefficient).length
  if d.coefficient = 0 ∨ place < -farthestPlace then some ⟨0, f.leastExponent⟩
  else if farthestPlace < place then none
  else
    let (num, den) := shrinkBy 10 (-d.exponent) d.coefficient 1
    f.round num den

/-! ## The fewest digits that read back -/

/-- Where a value stands exactly between two candidates. -/
inductive Tie where
  | up
  | even

/-- The exponent of the leading decimal digit of a positive fraction. -/
def leadingPlace (num den : Nat) : Int :=
  if den ≤ num then ((digits (num / den)).length : Int) - 1
  else
    let len := (digits (den / num)).length
    if den ≤ num * Nat.pow 10 (len - 1) then 1 - (len : Int) else -(len : Int)

/-- The numbers that round to `b` reach from `low` to `high`, all three over
one denominator: `(low, value, high, den)`. Below a power of two the
neighbours stand twice as dense. -/
def neighbourhood (f : BinaryFormat) (b : Binary) : Nat × Nat × Nat × Nat :=
  let below :=
    if b.mantissa = Nat.pow 2 (f.precision - 1) ∧ f.leastExponent < b.exponent then 1 else 2
  let (scale, den) := (Binary.mk 1 (b.exponent - 2)).toRatio
  ((4 * b.mantissa - below) * scale, 4 * b.mantissa * scale, (4 * b.mantissa + 2) * scale, den)

/-- The decimal on the grid of `10 ^ place` that reads back as `b`, the nearer
one of two, if there is one. -/
def onGrid? (f : BinaryFormat) (tie : Tie) (b : Binary) (place : Int) : Option Decimal :=
  let (low, value, high, den) := neighbourhood f b
  let (v, d) := shrinkBy 10 place value den
  let lo := (shrinkBy 10 place low den).1
  let hi := (shrinkBy 10 place high den).1
  let inside (c : Nat) : Bool :=
    if b.mantissa % 2 = 0 then lo ≤ c * d && c * d ≤ hi else lo < c * d && c * d < hi
  let c := v / d
  match inside c, inside (c + 1) with
  | false, false => none
  | true, false => some ⟨c, place⟩
  | false, true => some ⟨c + 1, place⟩
  | true, true =>
    let r := v - c * d
    if 2 * r < d then some ⟨c, place⟩
    else if d < 2 * r then some ⟨c + 1, place⟩
    else match tie with
      | .up => some ⟨c + 1, place⟩
      | .even => some ⟨c + c % 2, place⟩

/-- The fewest decimal digits that read back as `b`: the coarsest grid with a
decimal that rounds to `b`. Seventeen digits are enough for every format here. -/
def shortest (f : BinaryFormat) (tie : Tie) (b : Binary) : Decimal :=
  if b.mantissa = 0 then ⟨0, 0⟩
  else
    let (num, den) := b.toRatio
    let top := leadingPlace num den
    match (List.range 17).findSome? (fun n : Nat => onGrid? f tie b (top - n)) with
    | some d => trimmed 20 d
    | none => ⟨b.mantissa, 0⟩

/-! ## Laying digits out -/

/-- The digits with the point in its place and no exponent. -/
def positional (d : Decimal) : List Char :=
  let ds := digits d.coefficient
  match d.exponent with
  | .ofNat k => if d.coefficient = 0 then ds else ds ++ zeros k
  | .negSucc k =>
    let places := k + 1
    if places < ds.length then
      ds.take (ds.length - places) ++ '.' :: ds.drop (ds.length - places)
    else
      '0' :: '.' :: zeros (places - ds.length) ++ ds

/-- A fraction with `places` digits after the point; a tie goes to the even digit. -/
def fixed (places num den : Nat) : List Char :=
  let ds := digits (nearestEven (num * Nat.pow 10 places) den)
  let ds := zeros (places + 1 - ds.length) ++ ds
  if places = 0 then ds
  else ds.take (ds.length - places) ++ '.' :: ds.drop (ds.length - places)

/-- One digit before the point, and the exponent with its sign. -/
def scientific (d : Decimal) : List Char :=
  let ds := digits d.coefficient
  let e := d.exponent + ds.length - 1
  let head :=
    match ds with
    | [c] => [c]
    | c :: rest => c :: '.' :: rest
    | [] => []
  head ++ 'e' :: (if e < 0 then '-' else '+') :: digits e.natAbs

/-- A number in a JSON document: positional, with at least one digit after the
point, while the point stands between the two places; otherwise scientific. -/
def json (lowest highest : Int) (d : Decimal) : List Char :=
  let point := d.exponent + (digits d.coefficient).length
  if d.coefficient = 0 then ['0', '.', '0']
  else if lowest < point ∧ point ≤ highest then
    if 0 ≤ d.exponent then positional d ++ ['.', '0'] else positional d
  else scientific d

end Decimal

end DiagramPress
