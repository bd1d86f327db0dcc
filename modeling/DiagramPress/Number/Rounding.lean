-- Rounding an exact fraction to a binary format: the nearest number with a
-- bounded count of binary digits, a tie going to the even one.

namespace DiagramPress

/-! ## Whole numbers nearest to a fraction -/

/-- The whole number nearest to `num / den`; of two the even one. -/
def nearestEven (num den : Nat) : Nat :=
  let q := num / den
  let r := num % den
  if 2 * r < den then q
  else if den < 2 * r then q + 1
  else q + q % 2

/-- `num / den` divided by `base ^ e`, again as a fraction. -/
def shrinkBy (base : Nat) (e : Int) (num den : Nat) : Nat × Nat :=
  match e with
  | .ofNat k => (num, den * Nat.pow base k)
  | .negSucc k => (num * Nat.pow base (k + 1), den)

/-! ## Binary formats -/

/-- `mantissa * 2 ^ exponent`. -/
structure Binary where
  mantissa : Nat
  exponent : Int
deriving DecidableEq, Repr

namespace Binary

/-- The value as a fraction. -/
def toRatio (b : Binary) : Nat × Nat := shrinkBy 2 (-b.exponent) b.mantissa 1

end Binary

/-- A binary format: how many digits a mantissa has, and between which
exponents its last digit may stand. -/
structure BinaryFormat where
  precision : Nat
  leastExponent : Int
  greatestExponent : Int

namespace BinaryFormat

def single : BinaryFormat := ⟨24, -149, 104⟩

def double : BinaryFormat := ⟨53, -1074, 971⟩

/-- The exponent of the leading binary digit of a positive fraction. -/
def leadingExponent (num den : Nat) : Int :=
  let k : Int := (num.log2 : Int) - (den.log2 : Int)
  let (n, d) := shrinkBy 2 k num den
  if n < d then k - 1 else k

/-- The number of the format nearest to `num / den`, or `none` beyond the
largest one. -/
def round (f : BinaryFormat) (num den : Nat) : Option Binary :=
  if num = 0 then some ⟨0, f.leastExponent⟩
  else
    let e := max f.leastExponent (leadingExponent num den - (f.precision - 1))
    let (n, d) := shrinkBy 2 e num den
    let m := nearestEven n d
    let b : Binary := if m = Nat.pow 2 f.precision then ⟨Nat.pow 2 (f.precision - 1), e + 1⟩ else ⟨m, e⟩
    if f.greatestExponent < b.exponent then none else some b

end BinaryFormat

end DiagramPress
