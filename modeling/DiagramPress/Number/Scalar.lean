-- The arithmetic a drawing is measured in. The geometry, the layouts and the
-- encoders are written once over any `Scalar`: the program runs them on
-- 32-bit floats, and their laws can be stated over an exact field.

namespace DiagramPress

/-- A number type with the operations that drawings need. Comparisons may be
false both ways, as they are for a float that is not a number. -/
class Scalar (α : Type) extends Add α, Sub α, Mul α, Div α, Neg α, LT α, LE α where
  decLt : DecidableLT α
  decLe : DecidableLE α
  ofNat : Nat → α
  sqrt : α → α
  cos : α → α
  sin : α → α
  /-- The length of the diagonal of a box. -/
  hypot : α → α → α
  /-- The angle of one full turn. -/
  turn : α
  /-- The nearest whole number, halves away from zero. -/
  round : α → α
  /-- The least whole number that is not below. -/
  ceil : α → α
  /-- The whole part of a positive number, and 0 for every other number. -/
  wholePart : α → Nat
  /-- The first stretch, from low to high, is shorter than the second. -/
  shorter : α × α → α × α → Bool

attribute [reducible, instance] Scalar.decLt Scalar.decLe

namespace Scalar

variable {α : Type} [Scalar α]

instance (priority := low) instNumeral (n : Nat) : OfNat α n := ⟨Scalar.ofNat n⟩

/-- `digits` divided by a power of ten: `decimal 58 2` is 0.58. -/
def decimal (digits places : Nat) : α := ofNat digits / ofNat (Nat.pow 10 places)

/-- Not a number: the one value that is not even equal to itself. -/
def isNaN (a : α) : Bool := !decide (a ≤ a)

/-- The two are the same number (both zeros of a float are). -/
def same (a b : α) : Bool := decide (a ≤ b) && decide (b ≤ a)

/-- A value whose difference from itself is zero, so neither infinite nor NaN. -/
def isFinite (a : α) : Bool := same (a - a) 0

/-- The smaller of the two; a value that is not a number is passed over. -/
def least (a b : α) : α := if b < a || isNaN a then b else a

/-- The larger of the two; a value that is not a number is passed over. -/
def greatest (a b : α) : α := if a < b || isNaN a then b else a

/-- The distance from zero, never a negative zero. -/
def abs (a : α) : α := if a ≤ 0 then 0 - a else a

/-- The smallest member of a list, if there is one. -/
def least? : List α → Option α
  | [] => none
  | a :: rest => some (rest.foldl least a)

end Scalar

/-- How numbers are written and read as text. -/
class NumberText (α : Type) where
  /-- The fewest digits that read back, without an exponent. -/
  plain : α → String
  /-- As `plain`, but whole numbers below 10^9 are written exactly and unsigned zero as `0`. -/
  brief : α → String
  /-- A fixed number of places after the point. -/
  fixed : Nat → α → String
  /-- The form numbers take in a JSON document. -/
  json : α → String
  read? : String → Option α

end DiagramPress
