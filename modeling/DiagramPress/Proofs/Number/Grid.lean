-- Whole numbers as a scalar. Everything on the grid can be computed, so cases
-- of the laws can be checked on it; angles do not exist there.
import DiagramPress.Number.Scalar

namespace DiagramPress

/-- A number on the grid. -/
def Grid : Type := Int
deriving DecidableEq

namespace Grid

instance : Scalar Grid where
  add := Int.add
  sub := Int.sub
  mul := Int.mul
  div := Int.tdiv
  neg := Int.neg
  lt := Int.lt
  le := Int.le
  decLt := Int.decLt
  decLe := Int.decLe
  ofNat := Int.ofNat
  sqrt a := Int.ofNat (Nat.sqrt a.toNat)
  cos _ := Int.ofNat 1
  sin _ := Int.ofNat 0
  hypot a b := Int.ofNat (Nat.sqrt (a.natAbs * a.natAbs + b.natAbs * b.natAbs))
  turn := Int.ofNat 360
  round a := a
  ceil a := a
  wholePart a := a.toNat
  shorter a b := decide (Int.sub a.2 a.1 < Int.sub b.2 b.1)

/-- A number in decimal digits. -/
def text (a : Grid) : String := Int.repr a

instance : NumberText Grid where
  plain := text
  brief := text
  fixed _ := text
  json := text
  read? s := s.toInt?

end Grid

end DiagramPress
