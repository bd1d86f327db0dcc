-- Characters written as numbers of 16 bits: those beyond the first 65536 take
-- a pair of surrogates.
import DiagramPress.Markup.Escape

namespace DiagramPress.Text

/-- The number that four hexadecimal digits stand for, and what follows them. -/
def hex4? : List Char → Option (Nat × List Char)
  | a :: b :: c :: d :: rest =>
    let ds := [a, b, c, d]
    if ds.all Markup.isHexDigit then some (Markup.readNumber 16 ds, rest) else none
  | _ => none

/-- The number is the first one of a pair. -/
def isLead (n : Nat) : Bool := 0xD800 ≤ n && n < 0xDC00

/-- The number is the second one of a pair. -/
def isTrail (n : Nat) : Bool := 0xDC00 ≤ n && n < 0xE000

/-- The character that a pair of surrogates stands for. -/
def ofSurrogates (lead trail : Nat) : Char :=
  Char.ofNat ((lead - 0xD800) * 0x400 + (trail - 0xDC00) + 0x10000)

end DiagramPress.Text
