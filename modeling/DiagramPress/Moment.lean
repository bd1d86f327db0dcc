-- Moments of time as texts such as `2024-01-02T03:04:05.678Z`.

namespace DiagramPress.Moment

/-! ## Dates -/

/-- A day of the calendar. -/
structure Date where
  year : Nat
  month : Nat
  day : Nat
deriving DecidableEq, Repr

/-- The days of four hundred years, after which the calendar repeats itself. -/
def cycle : Nat := 146097

/-- The days from the first of March of year 0 to the first of January 1970. -/
def epoch : Nat := 719468

/-- The date so many days after the first of January 1970. Years are counted
from March on, so that a leap day is the last day of its year. -/
def dateOf (days : Nat) : Date :=
  let z := days + epoch
  let d := z % cycle
  let year := (d - d / 1460 + d / 36524 - d / 146096) / 365
  let dayOfYear := d - (365 * year + year / 4 - year / 100)
  let month := (5 * dayOfYear + 2) / 153
  { year := year + 400 * (z / cycle) + (if month < 10 then 0 else 1)
    month := if month < 10 then month + 3 else month - 9
    day := dayOfYear - (153 * month + 2) / 5 + 1 }

/-! ## Texts -/

/-- A number with leading zeros up to a width. -/
def padded (width n : Nat) : String :=
  let digits := toString n
  String.ofList (List.replicate (width - digits.length) '0') ++ digits

/-- The text of the moment so many milliseconds after the start of 1970. -/
def text (milliseconds : Nat) : String :=
  let seconds := milliseconds / 1000
  let date := dateOf (seconds / 86400)
  padded 4 date.year ++ "-" ++ padded 2 date.month ++ "-" ++ padded 2 date.day ++ "T" ++
    padded 2 (seconds / 3600 % 24) ++ ":" ++ padded 2 (seconds / 60 % 60) ++ ":" ++
    padded 2 (seconds % 60) ++ "." ++ padded 3 (milliseconds % 1000) ++ "Z"

end DiagramPress.Moment
