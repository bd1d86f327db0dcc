-- The edit distance of two texts: how many single characters have to be
-- inserted, deleted or exchanged to turn one into the other.

namespace DiagramPress.Catalog

/-- The rest of a row of the distance table. `diagonal` and `left` are the
entries beside the next one, `above` the rest of the row before. -/
def nextEntries (c : Char) : Nat → Nat → List Char → List Nat → List Nat
  | diagonal, left, d :: ds, up :: above =>
    let entry := if c = d then diagonal else 1 + min up (min left diagonal)
    entry :: nextEntries c up entry ds above
  | _, _, _, _ => []

/-- The row below `row`, which belongs to one more character of the first text. -/
def nextRow (target : List Char) (row : List Nat) (c : Char) : List Nat :=
  match row with
  | [] => []
  | first :: above => (first + 1) :: nextEntries c first (first + 1) target above

/-- The edit distance of two texts. -/
def distance (a b : List Char) : Nat :=
  (a.foldl (nextRow b) (List.range (b.length + 1))).getLastD 0

end DiagramPress.Catalog
