-- Breaking circles: every connection is turned so that it follows one order of
-- the children, and a pair that stands twice is kept once.
import DiagramPress.Layout.SpanningForest

namespace DiagramPress.Acyclic

/-! ## An order of the children -/

/-- How far an order of the children has come. -/
structure Sorting where
  /-- Who has a place, in the order of the places. -/
  placed : List Nat
  /-- For each child without a place, how many edges lead to it from others without one. -/
  waiting : Array Nat
  /-- Who may come next, smaller numbers first. -/
  ready : List Nat
deriving DecidableEq, Repr

/-- Puts a number into a queue in front of the first one that is not smaller. -/
def enqueue (v : Nat) : List Nat → List Nat
  | [] => [v]
  | w :: rest => if v ≤ w then v :: w :: rest else w :: enqueue v rest

namespace Sorting

/-- Nobody has a place. Children that no edge leads to may come first. -/
def start (count : Nat) (edges : List (Nat × Nat)) : Sorting :=
  let waiting := edges.foldl (fun waiting (_, b) => waiting.modify b (· + 1))
    (Array.replicate count 0)
  ⟨[], waiting, (List.range count).filter fun v => waiting.getD v 0 = 0⟩

/-- One edge fewer leads to a child without a place; after the last one it may come next. -/
def release (s : Sorting) (v : Nat) : Sorting :=
  if s.placed.contains v then s
  else
    let left := s.waiting.getD v 0 - 1
    { s with
      waiting := s.waiting.setIfInBounds v left
      ready := if left = 0 then enqueue v s.ready else s.ready }

/-- The child takes the next place, and its edges are followed. -/
def place (edges : List (Nat × Nat)) (s : Sorting) (v : Nat) : Sorting :=
  let targets := (edges.filter fun (a, _) => a = v).map (·.2)
  targets.foldl release { s with placed := s.placed ++ [v] }

/-- Who comes next, with the queue behind: the first in the queue without a place
or, where all wait for each other in a circle, the first child without one. -/
def next? (count : Nat) (s : Sorting) : Option (Nat × List Nat) :=
  match s.ready.dropWhile s.placed.contains with
  | v :: rest => some (v, rest)
  | [] => ((List.range count).find? fun v => !s.placed.contains v).map fun v => (v, [])

/-- Gives the next child its place, unless all have one. -/
def step (count : Nat) (edges : List (Nat × Nat)) (s : Sorting) : Option Sorting :=
  (s.next? count).map fun (v, rest) => place edges { s with ready := rest } v

def run (count : Nat) (edges : List (Nat × Nat)) : Nat → Sorting → Sorting
  | 0, s => s
  | fuel + 1, s =>
    match s.step count edges with
    | none => s
    | some next => run count edges fuel next

end Sorting

/-- The children in order. Every step gives one child its place, so as many steps
as there are children are enough. -/
def sorted (count : Nat) (edges : List (Nat × Nat)) : Sorting :=
  let edges := SpanningForest.usable count edges
  Sorting.run count edges count (Sorting.start count edges)

/-- An order of the children that follows every edge outside the circles. -/
def order (count : Nat) (edges : List (Nat × Nat)) : List Nat := (sorted count edges).placed

/-! ## Edges along the order -/

/-- The pair in the order of its members. -/
def oriented (order : List Nat) (edge : Nat × Nat) : Nat × Nat :=
  if order.idxOf edge.1 < order.idxOf edge.2 then edge else (edge.2, edge.1)

/-- The list without the members that stand in it before. -/
def once : List (Nat × Nat) → List (Nat × Nat) → List (Nat × Nat)
  | _, [] => []
  | seen, e :: rest => if seen.contains e then once seen rest else e :: once (e :: seen) rest

/-- The edges without circles, loops and repetitions. -/
def edges (count : Nat) (edges : List (Nat × Nat)) : List (Nat × Nat) :=
  once [] ((SpanningForest.usable count edges).map (oriented (order count edges)))

end DiagramPress.Acyclic
