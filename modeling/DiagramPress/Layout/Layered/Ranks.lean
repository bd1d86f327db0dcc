-- The layers of a layered placement: every connection leads two layers on at
-- least, and the children are pulled together along their connections.
import DiagramPress.Layout.Acyclic

namespace DiagramPress.Layered

/-- An edge that has to lead over at least `length` ranks. -/
structure Span where
  tail : Nat
  head : Nat
  length : Nat
deriving DecidableEq, Repr

/-- The ranks of the children by their numbers. -/
abbrev Ranks := Array Int

/-- How many ranks an edge leads over beyond its length. -/
def slack (ranks : Ranks) (s : Span) : Int :=
  ranks.getD s.head 0 - ranks.getD s.tail 0 - s.length

/-- A child is as low as its successors let it be. The order runs along the
edges, so from its end every successor is ranked before. -/
def longestPaths (count : Nat) (order : List Nat) (edges : List (Nat × Nat)) : Ranks :=
  order.reverse.foldl (fun ranks v =>
    let below := (edges.filter fun (a, _) => a = v).map fun (_, b) => ranks.getD b 0 - 2
    match below with
    | [] => ranks.setIfInBounds v 0
    | r :: rest => ranks.setIfInBounds v (rest.foldl min r)) (Array.replicate count 0)

/-- The edges with a root above all children, whose number is `count`. -/
def spans (count : Nat) (edges : List (Nat × Nat)) : List Span :=
  edges.map (fun (a, b) => ⟨a, b, 2⟩) ++ (List.range count).map fun i => ⟨count, i, 1⟩

/-- The ranks with the rank of the root above. -/
def withRoot (ranks : Ranks) : Ranks := ranks.push (ranks.foldl min 0 - 1)

/-- Exactly one end of the edge is inside. -/
def crosses (inside : Array Bool) (s : Span) : Bool :=
  inside.getD s.tail false != inside.getD s.head false

/-- Takes in the ends of edges without slack, until no such edge leads out. -/
def close (spans : List Span) (ranks : Ranks) : Nat → Array Bool → Array Bool
  | 0, inside => inside
  | fuel + 1, inside =>
    let next := spans.foldl (fun (inside : Array Bool) s =>
      if crosses inside s && slack ranks s = 0 then
        (inside.setIfInBounds s.tail true).setIfInBounds s.head true
      else inside) inside
    if next = inside then inside else close spans ranks fuel next

/-- The first edge of least slack that leads out. -/
def tightest? (spans : List Span) (ranks : Ranks) (inside : Array Bool) : Option Span :=
  spans.foldl (fun best s =>
    if crosses inside s then
      match best with
      | none => some s
      | some b => if slack ranks s < slack ranks b then some s else best
    else best) none

/-- Moves what is inside until an edge that leads out has no slack, then takes
in its end, until nothing is left outside. -/
def tighten (spans : List Span) : Nat → Array Bool → Ranks → Ranks
  | 0, _, ranks => ranks
  | fuel + 1, inside, ranks =>
    let inside := close spans ranks inside.size inside
    match tightest? spans ranks inside with
    | none => ranks
    | some s =>
      let gap := slack ranks s
      let shift := if inside.getD s.tail false then gap else -gap
      tighten spans fuel inside
        (ranks.mapIdx fun v r => if inside.getD v false then r + shift else r)

/-- The ranks of the children, from zero on. -/
def ranks (count : Nat) (order : List Nat) (edges : List (Nat × Nat)) : Array Nat :=
  let start := withRoot (longestPaths count order edges)
  let inside := (Array.replicate (count + 1) false).setIfInBounds 0 true
  let tight := (tighten (spans count edges) (count + 1) inside start).extract 0 count
  let lowest := tight.foldl min (tight.getD 0 0)
  tight.map fun r => (r - lowest).toNat

end DiagramPress.Layered
