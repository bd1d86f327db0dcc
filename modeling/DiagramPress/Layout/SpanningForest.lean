-- A spanning forest of the connections between children: trees that reach
-- every child once, found level by level.

namespace DiagramPress

/-- A tree of children, each by its number. -/
inductive Rose where
  | node (index : Nat) (children : List Rose)

namespace Rose

def index : Rose → Nat
  | node i _ => i

mutual

/-- The numbers in a tree with their depths, a parent before its children. -/
def depths (depth : Nat) : Rose → List (Nat × Nat)
  | node i children => (i, depth) :: depthsOf (depth + 1) children

def depthsOf (depth : Nat) : List Rose → List (Nat × Nat)
  | [] => []
  | t :: rest => depths depth t ++ depthsOf depth rest

end

/-- Two stacks of levels side by side. -/
def besides : List (List Nat) → List (List Nat) → List (List Nat)
  | [], right => right
  | left, [] => left
  | l :: left, r :: right => (l ++ r) :: besides left right

mutual

/-- The levels of a tree, the root first. -/
def levels : Rose → List (List Nat)
  | node i children => [i] :: levelsOf children

def levelsOf : List Rose → List (List Nat)
  | [] => []
  | t :: rest => besides (levels t) (levelsOf rest)

end

end Rose

/-- Roots, and pairs of a parent with a child, in the order in which the
search finds them. -/
structure SpanningForest where
  roots : List Nat
  links : List (Nat × Nat)
deriving DecidableEq, Repr

namespace SpanningForest

/-! ## The search -/

/-- Edges between two different children that exist. -/
def usable (count : Nat) (edges : List (Nat × Nat)) : List (Nat × Nat) :=
  edges.filter fun (a, b) => a ≠ b && decide (a < count) && decide (b < count)

/-- What the search has reached, and the links that it took. -/
structure Reach where
  seen : List Nat
  links : List (Nat × Nat)

/-- Follows the edge from `parent` to `next`, unless `next` is reached already. -/
def Reach.follow (parent : Nat) (reach : Reach) (next : Nat) : Reach :=
  if reach.seen.contains next then reach
  else ⟨reach.seen ++ [next], reach.links ++ [(parent, next)]⟩

/-- Searches on from the numbers in the queue, the first one first. Every
number is queued once, so as many steps as there are children are enough. -/
def search (edges : List (Nat × Nat)) : Nat → List Nat → Reach → Reach
  | 0, _, reach => reach
  | _, [], reach => reach
  | fuel + 1, current :: queue, reach =>
    let targets := (edges.filter fun (a, _) => a = current).map (·.2)
    let next := targets.foldl (Reach.follow current) reach
    search edges fuel (queue ++ next.seen.drop reach.seen.length) next

/-- Starts a tree at `start`, unless it is reached already. -/
def grow (count : Nat) (edges : List (Nat × Nat)) (state : List Nat × Reach) (start : Nat) :
    List Nat × Reach :=
  let (roots, reach) := state
  if reach.seen.contains start then state
  else (roots ++ [start], search edges count [start] ⟨reach.seen ++ [start], reach.links⟩)

/-- The forest of `count` children: roots are those without incoming edges,
and whatever they do not reach starts further trees. -/
def ofEdges (count : Nat) (edges : List (Nat × Nat)) : SpanningForest :=
  let edges := usable count edges
  let all := List.range count
  let sources := all.filter fun i => !edges.any fun (_, b) => b = i
  let (roots, reach) := (sources ++ all).foldl (grow count edges) ([], ⟨[], []⟩)
  ⟨roots, reach.links⟩

/-! ## The trees -/

def childrenOf (forest : SpanningForest) (parent : Nat) : List Nat :=
  (forest.links.filter fun (a, _) => a = parent).map (·.2)

/-- The tree at `root`, down to a depth. -/
def treeAt (forest : SpanningForest) : Nat → Nat → Rose
  | 0, root => .node root []
  | depth + 1, root => .node root ((forest.childrenOf root).map (treeAt forest depth))

/-- The trees of the forest. A link leads to a new child each time, so no tree
is deeper than there are links. -/
def trees (forest : SpanningForest) : List Rose :=
  forest.roots.map (forest.treeAt forest.links.length)

end SpanningForest

end DiagramPress
