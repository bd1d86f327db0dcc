-- The order within the layers: long edges become chains of one-layer steps,
-- and each layer takes its members in the order in which a walk meets them.
import DiagramPress.Layout.Layered.Ranks

namespace DiagramPress.Layered

/-- The children and, after them, the steps of long edges. Every edge leads
from one layer to the next. -/
structure Network where
  /-- How many of the members are children. -/
  real : Nat
  ranks : Array Nat
  successors : Array (List Nat)
  predecessors : Array (List Nat)

namespace Network

def size (n : Network) : Nat := n.ranks.size

/-- The member is a step of a long edge. -/
def isStep (n : Network) (v : Nat) : Bool := decide (n.real ≤ v)

def succ (n : Network) (v : Nat) : List Nat := n.successors.getD v []

def pred (n : Network) (v : Nat) : List Nat := n.predecessors.getD v []

def rank (n : Network) (v : Nat) : Nat := n.ranks.getD v 0

/-- A further member without edges. -/
def addStep (n : Network) (rank : Nat) : Network :=
  ⟨n.real, n.ranks.push rank, n.successors.push [], n.predecessors.push []⟩

def connect (n : Network) (a b : Nat) : Network :=
  { n with
    successors := n.successors.setIfInBounds a (n.succ a ++ [b])
    predecessors := n.predecessors.setIfInBounds b (n.pred b ++ [a]) }

/-- Connects `a` with `b` through `steps` new members, one on each layer between. -/
def chain (b : Nat) : Nat → Nat → Network → Network
  | 0, a, n => n.connect a b
  | steps + 1, a, n =>
    let next := n.size
    chain b steps next ((n.addStep (n.rank a + 1)).connect a next)

def ofEdges (ranks : Array Nat) (edges : List (Nat × Nat)) : Network :=
  let bare : Network :=
    ⟨ranks.size, ranks, Array.replicate ranks.size [], Array.replicate ranks.size []⟩
  edges.foldl (fun n (a, b) => chain b (n.rank b - n.rank a - 1) a n) bare

end Network

/-! ## The walk -/

/-- What a walk has met, and the layers so far. -/
structure Walk where
  met : Array Bool
  layers : Array (List Nat)

/-- Meets a member and then everything that follows it, depth first. -/
def walk (n : Network) : Nat → Walk → Nat → Walk
  | 0, w, _ => w
  | fuel + 1, w, v =>
    if w.met.getD v true then w
    else
      let layer := n.rank v
      let here : Walk :=
        ⟨w.met.setIfInBounds v true,
          w.layers.setIfInBounds layer (w.layers.getD layer [] ++ [v])⟩
      (n.succ v).foldl (walk n fuel) here

/-- The layers from the first to the last, each in its order. -/
def layers (n : Network) : List (List Nat) :=
  let depth := n.ranks.foldl max 0 + 1
  let starts := (List.range depth).flatMap fun r =>
    (List.range n.size).filter fun v => n.rank v = r
  let start : Walk := ⟨Array.replicate n.size false, Array.replicate depth []⟩
  (starts.foldl (walk n (n.size + 1)) start).layers.toList

end DiagramPress.Layered
