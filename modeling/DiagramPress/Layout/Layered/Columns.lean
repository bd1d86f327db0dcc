-- The places within the layers: members are aligned with a middle neighbour in
-- four ways, each as tight as it can be, and every member stands in the middle
-- between the inner two of its four places.
import DiagramPress.Layout.Layered.Layers
import DiagramPress.Number.Scalar

namespace DiagramPress.Layered

/-! ## Positions and conflicts -/

/-- Where each member stands in its layer. -/
def positions (size : Nat) (layers : List (List Nat)) : Array Nat :=
  layers.foldl (fun places layer =>
    layer.zipIdx.foldl (fun (places : Array Nat) (v, i) => places.setIfInBounds v i) places)
    (Array.replicate size 0)

/-- An unordered pair. -/
def pairOf (a b : Nat) : Nat × Nat := (min a b, max a b)

/-- How far the search for conflicts in a layer has come. -/
structure Scan where
  left : Nat
  start : Nat
  found : List (Nat × Nat)

/-- Edges into `members` that cross the edge between two steps of long edges. -/
def crossings (n : Network) (place : Array Nat) (left right : Nat) (members : List Nat) :
    List (Nat × Nat) :=
  members.flatMap fun w =>
    (n.pred w).filterMap fun p =>
      let spot := place.getD p 0
      if (spot < left || right < spot) && !(n.isStep p && n.isStep w) then some (pairOf p w)
      else none

/-- Goes on with one member of a layer, behind a layer of `above` members. -/
def scanMember (n : Network) (place : Array Nat) (above : Nat) (layer : List Nat)
    (scan : Scan) (member : Nat × Nat) : Scan :=
  let (v, i) := member
  let inner := if n.isStep v then (n.pred v).find? n.isStep else none
  let right := (inner.map fun u => place.getD u 0).getD above
  if inner.isSome || i + 1 = layer.length then
    let members := (layer.drop scan.start).take (i + 1 - scan.start)
    ⟨right, i + 1, scan.found ++ crossings n place scan.left right members⟩
  else scan

/-- The pairs that must not be aligned, since a long edge crosses between them. -/
def conflicts (n : Network) (place : Array Nat) : List (List Nat) → List (Nat × Nat)
  | above :: layer :: rest =>
    (layer.zipIdx.foldl (scanMember n place above.length layer) ⟨0, 0, []⟩).found ++
      conflicts n place (layer :: rest)
  | _ => []

/-! ## Blocks -/

/-- Members that are aligned with each other form a block, named by its root. -/
structure Blocks where
  root : Array Nat
  next : Array Nat

/-- Aligns `v` with its neighbour `w`, if both are free to and no earlier
alignment of the layer is crossed. -/
def alignWith (place : Array Nat) (conflicts : List (Nat × Nat)) (v : Nat)
    (state : Blocks × Int) (w : Nat) : Blocks × Int :=
  let (b, last) := state
  let spot : Int := place.getD w 0
  if b.next.getD v v = v && decide (last < spot) && !conflicts.contains (pairOf v w) then
    let root := b.root.getD w w
    (⟨b.root.setIfInBounds v root, (b.next.setIfInBounds w v).setIfInBounds v root⟩, spot)
  else state

/-- The one or two neighbours in the middle. -/
def middle (ws : List Nat) : List Nat :=
  if ws.isEmpty then []
  else
    let low := (ws.length - 1) / 2
    (ws.drop low).take (ws.length / 2 - low + 1)

def alignMember (neighbours : Nat → List Nat) (place : Array Nat)
    (conflicts : List (Nat × Nat)) (state : Blocks × Int) (v : Nat) : Blocks × Int :=
  let ws := (neighbours v).mergeSort fun a b => decide (place.getD a 0 ≤ place.getD b 0)
  (middle ws).foldl (alignWith place conflicts v) state

def align (neighbours : Nat → List Nat) (place : Array Nat) (conflicts : List (Nat × Nat))
    (size : Nat) (layers : List (List Nat)) : Blocks :=
  layers.foldl (fun b layer => (layer.foldl (alignMember neighbours place conflicts) (b, -1)).1)
    ⟨Array.range size, Array.range size⟩

/-! ## Columns -/

variable {α : Type} [Scalar α]

/-- What decides how far apart neighbours in a layer stand. -/
structure Widths (α : Type) where
  width : Nat → α
  gap : Nat → α

/-- The distance between the centres of two neighbours. -/
def Widths.between (w : Widths α) (u v : Nat) : α :=
  w.width v / 2 + w.gap v / 2 + w.gap u / 2 + w.width u / 2

/-- That one block stands a distance behind another. -/
structure Behind (α : Type) where
  first : Nat
  second : Nat
  distance : α

/-- The neighbours in a layer. -/
def neighboursIn : List Nat → List (Nat × Nat)
  | u :: v :: rest => (u, v) :: neighboursIn (v :: rest)
  | _ => []

def constraints (w : Widths α) (b : Blocks) (layers : List (List Nat)) : List (Behind α) :=
  layers.flatMap fun layer =>
    (neighboursIn layer).map fun (u, v) => ⟨b.root.getD u u, b.root.getD v v, w.between u v⟩

/-- Moves blocks until every constraint holds, each block as far left as it can stand. -/
def compact (cs : List (Behind α)) : Nat → Array α → Array α
  | 0, xs => xs
  | fuel + 1, xs =>
    let (xs, changed) := cs.foldl (fun ((xs : Array α), (changed : Bool)) c =>
      let x := xs.getD c.second 0
      let wanted := xs.getD c.first 0 + c.distance
      if x < wanted then (xs.setIfInBounds c.second wanted, true) else (xs, changed)) (xs, false)
    if changed then compact cs fuel xs else xs

/-- The places of all members in one alignment. -/
def columns (w : Widths α) (b : Blocks) (size : Nat) (layers : List (List Nat)) : List α :=
  let xs := compact (constraints w b layers) (size + 1) (Array.replicate size 0)
  (List.range size).map fun v => xs.getD (b.root.getD v v) 0

/-! ## The four alignments -/

/-- The places in the alignment towards the left or the right, upwards or downwards. -/
def alignment (n : Network) (w : Widths α) (conflicts : List (Nat × Nat))
    (layers : List (List Nat)) (downwards rightwards : Bool) : List α :=
  let layers := if downwards then layers.reverse else layers
  let layers := if rightwards then layers.map List.reverse else layers
  let place := positions n.size layers
  let neighbours := if downwards then n.succ else n.pred
  let xs := columns w (align neighbours place conflicts n.size layers) n.size layers
  if rightwards then xs.map fun x => -x else xs

/-- From where to where an alignment reaches, with the widths of its members. -/
def reach (w : Widths α) (xs : List α) : α × α :=
  let sides := xs.zipIdx.map fun (x, v) => (x - w.width v / 2, x + w.width v / 2)
  match sides with
  | [] => (0, 0)
  | (low, high) :: rest =>
    rest.foldl (fun (l, h) (low, high) => (Scalar.least l low, Scalar.greatest h high)) (low, high)

/-- The least and the greatest place. -/
def range (xs : List α) : α × α :=
  match xs with
  | [] => (0, 0)
  | x :: rest => (rest.foldl Scalar.least x, rest.foldl Scalar.greatest x)

/-- The first of the alignments that reaches least far. -/
def narrowest (w : Widths α) : List α → List (List α) → List α
  | best, [] => best
  | best, xs :: rest =>
    narrowest w (if Scalar.shorter (reach w xs) (reach w best) then xs else best) rest

/-- The mean of the inner two of four numbers. -/
def median (a b c d : α) : α :=
  match [a, b, c, d].mergeSort fun x y => decide (x ≤ y) with
  | [_, x, y, _] => (x + y) / 2
  | _ => 0

/-- The place of every member within its layer. -/
def places (n : Network) (w : Widths α) (layers : List (List Nat)) : List α :=
  let cs := conflicts n (positions n.size layers) layers
  let ul := alignment n w cs layers false false
  let ur := alignment n w cs layers false true
  let dl := alignment n w cs layers true false
  let dr := alignment n w cs layers true true
  let (low, high) := range (narrowest w ul [ur, dl, dr])
  let toLow (xs : List α) : List α := xs.map fun x => x + (low - (range xs).1)
  let toHigh (xs : List α) : List α := xs.map fun x => x + (high - (range xs).2)
  ((toLow ul).zip (toHigh ur)).zip ((toLow dl).zip (toHigh dr)) |>.map fun
    ((a, b), (c, d)) => median a b c d

end DiagramPress.Layered
