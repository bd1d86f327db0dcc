-- The engine that comes with the program: it lays every container out from the
-- inside to the outside, each by its own method.
import DiagramPress.Layout.Force
import DiagramPress.Layout.Layered
import DiagramPress.Layout.Radial
import DiagramPress.Layout.Rows
import DiagramPress.Layout.Tree

namespace DiagramPress

/-! ## Engines -/

/-- Why an engine gives no layout. -/
inductive LayoutError where
  | duplicateId (id : String)
  | unknownEndpoint (edge endpoint : String)
  | failed (text : String)
deriving DecidableEq, Repr

namespace LayoutError

/-- The cause by itself. -/
def cause : LayoutError → String
  | duplicateId id => "duplicate node id " ++ id
  | unknownEndpoint edge endpoint => "edge " ++ edge ++ " references unknown node " ++ endpoint
  | failed text => text

def message (e : LayoutError) : String := "layout engine failed: " ++ e.cause

end LayoutError

/-- An engine answers a whole nested graph at once. -/
abbrev LayoutEngine (α : Type) := Frame α → Except LayoutError (Frame α)

/-- How each method places children. -/
abbrev Methods (α : Type) := Method → Placement α → List (Point α)

/-- The methods that come with the program. -/
def Methods.bundled {α : Type} [Scalar α] : Methods α
  | .layered => Layered.place
  | .force => ForcePlacement.place
  | .tree => TreePlacement.place
  | .radial => RadialPlacement.place
  | .rows => Rows.place

namespace NestedLayout

variable {α : Type}

/-! ## The graph as a whole -/

mutual

/-- The path of every frame inside `f`, frames before what they hold. A path
starts below `f` and ends with the frame itself. -/
def paths (above : List String) : Frame α → List (List String)
  | ⟨_, _, _, _, _, children, _, _⟩ => pathsIn above children

def pathsIn (above : List String) : List (Frame α) → List (List String)
  | [] => []
  | f@⟨id, _, _, _, _, _, _, _⟩ :: rest =>
    (above ++ [id]) :: paths (above ++ [id]) f ++ pathsIn above rest

end

mutual

/-- All connections of a frame and of what it holds. -/
def links : Frame α → List Link
  | ⟨_, _, _, _, _, children, own, _⟩ => own ++ linksIn children

def linksIn : List (Frame α) → List Link
  | [] => []
  | f :: rest => links f ++ linksIn rest

end

/-- The id at the end of a path. -/
def idOf (path : List String) : String := path.getLastD ""

/-- The first id that stands in the list before. -/
def firstRepeated : List String → List String → Option String
  | _, [] => none
  | seen, id :: rest => if seen.contains id then some id else firstRepeated (id :: seen) rest

/-- Two ends of a connection, by their paths. -/
abbrev Ends := List String × List String

def pathOf? (paths : List (List String)) (id : String) : Option (List String) :=
  paths.find? fun path => idOf path = id

/-- The ends of one pair of a connection. -/
def endsOf (paths : List (List String)) (link : Link) (source target : String) :
    Except LayoutError Ends :=
  match pathOf? paths source, pathOf? paths target with
  | some a, some b => .ok (a, b)
  | none, _ => .error (.unknownEndpoint link.id source)
  | some _, none => .error (.unknownEndpoint link.id target)

/-- All pairs of a source with a target of a connection. -/
def pairsOf (link : Link) : List (Link × String × String) :=
  link.sources.flatMap fun s => link.targets.map fun t => (link, s, t)

/-- The ends of all connections of a graph whose ids are there once. -/
def resolve (root : Frame α) : Except LayoutError (List Ends) :=
  let paths := paths [] root
  match firstRepeated [] (paths.map idOf) with
  | some id => .error (.duplicateId id)
  | none => ((links root).flatMap pairsOf).mapM fun (link, s, t) => endsOf paths link s t

/-! ## One container -/

/-- The child of the container at `above` that is, or holds, the end of `path`. -/
def lift? (above : List String) (ids : List String) (path : List String) : Option Nat :=
  if above.isPrefixOf path then
    match path.drop above.length with
    | next :: _ => ids.idxOf? next
    | [] => none
  else none

/-- The edges between different children of the container at `above`, each once. -/
def localEdges (above : List String) (ids : List String) (ends : List Ends) : List (Nat × Nat) :=
  let lifted := ends.filterMap fun (source, target) =>
    match lift? above ids source, lift? above ids target with
    | some a, some b => if a = b then none else some (a, b)
    | _, _ => none
  Acyclic.once [] lifted

/-- The numbers of the children that are free, in order. -/
def freeNumbers (children : List (Frame α)) : List Nat :=
  (children.zipIdx.filter fun (f, _) => !f.isPinned).map (·.2)

variable [Scalar α]

/-- Gives the free children their places, in order. -/
def placeFree (origin : Point α) : List (Frame α) → List (Point α) → List (Frame α)
  | [], _ => []
  | f :: rest, points =>
    if f.isPinned then f :: placeFree origin rest points
    else
      match points with
      | [] => f :: rest
      | p :: points =>
        { f with x := some (origin.x + p.x), y := some (origin.y + p.y) } ::
          placeFree origin rest points

/-- The lower right corner of all. -/
def hull (a b : Point α) : Point α := ⟨Scalar.greatest a.x b.x, Scalar.greatest a.y b.y⟩

/-- Where the free children start: inside the padding, and past the pinned
ones along the flow. -/
def originOf (s : ContainerSettings α) (children : List (Frame α)) : Point α :=
  let corner : Point α := ⟨s.padding.left, s.padding.top⟩
  match (children.filter Frame.isPinned).map Frame.farCorner with
  | [] => corner
  | first :: rest =>
    let far := rest.foldl hull first
    if s.flow.isVertical then
      { corner with y := Scalar.greatest corner.y (far.y + s.layerSpacing) }
    else { corner with x := Scalar.greatest corner.x (far.x + s.layerSpacing) }

/-- What the method is given: the free children and the edges between them. -/
def placementOf (s : ContainerSettings α) (iterations : Nat) (children : List (Frame α))
    (edges : List (Nat × Nat)) : Placement α :=
  let free := freeNumbers children
  { sizes := (children.filter fun f => !f.isPinned).map Frame.size
    edges := edges.filterMap fun (a, b) =>
      match free.idxOf? a, free.idxOf? b with
      | some a, some b => some (a, b)
      | _, _ => none
    flow := s.flow
    nodeSpacing := s.nodeSpacing
    layerSpacing := s.layerSpacing
    iterations := iterations }

variable [NumberText α]

/-- Lays the children of a container out and gives it the size that holds them. -/
def arrange (methods : Methods α) (iterations : Nat) (ends : List Ends) (above : List String)
    (container : Frame α) : Frame α :=
  let s := ContainerSettings.read container
  let children := container.children
  let edges := localEdges above (children.map (·.id)) ends
  let points := methods s.method (placementOf s iterations children edges)
  let children := placeFree (originOf s children) children points
  let far := (children.map Frame.farCorner).foldl hull Point.origin
  { container with
    children := children
    width := some (far.x + s.padding.right)
    height := some (far.y + s.padding.bottom) }

/-- What the engine is set to. -/
structure EngineSettings (α : Type) where
  methods : Methods α
  emptySize : Size α
  iterations : Nat

/-- A container without children: it takes the size for empty ones, but the
outermost keeps the size it has. -/
def settleEmpty (e : EngineSettings α) (isRoot : Bool) (f : Frame α) : Frame α :=
  if isRoot && f.width.isSome then f
  else { f with width := some e.emptySize.width, height := some e.emptySize.height }

mutual

/-- Lays a container out after all containers inside it. -/
def layoutAt (e : EngineSettings α) (ends : List Ends) (isRoot : Bool) (above : List String) :
    Frame α → Frame α
  | ⟨id, x, y, width, height, children, links, options⟩ =>
    let f : Frame α := ⟨id, x, y, width, height, layoutIn e ends above children, links, options⟩
    if children.isEmpty then settleEmpty e isRoot f
    else arrange e.methods e.iterations ends above f

/-- Lays the containers among the children out. -/
def layoutIn (e : EngineSettings α) (ends : List Ends) (above : List String) :
    List (Frame α) → List (Frame α)
  | [] => []
  | f@⟨id, _, _, _, _, _, _, _⟩ :: rest =>
    (if f.isLeaf then f else layoutAt e ends false (above ++ [id]) f) ::
      layoutIn e ends above rest

end

/-- The engine with the given settings. -/
def run (e : EngineSettings α) : LayoutEngine α := fun root =>
  (resolve root).map fun ends =>
    { layoutAt e ends true [] root with x := some 0, y := some 0 }

/-- The engine that comes with the program. -/
def bundled (settings : LayoutSettings α) : LayoutEngine α :=
  run ⟨Methods.bundled, settings.emptyGroupSize, settings.forceIterations⟩

end NestedLayout

end DiagramPress
