-- Laying a model out: the model becomes a nested graph, an engine answers it,
-- and the answer is written back. Positions that are set stay.
import DiagramPress.Description
import DiagramPress.Layout.Engine
import DiagramPress.Model

namespace DiagramPress

namespace Layout

variable {α : Type}

/-! ## Words of the description and of the engine -/

def methodOf? : Algorithm → Option Method
  | .hierarchical => some .layered
  | .force => some .force
  | .tree => some .tree
  | .radial => some .radial
  | .box => some .rows
  | .none => none

def flowOf : Direction → Flow
  | .topBottom => .down
  | .bottomTop => .up
  | .leftRight => .right
  | .rightLeft => .left

/-- The settings of a container of the diagram. -/
def containerSettings (method : Method) (choice : LayoutChoice α) (padding : Padding α) :
    ContainerSettings α :=
  ⟨method, flowOf choice.direction, choice.spacing.node, choice.spacing.layer, padding⟩

/-! ## The request -/

/-- The id of the frame around the whole diagram. -/
def rootId : String := "root"

def edgeRoutingKey : String := "edgeRouting"

/-- A node as a leaf; one that is placed stays where it is. -/
def leafOf (node : Model.Node α) : Frame α :=
  let leaf := Frame.leaf (toString node.cell) node.size
  match node.position with
  | some p => ({ leaf with x := some p.x, y := some p.y }).withOption Frame.pinKey "true"
  | none => leaf

variable [Scalar α] [NumberText α]

/-- The container of a group without what it holds. -/
def emptyContainer (m : Model α) (s : ContainerSettings α) (id : String) : Frame α :=
  s.write (Frame.container (((m.group? id).map fun g => toString g.cell).getD ""))

/-- Containers of groups one after the other; `visited` are the ids whose
members are hung up somewhere already. -/
def containersWith (one : List String → String → Frame α × List String) :
    List String → List String → List (Frame α) × List String
  | visited, [] => ([], visited)
  | visited, id :: rest =>
    let (frame, visited) := one visited id
    let (frames, visited) := containersWith one visited rest
    (frame :: frames, visited)

/-- The container of a group with what it holds, groups before nodes. A group
that is visited already stays empty. Every step down visits a new id, so as
many steps as there are groups are enough. -/
def containerOf (m : Model α) (s : ContainerSettings α) :
    Nat → List String → String → Frame α × List String
  | 0, visited, id => (emptyContainer m s id, visited)
  | fuel + 1, visited, id =>
    if visited.contains id then (emptyContainer m s id, visited)
    else
      let inner := (m.groups.filter fun g => g.parent = some id).map (·.id)
      let (frames, visited) := containersWith (containerOf m s fuel) (id :: visited) inner
      let leaves := (m.nodes.filter fun n => n.group = some id).map leafOf
      ({ emptyContainer m s id with children := frames ++ leaves }, visited)

/-- The reference leads to a group of the model. -/
def isKnown (m : Model α) : Option String → Bool
  | some id => m.groups.any fun g => g.id = id
  | none => false

def linkOf (edge : Model.Edge) : Link :=
  ⟨toString edge.cell, [toString edge.sourceCell], [toString edge.targetCell]⟩

/-- The whole model as a nested graph, with all its edges on the outermost frame. -/
def request (m : Model α) (method : Method) (choice : LayoutChoice α)
    (settings : LayoutSettings α) : Frame α :=
  let outer := containerSettings method choice (Padding.uniform settings.rootMargin)
  let inner := containerSettings method choice settings.groupPadding
  let root := (outer.write (Frame.container rootId)).withOption edgeRoutingKey "ORTHOGONAL"
  let tops := (m.groups.filter fun g => !isKnown m g.parent).map (·.id)
  let (frames, _) := containersWith (containerOf m inner (m.groups.length + 1)) [] tops
  let leaves := (m.nodes.filter fun n => !isKnown m n.group).map leafOf
  { root with children := frames ++ leaves, links := m.edges.map linkOf }

/-! ## The answer -/

mutual

/-- The absolute box of every frame inside `f`, whose own corner is at `origin`. -/
def absolute (origin : Point α) : Frame α → List (String × Bounds α)
  | ⟨_, _, _, _, _, children, _, _⟩ => absoluteIn origin children

def absoluteIn (origin : Point α) : List (Frame α) → List (String × Bounds α)
  | [] => []
  | f@⟨id, x, y, _, _, _, _, _⟩ :: rest =>
    let corner : Point α := ⟨origin.x + x.getD 0, origin.y + y.getD 0⟩
    (id, Bounds.ofCorner corner f.size) :: absolute corner f ++ absoluteIn origin rest

end

/-- The box of the last frame with that id. -/
def boxOf? (boxes : List (String × Bounds α)) (cell : Nat) : Option (Bounds α) :=
  boxes.reverse.lookup (toString cell)

/-- A free node takes the place of its frame. -/
def writeNode (boxes : List (String × Bounds α)) (node : Model.Node α) : Model.Node α :=
  match node.position, boxOf? boxes node.cell with
  | none, some b => { node with position := some b.corner }
  | _, _ => node

/-- A group takes the box of its frame. -/
def writeGroup (boxes : List (String × Bounds α)) (group : Model.Group α) : Model.Group α :=
  match boxOf? boxes group.cell with
  | some b => { group with position := some b.corner, size := some b.size }
  | none => group

def writeBack (m : Model α) (answer : Frame α) : Model α :=
  let boxes := absolute answer.offset answer
  { m with nodes := m.nodes.map (writeNode boxes), groups := m.groups.map (writeGroup boxes) }

/-! ## Groups around their members -/

/-- How many groups are found from `parent` outwards, counted up to `fuel`. -/
def chainLength (m : Model α) : Nat → Option String → Nat
  | 0, _ => 0
  | _, none => 0
  | fuel + 1, some parent => chainLength m fuel ((m.group? parent).bind (·.parent)) + 1

/-- How deep a group is nested; a circle counts as deeper than every other group. -/
def groupDepth (m : Model α) (id : String) : Nat :=
  chainLength m (m.groups.length + 1) ((m.group? id).bind (·.parent))

/-- The box with room around it. -/
def padded (padding : Padding α) (b : Bounds α) : Bounds α :=
  ⟨b.x - padding.left, b.y - padding.top, b.width + padding.left + padding.right,
    b.height + padding.top + padding.bottom⟩

/-- The boxes of the placed nodes and groups directly inside a group. -/
def memberBoxes (m : Model α) (id : String) : List (Bounds α) :=
  (m.nodes.filter fun n => n.group = some id).filterMap Model.Node.bounds? ++
    (m.groups.filter fun g => g.parent = some id).filterMap Model.Group.bounds?

/-- A placed group grows around its members. -/
def growAround (padding : Padding α) (m : Model α) (group : Model.Group α) : Model.Group α :=
  match group.bounds? with
  | none => group
  | some b =>
    let b := (memberBoxes m group.id).foldl (fun b member => b.union (padded padding member)) b
    { group with position := some b.corner, size := some b.size }

def growAt (padding : Padding α) (m : Model α) (index : Nat) : Model α :=
  { m with groups := m.groups.modify index (growAround padding m) }

/-- The numbers of the groups, the deepest first and otherwise in order. -/
def deepestFirst (m : Model α) : List Nat :=
  let depths := m.groups.zipIdx.map fun (g, i) => (groupDepth m g.id, i)
  (List.range (m.groups.length + 2)).reverse.flatMap fun d =>
    (depths.filter fun (depth, _) => depth = d).map (·.2)

/-- Lets every group grow around its members, inner groups before outer ones. -/
def encloseMembers (padding : Padding α) (m : Model α) : Model α :=
  (deepestFirst m).foldl (growAt padding) m

end Layout

/-! ## The whole layout -/

variable {α : Type} [Scalar α] [NumberText α]

/-- Lays a model out with an engine. Without an algorithm the model stays as it is. -/
def Model.layout (m : Model α) (choice : LayoutChoice α) (engine : LayoutEngine α)
    (settings : LayoutSettings α) : Except LayoutError (Model α) :=
  match Layout.methodOf? choice.algorithm with
  | none => .ok m
  | some method =>
    (engine (Layout.request m method choice settings)).map fun answer =>
      Layout.encloseMembers settings.groupPadding (Layout.writeBack m answer)

end DiagramPress
