-- The structural check of a description: every id is there once, every
-- reference leads somewhere, and groups are not nested in a circle.
import DiagramPress.Description
import DiagramPress.Description.Reader

namespace DiagramPress

namespace Description

/-- One thing that is wrong with a description. -/
inductive Problem where
  | noNodes
  | nodeSpacing
  | layerSpacing
  | emptyNodeId (index : Nat)
  | nodeSize (index : Nat)
  | nodeOpacity (index : Nat)
  | emptyEndpoint (index : Nat)
  | edgeOpacity (index : Nat)
  | emptyGroupId (index : Nat)
  | groupOpacity (index : Nat)
  | repeatedNodeId (id : String)
  | repeatedGroupId (id : String)
  | unknownSource (id : String) (known : List String)
  | unknownTarget (id : String) (known : List String)
  | unknownGroup (node group : String) (known : List String)
  | unknownParent (group parent : String) (known : List String)
  | circularGroups (id : String)
deriving DecidableEq, Repr

namespace Problem

def quote (text : String) : String := "\"" ++ text ++ "\""

def listed (ids : List String) : String := String.intercalate ", " ids

/-- Group ids for a message. -/
def listedGroups (ids : List String) : String := if ids.isEmpty then "(none)" else listed ids

def message : Problem → String
  | noNodes => "nodes: diagram must have at least one node"
  | nodeSpacing => "layout.spacing.node: must be positive"
  | layerSpacing => "layout.spacing.layer: must be positive"
  | emptyNodeId i => "nodes." ++ toString i ++ ".id: must not be empty"
  | nodeSize i => "nodes." ++ toString i ++ ".size: width and height must be positive"
  | nodeOpacity i => "nodes." ++ toString i ++ ".style.opacity: must be between 0 and 100"
  | emptyEndpoint i => "edges." ++ toString i ++ ": from and to must not be empty"
  | edgeOpacity i => "edges." ++ toString i ++ ".style.opacity: must be between 0 and 100"
  | emptyGroupId i => "groups." ++ toString i ++ ".id: must not be empty"
  | groupOpacity i => "groups." ++ toString i ++ ".style.opacity: must be between 0 and 100"
  | repeatedNodeId id => "Duplicate node ID: " ++ quote id
  | repeatedGroupId id =>
    "Duplicate ID " ++ quote id ++ " (used by both a node and a group, or duplicate group)"
  | unknownSource id known =>
    "Edge references unknown source " ++ quote id ++ ". Available IDs: " ++ listed known
  | unknownTarget id known =>
    "Edge references unknown target " ++ quote id ++ ". Available IDs: " ++ listed known
  | unknownGroup node group known =>
    "Node " ++ quote node ++ " references unknown group " ++ quote group ++
      ". Available groups: " ++ listedGroups known
  | unknownParent group parent known =>
    "Group " ++ quote group ++ " references unknown parent " ++ quote parent ++
      ". Available groups: " ++ listedGroups known
  | circularGroups id => "Circular group nesting detected involving " ++ quote id

end Problem

/-! ## The parts of the check -/

variable {α : Type} [Scalar α]

/-- The problem, if the condition holds. -/
def problemIf (condition : Bool) (problem : Problem) : List Problem :=
  if condition then [problem] else []

def badOpacity (style : Option (StyleOverride α)) : Bool :=
  match style.bind (·.opacity) with
  | some v => !(decide (0 ≤ v) && decide (v ≤ 100))
  | none => false

/-- A declared size without extent. -/
def badSize : Option (Size α) → Bool
  | some s => decide (s.width ≤ 0) || decide (s.height ≤ 0)
  | none => false

def nodeProblems (node : Description.Node α) (index : Nat) : List Problem :=
  problemIf node.id.isEmpty (.emptyNodeId index) ++
    problemIf (badSize node.size) (.nodeSize index) ++
    problemIf (badOpacity node.style) (.nodeOpacity index)

def edgeProblems (edge : Description.Edge α) (index : Nat) : List Problem :=
  problemIf (edge.source.isEmpty || edge.target.isEmpty) (.emptyEndpoint index) ++
    problemIf (badOpacity edge.style) (.edgeOpacity index)

def groupProblems (group : Description.Group α) (index : Nat) : List Problem :=
  problemIf group.id.isEmpty (.emptyGroupId index) ++
    problemIf (badOpacity group.style) (.groupOpacity index)

/-- The members of `ids` that stand in `seen` or earlier in the list. -/
def repeated : List String → List String → List String
  | _, [] => []
  | seen, id :: rest =>
    if seen.contains id then id :: repeated seen rest else repeated (id :: seen) rest

/-- The list without the members that stand in it before. -/
def firstOf : List String → List String → List String
  | _, [] => []
  | seen, id :: rest =>
    if seen.contains id then firstOf seen rest else id :: firstOf (id :: seen) rest

def nodeIds (d : Description α) : List String := d.nodes.map (·.id)

def groupIds (d : Description α) : List String := d.groups.map (·.id)

/-- The ids of nodes and groups, each once. -/
def entityIds (d : Description α) : List String := firstOf [] (d.nodeIds ++ d.groupIds)

def duplicateProblems (d : Description α) : List Problem :=
  (repeated [] d.nodeIds).map .repeatedNodeId ++
    (repeated d.nodeIds d.groupIds).map .repeatedGroupId

def endpointProblems (d : Description α) (edge : Description.Edge α) : List Problem :=
  let known := d.entityIds
  problemIf (!known.contains edge.source) (.unknownSource edge.source known) ++
    problemIf (!known.contains edge.target) (.unknownTarget edge.target known)

def memberProblems (d : Description α) (node : Description.Node α) : List Problem :=
  match node.group with
  | some g => problemIf (!d.groupIds.contains g) (.unknownGroup node.id g d.groupIds)
  | none => []

def parentProblems (d : Description α) (group : Description.Group α) : List Problem :=
  match group.parent with
  | some p => problemIf (!d.groupIds.contains p) (.unknownParent group.id p d.groupIds)
  | none => []

/-! ## Circles -/

/-- The parent of the last group with that id. -/
def parentOf? (groups : List (Description.Group α)) (id : String) : Option String :=
  (groups.reverse.find? fun g => g.id = id).bind (·.parent)

/-- Walks from `id` towards the outermost group and gives the first id that
is met twice. Every step but the last meets a new group, so the fuel of one
step for each group and two more is enough. -/
def circleFrom (groups : List (Description.Group α)) :
    Nat → List String → String → Option String
  | 0, _, _ => none
  | fuel + 1, visited, id =>
    if visited.contains id then some id
    else
      match parentOf? groups id with
      | some parent => circleFrom groups fuel (id :: visited) parent
      | none => none

/-- An id on the first circle that some group leads into. -/
def circle? (groups : List (Description.Group α)) : Option String :=
  groups.findSome? fun g => circleFrom groups (groups.length + 2) [] g.id

/-! ## The whole check -/

/-- Everything that is wrong with a description, in the order in which it is reported. -/
def problems (d : Description α) : List Problem :=
  problemIf d.nodes.isEmpty .noNodes ++
    problemIf (decide (d.layout.spacing.node ≤ 0)) .nodeSpacing ++
    problemIf (decide (d.layout.spacing.layer ≤ 0)) .layerSpacing ++
    (d.nodes.zipIdx.flatMap fun (node, i) => nodeProblems node i) ++
    (d.edges.zipIdx.flatMap fun (edge, i) => edgeProblems edge i) ++
    (d.groups.zipIdx.flatMap fun (group, i) => groupProblems group i) ++
    d.duplicateProblems ++
    d.edges.flatMap d.endpointProblems ++
    d.nodes.flatMap d.memberProblems ++
    d.groups.flatMap d.parentProblems ++
    ((circle? d.groups).map .circularGroups).toList

end Description

/-! ## From text to checked description -/

/-- Why a text is not a usable description. -/
inductive DescriptionError where
  | decoding (cause : Data.DecodeError)
  | invalid (problems : List Description.Problem)

namespace DescriptionError

/-- The report on a description that decodes but does not hold together. -/
def report (problems : List Description.Problem) : String :=
  "diagram description has errors:" ++
    String.join (problems.map fun p => "\n  - " ++ p.message)

def message : DescriptionError → String
  | decoding cause => "invalid diagram description: " ++ cause.message
  | invalid problems => report problems

end DescriptionError

/-- Reads a description and checks it. -/
def Description.parse (text : String) : Except DescriptionError (Description Float32) :=
  match Description.decode text with
  | .error cause => .error (.decoding cause)
  | .ok d => if d.problems.isEmpty then .ok d else .error (.invalid d.problems)

end DiagramPress
