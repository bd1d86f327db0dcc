-- What a layout came to: the algorithm and the direction that were asked for,
-- and the cell and the absolute box of everything in the model.
import DiagramPress.Data.Writer
import DiagramPress.Description
import DiagramPress.Model

namespace DiagramPress

namespace LayoutReport

variable (α : Type)

structure Node where
  id : String
  cell : Nat
  group : Option String
  bounds : Option (Bounds α)

structure Edge where
  cell : Nat
  source : String
  target : String
  sourceCell : Nat
  targetCell : Nat

structure Group where
  id : String
  cell : Nat
  parentCell : Nat
  bounds : Option (Bounds α)

end LayoutReport

structure LayoutReport (α : Type) where
  title : String
  algorithm : Algorithm
  direction : Direction
  nodes : List (LayoutReport.Node α)
  edges : List LayoutReport.Edge
  groups : List (LayoutReport.Group α)

variable {α : Type}

namespace LayoutReport

/-! ## Reporting on a model -/

def ofNode (node : Model.Node α) : Node α := ⟨node.id, node.cell, node.group, node.bounds?⟩

def ofEdge (edge : Model.Edge) : Edge :=
  ⟨edge.cell, edge.source, edge.target, edge.sourceCell, edge.targetCell⟩

def ofGroup (group : Model.Group α) : Group α :=
  ⟨group.id, group.cell, group.parentCell, group.bounds?⟩

def ofModel (m : Model α) (choice : LayoutChoice α) : LayoutReport α :=
  ⟨m.title, choice.algorithm, choice.direction, m.nodes.map ofNode, m.edges.map ofEdge,
    m.groups.map ofGroup⟩

/-! ## The text of a report -/

open Data (Document)

variable [NumberText α]

def boundsDocument (b : Bounds α) : Document :=
  .object [("x", .number (NumberText.json b.x)), ("y", .number (NumberText.json b.y)),
    ("width", .number (NumberText.json b.width)), ("height", .number (NumberText.json b.height))]

def Node.document (node : Node α) : Document :=
  .object [("id", .string node.id), ("cellId", .count node.cell),
    ("group", .option .string node.group), ("bounds", .option boundsDocument node.bounds)]

def Edge.document (edge : Edge) : Document :=
  .object [("cellId", .count edge.cell), ("from", .string edge.source), ("to", .string edge.target),
    ("sourceCellId", .count edge.sourceCell), ("targetCellId", .count edge.targetCell)]

def Group.document (group : Group α) : Document :=
  .object [("id", .string group.id), ("cellId", .count group.cell),
    ("parentCellId", .count group.parentCell),
    ("bounds", .option boundsDocument group.bounds)]

def document (r : LayoutReport α) : Document :=
  .object [("title", .string r.title), ("algorithm", .string r.algorithm.word),
    ("direction", .string r.direction.word), ("nodes", .array (r.nodes.map Node.document)),
    ("edges", .array (r.edges.map Edge.document)),
    ("groups", .array (r.groups.map Group.document))]

/-- The report as a file holds it. -/
def text (r : LayoutReport α) : String := r.document.pretty

end LayoutReport

end DiagramPress
