-- Looks: what a description says about titles, labels, shapes and styles. Without them a
-- model is the same, whatever they were: the same cells, parents, positions and sizes.
import DiagramPress.Proofs.Model.Numbering

namespace DiagramPress

variable {α : Type}

/-! ## Descriptions without looks -/

namespace Description

def Node.withoutLooks (n : Node α) : Node α := { n with label := "", type := "", style := none }

def Edge.withoutLooks (e : Edge α) : Edge α :=
  { e with label := none, style := none, routing := .straight }

def Group.withoutLooks (g : Group α) : Group α := { g with label := "", style := none }

/-- What is left of a description when nothing is said about the looks: how it is to be laid
out, what there is, how it hangs together, and which places and sizes are given. -/
def withoutLooks (d : Description α) : Description α :=
  { d with
    title := ""
    theme := .professional
    nodes := d.nodes.map Node.withoutLooks
    edges := d.edges.map Edge.withoutLooks
    groups := d.groups.map Group.withoutLooks }

theorem nodeIds_withoutLooks (d : Description α) : d.withoutLooks.nodeIds = d.nodeIds := by
  simp only [nodeIds, withoutLooks, List.map_map]
  rfl

theorem groupIds_withoutLooks (d : Description α) : d.withoutLooks.groupIds = d.groupIds := by
  simp only [groupIds, withoutLooks, List.map_map]
  rfl

theorem has_withoutLooks (d : Description α) (id : String) : d.withoutLooks.has id = d.has id := by
  rw [has, has, nodeIds_withoutLooks, groupIds_withoutLooks]

theorem cellOf?_withoutLooks (d : Description α) : d.withoutLooks.cellOf? = d.cellOf? := by
  funext id
  have hlength : d.withoutLooks.groups.length = d.groups.length := List.length_map _
  rw [cellOf?, cellOf?, nodeIds_withoutLooks, groupIds_withoutLooks, hlength]

theorem keptEdges_withoutLooks (d : Description α) :
    d.withoutLooks.keptEdges = d.keptEdges.map Edge.withoutLooks := by
  have hedges : d.withoutLooks.edges = d.edges.map Edge.withoutLooks := rfl
  simp only [keptEdges, has_withoutLooks, hedges, List.filter_map, Function.comp_def,
    Edge.withoutLooks]

end Description

/-! ## Models without looks -/

namespace Model

def Node.withoutLooks (n : Node α) : Node α := { n with label := "", style := .empty }

def Edge.withoutLooks (e : Edge) : Edge := { e with label := "", style := .empty }

def Group.withoutLooks (g : Group α) : Group α := { g with label := "", style := .empty }

/-- The model with nothing in it but its structure and its geometry. -/
def withoutLooks (m : Model α) : Model α :=
  { title := ""
    background := ""
    groups := m.groups.map Group.withoutLooks
    nodes := m.nodes.map Node.withoutLooks
    edges := m.edges.map Edge.withoutLooks }

theorem group?_withoutLooks (m : Model α) (id : String) :
    m.withoutLooks.group? id = (m.group? id).map Group.withoutLooks := by
  simp only [group?, withoutLooks, List.find?_map]
  rfl

end Model

/-! ## Models of restyled descriptions -/

/-- The looks of a description and the tables they are looked up in make no difference to
what a model is without its looks. -/
theorem Description.build_withoutLooks [Scalar α] [NumberText α] (d : Description α)
    (tables tables' : Tables α) (settings : ModelSettings α) :
    (d.withoutLooks.build tables' settings).1.withoutLooks =
      (d.build tables settings).1.withoutLooks := by
  have hlength : d.withoutLooks.groups.length = d.groups.length := List.length_map _
  have hnodesLength : d.withoutLooks.nodes.length = d.nodes.length := List.length_map _
  have hgroups : (d.withoutLooks.build tables' settings).1.groups.map Model.Group.withoutLooks =
      (d.build tables settings).1.groups.map Model.Group.withoutLooks := by
    rw [groups_build, groups_build, groupIds_withoutLooks]
    simp only [withoutLooks, List.map_map, Function.comp_def, Build.buildGroup,
      Group.withoutLooks, Model.Group.withoutLooks]
  have hnodes : (d.withoutLooks.build tables' settings).1.nodes.map Model.Node.withoutLooks =
      (d.build tables settings).1.nodes.map Model.Node.withoutLooks := by
    rw [nodes_build, nodes_build, hlength]
    simp only [withoutLooks, List.zipIdx_map, List.map_map, Function.comp_def, Prod.map,
      Build.buildNode, Node.withoutLooks, Model.Node.withoutLooks, id_eq]
  have hedges : (d.withoutLooks.build tables' settings).1.edges.map Model.Edge.withoutLooks =
      (d.build tables settings).1.edges.map Model.Edge.withoutLooks := by
    rw [edges_build, edges_build, keptEdges_withoutLooks, cellOf?_withoutLooks, hlength,
      hnodesLength]
    simp only [List.zipIdx_map, List.map_map, Function.comp_def, Prod.map, Build.edgeWith,
      Edge.withoutLooks, Model.Edge.withoutLooks, id_eq]
  rw [Model.withoutLooks, hgroups, hnodes, hedges]
  rfl

/-- Descriptions that differ in their looks alone have models that differ in their looks alone. -/
theorem Description.withoutLooks_build_congr [Scalar α] [NumberText α] {d d' : Description α}
    (h : d'.withoutLooks = d.withoutLooks) (tables tables' : Tables α)
    (settings : ModelSettings α) :
    (d'.build tables' settings).1.withoutLooks = (d.build tables settings).1.withoutLooks := by
  rw [← d'.build_withoutLooks tables' tables settings, h, d.build_withoutLooks]

end DiagramPress
