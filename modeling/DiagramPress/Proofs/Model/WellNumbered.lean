-- Models whose cells can be told apart: every model that is built from an
-- accepted description is one, and a layout changes no number.
import DiagramPress.Proofs.Layout.Kept
import DiagramPress.Proofs.Model.Numbering

namespace DiagramPress

namespace Model

variable {α : Type}

/-! ## Cells that can be told apart -/

/-- The cells of groups and nodes, where edges may end. -/
def entityCells (m : Model α) : List Nat := m.groups.map (·.cell) ++ m.nodes.map (·.cell)

/-- The cells of everything in the diagram. -/
def cells (m : Model α) : List Nat := m.entityCells ++ m.edges.map (·.cell)

/-- The cells are distinct, none is one of the foundation, and every edge leads
from a group or a node to a group or a node. -/
structure WellNumbered (m : Model α) : Prop where
  nodup : m.cells.Nodup
  fresh : ∀ c ∈ m.cells, firstCell ≤ c
  source : ∀ e ∈ m.edges, e.sourceCell ∈ m.entityCells
  target : ∀ e ∈ m.edges, e.targetCell ∈ m.entityCells

theorem entityCells_withoutPlaces (m : Model α) : m.withoutPlaces.entityCells = m.entityCells := by
  simp only [entityCells, withoutPlaces, List.map_map]
  rfl

theorem wellNumbered_congr {m m' : Model α} (hentities : m'.entityCells = m.entityCells)
    (hedges : m'.edges = m.edges) (h : m.WellNumbered) : m'.WellNumbered := by
  have hcells : m'.cells = m.cells := by rw [cells, cells, hentities, hedges]
  exact
    { nodup := hcells ▸ h.nodup
      fresh := hcells ▸ h.fresh
      source := by rw [hedges, hentities]; exact h.source
      target := by rw [hedges, hentities]; exact h.target }

end Model

/-! ## Models after a layout -/

namespace Model

variable {α : Type}

/-- Places make no difference to the cells. -/
theorem WellNumbered.congr {m m' : Model α} (h : m'.withoutPlaces = m.withoutPlaces)
    (hm : m.WellNumbered) : m'.WellNumbered := by
  refine wellNumbered_congr ?_ (edges_congr h) hm
  have hentities := congrArg entityCells h
  rwa [entityCells_withoutPlaces, entityCells_withoutPlaces] at hentities

theorem wellNumbered_layout [Scalar α] [NumberText α] {m m' : Model α} {choice : LayoutChoice α}
    {engine : LayoutEngine α} {settings : LayoutSettings α}
    (h : m.layout choice engine settings = .ok m') (hm : m.WellNumbered) : m'.WellNumbered :=
  hm.congr (withoutPlaces_layout h)

end Model

/-! ## Built models -/

namespace Description

variable {α : Type}

/-- An id of an accepted description has a cell among those of groups and nodes. -/
theorem cellOf?_bounds {d : Description α} {id : String} {c : Nat} (h : d.cellOf? id = some c) :
    Model.firstCell ≤ c ∧ c < Model.firstCell + d.groups.length + d.nodes.length := by
  rcases Option.or_eq_some_iff.mp h with h | ⟨-, h⟩
  · obtain ⟨hle, hget⟩ := Build.cellOf?_eq_some h
    have hlt := (List.getElem?_eq_some_iff.mp hget).1
    rw [nodeIds, List.length_map] at hlt
    omega
  · obtain ⟨hle, hget⟩ := Build.cellOf?_eq_some h
    have hlt := (List.getElem?_eq_some_iff.mp hget).1
    rw [groupIds, List.length_map] at hlt
    omega

variable [Scalar α] [NumberText α] {d : Description α} (tables : Tables α)
  (settings : ModelSettings α)

theorem entityCells_build (h : d.groupIds.Nodup) :
    (d.build tables settings).1.entityCells =
      List.range' Model.firstCell (d.groups.length + d.nodes.length) := by
  have hgroups : (d.build tables settings).1.groups.map (·.cell) =
      List.range' Model.firstCell d.groups.length := by
    have := Build.map_cellOf? Model.firstCell h Model.layerCell
    rw [groupIds, List.map_map, List.length_map] at this
    rw [groups_build, List.map_map]
    exact this
  have hnodes : (d.build tables settings).1.nodes.map (·.cell) =
      List.range' (Model.firstCell + d.groups.length) d.nodes.length := by
    rw [nodes_build, List.map_map]
    exact List.zipIdx_map_snd _ _
  rw [Model.entityCells, hgroups, hnodes, List.range'_append_1]

theorem cells_build (h : d.groupIds.Nodup) :
    (d.build tables settings).1.cells = List.range' Model.firstCell
      (d.groups.length + d.nodes.length + d.keptEdges.length) := by
  have hedges : (d.build tables settings).1.edges.map (·.cell) = List.range'
      (Model.firstCell + d.groups.length + d.nodes.length) d.keptEdges.length := by
    rw [edges_build, List.map_map]
    exact List.zipIdx_map_snd _ _
  rw [Model.cells, entityCells_build tables settings h, hedges, Nat.add_assoc Model.firstCell,
    List.range'_append_1]

/-- The number that an id gets is the cell of a group or of a node. -/
theorem mem_entityCells_of_cellOf? (h : d.groupIds.Nodup) {id : String} {c : Nat}
    (hc : d.cellOf? id = some c) : c ∈ (d.build tables settings).1.entityCells := by
  obtain ⟨hle, hlt⟩ := cellOf?_bounds hc
  rw [entityCells_build tables settings h, List.mem_range'_1]
  omega

/-- The ends of an edge that the model keeps have the cells that their ids get. -/
theorem cellOf?_ends_build {e : Model.Edge} (he : e ∈ (d.build tables settings).1.edges) :
    d.cellOf? e.source = some e.sourceCell ∧ d.cellOf? e.target = some e.targetCell := by
  rw [edges_build] at he
  obtain ⟨⟨edge, cell⟩, hmem, rfl⟩ := List.mem_map.mp he
  have hkept := (List.mem_filter.mp (List.fst_mem_of_mem_zipIdx hmem)).2
  obtain ⟨hsource, htarget⟩ := Bool.and_eq_true_iff.mp hkept
  obtain ⟨s, hs⟩ := Option.isSome_iff_exists.mp ((isSome_cellOf? d edge.source).trans hsource)
  obtain ⟨t, ht⟩ := Option.isSome_iff_exists.mp ((isSome_cellOf? d edge.target).trans htarget)
  simp only [Build.edgeWith, hs, ht, Option.getD_some, and_self]

theorem wellNumbered_build (h : d.groupIds.Nodup) :
    (d.build tables settings).1.WellNumbered where
  nodup := by
    rw [cells_build tables settings h]
    exact List.nodup_range'
  fresh := by
    intro c hc
    rw [cells_build tables settings h, List.mem_range'_1] at hc
    exact hc.1
  source := fun _ he =>
    mem_entityCells_of_cellOf? tables settings h (cellOf?_ends_build tables settings he).1
  target := fun _ he =>
    mem_entityCells_of_cellOf? tables settings h (cellOf?_ends_build tables settings he).2

end Description

end DiagramPress
