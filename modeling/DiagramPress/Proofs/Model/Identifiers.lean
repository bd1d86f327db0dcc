-- Ids and cells: the entries of a description get consecutive cells, and what an
-- id means is what its cell means, in the document as well as in the image.
import DiagramPress.Proofs.Description.Depth
import DiagramPress.Proofs.Model.WellNumbered
import DiagramPress.Proofs.Number.Grid

namespace DiagramPress

/-! ## Edges that lead nowhere -/

/-- The diagnostic is about an edge that was dropped. -/
def Diagnostic.isUnresolved : Diagnostic → Bool
  | unresolvedEdge _ _ => true
  | unknownShape _ _ _ => false

namespace Description

/-- The edges that the model drops: those with an end that nothing is called. -/
def droppedEdges {α : Type} (d : Description α) : List (Description.Edge α) :=
  d.edges.filter fun e => !(d.has e.source && d.has e.target)

end Description

namespace Build

variable {α : Type}

theorem filterMap_buildEdge_error [NumberText α] (paint : EdgePaint α)
    (cellOf : String → Option Nat) (es : List (Description.Edge α)) :
    ((es.map (buildEdge paint cellOf)).filterMap fun
      | .ok _ => none
      | .error diagnostic => some diagnostic) =
      (es.filter fun e => !((cellOf e.source).isSome && (cellOf e.target).isSome)).map
        fun e => Diagnostic.unresolvedEdge e.source e.target := by
  induction es with
  | nil => rfl
  | cons e es ih =>
    rw [List.map_cons, List.filterMap_cons, ih]
    rcases hs : cellOf e.source with _ | s
    · simp [buildEdge, hs]
    · rcases ht : cellOf e.target with _ | t
      · simp [buildEdge, hs, ht]
      · simp [buildEdge, hs, ht]

/-- What is said about a node is about its shape. -/
theorem isUnresolved_baseStyle {node : Description.Node α} {shapes : ShapeCatalog}
    {diagnostic : Diagnostic} (h : (baseStyle node shapes).2 = some diagnostic) :
    diagnostic.isUnresolved = false := by
  unfold baseStyle at h
  split at h
  · cases h
  · split at h
    · cases h
    · obtain rfl := Option.some.inj h
      rfl

theorem mem_zipIdx_of_cellOf? {first c : Nat} {ids : List String} {id : String}
    (h : cellOf? first ids id = some c) : (id, c) ∈ ids.zipIdx first :=
  List.mem_zipIdx_iff_le_and_getElem?_sub.mpr (cellOf?_eq_some h)

theorem cellOf?_eq_none_iff {first : Nat} {ids : List String} {id : String} :
    cellOf? first ids id = none ↔ id ∉ ids := by
  rw [← Option.not_isSome_iff_eq_none, isSome_cellOf?, List.contains_iff_mem]

end Build

/-! ## Cells in the order of the description -/

/-- The entries of the description have consecutive cells in the model: the groups,
then the nodes, then the edges that it keeps. -/
structure Model.Numbers {α : Type} (m : Model α) (d : Description α) : Prop where
  groups : m.groups.map (fun g => (g.id, g.cell)) = d.groupIds.zipIdx firstCell
  nodes : m.nodes.map (fun n => (n.id, n.cell)) =
    d.nodeIds.zipIdx (firstCell + d.groups.length)
  edges : m.edges.map (fun e => ((e.source, e.target), e.cell)) =
    (d.keptEdges.map fun e => (e.source, e.target)).zipIdx
      (firstCell + d.groups.length + d.nodes.length)

namespace Description

variable {α : Type} [Scalar α] [NumberText α] (d : Description α) (tables : Tables α)
  (settings : ModelSettings α)

/-- What is said about the shapes of nodes comes before what is said about edges. -/
theorem diagnostics_build :
    (d.build tables settings).2 =
      (d.nodes.filterMap fun n => (Build.baseStyle n tables.shapes).2) ++
        d.droppedEdges.map fun e => Diagnostic.unresolvedEdge e.source e.target := by
  have hdropped := Build.filterMap_buildEdge_error (tables.themes.get d.theme).edge d.cellOf? d.edges
  simp only [isSome_cellOf?] at hdropped
  exact congrArg _ hdropped

theorem unresolved_build :
    (d.build tables settings).2.filter Diagnostic.isUnresolved =
      d.droppedEdges.map fun e => .unresolvedEdge e.source e.target := by
  have hshapes : (d.nodes.filterMap fun n => (Build.baseStyle n tables.shapes).2).filter
      Diagnostic.isUnresolved = [] := by
    refine List.filter_eq_nil_iff.mpr fun diagnostic hmem => ?_
    obtain ⟨n, -, hn⟩ := List.mem_filterMap.mp hmem
    simp [Build.isUnresolved_baseStyle hn]
  have hall : (d.droppedEdges.map fun e => Diagnostic.unresolvedEdge e.source e.target).filter
      Diagnostic.isUnresolved =
        d.droppedEdges.map fun e => Diagnostic.unresolvedEdge e.source e.target := by
    refine List.filter_eq_self.mpr fun diagnostic hmem => ?_
    obtain ⟨e, -, rfl⟩ := List.mem_map.mp hmem
    rfl
  rw [diagnostics_build, List.filter_append, hshapes, hall, List.nil_append]

theorem numbers_build (h : d.groupIds.Nodup) : (d.build tables settings).1.Numbers d where
  groups := by
    rw [List.zipIdx_eq_zip_range', ← Build.map_cellOf? Model.firstCell h Model.layerCell,
      ← List.map_prod_left_eq_zip, groups_build, List.map_map, groupIds, List.map_map]
    rfl
  nodes := by
    rw [nodes_build, List.map_map, nodeIds, List.zipIdx_map]
    rfl
  edges := by
    rw [edges_build, List.map_map, List.zipIdx_map]
    rfl

end Description

/-! ## Ends of edges and parents of groups -/

namespace Model

variable {α : Type}

/-- A group hangs below the cell of its parent, or below the layer if no group is its parent. -/
def HangsBelowParent (m : Model α) (g : Group α) : Prop :=
  (∃ p ∈ m.groups, g.parent = some p.id ∧ g.parentCell = p.cell) ∨
    (∀ p ∈ m.groups, g.parent ≠ some p.id) ∧ g.parentCell = layerCell

/-- The id and the cell stand for one and the same node or group: the box that is
found by the id is the box of that cell. -/
inductive EndsAt (m : Model α) (id : String) (cell : Nat) : Prop
  | atNode (n : Node α) (hn : n ∈ m.nodes) (hid : n.id = id) (hcell : n.cell = cell)
      (hbox : m.boundsOf? id = n.bounds?)
  | atGroup (g : Group α) (hg : g ∈ m.groups) (hid : g.id = id) (hcell : g.cell = cell)
      (hbox : m.boundsOf? id = g.bounds?)

namespace Numbers

variable {d : Description α} {m : Model α} (h : m.Numbers d)
include h

theorem groupIds : m.groups.map (·.id) = d.groupIds := by
  have hfst := congrArg (List.map Prod.fst) h.groups
  rwa [List.map_map, List.zipIdx_map_fst] at hfst

theorem nodeIds : m.nodes.map (·.id) = d.nodeIds := by
  have hfst := congrArg (List.map Prod.fst) h.nodes
  rwa [List.map_map, List.zipIdx_map_fst] at hfst

/-- Places make no difference to the numbers. -/
theorem congr {m' : Model α} (hm' : m'.withoutPlaces = m.withoutPlaces) : m'.Numbers d where
  groups := (map_groups_congr hm' fun _ => rfl).trans h.groups
  nodes := (map_nodes_congr hm' fun _ => rfl).trans h.nodes
  edges := edges_congr hm' ▸ h.edges

theorem exists_group {id : String} {c : Nat}
    (hc : Build.cellOf? firstCell d.groupIds id = some c) : ∃ g ∈ m.groups, g.id = id ∧ g.cell = c := by
  have hmem := Build.mem_zipIdx_of_cellOf? hc
  rw [← h.groups] at hmem
  obtain ⟨g, hg, heq⟩ := List.mem_map.mp hmem
  exact ⟨g, hg, Prod.mk.inj heq⟩

theorem exists_node {id : String} {c : Nat}
    (hc : Build.cellOf? (firstCell + d.groups.length) d.nodeIds id = some c) :
    ∃ n ∈ m.nodes, n.id = id ∧ n.cell = c := by
  have hmem := Build.mem_zipIdx_of_cellOf? hc
  rw [← h.nodes] at hmem
  obtain ⟨n, hn, heq⟩ := List.mem_map.mp hmem
  exact ⟨n, hn, Prod.mk.inj heq⟩

/-- What an id stands for in the description is what its cell is in the model. -/
theorem endsAt (hgroups : d.groupIds.Nodup) (hnodes : d.nodeIds.Nodup) {id : String} {c : Nat}
    (hc : d.cellOf? id = some c) : m.EndsAt id c := by
  rcases Option.or_eq_some_iff.mp hc with hc | ⟨hnone, hc⟩
  · obtain ⟨n, hn, rfl, rfl⟩ := h.exists_node hc
    refine .atNode n hn rfl rfl ?_
    have hfind : m.node? n.id = some n := Description.find?_of_nodup (h.nodeIds ▸ hnodes) hn
    rw [boundsOf?, hfind]
  · obtain ⟨g, hg, rfl, rfl⟩ := h.exists_group hc
    refine .atGroup g hg rfl rfl ?_
    have hfind : m.group? g.id = some g := Description.find?_of_nodup (h.groupIds ▸ hgroups) hg
    have hother : m.node? g.id = none := by
      refine List.find?_eq_none.mpr fun n hn hid => ?_
      have hnot := Build.cellOf?_eq_none_iff.mp hnone
      rw [← h.nodeIds] at hnot
      exact hnot (List.mem_map.mpr ⟨n, hn, by simpa using hid⟩)
    rw [boundsOf?, hother, hfind]
    rfl

end Numbers

end Model

namespace Description

variable {α : Type} [Scalar α] [NumberText α] {d : Description α} (tables : Tables α)
  (settings : ModelSettings α)

theorem hangsBelowParent_build (h : d.groupIds.Nodup) {g : Model.Group α}
    (hg : g ∈ (d.build tables settings).1.groups) :
    (d.build tables settings).1.HangsBelowParent g := by
  have hnumbers := numbers_build d tables settings h
  rw [groups_build] at hg
  obtain ⟨entry, -, rfl⟩ := List.mem_map.mp hg
  have hcell : (Build.buildGroup (tables.themes.get d.theme).group d.groupIds entry).parentCell =
      (entry.parent.bind (Build.cellOf? Model.firstCell d.groupIds)).getD Model.layerCell := rfl
  cases hfound : entry.parent.bind (Build.cellOf? Model.firstCell d.groupIds) with
  | some c =>
    obtain ⟨id, hparent, hc⟩ := Option.bind_eq_some_iff.mp hfound
    obtain ⟨p, hp, rfl, rfl⟩ := hnumbers.exists_group hc
    exact .inl ⟨p, hp, hparent, by rw [hcell, hfound, Option.getD_some]⟩
  | none =>
    refine .inr ⟨fun p hp hparent => ?_, by rw [hcell, hfound, Option.getD_none]⟩
    have hunknown := Option.bind_eq_none_iff.mp hfound p.id hparent
    rw [Build.cellOf?_eq_none_iff, ← hnumbers.groupIds] at hunknown
    exact hunknown (List.mem_map_of_mem hp)

end Description

/-! ## The law of the numbers -/

/-- Entries with distinct ids get consecutive cells in their order. The edges that
are dropped are those with an end that nothing is called, and each is reported
once. Groups hang below the cells of their parents; and wherever things are
placed, the box that an edge is drawn to, by the id of its end, is the box of the
cell that the document names. -/
theorem ids_and_cells_stand_for_the_same {α : Type} [Scalar α] [NumberText α]
    (d : Description α) (tables : Tables α) (settings : ModelSettings α)
    (hids : (d.nodeIds ++ d.groupIds).Nodup) :
    let built := d.build tables settings
    built.1.Numbers d ∧
      built.1.groups.map (·.parent) = d.groups.map (·.parent) ∧
      (∀ g ∈ built.1.groups, built.1.HangsBelowParent g) ∧
      built.2.filter Diagnostic.isUnresolved =
        d.droppedEdges.map (fun e => .unresolvedEdge e.source e.target) ∧
      ∀ m : Model α, m.withoutPlaces = built.1.withoutPlaces → ∀ e ∈ m.edges,
        m.EndsAt e.source e.sourceCell ∧ m.EndsAt e.target e.targetCell := by
  intro built
  obtain ⟨hnodes, hgroups, -⟩ := List.nodup_append'.mp hids
  have hnumbers := Description.numbers_build d tables settings hgroups
  refine ⟨hnumbers, ?_, fun g hg => Description.hangsBelowParent_build tables settings hgroups hg,
    Description.unresolved_build d tables settings, fun m hm e he => ?_⟩
  · rw [Description.groups_build, List.map_map]
    rfl
  · rw [Model.edges_congr hm] at he
    obtain ⟨hsource, htarget⟩ := Description.cellOf?_ends_build tables settings he
    have hplaced := hnumbers.congr hm
    exact ⟨hplaced.endsAt hgroups hnodes hsource, hplaced.endsAt hgroups hnodes htarget⟩

section Grid

/-- An edge to nothing in front of one to a group, and a parent that is not there. -/
def danglingDescription : Description Grid where
  title := "dangling"
  theme := .professional
  layout := LayoutChoice.default
  nodes := [⟨"a", "A", "rounded=1;", some "inner", none, none, none⟩]
  edges := [⟨"a", "ghost", none, none, .orthogonal⟩, ⟨"a", "inner", none, none, .orthogonal⟩]
  groups := [⟨"inner", "Inner", some "outer", none⟩, ⟨"outer", "Outer", some "nowhere", none⟩]

theorem a_dropped_edge_takes_no_cell :
    let built := danglingDescription.build Tables.builtin ModelSettings.default
    (danglingDescription.nodeIds ++ danglingDescription.groupIds).Nodup ∧
      built.1.edges.map (fun e => ((e.source, e.target), e.cell)) = [(("a", "inner"), 5)] ∧
      built.2.filter Diagnostic.isUnresolved = [.unresolvedEdge "a" "ghost"] ∧
      ∀ e ∈ built.1.edges, built.1.EndsAt e.source e.sourceCell ∧
        built.1.EndsAt e.target e.targetCell := by
  intro built
  have hids : (danglingDescription.nodeIds ++ danglingDescription.groupIds).Nodup := by decide
  obtain ⟨hnumbers, -, -, hdropped, hends⟩ :=
    ids_and_cells_stand_for_the_same danglingDescription Tables.builtin ModelSettings.default hids
  exact ⟨hids, hnumbers.edges.trans (by decide), hdropped.trans (by decide), hends built.1 rfl⟩

end Grid

end DiagramPress
