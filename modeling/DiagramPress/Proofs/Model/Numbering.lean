-- The numbering of a built model: groups, then nodes, then edges have the
-- cells that follow each other from the first free one on.
import DiagramPress.Model.Build
import DiagramPress.Proofs.Description.Accepted
import Mathlib.Data.List.Forall2

namespace DiagramPress

/-! ## Cells by their ids -/

namespace Build

theorem cellOf?_eq_some {first c : Nat} {ids : List String} {id : String}
    (h : cellOf? first ids id = some c) : first ≤ c ∧ ids[c - first]? = some id := by
  obtain ⟨⟨name, c'⟩, hfind, rfl⟩ := Option.map_eq_some_iff.mp h
  have hmem := List.mem_reverse.mp (List.mem_of_find?_eq_some hfind)
  obtain rfl : name = id := by simpa using List.find?_some hfind
  exact List.mem_zipIdx_iff_le_and_getElem?_sub.mp hmem

theorem isSome_cellOf? (first : Nat) (ids : List String) (id : String) :
    (cellOf? first ids id).isSome = ids.contains id := by
  apply Bool.eq_iff_iff.mpr
  rw [cellOf?, Option.isSome_map, List.find?_isSome, List.contains_iff_mem]
  constructor
  · rintro ⟨⟨name, c⟩, hmem, hname⟩
    obtain rfl : name = id := by simpa using hname
    exact List.fst_mem_of_mem_zipIdx (List.mem_reverse.mp hmem)
  · intro hmem
    obtain ⟨i, hi⟩ := List.mem_iff_getElem?.mp hmem
    exact ⟨(id, first + i), List.mem_reverse.mpr
      (List.mem_zipIdx_iff_le_and_getElem?_sub.mpr (by simpa using hi)), by simp⟩

/-- With distinct ids, a cell says where its id stands. -/
theorem cellOf?_of_getElem? {first i : Nat} {ids : List String} {id : String} (h : ids.Nodup)
    (hi : ids[i]? = some id) : cellOf? first ids id = some (first + i) := by
  have hmem : id ∈ ids := List.mem_of_getElem? hi
  obtain ⟨c, hc⟩ := Option.isSome_iff_exists.mp
    ((isSome_cellOf? first ids id).trans (List.contains_iff_mem.mpr hmem))
  obtain ⟨hle, hget⟩ := cellOf?_eq_some hc
  have hlt : c - first < ids.length := (List.getElem?_eq_some_iff.mp hget).1
  have hsame : c - first = i := (List.getElem?_inj hlt h).mp (hget.trans hi.symm)
  rw [hc]
  congr 1
  omega

theorem map_cellOf? {ids : List String} (first : Nat) (h : ids.Nodup) (default : Nat) :
    ids.map (fun id => (cellOf? first ids id).getD default) = List.range' first ids.length := by
  apply List.ext_getElem?
  intro i
  rw [List.getElem?_map]
  cases hi : ids[i]? with
  | none =>
    have hlen := List.getElem?_eq_none_iff.mp hi
    simp [hlen]
  | some id =>
    have hlt := (List.getElem?_eq_some_iff.mp hi).1
    simp [cellOf?_of_getElem? h hi, List.getElem?_range' hlt]

/-- What does not look at the numbers of a numbered list. -/
theorem map_zipIdx_fst {β γ : Type} (f : β → γ) (l : List β) (first : Nat) :
    (l.zipIdx first).map (fun entry => f entry.1) = l.map f := by
  have h := congrArg (List.map f) (List.zipIdx_map_fst first l)
  rwa [List.map_map] at h

/-- The entries of a list and what is made of them with their numbers. -/
theorem forall₂_zipIdx {β γ : Type} {R : β → γ → Prop} {f : β × Nat → γ} (l : List β)
    (first : Nat) (h : ∀ x i, R x (f (x, i))) : List.Forall₂ R l ((l.zipIdx first).map f) := by
  have hpairs : List.Forall₂ R ((l.zipIdx first).map Prod.fst) ((l.zipIdx first).map f) := by
    rw [List.forall₂_map_left_iff, List.forall₂_map_right_iff, List.forall₂_same]
    exact fun entry _ => h entry.1 entry.2
  rwa [List.zipIdx_map_fst] at hpairs

/-- An edge between cells that are there. -/
def edgeWith {α : Type} [NumberText α] (paint : EdgePaint α) (cellOf : String → Option Nat)
    (edge : Description.Edge α) (cell : Nat) : Model.Edge :=
  { cell := cell
    source := edge.source
    target := edge.target
    sourceCell := (cellOf edge.source).getD Model.layerCell
    targetCell := (cellOf edge.target).getD Model.layerCell
    label := Markup.escape (edge.label.getD "")
    style := edgeStyle edge.routing paint (edge.style.getD .blank) }

end Build

/-! ## The parts of a built model -/

namespace Description

variable {α : Type}

/-- The cell that an id of the description gets; nodes come before groups. -/
def cellOf? (d : Description α) (id : String) : Option Nat :=
  (Build.cellOf? (Model.firstCell + d.groups.length) d.nodeIds id).or
    (Build.cellOf? Model.firstCell d.groupIds id)

/-- A node or a group has this id. -/
def has (d : Description α) (id : String) : Bool := d.nodeIds.contains id || d.groupIds.contains id

theorem isSome_cellOf? (d : Description α) (id : String) : (d.cellOf? id).isSome = d.has id := by
  rw [cellOf?, Option.isSome_or, Build.isSome_cellOf?, Build.isSome_cellOf?, has]

/-- The edges that the model keeps: those with both ends in the description. -/
def keptEdges (d : Description α) : List (Description.Edge α) :=
  d.edges.filter fun e => d.has e.source && d.has e.target

theorem HangsTogether.keptEdges_eq {d : Description α} (h : d.HangsTogether) :
    d.keptEdges = d.edges := by
  refine List.filter_eq_self.mpr fun e he => ?_
  simpa [has] using ⟨h.source e he, h.target e he⟩

theorem filterMap_buildEdge [NumberText α] (paint : EdgePaint α) (cellOf : String → Option Nat)
    (es : List (Description.Edge α)) :
    ((es.map (Build.buildEdge paint cellOf)).filterMap fun
      | .ok edge => some edge
      | .error _ => none) =
      (es.filter fun e => (cellOf e.source).isSome && (cellOf e.target).isSome).map
        fun e => Build.edgeWith paint cellOf e 0 := by
  induction es with
  | nil => rfl
  | cons e es ih =>
    rw [List.map_cons, List.filterMap_cons, ih]
    rcases hs : cellOf e.source with _ | s
    · simp [Build.buildEdge, hs]
    · rcases ht : cellOf e.target with _ | t
      · simp [Build.buildEdge, hs, ht]
      · simp [Build.buildEdge, Build.edgeWith, hs, ht]

variable [Scalar α] [NumberText α] (d : Description α) (tables : Tables α)
  (settings : ModelSettings α)

theorem groups_build :
    (d.build tables settings).1.groups =
      d.groups.map (Build.buildGroup (tables.themes.get d.theme).group d.groupIds) := rfl

theorem nodes_build :
    (d.build tables settings).1.nodes =
      (d.nodes.zipIdx (Model.firstCell + d.groups.length)).map fun (node, cell) =>
        Build.buildNode tables (tables.themes.get d.theme).node settings.nodeSize node cell := rfl

theorem groupIds_build : (d.build tables settings).1.groups.map (·.id) = d.groupIds := by
  rw [groups_build, List.map_map]
  rfl

theorem nodeIds_build : (d.build tables settings).1.nodes.map (·.id) = d.nodeIds := by
  rw [nodes_build, List.map_map]
  exact Build.map_zipIdx_fst (fun n : Description.Node α => n.id) _ _

theorem edges_build :
    (d.build tables settings).1.edges =
      (d.keptEdges.zipIdx (Model.firstCell + d.groups.length + d.nodes.length)).map
        fun (e, cell) => Build.edgeWith (tables.themes.get d.theme).edge d.cellOf? e cell := by
  have h := filterMap_buildEdge (tables.themes.get d.theme).edge d.cellOf? d.edges
  let withCell (entry : Model.Edge × Nat) : Model.Edge := { entry.1 with cell := entry.2 }
  have hkept := congrArg (fun kept : List Model.Edge =>
    (kept.zipIdx (Model.firstCell + d.groups.length + d.nodes.length)).map withCell) h
  refine hkept.trans ?_
  simp only [isSome_cellOf?]
  rw [List.zipIdx_map, List.map_map]
  rfl

/-! ## Labels -/

/-- The labels of the description, of everything that gets a cell. -/
def labels (d : Description α) : List String :=
  d.groups.map (·.label) ++ d.nodes.map (·.label) ++ d.keptEdges.map fun e => e.label.getD ""

end Description

/-- The labels of all cells, as the model stores them. -/
def Model.labels {α : Type} (m : Model α) : List String :=
  m.groups.map (·.label) ++ m.nodes.map (·.label) ++ m.edges.map (·.label)

theorem Description.labels_build {α : Type} [Scalar α] [NumberText α] (d : Description α)
    (tables : Tables α) (settings : ModelSettings α) :
    (d.build tables settings).1.labels = d.labels.map Markup.escape := by
  have hgroups : (d.build tables settings).1.groups.map (·.label) =
      d.groups.map fun g => Markup.escape g.label := by
    simp only [groups_build, List.map_map, Function.comp_def, Build.buildGroup]
  have hnodes : (d.build tables settings).1.nodes.map (·.label) =
      d.nodes.map fun n => Markup.escape n.label := by
    simp only [nodes_build, List.map_map, Function.comp_def, Build.buildNode,
      Build.map_zipIdx_fst (fun n : Description.Node α => Markup.escape n.label)]
  have hedges : (d.build tables settings).1.edges.map (·.label) =
      d.keptEdges.map fun e => Markup.escape (e.label.getD "") := by
    simp only [edges_build, List.map_map, Function.comp_def, Build.edgeWith,
      Build.map_zipIdx_fst (fun e : Description.Edge α => Markup.escape (e.label.getD ""))]
  simp only [Model.labels, hgroups, hnodes, hedges, labels, List.map_append, List.map_map,
    Function.comp_def]

end DiagramPress
