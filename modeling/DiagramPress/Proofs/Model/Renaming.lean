-- Renaming: where the ids of a description are replaced one to one, the model has the
-- same cells, and what is looked up by a new id is what was there under the old one.
import DiagramPress.Proofs.Description.WellFormed
import DiagramPress.Proofs.Model.Numbering
import Mathlib.Logic.Equiv.Fintype

namespace DiagramPress

open Function (Injective)

variable {α : Type} {f : String → String}

/-! ## Renamed descriptions -/

namespace Description

def Node.rename (f : String → String) (n : Node α) : Node α :=
  { n with id := f n.id, group := n.group.map f }

def Edge.rename (f : String → String) (e : Edge α) : Edge α :=
  { e with source := f e.source, target := f e.target }

def Group.rename (f : String → String) (g : Group α) : Group α :=
  { g with id := f g.id, parent := g.parent.map f }

/-- The description with every id replaced, wherever it stands. -/
def rename (f : String → String) (d : Description α) : Description α :=
  { d with
    nodes := d.nodes.map (Node.rename f)
    edges := d.edges.map (Edge.rename f)
    groups := d.groups.map (Group.rename f) }

theorem nodeIds_rename (f : String → String) (d : Description α) :
    (d.rename f).nodeIds = d.nodeIds.map f := by
  simp only [nodeIds, rename, List.map_map]
  rfl

theorem groupIds_rename (f : String → String) (d : Description α) :
    (d.rename f).groupIds = d.groupIds.map f := by
  simp only [groupIds, rename, List.map_map]
  rfl

/-- Only what becomes of the ids of the description matters. -/
theorem HangsTogether.rename_congr {d : Description α} (h : d.HangsTogether)
    {g : String → String} (hsame : ∀ id ∈ d.nodeIds ++ d.groupIds, f id = g id) :
    d.rename f = d.rename g := by
  have hnode {id : String} (hid : id ∈ d.nodeIds) : f id = g id :=
    hsame id (List.mem_append_left _ hid)
  have hgroup {id : String} (hid : id ∈ d.groupIds) : f id = g id :=
    hsame id (List.mem_append_right _ hid)
  have hend {id : String} (hid : id ∈ d.nodeIds ∨ id ∈ d.groupIds) : f id = g id :=
    hid.elim hnode hgroup
  have hnodes : d.nodes.map (Node.rename f) = d.nodes.map (Node.rename g) := by
    refine List.map_congr_left fun n hn => ?_
    rw [Node.rename, Node.rename, hnode (List.mem_map_of_mem hn),
      Option.map_congr fun id hid => hgroup (h.member n hn id hid)]
  have hedges : d.edges.map (Edge.rename f) = d.edges.map (Edge.rename g) := by
    refine List.map_congr_left fun e he => ?_
    rw [Edge.rename, Edge.rename, hend (h.source e he), hend (h.target e he)]
  have hgroups : d.groups.map (Group.rename f) = d.groups.map (Group.rename g) := by
    refine List.map_congr_left fun p hp => ?_
    rw [Group.rename, Group.rename, hgroup (List.mem_map_of_mem hp),
      Option.map_congr fun id hid => hgroup (h.parent p hp id hid)]
  rw [rename, rename, hnodes, hedges, hgroups]

/-! ## They are accepted -/

theorem inside_rename_iff {d : Description α} {inner outer : String} :
    (d.rename f).nesting.Inside inner outer ↔
      ∃ a b, d.nesting.Inside a b ∧ f a = inner ∧ f b = outer := by
  simp only [Nesting.Inside, nesting, nestingOf, rename, List.map_map, List.mem_map,
    Function.comp_def, Group.rename, Prod.mk.injEq, Option.map_eq_some_iff]
  constructor
  · rintro ⟨g, hg, rfl, b, hb, rfl⟩
    exact ⟨g.id, b, ⟨g, hg, rfl, hb⟩, rfl, rfl⟩
  · rintro ⟨a, b, ⟨g, hg, rfl, hb⟩, rfl, rfl⟩
    exact ⟨g, hg, rfl, b, hb, rfl⟩

/-- No way outwards becomes a circle. -/
theorem isForest_rename (hf : Injective f) {d : Description α} (h : d.nesting.IsForest) :
    (d.rename f).nesting.IsForest := by
  have hway {x y : String} (hway : Relation.TransGen (d.rename f).nesting.Inside x y) :
      ∃ a b, Relation.TransGen d.nesting.Inside a b ∧ f a = x ∧ f b = y := by
    induction hway with
    | single hstep =>
      obtain ⟨a, b, hab, ha, hb⟩ := inside_rename_iff.mp hstep
      exact ⟨a, b, .single hab, ha, hb⟩
    | tail _ hstep ih =>
      obtain ⟨a, b, hab, ha, hb⟩ := ih
      obtain ⟨b', c, hbc, hb', hc⟩ := inside_rename_iff.mp hstep
      obtain rfl : b = b' := hf (hb.trans hb'.symm)
      exact ⟨a, c, hab.tail hbc, ha, hc⟩
  intro id hcircle
  obtain ⟨a, b, hab, ha, hb⟩ := hway hcircle
  obtain rfl : a = b := hf (ha.trans hb.symm)
  exact h a hab

theorem styles_rename (f : String → String) (d : Description α) :
    (d.rename f).styles = d.styles := by
  simp only [styles, rename, List.filterMap_map]
  rfl

/-- A well-formed description stays well-formed if no new id is empty. -/
theorem WellFormed.rename [Scalar α] {d : Description α} (h : d.WellFormed) (hf : Injective f)
    (hne : ∀ id ∈ d.nodeIds ++ d.groupIds, f id ≠ "") : (d.rename f).WellFormed := by
  have hknown {id : String} (hid : id ∈ d.nodeIds ∨ id ∈ d.groupIds) :
      f id ∈ (d.rename f).nodeIds ∨ f id ∈ (d.rename f).groupIds := by
    rw [nodeIds_rename, groupIds_rename]
    exact hid.imp List.mem_map_of_mem List.mem_map_of_mem
  have hgroup {id : String} (hid : id ∈ d.groupIds) : f id ∈ (d.rename f).groupIds := by
    rw [groupIds_rename]
    exact List.mem_map_of_mem hid
  refine
    { nodes := fun hnone => h.nodes (List.map_eq_nil_iff.mp hnone)
      spacing := h.spacing
      sizes := fun n' hn' => ?_
      nodeIds_ne := fun n' hn' => ?_
      groupIds_ne := fun g' hg' => ?_
      endpoints_ne := fun e' he' => ?_
      opacities := styles_rename f d ▸ h.opacities
      ids_nodup := ?_
      source := fun e' he' => ?_
      target := fun e' he' => ?_
      member := fun n' hn' id hid => ?_
      parent := fun g' hg' id hid => ?_
      forest := isForest_rename hf h.forest }
  · obtain ⟨n, hn, rfl⟩ := List.mem_map.mp hn'
    exact h.sizes n hn
  · obtain ⟨n, hn, rfl⟩ := List.mem_map.mp hn'
    exact hne n.id (List.mem_append_left _ (List.mem_map_of_mem hn))
  · obtain ⟨g, hg, rfl⟩ := List.mem_map.mp hg'
    exact hne g.id (List.mem_append_right _ (List.mem_map_of_mem hg))
  · obtain ⟨e, he, rfl⟩ := List.mem_map.mp he'
    exact ⟨hne _ (List.mem_append.mpr (h.source e he)), hne _ (List.mem_append.mpr (h.target e he))⟩
  · rw [nodeIds_rename, groupIds_rename, ← List.map_append]
    exact h.ids_nodup.map hf
  · obtain ⟨e, he, rfl⟩ := List.mem_map.mp he'
    exact hknown (h.source e he)
  · obtain ⟨e, he, rfl⟩ := List.mem_map.mp he'
    exact hknown (h.target e he)
  · obtain ⟨n, hn, rfl⟩ := List.mem_map.mp hn'
    obtain ⟨old, hold, rfl⟩ := Option.map_eq_some_iff.mp hid
    exact hgroup (h.member n hn old hold)
  · obtain ⟨g, hg, rfl⟩ := List.mem_map.mp hg'
    obtain ⟨old, hold, rfl⟩ := Option.map_eq_some_iff.mp hid
    exact hgroup (h.parent g hg old hold)

end Description

/-- Names that stay apart among some ids stay apart among all, if the other ids are
replaced as well. -/
theorem exists_renaming {ids : List String} (hf : Set.InjOn f {id | id ∈ ids}) :
    ∃ g : String → String, Injective g ∧ ∀ id ∈ ids, f id = g id := by
  have hinjective : Injective fun id : {id // id ∈ ids} => f id.val :=
    fun a b hab => Subtype.ext (hf a.property b.property hab)
  obtain ⟨g, hg⟩ := Equiv.Perm.exists_extending_pair _ _ Subtype.val_injective hinjective
  exact ⟨g, g.injective, fun id hid => (hg ⟨id, hid⟩).symm⟩

/-! ## Renamed models -/

namespace Model

def Node.rename (f : String → String) (n : Node α) : Node α :=
  { n with id := f n.id, group := n.group.map f }

def Edge.rename (f : String → String) (e : Edge) : Edge :=
  { e with source := f e.source, target := f e.target }

def Group.rename (f : String → String) (g : Group α) : Group α :=
  { g with id := f g.id, parent := g.parent.map f }

/-- The model with every id replaced. Cells keep their numbers. -/
def rename (f : String → String) (m : Model α) : Model α :=
  { m with
    groups := m.groups.map (Group.rename f)
    nodes := m.nodes.map (Node.rename f)
    edges := m.edges.map (Edge.rename f) }

variable (hf : Injective f) (m : Model α)
include hf

theorem node?_rename (id : String) :
    (m.rename f).node? (f id) = (m.node? id).map (Node.rename f) := by
  simp only [node?, rename, List.find?_map, Function.comp_def, Node.rename, hf.eq_iff]

theorem group?_rename (id : String) :
    (m.rename f).group? (f id) = (m.group? id).map (Group.rename f) := by
  simp only [group?, rename, List.find?_map, Function.comp_def, Group.rename, hf.eq_iff]

/-- What is looked up by a new reference. -/
theorem bind_group?_rename (id : Option String) :
    (id.map f).bind (m.rename f).group? = (id.bind m.group?).map (Group.rename f) := by
  cases id with
  | none => rfl
  | some id => exact group?_rename hf m id

theorem boundsOf?_rename [Scalar α] (id : String) :
    (m.rename f).boundsOf? (f id) = m.boundsOf? id := by
  unfold boundsOf?
  rw [node?_rename hf, group?_rename hf]
  cases m.node? id with
  | some n => rfl
  | none =>
    cases m.group? id with
    | some g => rfl
    | none => rfl

end Model

/-! ## Models of renamed descriptions -/

namespace Build

theorem cellOf?_rename (hf : Injective f) (first : Nat) (ids : List String) (id : String) :
    cellOf? first (ids.map f) (f id) = cellOf? first ids id := by
  simp only [cellOf?, List.zipIdx_map, ← List.map_reverse, List.find?_map, Function.comp_def,
    Prod.map_fst, hf.eq_iff, Option.map_map]
  rfl

theorem buildGroup_rename (hf : Injective f) [NumberText α] (paint : GroupPaint α)
    (ids : List String) (g : Description.Group α) :
    buildGroup paint (ids.map f) (g.rename f) = (buildGroup paint ids g).rename f := by
  have hparent : (g.parent.map f).bind (cellOf? Model.firstCell (ids.map f)) =
      g.parent.bind (cellOf? Model.firstCell ids) := by
    cases g.parent with
    | none => rfl
    | some id => exact cellOf?_rename hf _ ids id
  simp only [buildGroup, Description.Group.rename, Model.Group.rename, cellOf?_rename hf, hparent]

theorem buildNode_rename [Scalar α] [NumberText α] (tables : Tables α) (paint : NodePaint α)
    (size : Size α) (n : Description.Node α) (cell : Nat) :
    buildNode tables paint size (n.rename f) cell =
      (buildNode tables paint size n cell).rename f := by
  have hstyle : (baseStyle (n.rename f) tables.shapes).1 = (baseStyle n tables.shapes).1 := by
    simp only [baseStyle, Description.Node.rename]
    cases tables.shapes.resolve? n.type with
    | some base => rfl
    | none => by_cases htext : isStyleText n.type = true <;> simp [htext]
  rw [buildNode, hstyle]
  rfl

theorem edgeWith_rename [NumberText α] (paint : EdgePaint α) {cellOf cellOf' : String → Option Nat}
    (h : ∀ id, cellOf' (f id) = cellOf id) (e : Description.Edge α) (cell : Nat) :
    edgeWith paint cellOf' (e.rename f) cell = (edgeWith paint cellOf e cell).rename f := by
  simp only [edgeWith, Description.Edge.rename, Model.Edge.rename, h]

end Build

namespace Description

variable (hf : Injective f) (d : Description α)
include hf

theorem cellOf?_rename (id : String) : (d.rename f).cellOf? (f id) = d.cellOf? id := by
  have hlength : (d.rename f).groups.length = d.groups.length := List.length_map _
  rw [cellOf?, cellOf?, nodeIds_rename, groupIds_rename, Build.cellOf?_rename hf,
    Build.cellOf?_rename hf, hlength]

theorem keptEdges_rename : (d.rename f).keptEdges = d.keptEdges.map (Edge.rename f) := by
  have hedges : (d.rename f).edges = d.edges.map (Edge.rename f) := rfl
  simp only [keptEdges, ← isSome_cellOf?, hedges, List.filter_map, Function.comp_def, Edge.rename,
    cellOf?_rename hf]

/-- The model of a renamed description is the renamed model. -/
theorem build_rename [Scalar α] [NumberText α] (tables : Tables α) (settings : ModelSettings α) :
    ((d.rename f).build tables settings).1 = (d.build tables settings).1.rename f := by
  have hgroups : ((d.rename f).build tables settings).1.groups =
      (d.build tables settings).1.groups.map (Model.Group.rename f) := by
    rw [groups_build, groups_build, groupIds_rename, List.map_map]
    simp only [rename, List.map_map, Function.comp_def, Build.buildGroup_rename hf]
  have hnodes : ((d.rename f).build tables settings).1.nodes =
      (d.build tables settings).1.nodes.map (Model.Node.rename f) := by
    rw [nodes_build, nodes_build, List.map_map]
    simp only [rename, List.length_map, List.zipIdx_map, List.map_map, Function.comp_def,
      Prod.map_fst, Prod.map_snd, Build.buildNode_rename]
    rfl
  have hedges : ((d.rename f).build tables settings).1.edges =
      (d.build tables settings).1.edges.map (Model.Edge.rename f) := by
    rw [edges_build, edges_build, keptEdges_rename hf, List.map_map]
    simp only [rename, List.length_map, List.zipIdx_map, List.map_map, Function.comp_def,
      Prod.map_fst, Prod.map_snd]
    exact List.map_congr_left fun e _ => Build.edgeWith_rename _ (cellOf?_rename hf d) e.1 e.2
  rw [Model.rename, ← hgroups, ← hnodes, ← hedges]
  rfl

end Description

end DiagramPress
