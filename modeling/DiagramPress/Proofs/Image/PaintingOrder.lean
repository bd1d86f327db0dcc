-- The order in which an image is painted: groups are painted before nodes, and among
-- each other in the order of their declaration. So a group can be painted over what
-- lies in it, if it was declared behind a group that is nested in it.
import DiagramPress.Proofs.Image.WellFormed
import DiagramPress.Proofs.Markup.Order

namespace DiagramPress

/-- Everything stands behind what it lies in, also where it lies deeper inside. -/
theorem Nesting.OuterFirst.lt {n : Nesting} (h : n.OuterFirst) {i j : Nat}
    (hinside : Relation.TransGen n.InsideAt i j) : j < i := by
  induction hinside with
  | single hij => exact h _ _ hij
  | tail _ hjk ih => exact Nat.lt_trans (h _ _ hjk) ih

namespace Image

open Markup (Element)

/-! ## The parts of an image -/

/-- A group, a node or an edge, by its place in the model. -/
inductive Part where
  | group (i : Nat)
  | node (i : Nat)
  | edge (i : Nat)
deriving DecidableEq, Repr

/-- The part `a` is painted, and the part `b` after it. -/
def PaintedBefore (parts : List (Part × Element)) (a b : Part) : Prop :=
  ∃ x y : Nat, x < y ∧ (∃ e, parts[x]? = some (a, e)) ∧ ∃ e, parts[y]? = some (b, e)

variable {α : Type} [Scalar α] [NumberText α] (canvas : Canvas α) (settings : RenderSettings α)
  (m : Model α)

def groupParts : List (Part × Element) :=
  m.groups.zipIdx.map fun (g, i) => (.group i, groupElement canvas settings g)

def nodeParts : List (Part × Element) :=
  m.nodes.zipIdx.map fun (n, i) => (.node i, nodeElement canvas settings n)

def edgeParts : List (Part × Element) :=
  m.edges.zipIdx.filterMap fun entry =>
    (edgeElement? canvas settings m entry.1).map fun e => (.edge entry.2, e)

/-- The parts of a model that are painted, each with its element, in the order of painting. -/
def parts : List (Part × Element) :=
  groupParts canvas settings m ++ nodeParts canvas settings m ++ edgeParts canvas settings m

/-- The elements of the parts are what an image shows. -/
theorem painted_eq_parts : painted canvas settings m = (parts canvas settings m).map (·.2) := by
  have hedges : (edgeParts canvas settings m).map (·.2) =
      m.edges.filterMap (edgeElement? canvas settings m) := by
    conv_rhs => rw [← List.zipIdx_map_fst 0 m.edges]
    rw [edgeParts, List.map_filterMap, List.filterMap_map]
    refine List.filterMap_congr fun entry _ => ?_
    rw [Option.map_map, Function.comp_apply]
    exact congrFun Option.map_id _
  have hgroups : (groupParts canvas settings m).map (·.2) =
      m.groups.map (groupElement canvas settings) := by
    rw [groupParts, List.map_map]
    exact Build.map_zipIdx_fst (groupElement canvas settings) m.groups 0
  have hnodes : (nodeParts canvas settings m).map (·.2) =
      m.nodes.map (nodeElement canvas settings) := by
    rw [nodeParts, List.map_map]
    exact Build.map_zipIdx_fst (nodeElement canvas settings) m.nodes 0
  rw [parts, List.map_append, List.map_append, hgroups, hnodes, hedges, painted]

/-- In the text of an image, the parts stand one after the other, each on lines of its own. -/
theorem draw_parts : ∃ front back, (draw m settings).toList = front ++
    ((parts (Canvas.ofModel m settings) settings m).flatMap fun part => part.2.lines 1 ++ ['\n']) ++
      back := by
  obtain ⟨front, htext⟩ := (prints_painted m settings).text
  rw [painted_eq_parts, List.flatMap_map] at htext
  exact ⟨front, _, htext⟩

/-! ## The places of groups and nodes -/

section

variable {canvas settings m}

theorem getElem?_groupParts (x : Nat) : (groupParts canvas settings m)[x]? =
    m.groups[x]?.map fun g => (.group x, groupElement canvas settings g) := by
  rw [groupParts, List.getElem?_map, List.getElem?_zipIdx, Option.map_map, Nat.zero_add]
  rfl

theorem getElem?_nodeParts (x : Nat) : (nodeParts canvas settings m)[x]? =
    m.nodes[x]?.map fun n => (.node x, nodeElement canvas settings n) := by
  rw [nodeParts, List.getElem?_map, List.getElem?_zipIdx, Option.map_map, Nat.zero_add]
  rfl

theorem isEdge_of_mem {part : Part × Element} (h : part ∈ edgeParts canvas settings m) :
    ∃ i, part.1 = .edge i := by
  obtain ⟨entry, -, hpart⟩ := List.mem_filterMap.mp h
  obtain ⟨e, -, rfl⟩ := Option.map_eq_some_iff.mp hpart
  exact ⟨entry.2, rfl⟩

theorem length_groupParts : (groupParts canvas settings m).length = m.groups.length := by
  rw [groupParts, List.length_map, List.length_zipIdx]

theorem length_nodeParts : (nodeParts canvas settings m).length = m.nodes.length := by
  rw [nodeParts, List.length_map, List.length_zipIdx]

/-- Groups are painted first of all, in the order of the model. -/
theorem place_of_group {x i : Nat} :
    (∃ e, (parts canvas settings m)[x]? = some (.group i, e)) ↔ x = i ∧ i < m.groups.length := by
  constructor
  · rintro ⟨e, he⟩
    -- Behind the groups there are only nodes and edges, which are other parts.
    rw [parts, List.append_assoc, List.getElem?_append] at he
    split at he
    · rw [getElem?_groupParts] at he
      obtain ⟨g, hg, hpart⟩ := Option.map_eq_some_iff.mp he
      obtain rfl : x = i := Part.group.inj (Prod.mk.inj hpart).1
      exact ⟨rfl, (List.getElem?_eq_some_iff.mp hg).1⟩
    · rcases List.mem_append.mp (List.mem_of_getElem? he) with hmem | hmem
      · obtain ⟨k, hk⟩ := List.mem_iff_getElem?.mp hmem
        rw [getElem?_nodeParts] at hk
        obtain ⟨n, -, hpart⟩ := Option.map_eq_some_iff.mp hk
        cases hpart
      · obtain ⟨k, hk⟩ := isEdge_of_mem hmem
        cases hk
  · rintro ⟨rfl, hlt⟩
    refine ⟨groupElement canvas settings m.groups[x], ?_⟩
    rw [parts, List.append_assoc, List.getElem?_append_left (by rwa [length_groupParts]),
      getElem?_groupParts, List.getElem?_eq_getElem hlt]
    rfl

/-- Behind the groups come the nodes. -/
theorem painted_node {k : Nat} (hk : k < m.nodes.length) :
    ∃ e, (parts canvas settings m)[m.groups.length + k]? = some (.node k, e) := by
  refine ⟨nodeElement canvas settings m.nodes[k], ?_⟩
  rw [parts, List.append_assoc, List.getElem?_append_right (by rw [length_groupParts]; omega),
    length_groupParts, Nat.add_sub_cancel_left,
    List.getElem?_append_left (by rwa [length_nodeParts]), getElem?_nodeParts,
    List.getElem?_eq_getElem hk]
  rfl

theorem paintedBefore_groups_iff {i j : Nat} :
    PaintedBefore (parts canvas settings m) (.group j) (.group i) ↔
      j < i ∧ i < m.groups.length := by
  simp only [PaintedBefore, place_of_group]
  constructor
  · rintro ⟨x, y, hlt, ⟨rfl, -⟩, rfl, hy⟩
    exact ⟨hlt, hy⟩
  · rintro ⟨hlt, hi⟩
    exact ⟨j, i, hlt, ⟨rfl, Nat.lt_trans hlt hi⟩, rfl, hi⟩

/-- No group is painted over a node. -/
theorem paintedBefore_node {i k : Nat} (hi : i < m.groups.length) (hk : k < m.nodes.length) :
    PaintedBefore (parts canvas settings m) (.group i) (.node k) :=
  ⟨i, m.groups.length + k, by omega, place_of_group.mpr ⟨rfl, hi⟩, painted_node hk⟩

/-- No group is painted over a group inside it exactly if every group stands behind the
group around it. -/
theorem outerGroupsFirst_iff :
    (∀ i j, Relation.TransGen m.nesting.InsideAt i j →
      PaintedBefore (parts canvas settings m) (.group j) (.group i)) ↔ m.nesting.OuterFirst := by
  constructor
  · intro h i j hinside
    exact (paintedBefore_groups_iff.mp (h i j (.single hinside))).1
  · intro h i j hinside
    obtain ⟨k, hik, -⟩ := Relation.TransGen.head'_iff.mp hinside
    obtain ⟨g, -, hg, -, -⟩ := Model.insideAt_iff.mp hik
    exact paintedBefore_groups_iff.mpr ⟨h.lt hinside, (List.getElem?_eq_some_iff.mp hg).1⟩

end

end Image

/-! ## Images of accepted descriptions -/

/-- The image of a description, wherever its parts are placed, has its parts one after the
other. Every group is painted before all nodes. Each is painted before all groups that
are nested in it exactly if each is declared behind the group around it. -/
theorem groups_are_painted_in_the_order_of_declaration {α : Type} [Scalar α] [NumberText α]
    (d : Description α) (tables : Tables α) (modelSettings : ModelSettings α) {m : Model α}
    (hm : m.withoutPlaces = (d.build tables modelSettings).1.withoutPlaces)
    (settings : RenderSettings α) :
    let parts := Image.parts (Image.Canvas.ofModel m settings) settings m
    (∃ front back, (Image.draw m settings).toList =
        front ++ (parts.flatMap fun part => part.2.lines 1 ++ ['\n']) ++ back) ∧
      (∀ i < d.groups.length, ∀ k < d.nodes.length,
        Image.PaintedBefore parts (.group i) (.node k)) ∧
      ((∀ i j, Relation.TransGen (Description.nestingOf d.groups).InsideAt i j →
          Image.PaintedBefore parts (.group j) (.group i)) ↔
        (Description.nestingOf d.groups).OuterFirst) := by
  intro parts
  have hgroups : m.groups.length = d.groups.length := by
    rw [Model.length_groups_congr hm, Description.groups_build, List.length_map]
  have hnodes : m.nodes.length = d.nodes.length := by
    have hids := (Model.map_nodes_congr hm fun _ => rfl).trans
      (Description.nodeIds_build d tables modelSettings)
    simpa [Description.nodeIds] using congrArg List.length hids
  refine ⟨Image.draw_parts settings m, fun i hi k hk => ?_, ?_⟩
  · exact Image.paintedBefore_node (by omega) (by omega)
  · rw [← nesting_of_build tables modelSettings hm]
    exact Image.outerGroupsFirst_iff

section Grid

theorem outerFirst_twoGroups :
    (Description.nestingOf (twoGroups [outerGroup, innerGroup]).groups).OuterFirst := by
  rintro i j ⟨id, outer, parent, hi, hj⟩
  match i, j with
  | 0, _ => cases hi
  | 1, 0 => exact Nat.zero_lt_one
  | 1, 1 =>
    cases hi
    exact absurd (Prod.mk.inj (Option.some.inj hj)).1 (by decide)
  | 1, _ + 2 => cases hj
  | _ + 2, _ => cases hi

theorem an_outer_group_declared_first_is_painted_first :
    let built := ((twoGroups [outerGroup, innerGroup]).build Tables.builtin ModelSettings.default).1
    let settings : RenderSettings Grid := RenderSettings.default
    let parts := Image.parts (Image.Canvas.ofModel built settings) settings built
    (twoGroups [outerGroup, innerGroup]).problems = [] ∧
      Image.PaintedBefore parts (.group 0) (.group 1) ∧
      Image.PaintedBefore parts (.group 1) (.node 0) := by
  intro built settings parts
  obtain ⟨-, hnodes, hgroups⟩ := groups_are_painted_in_the_order_of_declaration
    (twoGroups [outerGroup, innerGroup]) Tables.builtin ModelSettings.default rfl settings
  have hinside : (Description.nestingOf (twoGroups [outerGroup, innerGroup]).groups).InsideAt 1 0 :=
    ⟨"inner", "outer", none, rfl, rfl⟩
  exact ⟨by decide, hgroups.mpr outerFirst_twoGroups 1 0 (.single hinside),
    hnodes 1 (by decide) 0 (by decide)⟩

/-- The description is accepted, and wherever its groups are placed, the outer one is
painted over the inner one. -/
theorem an_inner_group_declared_first_is_painted_over :
    let d := twoGroups [innerGroup, outerGroup]
    d.problems = [] ∧ (Description.nestingOf d.groups).InsideAt 0 1 ∧
      ∀ (m : Model Grid) (settings : RenderSettings Grid),
        m.withoutPlaces = (d.build Tables.builtin ModelSettings.default).1.withoutPlaces →
        let parts := Image.parts (Image.Canvas.ofModel m settings) settings m
        Image.PaintedBefore parts (.group 0) (.group 1) ∧
          ¬ Image.PaintedBefore parts (.group 1) (.group 0) := by
  intro d
  refine ⟨by decide, ⟨"inner", "outer", none, rfl, rfl⟩, fun m settings hm => ?_⟩
  have hgroups : m.groups.length = 2 := Model.length_groups_congr hm
  simp [Image.paintedBefore_groups_iff, hgroups]

end Grid

end DiagramPress
