-- A layout is complete: the request holds the whole model, the engine answers
-- it, and afterwards every group and every node has its place.
import DiagramPress.Proofs.Layout.Answer
import DiagramPress.Proofs.Layout.Growth
import DiagramPress.Proofs.Layout.Request
import DiagramPress.Proofs.Number.Grid
import DiagramPress.Proofs.Number.Written

namespace DiagramPress

open Model

namespace Layout

variable {α : Type}

/-! ## Requests in order -/

/-- `container` gives the groups of a model their containers in a request. -/
structure HoldsModel (m : Model α) (container : Model.Group α → Frame α) (root : Frame α) :
    Prop where
  /-- Inside are the containers of all groups and the leaves of all nodes, each once. -/
  inside : root.inside.Perm (m.groups.map container ++ m.nodes.map leafOf)
  names : root.names.Perm (m.entityCells.map toString)
  names_nodup : root.names.Nodup
  /-- What lies in no group hangs on the outermost frame, groups first. -/
  outermost : root.children = m.outerGroups.map container ++ m.outerNodes.map leafOf
  /-- What lies in a group hangs on its container, groups first. -/
  children : ∀ g ∈ m.groups, (container g).children =
    (m.innerGroups g).map container ++ (m.members g).map leafOf
  group_name : ∀ g ∈ m.groups, (container g).id = toString g.cell
  node_name : ∀ n ∈ m.nodes, (leafOf n).id = toString n.cell
  node_children : ∀ n ∈ m.nodes, (leafOf n).children = []
  node_size : ∀ n ∈ m.nodes,
    (leafOf n).width = some n.size.width ∧ (leafOf n).height = some n.size.height
  node_pinned : ∀ n ∈ m.nodes, (leafOf n).isPinned = n.position.isSome
  /-- All edges are on the outermost frame, and none is inside. -/
  links : root.links = m.edges.map fun edge =>
    { id := toString edge.cell
      sources := [toString edge.sourceCell]
      targets := [toString edge.targetCell] }
  no_links : ∀ f ∈ root.inside, f.links = []

theorem holdsModel_request [NumberText α] {m : Model α} (hm : m.Nested) (hcells : m.WellNumbered)
    (method : Method) (choice : LayoutChoice α) (settings : LayoutSettings α) :
    HoldsModel m (containerFor m (containerSettings method choice settings.groupPadding))
      (request m method choice settings) := by
  have hinside := perm_inside_request hm method choice settings
  have hnames := perm_names_request hm method choice settings
  have hentities : m.entityCells.Nodup := (List.nodup_append.mp hcells.nodup).1
  refine
    { inside := hinside
      names := hnames
      names_nodup := hnames.nodup_iff.mpr (hentities.map toString_injective)
      outermost := children_request hm method choice settings
      children := fun g hg => by rw [containerFor_eq hm _ hg]
      group_name := fun g hg => by rw [containerFor_eq hm _ hg]; rfl
      node_name := fun n _ => leafOf_id n
      node_children := fun n _ => leafOf_children n
      node_size := fun n _ => leafOf_size n
      node_pinned := fun n _ => isPinned_leafOf n
      links := rfl
      no_links := fun f hf => ?_ }
  rcases List.mem_append.mp (hinside.mem_iff.mp hf) with hf | hf
  · obtain ⟨g, hg, rfl⟩ := List.mem_map.mp hf
    rw [containerFor_eq hm _ hg]
    rfl
  · obtain ⟨n, -, rfl⟩ := List.mem_map.mp hf
    exact leafOf_links n

theorem methodOf?_of_ne_none {algorithm : Algorithm} (h : algorithm ≠ .none) :
    ∃ method, methodOf? algorithm = some method := by
  cases algorithm with
  | none => exact absurd rfl h
  | _ => exact ⟨_, rfl⟩

end Layout

/-! ## Models with all their places -/

/-- Every node has a position, every group a position and a size. -/
structure Model.Placed {α : Type} (m : Model α) : Prop where
  nodes : ∀ n ∈ m.nodes, n.position.isSome
  groups : ∀ g ∈ m.groups, g.position.isSome ∧ g.size.isSome

namespace Layout

variable {α : Type}

variable [Scalar α]

/-- A model whose cells all have frames in the answer is placed by it. -/
theorem placed_writeBack {m : Model α} {answer : Frame α}
    (h : ∀ c ∈ m.entityCells, toString c ∈ answer.names) : (writeBack m answer).Placed where
  nodes := by
    intro n hn
    obtain ⟨n, hmem, rfl⟩ := List.mem_map.mp hn
    obtain ⟨b, hb⟩ := exists_boxOf? answer.offset
      (h n.cell (List.mem_append_right _ (List.mem_map_of_mem hmem)))
    rw [writeNode, hb]
    cases hposition : n.position with
    | none => rfl
    | some p => simp [hposition]
  groups g hg := Group.isSome_bounds?_iff.mp <|
    isSome_bounds?_writeBack (fun g hg => h g.cell (List.mem_append_left _ (List.mem_map_of_mem hg)))
      g hg

/-- Nothing loses its place while groups grow around their members. -/
theorem placed_encloseMembers (padding : Padding α) {m : Model α} (h : m.Placed) :
    (encloseMembers padding m).Placed where
  nodes := by
    rw [nodes_encloseMembers]
    exact h.nodes
  groups g hg := Group.isSome_bounds?_iff.mp <|
    isSome_bounds?_encloseMembers padding (fun g hg => Group.isSome_bounds?_iff.mpr (h.groups g hg))
      g hg

/-! ## Answers -/

/-- The engine answers a request that holds a model. -/
theorem HoldsModel.run_ok [NumberText α] {m : Model α} {container : Model.Group α → Frame α}
    {root : Frame α} (h : HoldsModel m container root) (hcells : m.WellNumbered)
    (e : NestedLayout.EngineSettings α) :
    ∃ answer, NestedLayout.run e root = .ok answer ∧ answer.names = root.names := by
  have hentity {c : Nat} (hc : c ∈ m.entityCells) : toString c ∈ root.names :=
    h.names.mem_iff.mpr (List.mem_map_of_mem hc)
  have hlinks : NestedLayout.links root = root.links := by
    have hnone : root.inside.flatMap (·.links) = [] := List.flatMap_eq_nil_iff.mpr h.no_links
    rw [NestedLayout.links_eq_inside, hnone, List.append_nil]
  refine NestedLayout.run_ok e h.names_nodup fun link hlink id hid => ?_
  rw [hlinks, h.links] at hlink
  obtain ⟨edge, hedge, rfl⟩ := List.mem_map.mp hlink
  rcases List.mem_append.mp hid with hid | hid
  · obtain rfl := List.mem_singleton.mp hid
    exact hentity (hcells.source edge hedge)
  · obtain rfl := List.mem_singleton.mp hid
    exact hentity (hcells.target edge hedge)

/-- A layout with an algorithm succeeds and leaves nothing without a place. -/
theorem layout_ok [NumberText α] {m : Model α} (hm : m.Nested) (hcells : m.WellNumbered)
    {choice : LayoutChoice α} {method : Method} (hmethod : methodOf? choice.algorithm = some method)
    (settings : LayoutSettings α) (e : NestedLayout.EngineSettings α) :
    ∃ m', m.layout choice (NestedLayout.run e) settings = .ok m' ∧ m'.Placed := by
  have hholds := holdsModel_request hm hcells method choice settings
  obtain ⟨answer, hanswer, hnames⟩ := hholds.run_ok hcells e
  refine ⟨encloseMembers settings.groupPadding (writeBack m answer), ?_, ?_⟩
  · rw [Model.layout, hmethod]
    simp only [hanswer, Except.map]
  · refine placed_encloseMembers _ (placed_writeBack fun c hc => ?_)
    rw [hnames]
    exact hholds.names.mem_iff.mpr (List.mem_map_of_mem hc)

end Layout

/-! ## The law of the layout -/

/-- The request for an accepted description holds every group and every node once,
each where it belongs, and all edges. The engine answers it, whatever its methods
do, and then every node has a position and every group a position and a size. -/
theorem accepted_descriptions_are_laid_out {α : Type} [Scalar α] [NumberText α]
    (d : Description α) (tables : Tables α) (modelSettings : ModelSettings α)
    (choice : LayoutChoice α) (settings : LayoutSettings α) (hd : d.problems = [])
    (hchoice : choice.algorithm ≠ .none) :
    let m := (d.build tables modelSettings).1
    ∃ method, Layout.methodOf? choice.algorithm = some method ∧
      (∃ container, Layout.HoldsModel m container
        (Layout.request m method choice settings)) ∧
      ∀ e : NestedLayout.EngineSettings α,
        (∃ answer, NestedLayout.run e (Layout.request m method choice settings) = .ok answer) ∧
        ∃ m', m.layout choice (NestedLayout.run e) settings = .ok m' ∧ m'.Placed := by
  intro m
  have hcoherent := Description.hangsTogether_of_accepted hd
  have hcells : m.WellNumbered :=
    Description.wellNumbered_build tables modelSettings hcoherent.groups_nodup
  have hnested : m.Nested := nested_build hcoherent tables modelSettings
  obtain ⟨method, hmethod⟩ := Layout.methodOf?_of_ne_none hchoice
  have hholds := Layout.holdsModel_request hnested hcells method choice settings
  refine ⟨method, hmethod, ⟨_, hholds⟩, fun e => ⟨?_, ?_⟩⟩
  · obtain ⟨answer, hanswer, -⟩ := hholds.run_ok hcells e
    exact ⟨answer, hanswer⟩
  · exact Layout.layout_ok hnested hcells hmethod settings e

section Grid

/-- A group that is described before the one around it, and a node that is placed by hand. -/
def nestedDescription : Description Grid where
  title := "nested"
  theme := .professional
  layout := ⟨.hierarchical, .topBottom, Spacing.default⟩
  nodes :=
    [⟨"a", "A", "rounded=1;", some "inner", none, none, some ⟨(5 : Int), (7 : Int)⟩⟩,
      ⟨"b", "B", "rounded=1;", some "outer", none, none, none⟩]
  edges := [⟨"a", "b", none, none, .orthogonal⟩, ⟨"b", "inner", none, none, .orthogonal⟩]
  groups := [⟨"inner", "Inner", some "outer", none⟩, ⟨"outer", "Outer", none, none⟩]

theorem a_nested_description_is_laid_out :
    let m := (nestedDescription.build Tables.builtin ModelSettings.default).1
    nestedDescription.problems = [] ∧ nestedDescription.layout.algorithm ≠ .none ∧
      (∃ container, Layout.HoldsModel m container
        (Layout.request m .layered nestedDescription.layout LayoutSettings.default)) ∧
      ∃ m', m.layout nestedDescription.layout (NestedLayout.bundled LayoutSettings.default)
        LayoutSettings.default = .ok m' ∧ m'.Placed := by
  intro m
  have hd : nestedDescription.problems = [] := by decide
  have hchoice : nestedDescription.layout.algorithm ≠ .none := by decide
  obtain ⟨method, hmethod, hholds, hanswer⟩ := accepted_descriptions_are_laid_out
    nestedDescription Tables.builtin ModelSettings.default nestedDescription.layout
    LayoutSettings.default hd hchoice
  obtain rfl : Method.layered = method := Option.some.inj hmethod
  exact ⟨hd, hchoice, hholds, (hanswer _).2⟩

end Grid

end DiagramPress
