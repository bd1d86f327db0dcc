-- Diagrams without overlaps: where nothing is placed by hand, the methods that pack,
-- stack or spread boxes leave a gap between any two of which neither holds the other.
import DiagramPress.Proofs.Layout.ForceSpacing
import DiagramPress.Proofs.Layout.Pinned
import DiagramPress.Proofs.Layout.TreeSpacing
import DiagramPress.Proofs.Layout.WrittenBack

namespace DiagramPress

/-! ## Methods that keep children apart -/

namespace Methods

variable {α : Type}

/-- The methods of the program, except that the forces may leave the centres anywhere. -/
def around [Scalar α] (centers : Placement α → Nat → Point α) : Methods α
  | .force => fun p => ForcePlacement.placeAround ((List.range p.count).map (centers p)) p
  | method => bundled method

variable [ExactScalar α]

/-- In the program the forces leave the centres where the simulation ends. -/
theorem bundled_eq_around : (bundled : Methods α) =
    around fun p i => (ForcePlacement.simulate p)[i]?.getD Point.origin := by
  funext method p
  cases method with
  | force =>
    have hcenters : (List.range p.count).map
        (fun i => (ForcePlacement.simulate p)[i]?.getD Point.origin) =
        ForcePlacement.simulate p := by
      refine List.ext_getElem ?_ fun i hi hi' => ?_
      · rw [List.length_map, List.length_range, ForcePlacement.length_simulate]
      · rw [List.getElem_map, List.getElem_range, List.getElem?_eq_getElem hi', Option.getD_some]
    show ForcePlacement.placeAround (ForcePlacement.simulate p) p = ForcePlacement.placeAround _ p
    rw [hcenters]
  | _ => rfl

theorem fills_around (centers : Placement α → Nat → Point α) :
    NestedLayout.FillsPlacements (around centers) := by
  intro method p hnode hsizes
  cases method with
  | force =>
    refine ForcePlacement.isFilledBy_placeAround ?_
    rw [List.length_map, List.length_range]
  | layered => exact isFilledBy_bundled .layered hnode hsizes
  | tree => exact isFilledBy_bundled .tree hnode hsizes
  | radial => exact isFilledBy_bundled .radial hnode hsizes
  | rows => exact isFilledBy_bundled .rows hnode hsizes

/-- Trees and rows keep children apart, and so do forces, wherever they leave the centres. -/
theorem spaces_around (centers : Placement α → Nat → Point α) {method : Method}
    (h : method ∈ [Method.tree, .rows, .force]) : (around centers).Spaces method := by
  intro p hnode hlayer hsizes
  cases method with
  | tree => exact TreePlacement.isSpacedBy_place hnode hlayer hsizes
  | rows => exact (Rows.isSpacedBy_place hnode hsizes).mono (min_le_left _ _)
  | force => exact (ForcePlacement.isSpacedBy_placeAround _ p).mono (min_le_left _ _)
  | layered => simp at h
  | radial => simp at h

end Methods

/-! ## Requests without anything placed by hand -/

namespace Layout

open DiagramPress.Frame

variable {α : Type} [ExactScalar α] [NumberText α]

/-- A frame without a place and a size is free, and no leaf. -/
theorem spaceable_container {methods : Methods α} {gap : α} {f : Frame α} (hx : f.x = none)
    (hwidth : f.width = none) (hkeeps : (ContainerSettings.read f).Keeps methods gap) :
    f.Spaceable methods gap where
  free := by simp [isPinned, hx]
  leaf hleaf := by simp [isLeaf, hwidth] at hleaf
  container _ := hkeeps

theorem spaceable_leafOf (methods : Methods α) (gap : α) {n : Model.Node α} (hsize : n.size.Nonneg)
    (hfree : n.position = none) : (leafOf n).Spaceable methods gap where
  free := by
    rw [isPinned_leafOf, hfree]
    rfl
  leaf := (arrangeable_leafOf hsize).leaf
  container hcontainer := by
    rw [isLeaf_leafOf] at hcontainer
    cases hcontainer

variable [ExactText α]

theorem roomy_request {m : Model α} (hm : m.Nested) (hcells : m.WellNumbered)
    (hfree : ∀ n ∈ m.nodes, n.position = none) (hsizes : ∀ n ∈ m.nodes, n.size.Nonneg)
    {methods : Methods α} {method : Method} (hspaces : methods.Spaces method)
    {choice : LayoutChoice α} (hnode : 0 ≤ choice.spacing.node) (hlayer : 0 ≤ choice.spacing.layer)
    (settings : LayoutSettings α) :
    NestedLayout.Roomy methods (min choice.spacing.node choice.spacing.layer)
      settings.groupPadding (request m method choice settings) := by
  have hholds := holdsModel_request hm hcells method choice settings
  have hkeeps (padding : Padding α) : (containerSettings method choice padding).Keeps methods
      (min choice.spacing.node choice.spacing.layer) := ⟨hspaces, hnode, hlayer, le_rfl⟩
  have hread (padding : Padding α) (f : Frame α) :
      ContainerSettings.read ((containerSettings method choice padding).write f) =
        containerSettings method choice padding :=
    ContainerSettings.read_write (s := containerSettings method choice padding) hnode hlayer f
  obtain ⟨hx, hwidth, hoptions⟩ := unplaced_request m method choice settings
  generalize request m method choice settings = root at hholds hx hwidth hoptions ⊢
  refine ⟨spaceable_container hx hwidth ?_, fun f hf => ?_, fun f hf hleaf => ?_⟩
  · have hkey : edgeRoutingKey ∉ ContainerSettings.keys := by decide
    rw [ContainerSettings.read_congr hoptions, ContainerSettings.read_withOption hkey, hread]
    exact hkeeps _
  · rcases List.mem_append.mp (hholds.inside.mem_iff.mp hf) with hf | hf
    · obtain ⟨g, hg, rfl⟩ := List.mem_map.mp hf
      obtain ⟨hx, hwidth, hoptions⟩ :=
        unplaced_containerFor hm (containerSettings method choice settings.groupPadding) hg
      refine spaceable_container hx hwidth ?_
      rw [ContainerSettings.read_congr hoptions, hread]
      exact hkeeps _
    · obtain ⟨n, hn, rfl⟩ := List.mem_map.mp hf
      exact spaceable_leafOf methods _ (hsizes n hn) (hfree n hn)
  · rcases List.mem_append.mp (hholds.inside.mem_iff.mp hf) with hf | hf
    · obtain ⟨g, hg, rfl⟩ := List.mem_map.mp hf
      obtain ⟨-, -, hoptions⟩ :=
        unplaced_containerFor hm (containerSettings method choice settings.groupPadding) hg
      rw [ContainerSettings.read_congr hoptions, hread]
      rfl
    · obtain ⟨n, hn, rfl⟩ := List.mem_map.mp hf
      rw [isLeaf_leafOf] at hleaf
      cases hleaf

end Layout

/-! ## Models without anything placed by hand -/

/-- Two nodes or groups of which neither lies in the other, however deep. -/
def Nesting.Beside (n : Nesting) (a b : String) : Prop :=
  a ≠ b ∧ ¬ Relation.TransGen n.Inside a b ∧ ¬ Relation.TransGen n.Inside b a

/-- The boxes of any two of these ids that lie beside each other have a gap in between. -/
def Model.Separated {α : Type} [Scalar α] (m : Model α) (ids : List String) (n : Nesting)
    (gap : α) : Prop :=
  ∀ a ∈ ids, ∀ b ∈ ids, n.Beside a b →
    ∃ A B, m.boundsOf? a = some A ∧ m.boundsOf? b = some B ∧ A.ApartBy gap B ∧ A.Apart B

namespace Layout

variable {α : Type} [ExactScalar α] [NumberText α] [ExactText α]

/-- The engine answers with boxes that are written back as they are, with a gap between
any two of which neither holds the other. -/
theorem layout_free {m : Model α} (hm : m.Nested) (hcells : m.WellNumbered)
    (hdisjoint : ∀ g ∈ m.groups, ∀ n ∈ m.nodes, g.id ≠ n.id)
    (hfree : ∀ n ∈ m.nodes, n.position = none) (hsizes : ∀ n ∈ m.nodes, n.size.Nonneg)
    {choice : LayoutChoice α} {method : Method} (hmethod : methodOf? choice.algorithm = some method)
    (hnode : 0 ≤ choice.spacing.node) (hlayer : 0 ≤ choice.spacing.layer)
    {settings : LayoutSettings α} (hpadding : settings.groupPadding.Nonneg)
    {e : NestedLayout.EngineSettings α} (he : e.Sound) (hspaces : e.methods.Spaces method) :
    ∃ answer, NestedLayout.run e (request m method choice settings) = .ok answer ∧
      m.layout choice (NestedLayout.run e) settings = .ok (writeBack m answer) ∧
      encloseMembers settings.groupPadding (writeBack m answer) = writeBack m answer ∧
      (writeBack m answer).Separated (m.entities.map (·.1)) m.holders
        (min choice.spacing.node choice.spacing.layer) := by
  have hroomy := roomy_request hm hcells hfree hsizes hspaces hnode hlayer settings
  have hholds := holdsModel_request hm hcells method choice settings
  obtain ⟨answer, hanswer, hnames⟩ := hholds.run_ok hcells e
  obtain ⟨horigin, -, ends, hchildren⟩ := NestedLayout.answer_of_run hanswer
  have hboxes : absolute answer.offset answer = absolute Point.origin
      (NestedLayout.layoutAt e ends true [] (request m method choice settings)) := by
    rw [horigin, absolute_eq, hchildren, ← absolute_eq]
  have hseparates := NestedLayout.separates_layoutAt he ends hpadding hroomy true [] Point.origin
  rw [← hboxes] at hseparates
  have hnamed : (absolute answer.offset answer).map (·.1) =
      (request m method choice settings).names := by
    rw [map_fst_absolute, hnames]
  have hkept : encloseMembers settings.groupPadding (writeBack m answer) = writeBack m answer :=
    encloseMembers_eq_self (hholds.surroundsMembers_written hnamed hseparates hfree)
  refine ⟨answer, hanswer, ?_, hkept, ?_⟩
  · rw [Model.layout, hmethod]
    simp only [hanswer, Except.map, hkept]
  · rintro a ha b hb ⟨hne, hab, hba⟩
    obtain ⟨x, hx, rfl⟩ := List.mem_map.mp ha
    obtain ⟨y, hy, rfl⟩ := List.mem_map.mp hb
    obtain ⟨A, B, hA, hB, hapart⟩ := hholds.apartBy_of_not_inside hnamed hseparates hfree hm hcells
      hdisjoint hx hy hne hab hba
    exact ⟨A, B, hA, hB, hapart, hapart.apart (le_min hnode hlayer)⟩

end Layout

/-! ## The law of free diagrams -/

/-- Which node or group of a description lies directly in which group. -/
def Description.holders {α : Type} (d : Description α) : Nesting :=
  d.groups.map (fun g => (g.id, g.parent)) ++ d.nodes.map fun n => (n.id, n.group)

namespace Description

variable {α : Type} [Scalar α] [NumberText α] {d : Description α} (tables : Tables α)
  (settings : ModelSettings α)

theorem position_build (h : ∀ n ∈ d.nodes, n.position = none) :
    ∀ n ∈ (d.build tables settings).1.nodes, n.position = none := by
  intro n hn
  rw [nodes_build] at hn
  obtain ⟨⟨node, cell⟩, hnode, rfl⟩ := List.mem_map.mp hn
  exact h node (List.fst_mem_of_mem_zipIdx hnode)

theorem HangsTogether.disjoint_build (h : d.HangsTogether) :
    ∀ g ∈ (d.build tables settings).1.groups, ∀ n ∈ (d.build tables settings).1.nodes,
      g.id ≠ n.id := by
  intro g hg n hn heq
  have hgroup := List.mem_map_of_mem (f := (·.id)) hg
  have hnode := List.mem_map_of_mem (f := (·.id)) hn
  rw [groupIds_build] at hgroup
  rw [nodeIds_build] at hnode
  exact h.disjoint g.id hgroup (heq ▸ hnode)

theorem holders_build : (d.build tables settings).1.holders = d.holders := by
  simp only [Model.holders, groups_build, nodes_build, holders, List.map_map, Function.comp_def,
    Build.buildGroup, Build.buildNode,
    Build.map_zipIdx_fst (fun n : Description.Node α => (n.id, n.group))]

theorem entityIds_build : ((d.build tables settings).1.entities.map (·.1)) =
    d.groupIds ++ d.nodeIds := by
  rw [Model.entities, List.map_append, List.map_map, List.map_map,
    ← groupIds_build d tables settings, ← nodeIds_build d tables settings]
  rfl

end Description

section

variable {α : Type} [ExactScalar α] [NumberText α] [ExactText α]

/-- Where nothing is placed by hand and the children of all groups are packed, stacked or
spread, any two boxes of which neither holds the other are disjoint, with the smaller one
of the spacings in between, and all groups are as large as the engine has made them. The
forces may leave the centres anywhere; where the program leaves them is a case of this
(`Methods.bundled_eq_around`). Settings with node sizes that are not positive are refused
when they are read. -/
theorem free_diagrams_do_not_overlap {d : Description α} (hd : d.problems = [])
    (hfree : ∀ n ∈ d.nodes, n.position = none)
    (halgorithm : d.layout.algorithm ∈ [Algorithm.tree, .box, .force]) (tables : Tables α)
    {modelSettings : ModelSettings α} (hsize : modelSettings.nodeSize.Nonneg)
    {settings : LayoutSettings α} (hpadding : settings.groupPadding.Nonneg)
    (hempty : settings.emptyGroupSize.Nonneg) (centers : Placement α → Nat → Point α) :
    let m := (d.build tables modelSettings).1
    let engine := NestedLayout.run
      ⟨Methods.around centers, settings.emptyGroupSize, settings.forceIterations⟩
    ∃ method answer, Layout.methodOf? d.layout.algorithm = some method ∧
      engine (Layout.request m method d.layout settings) = .ok answer ∧
      m.layout d.layout engine settings = .ok (Layout.writeBack m answer) ∧
      Layout.encloseMembers settings.groupPadding (Layout.writeBack m answer) =
        Layout.writeBack m answer ∧
      (Layout.writeBack m answer).Separated (d.groupIds ++ d.nodeIds) d.holders
        (min d.layout.spacing.node d.layout.spacing.layer) := by
  intro m engine
  have htogether := Description.hangsTogether_of_accepted hd
  have hwellFormed := (Description.problems_eq_nil_iff d).mp hd
  have hspaces : ∃ method, Layout.methodOf? d.layout.algorithm = some method ∧
      (Methods.around centers).Spaces method := by
    simp only [List.mem_cons, List.not_mem_nil, or_false] at halgorithm
    rcases halgorithm with h | h | h <;> rw [h] <;>
      exact ⟨_, rfl, Methods.spaces_around centers (by simp)⟩
  obtain ⟨method, hmethod, hspaces⟩ := hspaces
  obtain ⟨answer, hanswer, hlayout, hkept, hseparated⟩ := Layout.layout_free
    (Model.nested_build htogether tables modelSettings)
    (Description.wellNumbered_build tables modelSettings htogether.groups_nodup)
    (htogether.disjoint_build tables modelSettings)
    (Description.position_build tables modelSettings hfree)
    (Description.size_nonneg_build hwellFormed tables hsize) hmethod
    (Scalar.nonneg_iff.mp (not_le.mp hwellFormed.spacing.1).le)
    (Scalar.nonneg_iff.mp (not_le.mp hwellFormed.spacing.2).le) hpadding
    (e := ⟨Methods.around centers, settings.emptyGroupSize, settings.forceIterations⟩)
    ⟨fun method _ hnode hsizes => Methods.fills_around centers method _ hnode hsizes, hempty⟩
    hspaces
  rw [Description.entityIds_build, Description.holders_build] at hseparated
  exact ⟨method, answer, hmethod, hanswer, hlayout, hkept, hseparated⟩

end

/-- A group in a group, with a node in each of them and one outside, all of them connected. -/
def freeDiagram : Description ℚ where
  title := "free"
  theme := .professional
  layout := ⟨.force, .topBottom, Spacing.default⟩
  nodes :=
    [⟨"in", "In", "rounded=1;", some "inner", none, none, none⟩,
      ⟨"between", "Between", "rounded=1;", some "outer", none, none, none⟩,
      ⟨"out", "Out", "rounded=1;", none, none, none, none⟩]
  edges := [⟨"in", "between", none, none, .orthogonal⟩, ⟨"out", "inner", none, none, .orthogonal⟩]
  groups := [⟨"inner", "Inner", some "outer", none⟩, ⟨"outer", "Outer", none, none⟩]

/-- Not even if the forces leave all centres in one point. -/
theorem a_free_diagram_does_not_overlap :
    let m := (freeDiagram.build Tables.builtin ModelSettings.default).1
    let settings : LayoutSettings ℚ := LayoutSettings.default
    freeDiagram.problems = [] ∧ (∀ n ∈ freeDiagram.nodes, n.position = none) ∧
      freeDiagram.layout.algorithm ∈ [Algorithm.tree, .box, .force] ∧
      (ModelSettings.default : ModelSettings ℚ).nodeSize.Nonneg ∧
      settings.groupPadding.Nonneg ∧ settings.emptyGroupSize.Nonneg ∧
      ∃ m', m.layout freeDiagram.layout (NestedLayout.run
          ⟨Methods.around fun _ _ => Point.origin, settings.emptyGroupSize,
            settings.forceIterations⟩) settings = .ok m' ∧
        m'.Separated ["inner", "outer", "in", "between", "out"] freeDiagram.holders 50 := by
  intro m settings
  have hd : freeDiagram.problems = [] := by decide +kernel
  have hfree : ∀ n ∈ freeDiagram.nodes, n.position = none := by decide
  have halgorithm : freeDiagram.layout.algorithm ∈ [Algorithm.tree, .box, .force] := by decide
  obtain ⟨-, answer, -, -, hlayout, -, hseparated⟩ := free_diagrams_do_not_overlap hd hfree
    halgorithm Tables.builtin nonneg_defaultNodeSize nonneg_default.groupPadding
    nonneg_default.emptyGroupSize fun _ _ => Point.origin
  have hgap : min freeDiagram.layout.spacing.node freeDiagram.layout.spacing.layer = 50 := by
    decide +kernel
  rw [hgap] at hseparated
  exact ⟨hd, hfree, halgorithm, nonneg_defaultNodeSize, nonneg_default.groupPadding,
    nonneg_default.emptyGroupSize, _, hlayout, hseparated⟩

end DiagramPress
