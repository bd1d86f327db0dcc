-- Nodes placed by hand keep their room: with the engine of the program, no other
-- node covers them that lies, however deep, in what they lie in directly.
import DiagramPress.Proofs.Layout.Clearance
import DiagramPress.Proofs.Description.WellFormed
import DiagramPress.Proofs.Geometry.Spacing
import DiagramPress.Proofs.Layout.Complete
import DiagramPress.Proofs.Layout.DeepestFirst

namespace DiagramPress

/-! ## Boxes apart -/

namespace Bounds

variable {α : Type}

/-- Boxes are apart if one of them ends along the flow where the other one starts. -/
theorem apart_of_along [Scalar α] [RoundedScalar α] {flow : Flow} {a b : Bounds α}
    (h : flow.along ⟨b.right, b.bottom⟩ ≤ flow.along a.corner) : a.Apart b := by
  have hno {x a b : α} (ha : a < x) (hb : x < b) : ¬ b ≤ a := fun hle =>
    (RoundedScalar.lt_iff_not_le a x).mp ha
      (RoundedScalar.le_trans (RoundedScalar.le_of_lt hb) hle)
  intro p ha hb
  unfold Flow.along at h
  split at h
  · exact hno ha.top hb.bottom h
  · exact hno ha.left hb.right h

end Bounds

/-- The node lies, however deep, in the group, or in the diagram if no group is given. -/
def Model.LiesWithin {α : Type} (m : Model α) (n : Model.Node α) : Option String → Prop
  | none => True
  | some outer => ∃ id, n.group = some id ∧ Relation.ReflTransGen m.nesting.Inside id outer

/-! ## Requests -/

/-- No size that the layout is set to is negative. -/
structure LayoutSettings.Nonneg {α : Type} [ExactScalar α] (s : LayoutSettings α) : Prop where
  groupPadding : s.groupPadding.Nonneg
  rootMargin : 0 ≤ s.rootMargin
  emptyGroupSize : s.emptyGroupSize.Nonneg

namespace Layout

open DiagramPress.Frame

variable {α : Type} [NumberText α]

/-- The outermost container has no place and no size, and its options are its settings
and how edges are drawn. -/
theorem unplaced_request (m : Model α) (method : Method) (choice : LayoutChoice α)
    (settings : LayoutSettings α) :
    (request m method choice settings).x = none ∧
      (request m method choice settings).width = none ∧
      (request m method choice settings).options =
        (((containerSettings method choice (Padding.uniform settings.rootMargin)).write
          (Frame.container rootId)).withOption edgeRoutingKey "ORTHOGONAL").options := by
  unfold request
  exact ⟨rfl, rfl, rfl⟩

/-- So it is with the containers of groups, whose options are their settings. -/
theorem unplaced_containerFor {m : Model α} (hm : m.Nested) (s : ContainerSettings α)
    {g : Model.Group α} (hg : g ∈ m.groups) :
    (containerFor m s g).x = none ∧ (containerFor m s g).width = none ∧
      (containerFor m s g).options = (s.write (Frame.container (toString g.cell))).options := by
  rw [containerFor_eq hm s hg]
  exact ⟨rfl, rfl, rfl⟩

variable [ExactScalar α]

theorem arrangeable_leafOf {n : Model.Node α} (h : n.size.Nonneg) : (leafOf n).Arrangeable := by
  obtain ⟨hwidth, hheight⟩ := leafOf_size n
  refine ⟨fun _ => ?_, fun hcontainer => ?_⟩
  · rw [size, hwidth, hheight]
    exact h
  · rw [isLeaf_leafOf] at hcontainer
    cases hcontainer

omit [NumberText α] in
theorem farCorner_leafOf {n : Model.Node α} {p : Point α} (h : n.position = some p) :
    (leafOf n).farCorner = ⟨p.x + n.size.width, p.y + n.size.height⟩ := by
  simp only [leafOf, h]
  rfl

/-- A frame without a place and a size, apart from its settings, is a free container. -/
theorem arrangeable_container {f : Frame α} (hx : f.x = none) (hwidth : f.width = none)
    (hs : (ContainerSettings.read f).Nonneg) : f.Arrangeable := by
  refine ⟨fun hleaf => ?_, fun _ => ⟨?_, hs⟩⟩
  · simp [isLeaf, hwidth] at hleaf
  · simp [isPinned, hx]

/-- The settings that are written into containers are read there again. -/
theorem read_containerSettings [ExactText α] (method : Method) {choice : LayoutChoice α}
    (hnode : 0 ≤ choice.spacing.node) (hlayer : 0 ≤ choice.spacing.layer) {padding : Padding α}
    (hpadding : padding.Nonneg) (f : Frame α) :
    (ContainerSettings.read ((containerSettings method choice padding).write f)).Nonneg := by
  rw [ContainerSettings.read_write (s := containerSettings method choice padding) hnode hlayer]
  exact ⟨Scalar.nonneg_iff.mpr hnode, Scalar.nonneg_iff.mpr hlayer, hpadding⟩

theorem arrangeable_request [ExactText α] {m : Model α} (hm : m.Nested) (hcells : m.WellNumbered)
    (hsizes : ∀ n ∈ m.nodes, n.size.Nonneg) (method : Method) {choice : LayoutChoice α}
    (hnode : 0 ≤ choice.spacing.node) (hlayer : 0 ≤ choice.spacing.layer)
    {settings : LayoutSettings α} (hsettings : settings.Nonneg) :
    ∀ f ∈ request m method choice settings :: (request m method choice settings).inside,
      f.Arrangeable := by
  have hholds := holdsModel_request hm hcells method choice settings
  obtain ⟨hx, hwidth, hoptions⟩ := unplaced_request m method choice settings
  generalize request m method choice settings = root at hholds hx hwidth hoptions ⊢
  intro f hf
  rcases List.mem_cons.mp hf with rfl | hf
  · have hmargin : (Padding.uniform settings.rootMargin).Nonneg :=
      have h := Scalar.nonneg_iff.mpr hsettings.rootMargin
      ⟨h, h, h, h⟩
    have hkey : edgeRoutingKey ∉ ContainerSettings.keys := by decide
    refine arrangeable_container hx hwidth ?_
    rw [ContainerSettings.read_congr hoptions, ContainerSettings.read_withOption hkey]
    exact read_containerSettings method hnode hlayer hmargin _
  · rcases List.mem_append.mp (hholds.inside.mem_iff.mp hf) with hf | hf
    · obtain ⟨g, hg, rfl⟩ := List.mem_map.mp hf
      obtain ⟨hx, hwidth, hoptions⟩ :=
        unplaced_containerFor hm (containerSettings method choice settings.groupPadding) hg
      refine arrangeable_container hx hwidth ?_
      rw [ContainerSettings.read_congr hoptions]
      exact read_containerSettings method hnode hlayer hsettings.groupPadding _
    · obtain ⟨n, hn, rfl⟩ := List.mem_map.mp hf
      exact arrangeable_leafOf (hsizes n hn)

/-! ## What lies in a container -/

/-- The cell of a node names one frame. -/
theorem HoldsModel.count_name {α : Type} {m : Model α} {container : Model.Group α → Frame α}
    {root : Frame α} (h : HoldsModel m container root) {n : Model.Node α} (hn : n ∈ m.nodes) :
    root.names.count (toString n.cell) = 1 := by
  refine List.count_eq_one_of_mem h.names_nodup (h.names.mem_iff.mpr ?_)
  exact List.mem_map_of_mem (List.mem_append_right _ (List.mem_map_of_mem hn))

/-- What lies in a group, however deep, is a leaf inside its container. -/
theorem HoldsModel.leafOf_mem_inside {α : Type} {m : Model α} {container : Model.Group α → Frame α}
    {root : Frame α} (h : HoldsModel m container root) {n : Model.Node α} (hn : n ∈ m.nodes)
    {id outer : String} (hgroup : n.group = some id)
    (hway : Relation.ReflTransGen m.nesting.Inside id outer) :
    ∀ g ∈ m.groups, g.id = outer → leafOf n ∈ (container g).inside := by
  induction hway with
  | refl =>
    rintro g hg rfl
    refine mem_inside_iff.mpr ⟨leafOf n, ?_, .inl rfl⟩
    rw [h.children g hg]
    exact List.mem_append_right _ (List.mem_map_of_mem (Model.mem_members.mpr ⟨hn, hgroup⟩))
  | tail _ hstep ih =>
    rintro g hg rfl
    obtain ⟨between, hbetween, hid, hparent⟩ := Model.inside_iff.mp hstep
    refine mem_inside_iff.mpr ⟨container between, ?_, .inr (ih between hbetween hid)⟩
    rw [h.children g hg]
    exact List.mem_append_left _
      (List.mem_map_of_mem (Model.mem_innerGroups.mpr ⟨hbetween, hparent⟩))

/-- If one node lies in what another one lies in directly, then a container of the
request holds both. -/
theorem HoldsModel.exists_container {α : Type} {m : Model α} (hm : m.Nested)
    {container : Model.Group α → Frame α} {root : Frame α} (h : HoldsModel m container root)
    {inner pinned : Model.Node α} (hinner : inner ∈ m.nodes) (hpinned : pinned ∈ m.nodes)
    (hwithin : m.LiesWithin inner pinned.group) :
    ∃ f ∈ root :: root.inside, leafOf pinned ∈ f.children ∧ leafOf inner ∈ f.inside := by
  cases hgroup : pinned.group with
  | none =>
    refine ⟨root, List.mem_cons_self, ?_, ?_⟩
    · rw [h.outermost]
      exact List.mem_append_right _
        (List.mem_map_of_mem (Model.mem_outerNodes.mpr ⟨hpinned, hgroup⟩))
    · exact h.inside.mem_iff.mpr (List.mem_append_right _ (List.mem_map_of_mem hinner))
  | some outer =>
    rw [hgroup] at hwithin
    obtain ⟨id, hid, hway⟩ := hwithin
    obtain ⟨g, hg, rfl⟩ := hm.member pinned hpinned outer hgroup
    refine ⟨container g, List.mem_cons_of_mem _ ?_, ?_,
      h.leafOf_mem_inside hinner hid hway g hg rfl⟩
    · exact h.inside.mem_iff.mpr (List.mem_append_left _ (List.mem_map_of_mem hg))
    · rw [h.children g hg]
      exact List.mem_append_right _
        (List.mem_map_of_mem (Model.mem_members.mpr ⟨hpinned, hgroup⟩))

end Layout

/-! ## Clear of what is pinned -/

/-- If a node that is free in the first model and one that is pinned there are related, then
both have boxes in the second model, and these are apart. -/
def Model.KeepsClear {α : Type} [Scalar α] (m m' : Model α)
    (related : Model.Node α → Model.Node α → Prop) : Prop :=
  ∀ (i j : Nat) (free pinned : Model.Node α), m.nodes[i]? = some free →
    m.nodes[j]? = some pinned → free.position = none → pinned.position.isSome →
      related free pinned → ∃ a b, m'.nodes[i]?.bind Model.Node.bounds? = some a ∧
        m'.nodes[j]?.bind Model.Node.bounds? = some b ∧ a.Apart b

section

variable {α : Type} [ExactScalar α]

section

variable [NumberText α] [ExactText α] {e : NestedLayout.EngineSettings α} (he : e.Sound)
  {m : Model α} (hm : m.Nested) (hcells : m.WellNumbered) (hsizes : ∀ n ∈ m.nodes, n.size.Nonneg)
include he hm hcells hsizes

/-- Of two nodes of which the second is pinned and holds the first in its container, the
first one is put, along some flow, past the second. -/
theorem Model.layout_past_pinned {choice : LayoutChoice α} (hnode : 0 ≤ choice.spacing.node)
    (hlayer : 0 ≤ choice.spacing.layer) {settings : LayoutSettings α} (hsettings : settings.Nonneg)
    (halgorithm : choice.algorithm ≠ .none) {m' : Model α}
    (hlayout : m.layout choice (NestedLayout.run e) settings = .ok m') {i j : Nat}
    {free pinned : Model.Node α} (hfree : m.nodes[i]? = some free)
    (hunplaced : free.position = none) (hpinned : m.nodes[j]? = some pinned) {p : Point α}
    (hplace : pinned.position = some p) (hwithin : m.LiesWithin free pinned.group) :
    m'.nodes[j]? = some pinned ∧ ∃ q, m'.nodes[i]? = some { free with position := some q } ∧
      ∃ flow : Flow,
        flow.along ⟨p.x + pinned.size.width, p.y + pinned.size.height⟩ ≤ flow.along q := by
  rcases Model.layout_cases hlayout with ⟨hnone, -⟩ | ⟨method, answer, -, hanswer, hwritten⟩
  · obtain ⟨method, hmethod⟩ := Layout.methodOf?_of_ne_none halgorithm
    rw [hmethod] at hnone
    cases hnone
  · have hkept : m'.nodes[j]? = some pinned :=
      (Model.keepsPlaced_layout hlayout).placed j pinned hpinned (by rw [hplace]; rfl)
    have hholds := Layout.holdsModel_request hm hcells method choice settings
    have harrangeable := Layout.arrangeable_request hm hcells hsizes method hnode hlayer hsettings
    generalize Layout.request m method choice settings = root at hholds harrangeable hanswer
    obtain ⟨f, hf, hchild, hinside⟩ := hholds.exists_container hm (List.mem_of_getElem? hfree)
      (List.mem_of_getElem? hpinned) hwithin
    obtain ⟨horigin, hnames, ends, hchildren⟩ := NestedLayout.answer_of_run hanswer
    have hfreeLeaf : (Layout.leafOf free).isPinned = false := by
      rw [Layout.isPinned_leafOf, hunplaced]
      rfl
    have hpinnedLeaf : (Layout.leafOf pinned).isPinned = true := by
      rw [Layout.isPinned_leafOf, hplace]
      rfl
    obtain ⟨path, hway, hpast⟩ := NestedLayout.exists_way_past_pinned he ends harrangeable true []
      hf hinside hfreeLeaf
    rw [Layout.leafOf_id] at hway
    have hcount : answer.names.count (toString free.cell) = 1 := by
      rw [hnames]
      exact hholds.count_name (List.mem_of_getElem? hfree)
    have hfollows := Model.followsAnswer_written settings.groupPadding m answer
    have hend := (hfollows.found i free hfree hunplaced hcount).2 path (hway.congr hchildren.symm)
    rw [← hwritten, horigin] at hend
    refine ⟨hkept, _, hend, (ContainerSettings.read f).flow, ?_⟩
    rw [← Layout.farCorner_leafOf hplace]
    exact hpast (Layout.leafOf pinned) hchild hpinnedLeaf

end

/-- The engine of the program is sound if the sizes that it is set to are not negative. -/
theorem NestedLayout.sound_bundled {settings : LayoutSettings α} (h : settings.Nonneg) :
    (⟨Methods.bundled, settings.emptyGroupSize, settings.forceIterations⟩ :
      NestedLayout.EngineSettings α).Sound where
  methods method _ hspacing hsizes := Methods.isFilledBy_bundled method hspacing hsizes
  emptySize := h.emptyGroupSize

variable [NumberText α]

/-- The nodes of an accepted description have the size that they ask for, which is positive,
or the size that is set. -/
theorem Description.size_nonneg_build {d : Description α} (hd : d.WellFormed) (tables : Tables α)
    {settings : ModelSettings α} (hsize : settings.nodeSize.Nonneg) :
    ∀ n ∈ (d.build tables settings).1.nodes, n.size.Nonneg := by
  intro n hn
  rw [Description.nodes_build] at hn
  obtain ⟨⟨node, cell⟩, hnode, rfl⟩ := List.mem_map.mp hn
  have hmem : node ∈ d.nodes := List.fst_mem_of_mem_zipIdx hnode
  show (node.size.getD settings.nodeSize).Nonneg
  cases hasked : node.size with
  | none => exact hsize
  | some s =>
    obtain ⟨hwidth, hheight⟩ := hd.sizes node hmem s hasked
    exact ⟨Scalar.nonneg_iff.mp (not_le.mp hwidth).le, Scalar.nonneg_iff.mp (not_le.mp hheight).le⟩

/-- With the engine of the program and without negative sizes, a node that an accepted
description leaves free and a node that it pins share no point but on their sides, if
the free one lies, however deep, in what the pinned one lies in directly. -/
theorem nodes_keep_clear_of_what_is_pinned [ExactText α] {d : Description α} (hd : d.problems = [])
    (halgorithm : d.layout.algorithm ≠ .none) (tables : Tables α) {modelSettings : ModelSettings α}
    (hsize : modelSettings.nodeSize.Nonneg) {settings : LayoutSettings α}
    (hsettings : settings.Nonneg) :
    let m := (d.build tables modelSettings).1
    ∃ m', m.layout d.layout (NestedLayout.bundled settings) settings = .ok m' ∧
      m.KeepsClear m' fun free pinned => m.LiesWithin free pinned.group := by
  intro m
  have hwellFormed := (Description.problems_eq_nil_iff d).mp hd
  have htogether := Description.hangsTogether_of_accepted hd
  have hm : m.Nested := Model.nested_build htogether tables modelSettings
  have hcells : m.WellNumbered :=
    Description.wellNumbered_build tables modelSettings htogether.groups_nodup
  have hsizes : ∀ n ∈ m.nodes, n.size.Nonneg :=
    Description.size_nonneg_build hwellFormed tables hsize
  have hnode : 0 ≤ d.layout.spacing.node :=
    Scalar.nonneg_iff.mp (not_le.mp hwellFormed.spacing.1).le
  have hlayer : 0 ≤ d.layout.spacing.layer :=
    Scalar.nonneg_iff.mp (not_le.mp hwellFormed.spacing.2).le
  have he := NestedLayout.sound_bundled hsettings
  obtain ⟨method, hmethod⟩ := Layout.methodOf?_of_ne_none halgorithm
  obtain ⟨m', hlayout, -⟩ := Layout.layout_ok hm hcells hmethod settings
    ⟨Methods.bundled, settings.emptyGroupSize, settings.forceIterations⟩
  refine ⟨m', hlayout, fun i j free pinned hfree hpinned hunplaced hplaced hwithin => ?_⟩
  obtain ⟨p, hplace⟩ := Option.isSome_iff_exists.mp hplaced
  obtain ⟨hkept, q, hend, flow, hpast⟩ := Model.layout_past_pinned he hm hcells hsizes hnode hlayer
    hsettings halgorithm hlayout hfree hunplaced hpinned hplace hwithin
  refine ⟨Bounds.ofCorner q free.size, Bounds.ofCorner p pinned.size, ?_, ?_,
    Bounds.apart_of_along hpast⟩
  · rw [hend]
    rfl
  · rw [hkept, Option.bind_some, Model.Node.bounds?, hplace]
    rfl

end

theorem nonneg_default : (LayoutSettings.default : LayoutSettings ℚ).Nonneg where
  groupPadding := by constructor <;> decide
  rootMargin := by decide
  emptyGroupSize := by constructor <;> decide

theorem nonneg_defaultNodeSize : (ModelSettings.default : ModelSettings ℚ).nodeSize.Nonneg := by
  constructor <;> decide

/-- Two groups, a free node in the first of them, and a pinned node. -/
def pinnedIn (group : Option String) : Description ℚ where
  title := "pinned"
  theme := .professional
  layout := ⟨.box, .topBottom, Spacing.default⟩
  nodes :=
    [⟨"free", "Free", "rounded=1;", some "left", none, none, none⟩,
      ⟨"pinned", "Pinned", "rounded=1;", group, none, some ⟨28, 48⟩, none⟩]
  edges := []
  groups := [⟨"left", "Left", none, none⟩, ⟨"right", "Right", none, none⟩]

theorem a_node_pinned_outside_all_groups_is_kept_clear_of :
    let d := pinnedIn none
    let m := (d.build Tables.builtin ModelSettings.default).1
    d.problems = [] ∧ d.layout.algorithm ≠ .none ∧
      ∃ m', m.layout d.layout (NestedLayout.bundled LayoutSettings.default)
          LayoutSettings.default = .ok m' ∧
        ∃ a b, m'.nodes[0]?.bind Model.Node.bounds? = some a ∧
          m'.nodes[1]?.bind Model.Node.bounds? = some b ∧ a.Apart b := by
  intro d m
  have hd : d.problems = [] := by decide +kernel
  have halgorithm : d.layout.algorithm ≠ .none := by decide
  obtain ⟨m', hlayout, hclear⟩ := nodes_keep_clear_of_what_is_pinned hd halgorithm Tables.builtin
    nonneg_defaultNodeSize nonneg_default
  exact ⟨hd, halgorithm, m', hlayout, hclear 0 1 _ _ rfl rfl rfl rfl trivial⟩

deriving instance DecidableEq for Bounds

/-- A description laid out with everything that the program takes by default. -/
def defaultLayout (d : Description ℚ) : Except LayoutError (Model ℚ) :=
  (d.build Tables.builtin ModelSettings.default).1.layout d.layout
    (NestedLayout.bundled LayoutSettings.default) LayoutSettings.default

theorem exists_layout_of_boxes {d : Description ℚ} {boxes : List (Option (Bounds ℚ))}
    (h : (defaultLayout d).toOption.map (·.nodes.map Model.Node.bounds?) = some boxes) :
    ∃ m', defaultLayout d = .ok m' ∧
      ∀ i : Nat, m'.nodes[i]?.bind Model.Node.bounds? = boxes[i]?.join := by
  cases hlayout : defaultLayout d with
  | error cause =>
    rw [hlayout] at h
    cases h
  | ok m' =>
    rw [hlayout] at h
    obtain rfl := Option.some.inj h
    refine ⟨m', rfl, fun i => ?_⟩
    cases hnode : m'.nodes[i]? with
    | none => simp [hnode]
    | some n => simp [hnode]

/-- A place is handed to the engine as an offset in the group around the node. If the group
comes to stand elsewhere, its room is kept free there, and the node stays where it was put,
on top of a node in another group. -/
theorem a_node_pinned_in_another_group_is_covered :
    let d := pinnedIn (some "right")
    let m := (d.build Tables.builtin ModelSettings.default).1
    d.problems = [] ∧ d.layout.algorithm ≠ .none ∧
      (LayoutSettings.default : LayoutSettings ℚ).Nonneg ∧
      ∃ m', m.layout d.layout (NestedLayout.bundled LayoutSettings.default)
          LayoutSettings.default = .ok m' ∧ ¬ m.KeepsClear m' fun _ _ => True := by
  intro d m
  have hd : d.problems = [] := by decide +kernel
  have halgorithm : d.layout.algorithm ≠ .none := by decide
  have hboxes : (defaultLayout d).toOption.map (·.nodes.map Model.Node.bounds?) =
      some [some ⟨28, 48, 120, 60⟩, some ⟨28, 48, 120, 60⟩] := by decide +kernel
  obtain ⟨m', hlayout, hat⟩ := exists_layout_of_boxes hboxes
  refine ⟨hd, halgorithm, nonneg_default, m', hlayout, fun hclear => ?_⟩
  obtain ⟨a, b, ha, hb, hapart⟩ := hclear 0 1 _ _ rfl rfl rfl rfl trivial
  obtain rfl : (⟨28, 48, 120, 60⟩ : Bounds ℚ) = a := Option.some.inj ((hat 0).symm.trans ha)
  obtain rfl : (⟨28, 48, 120, 60⟩ : Bounds ℚ) = b := Option.some.inj ((hat 1).symm.trans hb)
  have hinterior : (⟨28, 48, 120, 60⟩ : Bounds ℚ).Interior ⟨30, 50⟩ := by
    constructor <;> decide +kernel
  exact hapart _ hinterior hinterior

end DiagramPress
