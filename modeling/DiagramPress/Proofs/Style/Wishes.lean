-- The styles of a built model: of a node's type, the theme and the description, what counts
-- for which key; and what of the wishes of a description is kept.
import DiagramPress.Proofs.Model.Identifiers
import DiagramPress.Proofs.Style.Layers

namespace DiagramPress

variable {α : Type} [NumberText α]

open Style (switchText)

/-! ## What a type stands for -/

namespace Build

/-- The text of the style that a node of this type starts from. -/
def shapeText (shapes : ShapeCatalog) (type : String) : String :=
  match shapes.resolve? type with
  | some text => text
  | none => if '=' ∈ type.toList ∨ ';' ∈ type.toList then type else defaultShapeStyle

/-- The catalog does not know the type, and it is no style text either. -/
def IsUnknown (shapes : ShapeCatalog) (type : String) : Prop :=
  shapes.resolve? type = none ∧ '=' ∉ type.toList ∧ ';' ∉ type.toList

instance (shapes : ShapeCatalog) (type : String) : Decidable (IsUnknown shapes type) :=
  inferInstanceAs (Decidable (_ ∧ _))

theorem isStyleText_iff {type : String} :
    isStyleText type = true ↔ '=' ∈ type.toList ∨ ';' ∈ type.toList := by
  simp only [isStyleText, List.any_eq_true, Bool.or_eq_true, decide_eq_true_eq]
  constructor
  · rintro ⟨c, hc, rfl | rfl⟩
    · exact .inl hc
    · exact .inr hc
  · rintro (hc | hc)
    · exact ⟨_, hc, .inl rfl⟩
    · exact ⟨_, hc, .inr rfl⟩

theorem baseStyle_eq {α : Type} (node : Description.Node α) (shapes : ShapeCatalog) :
    baseStyle node shapes =
      (Style.parse (shapeText shapes node.type),
        if IsUnknown shapes node.type then
          some (.unknownShape node.id node.type (shapes.suggest? node.type))
        else none) := by
  rcases Option.eq_none_or_eq_some (shapes.resolve? node.type) with hnone | ⟨text, hsome⟩
  · by_cases h : isStyleText node.type = true
    · simp [baseStyle, shapeText, IsUnknown, hnone, h, isStyleText_iff.mp h, ← not_or]
    · simp [baseStyle, shapeText, IsUnknown, hnone, h, mt isStyleText_iff.mpr h, ← not_or]
  · simp [baseStyle, shapeText, IsUnknown, hsome]

/-- One diagnostic for each node of an unknown type, in the order of the nodes. -/
theorem filterMap_baseStyle {α : Type} (nodes : List (Description.Node α)) (shapes : ShapeCatalog) :
    (nodes.filterMap fun n => (baseStyle n shapes).2) =
      (nodes.filter fun n => IsUnknown shapes n.type).map fun n =>
        .unknownShape n.id n.type (shapes.suggest? n.type) := by
  induction nodes with
  | nil => rfl
  | cons n nodes ih =>
    rw [List.filterMap_cons, List.filter_cons, baseStyle_eq, ih]
    by_cases h : IsUnknown shapes n.type <;> simp [h]

end Build

/-! ## Styles of nodes -/

namespace Build

/-- The base with the theme and the wishes laid over it: colors and font are those of the
wish or else of the theme, there is a shadow also where the theme casts shadows, and what is
left of these keys is as wished or else as in the base. -/
structure IsNodeStyle (base : Style) (paint : NodePaint α) (wish : StyleOverride α)
    (s : Style) : Prop where
  fillColor : s.Takes base "fillColor" (some (wish.fillColor.getD paint.fillColor))
  strokeColor : s.Takes base "strokeColor" (some (wish.strokeColor.getD paint.strokeColor))
  fontColor : s.Takes base "fontColor" (some (wish.fontColor.getD paint.fontColor))
  fontSize : s.Takes base "fontSize"
    (some (NumberText.brief (wish.fontSize.getD paint.fontSize)))
  fontFamily : s.Takes base "fontFamily" (some (wish.fontFamily.getD paint.fontFamily))
  shadow : s.Takes base "shadow"
    ((wish.shadow.or (if paint.shadow then some true else none)).map switchText)
  rounded : s.Takes base "rounded" (wish.rounded.map switchText)
  dashed : s.Takes base "dashed" (wish.dashed.map switchText)
  opacity : s.Takes base "opacity" (wish.opacity.map NumberText.brief)
  strokeWidth : s.Takes base "strokeWidth" (wish.strokeWidth.map NumberText.brief)
  keys_nodup : (s.entries.map Style.Entry.key).Nodup
  /-- New keys come behind those of the base. -/
  keys_prefix : base.entries.map Style.Entry.key <+: s.entries.map Style.Entry.key
  others : s.others nodeKeys = base.others nodeKeys

theorem isNodeStyle_nodeStyle {base : Style} (hbase : (base.entries.map Style.Entry.key).Nodup)
    (paint : NodePaint α) (wish : StyleOverride α) :
    IsNodeStyle base paint wish (nodeStyle base paint wish) := by
  rw [nodeStyle_eq]
  have htakes : ∀ setting ∈ nodeLayer paint wish,
      (base.overlay (nodeLayer paint wish)).Takes base setting.1 setting.2 :=
    fun setting h => Style.takes_overlay (nodup_keys_nodeLayer wish paint) h
  have hkeys : (nodeLayer paint wish).map Prod.fst = nodeKeys := rfl
  have hover : Style.IsOver nodeKeys base (base.overlay (nodeLayer paint wish)) :=
    Style.isOver_overlay fun setting h => hkeys ▸ List.mem_map_of_mem h
  simp only [nodeLayer, List.forall_mem_cons] at htakes
  obtain ⟨hfill, hstroke, hfont, hsize, hfamily, hrounded, hshadow, hdashed, hopacity, hwidth, -⟩ :=
    htakes
  exact
    { fillColor := hfill
      strokeColor := hstroke
      fontColor := hfont
      fontSize := hsize
      fontFamily := hfamily
      shadow := hshadow
      rounded := hrounded
      dashed := hdashed
      opacity := hopacity
      strokeWidth := hwidth
      keys_nodup := hover.keys_nodup hbase
      keys_prefix := hover.keys_prefix
      others := hover.others }

/-- A flag becomes a pair where it stands if something is written for it, and what nobody has
a say in stays between the others. -/
example :
    let wish : StyleOverride Grid := { StyleOverride.blank with rounded := some true }
    (nodeStyle (Style.parse "fillColor;mine=1;shadow;rounded=0") Theme.professional.node wish).text =
      "fillColor=#dae8fc;mine=1;shadow;rounded=1;strokeColor=#6c8ebf;fontColor=#333333;" ++
        "fontSize=12;fontFamily=Helvetica;" := by
  decide +kernel

end Build

/-- Every node has the style of its type with the theme and its own wishes laid over it, and
there is one diagnostic for each node whose type stands for nothing, in their order, in front
of what is said about edges. -/
theorem node_styles_are_laid_over_their_types [Scalar α] (d : Description α) (tables : Tables α)
    (settings : ModelSettings α) :
    let built := d.build tables settings
    let paint := (tables.themes.get d.theme).node
    List.Forall₂ (fun node n => n.id = node.id ∧
        Build.IsNodeStyle (Style.parse (Build.shapeText tables.shapes node.type)) paint
          (node.style.getD .blank) n.style)
        d.nodes built.1.nodes ∧
      built.2 =
        ((d.nodes.filter fun n => Build.IsUnknown tables.shapes n.type).map fun n =>
          .unknownShape n.id n.type (tables.shapes.suggest? n.type)) ++
        d.droppedEdges.map fun e => .unresolvedEdge e.source e.target := by
  intro built paint
  refine ⟨?_, ?_⟩
  · have hnodes : built.1.nodes = _ := Description.nodes_build d tables settings
    rw [hnodes]
    refine Build.forall₂_zipIdx _ _ fun n i => ⟨rfl, ?_⟩
    simp only [Build.buildNode, Build.baseStyle_eq]
    exact Build.isNodeStyle_nodeStyle (Style.readable_parse _).keys_nodup _ _
  · have hdiagnostics : built.2 = _ := Description.diagnostics_build d tables settings
    rw [hdiagnostics, Build.filterMap_baseStyle]

/-! ## Wishes for lines and visibility -/

/-- What may be wished for lines and visibility: keys with the values that are given. -/
def StyleOverride.lineWishes (wish : StyleOverride α) : List (String × Option String) :=
  [("dashed", wish.dashed.map switchText), ("opacity", wish.opacity.map NumberText.brief),
    ("strokeWidth", wish.strokeWidth.map NumberText.brief)]

/-- The style has the values that are given for the keys, but for those of the lost keys. -/
def Style.HoldsAllBut (lost : List String) (s : Style) (wishes : List (String × Option String)) :
    Prop :=
  ∀ key value, (key, some value) ∈ wishes → (s.get? key = some value ↔ key ∉ lost)

/-- What a layer writes is held, and what neither the layer nor the base has is lost. -/
theorem Style.holdsAllBut_overlay {base : Style} {layer wishes : List (String × Option String)}
    {lost : List String} (hkeys : (layer.map Prod.fst).Nodup)
    (hkept : ∀ key value, (key, some value) ∈ wishes → key ∉ lost → (key, some value) ∈ layer)
    (hlost : ∀ key ∈ lost, key ∉ layer.map Prod.fst ∧ base.get? key = none) :
    (base.overlay layer).HoldsAllBut lost wishes := by
  intro key value hwish
  by_cases h : key ∈ lost
  · obtain ⟨hnew, hnone⟩ := hlost key h
    have hget : (base.overlay layer).get? key = none := by
      rw [(takes_overlay_of_not_mem hnew).2, Option.none_or, hnone]
    simp [hget, h]
  · have hget : (base.overlay layer).get? key = some value :=
      (takes_overlay hkeys (hkept key value hwish h)).2
    simp [hget, h]

namespace Build

variable (wish : StyleOverride α)

theorem nodeStyle_holds (base : Style) (paint : NodePaint α) :
    (nodeStyle base paint wish).HoldsAllBut [] wish.lineWishes := by
  rw [nodeStyle_eq]
  refine Style.holdsAllBut_overlay (nodup_keys_nodeLayer wish paint)
    (fun key value hwish _ => ?_) (by simp)
  simp only [StyleOverride.lineWishes, List.mem_cons, List.not_mem_nil, or_false] at hwish
  rcases hwish with h | h | h <;> simp [nodeLayer, h]

theorem edgeStyle_holds (routing : Routing) (paint : EdgePaint α) :
    (edgeStyle routing paint wish).HoldsAllBut ["opacity"] wish.lineWishes := by
  rw [edgeStyle_eq]
  refine Style.holdsAllBut_overlay (nodup_keys_edgeLayer wish routing paint)
    (fun key value hwish hkey => ?_) (fun key hkey => ?_)
  · simp only [StyleOverride.lineWishes, List.mem_cons, List.not_mem_nil, or_false,
      Prod.mk.injEq] at hwish hkey
    rcases hwish with ⟨rfl, h⟩ | ⟨rfl, -⟩ | ⟨rfl, h⟩
    · simp [edgeLayer, h]
    · exact absurd rfl hkey
    · obtain ⟨width, hwidth, rfl⟩ := Option.map_eq_some_iff.mp h.symm
      simp [edgeLayer, hwidth]
  · have hnew : "opacity" ∉ edgeKeys := by decide
    rw [List.mem_singleton.mp hkey]
    exact ⟨hnew, rfl⟩

theorem groupStyle_holds (paint : GroupPaint α) :
    (groupStyle paint wish).HoldsAllBut ["strokeWidth"] wish.lineWishes := by
  rw [groupStyle_eq]
  refine Style.holdsAllBut_overlay (nodup_keys_groupLayer wish paint)
    (fun key value hwish hkey => ?_) (fun key hkey => ?_)
  · simp only [StyleOverride.lineWishes, List.mem_cons, List.not_mem_nil, or_false,
      Prod.mk.injEq] at hwish hkey
    rcases hwish with ⟨rfl, h⟩ | ⟨rfl, h⟩ | ⟨rfl, -⟩
    · obtain ⟨dashed, hdashed, rfl⟩ := Option.map_eq_some_iff.mp h.symm
      simp [groupLayer, hdashed]
    · simp [groupLayer, h]
    · exact absurd rfl hkey
  · have hnew : "strokeWidth" ∉ groupKeys := by decide
    rw [List.mem_singleton.mp hkey]
    exact ⟨hnew, by decide⟩

end Build

/-- What is wished for lines and visibility is in the styles of the model, but for the
opacity of an edge and the width of the lines of a group, which are in none. -/
theorem line_wishes_are_kept_but_for_two [Scalar α] (d : Description α) (tables : Tables α)
    (settings : ModelSettings α) :
    let m := (d.build tables settings).1
    List.Forall₂ (fun node n => n.id = node.id ∧
        n.style.HoldsAllBut [] (node.style.getD .blank).lineWishes) d.nodes m.nodes ∧
      List.Forall₂ (fun edge e => (e.source = edge.source ∧ e.target = edge.target) ∧
        e.style.HoldsAllBut ["opacity"] (edge.style.getD .blank).lineWishes) d.keptEdges m.edges ∧
      List.Forall₂ (fun group g => g.id = group.id ∧
        g.style.HoldsAllBut ["strokeWidth"] (group.style.getD .blank).lineWishes)
        d.groups m.groups := by
  intro m
  have hnodes : m.nodes = _ := Description.nodes_build d tables settings
  have hedges : m.edges = _ := Description.edges_build d tables settings
  have hgroups : m.groups = _ := Description.groups_build d tables settings
  rw [hnodes, hedges, hgroups]
  refine ⟨?_, ?_, ?_⟩
  · exact Build.forall₂_zipIdx _ _ fun n i => ⟨rfl, Build.nodeStyle_holds _ _ _⟩
  · exact Build.forall₂_zipIdx _ _ fun e i => ⟨⟨rfl, rfl⟩, Build.edgeStyle_holds _ _ _⟩
  · rw [List.forall₂_map_right_iff, List.forall₂_same]
    exact fun g _ => ⟨rfl, Build.groupStyle_holds _ _⟩

section Grid

/-- Everything is to be faint, dashed and drawn with thick lines. -/
def faint : Description Grid :=
  let wish : Option (StyleOverride Grid) := some
    { StyleOverride.blank with dashed := some true, opacity := some 40, strokeWidth := some 3 }
  { title := "faint"
    theme := .professional
    layout := LayoutChoice.default
    nodes := [⟨"a", "A", "rounded=1;", some "g", wish, none, none⟩,
      ⟨"b", "B", "rounded=1;", none, wish, none, none⟩]
    edges := [⟨"a", "b", none, wish, .straight⟩]
    groups := [⟨"g", "G", none, wish⟩] }

/-- Of the three wishes the group keeps two. -/
theorem a_faint_group_has_thin_lines :
    let m := (faint.build Tables.builtin ModelSettings.default).1
    ∀ g ∈ m.groups, g.style.get? "dashed" = some "1" ∧ g.style.get? "opacity" = some "40" ∧
      g.style.get? "strokeWidth" ≠ some "3" := by
  intro m
  obtain ⟨-, -, hgroups⟩ := line_wishes_are_kept_but_for_two faint Tables.builtin
    ModelSettings.default
  obtain ⟨g, rest, ⟨-, hholds⟩, hrest, hbuilt⟩ := List.forall₂_cons_left_iff.mp hgroups
  rw [List.forall₂_nil_left_iff.mp hrest] at hbuilt
  have hone : m.groups = [g] := hbuilt
  rw [hone, List.forall_mem_singleton]
  refine ⟨?_, ?_, ?_⟩
  · exact (hholds "dashed" "1" (by decide)).mpr (by decide)
  · exact (hholds "opacity" "40" (by decide)).mpr (by decide)
  · exact (hholds "strokeWidth" "3" (by decide)).not.mpr (by decide)

/-- The description is accepted, but its edge is not faint and its group has thin lines. -/
theorem wishes_of_edges_and_groups_are_lost :
    let m := (faint.build Tables.builtin ModelSettings.default).1
    faint.problems = [] ∧
      (faint.edges.map fun e => (e.style.getD .blank).opacity) = [some 40] ∧
      (m.edges.map fun e => e.style.get? "opacity") = [none] ∧
      (faint.groups.map fun g => (g.style.getD .blank).strokeWidth) = [some 3] ∧
      (m.groups.map fun g => g.style.get? "strokeWidth") = [none] := by
  intro m
  exact ⟨by decide, by decide, by decide +kernel⟩

end Grid

end DiagramPress
