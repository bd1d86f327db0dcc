-- A diagram looks the same in both of its formats: the places that the document
-- adds up to are the places in the image, all moved by the same offset.
import DiagramPress.Proofs.Markup.Sums
import DiagramPress.Image.Drawing
import DiagramPress.Proofs.Image.Canvas
import DiagramPress.Proofs.Image.WellFormed
import DiagramPress.Proofs.Console.Generate

namespace DiagramPress

/-! ## Where things are drawn -/

namespace Image

open Markup (Attribute Element)

variable {α : Type} [Scalar α] [NumberText α]

/-- The element draws a group: first of all a rectangle with the corner and the size of the box. -/
def DrawsGroup (b : Bounds α) (e : Element) : Prop :=
  ∃ rectangle inside, e = .block "g" [] (rectangle :: inside) ∧
    ∃ look, rectangle = .lone "rect"
      ([⟨"x", NumberText.fixed 2 b.x⟩, ⟨"y", NumberText.fixed 2 b.y⟩,
        ⟨"width", NumberText.fixed 2 b.width⟩, ⟨"height", NumberText.fixed 2 b.height⟩] ++ look)

/-- The figure fills the box: a rhombus from the middle of the upper side around, an ellipse
around the centre, a cylinder that bulges by the height of its cap, or a rectangle. -/
def FillsBox (cap : α) (b : Bounds α) (style : Style) (es : List Element) : Figure → Prop
  | .diamond =>
    let left := NumberText.fixed 2 b.x
    let right := NumberText.fixed 2 (b.x + b.width)
    let top := NumberText.fixed 2 b.y
    let bottom := NumberText.fixed 2 (b.y + b.height)
    let cx := NumberText.fixed 2 (b.x + b.width / 2)
    let cy := NumberText.fixed 2 (b.y + b.height / 2)
    let corners := [cx ++ "," ++ top, right ++ "," ++ cy, cx ++ "," ++ bottom, left ++ "," ++ cy]
    es = [.lone "polygon" (⟨"points", String.intercalate " " corners⟩ :: paint style)]
  | .ellipse =>
    es = [.lone "ellipse"
      ([⟨"cx", NumberText.fixed 2 (b.x + b.width / 2)⟩,
        ⟨"cy", NumberText.fixed 2 (b.y + b.height / 2)⟩,
        ⟨"rx", NumberText.fixed 2 (b.width / 2)⟩, ⟨"ry", NumberText.fixed 2 (b.height / 2)⟩] ++
          paint style)]
  | .cylinder =>
    let left := NumberText.fixed 2 b.x
    let right := NumberText.fixed 2 (b.x + b.width)
    let upper := NumberText.fixed 2 (b.y + cap)
    let lower := NumberText.fixed 2 (b.y + b.height - cap)
    let rx := NumberText.fixed 2 (b.width / 2)
    let ry := NumberText.fixed 2 cap
    let arc := "A" ++ (rx ++ "," ++ ry) ++ " 0 0,1 "
    let outline := "M" ++ (left ++ "," ++ upper) ++ " " ++ arc ++ (right ++ "," ++ upper) ++
      " V" ++ lower ++ " " ++ arc ++ (left ++ "," ++ lower) ++ " Z"
    es = [.lone "path" (⟨"d", outline⟩ :: paint style),
      .lone "ellipse" ([⟨"cx", NumberText.fixed 2 (b.x + b.width / 2)⟩, ⟨"cy", upper⟩,
        ⟨"rx", rx⟩, ⟨"ry", ry⟩] ++ paint style)]
  | .box =>
    es = [.lone "rect"
      ([⟨"x", NumberText.fixed 2 b.x⟩, ⟨"y", NumberText.fixed 2 b.y⟩,
        ⟨"width", NumberText.fixed 2 b.width⟩, ⟨"height", NumberText.fixed 2 b.height⟩] ++
          paint style ++ ⟨"rx", if style.isEnabled "rounded" then "6" else "0"⟩ ::
            dashes style "6,3")]

/-- Where the first of so many lines starts in a box. -/
structure StartsIn (s : LabelStyle α) (b : Bounds α) (lines : Nat) (p : Point α) : Prop where
  left : s.align = .left → p.x = b.x + s.spacingLeft
  center : s.align = .center → p.x = b.x + b.width / 2
  right : s.align = .right → p.x = b.x + b.width - s.spacingRight
  top : s.verticalAlign = .top → p.y = b.y + s.spacingTop + s.ascent
  middle : s.verticalAlign = .middle →
    p.y = b.y + (b.height - Scalar.ofNat lines * s.lineHeight) / 2 + s.ascent
  bottom : s.verticalAlign = .bottom →
    p.y = b.y + b.height - s.spacingBottom - Scalar.ofNat lines * s.lineHeight + s.ascent

/-- The element is a text in the box, with all its lines one below the other. -/
def IsTextIn (s : LabelStyle α) (b : Bounds α) (e : Element) : Prop :=
  ∃ (p : Point α) (look : List Attribute) (lines : List Element),
    e = .span "text"
      (⟨"x", NumberText.fixed 2 p.x⟩ :: ⟨"y", NumberText.fixed 2 p.y⟩ :: look) lines ∧
    StartsIn s b lines.length p ∧
    ∀ line ∈ lines, ∃ down content,
      line = .span "tspan" [⟨"x", NumberText.fixed 2 p.x⟩, ⟨"dy", down⟩] content

/-- The element draws a node: its figure fills the box, and its label stands in the box. -/
def DrawsNode (settings : RenderSettings α) (b : Bounds α) (n : Model.Node α) (e : Element) :
    Prop :=
  ∃ figure label, e = .block "g" [] (figure ++ label) ∧
    FillsBox settings.cylinderCap b n.style figure (Figure.ofStyle n.style) ∧
    label = labelElements n.label b n.style settings ∧
    ∀ text ∈ label, IsTextIn (LabelStyle.ofStyle n.style settings.fontFamily) b text

/-- The image shows every group and every node that is placed in its own box, moved
by an offset that is the same for all of them. -/
def ShowsPlaces (m : Model α) (settings : RenderSettings α) : Prop :=
  ∃ (offset : Point α) (groups nodes edges : List Element),
    Prints m settings (groups ++ nodes ++ edges) ∧
      List.Forall₂ (fun g e => ∀ b ∈ g.bounds?, DrawsGroup (b.shift offset) e) m.groups groups ∧
      List.Forall₂ (fun n e => ∀ b ∈ n.bounds?, DrawsNode settings (b.shift offset) n e)
        m.nodes nodes

/-! ## Everything is drawn where it belongs -/

theorem fillsBox (cap : α) (b : Bounds α) (style : Style) (figure : Figure) :
    FillsBox cap b style (figureElements figure b style cap) figure := by
  cases figure <;> rfl

omit [NumberText α] in
theorem startsIn_layout {s : LabelStyle α} {text : String} {b : Bounds α} {layout : LabelLayout α}
    (h : s.layout? text b = some layout) :
    StartsIn s b layout.lines.length ⟨layout.x, layout.y⟩ := by
  unfold LabelStyle.layout? at h
  by_cases hblank : (Text.trim text.toList).isEmpty = true
  · rw [if_pos hblank] at h
    cases h
  · rw [if_neg hblank, Option.some.injEq] at h
    subst h
    rw [List.length_map]
    constructor
    all_goals
      intro halign
      simp only [halign, Bounds.right, Bounds.bottom]

theorem isTextIn_label {label : String} {b : Bounds α} {style : Style}
    {settings : RenderSettings α} :
    ∀ text ∈ labelElements label b style settings,
      IsTextIn (LabelStyle.ofStyle style settings.fontFamily) b text := by
  intro text htext
  unfold labelElements at htext
  dsimp only at htext
  split at htext
  · rename_i layout hlayout
    rw [List.mem_singleton.mp htext]
    refine ⟨⟨layout.x, layout.y⟩, _, labelSpans layout, rfl, ?_, fun line hline => ?_⟩
    · have hlength : (labelSpans layout).length = layout.lines.length := by
        rw [labelSpans, List.length_map, List.length_zipIdx]
      rw [hlength]
      exact startsIn_layout hlayout
    · obtain ⟨⟨content, index⟩, -, rfl⟩ := List.mem_map.mp hline
      exact ⟨_, _, rfl⟩
  · exact absurd htext List.not_mem_nil

theorem drawsGroup {canvas : Canvas α} {g : Model.Group α} {b : Bounds α} (hb : g.bounds? = some b)
    (settings : RenderSettings α) :
    DrawsGroup (b.shift canvas.offset) (groupElement canvas settings g) := by
  have hbox : canvas.place (groupBox g) = b.shift canvas.offset := by
    rw [groupBox_of_bounds? hb, Canvas.place]
  rw [groupElement, hbox]
  exact ⟨_, _, rfl, _, congrArg (Element.lone "rect") (List.append_assoc _ _ _)⟩

theorem drawsNode {canvas : Canvas α} {n : Model.Node α} {b : Bounds α} (hb : n.bounds? = some b)
    (settings : RenderSettings α) :
    DrawsNode settings (b.shift canvas.offset) n (nodeElement canvas settings n) := by
  have hbox : canvas.place (nodeBox n) = b.shift canvas.offset := by
    rw [nodeBox_of_bounds? hb, Canvas.place]
  rw [nodeElement, hbox]
  exact ⟨_, _, rfl, fillsBox _ _ _ _, rfl, isTextIn_label⟩

/-- Everything is moved by the offset of the canvas. -/
theorem showsPlaces (m : Model α) (settings : RenderSettings α) : ShowsPlaces m settings := by
  let canvas := Canvas.ofModel m settings
  refine ⟨canvas.offset, m.groups.map (groupElement canvas settings),
    m.nodes.map (nodeElement canvas settings), m.edges.filterMap (edgeElement? canvas settings m),
    prints_painted m settings, ?_, ?_⟩
  · rw [List.forall₂_map_right_iff, List.forall₂_same]
    exact fun g _ b hb => drawsGroup hb settings
  · rw [List.forall₂_map_right_iff, List.forall₂_same]
    exact fun n _ b hb => drawsNode hb settings

end Image

/-! ## Groups are placed with their sizes -/

namespace Model

section

variable {α : Type}

/-- A group with a position has a size as well, and the other way round. -/
def Group.IsWhole (g : Group α) : Prop := g.position.isSome = g.size.isSome

theorem Group.isWhole_writeGroup (boxes : List (String × Bounds α)) {g : Group α}
    (h : g.IsWhole) : (Layout.writeGroup boxes g).IsWhole := by
  unfold Layout.writeGroup
  split
  · rfl
  · exact h

variable [Scalar α]

theorem Group.isWhole_growAround (padding : Padding α) (m : Model α) {g : Group α}
    (h : g.IsWhole) : (Layout.growAround padding m g).IsWhole := by
  unfold Layout.growAround
  split
  · exact h
  · rfl

variable [NumberText α]

theorem Reached.isWhole {m : Model α} (h : m.Reached) : ∀ g ∈ m.groups, g.IsWhole := by
  induction h with
  | @built d tables settings _ =>
    intro g hg
    rw [Description.groups_build] at hg
    obtain ⟨entry, -, rfl⟩ := List.mem_map.mp hg
    rfl
  | laidOut _ h ih =>
    rcases layout_cases h with ⟨-, rfl⟩ | ⟨method, answer, -, -, rfl⟩
    · exact ih
    · refine Layout.forall_groups_encloseMembers
        (fun m g hg => Group.isWhole_growAround _ m hg) fun g hg => ?_
      obtain ⟨g', hg', rfl⟩ := List.mem_map.mp hg
      exact Group.isWhole_writeGroup _ (ih g' hg')

end

/-- Models of accepted descriptions are evenly placed if all their groups have
boxes or none has one. -/
theorem Reached.evenlyPlaced_iff {m : Model ℚ} (h : m.Reached) :
    Markup.EvenlyPlaced m ↔
      (∀ g ∈ m.groups, g.bounds?.isSome) ∨ ∀ g ∈ m.groups, g.bounds? = none := by
  have hnone : ∀ g ∈ m.groups, g.position = none ↔ g.bounds? = none := by
    intro g hg
    have hwhole := h.isWhole g hg
    unfold Group.IsWhole at hwhole
    rw [Group.bounds?]
    cases hposition : g.position with
    | none => simp
    | some p =>
      rw [hposition] at hwhole
      obtain ⟨s, hs⟩ := Option.isSome_iff_exists.mp hwhole.symm
      simp [hs]
  exact or_congr_right (forall₂_congr hnone)

end Model

/-! ## The law of the two formats -/

/-- In the document of an evenly placed model, everything placed lies at its place,
as far as the rounding lets it; and the image shows it there, up to one offset. A model that
a description leads to is evenly placed if all its groups have boxes or none has one. -/
theorem documents_and_images_show_the_same_places {d : Description ℚ} (hd : d.problems = [])
    (tables : Tables ℚ) (modelSettings : ModelSettings ℚ) {m : Model ℚ}
    (hm : m.withoutPlaces = (d.build tables modelSettings).1.withoutPlaces) :
    (m.Reached → (Markup.EvenlyPlaced m ↔
      (∀ g ∈ m.groups, g.bounds?.isSome) ∨ ∀ g ∈ m.groups, g.bounds? = none)) ∧
    (Markup.EvenlyPlaced m → ∀ (modified : String) (settings : RenderSettings ℚ),
      let cells := Markup.cells (Markup.encode m modified).toList
      (∀ n ∈ m.nodes, ∀ b ∈ n.bounds?, Markup.LiesAt cells n.cell b.corner) ∧
        (∀ g ∈ m.groups, ∀ b ∈ g.bounds?, Markup.LiesAt cells g.cell b.corner) ∧
        Image.ShowsPlaces m settings) := by
  refine ⟨fun hreached => hreached.evenlyPlaced_iff, fun heven modified settings => ?_⟩
  have htogether := Description.hangsTogether_of_accepted hd
  have hnested : m.Nested := (Model.nested_build htogether tables modelSettings).congr hm
  have hhangs : ∀ g ∈ m.groups, m.HangsBelowParent g :=
    Model.hangsBelowParent_congr hm fun g hg =>
      Description.hangsBelowParent_build tables modelSettings htogether.groups_nodup hg
  have hnumbered : m.WellNumbered :=
    (Description.wellNumbered_build tables modelSettings htogether.groups_nodup).congr hm
  obtain ⟨hnodes, hgroups⟩ := Markup.liesAt_encode hnested hhangs heven hnumbered modified
  refine ⟨fun n hn b hb => ?_, hgroups, Image.showsPlaces m settings⟩
  obtain ⟨p, hp, rfl⟩ := Option.map_eq_some_iff.mp hb
  exact hnodes n hn p hp

/-- A node in a group that is listed before the group around it. -/
def innerFirstDescription : Description ℚ where
  title := "inner first"
  theme := .professional
  layout := LayoutChoice.default
  nodes := [⟨"a", "A", "rounded=1;", some "inner", none, none, none⟩]
  edges := []
  groups := [⟨"inner", "Inner", some "outer", none⟩, ⟨"outer", "Outer", none, none⟩]

/-- The model of the description with its parts at thirds of a unit. -/
def thirdsModel : Model ℚ :=
  let built := (innerFirstDescription.build Tables.builtin ModelSettings.default).1
  { built with
    groups := built.groups.map fun g =>
      { g with
        position := some (if g.id = "inner" then ⟨10 / 3, 5⟩ else ⟨1 / 3, 2⟩)
        size := some ⟨30, 20⟩ }
    nodes := built.nodes.map fun n => { n with position := some ⟨22 / 3, 7⟩ } }

theorem places_at_thirds_add_up :
    innerFirstDescription.problems = [] ∧ Markup.EvenlyPlaced thirdsModel ∧
      let cells := Markup.cells (Markup.encode thirdsModel "now").toList
      (∀ n ∈ thirdsModel.nodes, Markup.LiesAt cells n.cell ⟨22 / 3, 7⟩) ∧
      Image.ShowsPlaces thirdsModel RenderSettings.default := by
  have hd : innerFirstDescription.problems = [] := by decide +kernel
  have heven : Markup.EvenlyPlaced thirdsModel := by
    refine .inl fun g hg => ?_
    obtain ⟨g', -, rfl⟩ := List.mem_map.mp hg
    rfl
  have hm : thirdsModel.withoutPlaces =
      (innerFirstDescription.build Tables.builtin ModelSettings.default).1.withoutPlaces := by
    rw [Model.withoutPlaces, thirdsModel, List.map_map, List.map_map]
    rfl
  obtain ⟨hnodes, -, himage⟩ := (documents_and_images_show_the_same_places hd Tables.builtin
    ModelSettings.default hm).2 heven "now" RenderSettings.default
  refine ⟨hd, heven, fun n hn => ?_, himage⟩
  obtain ⟨n', -, rfl⟩ := List.mem_map.mp hn
  exact hnodes _ hn (Bounds.ofCorner ⟨22 / 3, 7⟩ n'.size) rfl

end DiagramPress
