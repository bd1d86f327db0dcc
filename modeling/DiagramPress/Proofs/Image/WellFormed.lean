-- Images are well-formed whatever their texts say: the prolog and one svg element, with a
-- g element for each group, each node and each edge between boxes.
import DiagramPress.Image.Drawing
import DiagramPress.Proofs.Image.Embedding
import DiagramPress.Proofs.Markup.Grammar

namespace DiagramPress.Image

open Codec (Packing)
open Markup (Attribute Element isProperTag)

/-! ## Shapes and texts -/

/-- The names of what groups, nodes and edges are drawn with. -/
def shapeNames : List String := ["rect", "polygon", "ellipse", "path", "line", "text", "tspan"]

/-- The element has proper tags, and consists of shapes and texts. -/
structure IsShape (e : Element) : Prop where
  proper : e.isProper = true
  names : ∀ name ∈ e.names, name ∈ shapeNames

theorem isShape_text (content : String) : IsShape (.text content) where
  proper := rfl
  names _ h := by cases h

section

variable {name : String} {as : List Attribute} (names : List String)
  (hnames : as.map (·.name) = names) (h : name ∈ shapeNames ∧ isProperTag name names = true)
include hnames h

theorem isShape_lone : IsShape (.lone name as) where
  proper := by
    rw [Element.isProper, hnames]
    exact h.2
  names inner hinner := by
    rw [List.mem_singleton.mp hinner]
    exact h.1

theorem isShape_span {content : List Element} (hcontent : ∀ e ∈ content, IsShape e) :
    IsShape (.span name as content) where
  proper := by
    rw [Element.isProper, hnames, h.2, Element.allProper_iff.mpr fun e he => (hcontent e he).proper]
    rfl
  names inner hinner := by
    rw [Element.names, Element.namesOf_eq, List.mem_cons, List.mem_flatMap] at hinner
    rcases hinner with rfl | ⟨e, he, hinner⟩
    · exact h.1
    · exact (hcontent e he).names inner hinner

end

/-- A group, a node or an edge as it is drawn: shapes and texts in a g element. -/
def IsDrawing (e : Element) : Prop :=
  ∃ content, e = .block "g" [] content ∧ ∀ c ∈ content, IsShape c

theorem IsDrawing.proper {e : Element} (h : IsDrawing e) : e.isProper = true := by
  obtain ⟨content, rfl, hcontent⟩ := h
  rw [Element.isProper, Element.allProper_iff.mpr fun c hc => (hcontent c hc).proper]
  decide

/-- It is one g element, and has no other one and no svg element inside. -/
theorem IsDrawing.names {e : Element} (h : IsDrawing e) :
    ∃ inner, e.names = "g" :: inner ∧ "g" ∉ inner ∧ "svg" ∉ inner := by
  obtain ⟨content, rfl, hcontent⟩ := h
  have hshapes : ∀ name ∈ Element.namesOf content, name ∈ shapeNames := by
    intro name hname
    rw [Element.namesOf_eq, List.mem_flatMap] at hname
    obtain ⟨c, hc, hname⟩ := hname
    exact (hcontent c hc).names name hname
  exact ⟨Element.namesOf content, rfl, fun h => absurd (hshapes _ h) (by decide),
    fun h => absurd (hshapes _ h) (by decide)⟩

/-- Drawings one after the other have as many g elements as there are drawings. -/
theorem names_drawings {es : List Element} (h : ∀ e ∈ es, IsDrawing e) :
    (Element.namesOf es).count "g" = es.length ∧ "svg" ∉ Element.namesOf es := by
  induction es with
  | nil => exact ⟨rfl, List.not_mem_nil⟩
  | cons e es ih =>
    obtain ⟨he, hes⟩ := List.forall_mem_cons.mp h
    obtain ⟨inner, hnames, hg, hsvg⟩ := he.names
    obtain ⟨hcount, hrest⟩ := ih hes
    rw [Element.namesOf, hnames]
    constructor
    · rw [List.count_append, List.count_cons_self, List.count_eq_zero_of_not_mem hg, hcount,
        List.length_cons]
      omega
    · simp [hsvg, hrest]

variable {α : Type} [Scalar α] [NumberText α]

/-! ## What is drawn -/

/-- Everything in a short list is a shape. -/
theorem forall_shapes_singleton {e : Element} (h : IsShape e) : ∀ c ∈ [e], IsShape c :=
  List.forall_mem_singleton.mpr h

/-- A rectangle is a shape with dashes and without them. -/
theorem isShape_dashed {as : List Attribute} (style : Style) (pattern : String)
    (hnames : as.map (·.name) =
      ["x", "y", "width", "height", "fill", "stroke", "stroke-width", "rx"]) :
    IsShape (.lone "rect" (as ++ dashes style pattern)) := by
  unfold dashes
  split
  · refine isShape_lone ["x", "y", "width", "height", "fill", "stroke", "stroke-width", "rx",
      "stroke-dasharray"] ?_ (by decide)
    rw [List.map_append, hnames]
    rfl
  · rw [List.append_nil]
    exact isShape_lone _ hnames (by decide)

omit [Scalar α] in
theorem isShape_ellipse (center : Point α) (rx ry : α) (style : Style) :
    IsShape (ellipse center rx ry style) :=
  isShape_lone ["cx", "cy", "rx", "ry", "fill", "stroke", "stroke-width"] rfl (by decide)

theorem isShape_figure (figure : Figure) (b : Bounds α) (style : Style) (cap : α) :
    ∀ e ∈ figureElements figure b style cap, IsShape e := by
  cases figure with
  | diamond =>
    exact forall_shapes_singleton
      (isShape_lone ["points", "fill", "stroke", "stroke-width"] rfl (by decide))
  | ellipse => exact forall_shapes_singleton (isShape_ellipse _ _ _ _)
  | cylinder =>
    exact List.forall_mem_cons.mpr
      ⟨isShape_lone ["d", "fill", "stroke", "stroke-width"] rfl (by decide),
        forall_shapes_singleton (isShape_ellipse _ _ _ _)⟩
  | box =>
    refine forall_shapes_singleton ?_
    rw [List.append_cons]
    exact isShape_dashed style "6,3" rfl

/-- The names of the attributes of a label. -/
def labelNames (bold italic : Bool) : List String :=
  ["x", "y", "text-anchor", "font-family", "font-size"] ++
    (if bold then ["font-weight"] else []) ++ (if italic then ["font-style"] else []) ++ ["fill"]

theorem isProperTag_label : ∀ bold italic,
    "text" ∈ shapeNames ∧ isProperTag "text" (labelNames bold italic) = true := by decide

omit [Scalar α] in
theorem names_labelAttributes (style : LabelStyle α) (layout : LabelLayout α) :
    (labelAttributes style layout).map (·.name) = labelNames style.bold style.italic := by
  unfold labelAttributes labelNames
  cases style.bold <;> cases style.italic <;> rfl

theorem isShape_label (label : String) (cell : Bounds α) (style : Style)
    (settings : RenderSettings α) : ∀ e ∈ labelElements label cell style settings, IsShape e := by
  unfold labelElements
  dsimp only
  split
  · rename_i layout _
    have hspans : ∀ e ∈ labelSpans layout, IsShape e := by
      intro e he
      obtain ⟨⟨line, index⟩, -, rfl⟩ := List.mem_map.mp he
      exact isShape_span ["x", "dy"] rfl (by decide) (forall_shapes_singleton (isShape_text line))
    exact forall_shapes_singleton
      (isShape_span _ (names_labelAttributes _ _) (isProperTag_label _ _) hspans)
  · exact fun e he => absurd he List.not_mem_nil

theorem isDrawing_group (canvas : Canvas α) (settings : RenderSettings α) (g : Model.Group α) :
    IsDrawing (groupElement canvas settings g) := by
  refine ⟨_, rfl, List.forall_mem_cons.mpr ⟨?_, ?_⟩⟩
  · exact isShape_dashed g.style "8,4" rfl
  · split
    · exact fun e he => absurd he List.not_mem_nil
    · exact forall_shapes_singleton
        (isShape_span ["x", "y", "font-family", "font-size", "font-weight", "fill"] rfl (by decide)
          (forall_shapes_singleton (isShape_text _)))

theorem isDrawing_node (canvas : Canvas α) (settings : RenderSettings α) (n : Model.Node α) :
    IsDrawing (nodeElement canvas settings n) :=
  ⟨_, rfl, List.forall_mem_append.mpr ⟨isShape_figure _ _ _ _, isShape_label _ _ _ _⟩⟩

theorem isDrawing_edge {canvas : Canvas α} {settings : RenderSettings α} {m : Model α}
    {edge : Model.Edge} {e : Element} (h : edgeElement? canvas settings m edge = some e) :
    IsDrawing e := by
  obtain ⟨⟨s, t⟩, -, rfl⟩ := Option.map_eq_some_iff.mp h
  refine ⟨_, rfl, List.forall_mem_cons.mpr ⟨?_, ?_⟩⟩
  · exact isShape_lone ["x1", "y1", "x2", "y2", "stroke", "stroke-width", "marker-end"] rfl
      (by decide)
  · split
    · exact fun e he => absurd he List.not_mem_nil
    · exact forall_shapes_singleton
        (isShape_span ["x", "y", "text-anchor", "font-family", "font-size", "fill"] rfl (by decide)
          (forall_shapes_singleton (isShape_text _)))

theorem isDrawing_painted (canvas : Canvas α) (settings : RenderSettings α) (m : Model α) :
    ∀ e ∈ painted canvas settings m, IsDrawing e := by
  intro e he
  rw [painted, List.mem_append, List.mem_append, List.mem_map, List.mem_map,
    List.mem_filterMap] at he
  rcases he with (⟨g, -, rfl⟩ | ⟨n, -, rfl⟩) | ⟨edge, -, hedge⟩
  · exact isDrawing_group canvas settings g
  · exact isDrawing_node canvas settings n
  · exact isDrawing_edge hedge

/-- Both ends of an edge are placed. -/
def isDrawn (m : Model α) (source target : String) : Bool :=
  (m.boundsOf? source).isSome && (m.boundsOf? target).isSome

theorem isSome_edgeElement? (canvas : Canvas α) (settings : RenderSettings α) (m : Model α)
    (e : Model.Edge) :
    (edgeElement? canvas settings m e).isSome = isDrawn m e.source e.target := by
  rw [edgeElement?, Option.isSome_map, Canvas.line?, isDrawn]
  cases m.boundsOf? e.source <;> cases m.boundsOf? e.target <;> rfl

/-- How many edges of a model lead from a box to a box. -/
def drawnEdges (m : Model α) : Nat := m.edges.countP fun e => isDrawn m e.source e.target

theorem length_painted (canvas : Canvas α) (settings : RenderSettings α) (m : Model α) :
    (painted canvas settings m).length = m.groups.length + m.nodes.length + drawnEdges m := by
  rw [painted, List.length_append, List.length_append, List.length_map, List.length_map,
    List.length_filterMap_eq_countP, drawnEdges]
  simp only [isSome_edgeElement?]

/-! ## The whole image -/

/-- What stands inside the image element of a model. -/
def contents (m : Model α) (settings : RenderSettings α) : List Element :=
  .block "defs" [] [arrowhead settings.arrowColor] :: background m.background ::
    painted (Canvas.ofModel m settings) settings m

theorem allProper_contents (m : Model α) (settings : RenderSettings α) :
    Element.allProper (contents m settings) = true := by
  have hpainted : Element.allProper (painted (Canvas.ofModel m settings) settings m) = true :=
    Element.allProper_iff.mpr fun e he => (isDrawing_painted _ settings m e he).proper
  have hdefs (color : String) : (Element.block "defs" [] [arrowhead color]).isProper = true := by
    simp only [arrowhead, Element.isProper, Element.allProper, List.map_cons, List.map_nil]
    decide
  have hbackground (color : String) : (background color).isProper = true := by
    simp only [background, Element.isProper, List.map_cons, List.map_nil]
    decide
  rw [contents, Element.allProper, Element.allProper, hdefs, hbackground, hpainted]
  rfl

theorem names_contents (m : Model α) (settings : RenderSettings α) :
    "svg" ∉ Element.namesOf (contents m settings) ∧
      (Element.namesOf (contents m settings)).count "g" =
        m.groups.length + m.nodes.length + drawnEdges m := by
  obtain ⟨hcount, hsvg⟩ := names_drawings (isDrawing_painted (Canvas.ofModel m settings) settings m)
  have hnames : Element.namesOf (contents m settings) = ["defs", "marker", "polygon", "rect"] ++
      Element.namesOf (painted (Canvas.ofModel m settings) settings m) := rfl
  rw [hnames]
  constructor
  · simp [hsvg]
  · rw [List.count_append, hcount, length_painted]
    exact Nat.zero_add _

/-- The text is a declaration, a document type and one svg element, which has as many g
elements inside as there are groups, nodes and edges between boxes. -/
def IsImageOf (m : Model α) (text : String) : Prop :=
  ∃ svg inside, text.toList = prolog.toList ++ svg ++ ['\n'] ∧
    Markup.IsElement "svg" svg inside ∧ "svg" ∉ inside ∧
    inside.count "g" = m.groups.length + m.nodes.length + drawnEdges m

theorem isImageOf_svg (m : Model α) (settings : RenderSettings α) {as : List Attribute}
    (h : isProperTag "svg" (as.map (·.name)) = true) {text : String}
    (htext : text.toList = prolog.toList ++
      (Element.block "svg" as (contents m settings)).lines 0 ++ ['\n']) : IsImageOf m text := by
  have hproper : (Element.block "svg" as (contents m settings)).isProper = true := by
    rw [Element.isProper, h, allProper_contents]
    rfl
  exact ⟨_, _, htext, Markup.isElement_block hproper, names_contents m settings⟩

/-! ## With a document inside -/

theorem lines_svg (as : List Attribute) (content : List Element) :
    (Element.block "svg" as content).lines 0 = "<svg".toList ++ (as.flatMap Attribute.chars ++
      '>' :: '\n' :: (Element.linesAll 1 content ++ Markup.endTag "svg")) := by
  have hstart : "<svg".toList = '<' :: "svg".toList := rfl
  rw [hstart]
  simp only [Element.lines, Markup.indent, Markup.startTag, Markup.startOfTag, Nat.mul_zero,
    List.replicate_zero, List.append_assoc, List.cons_append, List.nil_append]

theorem draw_lines (m : Model α) (settings : RenderSettings α) :
    (draw m settings).toList = prolog.toList ++
      (Element.block "svg" (rootAttributes (Canvas.ofModel m settings).size)
        (contents m settings)).lines 0 ++ ['\n'] := by
  rw [draw, String.toList_append, String.toList_ofList, List.append_assoc]
  rfl

theorem linesAll_eq (depth : Nat) (es : List Element) :
    Element.linesAll depth es = es.flatMap fun e => e.lines depth ++ ['\n'] := by
  induction es with
  | nil => rfl
  | cons e es ih =>
    rw [Element.linesAll, ih, List.flatMap_cons, List.append_assoc]
    rfl

/-- The image element has these elements inside, behind some others. In the text of the image
they stand one after the other, each on lines of its own, and behind them it ends. -/
structure Prints (m : Model α) (settings : RenderSettings α) (es : List Element) : Prop where
  inside : ∃ attributes ground, root m settings = .block "svg" attributes (ground ++ es)
  text : ∃ front, (draw m settings).toList =
    front ++ (es.flatMap fun e => e.lines 1 ++ ['\n']) ++ "</svg>\n".toList

theorem prints_painted (m : Model α) (settings : RenderSettings α) :
    Prints m settings (painted (Canvas.ofModel m settings) settings m) where
  inside := ⟨_, [.block "defs" [] [arrowhead settings.arrowColor], background m.background], rfl⟩
  text := by
    have hend : Markup.endTag "svg" ++ ['\n'] = "</svg>\n".toList := rfl
    rw [draw_lines, lines_svg, contents, Element.linesAll, Element.linesAll, linesAll_eq, ← hend]
    refine ⟨prolog.toList ++ ("<svg".toList ++
      ((rootAttributes (Canvas.ofModel m settings).size).flatMap Attribute.chars ++
        '>' :: '\n' :: ((Element.block "defs" [] [arrowhead settings.arrowColor]).lines 1 ++
          '\n' :: ((background m.background).lines 1 ++ ['\n'])))), ?_⟩
    simp only [List.append_assoc, List.cons_append, List.nil_append]

/-- The image with a document in it is the same element with one more attribute in front. -/
theorem embed_lines (packing : Packing) (m : Model α) (settings : RenderSettings α)
    (document : String) :
    (embed packing (draw m settings) document).toList = prolog.toList ++
      (Element.block "svg" (contentOf (packing.pack document) ::
        rootAttributes (Canvas.ofModel m settings).size) (contents m settings)).lines 0 ++
          ['\n'] := by
  obtain ⟨after, hafter⟩ : ∃ after,
      (rootAttributes (Canvas.ofModel m settings).size).flatMap Attribute.chars = ' ' :: after :=
    ⟨_, rfl⟩
  have himage := draw_lines m settings
  rw [lines_svg, hafter] at himage
  rw [lines_svg, List.flatMap_cons, hafter]
  generalize '>' :: '\n' :: (Element.linesAll 1 (contents m settings) ++ Markup.endTag "svg") =
    more at himage ⊢
  have hopening : (draw m settings).toList =
      prolog.toList ++ (opening ++ (after ++ (more ++ ['\n']))) := by
    rw [himage, opening_split]
    simp only [List.append_assoc, List.cons_append, List.nil_append]
  rw [embed_opening packing document hopening, contentAttribute_eq]
  simp only [List.append_assoc, List.cons_append]

/-- Whatever the texts of a model and the settings say, its image is well-formed, and so
is the image with a document in it. -/
theorem images_are_well_formed (m : Model α) (settings : RenderSettings α) (packing : Packing)
    (document : String) :
    IsImageOf m (draw m settings) ∧ IsImageOf m (embed packing (draw m settings) document) := by
  have hroot (size : Size α) : (rootAttributes size).map (·.name) =
      ["xmlns", "xmlns:xlink", "version", "width", "height", "viewBox"] := rfl
  have hcontent (packed : String) (size : Size α) :
      (contentOf packed :: rootAttributes size).map (·.name) =
        ["content", "xmlns", "xmlns:xlink", "version", "width", "height", "viewBox"] := rfl
  constructor
  · refine isImageOf_svg m settings ?_ (draw_lines m settings)
    rw [hroot]
    decide
  · refine isImageOf_svg m settings ?_ (embed_lines packing m settings document)
    rw [hcontent]
    decide

end DiagramPress.Image
