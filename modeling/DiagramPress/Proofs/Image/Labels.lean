-- Labels in the image: what is written between the tags of a text reads as the label of
-- the description, word for word, whatever places the layout gives.
import DiagramPress.Image.Drawing
import DiagramPress.Proofs.Image.WellFormed
import DiagramPress.Proofs.Layout.Complete
import DiagramPress.Proofs.Layout.Kept
import DiagramPress.Proofs.Markup.References
import DiagramPress.Proofs.Model.Numbering
import DiagramPress.Proofs.Text.Words

namespace DiagramPress

/-! ## Reading elements -/

namespace Markup.Element

def name? : Element → Option String
  | text _ => none
  | lone name _ => some name
  | span name _ _ => some name
  | block name _ _ => some name

def content : Element → List Element
  | text _ => []
  | lone _ _ => []
  | span _ _ content => content
  | block _ _ content => content

/-- The elements with a name directly inside an element. -/
def inner (name : String) (e : Element) : List Element := e.content.filter (·.name? = some name)

/-- What is written between the tags of an element on one line, with its references read. -/
def reading (e : Element) : List Char := unescapeChars (inlineAll e.content)

/-- A text in an element reads as it is. -/
theorem reading_span (name : String) (as : List Attribute) (label : String) :
    (span name as [text label]).reading = label.toList := by
  rw [reading, content, inlineAll, inlineAll, inline, List.append_nil, unescapeChars_escapeChars]

end Markup.Element

namespace Image

open Markup (Element)

/-! ## What shows a label -/

/-- Nothing but white space. -/
def Blank (label : String) : Prop := ∀ c ∈ label.toList, Text.isBlank c = true

/-- The drawing has one text element, which reads as the label. -/
def ShowsText (label : String) (e : Element) : Prop :=
  ∃ t, e.inner "text" = [t] ∧ t.reading = label.toList

/-- The drawing has one text element, with nothing but lines inside, and what the lines
read as, split at white space, are the words of the label. -/
def ShowsWords (label : String) (e : Element) : Prop :=
  ∃ t, e.inner "text" = [t] ∧ t.inner "tspan" = t.content ∧
    (t.content.flatMap fun line => Text.words line.reading) = Text.words label.toList

/-- The drawing has no text element. -/
def ShowsNoText (e : Element) : Prop := e.inner "text" = []

theorem isEmpty_trim_iff {label : String} :
    (Text.trim label.toList).isEmpty = true ↔ Blank label := by
  rw [List.isEmpty_iff, Text.trim_eq_nil_iff, Blank]

variable {α : Type} [Scalar α]

/-! ## The lines of a label -/

theorem layout?_eq_none {s : LabelStyle α} {label : String} (cell : Bounds α) (h : Blank label) :
    s.layout? label cell = none := by
  rw [LabelStyle.layout?, if_pos (isEmpty_trim_iff.mpr h)]

/-- The lines of a label have its words. -/
theorem words_layout {s : LabelStyle α} {label : String} (cell : Bounds α) (h : ¬ Blank label) :
    ∃ layout, s.layout? label cell = some layout ∧
      (layout.lines.flatMap fun line => Text.words line.toList) = Text.words label.toList := by
  have hnot : ¬ (Text.trim label.toList).isEmpty = true :=
    fun hempty => h (isEmpty_trim_iff.mp hempty)
  rw [LabelStyle.layout?, if_neg hnot]
  refine ⟨_, rfl, ?_⟩
  have hwrap : (fun piece => (Text.wrap (s.budget cell.width) piece).flatMap Text.words) =
      Text.words := funext (Text.flatMap_words_wrap _)
  simp only [List.flatMap_map, String.toList_ofList, List.flatMap_assoc, hwrap]
  exact Text.flatMap_words_split (by decide) label.toList

variable [NumberText α]

/-- What the spans of a layout read as are its lines. -/
theorem reading_labelSpans (layout : LabelLayout α) :
    (labelSpans layout).map Element.reading = layout.lines.map String.toList := by
  rw [labelSpans, List.map_map, ← Build.map_zipIdx_fst String.toList layout.lines 0]
  refine List.map_congr_left fun entry _ => ?_
  simp only [Function.comp_apply, Element.reading_span]

/-! ## Groups and edges -/

section

variable (canvas : Canvas α) (settings : RenderSettings α)

theorem showsText_group {g : Model.Group α} (h : ¬ Blank (Markup.unescape g.label)) :
    ShowsText (Markup.unescape g.label) (groupElement canvas settings g) := by
  have hnot : ¬ (Text.trim (Markup.unescape g.label).toList).isEmpty = true :=
    fun hempty => h (isEmpty_trim_iff.mp hempty)
  unfold groupElement
  simp only [if_neg hnot]
  exact ⟨_, rfl, Element.reading_span _ _ _⟩

theorem showsNoText_group {g : Model.Group α} (h : Blank (Markup.unescape g.label)) :
    ShowsNoText (groupElement canvas settings g) := by
  unfold groupElement
  simp only [if_pos (isEmpty_trim_iff.mpr h)]
  rfl

variable {canvas settings} {m : Model α} {edge : Model.Edge} {e : Element}
  (he : edgeElement? canvas settings m edge = some e)
include he

theorem showsText_edge (h : Markup.unescape edge.label ≠ "") :
    ShowsText (Markup.unescape edge.label) e := by
  obtain ⟨⟨s, t⟩, -, rfl⟩ := Option.map_eq_some_iff.mp he
  have hnot : ¬ (Markup.unescape edge.label).isEmpty = true := by
    simpa using h
  simp only [if_neg hnot]
  exact ⟨_, rfl, Element.reading_span _ _ _⟩

theorem showsNoText_edge (h : Markup.unescape edge.label = "") : ShowsNoText e := by
  obtain ⟨⟨s, t⟩, -, rfl⟩ := Option.map_eq_some_iff.mp he
  have hempty : (Markup.unescape edge.label).isEmpty = true := by
    simp [h]
  simp only [if_pos hempty]
  rfl

end

/-! ## Nodes -/

section

variable (canvas : Canvas α) (settings : RenderSettings α)

theorem figureElements_no_text (figure : Figure) (b : Bounds α) (style : Style) (cap : α) :
    (figureElements figure b style cap).filter (·.name? = some "text") = [] := by
  cases figure <;> rfl

theorem showsWords_node {n : Model.Node α} (h : ¬ Blank (Markup.unescape n.label)) :
    ShowsWords (Markup.unescape n.label) (nodeElement canvas settings n) := by
  obtain ⟨layout, hlayout, hwords⟩ := words_layout (canvas.place (nodeBox n))
    (s := LabelStyle.ofStyle n.style settings.fontFamily) h
  have htext : (nodeElement canvas settings n).inner "text" =
      [.span "text" (labelAttributes (LabelStyle.ofStyle n.style settings.fontFamily) layout)
        (labelSpans layout)] := by
    rw [nodeElement, Element.inner, Element.content, List.filter_append, figureElements_no_text]
    simp only [labelElements, hlayout]
    rfl
  refine ⟨_, htext, ?_, ?_⟩
  · refine List.filter_eq_self.mpr fun e he => ?_
    obtain ⟨entry, -, rfl⟩ := List.mem_map.mp he
    rfl
  · have hlines := congrArg (List.flatMap Text.words) (reading_labelSpans layout)
    rw [List.flatMap_map, List.flatMap_map, hwords] at hlines
    exact hlines

theorem showsNoText_node {n : Model.Node α}
    (h : Blank (Markup.unescape n.label)) : ShowsNoText (nodeElement canvas settings n) := by
  rw [ShowsNoText, nodeElement, Element.inner, Element.content, List.filter_append,
    figureElements_no_text]
  simp only [labelElements, layout?_eq_none _ h]
  rfl

end

/-! ## All drawings -/

/-- The drawing shows what it is meant to, or no text where that is to be hidden. -/
def ShowsUnless (hidden : Prop) (shows : Element → Prop) (e : Element) : Prop :=
  (hidden → ShowsNoText e) ∧ (¬ hidden → shows e)

def ShowsGroup (label : String) : Element → Prop := ShowsUnless (Blank label) (ShowsText label)

def ShowsNode (label : String) : Element → Prop := ShowsUnless (Blank label) (ShowsWords label)

def ShowsEdge (label : String) : Element → Prop := ShowsUnless (label = "") (ShowsText label)

/-- In the image of a model, everything that a description has shows its label. -/
def ShowsLabels (d : Description α) (m : Model α) (settings : RenderSettings α) : Prop :=
  ∃ groups nodes edges : List Element,
    Prints m settings (groups ++ nodes ++ edges) ∧
      List.Forall₂ (fun g e => ShowsGroup g.label e) d.groups groups ∧
      List.Forall₂ (fun n e => ShowsNode n.label e) d.nodes nodes ∧
      List.Forall₂ (fun edge e => ShowsEdge (edge.label.getD "") e)
        (d.keptEdges.filter fun edge => isDrawn m edge.source edge.target) edges

/-- The results of a partial function, one for each argument that has one. -/
theorem forall₂_filterMap {β γ : Type} {R : β → γ → Prop} {f : β → Option γ} {l : List β}
    (h : ∀ x ∈ l, ∀ y, f x = some y → R x y) :
    List.Forall₂ R (l.filter fun x => (f x).isSome) (l.filterMap f) := by
  induction l with
  | nil => exact .nil
  | cons x l ih =>
    obtain ⟨hx, hl⟩ := List.forall_mem_cons.mp h
    cases hfx : f x with
    | none =>
      rw [List.filter_cons_of_neg (by simp [hfx]), List.filterMap_cons_none hfx]
      exact ih hl
    | some y =>
      rw [List.filter_cons_of_pos (by simp [hfx]), List.filterMap_cons_some hfx]
      exact .cons (hx y hfx) (ih hl)

/-- Entries of two lists with the same labels show the same. -/
theorem forall₂_labels {β γ : Type} {shows : String → Element → Prop} {label : β → String}
    {label' : γ → String} {l : List β} {l' : List γ} {es : List Element}
    (hsame : l.map label = l'.map label')
    (h : List.Forall₂ (fun x e => shows (label x) e) l es) :
    List.Forall₂ (fun x e => shows (label' x) e) l' es := by
  have hlabels : List.Forall₂ shows (l.map label) es := List.forall₂_map_left_iff.mpr h
  rw [hsame] at hlabels
  exact List.forall₂_map_left_iff.mp hlabels

/-! ## The law of labels -/

section

variable {d : Description α} {tables : Tables α} {modelSettings : ModelSettings α} {m : Model α}
  (hm : m.withoutPlaces = (d.build tables modelSettings).1.withoutPlaces)
include hm

theorem groupLabels_congr :
    (m.groups.map fun g => Markup.unescape g.label) = d.groups.map (·.label) := by
  rw [Model.map_groups_congr hm fun _ => rfl, Description.groups_build, List.map_map]
  refine List.map_congr_left fun g _ => ?_
  simp only [Function.comp_apply, Build.buildGroup, Markup.unescape_escape]

theorem nodeLabels_congr :
    (m.nodes.map fun n => Markup.unescape n.label) = d.nodes.map (·.label) := by
  rw [Model.map_nodes_congr hm fun _ => rfl, Description.nodes_build, List.map_map,
    ← Build.map_zipIdx_fst (fun n : Description.Node α => n.label)]
  refine List.map_congr_left fun entry _ => ?_
  simp only [Function.comp_apply, Build.buildNode, Markup.unescape_escape]

theorem edgeLabels_congr (keep : String → String → Bool) :
    ((m.edges.filter fun e => keep e.source e.target).map fun e => Markup.unescape e.label) =
      (d.keptEdges.filter fun e => keep e.source e.target).map fun e => e.label.getD "" := by
  have hentries := List.zipIdx_map_fst (Model.firstCell + d.groups.length + d.nodes.length)
    d.keptEdges
  rw [Model.edges_congr hm, Description.edges_build, List.filter_map, List.map_map]
  conv_rhs => rw [← hentries, List.filter_map, List.map_map]
  refine List.map_congr_left fun entry _ => ?_
  simp only [Function.comp_apply, Build.edgeWith, Markup.unescape_escape]

/-- Whatever places are given to a model, its image shows every label of the description:
groups and edges show it as it is, nodes show its words, in order, on lines of their own. -/
theorem labels_survive_in_images (settings : RenderSettings α) : ShowsLabels d m settings := by
  let canvas := Canvas.ofModel m settings
  refine ⟨m.groups.map (groupElement canvas settings), m.nodes.map (nodeElement canvas settings),
    m.edges.filterMap (edgeElement? canvas settings m), prints_painted m settings, ?_, ?_, ?_⟩
  · refine forall₂_labels (groupLabels_congr hm) ?_
    rw [List.forall₂_map_right_iff, List.forall₂_same]
    intro g _
    exact .intro (showsNoText_group canvas settings) (showsText_group canvas settings)
  · refine forall₂_labels (nodeLabels_congr hm) ?_
    rw [List.forall₂_map_right_iff, List.forall₂_same]
    intro n _
    exact .intro (showsNoText_node canvas settings) (showsWords_node canvas settings)
  · refine forall₂_labels (edgeLabels_congr hm (isDrawn m)) ?_
    have hshows : ∀ edge ∈ m.edges, ∀ e, edgeElement? canvas settings m edge = some e →
        ShowsEdge (Markup.unescape edge.label) e := by
      intro edge _ e he
      exact .intro (showsNoText_edge he) (showsText_edge he)
    simpa only [isSome_edgeElement?] using forall₂_filterMap hshows

end

/-- Labels that look like markup, and one with a line break in it. -/
def quotedDescription : Description Grid where
  title := "quoted"
  theme := .professional
  layout := LayoutChoice.default
  nodes :=
    [⟨"a", "&amp;lt; comes out\nas it was written", "rounded=1;", some "g", none, none, none⟩,
      ⟨"b", " \n ", "rounded=1;", none, none, none, none⟩]
  edges := [⟨"a", "b", some "1 &#10; < 2", none, .orthogonal⟩]
  groups := [⟨"g", "R&D \"<1>\"", none, none⟩]

theorem labels_that_look_like_markup_survive :
    let m := (quotedDescription.build Tables.builtin ModelSettings.default).1
    let settings : LayoutSettings Grid := LayoutSettings.default
    ∃ m', m.layout quotedDescription.layout (NestedLayout.bundled settings) settings = .ok m' ∧
      m'.withoutPlaces = m.withoutPlaces ∧
      ShowsLabels quotedDescription m' RenderSettings.default := by
  intro m settings
  have hd : quotedDescription.problems = [] := by decide
  have htogether := Description.hangsTogether_of_accepted hd
  have hmethod : Layout.methodOf? quotedDescription.layout.algorithm = some .layered := rfl
  obtain ⟨m', hlayout, -⟩ := Layout.layout_ok
    (Model.nested_build htogether Tables.builtin ModelSettings.default)
    (Description.wellNumbered_build Tables.builtin ModelSettings.default htogether.groups_nodup)
    hmethod settings ⟨Methods.bundled, settings.emptyGroupSize, settings.forceIterations⟩
  have hm : m'.withoutPlaces = m.withoutPlaces := Model.withoutPlaces_layout hlayout
  exact ⟨m', hlayout, hm, labels_survive_in_images hm RenderSettings.default⟩

end Image

end DiagramPress
