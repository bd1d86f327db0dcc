-- The styles of a model: whether they read back from their texts depends on the colors
-- and the fonts that the description gives, and on nothing else.
import DiagramPress.Description.Check
import DiagramPress.Proofs.Description.Accepted
import DiagramPress.Proofs.Markup.References
import DiagramPress.Proofs.Model.Numbering
import DiagramPress.Proofs.Number.Grid
import DiagramPress.Proofs.Number.Written
import DiagramPress.Proofs.Style.Layers

namespace DiagramPress

namespace Style

/-! ## Reading a style back -/

/-- Reading the text of the style gives the style. -/
def ReadsBack (s : Style) : Prop := parse s.text = s

instance (s : Style) : Decidable s.ReadsBack := inferInstanceAs (Decidable (_ = _))

/-- The same for its text as an attribute, which is guarded when it is written and
whose references are read. -/
def ReadsBackFromAttribute (s : Style) : Prop :=
  parse (Markup.unescape (Markup.guard s.text)) = s

/-- As an attribute a style text must hold no reference: where one is read, so much is
lost that no reading gives it back. -/
theorem readsBackFromAttribute_iff {s : Style} :
    s.ReadsBackFromAttribute ↔ s.ReadsBack ∧ ¬ Markup.HoldsReference s.text.toList := by
  rw [ReadsBackFromAttribute, Markup.unescape_guard, ReadsBack]
  constructor
  · intro h
    refine ⟨parse_text_iff.mpr (h ▸ readable_parse _), fun href => ?_⟩
    -- A reference costs two characters, and the reader makes up for one semicolon at most.
    have hlength := length_text_parse_le (Markup.unescape s.text)
    have hshorter := Markup.length_unescapeChars_of_holdsReference href
    rw [h, Markup.unescape, String.toList_ofList] at hlength
    omega
  · rintro ⟨h, hplain⟩
    rw [Markup.unescape, Markup.unescapeChars_eq_self_iff.mpr hplain, String.ofList_toList, h]

/-! ## Clean texts -/

theorem clean_of_numeric {text : String} (h : ∀ c ∈ text.toList, isNumeric c = true) :
    Clean text := by
  refine ⟨fun hm => absurd (h ';' hm) (by decide), Text.trimmed_of_no_blanks fun c hc => ?_⟩
  exact isBlank_of_isNumeric (h c hc)

theorem clean_brief {α : Type} [NumberText α] [PlainNumbers α] (x : α) :
    Clean (NumberText.brief x) := clean_of_numeric (PlainNumbers.isNumeric_brief x)

theorem clean_switchText (value : Bool) : Clean (switchText value) := by
  cases value <;> decide

/-- The text is clean if there is one. -/
def CleanIfGiven (value : Option String) : Prop := ∀ t ∈ value, Clean t

instance (value : Option String) : Decidable (CleanIfGiven value) :=
  inferInstanceAs (Decidable (∀ t ∈ value, Clean t))

theorem cleanIfGiven_some {text : String} : CleanIfGiven (some text) ↔ Clean text := by
  simp [CleanIfGiven]

theorem cleanIfGiven_map {β : Type} {write : β → String} (h : ∀ x, Clean (write x))
    (wish : Option β) : CleanIfGiven (wish.map write) := by
  intro t ht
  obtain ⟨x, -, rfl⟩ := Option.map_eq_some_iff.mp ht
  exact h x

/-- A wish that is not there leaves the clean text of the theme. -/
theorem clean_getD_iff {wish : Option String} {text : String} (h : Clean text) :
    Clean (wish.getD text) ↔ CleanIfGiven wish := by
  cases wish with
  | none => simpa [CleanIfGiven] using h
  | some t => simp [CleanIfGiven]

/-! ## Clean layers -/

section

variable {base : Style} {layer : List (String × Option String)}

theorem Readable.setIf {s : Style} (hs : s.Readable) {key : String} (hkey : IsKey key)
    {value : Option String} (hvalue : CleanIfGiven value) : (s.setIf key value).Readable := by
  cases value with
  | none => exact hs
  | some t => exact hs.set key hkey (hvalue t rfl)

theorem Readable.overlay (hbase : base.Readable) (hnames : ∀ key ∈ layer.map Prod.fst, IsKey key)
    (h : ∀ setting ∈ layer, CleanIfGiven setting.2) : (base.overlay layer).Readable := by
  induction layer generalizing base with
  | nil => exact hbase
  | cons setting layer ih =>
    obtain ⟨hname, hnames⟩ := List.forall_mem_cons.mp hnames
    obtain ⟨hvalue, hvalues⟩ := List.forall_mem_cons.mp h
    rw [overlay_cons]
    exact ih (hbase.setIf hname hvalue) hnames hvalues

/-- A layer of keys spoils nothing exactly if all that it writes is clean. -/
theorem readable_overlay_iff (hbase : base.Readable) (hkeys : (layer.map Prod.fst).Nodup)
    (hnames : ∀ key ∈ layer.map Prod.fst, IsKey key) :
    (base.overlay layer).Readable ↔ ∀ setting ∈ layer, CleanIfGiven setting.2 := by
  constructor
  · rintro h ⟨key, value⟩ hsetting t rfl
    exact h.clean_of_get? (takes_overlay hkeys hsetting).2
  · exact hbase.overlay hnames

end

end Style

open Style (Clean)

/-! ## Texts that a description gives -/

namespace StyleOverride

variable {α : Type} (wish : StyleOverride α)

/-- The texts that go into the style of a node as they are. -/
def nodeTexts : List String :=
  [wish.fillColor, wish.strokeColor, wish.fontColor, wish.fontFamily].flatMap Option.toList

def edgeTexts : List String := [wish.strokeColor, wish.fontColor].flatMap Option.toList

def groupTexts : List String :=
  [wish.fillColor, wish.strokeColor, wish.fontColor].flatMap Option.toList

end StyleOverride

/-! ## Texts of the themes -/

section

variable {α : Type}

structure NodePaint.IsClean (paint : NodePaint α) : Prop where
  fillColor : Clean paint.fillColor
  strokeColor : Clean paint.strokeColor
  fontColor : Clean paint.fontColor
  fontFamily : Clean paint.fontFamily

structure EdgePaint.IsClean (paint : EdgePaint α) : Prop where
  strokeColor : Clean paint.strokeColor
  fontColor : Clean paint.fontColor

structure GroupPaint.IsClean (paint : GroupPaint α) : Prop where
  fillColor : Clean paint.fillColor
  strokeColor : Clean paint.strokeColor
  fontColor : Clean paint.fontColor

structure Theme.IsClean (theme : Theme α) : Prop where
  node : theme.node.IsClean
  edge : theme.edge.IsClean
  group : theme.group.IsClean

theorem Theme.isClean_builtin [Scalar α] (name : ThemeName) :
    (ThemeSet.builtin.get name : Theme α).IsClean := by
  have hget : (ThemeSet.builtin.get name : Theme α) = Theme.builtin name := by cases name <;> rfl
  rw [hget]
  cases name <;> refine ⟨⟨?_, ?_, ?_, ?_⟩, ⟨?_, ?_⟩, ⟨?_, ?_, ?_⟩⟩ <;>
    dsimp only [builtin, professional, colorful, monochrome, blueprint, pastel] <;> decide

/-! ## Styles of nodes, edges and groups -/

namespace Build

open Style (CleanIfGiven cleanIfGiven_some cleanIfGiven_map clean_getD_iff clean_brief
  clean_switchText)

theorem readable_baseStyle (node : Description.Node α) (shapes : ShapeCatalog) :
    (baseStyle node shapes).1.Readable := by
  unfold baseStyle
  split
  · exact Style.readable_parse _
  · split <;> exact Style.readable_parse _

variable [NumberText α] [PlainNumbers α] (wish : StyleOverride α)

/-- The colors and the font of a node stay in its style as they are given. -/
theorem readable_nodeStyle_iff {base : Style} (hbase : base.Readable) {paint : NodePaint α}
    (hpaint : paint.IsClean) :
    (nodeStyle base paint wish).Readable ↔ ∀ t ∈ wish.nodeTexts, Clean t := by
  have hnames : ∀ key ∈ (nodeLayer paint wish).map Prod.fst, Style.IsKey key :=
    (by decide : ∀ key ∈ nodeKeys, Style.IsKey key)
  rw [nodeStyle_eq, Style.readable_overlay_iff hbase (nodup_keys_nodeLayer wish paint) hnames]
  simp only [nodeLayer, List.forall_mem_cons, cleanIfGiven_some, clean_getD_iff hpaint.fillColor,
    clean_getD_iff hpaint.strokeColor, clean_getD_iff hpaint.fontColor,
    clean_getD_iff hpaint.fontFamily, clean_brief, cleanIfGiven_map clean_switchText,
    cleanIfGiven_map clean_brief]
  simp [StyleOverride.nodeTexts, CleanIfGiven, or_imp, forall_and]

theorem readable_edgeStyle_iff (routing : Routing) {paint : EdgePaint α} (hpaint : paint.IsClean) :
    (edgeStyle routing paint wish).Readable ↔ ∀ t ∈ wish.edgeTexts, Clean t := by
  have hnames : ∀ key ∈ (edgeLayer routing paint wish).map Prod.fst, Style.IsKey key :=
    (by decide : ∀ key ∈ edgeKeys, Style.IsKey key)
  rw [edgeStyle_eq, Style.readable_overlay_iff Style.readable_empty
    (nodup_keys_edgeLayer wish routing paint) hnames]
  have hshape : CleanIfGiven (if routing = .orthogonal then some "orthogonalEdgeStyle" else none) ∧
      CleanIfGiven (if routing = .orthogonal then some "1" else none) := by
    cases routing <;> decide
  have hone : Clean "1" := by decide
  simp only [edgeLayer, List.forall_mem_cons, cleanIfGiven_some, hshape, hone,
    clean_getD_iff hpaint.strokeColor, clean_getD_iff hpaint.fontColor, clean_brief,
    cleanIfGiven_map clean_switchText]
  simp [StyleOverride.edgeTexts, CleanIfGiven, or_imp, forall_and]

theorem readable_groupStyle_iff {paint : GroupPaint α} (hpaint : paint.IsClean) :
    (groupStyle paint wish).Readable ↔ ∀ t ∈ wish.groupTexts, Clean t := by
  have hnames : ∀ key ∈ (groupLayer paint wish).map Prod.fst, Style.IsKey key :=
    (by decide : ∀ key ∈ groupKeys, Style.IsKey key)
  have hbase : groupBase.Readable := Style.readable_parse _
  rw [groupStyle_eq, Style.readable_overlay_iff hbase (nodup_keys_groupLayer wish paint) hnames]
  have htop : Clean "top" := by decide
  have hone : Clean "1" := by decide
  simp only [groupLayer, List.forall_mem_cons, cleanIfGiven_some, htop, hone,
    clean_getD_iff hpaint.fillColor, clean_getD_iff hpaint.strokeColor,
    clean_getD_iff hpaint.fontColor, clean_brief, clean_switchText, cleanIfGiven_map clean_brief]
  simp [StyleOverride.groupTexts, CleanIfGiven, or_imp, forall_and]

end Build

end

/-! ## Styles of accepted descriptions -/

/-- Nothing but these texts can keep the style from being read back, and in an attribute
nothing but them and references. -/
def Style.ReadsBackUpTo (texts : List String) (s : Style) : Prop :=
  (s.ReadsBack ↔ ∀ t ∈ texts, Clean t) ∧
    (s.ReadsBackFromAttribute ↔
      (∀ t ∈ texts, Clean t) ∧ ¬ Markup.HoldsReference s.text.toList)

theorem Style.readsBackUpTo {texts : List String} {s : Style}
    (h : s.Readable ↔ ∀ t ∈ texts, Clean t) : s.ReadsBackUpTo texts := by
  have hback : s.ReadsBack ↔ ∀ t ∈ texts, Clean t := parse_text_iff.trans h
  exact ⟨hback, by rw [readsBackFromAttribute_iff, hback]⟩

/-- The style of everything in an accepted description reads back from its text exactly
if the colors and the font given for it have no semicolon and no blanks at their ends. -/
theorem styles_read_back_up_to_given_texts {α : Type} [Scalar α] [NumberText α] [PlainNumbers α]
    {d : Description α} (hd : d.problems = []) (settings : ModelSettings α) :
    let m := (d.build Tables.builtin settings).1
    List.Forall₂ (fun entry g => g.style.ReadsBackUpTo (entry.style.getD .blank).groupTexts)
        d.groups m.groups ∧
      List.Forall₂ (fun entry n => n.style.ReadsBackUpTo (entry.style.getD .blank).nodeTexts)
        d.nodes m.nodes ∧
      List.Forall₂ (fun entry e => e.style.ReadsBackUpTo (entry.style.getD .blank).edgeTexts)
        d.edges m.edges := by
  intro m
  have htheme : ((Tables.builtin : Tables α).themes.get d.theme).IsClean :=
    Theme.isClean_builtin d.theme
  have hedges : m.edges = _ := Description.edges_build d Tables.builtin settings
  rw [(Description.hangsTogether_of_accepted hd).keptEdges_eq] at hedges
  refine ⟨?_, ?_, ?_⟩
  · rw [Description.groups_build, List.forall₂_map_right_iff, List.forall₂_same]
    exact fun g _ => Style.readsBackUpTo (Build.readable_groupStyle_iff _ htheme.group)
  · rw [Description.nodes_build]
    exact Build.forall₂_zipIdx _ _ fun n i => Style.readsBackUpTo
      (Build.readable_nodeStyle_iff _ (Build.readable_baseStyle n _) htheme.node)
  · rw [hedges]
    exact Build.forall₂_zipIdx _ _ fun e i => Style.readsBackUpTo
      (Build.readable_edgeStyle_iff _ e.routing htheme.edge)

section Grid

instance : PlainNumbers Grid where
  isNumeric_brief x := by
    have hdigits (n : Nat) : ∀ c ∈ n.repr.toList, isNumeric c = true := by
      intro c hc
      rw [Nat.toList_repr] at hc
      exact isNumeric_of_isDigit (Nat.isDigit_of_mem_toDigits (by decide) (by decide) hc)
    cases x with
    | ofNat n => exact hdigits n
    | negSucc n =>
      have hminus : (Grid.text (Int.negSucc n)).toList = '-' :: (n + 1).repr.toList :=
        String.toList_append
      change ∀ c ∈ (Grid.text (Int.negSucc n)).toList, isNumeric c = true
      rw [hminus]
      intro c hc
      rcases List.mem_cons.mp hc with rfl | hc
      · decide
      · exact hdigits (n + 1) c hc

/-- Two nodes with an edge whose color is given as this text. -/
def colored (color : String) : Description Grid where
  title := "colored"
  theme := .professional
  layout := LayoutChoice.default
  nodes := [⟨"a", "A", "rounded=1;", none, none, none, none⟩,
    ⟨"b", "B", "rounded=1;", none, none, none, none⟩]
  edges :=
    [⟨"a", "b", none, some { StyleOverride.blank with strokeColor := some color }, .straight⟩]
  groups := []

theorem a_plain_color_is_read_back :
    let built := ((colored "dark red").build Tables.builtin ModelSettings.default).1
    (colored "dark red").problems = [] ∧ ∀ e ∈ built.edges, e.style.ReadsBack := by
  intro built
  have hd : (colored "dark red").problems = [] := by decide
  obtain ⟨-, -, hedges⟩ := styles_read_back_up_to_given_texts hd ModelSettings.default
  obtain ⟨e, rest, he, hrest, hbuilt⟩ := List.forall₂_cons_left_iff.mp hedges
  rw [List.forall₂_nil_left_iff.mp hrest] at hbuilt
  have hone : built.edges = [e] := hbuilt
  refine ⟨hd, fun e' he' => ?_⟩
  rw [hone, List.mem_singleton] at he'
  rw [he']
  exact he.1.mpr (by decide)

/-- The description is accepted, and what is read from the text of its edge has dashes
that the edge itself does not have. -/
theorem a_color_with_a_semicolon_adds_dashes :
    let built := ((colored "red;dashed=1").build Tables.builtin ModelSettings.default).1
    (colored "red;dashed=1").problems = [] ∧
      ∀ e ∈ built.edges, ¬ e.style.ReadsBack ∧ e.style.isEnabled "dashed" = false ∧
        (Style.parse e.style.text).isEnabled "dashed" = true := by
  intro built
  exact ⟨by decide, by decide +kernel⟩

end Grid

end DiagramPress
