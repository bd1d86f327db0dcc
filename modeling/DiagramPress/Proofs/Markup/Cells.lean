-- The reader gets every cell of a document back: one found cell for each cell
-- that was written, in order, with its attributes and its own text.
import DiagramPress.Markup.Document
import DiagramPress.Proofs.Markup.CellText
import DiagramPress.Proofs.Number.Written

namespace DiagramPress.Markup

/-! ## Numbers as texts -/

/-- A number is written in digits, so it needs no guard. -/
theorem guardChars_toString (n : Nat) : guardChars (toString n).toList = (toString n).toList := by
  apply guardChars_eq_self
  intro c hc
  rw [toList_toString] at hc
  exact reserved_of_digit (Nat.isDigit_of_mem_toDigits (by decide) (by decide) hc)

/-! ## The text of one cell -/

namespace Element

/-- The attributes of the element itself. -/
def attributes : Element → List Attribute
  | text _ => []
  | lone _ as => as
  | span _ as _ => as
  | block _ as _ => as

/-- The text of the element on its lines, without the indentation in front of it. -/
def body (depth : Nat) (e : Element) : List Char := (e.lines depth).drop (2 * depth)

/-- What the reader makes of an element whose lines start at a depth. -/
def found (depth : Nat) (e : Element) : FoundCell :=
  ⟨e.attributes.map Attribute.found, e.body depth⟩

end Element

/-- The pieces that a cell with a geometry inside is written in. -/
def afterStart (depth : Nat) (geometry : List Attribute) : List Char :=
  '\n' :: indent (depth + 1) ++ loneTag "mxGeometry" geometry ++ '\n' :: indent depth

theorem lines_cellElement (depth : Nat) (as gs : List Attribute) :
    (cellElement as gs).lines depth = indent depth ++ (startTag "mxCell" as ++
      (afterStart depth gs ++ endTag "mxCell")) := by
  simp [cellElement, Element.lines, Element.linesAll, Element.inline, afterStart]

theorem body_cellElement (depth : Nat) (as gs : List Attribute) :
    (cellElement as gs).body depth =
      startTag "mxCell" as ++ (afterStart depth gs ++ endTag "mxCell") := by
  simp [Element.body, lines_cellElement, indent]

theorem lines_lone (depth : Nat) (name : String) (as : List Attribute) :
    (Element.lone name as).lines depth = indent depth ++ loneTag name as := by
  simp [Element.lines, Element.inline]

theorem body_lone (depth : Nat) (name : String) (as : List Attribute) :
    (Element.lone name as).body depth = loneTag name as := by
  simp [Element.body, lines_lone, indent]

theorem bracket_not_mem_indent (depth : Nat) : '<' ∉ indent depth := by
  intro h
  exact absurd (List.eq_of_mem_replicate h) (by decide)

theorem content_afterStart {gs : List Attribute} (hg : ∀ a ∈ gs, isName a.name = true)
    (depth : Nat) : Content (afterStart depth gs) (some (gs.map Attribute.found)) := by
  have hbefore : '<' ∉ '\n' :: indent (depth + 1) := by simp [bracket_not_mem_indent]
  have hafter : '<' ∉ '\n' :: indent depth := by simp [bracket_not_mem_indent]
  have hcontent := Content.geometry hbefore (inside_attributes hg) hafter
  simpa [afterStart, loneTag, startOfTag] using hcontent

/-- A cell is written as a text that the reader takes for a cell. -/
theorem cellText_cellElement {as gs : List Attribute} (h : ∀ a ∈ as, isName a.name = true)
    (hg : ∀ a ∈ gs, isName a.name = true) (depth : Nat) :
    CellText ((cellElement as gs).body depth) (as.map Attribute.found)
      (some (gs.map Attribute.found)) := by
  rw [body_cellElement]
  exact .block (inside_attributes h) (content_afterStart hg depth)

/-- The geometry of a cell is found inside it. -/
theorem geometry?_found {as gs : List Attribute} (h : ∀ a ∈ as, isName a.name = true)
    (hg : ∀ a ∈ gs, isName a.name = true) (depth : Nat) :
    FoundCell.geometry? ((cellElement as gs).found depth) = some (gs.map Attribute.found) :=
  (cellText_cellElement h hg depth).geometry?_eq

/-! ## Lists of cells -/

/-- Elements that the reader takes for cells, and whose names it understands. -/
inductive ReadsAsCell : Element → Prop
  | lone {as : List Attribute} (h : ∀ a ∈ as, isName a.name = true) :
      ReadsAsCell (.lone "mxCell" as)
  | block {as gs : List Attribute} (hne : as ≠ []) (h : ∀ a ∈ as, isName a.name = true)
      (hg : ∀ a ∈ gs, isName a.name = true) : ReadsAsCell (cellElement as gs)

theorem ReadsAsCell.cellText {e : Element} (h : ReadsAsCell e) (depth : Nat) :
    e.lines depth = indent depth ++ e.body depth ∧
      ∃ geometry, CellText (e.body depth) (e.attributes.map Attribute.found) geometry := by
  cases h with
  | @lone as h =>
    rw [lines_lone, body_lone]
    exact ⟨rfl, none, .lone (inside_attributes h)⟩
  | @block as gs _ h hg =>
    rw [lines_cellElement, ← body_cellElement]
    exact ⟨rfl, _, cellText_cellElement h hg depth⟩

/-- A cell is found as itself, and then the scan is behind it. -/
theorem scan_cell {e : Element} (h : ReadsAsCell e) (depth : Nat) (rest : List Char) :
    (scan (tag "mxCell") (e.lines depth ++ rest)).map
        (fun (tag, text) => FoundCell.ofTag tag text) =
      e.found depth ::
        (scan (tag "mxCell") rest).map fun (tag, text) => FoundCell.ofTag tag text := by
  obtain ⟨hlines, geometry, htext⟩ := h.cellText depth
  rw [hlines, List.append_assoc, scan_tag_plain (bracket_not_mem_indent depth),
    htext.scan_tag_cell]
  rfl

theorem scan_cells {es : List Element} (h : ∀ e ∈ es, ReadsAsCell e) (depth : Nat)
    (rest : List Char) :
    (scan (tag "mxCell") (Element.linesAll depth es ++ rest)).map
        (fun (tag, text) => FoundCell.ofTag tag text) =
      es.map (Element.found depth) ++
        (scan (tag "mxCell") rest).map fun (tag, text) => FoundCell.ofTag tag text := by
  induction es with
  | nil => simp [Element.linesAll]
  | cons e es ih =>
    have hsplit : Element.linesAll depth (e :: es) ++ rest =
        e.lines depth ++ (['\n'] ++ (Element.linesAll depth es ++ rest)) := by
      simp [Element.linesAll]
    rw [hsplit, scan_cell (h e (by simp)), scan_tag_plain (by decide),
      ih fun e he => h e (by simp [he])]
    rfl

/-! ## The whole document -/

/-- The tags of a block around others are no cells. -/
theorem scan_block {name : String} {as : List Attribute} {content : List Element}
    (hname : isWord name = true) (hne : "mxCell" ≠ name) (h : ∀ a ∈ as, isName a.name = true)
    (depth : Nat) (rest : List Char) :
    scan (tag "mxCell") ((Element.block name as content).lines depth ++ rest) =
      scan (tag "mxCell") (Element.linesAll (depth + 1) content ++
        (indent depth ++ (endTag name ++ rest))) := by
  have hplain : '<' ∉ ['>', '\n'] := by decide
  have hsplit : (Element.block name as content).lines depth ++ rest = indent depth ++
      (startOfTag name as ++ (['>', '\n'] ++ (Element.linesAll (depth + 1) content ++
        (indent depth ++ (endTag name ++ rest))))) := by
    simp [Element.lines, startTag]
  have hstop : StopsName (['>', '\n'] ++ (Element.linesAll (depth + 1) content ++
      (indent depth ++ (endTag name ++ rest)))) := stopsName_cons (by decide) _
  rw [hsplit, scan_tag_plain (bracket_not_mem_indent depth),
    scan_tag_startOfTag isWord_cell hname hne h hstop, scan_tag_plain hplain]

theorem scan_endOfBlock {name : String} (hname : isWord name = true) (depth : Nat)
    (rest : List Char) : scan (tag "mxCell") (indent depth ++ (endTag name ++ rest)) =
      scan (tag "mxCell") rest := by
  rw [scan_tag_plain (bracket_not_mem_indent depth), scan_tag_endTag isWord_cell hname]

section Document

variable {α : Type} [Scalar α] [NumberText α]

theorem names_of {as : List Attribute} (names : List String)
    (hnames : as.map Attribute.name = names) (h : names.all isName = true) :
    ∀ a ∈ as, isName a.name = true := by
  intro a ha
  subst hnames
  exact List.all_eq_true.mp h a.name (List.mem_map_of_mem ha)

theorem names_vertex (id : Nat) (value style : String) (parent : Nat) :
    ∀ a ∈ vertexAttributes id value style parent, isName a.name = true :=
  names_of ["id", "value", "style", "vertex", "parent"] rfl (by decide)

theorem names_box (box : Bounds α) : ∀ a ∈ boxAttributes box, isName a.name = true :=
  names_of ["x", "y", "width", "height", "as"] rfl (by decide)

theorem names_edge (id : Nat) (value style : String) (source target : Nat) :
    ∀ a ∈ edgeAttributes id value style source target, isName a.name = true := by
  unfold edgeAttributes
  cases value.isEmpty
  · exact names_of ["id", "value", "style", "edge", "source", "target", "parent"] rfl
      (by decide)
  · exact names_of ["id", "style", "edge", "source", "target", "parent"] rfl (by decide)

theorem names_line :
    ∀ a ∈ [⟨"relative", "1"⟩, ⟨"as", "geometry"⟩], isName (Attribute.name a) = true :=
  names_of ["relative", "as"] rfl (by decide)

theorem names_file (modified : String) :
    ∀ a ∈ [⟨"host", host⟩, ⟨"modified", modified⟩, ⟨"type", "device"⟩],
      isName (Attribute.name a) = true :=
  names_of ["host", "modified", "type"] rfl (by decide)

theorem names_diagram (title : String) :
    ∀ a ∈ [⟨"name", title⟩, ⟨"id", "diagram-1"⟩], isName (Attribute.name a) = true :=
  names_of ["name", "id"] rfl (by decide)

theorem names_page (background : String) :
    ∀ a ∈ pageAttributes background, isName a.name = true :=
  names_of ["dx", "dy", "grid", "gridSize", "guides", "tooltips", "connect", "arrows",
    "fold", "page", "pageScale", "pageWidth", "pageHeight", "math", "shadow", "background"] rfl
    (by decide)

theorem readsAsCell_element (c : Cell α) : ReadsAsCell c.element := by
  cases c with
  | vertex id value style parent box =>
    exact .block (by simp [vertexAttributes]) (names_vertex id value style parent) (names_box box)
  | edge id value style source target =>
    exact .block (by simp [edgeAttributes]) (names_edge id value style source target) names_line

theorem readsAsCell_foundation : ∀ e ∈ foundation, ReadsAsCell e := by
  intro e he
  simp only [foundation, List.mem_cons, List.not_mem_nil, or_false] at he
  rcases he with rfl | rfl
  · exact .lone (names_of ["id"] rfl (by decide))
  · exact .lone (names_of ["id", "parent"] rfl (by decide))

/-- The elements of all cells of a model's document. -/
def cellElements (m : Model α) : List Element := foundation ++ (cellsOf m).map Cell.element

theorem readsAsCell_of_mem {m : Model α} : ∀ e ∈ cellElements m, ReadsAsCell e := by
  intro e he
  rcases List.mem_append.mp he with he | he
  · exact readsAsCell_foundation e he
  · obtain ⟨c, -, rfl⟩ := List.mem_map.mp he
    exact readsAsCell_element c

/-- How deep the cells stand in a document. -/
def cellDepth : Nat := 4

theorem linesAll_singleton (depth : Nat) (e : Element) (rest : List Char) :
    Element.linesAll depth [e] ++ rest = e.lines depth ++ ('\n' :: rest) := by
  simp [Element.linesAll]

theorem scan_newline (rest : List Char) :
    scan (tag "mxCell") ('\n' :: rest) = scan (tag "mxCell") rest :=
  scan_tag_plain (by decide : '<' ∉ ['\n']) rest

/-- The reader finds the cells of a document one by one, each with its own
attributes and its own text. -/
theorem cells_encode (m : Model α) (modified : String) :
    cells (encode m modified).toList = (cellElements m).map (Element.found cellDepth) := by
  have hdoc : (encode m modified).toList = (document m modified).lines 0 ++ [] := by
    simp [encode]
  rw [cells, hdoc, document, scan_block (by decide) (by decide) (names_file modified),
    linesAll_singleton, scan_block (by decide) (by decide) (names_diagram m.title),
    linesAll_singleton,
    scan_block (by decide) (by decide) (names_page m.background), linesAll_singleton,
    scan_block (by decide) (by decide) (by simp)]
  have hcells := scan_cells (readsAsCell_of_mem (m := m)) cellDepth
  rw [show 0 + 1 + 1 + 1 + 1 = cellDepth from rfl, ← cellElements, hcells,
    scan_endOfBlock (by decide), scan_newline, scan_endOfBlock (by decide), scan_newline,
    scan_endOfBlock (by decide), scan_newline, scan_endOfBlock (by decide)]
  simp [scan, scanAfter]

end Document

end DiagramPress.Markup
