-- The check finds no fault in the document of a well numbered model, and no
-- bare ampersand in any document: no text can look like markup.
import DiagramPress.Markup.Check
import DiagramPress.Proofs.Markup.ReadBack
import Mathlib.Data.List.Nodup

namespace DiagramPress.Markup

/-! ## All attributes of a document -/

namespace Element

mutual

/-- Every tag stands on a line of its own, and the reader understands all names. -/
def isTagged : Element → Bool
  | lone name as => isWord name && as.all fun a => isName a.name
  | block name as content => isWord name && (as.all fun a => isName a.name) && allTagged content
  | _ => false

def allTagged : List Element → Bool
  | [] => true
  | e :: rest => e.isTagged && allTagged rest

end

mutual

/-- The attributes of the element and of everything inside it, in order. -/
def allAttributes : Element → List Attribute
  | text _ => []
  | lone _ as => as
  | span _ as content => as ++ attributesOf content
  | block _ as content => as ++ attributesOf content

def attributesOf : List Element → List Attribute
  | [] => []
  | e :: rest => e.allAttributes ++ attributesOf rest

end

theorem allTagged_iff {es : List Element} : allTagged es = true ↔ ∀ e ∈ es, e.isTagged = true := by
  induction es with
  | nil => simp [allTagged]
  | cons e es ih => simp [allTagged, ih]

end Element

/-! ## Scanning a document for attributes -/

theorem scan_namedValue_indent (depth : Nat) (rest : List Char) :
    scan namedValue (indent depth ++ rest) = scan namedValue rest := by
  unfold indent
  induction 2 * depth with
  | zero => rfl
  | succ n ih =>
    rw [List.replicate_succ, List.cons_append, scan_namedValue_cons (by decide), ih]

theorem scan_namedValue_endTag {name : String} (hname : isWord name = true) {rest : List Char}
    (hrest : StopsName rest) :
    scan namedValue (endTag name ++ rest) = scan namedValue rest := by
  refine scan_namedValue_plain ?_ hrest
  simpa [endTag] using quote_not_mem_word hname

mutual

/-- A scan of the lines of an element finds its attributes and nothing else. -/
theorem scan_lines (depth : Nat) {rest : List Char} (hrest : StopsName rest) :
    ∀ e : Element, e.isTagged = true →
      scan namedValue (e.lines depth ++ rest) =
        e.allAttributes.map Attribute.found ++ scan namedValue rest
  | .text _, h => by simp [Element.isTagged] at h
  | .span _ _ _, h => by simp [Element.isTagged] at h
  | .lone name as, h => by
    simp only [Element.isTagged, Bool.and_eq_true, List.all_eq_true] at h
    have hsplit : (Element.lone name as).lines depth ++ rest =
        indent depth ++ (startOfTag name as ++ ('/' :: '>' :: rest)) := by
      simp [lines_lone, loneTag]
    rw [hsplit, scan_namedValue_indent,
      scan_namedValue_startOfTag h.1 h.2 (stopsName_cons (by decide) _),
      scan_namedValue_cons (by decide), scan_namedValue_cons (by decide), Element.allAttributes]
  | .block name as content, h => by
    simp only [Element.isTagged, Bool.and_eq_true, List.all_eq_true] at h
    obtain ⟨⟨hname, has⟩, hcontent⟩ := h
    have hsplit : (Element.block name as content).lines depth ++ rest =
        indent depth ++ (startOfTag name as ++ ('>' :: '\n' ::
          (Element.linesAll (depth + 1) content ++ (indent depth ++ (endTag name ++ rest))))) := by
      simp [Element.lines, startTag]
    rw [hsplit, scan_namedValue_indent,
      scan_namedValue_startOfTag hname has (stopsName_cons (by decide) _),
      scan_namedValue_cons (by decide), scan_namedValue_cons (by decide),
      scan_linesAll (depth + 1) content hcontent, scan_namedValue_indent,
      scan_namedValue_endTag hname hrest, Element.allAttributes, List.map_append,
      List.append_assoc]

theorem scan_linesAll (depth : Nat) {rest : List Char} :
    ∀ es : List Element, Element.allTagged es = true →
      scan namedValue (Element.linesAll depth es ++ rest) =
        (Element.attributesOf es).map Attribute.found ++ scan namedValue rest
  | [], _ => by simp [Element.linesAll, Element.attributesOf]
  | e :: es, h => by
    simp only [Element.allTagged, Bool.and_eq_true] at h
    have hsplit : Element.linesAll depth (e :: es) ++ rest =
        e.lines depth ++ ('\n' :: (Element.linesAll depth es ++ rest)) := by
      simp [Element.linesAll]
    rw [hsplit, scan_lines depth (stopsName_cons (by decide) _) e h.1,
      scan_namedValue_cons (by decide), scan_linesAll depth es h.2, Element.attributesOf,
      List.map_append, List.append_assoc]

end

/-! ## Distinct ids -/

theorem repeatedIds_eq_nil {seen ids : List (List Char)} (h : ids.Nodup)
    (hseen : ∀ id ∈ ids, id ∉ seen) : repeatedIds seen ids = [] := by
  induction ids generalizing seen with
  | nil => rfl
  | cons id rest ih =>
    obtain ⟨hid, hrest, hseen⟩ := Description.unseen_of_nodup h hseen
    have hnot : ¬ seen.contains id = true := by simpa using hid
    rw [repeatedIds, if_neg hnot]
    exact ih hrest hseen

theorem nodup_ids {α : Type} {m : Model α} (h : m.WellNumbered) :
    ((Model.rootCell :: Model.layerCell :: m.cells).map fun c => (toString c).toList).Nodup := by
  refine List.Nodup.map (fun a b => toString_toList_inj) ?_
  have hfirst : ∀ c ∈ m.cells, 2 ≤ c := h.fresh
  have hroot : Model.rootCell ∉ Model.layerCell :: m.cells := by
    rintro (_ | ⟨_, hm⟩)
    exact absurd (hfirst _ hm) (by decide)
  have hlayer : Model.layerCell ∉ m.cells := fun hm => absurd (hfirst _ hm) (by decide)
  exact List.nodup_cons.mpr ⟨hroot, List.nodup_cons.mpr ⟨hlayer, h.nodup⟩⟩

/-- An edge of the document is an edge of the model. -/
theorem ends_of_edge_mem {α : Type} [Scalar α] {m : Model α} (h : m.WellNumbered) {id : Nat}
    {value style : String} {source target : Nat} (hmem : Cell.edge id value style source target ∈ cellsOf m) :
    source ∈ m.entityCells ∧ target ∈ m.entityCells := by
  rcases List.mem_append.mp hmem with hmem | hmem
  · rcases List.mem_append.mp hmem with hmem | hmem
    · obtain ⟨g, -, hg⟩ := List.mem_map.mp hmem
      cases hg
    · obtain ⟨n, -, hn⟩ := List.mem_map.mp hmem
      cases hn
  · obtain ⟨e, he, hcell⟩ := List.mem_map.mp hmem
    cases hcell
    exact ⟨h.source e he, h.target e he⟩

section Document

variable {α : Type} [Scalar α] [NumberText α]

/-! ## The attributes of a document -/

theorem isTagged_cell (c : Cell α) : c.element.isTagged = true := by
  cases c with
  | vertex id value style parent box =>
    have hbox := names_box box
    have hvertex := names_vertex id value style parent
    simp only [Cell.element, cellElement, Element.isTagged, Element.allTagged, isWord_cell,
      isWord_geometry, List.all_eq_true.mpr hvertex, List.all_eq_true.mpr hbox, Bool.and_self]
  | edge id value style source target =>
    have hline := names_line
    have hedge := names_edge id value style source target
    simp only [Cell.element, cellElement, Element.isTagged, Element.allTagged, isWord_cell,
      isWord_geometry, List.all_eq_true.mpr hedge, List.all_eq_true.mpr hline, Bool.and_self]

theorem isTagged_document (m : Model α) (modified : String) :
    (document m modified).isTagged = true := by
  have hfoundation : ∀ e ∈ foundation, e.isTagged = true := by decide
  have hcells : Element.allTagged (foundation ++ (cellsOf m).map Cell.element) = true := by
    refine Element.allTagged_iff.mpr fun e he => ?_
    rcases List.mem_append.mp he with he | he
    · exact hfoundation e he
    · obtain ⟨c, -, rfl⟩ := List.mem_map.mp he
      exact isTagged_cell c
  have hword : isWord "mxfile" = true ∧ isWord "diagram" = true ∧ isWord "mxGraphModel" = true ∧
      isWord "root" = true := by decide
  simp only [document, Element.isTagged, Element.allTagged, hword, hcells,
    List.all_eq_true.mpr (names_file modified), List.all_eq_true.mpr (names_diagram m.title),
    List.all_eq_true.mpr (names_page m.background), List.all_nil, Bool.and_self]

/-- The values that a scan finds in a document are those that were written. -/
theorem scan_encode (m : Model α) (modified : String) :
    scan namedValue (encode m modified).toList =
      (document m modified).allAttributes.map Attribute.found := by
  have hnil : StopsName [] := fun c hc => absurd hc (by simp)
  have h := scan_lines 0 hnil (document m modified) (isTagged_document m modified)
  simpa [encode, scan, scanAfter] using h

/-- No value in a document has an ampersand that starts no reference. -/
theorem no_bare_ampersand (m : Model α) (modified : String) (preview : String) :
    Doubt.bareAmpersand preview ∉ (check (encode m modified)).warnings := by
  simp only [check, doubts, scan_encode, List.mem_append, List.mem_flatMap, List.mem_map,
    List.mem_filter, not_or]
  constructor
  · rintro ⟨style, -, hdoubt⟩
    simp only [styleDoubts, List.mem_append, List.mem_map, List.mem_filter] at hdoubt
    rcases hdoubt with ⟨_, -, h⟩ | h
    · cases h
    · split at h <;> simp at h
  · rintro ⟨entry, ⟨⟨a, -, rfl⟩, hbare⟩, -⟩
    rw [Attribute.found, hasBareAmpersandChars_guardChars] at hbare
    cases hbare

/-! ## The ids of the cells -/

theorem id_found (c : Cell α) :
    (c.element.found cellDepth).get? "id" = some (toString c.id).toList := by
  cases c with
  | vertex id value style parent box => exact (saysVertex_found id value style parent box).id
  | edge id value style source target => exact (saysEdge_found id value style source target).id

/-- The ids in a document are the cells of the foundation and those of the model. -/
theorem ids_encode (m : Model α) (modified : String) :
    (cells (encode m modified).toList).filterMap (·.get? "id") =
      (Model.rootCell :: Model.layerCell :: m.cells).map fun c => (toString c).toList := by
  have hfoundation : (foundation.map (Element.found cellDepth)).filterMap (·.get? "id") =
      [Model.rootCell, Model.layerCell].map fun c => (toString c).toList := by decide
  have hcells : ((cellsOf m).map fun c => c.element.found cellDepth).filterMap (·.get? "id") =
      m.cells.map fun c => (toString c).toList := by
    rw [List.filterMap_map, ← ids_cellsOf, List.map_map, ← List.filterMap_eq_map]
    exact List.filterMap_congr fun c _ => id_found c
  rw [cells_encode, cellElements, List.map_append, List.filterMap_append, hfoundation,
    List.map_map]
  exact congrArg (_ ++ ·) hcells

/-! ## Faults of single cells -/

theorem geometry?_vertex (id : Nat) (value style : String) (parent : Nat) (box : Bounds α) :
    FoundCell.geometry? ((Cell.vertex id value style parent box).element.found cellDepth) =
      some ((boxAttributes box).map Attribute.found) :=
  geometry?_found (names_vertex id value style parent) (names_box box) cellDepth

theorem geometry?_edge (id : Nat) (value style : String) (source target : Nat) :
    FoundCell.geometry?
        ((Cell.edge id value style source target : Cell α).element.found cellDepth) =
      some ([⟨"relative", "1"⟩, ⟨"as", "geometry"⟩].map Attribute.found) :=
  geometry?_found (names_edge id value style source target) names_line cellDepth

/-- A vertex has a geometry that is marked as one. -/
theorem vertexFaults_found (c : Cell α) : vertexFaults (c.element.found cellDepth) = [] := by
  cases c with
  | vertex id value style parent box =>
    have hvalue : valueOf? (boxAttributes box) "as" = some "geometry" := by
      simp [valueOf?, boxAttributes]
    have hplain : guardChars "geometry".toList = "geometry".toList := by decide
    have hmark : Attributes.get? ((boxAttributes box).map Attribute.found) "as" =
        some "geometry".toList := by
      rw [get?_map_found, hvalue, Option.map_some, hplain]
    simp only [vertexFaults, geometry?_vertex, hmark, beq_self_eq_true, if_true, ite_self]
  | edge id value style source target =>
    have hsays : SaysEdge
        ((Cell.edge id value style source target : Cell α).element.found cellDepth)
        id value style source target := saysEdge_found _ _ _ _ _
    simp [vertexFaults, FoundCell.has, hsays.no_vertex]

/-- An edge has a relative geometry and ends at cells that are there. -/
theorem edgeFaults_found {ids : List (List Char)} {c : Cell α}
    (h : ∀ id value style source target, c = .edge id value style source target →
      (toString source).toList ∈ ids ∧ (toString target).toList ∈ ids) :
    edgeFaults ids (c.element.found cellDepth) = [] := by
  cases c with
  | vertex id value style parent box =>
    have hnone := (saysVertex_found id value style parent box).no_edge
    simp [edgeFaults, FoundCell.has, hnone]
  | edge id value style source target =>
    obtain ⟨hsource, htarget⟩ := h _ _ _ _ _ rfl
    have hsays : SaysEdge
        ((Cell.edge id value style source target : Cell α).element.found cellDepth)
        id value style source target := saysEdge_found _ _ _ _ _
    have hrelative : Attributes.get?
        ([⟨"relative", "1"⟩, ⟨"as", "geometry"⟩].map Attribute.found) "relative" = some ['1'] := by
      decide
    have hends (role : End) : endFaults ids
        ((Cell.edge id value style source target : Cell α).element.found cellDepth) role = [] := by
      cases role with
      | source =>
        simp only [endFaults, End.name, hsays.source, List.contains_iff_mem, hsource, if_true]
      | target =>
        simp only [endFaults, End.name, hsays.target, List.contains_iff_mem, htarget, if_true]
    have hall : End.all.flatMap (endFaults ids
        ((Cell.edge id value style source target : Cell α).element.found cellDepth)) = [] :=
      List.flatMap_eq_nil_iff.mpr fun role _ => hends role
    simp only [edgeFaults, hall, geometry?_edge, Option.bind_some, hrelative, beq_self_eq_true,
      if_true, List.append_nil, ite_self]

/-! ## Faults of the document -/

theorem occurs_append (word rest : List Char) : occurs word (word ++ rest) = true := by
  cases h : word ++ rest with
  | nil => simp [occurs, (List.append_eq_nil_iff.mp h).1]
  | cons c more => simp [occurs, ← h, List.isPrefixOf_iff_prefix]

theorem occurs_of_append {word rest : List Char} (pre : List Char) (h : occurs word rest = true) :
    occurs word (pre ++ rest) = true := by
  induction pre with
  | nil => exact h
  | cons c pre ih => simp [occurs, ih]

/-- Every document starts with its wrapper. -/
theorem encode_starts (m : Model α) (modified : String) :
    ∃ rest, (encode m modified).toList = "<mxfile".toList ++ rest := by
  simp [encode, document, Element.lines, indent, startTag, startOfTag]

theorem wrapperFaults_encode (m : Model α) (modified : String) :
    wrapperFaults (encode m modified).toList (cells (encode m modified).toList) = [] := by
  obtain ⟨rest, hrest⟩ := encode_starts m modified
  have hroot : (foundation.map (Element.found cellDepth)).any isRoot = true := by decide
  have hlayer : (foundation.map (Element.found cellDepth)).any isLayer = true := by decide
  rw [wrapperFaults, cells_encode, cellElements, List.map_append, List.any_append, List.any_append,
    hroot, hlayer, hrest, occurs_append]
  rfl

/-- The check finds nothing wrong in the document of a well numbered model. -/
theorem no_faults {m : Model α} (h : m.WellNumbered) (modified : String) :
    (check (encode m modified)).errors = [] := by
  let ids := (Model.rootCell :: Model.layerCell :: m.cells).map fun c => (toString c).toList
  have hrepeated : repeatedIds [] ids = [] :=
    repeatedIds_eq_nil (nodup_ids h) fun _ _ => List.not_mem_nil
  have hfoundation : (foundation.map (Element.found cellDepth)).flatMap
      (fun cell => vertexFaults cell ++ edgeFaults ids cell) = [] := rfl
  have hcells : ∀ c ∈ cellsOf m, vertexFaults (c.element.found cellDepth) ++
      edgeFaults ids (c.element.found cellDepth) = [] := by
    intro c hc
    rw [vertexFaults_found, edgeFaults_found, List.append_nil]
    rintro id value style source target rfl
    obtain ⟨hsource, htarget⟩ := ends_of_edge_mem h hc
    have hmem {c : Nat} (hc : c ∈ m.entityCells) : (toString c).toList ∈ ids :=
      List.mem_map.mpr ⟨c, by simp [Model.cells, hc], rfl⟩
    exact ⟨hmem hsource, hmem htarget⟩
  simp only [check, faults, wrapperFaults_encode, ids_encode, List.nil_append]
  rw [hrepeated, cells_encode, cellElements, List.map_append, List.flatMap_append, hfoundation,
    List.map_map, List.nil_append, List.nil_append, List.flatMap_eq_nil_iff]
  intro cell hcell
  obtain ⟨c, hc, rfl⟩ := List.mem_map.mp hcell
  exact hcells c hc

end Document

end DiagramPress.Markup
