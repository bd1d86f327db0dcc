-- What the reader finds in a document is what the model says: the same cells
-- in the same order, under the same ids, with the same texts.
import DiagramPress.Proofs.Markup.Cells
import DiagramPress.Proofs.Model.WellNumbered
import Mathlib.Data.List.Forall2

namespace DiagramPress.Markup

/-! ## What a found cell says -/

/-- The value of an attribute with its references read, if the cell has it. -/
def FoundCell.text? (cell : FoundCell) (name : String) : Option (List Char) :=
  (cell.get? name).map unescapeChars

/-- The cell is a vertex with this id and this parent, and these texts. -/
structure SaysVertex (cell : FoundCell) (id : Nat) (value style : String) (parent : Nat) :
    Prop where
  id : cell.get? "id" = some (toString id).toList
  vertex : cell.get? "vertex" = some ['1']
  no_edge : cell.get? "edge" = none
  parent : cell.get? "parent" = some (toString parent).toList
  value : cell.text? "value" = some (unescapeChars value.toList)
  style : cell.text? "style" = some (unescapeChars style.toList)

/-- The cell is an edge of the layer with this id, these ends and these texts. -/
structure SaysEdge (cell : FoundCell) (id : Nat) (value style : String) (source target : Nat) :
    Prop where
  id : cell.get? "id" = some (toString id).toList
  edge : cell.get? "edge" = some ['1']
  no_vertex : cell.get? "vertex" = none
  parent : cell.get? "parent" = some (toString Model.layerCell).toList
  source : cell.get? "source" = some (toString source).toList
  target : cell.get? "target" = some (toString target).toList
  value : cell.text? "value" =
    if value.isEmpty then none else some (unescapeChars value.toList)
  style : cell.text? "style" = some (unescapeChars style.toList)

/-! ## Looking up what was written -/

/-- The value of the last attribute with a name. -/
def valueOf? (as : List Attribute) (name : String) : Option String :=
  (as.reverse.find? fun a => a.name = name).map (·.value)

theorem lookup_found (as : List Attribute) (name : String) :
    (as.map Attribute.found).lookup name.toList =
      (as.find? fun a => a.name = name).map fun a => guardChars a.value.toList := by
  induction as with
  | nil => rfl
  | cons a as ih =>
    by_cases h : a.name = name
    · simp [Attribute.found, h]
    · have hne : (name.toList == a.name.toList) = false := by
        simpa [String.toList_inj] using Ne.symm h
      simp only [List.map_cons, List.lookup_cons, Attribute.found, hne]
      rw [ih]
      simp [h]

/-- Values are found guarded, as they were written. -/
theorem get?_map_found (as : List Attribute) (name : String) :
    Attributes.get? (as.map Attribute.found) name =
      (valueOf? as name).map fun value => guardChars value.toList := by
  rw [Attributes.get?, ← List.map_reverse, lookup_found, valueOf?, Option.map_map]
  rfl

theorem get?_found (depth : Nat) (e : Element) (name : String) :
    (e.found depth).get? name =
      (valueOf? e.attributes name).map fun value => guardChars value.toList :=
  get?_map_found e.attributes name

theorem get?_number {depth : Nat} {e : Element} {name : String} {n : Nat}
    (h : valueOf? e.attributes name = some (toString n)) :
    (e.found depth).get? name = some (toString n).toList := by
  rw [get?_found, h, Option.map_some, guardChars_toString]

theorem get?_one {depth : Nat} {e : Element} {name : String}
    (h : valueOf? e.attributes name = some "1") : (e.found depth).get? name = some ['1'] := by
  have hplain : guardChars "1".toList = ['1'] := by decide
  rw [get?_found, h, Option.map_some, hplain]

theorem text?_found {depth : Nat} {e : Element} {name value : String}
    (h : valueOf? e.attributes name = some value) :
    (e.found depth).text? name = some (unescapeChars value.toList) := by
  rw [FoundCell.text?, get?_found, h, Option.map_some, Option.map_some, unescapeChars_guardChars]

theorem get?_none {depth : Nat} {e : Element} {name : String}
    (h : valueOf? e.attributes name = none) :
    (e.found depth).get? name = none := by
  rw [get?_found, h, Option.map_none]

section

variable {α : Type} [Scalar α]

def Cell.id : Cell α → Nat
  | vertex id _ _ _ _ => id
  | edge id _ _ _ _ => id

theorem ids_cellsOf (m : Model α) : (cellsOf m).map Cell.id = m.cells := by
  rw [cellsOf, Model.cells, Model.entityCells]
  simp only [List.map_append, List.map_map]
  rfl

/-- The label of a cell, as the model stores it. -/
def Cell.label : Cell α → String
  | vertex _ value _ _ _ => value
  | edge _ value _ _ _ => value

theorem labels_cellsOf (m : Model α) : (cellsOf m).map Cell.label = m.labels := by
  rw [cellsOf, Model.labels]
  simp only [List.map_append, List.map_map]
  rfl

end

/-! ## Each kind of cell -/

section

variable {α : Type} [Scalar α] [NumberText α]

@[simp]
theorem attributes_vertex (id : Nat) (value style : String) (parent : Nat) (box : Bounds α) :
    (Cell.vertex id value style parent box).element.attributes =
      vertexAttributes id value style parent := rfl

@[simp]
theorem attributes_edge (id : Nat) (value style : String) (source target : Nat) :
    (Cell.edge id value style source target : Cell α).element.attributes =
      edgeAttributes id value style source target := rfl

theorem saysVertex_found (id : Nat) (value style : String) (parent : Nat) (box : Bounds α) :
    SaysVertex ((Cell.vertex id value style parent box).element.found cellDepth)
      id value style parent where
  id := get?_number (by simp [valueOf?, vertexAttributes])
  vertex := get?_one (by simp [valueOf?, vertexAttributes])
  no_edge := get?_none (by simp [valueOf?, vertexAttributes])
  parent := get?_number (by simp [valueOf?, vertexAttributes])
  value := text?_found (by simp [valueOf?, vertexAttributes])
  style := text?_found (by simp [valueOf?, vertexAttributes])

theorem saysEdge_found (id : Nat) (value style : String) (source target : Nat) :
    SaysEdge ((Cell.edge id value style source target : Cell α).element.found cellDepth)
      id value style source target where
  id := get?_number (by cases h : value.isEmpty <;> simp [valueOf?, edgeAttributes, h])
  edge := get?_one (by simp [valueOf?, edgeAttributes])
  no_vertex := get?_none (by cases h : value.isEmpty <;> simp [valueOf?, edgeAttributes, h])
  parent := get?_number (by simp [valueOf?, edgeAttributes])
  source := get?_number (by simp [valueOf?, edgeAttributes])
  target := get?_number (by simp [valueOf?, edgeAttributes])
  value := by
    cases h : value.isEmpty with
    | true => simp [FoundCell.text?, get?_none, valueOf?, edgeAttributes, h]
    | false => exact text?_found (by simp [valueOf?, edgeAttributes, h])
  style := text?_found (by simp [valueOf?, edgeAttributes])

/-! ## The whole document -/

/-- The label that the reader shows for a cell; a cell without a value has an empty one. -/
def FoundCell.label (cell : FoundCell) : List Char := (cell.text? "value").getD []

theorem SaysVertex.label_eq {cell : FoundCell} {id : Nat} {value style : String} {parent : Nat}
    (h : SaysVertex cell id value style parent) : cell.label = unescapeChars value.toList := by
  rw [FoundCell.label, h.value, Option.getD_some]

theorem SaysEdge.label_eq {cell : FoundCell} {id : Nat} {value style : String}
    {source target : Nat} (h : SaysEdge cell id value style source target) :
    cell.label = unescapeChars value.toList := by
  rw [FoundCell.label, h.value]
  cases he : value.isEmpty with
  | true =>
    obtain rfl : value = "" := by simpa using he
    rfl
  | false => rfl

theorem label_found (c : Cell α) :
    (c.element.found cellDepth).label = unescapeChars c.label.toList := by
  cases c with
  | vertex id value style parent box =>
    rw [(saysVertex_found id value style parent box).label_eq, Cell.label]
  | edge id value style source target =>
    rw [(saysEdge_found id value style source target).label_eq, Cell.label]

theorem cells_after_foundation (m : Model α) (modified : String) :
    (cells (encode m modified).toList).drop 2 =
      (cellsOf m).map fun c => c.element.found cellDepth := by
  rw [cells_encode, cellElements]
  simp [foundation]

theorem labels_encode (m : Model α) (modified : String) :
    ((cells (encode m modified).toList).drop 2).map FoundCell.label =
      m.labels.map fun label => unescapeChars label.toList := by
  simp only [cells_after_foundation, ← labels_cellsOf, List.map_map, Function.comp_def, label_found]

theorem unescapeChars_escape (text : String) :
    unescapeChars (Markup.escape text).toList = text.toList := by
  rw [escape, String.toList_ofList, unescapeChars_escapeChars]

/-- Found cells that stand for the entries of a list, one for each, in order. -/
theorem forall₂_found {β : Type} {R : FoundCell → β → Prop} (cell : β → Cell α) (entries : List β)
    (h : ∀ x, R ((cell x).element.found cellDepth) x) :
    List.Forall₂ R (entries.map fun x => (cell x).element.found cellDepth) entries := by
  rw [List.forall₂_map_left_iff, List.forall₂_same]
  exact fun x _ => h x

/-- What is read from the document of a model are its cells and nothing else: the two that all
documents start with, then groups, nodes and edges in their order, each with its ids and texts.
A node hangs below the group that it names, if there is one, else below the layer. The
document of a description has the labels of the description, whatever they say. -/
theorem documents_read_back :
    (∀ (m : Model α) (modified : String), ∃ root layer groups nodes edges,
      cells (encode m modified).toList = root :: layer :: (groups ++ nodes ++ edges) ∧
      root.attributes = [("id".toList, ['0'])] ∧
      layer.attributes = [("id".toList, ['1']), ("parent".toList, ['0'])] ∧
      List.Forall₂ (fun c g => SaysVertex c g.cell g.label g.style.text g.parentCell)
        groups m.groups ∧
      List.Forall₂ (fun c n => SaysVertex c n.cell n.label n.style.text
        (((n.group.bind fun id => m.groups.find? fun g => g.id = id).map (·.cell)).getD 1))
        nodes m.nodes ∧
      List.Forall₂ (fun c e => SaysEdge c e.cell e.label e.style.text e.sourceCell e.targetCell)
        edges m.edges ∧
      (cells (encode m modified).toList).length =
        2 + m.groups.length + m.nodes.length + m.edges.length) ∧
    ∀ (d : Description α) (tables : Tables α) (settings : ModelSettings α) (modified : String),
      ((cells (encode (d.build tables settings).1 modified).toList).drop 2).map FoundCell.label =
        d.labels.map String.toList := by
  refine ⟨fun m modified => ?_, fun d tables settings modified => ?_⟩
  · have hcells : cells (encode m modified).toList =
        foundation.map (Element.found cellDepth) ++
          (cellsOf m).map fun c => c.element.found cellDepth := by
      rw [cells_encode, cellElements, List.map_append, List.map_map]
      rfl
    refine ⟨(Element.lone "mxCell" [⟨"id", toString Model.rootCell⟩]).found cellDepth,
      (Element.lone "mxCell" [⟨"id", toString Model.layerCell⟩,
        ⟨"parent", toString Model.rootCell⟩]).found cellDepth,
      m.groups.map fun g => (groupCell m g).element.found cellDepth,
      m.nodes.map fun n => (nodeCell m n).element.found cellDepth,
      m.edges.map fun e => (edgeCell e : Cell α).element.found cellDepth, ?_, ?_, ?_,
      forall₂_found (groupCell m) m.groups fun g => saysVertex_found _ _ _ _ _,
      forall₂_found (nodeCell m) m.nodes fun n => saysVertex_found _ _ _ _ _,
      forall₂_found edgeCell m.edges fun e => saysEdge_found _ _ _ _ _, ?_⟩
    · rw [hcells, cellsOf, List.map_append, List.map_append, List.map_map, List.map_map,
        List.map_map]
      rfl
    · decide
    · decide
    · rw [hcells, cellsOf]
      simp [foundation]
      omega
  · simp only [labels_encode, Description.labels_build, List.map_map, Function.comp_def,
      unescapeChars_escape]

end

end DiagramPress.Markup
