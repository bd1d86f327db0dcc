-- The order of the cells in a document: nodes and edges refer to cells in front of
-- them. A group does so only if it was declared behind the group around it, as
-- groups are written in the order of their declaration.
import DiagramPress.Proofs.Layout.DeepestFirst
import DiagramPress.Proofs.Markup.Faults
import DiagramPress.Proofs.Model.Unplaced

namespace DiagramPress

/-- Everything stands behind what it lies in. -/
def Nesting.OuterFirst (n : Nesting) : Prop := ∀ i j, n.InsideAt i j → j < i

namespace Markup

/-! ## References -/

/-- The attributes that refer to other cells. -/
def referenceNames : List String := ["parent", "source", "target"]

/-- What the cell at `i` refers to stands in front of it. -/
def RefersBackAt (cells : List FoundCell) (i : Nat) : Prop :=
  ∀ cell ∈ cells[i]?, ∀ name ∈ referenceNames, ∀ ref ∈ cell.get? name,
    ∃ j < i, ∃ other ∈ cells[j]?, other.get? "id" = some ref

section

variable {α : Type}

/-- The cells that a cell refers to. -/
def Cell.references : Cell α → List Nat
  | vertex _ _ _ parent _ => [parent]
  | edge _ _ _ source target => [Model.layerCell, source, target]

variable [Scalar α] [NumberText α]

/-- The references of a found cell are those of the cell that was written. -/
theorem exists_reference_iff (c : Cell α) (ref : List Char) :
    (∃ name ∈ referenceNames, (c.element.found cellDepth).get? name = some ref) ↔
      ∃ k ∈ c.references, (toString k).toList = ref := by
  cases c with
  | vertex id value style parent box =>
    have hparent := (saysVertex_found id value style parent box).parent
    have hnone (name : String) (hname : name = "source" ∨ name = "target") :
        ((Cell.vertex id value style parent box).element.found cellDepth).get? name = none := by
      refine get?_none ?_
      rcases hname with rfl | rfl <;> simp [valueOf?, vertexAttributes]
    simp [referenceNames, Cell.references, hparent, hnone]
  | edge id value style source target =>
    have hsays : SaysEdge ((Cell.edge id value style source target : Cell α).element.found cellDepth)
        id value style source target := saysEdge_found id value style source target
    simp [referenceNames, Cell.references, hsays.parent, hsays.source, hsays.target]

/-! ## Cells by their places in the document -/

variable {m : Model α} {modified : String}

/-- The cells of the foundation, as they are found. -/
def foundFoundation : List FoundCell := foundation.map (Element.found cellDepth)

theorem cells_eq : cells (encode m modified).toList =
    foundFoundation ++ (cellsOf m).map fun c => c.element.found cellDepth := by
  rw [cells_encode, cellElements, List.map_append, List.map_map]
  rfl

theorem getElem?_foundation {i : Nat} (hi : i < 2) :
    (cells (encode m modified).toList)[i]? = foundFoundation[i]? := by
  rw [cells_eq]
  exact List.getElem?_append_left hi

/-- Behind the foundation, the cells of the model follow each other. -/
theorem getElem?_cells (i : Nat) : (cells (encode m modified).toList)[i + 2]? =
    (cellsOf m)[i]?.map fun c => c.element.found cellDepth := by
  rw [cells_eq, List.getElem?_append_right (Nat.le_add_left 2 i), ← List.getElem?_map]
  rfl

/-- The layer refers to the root, and the root to nothing. -/
theorem refersBackAt_foundation {i : Nat} (hi : i < 2) :
    RefersBackAt (cells (encode m modified).toList) i := by
  have hrefs : ∀ i < 2, ∀ name ∈ referenceNames,
      foundFoundation[i]?.bind (·.get? name) = none ∨
        i = 1 ∧ foundFoundation[i]?.bind (·.get? name) = foundFoundation[0]?.bind (·.get? "id") := by
    decide
  intro cell hcell name hname ref href
  rw [getElem?_foundation hi] at hcell
  have hget : foundFoundation[i]?.bind (·.get? name) = some ref :=
    Option.bind_eq_some_iff.mpr ⟨cell, hcell, href⟩
  rcases hrefs i hi name hname with hnone | ⟨rfl, hroot⟩
  · rw [hnone] at hget
    cases hget
  · rw [hget] at hroot
    obtain ⟨root, hat, hid⟩ := Option.bind_eq_some_iff.mp hroot.symm
    exact ⟨0, Nat.zero_lt_one, root, (getElem?_foundation Nat.zero_lt_two).trans hat, hid⟩

/-- The cells of the model are numbered one after the other. -/
def Consecutive {α : Type} (m : Model α) : Prop :=
  m.cells = List.range' Model.firstCell m.cells.length

omit [NumberText α] in
theorem id_of_getElem? (hm : Consecutive m) {i : Nat} {c : Cell α}
    (h : (cellsOf m)[i]? = some c) : c.id = i + 2 := by
  have hid : m.cells[i]? = some c.id := by
    rw [← ids_cellsOf, List.getElem?_map, h, Option.map_some]
  have hlt : i < m.cells.length := (List.getElem?_eq_some_iff.mp hid).1
  rw [hm, List.getElem?_range' hlt, Option.some.injEq] at hid
  rw [← hid, Model.firstCell]
  omega

/-- A cell has the number of its place as its id. -/
theorem get?_id_of_getElem? (hm : Consecutive m) {i : Nat} {cell : FoundCell}
    (h : (cells (encode m modified).toList)[i]? = some cell) :
    cell.get? "id" = some (toString i).toList := by
  by_cases hi : i < 2
  · have hids : ∀ i < 2, foundFoundation[i]?.bind (·.get? "id") = some (toString i).toList := by
      decide
    rw [getElem?_foundation hi] at h
    have := hids i hi
    rwa [h, Option.bind_some] at this
  · obtain ⟨k, rfl⟩ : ∃ k, i = k + 2 := ⟨i - 2, by omega⟩
    rw [getElem?_cells, Option.map_eq_some_iff] at h
    obtain ⟨c, hc, rfl⟩ := h
    rw [id_found, id_of_getElem? hm hc]

/-- The cell of an entry refers back exactly if its references are smaller than its id. -/
theorem refersBackAt_iff (hm : Consecutive m) {i : Nat} {c : Cell α}
    (hc : (cellsOf m)[i]? = some c) :
    RefersBackAt (cells (encode m modified).toList) (i + 2) ↔ ∀ k ∈ c.references, k < i + 2 := by
  have hat : (cells (encode m modified).toList)[i + 2]? = some (c.element.found cellDepth) := by
    rw [getElem?_cells, hc, Option.map_some]
  constructor
  · intro h k hk
    obtain ⟨name, hname, href⟩ := (exists_reference_iff c _).mpr ⟨k, hk, rfl⟩
    obtain ⟨j, hj, other, hother, hid⟩ := h _ hat name hname _ href
    have hsame := (get?_id_of_getElem? hm hother).symm.trans hid
    rwa [← toString_toList_inj (Option.some.inj hsame)]
  · intro h cell hcell name hname ref href
    obtain rfl := Option.some.inj (hat.symm.trans hcell)
    obtain ⟨k, hk, rfl⟩ := (exists_reference_iff c ref).mp ⟨name, hname, href⟩
    have hlt := h k hk
    have hlength : i + 2 < (cells (encode m modified).toList).length :=
      (List.getElem?_eq_some_iff.mp hat).1
    have hother := List.getElem?_eq_getElem (Nat.lt_trans hlt hlength)
    exact ⟨k, hlt, _, hother, get?_id_of_getElem? hm hother⟩

/-! ## The kinds of cells -/

omit [NumberText α] in
theorem getElem?_groupCell {i : Nat} {g : Model.Group α} (h : m.groups[i]? = some g) :
    (cellsOf m)[i]? = some (groupCell m g) := by
  have hlt : i < (m.groups.map (groupCell m)).length := by
    rw [List.length_map]
    exact (List.getElem?_eq_some_iff.mp h).1
  rw [cellsOf, List.append_assoc, List.getElem?_append_left hlt, List.getElem?_map, h,
    Option.map_some]

omit [NumberText α] in
/-- Behind the groups there are only nodes and edges, and no edge before the last node. -/
theorem node_or_edge {i : Nat} {c : Cell α} (h : (cellsOf m)[i]? = some c)
    (hi : m.groups.length ≤ i) : (∃ n ∈ m.nodes, c = nodeCell m n) ∨
      m.groups.length + m.nodes.length ≤ i ∧ ∃ e ∈ m.edges, c = edgeCell e := by
  rw [cellsOf, List.append_assoc, List.getElem?_append_right (by rwa [List.length_map]),
    List.length_map] at h
  by_cases hlt : i - m.groups.length < m.nodes.length
  · rw [List.getElem?_append_left (by rwa [List.length_map]), List.getElem?_map,
      Option.map_eq_some_iff] at h
    obtain ⟨n, hn, rfl⟩ := h
    exact .inl ⟨n, List.mem_of_getElem? hn, rfl⟩
  · rw [List.getElem?_append_right (by rw [List.length_map]; omega), List.getElem?_map,
      Option.map_eq_some_iff] at h
    obtain ⟨e, he, rfl⟩ := h
    exact .inr ⟨by omega, e, List.mem_of_getElem? he, rfl⟩

omit [NumberText α] in
theorem cell_of_group (hm : Consecutive m) {i : Nat} {g : Model.Group α}
    (h : m.groups[i]? = some g) : g.cell = i + 2 := id_of_getElem? hm (getElem?_groupCell h)

omit [NumberText α] in
/-- Groups have smaller cells than what is written behind them. -/
theorem cell_lt_of_mem (hm : Consecutive m) {g : Model.Group α} (hg : g ∈ m.groups) :
    g.cell < m.groups.length + 2 := by
  obtain ⟨i, hi⟩ := List.mem_iff_getElem?.mp hg
  have hlt := (List.getElem?_eq_some_iff.mp hi).1
  rw [cell_of_group hm hi]
  omega

omit [Scalar α] [NumberText α] in
/-- The ends of edges have smaller cells than the edges. -/
theorem entityCell_lt (hm : Consecutive m) {k : Nat} (hk : k ∈ m.entityCells) :
    k < m.groups.length + m.nodes.length + 2 := by
  have hlength : m.entityCells.length = m.groups.length + m.nodes.length := by
    rw [Model.entityCells, List.length_append, List.length_map, List.length_map]
  have hsplit : m.entityCells ++ m.edges.map (·.cell) =
      List.range' Model.firstCell m.entityCells.length ++
        List.range' (Model.firstCell + m.entityCells.length) m.edges.length := by
    have hedges : (m.edges.map (·.cell)).length = m.edges.length := List.length_map _
    rw [List.range'_append_1, ← hedges, ← List.length_append]
    exact hm
  rw [(List.append_inj hsplit (by rw [List.length_range'])).1, List.mem_range'_1, hlength,
    Model.firstCell] at hk
  omega

/-- Nodes and edges refer back. -/
theorem refersBackAt_behind_groups (hm : Consecutive m) (hnumbered : m.WellNumbered) {i : Nat}
    (hi : m.groups.length ≤ i) : RefersBackAt (cells (encode m modified).toList) (i + 2) := by
  cases hc : (cellsOf m)[i]? with
  | none =>
    intro cell hcell
    rw [getElem?_cells, hc] at hcell
    cases hcell
  | some c =>
    rw [refersBackAt_iff hm hc]
    rcases node_or_edge hc hi with ⟨n, -, rfl⟩ | ⟨hle, e, he, rfl⟩
    · intro k hk
      obtain rfl := List.mem_singleton.mp hk
      rw [nodeParent]
      cases hgroup : n.group.bind m.group? with
      | none => simp [Model.layerCell]
      | some g =>
        obtain ⟨id, -, hfind⟩ := Option.bind_eq_some_iff.mp hgroup
        have := cell_lt_of_mem hm (List.mem_of_find?_eq_some hfind)
        simp only [Option.map_some, Option.getD_some]
        omega
    · have hsource := entityCell_lt hm (hnumbered.source e he)
      have htarget := entityCell_lt hm (hnumbered.target e he)
      simp only [edgeCell, Cell.references, List.mem_cons, List.not_mem_nil, or_false,
        forall_eq_or_imp, forall_eq, Model.layerCell]
      omega

/-- A group refers back exactly if it was declared behind the group around it. -/
theorem refersBackAt_group (hm : Consecutive m) (hids : (m.groups.map (·.id)).Nodup)
    (hhangs : ∀ g ∈ m.groups, m.HangsBelowParent g) {i : Nat} {g : Model.Group α}
    (h : m.groups[i]? = some g) : RefersBackAt (cells (encode m modified).toList) (i + 2) ↔
      ∀ j, m.nesting.InsideAt i j → j < i := by
  rw [refersBackAt_iff hm (getElem?_groupCell h)]
  simp only [groupCell, Cell.references, List.mem_singleton, forall_eq]
  constructor
  · intro hlt j hinside
    obtain ⟨g', outer, hg', houter, hparent⟩ := Model.insideAt_iff.mp hinside
    obtain rfl := Option.some.inj (h.symm.trans hg')
    rcases hhangs g (List.mem_of_getElem? h) with ⟨p, hp, hin, hcell⟩ | ⟨hnone, -⟩
    · have hsame : p = outer := List.inj_on_of_nodup_map hids hp (List.mem_of_getElem? houter)
        (Option.some.inj (hin.symm.trans hparent))
      rw [hcell, hsame, cell_of_group hm houter] at hlt
      omega
    · exact absurd hparent (hnone outer (List.mem_of_getElem? houter))
  · intro hbehind
    rcases hhangs g (List.mem_of_getElem? h) with ⟨p, hp, hin, hcell⟩ | ⟨-, hcell⟩
    · obtain ⟨j, hj⟩ := List.mem_iff_getElem?.mp hp
      have hlt := hbehind j (Model.insideAt_iff.mpr ⟨g, p, h, hj, hin⟩)
      rw [hcell, cell_of_group hm hj]
      omega
    · rw [hcell, Model.layerCell]
      omega

/-- Nothing refers forward exactly if every group stands behind the group around it. -/
theorem refersBack_iff_outerFirst (hm : Consecutive m) (hids : (m.groups.map (·.id)).Nodup)
    (hhangs : ∀ g ∈ m.groups, m.HangsBelowParent g) (hnumbered : m.WellNumbered) :
    (∀ i, RefersBackAt (cells (encode m modified).toList) i) ↔ m.nesting.OuterFirst := by
  constructor
  · intro h i j hinside
    obtain ⟨g, -, hg, -, -⟩ := Model.insideAt_iff.mp hinside
    exact (refersBackAt_group hm hids hhangs hg).mp (h (i + 2)) j hinside
  · intro h i
    by_cases hfoundation : i < 2
    · exact refersBackAt_foundation hfoundation
    · obtain ⟨k, rfl⟩ : ∃ k, i = k + 2 := ⟨i - 2, by omega⟩
      cases hg : m.groups[k]? with
      | none => exact refersBackAt_behind_groups hm hnumbered (List.getElem?_eq_none_iff.mp hg)
      | some g => exact (refersBackAt_group hm hids hhangs hg).mpr (h k)

end

end Markup

/-! ## Documents of accepted descriptions -/

section

variable {α : Type} [Scalar α] [NumberText α] {d : Description α} (hd : d.HangsTogether)
  (tables : Tables α) (settings : ModelSettings α) {m : Model α}
  (hm : m.withoutPlaces = (d.build tables settings).1.withoutPlaces)
include hd hm

theorem consecutive_of_build : Markup.Consecutive m := by
  have hcells : m.cells = (d.build tables settings).1.cells := by
    have hentities := congrArg Model.entityCells hm
    rw [Model.entityCells_withoutPlaces, Model.entityCells_withoutPlaces] at hentities
    rw [Model.cells, Model.cells, hentities, Model.edges_congr hm]
  rw [Markup.Consecutive, hcells, Description.cells_build tables settings hd.groups_nodup,
    List.length_range']

omit hd in
theorem nesting_of_build : m.nesting = Description.nestingOf d.groups := by
  rw [Model.nesting_congr hm, Model.nesting, Description.groups_build, List.map_map]
  rfl

theorem refersBack_of_build (modified : String) :
    (∀ i, Markup.RefersBackAt (Markup.cells (Markup.encode m modified).toList) i) ↔
      (Description.nestingOf d.groups).OuterFirst := by
  have hhangs : ∀ g ∈ m.groups, m.HangsBelowParent g :=
    Model.hangsBelowParent_congr hm fun g hg =>
      Description.hangsBelowParent_build tables settings hd.groups_nodup hg
  have hids : (m.groups.map (·.id)).Nodup := by
    rw [Model.group_ids_congr hm, Description.groupIds_build]
    exact hd.groups_nodup
  have hnumbered := (Description.wellNumbered_build tables settings hd.groups_nodup).congr hm
  rw [Markup.refersBack_iff_outerFirst (consecutive_of_build hd tables settings hm) hids hhangs
    hnumbered, nesting_of_build tables settings hm]

end

/-- In the document of an accepted description, wherever its parts are placed, the
foundation, the nodes and the edges refer to cells in front of them. The groups do
so exactly if each is declared behind the group around it. -/
theorem references_lead_back_behind_the_groups {α : Type} [Scalar α] [NumberText α]
    {d : Description α} (hd : d.problems = []) (tables : Tables α) (settings : ModelSettings α)
    {m : Model α} (hm : m.withoutPlaces = (d.build tables settings).1.withoutPlaces)
    (modified : String) :
    let cells := Markup.cells (Markup.encode m modified).toList
    (∀ i, i < 2 ∨ d.groups.length + 2 ≤ i → Markup.RefersBackAt cells i) ∧
      ((∀ i, Markup.RefersBackAt cells i) ↔ (Description.nestingOf d.groups).OuterFirst) := by
  intro cells
  have htogether := Description.hangsTogether_of_accepted hd
  refine ⟨fun i hi => ?_, refersBack_of_build htogether tables settings hm modified⟩
  rcases hi with hi | hi
  · exact Markup.refersBackAt_foundation hi
  · obtain ⟨k, rfl⟩ : ∃ k, i = k + 2 := ⟨i - 2, by omega⟩
    have hlength : m.groups.length = d.groups.length := by
      rw [Model.length_groups_congr hm, Description.groups_build, List.length_map]
    have hnumbered :=
      (Description.wellNumbered_build tables settings htogether.groups_nodup).congr hm
    exact Markup.refersBackAt_behind_groups (consecutive_of_build htogether tables settings hm)
      hnumbered (by omega)

section Grid

/-- A group in a group, declared in one order or in the other. -/
def twoGroups (groups : List (Description.Group Grid)) : Description Grid where
  title := "groups"
  theme := .professional
  layout := LayoutChoice.default
  nodes := [⟨"n", "N", "rounded=1;", some "inner", none, none, none⟩]
  edges := [⟨"n", "outer", none, none, .orthogonal⟩]
  groups := groups

def innerGroup : Description.Group Grid := ⟨"inner", "Inner", some "outer", none⟩

def outerGroup : Description.Group Grid := ⟨"outer", "Outer", none, none⟩

theorem an_outer_group_declared_first_is_in_front :
    let built := ((twoGroups [outerGroup, innerGroup]).build Tables.builtin ModelSettings.default).1
    (twoGroups [outerGroup, innerGroup]).problems = [] ∧
      ∀ i, Markup.RefersBackAt (Markup.cells (Markup.encode built "now").toList) i := by
  intro built
  have hd : (twoGroups [outerGroup, innerGroup]).problems = [] := by decide
  refine ⟨hd, (references_lead_back_behind_the_groups hd Tables.builtin ModelSettings.default
    rfl "now").2.mpr ?_⟩
  rintro i j ⟨id, outer, parent, hi, hj⟩
  match i with
  | 0 => cases hi
  | 1 =>
    cases hi
    match j with
    | 0 => exact Nat.zero_lt_one
    | 1 => exact absurd (Prod.mk.inj (Option.some.inj hj)).1 (by decide)
    | j + 2 => cases hj
  | i + 2 => cases hi

/-- The description is accepted, and the first of its groups refers forward. -/
theorem an_inner_group_declared_first_refers_forward :
    let built := ((twoGroups [innerGroup, outerGroup]).build Tables.builtin ModelSettings.default).1
    (twoGroups [innerGroup, outerGroup]).problems = [] ∧
      ¬ ∀ i, Markup.RefersBackAt (Markup.cells (Markup.encode built "now").toList) i := by
  intro built
  have hd : (twoGroups [innerGroup, outerGroup]).problems = [] := by decide
  have htogether := Description.hangsTogether_of_accepted hd
  refine ⟨hd, fun hback => ?_⟩
  have houter := (refersBack_of_build htogether Tables.builtin ModelSettings.default
    rfl "now").mp hback
  exact absurd (houter 0 1 ⟨"inner", "outer", none, rfl, rfl⟩) (by decide)

end Grid

end DiagramPress
