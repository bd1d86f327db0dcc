-- An answer written back: what holds what in the answer holds it in the model, and where
-- the frames have gaps in between, so have groups and nodes; no group needs to grow.
import DiagramPress.Proofs.Layout.Containment
import DiagramPress.Proofs.Layout.Complete
import DiagramPress.Proofs.Layout.Siblings

namespace DiagramPress

/-! ## Groups that need not grow -/

namespace Bounds

variable {α : Type} [ExactScalar α]

/-- With a box that it covers, a box is united to what it is. -/
theorem union_eq_left {a b : Bounds α} (h : a.Covers b) : a.union b = a := by
  obtain ⟨hleft, htop, hright, hbottom⟩ := h
  unfold union
  dsimp only
  rw [Scalar.least_eq_min, Scalar.least_eq_min, Scalar.greatest_eq_max, Scalar.greatest_eq_max,
    min_eq_left hleft, min_eq_left htop, max_eq_left hright, max_eq_left hbottom, right, bottom,
    add_sub_cancel_left, add_sub_cancel_left]

theorem foldl_union_eq_self {β : Type} (grown : β → Bounds α) {members : List β} {b : Bounds α}
    (h : ∀ m ∈ members, b.Covers (grown m)) :
    members.foldl (fun b m => b.union (grown m)) b = b := by
  induction members with
  | nil => rfl
  | cons m rest ih =>
    rw [List.foldl_cons, union_eq_left (h m List.mem_cons_self)]
    exact ih fun m hm => h m (List.mem_cons_of_mem _ hm)

end Bounds

namespace Layout

variable {α : Type} [ExactScalar α] {padding : Padding α} {m : Model α}

/-- A group with room around all its members stays as it is. -/
theorem growAround_eq_self {g : Model.Group α} (h : SurroundsMembers padding m g) :
    growAround padding m g = g := by
  unfold growAround
  cases hbox : g.bounds? with
  | none => rfl
  | some b =>
    obtain ⟨id, cell, label, parent, parentCell, style, position, size⟩ := g
    have hcovers : ∀ member ∈ memberBoxes m id, b.Covers (padded padding member) :=
      fun member hmember => Bounds.covers_padded_iff.mpr (h b hbox member hmember)
    cases position with
    | none => cases hbox
    | some p =>
      cases size with
      | none => cases hbox
      | some s =>
        obtain rfl := Option.some.inj hbox
        dsimp only
        rw [Bounds.foldl_union_eq_self (padded padding) hcovers]
        rfl

/-- Where every group has that room, no group grows. -/
theorem encloseMembers_eq_self (h : ∀ g ∈ m.groups, SurroundsMembers padding m g) :
    encloseMembers padding m = m := by
  have hat (index : Nat) : growAt padding m index = m := by
    have hgroups : m.groups.modify index (growAround padding m) = m.groups := by
      refine List.ext_getElem? fun i => ?_
      rw [List.getElem?_modify]
      cases hi : m.groups[i]? with
      | none => rfl
      | some g =>
        have hsame := growAround_eq_self (h g (List.mem_of_getElem? hi))
        split
        · rw [Option.map_eq_map, Option.map_some, hsame]
        · rfl
    rw [growAt, hgroups]
  unfold encloseMembers
  induction deepestFirst m with
  | nil => rfl
  | cons index order ih => rw [List.foldl_cons, hat, ih]

end Layout

/-! ## Who holds whom -/

namespace Model

variable {α : Type}

/-- Which node or group of a model lies directly in which group. -/
def holders (m : Model α) : Nesting :=
  m.groups.map (fun g => (g.id, g.parent)) ++ m.nodes.map fun n => (n.id, n.group)

/-- The ids of groups and nodes with their cells. -/
def entities (m : Model α) : List (String × Nat) :=
  m.groups.map (fun g => (g.id, g.cell)) ++ m.nodes.map fun n => (n.id, n.cell)

theorem inside_holders_iff {m : Model α} {inner outer : String} :
    m.holders.Inside inner outer ↔ (∃ g ∈ m.groups, g.id = inner ∧ g.parent = some outer) ∨
      ∃ n ∈ m.nodes, n.id = inner ∧ n.group = some outer := by
  simp only [Nesting.Inside, holders, List.mem_append, List.mem_map, Prod.mk.injEq]

theorem mem_entities_iff {m : Model α} {id : String} {cell : Nat} :
    (id, cell) ∈ m.entities ↔ (∃ g ∈ m.groups, g.id = id ∧ g.cell = cell) ∨
      ∃ n ∈ m.nodes, n.id = id ∧ n.cell = cell := by
  simp only [entities, List.mem_append, List.mem_map, Prod.mk.injEq]

theorem group_mem_entities {m : Model α} {g : Group α} (hg : g ∈ m.groups) :
    (g.id, g.cell) ∈ m.entities :=
  mem_entities_iff.mpr (.inl ⟨g, hg, rfl, rfl⟩)

theorem node_mem_entities {m : Model α} {n : Node α} (hn : n ∈ m.nodes) :
    (n.id, n.cell) ∈ m.entities :=
  mem_entities_iff.mpr (.inr ⟨n, hn, rfl, rfl⟩)

/-- The name that a cell has in a request belongs to one group or node. -/
theorem WellNumbered.id_unique {m : Model α} (hcells : m.WellNumbered) {a b : String}
    {aCell bCell : Nat} (ha : (a, aCell) ∈ m.entities) (hb : (b, bCell) ∈ m.entities)
    (h : toString aCell = toString bCell) : a = b := by
  have hnodup : (m.entities.map (·.2)).Nodup := by
    have hentities : m.entities.map (·.2) = m.entityCells := by
      simp only [entities, entityCells, List.map_append, List.map_map, Function.comp_def]
    rw [hentities]
    exact (List.nodup_append.mp hcells.nodup).1
  exact congrArg Prod.fst (List.inj_on_of_nodup_map hnodup ha hb (toString_injective h))

end Model

namespace Layout

open DiagramPress.Frame

variable {α : Type} {m : Model α} {container : Model.Group α → Frame α} {root : Frame α}

/-- What is named inside the container of a group lies in the group. -/
theorem HoldsModel.inside_of_mem_names (h : HoldsModel m container root) (hm : m.Nested)
    (hcells : m.WellNumbered) {id : String} {cell : Nat} (hid : (id, cell) ∈ m.entities) :
    ∀ g ∈ m.groups, toString cell ∈ (container g).names →
      Relation.TransGen m.holders.Inside id g.id := by
  refine hm.induction_outwards (fun g hg ih hmem => ?_)
  rw [names_eq, h.children g hg, List.mem_flatMap] at hmem
  obtain ⟨c, hc, hmem⟩ := hmem
  rcases List.mem_append.mp hc with hc | hc
  · obtain ⟨inner, hinner, rfl⟩ := List.mem_map.mp hc
    obtain ⟨hinnerMem, hparent⟩ := Model.mem_innerGroups.mp hinner
    have hstep : m.holders.Inside inner.id g.id :=
      Model.inside_holders_iff.mpr (.inl ⟨inner, hinnerMem, rfl, hparent⟩)
    rcases List.mem_cons.mp hmem with hname | hmem
    · rw [h.group_name inner hinnerMem] at hname
      obtain rfl := hcells.id_unique hid (Model.group_mem_entities hinnerMem) hname
      exact .single hstep
    · exact (ih inner hinner hmem).tail hstep
  · obtain ⟨n, hn, rfl⟩ := List.mem_map.mp hc
    obtain ⟨hnMem, hgroup⟩ := Model.mem_members.mp hn
    rw [names_eq, leafOf_children, List.flatMap_nil, List.mem_singleton, leafOf_id] at hmem
    obtain rfl := hcells.id_unique hid (Model.node_mem_entities hnMem) hmem
    exact .single (Model.inside_holders_iff.mpr (.inr ⟨n, hnMem, rfl, hgroup⟩))

/-- If the frame of one cell holds that of another one, then what has the cells lies so. -/
theorem HoldsModel.inside_of_holds (h : HoldsModel m container root) (hm : m.Nested)
    (hcells : m.WellNumbered) {outer inner : String} {outerCell innerCell : Nat}
    (houter : (outer, outerCell) ∈ m.entities) (hinner : (inner, innerCell) ∈ m.entities)
    (hholds : root.Holds (toString outerCell) (toString innerCell)) :
    Relation.TransGen m.holders.Inside inner outer := by
  obtain ⟨c, hc, hid, hmem⟩ := hholds
  rcases List.mem_append.mp (h.inside.mem_iff.mp hc) with hc | hc
  · obtain ⟨g, hg, rfl⟩ := List.mem_map.mp hc
    rw [h.group_name g hg] at hid
    obtain rfl := hcells.id_unique (Model.group_mem_entities hg) houter hid
    exact h.inside_of_mem_names hm hcells hinner g hg hmem
  · obtain ⟨n, -, rfl⟩ := List.mem_map.mp hc
    rw [names_eq, leafOf_children, List.flatMap_nil] at hmem
    cases hmem

end Layout

/-! ## The boxes that are written back -/

namespace Layout

open DiagramPress.Frame

variable {α : Type} {m : Model α} {container : Model.Group α → Frame α} {root : Frame α} {gap : α}
  {padding : Padding α} {boxes : List (String × Bounds α)}

theorem writeNode_id (boxes : List (String × Bounds α)) (n : Model.Node α) :
    (writeNode boxes n).id = n.id ∧ (writeNode boxes n).group = n.group := by
  unfold writeNode
  split <;> exact ⟨rfl, rfl⟩

theorem writeGroup_id (boxes : List (String × Bounds α)) (g : Model.Group α) :
    (writeGroup boxes g).id = g.id ∧ (writeGroup boxes g).parent = g.parent := by
  unfold writeGroup
  split <;> exact ⟨rfl, rfl⟩

/-- A model in which the boxes are written. -/
def written (m : Model α) (boxes : List (String × Bounds α)) : Model α :=
  { m with nodes := m.nodes.map (writeNode boxes), groups := m.groups.map (writeGroup boxes) }

/-- Boxes are written where they are looked up: nodes and groups are found by the same ids. -/
theorem node?_written (hm : m.Nested) {n : Model.Node α} (hn : n ∈ m.nodes) :
    (written m boxes).node? n.id = some (writeNode boxes n) := by
  have hids : ((written m boxes).nodes.map (·.id)).Nodup := by
    simp only [written, List.map_map, Function.comp_def, (writeNode_id boxes _).1]
    exact hm.nodes_nodup
  have hfind := Description.find?_of_nodup hids (List.mem_map_of_mem hn)
  rwa [(writeNode_id boxes n).1] at hfind

theorem group?_written (hm : m.Nested) {g : Model.Group α} (hg : g ∈ m.groups) :
    (written m boxes).group? g.id = some (writeGroup boxes g) := by
  have hids : ((written m boxes).groups.map (·.id)).Nodup := by
    simp only [written, List.map_map, Function.comp_def, (writeGroup_id boxes _).1]
    exact hm.groups_nodup
  have hfind := Description.find?_of_nodup hids (List.mem_map_of_mem hg)
  rwa [(writeGroup_id boxes g).1] at hfind

section

variable (h : HoldsModel m container root) (hnames : boxes.map (·.1) = root.names)
include h hnames

theorem HoldsModel.boxOf?_eq {cell : Nat} {b : Bounds α} (hb : (toString cell, b) ∈ boxes) :
    boxOf? boxes cell = some b := by
  refine boxOf?_of_count (List.count_eq_one_of_mem ?_ (List.mem_map_of_mem hb)) hb
  rw [hnames]
  exact h.names_nodup

theorem HoldsModel.bounds?_writeGroup {g : Model.Group α} {b : Bounds α}
    (hb : (toString g.cell, b) ∈ boxes) : (writeGroup boxes g).bounds? = some b :=
  Layout.bounds?_writeGroup (h.boxOf?_eq hnames hb)

variable [Scalar α] (hseparates : NestedLayout.Separates gap padding root boxes)
include hseparates

/-- A free node gets the box of its leaf. -/
theorem HoldsModel.bounds?_writeNode {n : Model.Node α} (hn : n ∈ m.nodes)
    (hfree : n.position = none) {b : Bounds α} (hb : (toString n.cell, b) ∈ boxes) :
    (writeNode boxes n).bounds? = some b := by
  have hleaf : leafOf n ∈ root.inside :=
    h.inside.mem_iff.mpr (List.mem_append_right _ (List.mem_map_of_mem hn))
  obtain ⟨corner, hcorner⟩ := hseparates.leaf (leafOf n) hleaf (isLeaf_leafOf n)
  have hsize : (leafOf n).size = n.size := by
    obtain ⟨hwidth, hheight⟩ := leafOf_size n
    rw [Frame.size, hwidth, hheight]
    rfl
  rw [leafOf_id, hsize] at hcorner
  have hbox := h.boxOf?_eq hnames hb
  obtain rfl := Option.some.inj (hbox.symm.trans (h.boxOf?_eq hnames hcorner))
  simp only [writeNode, hfree, hbox, Model.Node.bounds?, Option.map_some]
  rfl

variable (hm : m.Nested) (hfree : ∀ n ∈ m.nodes, n.position = none)
include hm hfree

/-- Every group or node has the box that its cell has in the answer. -/
theorem HoldsModel.exists_box (hdisjoint : ∀ g ∈ m.groups, ∀ n ∈ m.nodes, g.id ≠ n.id)
    {id : String} {cell : Nat} (hid : (id, cell) ∈ m.entities) :
    ∃ b, (toString cell, b) ∈ boxes ∧ (written m boxes).boundsOf? id = some b := by
  have hcell : toString cell ∈ boxes.map (·.1) := by
    rw [hnames, h.names.mem_iff]
    refine List.mem_map_of_mem ?_
    rcases Model.mem_entities_iff.mp hid with ⟨g, hg, -, rfl⟩ | ⟨n, hn, -, rfl⟩
    · exact List.mem_append_left _ (List.mem_map_of_mem hg)
    · exact List.mem_append_right _ (List.mem_map_of_mem hn)
  obtain ⟨⟨name, b⟩, hb, rfl⟩ := List.mem_map.mp hcell
  refine ⟨b, hb, ?_⟩
  unfold Model.boundsOf?
  rcases Model.mem_entities_iff.mp hid with ⟨g, hg, rfl, rfl⟩ | ⟨n, hn, rfl, rfl⟩
  · have hnode : (written m boxes).node? g.id = none := by
      rw [Model.node?, List.find?_eq_none]
      intro n' hn'
      obtain ⟨n, hn, rfl⟩ := List.mem_map.mp hn'
      simpa [(writeNode_id boxes n).1] using Ne.symm (hdisjoint g hg n hn)
    rw [hnode, group?_written hm hg]
    exact h.bounds?_writeGroup hnames hb
  · rw [node?_written hm hn]
    exact h.bounds?_writeNode hnames hseparates hn (hfree n hn) hb

end

section

variable [ExactScalar α] (h : HoldsModel m container root) (hnames : boxes.map (·.1) = root.names)
  (hseparates : NestedLayout.Separates gap padding root boxes)
  (hfree : ∀ n ∈ m.nodes, n.position = none)
include h hnames hseparates hfree

omit hfree in
/-- A group has room around what the answer gives to a child of its container. -/
theorem HoldsModel.surrounds_child {g : Model.Group α} (hg : g ∈ m.groups) {c : Frame α}
    (hc : c ∈ (container g).children) {b : Bounds α}
    (hb : (writeGroup boxes g).bounds? = some b) :
    ∃ inner, (c.id, inner) ∈ boxes ∧ Bounds.Surrounds padding b inner := by
  have hcontainer : container g ∈ root.inside :=
    h.inside.mem_iff.mpr (List.mem_append_left _ (List.mem_map_of_mem hg))
  obtain ⟨outer, inner, houter, hinner, hsurrounds⟩ := hseparates.surrounds _ hcontainer _ hc
  rw [h.group_name g hg] at houter
  obtain rfl := Option.some.inj (hb.symm.trans (h.bounds?_writeGroup hnames houter))
  exact ⟨inner, hinner, hsurrounds⟩

/-- Every group has room around its members in the box that the answer gives it. -/
theorem HoldsModel.surroundsMembers_written :
    ∀ g ∈ (written m boxes).groups, SurroundsMembers padding (written m boxes) g := by
  intro g' hg' b hb member hmember
  obtain ⟨g, hg, rfl⟩ := List.mem_map.mp hg'
  rw [(writeGroup_id boxes g).1] at hmember
  rcases mem_memberBoxes.mp hmember with ⟨n', hn', hgroup, hbox⟩ | ⟨inner', hinner', hparent, hbox⟩
  · obtain ⟨n, hn, rfl⟩ := List.mem_map.mp hn'
    rw [(writeNode_id boxes n).2] at hgroup
    have hchild : leafOf n ∈ (container g).children := by
      rw [h.children g hg]
      exact List.mem_append_right _ (List.mem_map_of_mem (Model.mem_members.mpr ⟨hn, hgroup⟩))
    obtain ⟨inside, hinside, hsurrounds⟩ := h.surrounds_child hnames hseparates hg hchild hb
    rw [leafOf_id] at hinside
    obtain rfl := Option.some.inj
      (hbox.symm.trans (h.bounds?_writeNode hnames hseparates hn (hfree n hn) hinside))
    exact hsurrounds
  · obtain ⟨inner, hinner, rfl⟩ := List.mem_map.mp hinner'
    rw [(writeGroup_id boxes inner).2] at hparent
    have hchild : container inner ∈ (container g).children := by
      rw [h.children g hg]
      exact List.mem_append_left _
        (List.mem_map_of_mem (Model.mem_innerGroups.mpr ⟨hinner, hparent⟩))
    obtain ⟨inside, hinside, hsurrounds⟩ := h.surrounds_child hnames hseparates hg hchild hb
    rw [h.group_name inner hinner] at hinside
    obtain rfl := Option.some.inj (hbox.symm.trans (h.bounds?_writeGroup hnames hinside))
    exact hsurrounds

/-- Two boxes of which neither holds the other have the gap in between. -/
theorem HoldsModel.apartBy_of_not_inside (hm : m.Nested) (hcells : m.WellNumbered)
    (hdisjoint : ∀ g ∈ m.groups, ∀ n ∈ m.nodes, g.id ≠ n.id) {a b : String}
    {aCell bCell : Nat} (ha : (a, aCell) ∈ m.entities) (hb : (b, bCell) ∈ m.entities)
    (hne : a ≠ b) (hab : ¬ Relation.TransGen m.holders.Inside a b)
    (hba : ¬ Relation.TransGen m.holders.Inside b a) :
    ∃ A B, (written m boxes).boundsOf? a = some A ∧ (written m boxes).boundsOf? b = some B ∧
      A.ApartBy gap B := by
  obtain ⟨A, hA, haBox⟩ := h.exists_box hnames hseparates hm hfree hdisjoint ha
  obtain ⟨B, hB, hbBox⟩ := h.exists_box hnames hseparates hm hfree hdisjoint hb
  refine ⟨A, B, haBox, hbBox, ?_⟩
  rcases hseparates.apart _ hA _ hB with hsame | hapart | hholds | hholds
  · exact absurd (hcells.id_unique ha hb hsame) hne
  · exact hapart
  · exact absurd (h.inside_of_holds hm hcells ha hb hholds) hba
  · exact absurd (h.inside_of_holds hm hcells hb ha hholds) hab

end

end Layout

end DiagramPress
