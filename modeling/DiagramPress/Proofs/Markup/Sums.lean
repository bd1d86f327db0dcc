-- Where a cell of a document lies: the values written for the cell and for
-- everything around it add up to its place. Each of them is rounded, so each may
-- add half a hundredth to the error.
import DiagramPress.Proofs.Number.Fractions
import DiagramPress.Proofs.Layout.Growth
import DiagramPress.Proofs.Markup.Faults
import DiagramPress.Proofs.Model.Forest
import DiagramPress.Proofs.Model.Unplaced
import Mathlib.Data.List.Pairwise

namespace DiagramPress.Markup

/-! ## Adding up -/

/-- A direction in which places are measured. -/
inductive Axis where
  | x
  | y

namespace Axis

/-- The attribute that holds a value of the axis. -/
def name : Axis → String
  | x => "x"
  | y => "y"

def of {α : Type} : Axis → Point α → α
  | x, p => p.x
  | y, p => p.y

end Axis

namespace FoundCell

/-- The value that is written in the geometry of a cell. -/
def written? (cell : FoundCell) (axis : Axis) : Option ℚ :=
  (cell.geometry?.bind fun g => g.get? axis.name).bind fun value =>
    NumberText.read? (String.ofList value)

/-- What a cell adds to the number of values, and what to their sum. -/
def adds (cell : FoundCell) (axis : Axis) : Nat × ℚ :=
  match cell.written? axis with
  | some value => (1, value)
  | none => (0, 0)

end FoundCell

/-- Along the parents that are written in the cells, from the cell with the id
outwards, so many values are written, and this is their sum. -/
inductive AddsUp (cells : List FoundCell) (axis : Axis) : List Char → Nat → ℚ → Prop
  | outermost {cell : FoundCell} {id : List Char} (hcell : cell ∈ cells)
      (hid : cell.get? "id" = some id) (hparent : cell.get? "parent" = none) :
      AddsUp cells axis id (cell.adds axis).1 (cell.adds axis).2
  | inside {cell : FoundCell} {id parent : List Char} {count : Nat} {sum : ℚ}
      (hcell : cell ∈ cells) (hid : cell.get? "id" = some id)
      (hparent : cell.get? "parent" = some parent) (h : AddsUp cells axis parent count sum) :
      AddsUp cells axis id ((cell.adds axis).1 + count) ((cell.adds axis).2 + sum)

/-- The cell with the id lies at a point: along each axis there is a sum for it, and
every sum is the coordinate up to half a hundredth for each value in it. -/
def LiesAt (cells : List FoundCell) (id : Nat) (p : Point ℚ) : Prop :=
  ∀ axis : Axis, (∃ count sum, AddsUp cells axis (toString id).toList count sum) ∧
    ∀ count sum, AddsUp cells axis (toString id).toList count sum →
      |sum - axis.of p| ≤ count * (5 / 1000)

/-! ## What is written for a vertex -/

theorem get?_boxAttributes (box : Bounds ℚ) (axis : Axis) :
    Attributes.get? ((boxAttributes box).map Attribute.found) axis.name =
      some (coordinate (axis.of box.corner)).toList := by
  have hplain (v : ℚ) : guardChars (coordinate v).toList = (coordinate v).toList :=
    guardChars_eq_self (Fraction.not_reserved_toString (hundredths v))
  rw [get?_map_found]
  cases axis with
  | x =>
    have hvalue : valueOf? (boxAttributes box) "x" = some (coordinate box.x) := by
      simp [valueOf?, boxAttributes]
    rw [Axis.name, hvalue, Option.map_some, hplain]
    rfl
  | y =>
    have hvalue : valueOf? (boxAttributes box) "y" = some (coordinate box.y) := by
      simp [valueOf?, boxAttributes]
    rw [Axis.name, hvalue, Option.map_some, hplain]
    rfl

/-- A vertex adds its own offset, rounded. -/
theorem adds_vertex (id : Nat) (value style : String) (parent : Nat) (box : Bounds ℚ)
    (axis : Axis) :
    ((Cell.vertex id value style parent box).element.found cellDepth).adds axis =
      (1, hundredths (axis.of box.corner)) := by
  have hread (v : ℚ) :
      (NumberText.read? (String.ofList (coordinate v).toList) : Option ℚ) = some (hundredths v) := by
    rw [String.ofList_toList]
    exact Fraction.read?_toString (hundredths v)
  rw [FoundCell.adds, FoundCell.written?, geometry?_vertex, Option.bind_some,
    get?_boxAttributes, Option.bind_some, hread]

/-! ## Cells by their ids -/

section

variable {m : Model ℚ} {modified : String}

theorem eq_of_get?_id (hm : m.WellNumbered) {c c' : FoundCell}
    (hc : c ∈ cells (encode m modified).toList) (hc' : c' ∈ cells (encode m modified).toList)
    {id : List Char} (hid : c.get? "id" = some id) (hid' : c'.get? "id" = some id) : c = c' := by
  have hnodup := nodup_ids hm
  rw [← ids_encode m modified, List.Nodup, List.pairwise_filterMap] at hnodup
  by_contra hne
  have hsymm : Std.Symm fun a b : FoundCell => ∀ v, a.get? "id" = some v →
      ∀ w, b.get? "id" = some w → v ≠ w :=
    ⟨fun a b h v hv w hw he => h w hw v hv he.symm⟩
  exact hnodup.forall hc hc' hne id hid id hid' rfl

theorem mem_cells_foundation {e : Element} (h : e ∈ foundation) :
    e.found cellDepth ∈ cells (encode m modified).toList := by
  rw [cells_encode]
  exact List.mem_map_of_mem (List.mem_append_left _ h)

theorem mem_cells_group {g : Model.Group ℚ} (h : g ∈ m.groups) :
    (groupCell m g).element.found cellDepth ∈ cells (encode m modified).toList := by
  rw [cells_encode]
  refine List.mem_map_of_mem (List.mem_append_right _ (List.mem_map_of_mem ?_))
  exact List.mem_append_left _ (List.mem_append_left _ (List.mem_map_of_mem h))

theorem mem_cells_node {n : Model.Node ℚ} (h : n ∈ m.nodes) :
    (nodeCell m n).element.found cellDepth ∈ cells (encode m modified).toList := by
  rw [cells_encode]
  refine List.mem_map_of_mem (List.mem_append_right _ (List.mem_map_of_mem ?_))
  exact List.mem_append_left _ (List.mem_append_right _ (List.mem_map_of_mem h))

/-! ## One step outwards -/

/-- Where the cells of a model stand; what is not placed stands at the origin. -/
inductive StandsAt (m : Model ℚ) : Nat → Point ℚ → Prop
  | root : StandsAt m Model.rootCell Point.origin
  | layer : StandsAt m Model.layerCell Point.origin
  | group {g : Model.Group ℚ} (hg : g ∈ m.groups) :
      StandsAt m g.cell (g.position.getD Point.origin)
  | node {n : Model.Node ℚ} (hn : n ∈ m.nodes) {p : Point ℚ} (hp : n.position = some p) :
      StandsAt m n.cell p

/-- Either all groups are placed, or none has a position. -/
def EvenlyPlaced (m : Model ℚ) : Prop :=
  (∀ g ∈ m.groups, g.bounds?.isSome) ∨ ∀ g ∈ m.groups, g.position = none

/-- The point where the group with an id stands, if there is one. -/
def outerCorner (m : Model ℚ) (id : Option String) : Point ℚ :=
  ((id.bind m.group?).bind (·.position)).getD Point.origin

theorem of_relativeTo? (axis : Axis) (p : Point ℚ) (base : Option (Point ℚ)) :
    axis.of (relativeTo? p base) = axis.of p - axis.of (base.getD Point.origin) := by
  have hzero : (Point.origin : Point ℚ).x = 0 ∧ (Point.origin : Point ℚ).y = 0 := ⟨rfl, rfl⟩
  cases base with
  | none => cases axis <;> simp [relativeTo?, Axis.of, hzero]
  | some base => cases axis <;> rfl

theorem of_corner_groupBox (hm : EvenlyPlaced m) {g : Model.Group ℚ} (hg : g ∈ m.groups)
    (axis : Axis) : axis.of (groupBox m g).corner =
      axis.of (g.position.getD Point.origin) - axis.of (outerCorner m g.parent) := by
  rcases hm with hplaced | hunplaced
  · obtain ⟨hposition, hsize⟩ := Model.Group.isSome_bounds?_iff.mp (hplaced g hg)
    obtain ⟨p, hp⟩ := Option.isSome_iff_exists.mp hposition
    obtain ⟨s, hs⟩ := Option.isSome_iff_exists.mp hsize
    have hbox : (groupBox m g).corner =
        relativeTo? p ((g.parent.bind m.group?).bind (·.position)) := by
      rw [groupBox, hp, hs]
      rfl
    rw [hbox, of_relativeTo?, hp]
    rfl
  · have hbox : (groupBox m g).corner = Point.origin := by
      rw [groupBox, hunplaced g hg]
      rfl
    have houter : outerCorner m g.parent = Point.origin := by
      rw [outerCorner]
      cases hparent : g.parent.bind m.group? with
      | none => rfl
      | some outer =>
        obtain ⟨id, -, hfind⟩ := Option.bind_eq_some_iff.mp hparent
        rw [Option.bind_some, hunplaced outer (List.mem_of_find?_eq_some hfind)]
        rfl
    rw [hbox, houter, hunplaced g hg, Option.getD_none, sub_self]
    cases axis <;> rfl

theorem of_corner_nodeBox {n : Model.Node ℚ} {p : Point ℚ} (hp : n.position = some p)
    (axis : Axis) : axis.of (nodeBox m n).corner = axis.of p - axis.of (outerCorner m n.group) := by
  have hbox : (nodeBox m n).corner = relativeTo? p ((n.group.bind m.group?).bind (·.position)) := by
    rw [nodeBox, hp]
    rfl
  rw [hbox, of_relativeTo?]
  rfl

/-- What is written in a cell leads from where its parent stands to where it stands itself. -/
structure StepsFrom (cell : FoundCell) (outer : Nat) (p q : Point ℚ) : Prop where
  parent : cell.get? "parent" = some (toString outer).toList
  close : ∀ axis : Axis,
    |(cell.adds axis).2 - (axis.of p - axis.of q)| ≤ (cell.adds axis).1 * (5 / 1000)

theorem stepsFrom_vertex {id outer : Nat} {value style : String} {box : Bounds ℚ}
    {p q : Point ℚ} (h : ∀ axis : Axis, axis.of box.corner = axis.of p - axis.of q) :
    StepsFrom ((Cell.vertex id value style outer box).element.found cellDepth) outer p q where
  parent := (saysVertex_found id value style outer box).parent
  close axis := by
    rw [adds_vertex, ← h axis, Nat.cast_one, one_mul]
    exact abs_hundredths_sub_le _

theorem foundation_cells (m : Model ℚ) (modified : String) : ∃ root layer : FoundCell,
    root ∈ cells (encode m modified).toList ∧ layer ∈ cells (encode m modified).toList ∧
    root.get? "id" = some (toString Model.rootCell).toList ∧ root.get? "parent" = none ∧
    layer.get? "id" = some (toString Model.layerCell).toList ∧
    layer.get? "parent" = some (toString Model.rootCell).toList ∧
    root.geometry? = none ∧ layer.geometry? = none := by
  refine ⟨(Element.lone "mxCell" [⟨"id", toString Model.rootCell⟩]).found cellDepth,
    (Element.lone "mxCell" [⟨"id", toString Model.layerCell⟩,
      ⟨"parent", toString Model.rootCell⟩]).found cellDepth,
    mem_cells_foundation List.mem_cons_self,
    mem_cells_foundation (List.mem_cons_of_mem _ List.mem_cons_self), ?_⟩
  decide

theorem adds_of_no_box {cell : FoundCell} (h : cell.geometry? = none) (axis : Axis) :
    cell.adds axis = (0, 0) := by
  rw [FoundCell.adds, FoundCell.written?, h]
  rfl

variable (hnested : m.Nested) (hhangs : ∀ g ∈ m.groups, m.HangsBelowParent g)

include hnested in
theorem group?_of_mem {g : Model.Group ℚ} (hg : g ∈ m.groups) : m.group? g.id = some g :=
  Description.find?_of_nodup hnested.groups_nodup hg

include hnested hhangs in
/-- The cell that a group hangs below stands where the group around it does. -/
theorem standsAt_outer {g : Model.Group ℚ} (hg : g ∈ m.groups) :
    StandsAt m g.parentCell (outerCorner m g.parent) := by
  rcases hhangs g hg with ⟨p, hp, hparent, hcell⟩ | ⟨hnone, hcell⟩
  · have hcorner : outerCorner m g.parent = p.position.getD Point.origin := by
      rw [outerCorner, hparent, Option.bind_some, group?_of_mem hnested hp, Option.bind_some]
    rw [hcell, hcorner]
    exact .group hp
  · have hcorner : outerCorner m g.parent = Point.origin := by
      have hfind : g.parent.bind m.group? = none := by
        refine Option.bind_eq_none_iff.mpr fun id hid => List.find?_eq_none.mpr fun p hp he => ?_
        exact hnone p hp (by rw [hid, of_decide_eq_true he])
      rw [outerCorner, hfind]
      rfl
    rw [hcell, hcorner]
    exact .layer

theorem standsAt_nodeParent (n : Model.Node ℚ) :
    StandsAt m (nodeParent m n) (outerCorner m n.group) := by
  rw [nodeParent, outerCorner]
  cases hgroup : n.group.bind m.group? with
  | none => exact .layer
  | some g =>
    obtain ⟨id, -, hfind⟩ := Option.bind_eq_some_iff.mp hgroup
    exact .group (List.mem_of_find?_eq_some hfind)

include hnested hhangs in
/-- Every cell is found by its id. It is the root, or its parent stands somewhere and
what is written leads from there to the place of the cell. -/
theorem step_of_standsAt (modified : String) (hm : EvenlyPlaced m) {c : Nat} {p : Point ℚ}
    (h : StandsAt m c p) :
    ∃ cell ∈ cells (encode m modified).toList, cell.get? "id" = some (toString c).toList ∧
      ((cell.get? "parent" = none ∧ p = Point.origin ∧ ∀ axis, cell.adds axis = (0, 0)) ∨
        ∃ outer q, StandsAt m outer q ∧ StepsFrom cell outer p q) := by
  obtain ⟨root, layer, hroot, hlayer, hrootId, hrootParent, hlayerId, hlayerParent, hrootBox,
    hlayerBox⟩ := foundation_cells m modified
  cases h with
  | root =>
    exact ⟨root, hroot, hrootId, .inl ⟨hrootParent, rfl, adds_of_no_box hrootBox⟩⟩
  | layer =>
    refine ⟨layer, hlayer, hlayerId, .inr ⟨Model.rootCell, Point.origin, .root, hlayerParent, ?_⟩⟩
    intro axis
    simp [adds_of_no_box hlayerBox]
  | @group g hg =>
    refine ⟨_, mem_cells_group hg, (saysVertex_found _ _ _ _ _).id, .inr
      ⟨g.parentCell, outerCorner m g.parent, standsAt_outer hnested hhangs hg, ?_⟩⟩
    exact stepsFrom_vertex (of_corner_groupBox hm hg)
  | @node n hn p hp =>
    refine ⟨_, mem_cells_node hn, (saysVertex_found _ _ _ _ _).id, .inr
      ⟨nodeParent m n, outerCorner m n.group, standsAt_nodeParent n, ?_⟩⟩
    exact stepsFrom_vertex (of_corner_nodeBox hp)

/-! ## All steps outwards -/

include hnested hhangs in
/-- Every sum along the parents is the coordinate of the cell, up to the rounding. -/
theorem abs_sum_sub_le (hm : EvenlyPlaced m) (hnumbered : m.WellNumbered) {axis : Axis}
    {id : List Char} {count : Nat} {sum : ℚ}
    (h : AddsUp (cells (encode m modified).toList) axis id count sum) {c : Nat} {p : Point ℚ}
    (hc : id = (toString c).toList) (hp : StandsAt m c p) :
    |sum - axis.of p| ≤ count * (5 / 1000) := by
  induction h generalizing c p with
  | @outermost cell id hcell hid hparent =>
    subst hc
    obtain ⟨cell', hcell', hid', hcases⟩ := step_of_standsAt hnested hhangs modified hm hp
    obtain rfl := eq_of_get?_id hnumbered hcell hcell' hid hid'
    rcases hcases with ⟨-, rfl, hadds⟩ | ⟨outer, q, -, hstep⟩
    · have hzero : axis.of (Point.origin : Point ℚ) = 0 := by cases axis <;> rfl
      simp [hadds, hzero]
    · rw [hstep.parent] at hparent
      cases hparent
  | @inside cell id parent count sum hcell hid hparent _ ih =>
    subst hc
    obtain ⟨cell', hcell', hid', hcases⟩ := step_of_standsAt hnested hhangs modified hm hp
    obtain rfl := eq_of_get?_id hnumbered hcell hcell' hid hid'
    rcases hcases with ⟨hnone, -, -⟩ | ⟨outer, q, hq, hstep⟩
    · rw [hnone] at hparent
      cases hparent
    · have hrest := ih (Option.some.inj (hparent.symm.trans hstep.parent)) hq
      have hown := hstep.close axis
      calc |(cell.adds axis).2 + sum - axis.of p|
          = |((cell.adds axis).2 - (axis.of p - axis.of q)) + (sum - axis.of q)| := by
            congr 1
            ring
        _ ≤ |(cell.adds axis).2 - (axis.of p - axis.of q)| + |sum - axis.of q| := abs_add_le _ _
        _ ≤ (cell.adds axis).1 * (5 / 1000) + count * (5 / 1000) := add_le_add hown hrest
        _ = ((cell.adds axis).1 + count : Nat) * (5 / 1000) := by
            push_cast
            ring

/-- There are values to add for a cell. -/
def HasSum (m : Model ℚ) (modified : String) (axis : Axis) (c : Nat) : Prop :=
  ∃ count sum, AddsUp (cells (encode m modified).toList) axis (toString c).toList count sum

theorem hasSum_layer (axis : Axis) : HasSum m modified axis Model.layerCell := by
  obtain ⟨root, layer, hroot, hlayer, hrootId, hrootParent, hlayerId, hlayerParent, -⟩ :=
    foundation_cells m modified
  exact ⟨_, _, .inside hlayer hlayerId hlayerParent (.outermost hroot hrootId hrootParent)⟩

theorem HasSum.inside {axis : Axis} {id outer : Nat} {value style : String} {box : Bounds ℚ}
    (hmem : (Cell.vertex id value style outer box).element.found cellDepth ∈
      cells (encode m modified).toList) (h : HasSum m modified axis outer) :
    HasSum m modified axis id := by
  obtain ⟨count, sum, hsum⟩ := h
  have hsays := saysVertex_found id value style outer box
  exact ⟨_, _, .inside hmem hsays.id hsays.parent hsum⟩

include hnested hhangs in
theorem hasSum_group (axis : Axis) : ∀ g ∈ m.groups, HasSum m modified axis g.cell := by
  refine hnested.induction_inwards (fun g hg => ?_) (fun g hg ih inner hinner => ?_)
  · obtain ⟨hmem, hnone⟩ := Model.mem_outerGroups.mp hg
    rcases hhangs g hmem with ⟨p, -, hparent, -⟩ | ⟨-, hcell⟩
    · rw [hnone] at hparent
      cases hparent
    · exact .inside (mem_cells_group hmem) (hcell ▸ hasSum_layer axis)
  · obtain ⟨hmem, hsome⟩ := Model.mem_innerGroups.mp hinner
    rcases hhangs inner hmem with ⟨p, hp, hparent, hcell⟩ | ⟨hnone, -⟩
    · have hid : p.id = g.id := Option.some.inj (hparent.symm.trans hsome)
      have hsame : p = g := List.inj_on_of_nodup_map hnested.groups_nodup hp hg hid
      exact .inside (mem_cells_group hmem) (by rw [hcell, hsame]; exact ih)
    · exact absurd hsome (hnone g hg)

include hnested hhangs in
theorem hasSum_node (axis : Axis) : ∀ n ∈ m.nodes, HasSum m modified axis n.cell := by
  intro n hn
  refine .inside (mem_cells_node hn) ?_
  rw [nodeParent]
  cases hgroup : n.group.bind m.group? with
  | none => exact hasSum_layer axis
  | some g =>
    obtain ⟨id, -, hfind⟩ := Option.bind_eq_some_iff.mp hgroup
    exact hasSum_group hnested hhangs axis g (List.mem_of_find?_eq_some hfind)

include hnested hhangs in
/-- In the document of an evenly placed model everything placed lies at its place. -/
theorem liesAt_encode (hm : EvenlyPlaced m) (hnumbered : m.WellNumbered) (modified : String) :
    (∀ n ∈ m.nodes, ∀ p, n.position = some p →
      LiesAt (cells (encode m modified).toList) n.cell p) ∧
    ∀ g ∈ m.groups, ∀ b ∈ g.bounds?, LiesAt (cells (encode m modified).toList) g.cell b.corner := by
  refine ⟨fun n hn p hp axis => ⟨hasSum_node hnested hhangs axis n hn, fun count sum h => ?_⟩,
    fun g hg b hb axis => ⟨hasSum_group hnested hhangs axis g hg, fun count sum h => ?_⟩⟩
  · exact abs_sum_sub_le hnested hhangs hm hnumbered h rfl (.node hn hp)
  · have hcorner : b.corner = g.position.getD Point.origin := by
      obtain ⟨hposition, hsize⟩ := Model.Group.isSome_bounds?_iff.mp (Option.isSome_of_mem hb)
      obtain ⟨p, hp⟩ := Option.isSome_iff_exists.mp hposition
      obtain ⟨s, hs⟩ := Option.isSome_iff_exists.mp hsize
      rw [Model.Group.bounds?, hp, hs] at hb
      obtain rfl := Option.some.inj hb
      rw [hp]
      rfl
    rw [hcorner]
    exact abs_sum_sub_le hnested hhangs hm hnumbered h rfl (.group hg)

end

end DiagramPress.Markup
