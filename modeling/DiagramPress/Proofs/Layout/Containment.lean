-- Groups around their members: when a group grows, the groups inside it have
-- grown already, so it ends up around all of them and around its nodes.
import DiagramPress.Proofs.Geometry.Covering
import DiagramPress.Proofs.Layout.DeepestFirst
import DiagramPress.Proofs.Layout.Growth
import DiagramPress.Proofs.Layout.Kept

namespace DiagramPress

open Model

namespace Layout

variable {α : Type}

/-! ## What a group holds directly -/

theorem mem_memberBoxes {m : Model α} {id : String} {b : Bounds α} :
    b ∈ memberBoxes m id ↔ (∃ n ∈ m.nodes, n.group = some id ∧ n.bounds? = some b) ∨
      ∃ g ∈ m.groups, g.parent = some id ∧ g.bounds? = some b := by
  simp only [memberBoxes, List.mem_append, List.mem_filterMap, List.mem_filter, decide_eq_true_eq,
    and_assoc]

section Growing

variable [Scalar α] {padding : Padding α} {m : Model α}

theorem nesting_growAt (index : Nat) : (growAt padding m index).nesting = m.nesting :=
  nesting_congr (growAt_withoutPlaces padding m index)

/-- What a group holds stays as it is while a group grows that it does not hold. -/
theorem memberBoxes_growAt {index : Nat} {id : String}
    (h : ∀ inner, m.nesting[index]? ≠ some (inner, some id)) :
    memberBoxes (growAt padding m index) id = memberBoxes m id := by
  have hgroups : ((growAt padding m index).groups.filter fun g => g.parent = some id) =
      m.groups.filter fun g => g.parent = some id := by
    rw [growAt]
    by_cases hlt : index < m.groups.length
    · obtain ⟨before, g, after, hsplit, rfl, hmodify⟩ :=
        List.exists_of_modify (growAround padding m) hlt
      have hout : g.parent ≠ some id := fun hin => h g.id (by simp [nesting, hsplit, hin])
      have hgrown : (growAround padding m g).parent ≠ some id := by rwa [growAround_parent]
      rw [hmodify, List.filter_append, List.filter_cons_of_neg (by simpa using hgrown), hsplit,
        List.filter_append, List.filter_cons_of_neg (by simpa using hout)]
    · rw [List.modify_eq_self (Nat.le_of_not_lt hlt)]
  rw [memberBoxes, hgroups]
  rfl

/-! ## Groups grow one after the other -/

theorem getElem?_foldl_growAt {order : List Nat} {i : Nat} (h : i ∉ order) :
    (order.foldl (growAt padding) m).groups[i]? = m.groups[i]? := by
  induction order generalizing m with
  | nil => rfl
  | cons first rest ih =>
    rw [List.mem_cons, not_or] at h
    rw [List.foldl_cons, ih h.2, getElem?_growAt, Option.map_congr fun _ _ => if_neg (Ne.symm h.1),
      Option.map_id']

theorem memberBoxes_foldl_growAt {order : List Nat} {id : String}
    (h : ∀ index ∈ order, ∀ inner, m.nesting[index]? ≠ some (inner, some id)) :
    memberBoxes (order.foldl (growAt padding) m) id = memberBoxes m id := by
  induction order generalizing m with
  | nil => rfl
  | cons first rest ih =>
    rw [List.foldl_cons, ih, memberBoxes_growAt (h first List.mem_cons_self)]
    rw [nesting_growAt]
    exact fun index hindex => h index (List.mem_cons_of_mem _ hindex)

end Growing

section Exact

variable [ExactScalar α] {padding : Padding α} {m : Model α}

/-- If a group has a box, there is room in it around everything that it holds directly. -/
def SurroundsMembers (padding : Padding α) (m : Model α) (g : Model.Group α) : Prop :=
  ∀ b ∈ g.bounds?, ∀ member ∈ memberBoxes m g.id, Bounds.Surrounds padding b member

theorem SurroundsMembers.congr {m' : Model α} {g : Model.Group α}
    (h : SurroundsMembers padding m g) (hsame : memberBoxes m' g.id = memberBoxes m g.id) :
    SurroundsMembers padding m' g := by
  rw [SurroundsMembers, hsame]
  exact h

/-- A group that grows surrounds what it holds at that time. -/
theorem surroundsMembers_growAround (g : Model.Group α) :
    SurroundsMembers padding m (growAround padding m g) := by
  intro b hb member hmember
  rw [growAround_id] at hmember
  obtain ⟨start, -, rfl⟩ :=
    Option.map_eq_some_iff.mp ((bounds?_growAround padding m g).symm.trans hb)
  exact Bounds.covers_padded_iff.mp
    ((Bounds.foldl_union_covers (padded padding) _ start).2 member hmember)

/-- A group that grows first surrounds what it holds in the end, if nothing of that
grows later: neither the group nor what it holds is touched again. -/
theorem surroundsMembers_first {i : Nat} {rest : List Nat} (honce : i ∉ rest)
    (hself : ¬ m.nesting.InsideAt i i) (hlater : ∀ j ∈ rest, ¬ m.nesting.InsideAt j i)
    {g : Model.Group α} (hg : ((i :: rest).foldl (growAt padding) m).groups[i]? = some g) :
    SurroundsMembers padding ((i :: rest).foldl (growAt padding) m) g := by
  rw [List.foldl_cons] at hg ⊢
  rw [getElem?_foldl_growAt honce, getElem?_growAt, Option.map_eq_some_iff] at hg
  obtain ⟨g, hfirst, rfl⟩ := hg
  have hat : m.nesting[i]? = some (g.id, g.parent) := by
    rw [nesting, List.getElem?_map, hfirst, Option.map_some]
  rw [if_pos rfl]
  refine SurroundsMembers.congr (surroundsMembers_growAround g) ?_
  rw [growAround_id, memberBoxes_foldl_growAt, memberBoxes_growAt]
  · exact fun inner hinner => hself ⟨inner, g.id, g.parent, hinner, hat⟩
  · rw [nesting_growAt]
    exact fun j hj inner hinner => hlater j hj ⟨inner, g.id, g.parent, hinner, hat⟩

/-- When groups grow in an order in which none comes before a group directly inside
it, each of them surrounds what it holds in the end. -/
theorem surroundsMembers_foldl_growAt {order : List Nat} (hnodup : order.Nodup)
    (hpairs : order.Pairwise fun i j => ¬ m.nesting.InsideAt j i)
    (hself : ∀ i, ¬ m.nesting.InsideAt i i) {i : Nat} (hi : i ∈ order) {g : Model.Group α}
    (hg : (order.foldl (growAt padding) m).groups[i]? = some g) :
    SurroundsMembers padding (order.foldl (growAt padding) m) g := by
  -- Nesting stays as it is while groups grow, so the rest of the order is again one
  -- in which inner groups come first.
  induction order generalizing m with
  | nil => exact absurd hi List.not_mem_nil
  | cons first rest ih =>
    rw [List.nodup_cons] at hnodup
    rw [List.pairwise_cons] at hpairs
    rcases List.mem_cons.mp hi with rfl | hi
    · exact surroundsMembers_first hnodup.1 (hself i) hpairs.1 hg
    · refine ih hnodup.2 ?_ ?_ hi hg
      · rw [nesting_growAt]
        exact hpairs.2
      · rw [nesting_growAt]
        exact hself

variable (hids : (m.groups.map (·.id)).Nodup) (hforest : m.nesting.IsForest)
include hids hforest

/-- In the end every group surrounds what it holds. -/
theorem surroundsMembers_encloseMembers {g : Model.Group α}
    (hg : g ∈ (encloseMembers padding m).groups) :
    SurroundsMembers padding (encloseMembers padding m) g := by
  obtain ⟨i, hi⟩ := List.mem_iff_getElem?.mp hg
  have hlength : (encloseMembers padding m).groups.length = m.groups.length := by
    have hsame := congrArg List.length (nesting_congr (encloseMembers_withoutPlaces padding m))
    simpa only [nesting, List.length_map] using hsame
  have hlt : i < m.groups.length := hlength ▸ (List.getElem?_eq_some_iff.mp hi).1
  exact surroundsMembers_foldl_growAt (nodup_deepestFirst m)
    (pairwise_not_insideAt hids hforest) (not_insideAt_self hforest)
    (mem_deepestFirst (List.getElem?_eq_getElem hlt)) hi

end Exact

end Layout

/-! ## What lies in what -/

namespace Model

variable {α : Type} [ExactScalar α]

/-- Every group has a box, with room in it around everything placed that is
directly in the group. -/
structure Encloses (padding : Padding α) (m : Model α) : Prop where
  boxed : ∀ g ∈ m.groups, g.bounds?.isSome
  nodes : ∀ g ∈ m.groups, ∀ n ∈ m.nodes, n.group = some g.id →
    ∀ outer ∈ g.bounds?, ∀ inner ∈ n.bounds?, Bounds.Surrounds padding outer inner
  groups : ∀ g ∈ m.groups, ∀ h ∈ m.groups, h.parent = some g.id →
    ∀ outer ∈ g.bounds?, ∀ inner ∈ h.bounds?, Bounds.Surrounds padding outer inner

/-- The box of every group covers everything placed in it, however deep it lies. -/
structure CoversContents (m : Model α) : Prop where
  nodes : ∀ g ∈ m.groups, ∀ n ∈ m.nodes,
    (∃ id, n.group = some id ∧ Relation.ReflTransGen m.nesting.Inside id g.id) →
      ∀ outer ∈ g.bounds?, ∀ inner ∈ n.bounds?, outer.Covers inner
  groups : ∀ g ∈ m.groups, ∀ h ∈ m.groups, Relation.TransGen m.nesting.Inside h.id g.id →
    ∀ outer ∈ g.bounds?, ∀ inner ∈ h.bounds?, outer.Covers inner

theorem encloses_encloseMembers (padding : Padding α) {m : Model α}
    (hids : (m.groups.map (·.id)).Nodup) (hforest : m.nesting.IsForest)
    (hboxed : ∀ g ∈ m.groups, g.bounds?.isSome) :
    (Layout.encloseMembers padding m).Encloses padding where
  boxed := Layout.isSome_bounds?_encloseMembers padding hboxed
  nodes _ hg n hn hgroup outer houter inner hinner :=
    Layout.surroundsMembers_encloseMembers hids hforest hg outer houter inner
      (Layout.mem_memberBoxes.mpr (.inl ⟨n, hn, hgroup, hinner⟩))
  groups _ hg h hh hparent outer houter inner hinner :=
    Layout.surroundsMembers_encloseMembers hids hforest hg outer houter inner
      (Layout.mem_memberBoxes.mpr (.inr ⟨h, hh, hparent, hinner⟩))

section

variable {padding : Padding α} {m : Model α} (hm : m.Encloses padding) (hpadding : padding.Nonneg)
include hm hpadding

/-- What the groups with an id cover, every group on the way outwards covers as well. -/
theorem Encloses.covers_outwards {id outerId : String} {inner : Bounds α}
    (hstart : ∀ g ∈ m.groups, g.id = id → ∀ outer ∈ g.bounds?, outer.Covers inner)
    (hway : Relation.ReflTransGen m.nesting.Inside id outerId) :
    ∀ g ∈ m.groups, g.id = outerId → ∀ outer ∈ g.bounds?, outer.Covers inner := by
  induction hway with
  | refl => exact hstart
  | tail _ hstep ih =>
    rintro g hg rfl outer houter
    obtain ⟨between, hbetween, hid, hparent⟩ := inside_iff.mp hstep
    obtain ⟨b, hb⟩ := Option.isSome_iff_exists.mp (hm.boxed between hbetween)
    have hdirect := hm.groups g hg between hbetween hparent outer houter b hb
    exact (hdirect.covers hpadding).trans (ih between hbetween hid b hb)

theorem Encloses.coversContents (hids : (m.groups.map (·.id)).Nodup) : m.CoversContents where
  nodes := by
    rintro g hg n hn ⟨id, hgroup, hway⟩ outer houter inner hinner
    refine hm.covers_outwards hpadding ?_ hway g hg rfl outer houter
    rintro direct hdirect rfl b hb
    exact (hm.nodes direct hdirect n hn hgroup b hb inner hinner).covers hpadding
  groups := by
    intro g hg h hh hway outer houter inner hinner
    refine hm.covers_outwards hpadding ?_ hway.to_reflTransGen g hg rfl outer houter
    intro same hsame hid b hb
    obtain rfl := List.inj_on_of_nodup_map hids hsame hh hid
    obtain rfl := Option.some.inj (hb.symm.trans hinner)
    exact .refl b

end

/-- If an answer has an entry for every group, then after the layout every group
has room in its box around all that is directly inside, wherever nodes were placed
by hand. So if no padding is negative, the group covers all that is inside, however
deep. -/
theorem groups_enclose_their_members [NumberText α] (m : Model α) (choice : LayoutChoice α)
    (engine : LayoutEngine α) (settings : LayoutSettings α) {method : Method} {answer : Frame α}
    (hids : (m.groups.map (·.id)).Nodup) (hforest : m.nesting.IsForest)
    (hmethod : Layout.methodOf? choice.algorithm = some method)
    (hanswer : engine (Layout.request m method choice settings) = .ok answer)
    (hentries : ∀ g ∈ m.groups, toString g.cell ∈ answer.names) :
    ∃ m', m.layout choice engine settings = .ok m' ∧ m'.nesting = m.nesting ∧
      m'.Encloses settings.groupPadding ∧
      (settings.groupPadding.Nonneg → m'.CoversContents) := by
  have hlayout : m.layout choice engine settings =
      .ok (Layout.encloseMembers settings.groupPadding (Layout.writeBack m answer)) := by
    rw [layout, hmethod]
    simp only [hanswer, Except.map]
  have hkept := withoutPlaces_layout hlayout
  have hwritten := Layout.writeBack_withoutPlaces m answer
  have hencloses := encloses_encloseMembers settings.groupPadding
    ((group_ids_congr hwritten).symm ▸ hids) ((nesting_congr hwritten).symm ▸ hforest)
    (Layout.isSome_bounds?_writeBack hentries)
  exact ⟨_, hlayout, nesting_congr hkept, hencloses, fun hpadding =>
    hencloses.coversContents hpadding ((group_ids_congr hkept).symm ▸ hids)⟩

/-- A group in another one that is described after it, with a node placed by hand. -/
def nestedModel : Model ℚ where
  title := "nested"
  background := "#ffffff"
  groups :=
    [⟨"inner", 2, "Inner", some "outer", 3, Style.empty, none, none⟩,
      ⟨"outer", 3, "Outer", none, layerCell, Style.empty, none, none⟩]
  nodes :=
    [⟨"a", 4, "A", Style.empty, some "inner", some ⟨-30, 500⟩, ⟨40, 20⟩⟩,
      ⟨"b", 5, "B", Style.empty, some "outer", none, ⟨40, 20⟩⟩]
  edges := []

/-- An answer that knows nothing of the place of the first node. -/
def nestedAnswer : Frame ℚ :=
  let a : Frame ℚ := ⟨"4", none, none, some 40, some 20, [], [], .empty⟩
  let b : Frame ℚ := ⟨"5", some 60, some 5, some 40, some 20, [], [], .empty⟩
  let inner : Frame ℚ := ⟨"2", some 5, some 5, some 40, some 20, [a], [], .empty⟩
  let outer : Frame ℚ := ⟨"3", some 10, some 20, some 100, some 50, [inner, b], [], .empty⟩
  ⟨"root", none, none, none, none, [outer], [], .empty⟩

theorem a_node_far_away_is_enclosed :
    nestedModel.nesting.IsForest ∧
      ∃ m', nestedModel.layout LayoutChoice.default (fun _ => .ok nestedAnswer)
          LayoutSettings.default = .ok m' ∧
        m'.Encloses Padding.default ∧ m'.CoversContents ∧
        m'.groups.map (fun g => g.bounds?.map fun b => (b.x, b.y, b.right, b.bottom)) =
          [some (-50, 25, 55, 540), some (-70, -15, 130, 560)] := by
  have hforest : nestedModel.nesting.IsForest := by
    refine Nesting.isForest_of_rank (fun id => if id = "inner" then 1 else 0) ?_
    simp [Nesting.Inside, nesting, nestedModel]
  have hpadding : (Padding.default : Padding ℚ).Nonneg := by
    constructor <;> decide
  obtain ⟨m', hlayout, -, hencloses, hcovers⟩ := groups_enclose_their_members nestedModel
    LayoutChoice.default (fun _ => .ok nestedAnswer) LayoutSettings.default (by decide) hforest
    rfl rfl (by decide)
  refine ⟨hforest, m', hlayout, hencloses, hcovers hpadding, ?_⟩
  obtain rfl := Except.ok.inj hlayout
  decide +kernel

end Model

end DiagramPress
