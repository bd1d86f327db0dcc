-- Trees as they are drawn: on every level boxes stand side by side, levels follow each other
-- along the flow, and a parent stands over the middle of all that stands below it.
import Mathlib.Order.Bounds.Basic
import DiagramPress.Proofs.Layout.Descent
import DiagramPress.Proofs.Layout.TreeSpacing

namespace DiagramPress

variable {α : Type}

namespace Bounds

variable [Scalar α]

/-! ## Boxes and the flow -/

/-- Where a box starts across the flow. -/
def startAcross (flow : Flow) (b : Bounds α) : α := if flow.isVertical then b.x else b.y

def endAcross (flow : Flow) (b : Bounds α) : α := if flow.isVertical then b.right else b.bottom

/-- Across the flow, one box ends before the other one starts, with the gap in between. -/
def BesideBy (flow : Flow) (gap : α) (a b : Bounds α) : Prop :=
  a.endAcross flow + gap ≤ b.startAcross flow ∨ b.endAcross flow + gap ≤ a.startAcross flow

/-- Along the flow, the first box ends before the second one starts, with the gap in between. -/
def LeadsBy (flow : Flow) (gap : α) (a b : Bounds α) : Prop :=
  match flow with
  | .down => a.bottom + gap ≤ b.y
  | .up => b.bottom + gap ≤ a.y
  | .right => a.right + gap ≤ b.x
  | .left => b.right + gap ≤ a.x

end Bounds

namespace Placement

variable [Scalar α] (p : Placement α)

/-- The trees of the children, as roots and links. -/
def forest : SpanningForest := SpanningForest.ofEdges p.count p.edges

/-- The boxes of all that stand below a child in its tree, at any depth. -/
def boxesBelow (points : List (Point α)) (i : Nat) : Set (Bounds α) :=
  {b | ∃ j, p.forest.Above i j ∧ (p.boxes points)[j]? = some b}

end Placement

/-- A forest drawn along the flow from the origin on, level by level, with the gaps of the
placement and every parent over the middle of what stands below it. -/
structure Placement.IsTidy [ExactScalar α] (p : Placement α) (points : List (Point α)) :
    Prop where
  count : points.length = p.sizes.length
  nonneg : ∀ q ∈ points, q.Nonneg
  atOrigin : p.sizes ≠ [] → (∃ q ∈ points, q.x = 0) ∧ ∃ q ∈ points, q.y = 0
  levels : ∀ i < p.count, ∃! d, p.forest.HasDepth i d
  beside : ∀ i j d b c, i ≠ j → p.forest.HasDepth i d → p.forest.HasDepth j d →
    (p.boxes points)[i]? = some b → (p.boxes points)[j]? = some c →
    b.BesideBy p.flow p.nodeSpacing c
  leads : ∀ i j d e b c, d < e → p.forest.HasDepth i d → p.forest.HasDepth j e →
    (p.boxes points)[i]? = some b → (p.boxes points)[j]? = some c →
    b.LeadsBy p.flow p.layerSpacing c
  centred : ∀ i b, (p.boxes points)[i]? = some b → (∃ j, (i, j) ∈ p.forest.links) →
    ∃ lo hi, IsLeast (Bounds.startAcross p.flow '' p.boxesBelow points i) lo ∧
      IsGreatest (Bounds.endAcross p.flow '' p.boxesBelow points i) hi ∧
      b.startAcross p.flow + b.endAcross p.flow = lo + hi

namespace TreePlacement

/-! ## Stretches from end to end -/

section

variable [ExactScalar α] {a : Across α}

mutual

/-- A subtree has a box at either end of the stretch that it takes. -/
theorem ends_slots (hsize : ∀ i, 0 ≤ a.size i) (hgap : 0 ≤ a.gap) (start : α) (depth : Nat) :
    ∀ t, (∃ s ∈ slots a start depth t, s.place = start) ∧
      ∃ s ∈ slots a start depth t, s.place + a.size s.index = start + extent a t
  | .node i children => by
    rw [slots]
    by_cases hrow : rowExtent a children ≤ a.size i
    · have hextent : extent a (.node i children) = a.size i := by
        rw [extent_node, max_eq_left hrow]
      rw [hextent, sub_self, zero_div, add_zero]
      exact ⟨⟨_, List.mem_cons_self, rfl⟩, ⟨_, List.mem_cons_self, rfl⟩⟩
    · have hextent : extent a (.node i children) = rowExtent a children := by
        rw [extent_node, max_eq_right (le_of_not_ge hrow)]
      have hne : children ≠ [] := by
        rintro rfl
        rw [rowExtent_nil] at hrow
        exact hrow (hsize i)
      have hends := ends_slotsIn hsize hgap start (depth + 1) children hne
      obtain ⟨⟨s, hs, hstart⟩, ⟨t, ht, hend⟩⟩ := hends
      rw [hextent, childrenExtent_eq, sub_self, zero_div, add_zero]
      exact ⟨⟨s, List.mem_cons_of_mem _ hs, hstart⟩, ⟨t, List.mem_cons_of_mem _ ht, hend⟩⟩

theorem ends_slotsIn (hsize : ∀ i, 0 ≤ a.size i) (hgap : 0 ≤ a.gap) (cursor : α) (depth : Nat) :
    ∀ ts, ts ≠ [] → (∃ s ∈ slotsIn a cursor depth ts, s.place = cursor) ∧
      ∃ s ∈ slotsIn a cursor depth ts, s.place + a.size s.index = cursor + rowExtent a ts
  | [], hne => absurd rfl hne
  | [t], _ => by
    rw [slotsIn, slotsIn, List.append_nil, rowExtent_singleton]
    exact ends_slots hsize hgap cursor depth t
  | t :: u :: rest, _ => by
    obtain ⟨⟨s, hs, hstart⟩, -⟩ := ends_slots hsize hgap cursor depth t
    obtain ⟨-, ⟨s', hs', hend⟩⟩ := ends_slotsIn hsize hgap (cursor + (extent a t + a.gap)) depth
      (u :: rest) (List.cons_ne_nil _ _)
    rw [slotsIn, rowExtent_cons_cons]
    refine ⟨⟨s, List.mem_append_left _ hs, hstart⟩, ⟨s', List.mem_append_right _ hs', ?_⟩⟩
    rw [hend, add_assoc]

end

/-- What is put into the middle of a room has the middle of the room. -/
theorem middle_eq (start size room : α) :
    let lead := (room - size) / @OfNat.ofNat α (nat_lit 2) (Scalar.instNumeral (nat_lit 2))
    start + lead + (start + lead + size) = start + (start + room) := by
  intro lead
  have hhalves : lead + lead = room - size := Scalar.half_add_half (room - size)
  linarith

end

/-! ## Stretches of subtrees -/

section

variable [Scalar α] {a : Across α}

theorem exists_slots_of_mem {ts : List Rose} {t : Rose} (ht : t ∈ ts) (cursor : α) (depth : Nat) :
    ∃ start, slots a start depth t ⊆ slotsIn a cursor depth ts := by
  induction ts generalizing cursor with
  | nil => exact absurd ht List.not_mem_nil
  | cons u rest ih =>
    rw [slotsIn]
    rcases List.mem_cons.mp ht with rfl | ht
    · exact ⟨cursor, List.subset_append_left _ _⟩
    · obtain ⟨start, hstart⟩ := ih ht (cursor + (extent a u + a.gap))
      exact ⟨start, List.Subset.trans hstart (List.subset_append_right _ _)⟩

/-- Every subtree has its slots from some start on. -/
theorem exists_slots_of_subtree {t u : Rose} (hu : u ∈ t.subtrees) (start : α) (depth : Nat) :
    ∃ start' depth', slots a start' depth' u ⊆ slots a start depth t := by
  induction t using Rose.induction generalizing start depth with
  | step i ts ih =>
    rw [Rose.subtrees_node] at hu
    rcases List.mem_cons.mp hu with rfl | hu
    · exact ⟨start, depth, List.Subset.refl _⟩
    · obtain ⟨t, ht, hut⟩ := List.mem_flatMap.mp hu
      obtain ⟨start', hrow⟩ := exists_slots_of_mem (a := a) ht
        (start + (extent a (.node i ts) - childrenExtent a ts) / 2) (depth + 1)
      obtain ⟨start'', depth'', hsub⟩ := ih t ht hut start' (depth + 1)
      refine ⟨start'', depth'', List.Subset.trans hsub (List.Subset.trans hrow ?_)⟩
      rw [slots]
      exact List.subset_cons_self _ _

theorem exists_slots_of_subtreesOf {p : Placement α} {u : Rose}
    (hu : u ∈ Rose.subtreesOf (treesOf p)) :
    ∃ start depth, slots ⟨sizeAcross p, p.nodeSpacing⟩ start depth u ⊆ slotsOf p := by
  obtain ⟨t, ht, hut⟩ := Rose.mem_subtreesOf.mp hu
  obtain ⟨start, hrow⟩ := exists_slots_of_mem (a := ⟨sizeAcross p, p.nodeSpacing⟩) ht 0 0
  obtain ⟨start', depth', hsub⟩ := exists_slots_of_subtree hut start 0
  exact ⟨start', depth', List.Subset.trans hsub hrow⟩

end

/-! ## Over the middle -/

section

variable [ExactScalar α] {p : Placement α}

/-- What stands below a parent fills a stretch, and the parent has the middle of it. -/
theorem exists_middle (hnode : 0 ≤ p.nodeSpacing) (hsizes : ∀ s ∈ p.sizes, s.Nonneg) {i : Nat}
    {ts : List Rose} (hsub : .node i ts ∈ Rose.subtreesOf (treesOf p)) (hne : ts ≠ []) :
    ∃ lo hi, (∀ j ∈ Rose.indicesOf ts, lo ≤ acrossAt p j ∧ acrossAt p j + sizeAcross p j ≤ hi) ∧
      (∃ j ∈ Rose.indicesOf ts, acrossAt p j = lo) ∧
      (∃ j ∈ Rose.indicesOf ts, acrossAt p j + sizeAcross p j = hi) ∧
      acrossAt p i + (acrossAt p i + sizeAcross p i) = lo + hi := by
  obtain ⟨start, depth, hslots⟩ := exists_slots_of_subtreesOf hsub
  have hacross := sizeAcross_nonneg hsizes
  generalize ha : (⟨sizeAcross p, p.nodeSpacing⟩ : Across α) = a at hslots
  have hsize : a.size = sizeAcross p := by rw [← ha]
  have hgap : 0 ≤ a.gap := by rwa [← ha]
  rw [← hsize] at hacross ⊢
  rw [slots, List.cons_subset] at hslots
  obtain ⟨hown, hbelow⟩ := hslots
  generalize hlo : start + (extent a (.node i ts) - childrenExtent a ts) /
    @OfNat.ofNat α (nat_lit 2) (Scalar.instNumeral (nat_lit 2)) = lo at hbelow
  have hindices := map_index_slotsIn a lo (depth + 1) ts
  have hstretch := stretch_slotsIn hacross hgap lo (depth + 1) ts
  obtain ⟨⟨s, hs, hsplace⟩, ⟨t, ht, htplace⟩⟩ := ends_slotsIn hacross hgap lo (depth + 1) ts hne
  have hplace {s : Slot α} (hs : s ∈ slotsIn a lo (depth + 1) ts) :
      s.index ∈ Rose.indicesOf ts ∧ acrossAt p s.index = s.place :=
    ⟨hindices ▸ List.mem_map_of_mem hs, (slot_of_mem (hbelow hs)).2⟩
  refine ⟨lo, lo + rowExtent a ts, fun j hj => ?_, ⟨s.index, (hplace hs).1, ?_⟩,
    ⟨t.index, (hplace ht).1, ?_⟩, ?_⟩
  · rw [← hindices] at hj
    obtain ⟨s, hs, rfl⟩ := List.mem_map.mp hj
    rw [(hplace hs).2]
    exact ⟨hstretch.start s hs, hstretch.finish s hs⟩
  · rw [(hplace hs).2, hsplace]
  · rw [(hplace ht).2, htplace]
  · have hmiddle := middle_eq start (a.size i) (extent a (.node i ts))
    have hrow := middle_eq start (rowExtent a ts) (extent a (.node i ts))
    rw [childrenExtent_eq] at hlo
    have hi := (slot_of_mem hown).2
    simp only at hi
    rw [hi]
    exact hmiddle.trans (hlo ▸ hrow.symm)

/-- The levels of the trees are those of the links. -/
theorem hasDepth_depthOf {i : Nat} (hi : i < p.count) : p.forest.HasDepth i (depthOf p i) := by
  obtain ⟨s, hs, rfl, hdepth, -⟩ := exists_slot hi
  rw [hdepth]
  apply SpanningForest.hasDepth_of_mem_trees
  have hentry := List.mem_map_of_mem (f := fun s : Slot α => (s.index, s.depth)) hs
  rw [slotsOf, slotsIn_depths] at hentry
  exact hentry

theorem depthOf_eq {i d : Nat} (hi : i < p.count) (h : p.forest.HasDepth i d) :
    depthOf p i = d :=
  (SpanningForest.grown_ofEdges p.count p.edges).1.depth_unique (hasDepth_depthOf hi) h

/-! ## Boxes -/

/-- The boxes of the trees stand where the method computes them, all moved by one offset. -/
theorem exists_boxes (p : Placement α) : ∃ offset : Point α,
    ∀ i b, (p.boxes (place p))[i]? = some b ↔ ∃ size, p.sizes[i]? = some size ∧
      b = (Bounds.ofCorner (pointOf p.flow size (acrossAt p i) (alongAt p i)) size).shift offset := by
  obtain ⟨offset, hoffset⟩ := Placement.exists_normalize_eq (points p)
  refine ⟨offset, fun i b => ?_⟩
  unfold Placement.boxes place
  rw [hoffset, points_eq, List.getElem?_zipWith, List.map_map, List.getElem?_map,
    List.getElem?_zipIdx]
  cases p.sizes[i]? with
  | none => simp
  | some size =>
    simp only [Option.map_some, Option.some.injEq, exists_eq_left', Nat.zero_add]
    exact eq_comm

/-- How far a box is moved across the flow. -/
def shiftAcross (flow : Flow) (offset : Point α) : α :=
  if flow.isVertical then offset.x else offset.y

variable {flow : Flow} {size : Size α} {across along : α} {offset : Point α}

theorem startAcross_shift :
    ((Bounds.ofCorner (pointOf flow size across along) size).shift offset).startAcross flow =
      across + shiftAcross flow offset := by
  cases flow <;> rfl

theorem endAcross_shift :
    ((Bounds.ofCorner (pointOf flow size across along) size).shift offset).endAcross flow =
      across + (if flow.isVertical then size.width else size.height) +
        shiftAcross flow offset := by
  cases flow <;> exact add_right_comm _ _ _

/-- Levels that follow each other along the flow do so wherever it leads. -/
theorem leadsBy_shift {gap across' along' : α} {size' : Size α}
    (h : along + (if flow.isVertical then size.height else size.width) + gap ≤ along') :
    ((Bounds.ofCorner (pointOf flow size across along) size).shift offset).LeadsBy flow gap
      ((Bounds.ofCorner (pointOf flow size' across' along') size').shift offset) := by
  unfold Bounds.LeadsBy Bounds.right Bounds.bottom
  cases flow with
  | down =>
    simp only [Flow.isVertical, if_true] at h
    simp only [pointOf, Bounds.ofCorner, Bounds.shift]
    linarith
  | up =>
    simp only [Flow.isVertical, if_true] at h
    simp only [pointOf, Bounds.ofCorner, Bounds.shift]
    linarith
  | right =>
    simp only [Flow.isVertical, Bool.false_eq_true, if_false] at h
    simp only [pointOf, Bounds.ofCorner, Bounds.shift]
    linarith
  | left =>
    simp only [Flow.isVertical, Bool.false_eq_true, if_false] at h
    simp only [pointOf, Bounds.ofCorner, Bounds.shift]
    linarith

end

/-! ## Tidy trees -/

theorem lt_count_of_size {p : Placement α} {i : Nat} {size : Size α}
    (h : p.sizes[i]? = some size) : i < p.count :=
  (List.getElem?_eq_some_iff.mp h).1

section

variable [ExactScalar α] {p : Placement α} {i j : Nat} {size : Size α}

theorem sizeAcross_of_size (h : p.sizes[i]? = some size) :
    (if p.flow.isVertical then size.width else size.height) = sizeAcross p i := by
  unfold sizeAcross
  rw [h]

theorem sizeAlong_of_size (h : p.sizes[i]? = some size) :
    (if p.flow.isVertical then size.height else size.width) = sizeAlong p i := by
  unfold sizeAlong
  rw [h]

/-- On one level, boxes are clear of each other across the flow. -/
theorem clear_of_level (hnode : 0 ≤ p.nodeSpacing) (hsizes : ∀ s ∈ p.sizes, s.Nonneg)
    (hi : i < p.count) (hj : j < p.count) (hne : i ≠ j) (hdepth : depthOf p i = depthOf p j) :
    Clear p.nodeSpacing (acrossAt p i) (sizeAcross p i) (acrossAt p j) (sizeAcross p j) := by
  obtain ⟨s, hs, rfl, hsdepth, hsplace⟩ := exists_slot hi
  obtain ⟨t, ht, rfl, htdepth, htplace⟩ := exists_slot hj
  have hst : s ≠ t := by
    rintro rfl
    exact hne rfl
  rw [hsplace, htplace]
  exact clear_of_depth hnode hsizes hs ht hst (by rw [← hsdepth, ← htdepth, hdepth])

/-- A level ends before any deeper one starts, with the gap in between. -/
theorem ahead_of_level (hlayer : 0 ≤ p.layerSpacing) (hi : i < p.count) (hj : j < p.count)
    (hlt : depthOf p i < depthOf p j) :
    alongAt p i + sizeAlong p i + p.layerSpacing ≤ alongAt p j := by
  have hlayers := layerOffset_le (thickness_nonneg (p := p)) hlayer hlt
  obtain ⟨-, hend⟩ := alongAt_within hi
  obtain ⟨hstart, -⟩ := alongAt_within hj
  linarith

theorem besideBy_place (hnode : 0 ≤ p.nodeSpacing) (hsizes : ∀ s ∈ p.sizes, s.Nonneg)
    (hne : i ≠ j) {d : Nat} (hi : p.forest.HasDepth i d) (hj : p.forest.HasDepth j d)
    {b c : Bounds α} (hb : (p.boxes (place p))[i]? = some b)
    (hc : (p.boxes (place p))[j]? = some c) : b.BesideBy p.flow p.nodeSpacing c := by
  obtain ⟨offset, hboxes⟩ := exists_boxes p
  obtain ⟨size, hsize, rfl⟩ := (hboxes i b).mp hb
  obtain ⟨size', hsize', rfl⟩ := (hboxes j c).mp hc
  have hi' := lt_count_of_size hsize
  have hj' := lt_count_of_size hsize'
  have hclear := clear_of_level hnode hsizes hi' hj' hne
    ((depthOf_eq hi' hi).trans (depthOf_eq hj' hj).symm)
  unfold Bounds.BesideBy
  rw [startAcross_shift, startAcross_shift, endAcross_shift, endAcross_shift,
    sizeAcross_of_size hsize, sizeAcross_of_size hsize']
  rcases hclear with hclear | hclear
  · exact .inl (by linarith)
  · exact .inr (by linarith)

theorem leadsBy_place (hlayer : 0 ≤ p.layerSpacing) {d e : Nat} (hlt : d < e)
    (hi : p.forest.HasDepth i d) (hj : p.forest.HasDepth j e) {b c : Bounds α}
    (hb : (p.boxes (place p))[i]? = some b) (hc : (p.boxes (place p))[j]? = some c) :
    b.LeadsBy p.flow p.layerSpacing c := by
  obtain ⟨offset, hboxes⟩ := exists_boxes p
  obtain ⟨size, hsize, rfl⟩ := (hboxes i b).mp hb
  obtain ⟨size', hsize', rfl⟩ := (hboxes j c).mp hc
  have hi' := lt_count_of_size hsize
  have hj' := lt_count_of_size hsize'
  apply leadsBy_shift
  rw [sizeAlong_of_size hsize]
  apply ahead_of_level hlayer hi' hj'
  rwa [depthOf_eq hi' hi, depthOf_eq hj' hj]

/-- The boxes below a parent have ends across the flow, and the parent's box has their middle. -/
theorem centred_place (hnode : 0 ≤ p.nodeSpacing) (hsizes : ∀ s ∈ p.sizes, s.Nonneg)
    {b : Bounds α} (hb : (p.boxes (place p))[i]? = some b)
    (hparent : ∃ j, (i, j) ∈ p.forest.links) :
    ∃ lo hi, IsLeast (Bounds.startAcross p.flow '' p.boxesBelow (place p) i) lo ∧
      IsGreatest (Bounds.endAcross p.flow '' p.boxesBelow (place p) i) hi ∧
      b.startAcross p.flow + b.endAcross p.flow = lo + hi := by
  obtain ⟨offset, hboxes⟩ := exists_boxes p
  obtain ⟨size, hsize, rfl⟩ := (hboxes i b).mp hb
  obtain ⟨hgrown, hreached⟩ := SpanningForest.grown_ofEdges p.count p.edges
  obtain ⟨ts, hsub⟩ := hgrown.exists_subtree
    (hreached.mem_iff.mpr (List.mem_range.mpr (lt_count_of_size hsize)))
  have hne : ts ≠ [] := by
    rintro rfl
    obtain ⟨j, hlink⟩ := hparent
    exact absurd ((hgrown.mem_children_iff hsub).mpr hlink) List.not_mem_nil
  obtain ⟨lo, hi, hwithin, ⟨j, hj, rfl⟩, ⟨k, hk, rfl⟩, hmiddle⟩ :=
    exists_middle hnode hsizes hsub hne
  have hbox {j : Nat} (hj : j ∈ Rose.indicesOf ts) : ∃ c ∈ p.boxesBelow (place p) i,
      c.startAcross p.flow = acrossAt p j + shiftAcross p.flow offset ∧
      c.endAcross p.flow = acrossAt p j + sizeAcross p j + shiftAcross p.flow offset := by
    have habove := (hgrown.mem_indices_iff hsub).mp hj
    have hlt := List.mem_range.mp
      (hreached.mem_iff.mp (SpanningForest.mem_reached_of_above habove))
    have hsize := List.getElem?_eq_getElem hlt
    refine ⟨_, ⟨j, habove, (hboxes j _).mpr ⟨_, hsize, rfl⟩⟩, startAcross_shift, ?_⟩
    rw [endAcross_shift, sizeAcross_of_size hsize]
  have hends {c : Bounds α} (hc : c ∈ p.boxesBelow (place p) i) : ∃ j ∈ Rose.indicesOf ts,
      c.startAcross p.flow = acrossAt p j + shiftAcross p.flow offset ∧
      c.endAcross p.flow = acrossAt p j + sizeAcross p j + shiftAcross p.flow offset := by
    obtain ⟨j, habove, hc⟩ := hc
    obtain ⟨size, hsize, rfl⟩ := (hboxes j c).mp hc
    refine ⟨j, (hgrown.mem_indices_iff hsub).mpr habove, startAcross_shift, ?_⟩
    rw [endAcross_shift, sizeAcross_of_size hsize]
  obtain ⟨first, hfirst, hstart, -⟩ := hbox hj
  obtain ⟨last, hlast, -, hend⟩ := hbox hk
  refine ⟨_, _, ⟨⟨first, hfirst, hstart⟩, ?_⟩, ⟨⟨last, hlast, hend⟩, ?_⟩, ?_⟩
  · rintro _ ⟨c, hc, rfl⟩
    obtain ⟨j, hj, hcstart, -⟩ := hends hc
    rw [hcstart]
    exact add_le_add_left (hwithin j hj).1 _
  · rintro _ ⟨c, hc, rfl⟩
    obtain ⟨j, hj, -, hcend⟩ := hends hc
    rw [hcend]
    exact add_le_add_left (hwithin j hj).2 _
  · rw [startAcross_shift, endAcross_shift, sizeAcross_of_size hsize]
    linarith

/-- Without negative sizes and gaps, every forest is drawn tidily. -/
theorem trees_are_tidy (hnode : 0 ≤ p.nodeSpacing) (hlayer : 0 ≤ p.layerSpacing)
    (hsizes : ∀ s ∈ p.sizes, s.Nonneg) : p.IsTidy (place p) := by
  obtain ⟨hcount, hnonneg⟩ := isFilledBy_place p
  constructor
  case count => exact hcount
  case nonneg => exact hnonneg
  case atOrigin =>
    intro hne
    exact Placement.exists_zero_normalize (points_ne_nil hne)
  case levels =>
    intro i hi
    exact ⟨depthOf p i, hasDepth_depthOf hi, fun d hd => (depthOf_eq hi hd).symm⟩
  case beside =>
    intro i j d b c hne hi hj hb hc
    exact besideBy_place hnode hsizes hne hi hj hb hc
  case leads =>
    intro i j d e b c hlt hi hj hb hc
    exact leadsBy_place hlayer hlt hi hj hb hc
  case centred =>
    intro i b hb hparent
    exact centred_place hnode hsizes hb hparent

end

/-- Two trees to the left, with a circle, a loop and a repeated edge. One root is longer across
the flow than both its children together. -/
def twoTrees : Placement ℚ where
  sizes := [⟨30, 200⟩, ⟨50, 40⟩, ⟨10, 20⟩, ⟨60, 35⟩, ⟨25, 70⟩]
  edges := [(0, 1), (0, 2), (2, 0), (1, 1), (0, 1), (3, 4)]
  flow := .left
  nodeSpacing := 20
  layerSpacing := 15
  iterations := 0

theorem two_trees_are_tidy :
    (0 ≤ twoTrees.nodeSpacing ∧ 0 ≤ twoTrees.layerSpacing ∧ ∀ s ∈ twoTrees.sizes, s.Nonneg) ∧
      twoTrees.forest = ⟨[3, 0], [(3, 4), (0, 1), (0, 2)]⟩ ∧ twoTrees.IsTidy (place twoTrees) := by
  have hsizes : ∀ s ∈ twoTrees.sizes, s.Nonneg := by
    intro s hs
    simp only [twoTrees, List.mem_cons, List.not_mem_nil, or_false] at hs
    rcases hs with rfl | rfl | rfl | rfl | rfl <;> constructor <;> decide +kernel
  have hnode : 0 ≤ twoTrees.nodeSpacing := by decide +kernel
  have hlayer : 0 ≤ twoTrees.layerSpacing := by decide +kernel
  exact ⟨⟨hnode, hlayer, hsizes⟩, by decide +kernel, trees_are_tidy hnode hlayer hsizes⟩

end TreePlacement

end DiagramPress
