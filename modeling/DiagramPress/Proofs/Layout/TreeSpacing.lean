-- Trees keep children apart: of one depth, every subtree has a stretch of its own
-- across the flow; different depths have layers of their own along it.
import DiagramPress.Proofs.Layout.Spacing
import DiagramPress.Proofs.Layout.SpanningForest

namespace DiagramPress.TreePlacement

variable {α : Type}

/-! ## Extents -/

section

variable [ExactScalar α] {a : Across α}

theorem extent_node (i : Nat) (children : List Rose) :
    extent a (.node i children) = max (a.size i) (rowExtent a children) := by
  rw [extent, Scalar.greatest_eq_max]

theorem rowExtentFrom_add (c sum : α) (ts : List Rose) :
    rowExtentFrom a (c + sum) ts = c + rowExtentFrom a sum ts := by
  induction ts generalizing sum with
  | nil => rfl
  | cons t rest ih => rw [rowExtentFrom, rowExtentFrom, add_assoc, add_assoc, ih, add_assoc]

theorem rowExtent_nil : rowExtent a [] = 0 := by
  rw [rowExtent, Scalar.numeral_zero]

theorem rowExtent_singleton (t : Rose) : rowExtent a [t] = extent a t := by
  rw [rowExtent, rowExtentFrom, Scalar.numeral_zero, zero_add]

theorem rowExtent_cons_cons (t u : Rose) (rest : List Rose) :
    rowExtent a (t :: u :: rest) = extent a t + a.gap + rowExtent a (u :: rest) := by
  rw [rowExtent, rowExtentFrom, rowExtent, ← rowExtentFrom_add, Scalar.numeral_zero, zero_add,
    zero_add]

/-- The room that children take together is how far they reach side by side. -/
theorem childrenExtent_eq (ts : List Rose) : childrenExtent a ts = rowExtent a ts := by
  have hshift (c sum : α) (ts : List Rose) : ts.foldl (fun sum t => sum + extent a t) (c + sum) =
      c + ts.foldl (fun sum t => sum + extent a t) sum := by
    induction ts generalizing sum with
    | nil => rfl
    | cons t rest ih => rw [List.foldl_cons, add_assoc, ih, List.foldl_cons]
  have hrow (sum : α) (ts : List Rose) : rowExtentFrom a sum ts =
      ts.foldl (fun sum t => sum + extent a t) sum + a.gap * (ts.length : α) := by
    induction ts generalizing sum with
    | nil => rw [rowExtentFrom, List.foldl_nil, List.length_nil, Nat.cast_zero, mul_zero, add_zero]
    | cons t rest ih =>
      rw [rowExtentFrom, ih, List.foldl_cons, List.length_cons, Nat.cast_succ, add_right_comm,
        add_comm _ a.gap, hshift]
      ring
  unfold childrenExtent
  rw [Scalar.ofNat_eq_cast]
  cases ts with
  | nil => simp [rowExtent_nil, Scalar.numeral_zero]
  | cons t rest => rw [rowExtent, hrow, List.foldl_cons, List.length_cons, Nat.add_sub_cancel]

variable (hsize : ∀ i, 0 ≤ a.size i)
include hsize

theorem extent_nonneg (t : Rose) : 0 ≤ extent a t := by
  cases t with
  | node i children =>
    rw [extent_node]
    exact (hsize i).trans (le_max_left _ _)

theorem rowExtent_nonneg (hgap : 0 ≤ a.gap) (ts : List Rose) : 0 ≤ rowExtent a ts := by
  induction ts with
  | nil => exact rowExtent_nil.ge
  | cons t rest ih =>
    cases rest with
    | nil =>
      rw [rowExtent_singleton]
      exact extent_nonneg hsize t
    | cons u rest =>
      rw [rowExtent_cons_cons]
      exact add_nonneg (add_nonneg (extent_nonneg hsize t) hgap) ih

end

/-! ## Slots -/

/-- The place of a child across the flow, together with its depth. -/
structure Slot (α : Type) where
  index : Nat
  depth : Nat
  place : α

section

variable [Scalar α] (a : Across α)

mutual

/-- The slots of a subtree that starts at `start`. -/
def slots (start : α) (depth : Nat) : Rose → List (Slot α)
  | t@(.node i children) =>
    ⟨i, depth, start + (extent a t - a.size i) / 2⟩ ::
      slotsIn (start + (extent a t - childrenExtent a children) / 2) (depth + 1) children

/-- The slots of subtrees side by side. -/
def slotsIn (cursor : α) (depth : Nat) : List Rose → List (Slot α)
  | [] => []
  | t :: rest => slots cursor depth t ++ slotsIn (cursor + (extent a t + a.gap)) depth rest

end

mutual

/-- Slots have the depths that the tree gives. -/
theorem slots_depths (start : α) (depth : Nat) :
    ∀ t, (slots a start depth t).map (fun s => (s.index, s.depth)) = t.depths depth
  | .node i children => by
    rw [slots, Rose.depths, List.map_cons, slotsIn_depths]

theorem slotsIn_depths (cursor : α) (depth : Nat) : ∀ ts,
    (slotsIn a cursor depth ts).map (fun s => (s.index, s.depth)) = Rose.depthsOf depth ts
  | [] => rfl
  | t :: rest => by
    rw [slotsIn, Rose.depthsOf, List.map_append, slots_depths, slotsIn_depths]

end

theorem map_index_slotsIn (cursor : α) (depth : Nat) (ts : List Rose) :
    (slotsIn a cursor depth ts).map (·.index) = Rose.indicesOf ts := by
  have hdepths := congrArg (List.map (·.1)) (slotsIn_depths a cursor depth ts)
  rw [List.map_map, Rose.map_fst_depthsOf] at hdepths
  exact hdepths

mutual

/-- Slots have the places that the method computes. -/
theorem slots_places (start : α) (depth : Nat) :
    ∀ t, (slots a start depth t).map (fun s => (s.index, s.place)) = across a start t
  | .node i children => by
    rw [slots, across, List.map_cons, slotsIn_places]

theorem slotsIn_places (cursor : α) (depth : Nat) : ∀ ts,
    (slotsIn a cursor depth ts).map (fun s => (s.index, s.place)) = acrossRow a cursor ts
  | [] => rfl
  | t :: rest => by
    rw [slotsIn, acrossRow, List.map_append, slots_places, slotsIn_places]

end

end

/-! ## Stretches -/

section

variable [ExactScalar α]

/-- The slots take their places between `lo` and `hi` at that depth or deeper, and those
of one depth stand from left to right with gaps in between. -/
structure Stretch (a : Across α) (lo hi : α) (depth : Nat) (slots : List (Slot α)) : Prop where
  start : ∀ s ∈ slots, lo ≤ s.place
  finish : ∀ s ∈ slots, s.place + a.size s.index ≤ hi
  deep : ∀ s ∈ slots, depth ≤ s.depth
  ordered : slots.Pairwise fun s s' =>
    s.depth = s'.depth → s.place + a.size s.index + a.gap ≤ s'.place

namespace Stretch

variable {a : Across α} {lo hi : α} {depth : Nat} {slots : List (Slot α)}

theorem nil (a : Across α) (lo hi : α) (depth : Nat) : Stretch a lo hi depth [] where
  start _ h := absurd h List.not_mem_nil
  finish _ h := absurd h List.not_mem_nil
  deep _ h := absurd h List.not_mem_nil
  ordered := .nil

theorem widen (h : Stretch a lo hi depth slots) {lo' hi' : α} (hlo : lo' ≤ lo) (hhi : hi ≤ hi') :
    Stretch a lo' hi' depth slots :=
  ⟨fun s hs => hlo.trans (h.start s hs), fun s hs => (h.finish s hs).trans hhi, h.deep, h.ordered⟩

/-- A parent stands above what is deeper. -/
theorem cons (h : Stretch a lo hi (depth + 1) slots) {s : Slot α} (hdepth : s.depth = depth)
    (hstart : lo ≤ s.place) (hfinish : s.place + a.size s.index ≤ hi) :
    Stretch a lo hi depth (s :: slots) where
  start := List.forall_mem_cons.mpr ⟨hstart, h.start⟩
  finish := List.forall_mem_cons.mpr ⟨hfinish, h.finish⟩
  deep := List.forall_mem_cons.mpr ⟨hdepth.ge, fun t ht => (Nat.le_succ _).trans (h.deep t ht)⟩
  ordered := h.ordered.cons fun t ht hsame => by
    have hdeep := h.deep t ht
    omega

/-- Stretches with the gap in between are one stretch. -/
theorem append {mid : α} {right : List (Slot α)} (h : Stretch a lo mid depth slots)
    (h' : Stretch a (mid + a.gap) hi depth right) (hlo : lo ≤ mid + a.gap) (hhi : mid ≤ hi) :
    Stretch a lo hi depth (slots ++ right) where
  start := List.forall_mem_append.mpr ⟨h.start, fun s hs => hlo.trans (h'.start s hs)⟩
  finish := List.forall_mem_append.mpr ⟨fun s hs => (h.finish s hs).trans hhi, h'.finish⟩
  deep := List.forall_mem_append.mpr ⟨h.deep, h'.deep⟩
  ordered := by
    refine List.pairwise_append.mpr ⟨h.ordered, h'.ordered, fun s hs s' hs' _ => ?_⟩
    have hend := h.finish s hs
    have hnext := h'.start s' hs'
    linarith

end Stretch

mutual

/-- A subtree keeps to the stretch that it takes. -/
theorem stretch_slots {a : Across α} (hsize : ∀ i, 0 ≤ a.size i) (hgap : 0 ≤ a.gap) (start : α)
    (depth : Nat) : ∀ t, Stretch a start (start + extent a t) depth (slots a start depth t)
  | .node i children => by
    have hown : a.size i ≤ extent a (.node i children) := by
      rw [extent_node]
      exact le_max_left _ _
    have hrow : childrenExtent a children ≤ extent a (.node i children) := by
      rw [extent_node, childrenExtent_eq]
      exact le_max_right _ _
    obtain ⟨lead, hlead, hleadNonneg, hend⟩ := Scalar.exists_centred hown
    obtain ⟨indent, hindent, hindentNonneg, hrowEnd⟩ := Scalar.exists_centred hrow
    have hbelow := stretch_slotsIn hsize hgap (start + indent) (depth + 1) children
    rw [← childrenExtent_eq, add_assoc] at hbelow
    rw [slots, hlead, hindent]
    refine Stretch.cons (hbelow.widen ?_ ?_) rfl ?_ ?_
    · exact le_add_of_nonneg_right hindentNonneg
    · exact add_le_add_right hrowEnd start
    · exact le_add_of_nonneg_right hleadNonneg
    · rw [add_assoc]
      exact add_le_add_right hend start

/-- Subtrees side by side keep to the stretch that they take together. -/
theorem stretch_slotsIn {a : Across α} (hsize : ∀ i, 0 ≤ a.size i) (hgap : 0 ≤ a.gap) (cursor : α)
    (depth : Nat) :
    ∀ ts, Stretch a cursor (cursor + rowExtent a ts) depth (slotsIn a cursor depth ts)
  | [] => Stretch.nil a _ _ depth
  | [t] => by
    rw [slotsIn, slotsIn, List.append_nil, rowExtent_singleton]
    exact stretch_slots hsize hgap cursor depth t
  | t :: u :: rest => by
    have hnext := stretch_slotsIn hsize hgap (cursor + (extent a t + a.gap)) depth (u :: rest)
    have hfirst := extent_nonneg hsize t
    have hrest := rowExtent_nonneg hsize hgap (u :: rest)
    rw [slotsIn, rowExtent_cons_cons]
    refine (stretch_slots hsize hgap cursor depth t).append (hnext.widen ?_ ?_) ?_ ?_ <;> linarith

end

end

/-! ## Layers -/

section

variable [ExactScalar α]

/-- The greatest value of a function over a list is as large as all of its values. -/
theorem le_foldl_max {β γ : Type} [LinearOrder γ] (f : β → γ) (l : List β) (start : γ) :
    start ≤ l.foldl (fun greatest b => max greatest (f b)) start ∧
      ∀ b ∈ l, f b ≤ l.foldl (fun greatest b => max greatest (f b)) start := by
  induction l generalizing start with
  | nil => exact ⟨le_rfl, fun b hb => absurd hb List.not_mem_nil⟩
  | cons c l ih =>
    obtain ⟨hstart, hrest⟩ := ih (max start (f c))
    refine ⟨(le_max_left _ _).trans hstart, fun b hb => ?_⟩
    rcases List.mem_cons.mp hb with rfl | hb
    · exact (le_max_right _ _).trans hstart
    · exact hrest b hb

theorem layerExtent_eq (size : Nat → α) (depth : Nat → Nat) (count d : Nat) :
    layerExtent size depth count d = ((List.range count).filter (fun i => depth i = d)).foldl
      (fun thickest i => max thickest (size i)) 0 := by
  simp only [layerExtent, Scalar.greatest_eq_max, Scalar.numeral_zero]

/-- A layer is as thick as each child in it. -/
theorem le_layerExtent {size : Nat → α} {depth : Nat → Nat} {count i : Nat} (hi : i < count) :
    size i ≤ layerExtent size depth count (depth i) := by
  rw [layerExtent_eq]
  exact (le_foldl_max size _ _).2 i (List.mem_filter.mpr ⟨List.mem_range.mpr hi, by simp⟩)

theorem layerExtent_nonneg (size : Nat → α) (depth : Nat → Nat) (count d : Nat) :
    0 ≤ layerExtent size depth count d := by
  rw [layerExtent_eq]
  exact (le_foldl_max size _ _).1

/-- A layer starts where every earlier layer and the gap behind it have ended. -/
theorem layerOffset_le {extent : Nat → α} (hextent : ∀ d, 0 ≤ extent d) {gap : α} (hgap : 0 ≤ gap)
    {d d' : Nat} (h : d < d') :
    layerOffset extent gap d + extent d + gap ≤ layerOffset extent gap d' := by
  induction d', h using Nat.le_induction with
  | base => exact le_rfl
  | succ d' _ ih =>
    have hnonneg := hextent d'
    rw [layerOffset]
    linarith

end

/-! ## Where a child stands -/

section

variable [Scalar α] (p : Placement α)

def treesOf : List Rose := (SpanningForest.ofEdges p.count p.edges).trees

/-- The slots of all children. -/
def slotsOf : List (Slot α) := slotsIn ⟨sizeAcross p, p.nodeSpacing⟩ 0 0 (treesOf p)

def depthOf (i : Nat) : Nat := ((Rose.depthsOf 0 (treesOf p)).lookup i).getD 0

def deepest : Nat := ((Rose.depthsOf 0 (treesOf p)).map (·.2)).foldl max 0

/-- How thick the layer at a depth is. -/
def thickness (d : Nat) : α :=
  ((List.range (deepest p + 1)).map (layerExtent (sizeAlong p) (depthOf p) p.count))[d]?.getD 0

/-- The place of a child across the flow. -/
def acrossAt (i : Nat) : α :=
  ((acrossRow ⟨sizeAcross p, p.nodeSpacing⟩ 0 (treesOf p)).lookup i).getD 0

/-- The place of a child along the flow. -/
def alongAt (i : Nat) : α :=
  let offsets := (List.range (deepest p + 1)).map (layerOffset (thickness p) p.layerSpacing)
  offsets[depthOf p i]?.getD 0 + (thickness p (depthOf p i) - sizeAlong p i) / 2

theorem points_eq :
    points p =
      p.sizes.zipIdx.map fun (size, i) => pointOf p.flow size (acrossAt p i) (alongAt p i) :=
  rfl

theorem points_ne_nil {p : Placement α} (h : p.sizes ≠ []) : points p ≠ [] := by
  intro hnil
  rw [points_eq, List.map_eq_nil_iff, List.zipIdx_eq_nil_iff] at hnil
  exact h hnil

theorem perm_index_slotsOf : ((slotsOf p).map (·.index)).Perm (List.range p.count) := by
  rw [slotsOf, map_index_slotsIn]
  exact SpanningForest.perm_indices_trees p.count p.edges

end

/-- In a table without repeated keys, a lookup finds what is there under the key. -/
theorem lookup_of_mem {κ β : Type} [BEq κ] [LawfulBEq κ] {entries : List (κ × β)}
    (hnodup : (entries.map (·.1)).Nodup) {key : κ} {value : β} (h : (key, value) ∈ entries) :
    entries.lookup key = some value := by
  obtain ⟨before, after, rfl⟩ := List.append_of_mem h
  refine List.lookup_eq_some_iff.mpr ⟨before, after, rfl, fun entry hentry => ?_⟩
  rw [List.map_append, List.map_cons, List.nodup_append] at hnodup
  have hne := hnodup.2.2 entry.1 (List.mem_map_of_mem hentry) key List.mem_cons_self
  simpa using Ne.symm hne

section

variable [Scalar α] {p : Placement α}

/-- A child takes its depth and its place across the flow from its slot. -/
theorem slot_of_mem {s : Slot α} (hs : s ∈ slotsOf p) :
    depthOf p s.index = s.depth ∧ acrossAt p s.index = s.place := by
  have hfound {β : Type} (f : Slot α → β) :
      ((slotsOf p).map fun s => (s.index, f s)).lookup s.index = some (f s) := by
    refine lookup_of_mem ?_ (List.mem_map_of_mem hs)
    rw [List.map_map]
    exact (perm_index_slotsOf p).nodup_iff.mpr List.nodup_range
  constructor
  · rw [depthOf, ← slotsIn_depths ⟨sizeAcross p, p.nodeSpacing⟩ (0 : α) 0 (treesOf p)]
    exact congrArg (Option.getD · 0) (hfound Slot.depth)
  · rw [acrossAt, ← slotsIn_places ⟨sizeAcross p, p.nodeSpacing⟩ (0 : α) 0 (treesOf p)]
    exact congrArg (Option.getD · 0) (hfound Slot.place)

/-- Every child has a slot, from which it takes its depth and its place across the flow. -/
theorem exists_slot {i : Nat} (hi : i < p.count) :
    ∃ s ∈ slotsOf p, s.index = i ∧ depthOf p i = s.depth ∧ acrossAt p i = s.place := by
  obtain ⟨s, hs, rfl⟩ :=
    List.mem_map.mp ((perm_index_slotsOf p).mem_iff.mpr (List.mem_range.mpr hi))
  exact ⟨s, hs, rfl, slot_of_mem hs⟩

theorem depth_le_deepest {s : Slot α} (hs : s ∈ slotsOf p) : s.depth ≤ deepest p := by
  refine (le_foldl_max id _ 0).2 s.depth ?_
  rw [← slotsIn_depths ⟨sizeAcross p, p.nodeSpacing⟩ (0 : α) 0 (treesOf p), List.map_map]
  exact List.mem_map_of_mem (f := fun s => s.depth) hs

end

section

variable [ExactScalar α] {p : Placement α}

theorem sizeAcross_nonneg (hsizes : ∀ s ∈ p.sizes, s.Nonneg) (i : Nat) : 0 ≤ sizeAcross p i := by
  unfold sizeAcross
  split
  · rename_i s hs
    have hs := hsizes s (List.mem_of_getElem? hs)
    split
    · exact hs.width
    · exact hs.height
  · exact Scalar.ofNat_zero.ge

theorem thickness_nonneg (d : Nat) : 0 ≤ thickness p d := by
  unfold thickness
  rw [List.getElem?_map]
  cases (List.range (deepest p + 1))[d]? with
  | none => exact Scalar.ofNat_zero.ge
  | some d => exact layerExtent_nonneg _ _ _ d

/-- Along the flow, a child stands in the layer of its depth. -/
theorem alongAt_within {i : Nat} (hi : i < p.count) :
    layerOffset (thickness p) p.layerSpacing (depthOf p i) ≤ alongAt p i ∧
      alongAt p i + sizeAlong p i ≤ layerOffset (thickness p) p.layerSpacing (depthOf p i) +
        thickness p (depthOf p i) := by
  obtain ⟨s, hs, rfl, hdepth, -⟩ := exists_slot hi
  have hrange : (List.range (deepest p + 1))[depthOf p s.index]? = some (depthOf p s.index) := by
    refine List.getElem?_range ?_
    rw [hdepth]
    exact Nat.lt_succ_of_le (depth_le_deepest hs)
  have hthick : sizeAlong p s.index ≤ thickness p (depthOf p s.index) := by
    rw [thickness, List.getElem?_map, hrange]
    exact le_layerExtent hi
  obtain ⟨lead, hlead, hnonneg, hend⟩ := Scalar.exists_centred hthick
  rw [alongAt, List.getElem?_map, hrange, hlead, Option.map_some, Option.getD_some, add_assoc]
  exact ⟨le_add_of_nonneg_right hnonneg, add_le_add_right hend _⟩

/-! ## Children apart -/

/-- One of two intervals ends before the other one starts, with the gap in between. -/
def Clear (gap start length start' length' : α) : Prop :=
  start + length + gap ≤ start' ∨ start' + length' + gap ≤ start

theorem Clear.mono {gap start length start' length' : α} (h : Clear gap start length start' length')
    {less : α} (hless : less ≤ gap) : Clear less start length start' length' := by
  unfold Clear at h ⊢
  rcases h with h | h
  · exact .inl (by linarith)
  · exact .inr (by linarith)

/-- Of two slots at one depth, one ends before the other one starts. -/
theorem clear_of_depth (hnode : 0 ≤ p.nodeSpacing) (hsizes : ∀ s ∈ p.sizes, s.Nonneg)
    {s t : Slot α} (hs : s ∈ slotsOf p) (ht : t ∈ slotsOf p) (hne : s ≠ t)
    (hdepth : s.depth = t.depth) :
    Clear p.nodeSpacing s.place (sizeAcross p s.index) t.place (sizeAcross p t.index) := by
  let R (s t : Slot α) : Prop := s.depth = t.depth →
    Clear p.nodeSpacing s.place (sizeAcross p s.index) t.place (sizeAcross p t.index)
  have hsymm : Std.Symm R := ⟨fun s t h hsame => (h hsame.symm).symm⟩
  have hordered : (slotsOf p).Pairwise R :=
    (stretch_slotsIn (sizeAcross_nonneg hsizes) hnode _ 0 (treesOf p)).ordered.imp
      fun h hsame => .inl (h hsame)
  exact hordered.forall hs ht hne hdepth

/-- Two children are clear of each other across the flow, or along it. -/
theorem clear_of_ne (hnode : 0 ≤ p.nodeSpacing) (hlayer : 0 ≤ p.layerSpacing)
    (hsizes : ∀ s ∈ p.sizes, s.Nonneg) {i j : Nat} (hi : i < p.count) (hj : j < p.count)
    (hne : i ≠ j) :
    Clear p.nodeSpacing (acrossAt p i) (sizeAcross p i) (acrossAt p j) (sizeAcross p j) ∨
      Clear p.layerSpacing (alongAt p i) (sizeAlong p i) (alongAt p j) (sizeAlong p j) := by
  obtain ⟨histart, hiend⟩ := alongAt_within hi
  obtain ⟨hjstart, hjend⟩ := alongAt_within hj
  rcases Nat.lt_trichotomy (depthOf p i) (depthOf p j) with hlt | heq | hlt
  · have hlayers := layerOffset_le (thickness_nonneg (p := p)) hlayer hlt
    exact .inr (.inl (by linarith))
  · obtain ⟨s, hs, rfl, hsdepth, hsplace⟩ := exists_slot hi
    obtain ⟨t, ht, rfl, htdepth, htplace⟩ := exists_slot hj
    have hst : s ≠ t := by
      rintro rfl
      exact hne rfl
    have hclear := clear_of_depth hnode hsizes hs ht hst (by rw [← hsdepth, ← htdepth, heq])
    rw [hsplace, htplace]
    exact .inl hclear
  · have hlayers := layerOffset_le (thickness_nonneg (p := p)) hlayer hlt
    exact .inr (.inr (by linarith))

/-- Boxes that are clear on one axis of the flow are apart, wherever it leads. -/
theorem apartBy_pointOf {flow : Flow} {gap across along across' along' : α} {size size' : Size α}
    (h : Clear gap across (if flow.isVertical then size.width else size.height)
        across' (if flow.isVertical then size'.width else size'.height) ∨
      Clear gap along (if flow.isVertical then size.height else size.width)
        along' (if flow.isVertical then size'.height else size'.width)) :
    (Bounds.ofCorner (pointOf flow size across along) size).ApartBy gap
      (Bounds.ofCorner (pointOf flow size' across' along') size') := by
  unfold Clear at h
  unfold Bounds.ApartBy Bounds.right Bounds.bottom
  cases flow with
  | down =>
    simp only [Flow.isVertical, if_true] at h
    simp only [pointOf, Bounds.ofCorner]
    tauto
  | up =>
    simp only [Flow.isVertical, if_true] at h
    simp only [pointOf, Bounds.ofCorner]
    rcases h with (h | h) | (h | h)
    · exact .inl h
    · exact .inr (.inl h)
    · exact .inr (.inr (.inr (by linarith)))
    · exact .inr (.inr (.inl (by linarith)))
  | right =>
    simp only [Flow.isVertical, Bool.false_eq_true, if_false] at h
    simp only [pointOf, Bounds.ofCorner]
    tauto
  | left =>
    simp only [Flow.isVertical, Bool.false_eq_true, if_false] at h
    simp only [pointOf, Bounds.ofCorner]
    rcases h with (h | h) | (h | h)
    · exact .inr (.inr (.inl h))
    · exact .inr (.inr (.inr h))
    · exact .inr (.inl (by linarith))
    · exact .inl (by linarith)

theorem sizeAcross_eq {i : Nat} (hi : i < p.sizes.length) :
    sizeAcross p i = if p.flow.isVertical then p.sizes[i].width else p.sizes[i].height := by
  rw [sizeAcross, List.getElem?_eq_getElem hi]

theorem sizeAlong_eq {i : Nat} (hi : i < p.sizes.length) :
    sizeAlong p i = if p.flow.isVertical then p.sizes[i].height else p.sizes[i].width := by
  rw [sizeAlong, List.getElem?_eq_getElem hi]

theorem isSpacedBy_place (hnode : 0 ≤ p.nodeSpacing) (hlayer : 0 ≤ p.layerSpacing)
    (hsizes : ∀ s ∈ p.sizes, s.Nonneg) :
    p.IsSpacedBy (min p.nodeSpacing p.layerSpacing) (place p) := by
  refine Placement.IsSpacedBy.normalize (List.pairwise_iff_getElem.mpr fun i j hi hj hij => ?_)
  have hlength : (p.boxes (points p)).length = p.sizes.length := by
    rw [Placement.boxes, points_eq, List.length_zipWith, List.length_map, List.length_zipIdx,
      Nat.min_self]
  rw [hlength] at hi hj
  have hbox {i : Nat} (hi : i < p.sizes.length) (h : i < (p.boxes (points p)).length) :
      (p.boxes (points p))[i] =
        Bounds.ofCorner (pointOf p.flow p.sizes[i] (acrossAt p i) (alongAt p i)) p.sizes[i] := by
    simp only [Placement.boxes, points_eq, List.getElem_zipWith, List.getElem_map,
      List.getElem_zipIdx, Nat.zero_add]
  have hclear := clear_of_ne hnode hlayer hsizes hi hj (Nat.ne_of_lt hij)
  rw [sizeAcross_eq hi, sizeAcross_eq hj, sizeAlong_eq hi, sizeAlong_eq hj] at hclear
  rw [hbox hi, hbox hj]
  refine apartBy_pointOf (hclear.imp ?_ ?_)
  · exact fun h => h.mono (min_le_left _ _)
  · exact fun h => h.mono (min_le_right _ _)

end

end DiagramPress.TreePlacement
