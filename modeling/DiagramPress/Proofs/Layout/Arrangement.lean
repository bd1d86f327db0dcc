-- One container: its free children stand inside the padding and, along the flow,
-- past the pinned ones; its size reaches as far as they do.
import DiagramPress.Proofs.Layout.Methods
import DiagramPress.Proofs.Number.Rounded
import DiagramPress.Proofs.Layout.Answer
import DiagramPress.Proofs.Layout.Vocabulary

namespace DiagramPress

variable {α : Type}

/-! ## Points in order -/

/-- The coordinate of a point along the flow. -/
def Flow.along (f : Flow) (p : Point α) : α := if f.isVertical then p.y else p.x

/-- The first point lies neither to the right of the second nor below it. -/
structure Point.Before [LE α] (p q : Point α) : Prop where
  x : p.x ≤ q.x
  y : p.y ≤ q.y

theorem Point.Before.along [LE α] {p q : Point α} (h : p.Before q) (f : Flow) :
    f.along p ≤ f.along q := by
  unfold Flow.along
  split
  · exact h.y
  · exact h.x

def Point.add [Add α] (p q : Point α) : Point α := ⟨p.x + q.x, p.y + q.y⟩

section

variable [Scalar α] [RoundedScalar α]

theorem Point.Before.refl (p : Point α) : p.Before p :=
  ⟨RoundedScalar.le_refl p.x, RoundedScalar.le_refl p.y⟩

theorem Point.Before.trans {p q r : Point α} (h : p.Before q) (h' : q.Before r) : p.Before r :=
  ⟨RoundedScalar.le_trans h.x h'.x, RoundedScalar.le_trans h.y h'.y⟩

theorem Point.before_add {p q : Point α} (hq : Point.origin.Before q) : p.Before (p.add q) :=
  ⟨RoundedScalar.le_add p.x hq.x, RoundedScalar.le_add p.y hq.y⟩

end

section

variable [ExactScalar α]

theorem Point.add_origin (p : Point α) : p.add .origin = p := by
  have hzero (a : α) : a + Scalar.ofNat 0 = a := by rw [Scalar.ofNat_zero, add_zero]
  exact congrArg₂ Point.mk (hzero p.x) (hzero p.y)

theorem Point.origin_add (p : Point α) : Point.origin.add p = p := by
  have hzero (a : α) : Scalar.ofNat 0 + a = a := by rw [Scalar.ofNat_zero, zero_add]
  exact congrArg₂ Point.mk (hzero p.x) (hzero p.y)

theorem Point.add_add (p q r : Point α) : (p.add q).add r = p.add (q.add r) :=
  congrArg₂ Point.mk (add_assoc p.x q.x r.x) (add_assoc p.y q.y r.y)

theorem Point.Nonneg.add {p q : Point α} (hp : p.Nonneg) (hq : q.Nonneg) : (p.add q).Nonneg :=
  ⟨add_nonneg hp.x hq.x, add_nonneg hp.y hq.y⟩

theorem Point.before_add_left {p q : Point α} (hp : p.Nonneg) : q.Before (p.add q) :=
  ⟨le_add_of_nonneg_left hp.x, le_add_of_nonneg_left hp.y⟩

theorem Point.before_add_right {p q : Point α} (hq : q.Nonneg) : p.Before (p.add q) :=
  ⟨le_add_of_nonneg_right hq.x, le_add_of_nonneg_right hq.y⟩

end

namespace NestedLayout

section

variable [Scalar α] [RoundedScalar α]

theorem before_hull (a b : Point α) : a.Before (hull a b) ∧ b.Before (hull a b) := by
  unfold hull
  constructor
  · exact ⟨Scalar.le_greatest_left _ _, Scalar.le_greatest_left _ _⟩
  · exact ⟨Scalar.le_greatest_right _ _, Scalar.le_greatest_right _ _⟩

theorem foldl_hull (l : List (Point α)) (a : Point α) :
    a.Before (l.foldl hull a) ∧ ∀ b ∈ l, b.Before (l.foldl hull a) := by
  induction l generalizing a with
  | nil => exact ⟨.refl a, fun b hb => absurd hb List.not_mem_nil⟩
  | cons c l ih =>
    obtain ⟨hstart, hrest⟩ := ih (hull a c)
    obtain ⟨hleft, hright⟩ := before_hull a c
    refine ⟨hleft.trans hstart, fun b hb => ?_⟩
    rcases List.mem_cons.mp hb with rfl | hb
    · exact hright.trans hstart
    · exact hrest b hb

/-! ## Where the free children start -/

theorem padding_before_origin (s : ContainerSettings α) (children : List (Frame α)) :
    Point.Before ⟨s.padding.left, s.padding.top⟩ (originOf s children) := by
  unfold originOf
  dsimp only
  split
  · exact .refl _
  · split
    · exact ⟨RoundedScalar.le_refl _, Scalar.le_greatest_left _ _⟩
    · exact ⟨Scalar.le_greatest_left _ _, RoundedScalar.le_refl _⟩

/-- Along the flow, the free children start the distance of layers past every pinned one. -/
theorem past_pinned (s : ContainerSettings α) {children : List (Frame α)} {p : Frame α}
    (hp : p ∈ children) (hpinned : p.isPinned = true) :
    s.flow.along p.farCorner + s.layerSpacing ≤ s.flow.along (originOf s children) := by
  have hmem : p.farCorner ∈ (children.filter Frame.isPinned).map Frame.farCorner :=
    List.mem_map_of_mem (List.mem_filter.mpr ⟨hp, hpinned⟩)
  unfold originOf
  dsimp only
  split
  · rename_i hnone
    rw [hnone] at hmem
    exact absurd hmem List.not_mem_nil
  · rename_i first rest hsome
    have hfar : p.farCorner.Before (rest.foldl hull first) := by
      rw [hsome] at hmem
      rcases List.mem_cons.mp hmem with he | hmem
      · exact he ▸ (foldl_hull rest first).1
      · exact (foldl_hull rest first).2 _ hmem
    unfold Flow.along
    split
    · exact RoundedScalar.le_trans (RoundedScalar.add_le_add hfar.y _)
        (Scalar.le_greatest_right _ _)
    · exact RoundedScalar.le_trans (RoundedScalar.add_le_add hfar.x _)
        (Scalar.le_greatest_right _ _)

end

section

variable [ExactScalar α] {s : ContainerSettings α} (hs : s.Nonneg) {children : List (Frame α)}
include hs

theorem originOf_nonneg : (originOf s children).Nonneg := by
  have hbefore := padding_before_origin s children
  exact ⟨(Scalar.nonneg_iff.mp hs.padding.left).trans hbefore.x,
    (Scalar.nonneg_iff.mp hs.padding.top).trans hbefore.y⟩

/-- Along the flow, every pinned child ends before the free ones start. -/
theorem along_farCorner_le_origin {p : Frame α} (hp : p ∈ children) (hpinned : p.isPinned = true) :
    s.flow.along p.farCorner ≤ s.flow.along (originOf s children) :=
  RoundedScalar.le_trans (RoundedScalar.le_add _ hs.layerSpacing) (past_pinned s hp hpinned)

end

/-! ## The places of the children -/

section

variable [Scalar α]

/-- The frame with its place in the frame around it. -/
def placedAt (f : Frame α) (offset : Point α) : Frame α :=
  { f with x := some offset.x, y := some offset.y }

/-- What becomes of a child: a pinned one stays, and a free one is put to one of the points,
measured from where the free ones start. -/
structure Becomes (origin : Point α) (points : List (Point α)) (c d : Frame α) : Prop where
  pinned : c.isPinned = true → d = c
  free : c.isPinned = false → ∃ q ∈ points, d = placedAt c (origin.add q)

theorem Becomes.cons {origin : Point α} {points : List (Point α)} {c d : Frame α}
    (h : Becomes origin points c d) (p : Point α) : Becomes origin (p :: points) c d where
  pinned := h.pinned
  free hfree := by
    obtain ⟨q, hq, hd⟩ := h.free hfree
    exact ⟨q, List.mem_cons_of_mem _ hq, hd⟩

/-- With enough points, every child is pinned or put somewhere. -/
theorem forall₂_becomes (origin : Point α) {fs : List (Frame α)} {points : List (Point α)}
    (hcount : (fs.filter fun c => !c.isPinned).length ≤ points.length) :
    List.Forall₂ (Becomes origin points) fs (placeFree origin fs points) := by
  induction fs generalizing points with
  | nil => exact .nil
  | cons f rest ih =>
    unfold placeFree
    split
    · rename_i hpinned
      rw [List.filter_cons_of_neg (by simp [hpinned])] at hcount
      refine .cons ⟨fun _ => rfl, fun hfree => ?_⟩ (ih hcount)
      rw [hpinned] at hfree
      cases hfree
    · rename_i hfree
      rw [List.filter_cons_of_pos (by simpa using hfree)] at hcount
      cases points with
      | nil => cases hcount
      | cons q points =>
        refine .cons ⟨fun hpinned => absurd hpinned hfree, fun _ => ?_⟩ ?_
        · exact ⟨q, List.mem_cons_self, rfl⟩
        · exact (ih (Nat.le_of_succ_le_succ hcount)).imp fun _ _ h => h.cons q

end

/-! ## Containers -/

variable [ExactScalar α]

/-- Methods that answer every placement without negative numbers in full. -/
def FillsPlacements (methods : Methods α) : Prop :=
  ∀ (method : Method) (p : Placement α), 0 ≤ p.nodeSpacing → (∀ s ∈ p.sizes, s.Nonneg) →
    p.IsFilledBy (methods method p)

section

variable [NumberText α] {methods : Methods α} (iterations : Nat) (ends : List Ends)
  (above : List String) {f : Frame α} (hs : (ContainerSettings.read f).Nonneg)
include hs

/-- A free child is placed in the container, with no negative offset and, along the
flow, past everything that is pinned. -/
theorem exists_placed_child (hmethods : FillsPlacements methods)
    (hsizes : ∀ c ∈ f.children, c.isPinned = false → c.size.Nonneg) {c : Frame α}
    (hc : c ∈ f.children) (hfree : c.isPinned = false) :
    ∃ offset : Point α, offset.Nonneg ∧
      (∀ p ∈ f.children, p.isPinned = true → (ContainerSettings.read f).flow.along p.farCorner ≤
        (ContainerSettings.read f).flow.along offset) ∧
      placedAt c offset ∈ (arrange methods iterations ends above f).children := by
  generalize hread : ContainerSettings.read f = s at hs
  generalize hedges : localEdges above (f.children.map (·.id)) ends = edges
  have hfills : (placementOf s iterations f.children edges).IsFilledBy
      (methods s.method (placementOf s iterations f.children edges)) := by
    refine hmethods _ _ (Scalar.nonneg_iff.mp hs.nodeSpacing) fun size hsize => ?_
    obtain ⟨child, hchild, rfl⟩ := List.mem_map.mp hsize
    obtain ⟨hmem, hchildFree⟩ := List.mem_filter.mp hchild
    exact hsizes child hmem (by simpa using hchildFree)
  have hcount : (f.children.filter fun c => !c.isPinned).length =
      (methods s.method (placementOf s iterations f.children edges)).length := by
    rw [hfills.count]
    exact (List.length_map _).symm
  obtain ⟨d, hmem, hd⟩ :=
    (exists_of_forall₂ (forall₂_becomes (originOf s f.children) hcount.le)).1 c hc
  obtain ⟨q, hq, rfl⟩ := hd.free hfree
  have hqNonneg := hfills.nonneg q hq
  refine ⟨(originOf s f.children).add q, (originOf_nonneg hs).add hqNonneg, ?_, ?_⟩
  · intro p hp hpinned
    exact (along_farCorner_le_origin hs hp hpinned).trans
      ((Point.before_add_right hqNonneg).along s.flow)
  · unfold arrange
    rw [hread]
    dsimp only
    rw [hedges]
    exact hmem

/-- A container reaches as far as its children and its padding, so to the origin. -/
theorem size_arrange_nonneg : (arrange methods iterations ends above f).size.Nonneg := by
  have hcorner (corners : List (Point α)) : (corners.foldl hull Point.origin).Nonneg := by
    have hfar := (foldl_hull corners Point.origin).1
    exact ⟨Scalar.nonneg_iff.mp hfar.x, Scalar.nonneg_iff.mp hfar.y⟩
  exact ⟨add_nonneg (hcorner _).x (Scalar.nonneg_iff.mp hs.padding.right),
    add_nonneg (hcorner _).y (Scalar.nonneg_iff.mp hs.padding.bottom)⟩

end

end NestedLayout

end DiagramPress
