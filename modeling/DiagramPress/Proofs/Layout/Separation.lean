-- Gaps everywhere in an answer: where every container holds its children with room
-- around them and every two children have a gap in between, so do any two frames of
-- which neither holds the other.
import DiagramPress.Proofs.Layout.Clearance
import DiagramPress.Proofs.Layout.Spacing

namespace DiagramPress

namespace Frame

variable {α : Type}

/-! ## Frames with room -/

section

variable [Scalar α]

/-- The box of a frame in the frame around it. -/
def box (f : Frame α) : Bounds α := Bounds.ofCorner f.offset f.size

/-- Between every two children there is at least the gap. -/
def Spaced (gap : α) (f : Frame α) : Prop := (f.children.map box).Pairwise (Bounds.ApartBy gap)

/-- Around every child there is room inside the frame, as much as the padding says. -/
def Encloses (padding : Padding α) (f : Frame α) : Prop :=
  ∀ c ∈ f.children, Bounds.Surrounds padding (Bounds.ofCorner Point.origin f.size) c.box

theorem spaced_of_childless {f : Frame α} (h : f.children = []) (gap : α) : f.Spaced gap := by
  rw [Spaced, h]
  exact .nil

theorem encloses_of_childless {f : Frame α} (h : f.children = []) (padding : Padding α) :
    f.Encloses padding := by
  intro c hc
  rw [h] at hc
  cases hc

end

/-- One frame inside `f` has the first id, and the second id is inside it. -/
def Holds (f : Frame α) (outer inner : String) : Prop :=
  ∃ c ∈ f.inside, c.id = outer ∧ inner ∈ c.names

theorem Holds.of_child {f c : Frame α} (hc : c ∈ f.children) {outer inner : String}
    (h : c.Holds outer inner) : f.Holds outer inner := by
  obtain ⟨d, hd, hid, hmem⟩ := h
  exact ⟨d, mem_inside_of_child hc (List.mem_cons_of_mem _ hd), hid, hmem⟩

theorem holds_child {f c : Frame α} (hc : c ∈ f.children) {inner : String} (h : inner ∈ c.names) :
    f.Holds c.id inner :=
  ⟨c, mem_inside_of_child hc List.mem_cons_self, rfl, h⟩

end Frame

namespace Layout

open DiagramPress.Frame

variable {α : Type}

/-! ## Boxes of the frames inside -/

section

variable [Scalar α]

/-- The box of a frame whose corner is at that point of the page. -/
abbrev boxAt (corner : Point α) (f : Frame α) : Bounds α := Bounds.ofCorner corner f.size

theorem mem_absolute_iff {origin : Point α} {f : Frame α} {entry : String × Bounds α} :
    entry ∈ absolute origin f ↔ ∃ c ∈ f.children, entry = (c.id, boxAt (origin.add c.offset) c) ∨
      entry ∈ absolute (origin.add c.offset) c := by
  rw [absolute_eq, List.mem_flatMap]
  simp only [List.mem_cons]
  exact Iff.rfl

theorem fst_mem_names {origin : Point α} {f : Frame α} {entry : String × Bounds α}
    (h : entry ∈ absolute origin f) : entry.1 ∈ f.names := by
  rw [← map_fst_absolute origin]
  exact List.mem_map_of_mem h

/-- A frame inside has its box among all others, and so has what it holds. -/
theorem exists_corner (origin : Point α) {f c : Frame α} (hc : c ∈ f.inside) :
    ∃ corner, (c.id, boxAt corner c) ∈ absolute origin f ∧
      absolute corner c ⊆ absolute origin f := by
  induction f using Frame.induction generalizing origin with
  | step f ih =>
    obtain ⟨d, hd, hcd⟩ := mem_inside_iff.mp hc
    have hsub : absolute (origin.add d.offset) d ⊆ absolute origin f :=
      fun entry hentry => mem_absolute_iff.mpr ⟨d, hd, .inr hentry⟩
    rcases hcd with rfl | hcd
    · exact ⟨origin.add c.offset, mem_absolute_iff.mpr ⟨c, hd, .inl rfl⟩, hsub⟩
    · obtain ⟨corner, hmem, hinside⟩ := ih d hd (origin.add d.offset) hcd
      exact ⟨corner, hsub hmem, List.Subset.trans hinside hsub⟩

end

section

variable [ExactScalar α] {gap : α} {padding : Padding α}

theorem boxAt_eq_shift (corner : Point α) (f : Frame α) :
    boxAt corner f = (boxAt Point.origin f).shift corner := by
  have hzero (a : α) : Scalar.ofNat 0 + a = a := by rw [Scalar.ofNat_zero, zero_add]
  exact congrArg₂ (fun x y => Bounds.mk x y f.size.width f.size.height) (hzero corner.x).symm
    (hzero corner.y).symm

theorem boxAt_add_offset (origin : Point α) (c : Frame α) :
    boxAt (origin.add c.offset) c = c.box.shift origin :=
  congrArg₂ (fun x y => Bounds.mk x y c.size.width c.size.height) (add_comm origin.x c.offset.x)
    (add_comm origin.y c.offset.y)

/-- Wherever a frame stands, it surrounds its children there. -/
theorem surrounds_child {f c : Frame α} (hf : f.Encloses padding) (hc : c ∈ f.children)
    (corner : Point α) :
    Bounds.Surrounds padding (boxAt corner f) (boxAt (corner.add c.offset) c) := by
  rw [boxAt_eq_shift, boxAt_add_offset]
  exact (hf c hc).shift corner

/-- A frame covers everything inside, if everything in it encloses its children. -/
theorem covers_inside (hpadding : padding.Nonneg) {f : Frame α}
    (hf : ∀ c ∈ f :: f.inside, c.Encloses padding) {corner : Point α} {entry : String × Bounds α}
    (hentry : entry ∈ absolute corner f) : (boxAt corner f).Covers entry.2 := by
  induction f using Frame.induction generalizing corner with
  | step f ih =>
    obtain ⟨c, hc, hentry⟩ := mem_absolute_iff.mp hentry
    have hdirect := (surrounds_child (hf f List.mem_cons_self) hc corner).covers hpadding
    rcases hentry with rfl | hentry
    · exact hdirect
    · exact hdirect.trans (ih c hc (fun d hd => hf d (List.mem_cons_of_mem _
        (mem_inside_of_child hc hd))) hentry)

/-- Of a child and what it holds, everything lies in the box of the child. -/
theorem covers_entry (hpadding : padding.Nonneg) {c : Frame α}
    (hc : ∀ d ∈ c :: c.inside, d.Encloses padding) {corner : Point α} {entry : String × Bounds α}
    (hentry : entry = (c.id, boxAt corner c) ∨ entry ∈ absolute corner c) :
    (boxAt corner c).Covers entry.2 := by
  rcases hentry with rfl | hentry
  · exact .refl _
  · exact covers_inside hpadding hc hentry

/-- Two frames are the same, or there is the gap between them, or one holds the other. -/
theorem apartBy_of_mem_absolute (hpadding : padding.Nonneg) {f : Frame α}
    (hspaced : ∀ c ∈ f :: f.inside, c.Spaced gap) (hf : ∀ c ∈ f.inside, c.Encloses padding)
    {origin : Point α} {a b : String × Bounds α} (ha : a ∈ absolute origin f)
    (hb : b ∈ absolute origin f) :
    a.1 = b.1 ∨ a.2.ApartBy gap b.2 ∨ f.Holds a.1 b.1 ∨ f.Holds b.1 a.1 := by
  induction f using Frame.induction generalizing origin with
  | step f ih =>
    obtain ⟨c, hc, hac⟩ := mem_absolute_iff.mp ha
    obtain ⟨d, hd, hbd⟩ := mem_absolute_iff.mp hb
    have hinside {c : Frame α} (hc : c ∈ f.children) : ∀ e ∈ c :: c.inside, e.Encloses padding :=
      fun e he => hf e (mem_inside_of_child hc he)
    by_cases hcd : c = d
    · -- Both are in one child: one of them is the child itself, or both lie deeper.
      subst hcd
      rcases hac with rfl | hac
      · rcases hbd with rfl | hbd
        · exact .inl rfl
        · exact .inr (.inr (.inl (holds_child hc (fst_mem_names hbd))))
      · rcases hbd with rfl | hbd
        · exact .inr (.inr (.inr (holds_child hc (fst_mem_names hac))))
        · have hdeeper := ih c hc
            (fun e he => hspaced e (List.mem_cons_of_mem _ (mem_inside_of_child hc he)))
            (fun e he => hinside hc e (List.mem_cons_of_mem _ he)) hac hbd
          exact hdeeper.imp_right (.imp_right (.imp (.of_child hc) (.of_child hc)))
    · -- They are in two children, whose boxes cover them.
      have hsymm : Std.Symm fun c d : Frame α => c.box.ApartBy gap d.box := ⟨fun _ _ h => h.symm⟩
      have hchildren := (List.pairwise_map.mp (hspaced f List.mem_cons_self)).forall hc hd hcd
      have hplaced := (Bounds.apartBy_shift origin).mpr hchildren
      rw [← boxAt_add_offset, ← boxAt_add_offset] at hplaced
      exact .inr (.inl (hplaced.of_covers (covers_entry hpadding (hinside hc) hac)
        (covers_entry hpadding (hinside hd) hbd)))

end

end Layout

end DiagramPress
