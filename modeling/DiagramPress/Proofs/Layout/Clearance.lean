-- Room for what is placed by hand: a node that the engine places keeps clear of a
-- pinned node if it lies, however deep, in what the pinned one lies in directly.
import DiagramPress.Proofs.Layout.Arrangement
import DiagramPress.Proofs.Layout.Positions

namespace DiagramPress

namespace Frame

variable {α : Type}

/-! ## Ways inwards -/

theorem Leads.congr {f g : Frame α} {path : List (Frame α)} {id : String}
    (h : f.Leads path id) (hchildren : f.children = g.children) : g.Leads path id := by
  cases h with
  | here hc => exact .here (hchildren ▸ hc)
  | into hc h => exact .into (hchildren ▸ hc) h

theorem endOf_eq_add [ExactScalar α] (start : Point α) (path : List (Frame α)) :
    endOf start path = start.add (endOf Point.origin path) := by
  induction path generalizing start with
  | nil => exact (Point.add_origin start).symm
  | cons f path ih =>
    have hstep (start : Point α) : endOf start (f :: path) = endOf (start.add f.offset) path := rfl
    rw [hstep, hstep, ih, ih (Point.origin.add f.offset), Point.origin_add, Point.add_add]

/-- From the origin, a way leads by the first offset and then by what is left of it. -/
theorem endOf_cons [ExactScalar α] (f : Frame α) (path : List (Frame α)) :
    endOf Point.origin (f :: path) = f.offset.add (endOf Point.origin path) := by
  have hstep : endOf Point.origin (f :: path) = endOf (Point.origin.add f.offset) path := rfl
  rw [hstep, Point.origin_add, endOf_eq_add]

theorem mem_inside_iff {f c : Frame α} :
    c ∈ f.inside ↔ ∃ d ∈ f.children, c = d ∨ c ∈ d.inside := by
  rw [inside_eq, List.mem_flatMap]
  simp only [List.mem_cons]

theorem mem_inside_of_child {f d c : Frame α} (hd : d ∈ f.children) (hc : c ∈ d :: d.inside) :
    c ∈ f.inside :=
  mem_inside_iff.mpr ⟨d, hd, List.mem_cons.mp hc⟩

theorem not_isLeaf_of_mem_inside {f c : Frame α} (h : c ∈ f.inside) : f.isLeaf = false := by
  obtain ⟨d, hd, -⟩ := mem_inside_iff.mp h
  have hne : f.children.isEmpty = false :=
    List.isEmpty_eq_false_iff.mpr (List.ne_nil_of_mem hd)
  simp [isLeaf, hne]

theorem inside_trans {f g c : Frame α} (hg : g ∈ f :: f.inside) (hc : c ∈ g.inside) :
    c ∈ f.inside := by
  induction f using Frame.induction with
  | step f ih =>
    rcases List.mem_cons.mp hg with rfl | hg
    · exact hc
    · obtain ⟨d, hd, hg⟩ := mem_inside_iff.mp hg
      exact mem_inside_of_child hd (List.mem_cons_of_mem _ (ih d hd (List.mem_cons.mpr hg)))

/-- Frames that can be laid out without negative offsets: a leaf has an extent, and
anything else is free and has no negative settings. -/
structure Arrangeable [ExactScalar α] [NumberText α] (f : Frame α) : Prop where
  leaf : f.isLeaf = true → f.size.Nonneg
  container : f.isLeaf = false → f.isPinned = false ∧ (ContainerSettings.read f).Nonneg

/-- What can be laid out as a whole can be laid out child by child. -/
theorem arrangeable_child [ExactScalar α] [NumberText α] {f d : Frame α}
    (hf : ∀ c ∈ f :: f.inside, c.Arrangeable) (hd : d ∈ f.children) :
    ∀ c ∈ d :: d.inside, c.Arrangeable :=
  fun c hc => hf c (List.mem_cons_of_mem _ (mem_inside_of_child hd hc))

/-- What holds other frames is free. -/
theorem free_of_mem_inside [ExactScalar α] [NumberText α] {d c : Frame α} (hd : d.Arrangeable)
    (hc : c ∈ d.inside) : d.isLeaf = false ∧ d.isPinned = false := by
  have hleaf := not_isLeaf_of_mem_inside hc
  exact ⟨hleaf, (hd.container hleaf).1⟩

end Frame

namespace NestedLayout

open DiagramPress.Frame

variable {α : Type}

/-! ## Children of a container -/

section

variable [Scalar α] [NumberText α] (e : EngineSettings α) (ends : List Ends)

/-- A child of the container at `above`, after everything in the child is laid out. -/
def laidOut (above : List String) (c : Frame α) : Frame α :=
  if c.isLeaf then c else layoutAt e ends false (above ++ [c.id]) c

theorem laidOut_of_not_isLeaf (above : List String) {c : Frame α} (hleaf : c.isLeaf = false) :
    laidOut e ends above c = layoutAt e ends false (above ++ [c.id]) c :=
  if_neg (by simp [hleaf])

theorem layoutIn_eq_map (above : List String) (fs : List (Frame α)) :
    layoutIn e ends above fs = fs.map (laidOut e ends above) := layoutIn_eq e ends above fs

theorem id_laidOut (above : List String) (c : Frame α) : (laidOut e ends above c).id = c.id := by
  unfold laidOut
  split
  · rfl
  · exact id_layoutAt e ends false _ c

/-- What leads through a child leads through the container, with the offset of the child. -/
theorem leads_placedAt {F : Frame α} (above : List String) {d : Frame α}
    (hleaf : d.isLeaf = false) {offset : Point α}
    (hmem : placedAt (laidOut e ends above d) offset ∈ F.children) {path : List (Frame α)}
    {id : String} (hway : (layoutAt e ends false (above ++ [d.id]) d).Leads path id) :
    F.Leads (placedAt (laidOut e ends above d) offset :: path) id := by
  refine .into hmem (hway.congr ?_)
  rw [laidOut_of_not_isLeaf e ends above hleaf]
  rfl

theorem isPinned_layoutAt (isRoot : Bool) (above : List String) (f : Frame α) :
    (layoutAt e ends isRoot above f).isPinned = f.isPinned := by
  rw [layoutAt_eq]
  split
  · unfold settleEmpty
    split <;> rfl
  · rfl

theorem isPinned_laidOut (above : List String) (c : Frame α) :
    (laidOut e ends above c).isPinned = c.isPinned := by
  unfold laidOut
  split
  · rfl
  · exact isPinned_layoutAt e ends false _ c

end

/-- An engine that leaves no child without a place, and no container with a negative size. -/
structure EngineSettings.Sound [ExactScalar α] (e : EngineSettings α) : Prop where
  methods : FillsPlacements e.methods
  emptySize : e.emptySize.Nonneg

section

variable [ExactScalar α] [NumberText α] {e : EngineSettings α} (he : e.Sound) (ends : List Ends)
include he

theorem size_laidOut_nonneg (above : List String) {c : Frame α} (hc : c.Arrangeable) :
    (laidOut e ends above c).size.Nonneg := by
  unfold laidOut
  cases hleaf : c.isLeaf with
  | true => exact hc.leaf hleaf
  | false =>
    rw [if_neg Bool.false_ne_true, layoutAt_eq]
    split
    · exact he.emptySize
    · exact size_arrange_nonneg _ _ _ (hc.container hleaf).2

/-- A free child of a container that is laid out has no negative offset and stands,
along the flow, past everything that is pinned there. -/
theorem exists_laidOut_child {f : Frame α} (hf : ∀ c ∈ f :: f.inside, c.Arrangeable)
    (isRoot : Bool) (above : List String) {c : Frame α} (hc : c ∈ f.children)
    (hfree : c.isPinned = false) :
    ∃ offset : Point α, offset.Nonneg ∧
      (∀ p ∈ f.children, p.isPinned = true → (ContainerSettings.read f).flow.along p.farCorner ≤
        (ContainerSettings.read f).flow.along offset) ∧
      placedAt (laidOut e ends above c) offset ∈ (layoutAt e ends isRoot above f).children := by
  have hinside {d : Frame α} (hd : d ∈ f.children) : d.Arrangeable :=
    arrangeable_child hf hd d List.mem_cons_self
  have hleaf : f.isLeaf = false :=
    not_isLeaf_of_mem_inside (mem_inside_of_child hc List.mem_cons_self)
  have hsettings := ((hf f List.mem_cons_self).container hleaf).2
  have hempty : ¬ f.children.isEmpty = true := by
    simpa using List.ne_nil_of_mem hc
  rw [layoutAt_eq, if_neg hempty, layoutIn_eq_map]
  obtain ⟨offset, hoffset, hpast, hmem⟩ := exists_placed_child e.iterations ends above
    (f := { f with children := f.children.map (laidOut e ends above) }) hsettings he.methods
    (by
      intro child hchild _
      obtain ⟨d, hd, rfl⟩ := List.mem_map.mp hchild
      exact size_laidOut_nonneg he ends above (hinside hd))
    (List.mem_map_of_mem hc) ((isPinned_laidOut e ends above c).trans hfree)
  refine ⟨offset, hoffset, fun p hp hpinned => ?_, hmem⟩
  -- What is pinned is a leaf, so it is not touched before.
  have hpinnedLeaf : p.isLeaf = true := by
    by_contra hcontainer
    have hfree := ((hinside hp).container (by simpa using hcontainer)).1
    rw [hpinned] at hfree
    cases hfree
  have hsame : laidOut e ends above p = p := if_pos hpinnedLeaf
  refine hpast p ?_ hpinned
  rw [← hsame]
  exact List.mem_map_of_mem hp

/-! ## Ways through an answer -/

/-- The way to a free frame leads past everything that is pinned in the outermost frame. -/
theorem exists_way {f : Frame α} (hf : ∀ c ∈ f :: f.inside, c.Arrangeable) (isRoot : Bool)
    (above : List String) {c : Frame α} (hc : c ∈ f.inside) (hfree : c.isPinned = false) :
    ∃ path, (layoutAt e ends isRoot above f).Leads path c.id ∧
      (endOf Point.origin path).Nonneg ∧
      ∀ p ∈ f.children, p.isPinned = true → (ContainerSettings.read f).flow.along p.farCorner ≤
        (ContainerSettings.read f).flow.along (endOf Point.origin path) := by
  induction f using Frame.induction generalizing isRoot above with
  | step f ih =>
    obtain ⟨d, hd, hinside⟩ := mem_inside_iff.mp hc
    have hall := arrangeable_child hf hd
    rcases hinside with rfl | hinside
    · obtain ⟨offset, hoffset, hpast, hmem⟩ := exists_laidOut_child he ends hf isRoot above hd hfree
      have hend : endOf Point.origin [placedAt (laidOut e ends above c) offset] = offset := by
        rw [endOf_cons]
        exact Point.add_origin offset
      refine ⟨[placedAt (laidOut e ends above c) offset], ?_, ?_, ?_⟩
      · rw [← id_laidOut e ends above c]
        exact .here hmem
      · rwa [hend]
      · rwa [hend]
    · obtain ⟨hleaf, hdFree⟩ := free_of_mem_inside (hall d List.mem_cons_self) hinside
      obtain ⟨offset, hoffset, hpast, hmem⟩ :=
        exists_laidOut_child he ends hf isRoot above hd hdFree
      obtain ⟨path, hway, hend, -⟩ := ih d hd hall false (above ++ [d.id]) hinside
      have hcons : endOf Point.origin (placedAt (laidOut e ends above d) offset :: path) =
          offset.add (endOf Point.origin path) := endOf_cons _ path
      refine ⟨placedAt (laidOut e ends above d) offset :: path, ?_, ?_, fun p hp hpinned => ?_⟩
      · exact leads_placedAt e ends above hleaf hmem hway
      · rw [hcons]
        exact hoffset.add hend
      · rw [hcons]
        exact (hpast p hp hpinned).trans ((Point.before_add_right hend).along _)

/-- From outside as well, the way to a free frame in `g` leads past everything that is
pinned in `g`: no offset on the way to `g` is negative. -/
theorem exists_way_past_pinned {f : Frame α} (hf : ∀ c ∈ f :: f.inside, c.Arrangeable)
    (isRoot : Bool) (above : List String) {g c : Frame α} (hg : g ∈ f :: f.inside)
    (hc : c ∈ g.inside) (hfree : c.isPinned = false) :
    ∃ path, (layoutAt e ends isRoot above f).Leads path c.id ∧
      ∀ p ∈ g.children, p.isPinned = true → (ContainerSettings.read g).flow.along p.farCorner ≤
        (ContainerSettings.read g).flow.along (endOf Point.origin path) := by
  induction f using Frame.induction generalizing isRoot above with
  | step f ih =>
    rcases List.mem_cons.mp hg with rfl | hg
    · obtain ⟨path, hway, -, hpast⟩ := exists_way he ends hf isRoot above hc hfree
      exact ⟨path, hway, hpast⟩
    · obtain ⟨d, hd, hg⟩ := mem_inside_iff.mp hg
      have hg : g ∈ d :: d.inside := List.mem_cons.mpr hg
      have hall := arrangeable_child hf hd
      have hinside : c ∈ d.inside := inside_trans hg hc
      obtain ⟨hleaf, hdFree⟩ := free_of_mem_inside (hall d List.mem_cons_self) hinside
      obtain ⟨offset, hoffset, -, hmem⟩ := exists_laidOut_child he ends hf isRoot above hd hdFree
      obtain ⟨path, hway, hpast⟩ := ih d hd hall false (above ++ [d.id]) hg
      refine ⟨placedAt (laidOut e ends above d) offset :: path, ?_, fun p hp hpinned => ?_⟩
      · exact leads_placedAt e ends above hleaf hmem hway
      · rw [endOf_cons]
        exact (hpast p hp hpinned).trans ((Point.before_add_left hoffset).along _)

end

/-- The engine answers with the outermost container, laid out at the origin. -/
theorem answer_of_run [Scalar α] [NumberText α] {e : EngineSettings α} {root answer : Frame α}
    (h : run e root = .ok answer) :
    answer.offset = Point.origin ∧ answer.names = root.names ∧
      ∃ ends, answer.children = (layoutAt e ends true [] root).children := by
  unfold run at h
  cases hends : resolve root with
  | error cause =>
    rw [hends] at h
    cases h
  | ok ends =>
    rw [hends] at h
    obtain rfl := Except.ok.inj h
    refine ⟨rfl, ?_, ends, rfl⟩
    rw [← names_layoutAt e ends true [] root]
    exact names_congr rfl

end NestedLayout

end DiagramPress
