-- The engine keeps what it lays out apart: where nothing is pinned and the methods
-- keep children apart, every container is spaced and holds its children with room.
import DiagramPress.Proofs.Layout.Separation

namespace DiagramPress

/-! ## What the engine is asked for -/

/-- The method keeps children apart by the smaller one of the two distances. -/
def Methods.Spaces {α : Type} [ExactScalar α] (methods : Methods α) (method : Method) : Prop :=
  ∀ p : Placement α, 0 ≤ p.nodeSpacing → 0 ≤ p.layerSpacing → (∀ s ∈ p.sizes, s.Nonneg) →
    p.IsSpacedBy (min p.nodeSpacing p.layerSpacing) (methods method p)

/-- Settings with a method that keeps children apart, and with distances as large as the gap. -/
structure ContainerSettings.Keeps {α : Type} [ExactScalar α] (methods : Methods α) (gap : α)
    (s : ContainerSettings α) : Prop where
  spaces : methods.Spaces s.method
  nodeSpacing : 0 ≤ s.nodeSpacing
  layerSpacing : 0 ≤ s.layerSpacing
  gap : gap ≤ min s.nodeSpacing s.layerSpacing

namespace Frame

variable {α : Type}

/-- A frame that is free; a leaf has an extent, and a container keeps the gap. -/
structure Spaceable [ExactScalar α] [NumberText α] (methods : Methods α) (gap : α) (f : Frame α) :
    Prop where
  free : f.isPinned = false
  leaf : f.isLeaf = true → f.size.Nonneg
  container : f.isLeaf = false → (ContainerSettings.read f).Keeps methods gap

/-- The two frames differ at most in their place and their settings. -/
structure SameInside (f g : Frame α) : Prop where
  id : f.id = g.id
  children : f.children = g.children
  width : f.width = g.width
  height : f.height = g.height

namespace SameInside

variable {f g : Frame α}

theorem names (h : f.SameInside g) : f.names = g.names := names_congr h.children

theorem inside (h : f.SameInside g) : f.inside = g.inside := by
  rw [inside_eq, inside_eq, h.children]

theorem size [Scalar α] (h : f.SameInside g) : f.size = g.size := by
  rw [Frame.size, Frame.size, h.width, h.height]

theorem spaced [Scalar α] {gap : α} (h : f.SameInside g) (hg : g.Spaced gap) : f.Spaced gap := by
  rw [Spaced, h.children]
  exact hg

theorem encloses [Scalar α] {padding : Padding α} (h : f.SameInside g) (hg : g.Encloses padding) :
    f.Encloses padding := by
  rw [Encloses, h.children, h.size]
  exact hg

end SameInside

end Frame

namespace NestedLayout

open DiagramPress.Frame

variable {α : Type}

/-! ## Children with places -/

section

variable [Scalar α]

/-- Children that get places stay what they are. -/
theorem forall₂_placeFree (origin : Point α) (fs : List (Frame α)) (points : List (Point α)) :
    List.Forall₂ SameInside (placeFree origin fs points) fs := by
  induction fs generalizing points with
  | nil => exact .nil
  | cons f rest ih =>
    unfold placeFree
    split
    · exact .cons ⟨rfl, rfl, rfl, rfl⟩ (ih points)
    · cases points with
      | nil => exact List.forall₂_same.mpr fun f _ => ⟨rfl, rfl, rfl, rfl⟩
      | cons q points => exact .cons ⟨rfl, rfl, rfl, rfl⟩ (ih points)

/-- Free children get the points in their order. -/
theorem placeFree_eq (origin : Point α) {fs : List (Frame α)} {points : List (Point α)}
    (hfree : ∀ f ∈ fs, f.isPinned = false) (hcount : fs.length = points.length) :
    placeFree origin fs points = List.zipWith (fun f q => placedAt f (origin.add q)) fs points := by
  induction fs generalizing points with
  | nil => rfl
  | cons f rest ih =>
    cases points with
    | nil => cases hcount
    | cons q points =>
      have hfirst : ¬ f.isPinned = true := by
        rw [hfree f List.mem_cons_self]
        exact Bool.false_ne_true
      rw [placeFree, if_neg hfirst, List.zipWith_cons_cons,
        ih (fun f hf => hfree f (List.mem_cons_of_mem _ hf)) (Nat.succ.inj hcount)]
      rfl

/-- Without pinned children, the free ones start right inside the padding. -/
theorem originOf_of_free (s : ContainerSettings α) {children : List (Frame α)}
    (hfree : ∀ f ∈ children, f.isPinned = false) :
    originOf s children = ⟨s.padding.left, s.padding.top⟩ := by
  have hnone : children.filter Frame.isPinned = [] := by
    rw [List.filter_eq_nil_iff]
    intro f hf
    rw [hfree f hf]
    exact Bool.false_ne_true
  unfold originOf
  simp only [hnone, List.map_nil]

end

/-! ## One container -/

section

variable [ExactScalar α] {f : Frame α} (hfree : ∀ c ∈ f.children, c.isPinned = false)
include hfree

/-- A method is given the sizes of all children. -/
theorem sizes_placementOf (s : ContainerSettings α) (iterations : Nat) (edges : List (Nat × Nat)) :
    (placementOf s iterations f.children edges).sizes = f.children.map Frame.size := by
  have hall : (f.children.filter fun c => !c.isPinned) = f.children :=
    List.filter_eq_self.mpr fun c hc => by rw [hfree c hc]; rfl
  rw [placementOf, hall]

variable [NumberText α] {methods : Methods α} (iterations : Nat) (ends : List Ends)
  (above : List String) (hfills : FillsPlacements methods)
  (hnode : 0 ≤ (ContainerSettings.read f).nodeSpacing) (hsizes : ∀ c ∈ f.children, c.size.Nonneg)
include hfills hnode hsizes

/-- Each child gets a point of the method, measured from inside the padding. -/
theorem children_arrange : ∃ p : Placement α, p.sizes = f.children.map Frame.size ∧
    p.nodeSpacing = (ContainerSettings.read f).nodeSpacing ∧
    p.layerSpacing = (ContainerSettings.read f).layerSpacing ∧
    p.IsFilledBy (methods (ContainerSettings.read f).method p) ∧
    (arrange methods iterations ends above f).children =
      List.zipWith (fun c q => placedAt c (Point.add ⟨(ContainerSettings.read f).padding.left,
        (ContainerSettings.read f).padding.top⟩ q)) f.children
        (methods (ContainerSettings.read f).method p) := by
  generalize hread : ContainerSettings.read f = s at hnode
  generalize hplacement : placementOf s iterations f.children
    (localEdges above (f.children.map (·.id)) ends) = p
  have hpsizes : p.sizes = f.children.map Frame.size := by
    rw [← hplacement]
    exact sizes_placementOf hfree s iterations _
  have hnodeSpacing : p.nodeSpacing = s.nodeSpacing := by
    rw [← hplacement]
    rfl
  have hlayerSpacing : p.layerSpacing = s.layerSpacing := by
    rw [← hplacement]
    rfl
  have hfilled : p.IsFilledBy (methods s.method p) := by
    refine hfills _ _ (hnodeSpacing ▸ hnode) fun size hsize => ?_
    rw [hpsizes] at hsize
    obtain ⟨c, hc, rfl⟩ := List.mem_map.mp hsize
    exact hsizes c hc
  have hcount : f.children.length = (methods s.method p).length := by
    rw [hfilled.count, Placement.count, hpsizes, List.length_map]
  refine ⟨p, hpsizes, hnodeSpacing, hlayerSpacing, hfilled, ?_⟩
  unfold arrange
  rw [hread]
  dsimp only
  rw [hplacement, originOf_of_free s hfree, placeFree_eq _ hfree hcount]

/-- A container that is arranged has room for its padding around each child. -/
theorem encloses_arrange :
    (arrange methods iterations ends above f).Encloses (ContainerSettings.read f).padding := by
  obtain ⟨p, -, -, -, hfilled, hchildren⟩ :=
    children_arrange hfree iterations ends above hfills hnode hsizes
  intro c hc
  have hfar : c.farCorner.Before
      (((arrange methods iterations ends above f).children.map Frame.farCorner).foldl hull
        Point.origin) :=
    (foldl_hull _ _).2 _ (List.mem_map_of_mem hc)
  rw [hchildren] at hc
  obtain ⟨d, q, hq, rfl⟩ : ∃ d : Frame α, ∃ q ∈ methods (ContainerSettings.read f).method p,
      c = placedAt d (Point.add ⟨(ContainerSettings.read f).padding.left,
        (ContainerSettings.read f).padding.top⟩ q) := by
    obtain ⟨i, hi, rfl⟩ := List.mem_iff_getElem.mp hc
    rw [List.getElem_zipWith]
    exact ⟨_, _, List.getElem_mem _, rfl⟩
  have hq := hfilled.nonneg q hq
  have hzero (a : α) : Scalar.ofNat 0 + a = a := by rw [Scalar.ofNat_zero, zero_add]
  constructor
  · refine (Scalar.ofNat_zero (α := α)).le.trans ?_
    exact sub_nonneg.mpr (le_add_of_nonneg_right hq.x)
  · refine (Scalar.ofNat_zero (α := α)).le.trans ?_
    exact sub_nonneg.mpr (le_add_of_nonneg_right hq.y)
  · refine (add_le_add_left hfar.x _).trans (hzero _).ge
  · refine (add_le_add_left hfar.y _).trans (hzero _).ge

/-- Children that the method keeps apart are apart in the container. -/
theorem spaced_arrange {gap : α} (hkeeps : (ContainerSettings.read f).Keeps methods gap) :
    (arrange methods iterations ends above f).Spaced gap := by
  obtain ⟨p, hpsizes, hnodeSpacing, hlayerSpacing, hfilled, hchildren⟩ :=
    children_arrange hfree iterations ends above hfills hnode hsizes
  have hspaced := hkeeps.spaces p (hnodeSpacing ▸ hkeeps.nodeSpacing)
    (hlayerSpacing ▸ hkeeps.layerSpacing) fun size hsize => by
      rw [hpsizes] at hsize
      obtain ⟨c, hc, rfl⟩ := List.mem_map.mp hsize
      exact hsizes c hc
  have hboxes : (arrange methods iterations ends above f).children.map Frame.box =
      (p.boxes (methods (ContainerSettings.read f).method p)).map
        (·.shift ⟨(ContainerSettings.read f).padding.left,
          (ContainerSettings.read f).padding.top⟩) := by
    rw [hchildren, Placement.boxes, hpsizes, List.map_zipWith, List.map_zipWith,
      List.zipWith_map_right, List.zipWith_comm]
    have hbox (q : Point α) (c : Frame α) :
        (placedAt c (Point.add ⟨(ContainerSettings.read f).padding.left,
          (ContainerSettings.read f).padding.top⟩ q)).box = (Bounds.ofCorner q c.size).shift
            ⟨(ContainerSettings.read f).padding.left, (ContainerSettings.read f).padding.top⟩ :=
      congrArg₂ (fun x y => Bounds.mk x y c.size.width c.size.height) (add_comm _ q.x)
        (add_comm _ q.y)
    simp only [hbox]
  rw [Frame.Spaced, hboxes, List.pairwise_map]
  refine hspaced.imp fun hapart => (Bounds.apartBy_shift _).mpr (hapart.mono ?_)
  rw [hnodeSpacing, hlayerSpacing]
  exact hkeeps.gap

end

/-! ## All containers -/

section

variable [Scalar α] [NumberText α] (e : EngineSettings α) (ends : List Ends)

/-- The children of what is laid out are those that are asked for, each laid out. -/
theorem forall₂_layoutAt (isRoot : Bool) (above : List String) (f : Frame α) :
    List.Forall₂ SameInside (layoutAt e ends isRoot above f).children
      (f.children.map (laidOut e ends above)) := by
  have hsame (fs : List (Frame α)) : List.Forall₂ SameInside fs fs :=
    List.forall₂_same.mpr fun f _ => ⟨rfl, rfl, rfl, rfl⟩
  rw [layoutAt_eq, layoutIn_eq_map]
  split
  · unfold settleEmpty
    split <;> exact hsame _
  · exact forall₂_placeFree _ _ _

theorem exists_child_layoutAt (isRoot : Bool) (above : List String) {f g : Frame α}
    (hg : g ∈ f.children) :
    ∃ c ∈ (layoutAt e ends isRoot above f).children, c.SameInside (laidOut e ends above g) :=
  (exists_of_forall₂ (forall₂_layoutAt e ends isRoot above f)).2 _ (List.mem_map_of_mem hg)

/-- Everything in an answer was asked for, and is laid out. -/
theorem exists_asked {isRoot : Bool} {above : List String} {f c : Frame α}
    (hc : c ∈ (layoutAt e ends isRoot above f).inside) :
    ∃ g ∈ f.inside, ∃ way, c.SameInside (laidOut e ends way g) := by
  induction f using Frame.induction generalizing isRoot above with
  | step f ih =>
    obtain ⟨d, hd, hcd⟩ := mem_inside_iff.mp hc
    obtain ⟨b, hb, hsame⟩ := (exists_of_forall₂ (forall₂_layoutAt e ends isRoot above f)).1 d hd
    obtain ⟨g, hg, rfl⟩ := List.mem_map.mp hb
    rcases hcd with rfl | hcd
    · exact ⟨g, mem_inside_of_child hg List.mem_cons_self, above, hsame⟩
    · rw [hsame.inside] at hcd
      cases hleaf : g.isLeaf with
      | true =>
        rw [laidOut, if_pos hleaf] at hcd
        rw [not_isLeaf_of_mem_inside hcd] at hleaf
        cases hleaf
      | false =>
        rw [laidOut_of_not_isLeaf e ends above hleaf] at hcd
        obtain ⟨h, hh, way, hsame⟩ := ih g hg hcd
        exact ⟨h, mem_inside_of_child hg (List.mem_cons_of_mem _ hh), way, hsame⟩

/-- Everything that is asked for is in the answer, laid out. -/
theorem exists_answered (isRoot : Bool) (above : List String) {f g : Frame α} (hg : g ∈ f.inside) :
    ∃ c ∈ (layoutAt e ends isRoot above f).inside, ∃ way, c.SameInside (laidOut e ends way g) := by
  induction f using Frame.induction generalizing isRoot above with
  | step f ih =>
    obtain ⟨d, hd, hgd⟩ := mem_inside_iff.mp hg
    obtain ⟨c, hc, hsame⟩ := exists_child_layoutAt e ends isRoot above hd
    rcases hgd with rfl | hgd
    · exact ⟨c, mem_inside_of_child hc List.mem_cons_self, above, hsame⟩
    · have hleaf := not_isLeaf_of_mem_inside hgd
      obtain ⟨b, hb, way, hsame'⟩ := ih d hd false (above ++ [d.id]) hgd
      rw [← laidOut_of_not_isLeaf e ends above hleaf, ← hsame.inside] at hb
      exact ⟨b, mem_inside_of_child hc (List.mem_cons_of_mem _ hb), way, hsame'⟩

theorem names_laidOut (above : List String) (c : Frame α) :
    (laidOut e ends above c).names = c.names := by
  unfold laidOut
  split
  · rfl
  · exact names_layoutAt e ends false _ c

/-- What holds what is as it was asked for. -/
theorem holds_layoutAt {isRoot : Bool} {above : List String} {f : Frame α} {outer inner : String}
    (h : (layoutAt e ends isRoot above f).Holds outer inner) : f.Holds outer inner := by
  obtain ⟨c, hc, hid, hmem⟩ := h
  obtain ⟨g, hg, way, hsame⟩ := exists_asked e ends hc
  refine ⟨g, hg, ?_, ?_⟩
  · rw [← id_laidOut e ends way g, ← hsame.id, hid]
  · rw [← names_laidOut e ends way g, ← hsame.names]
    exact hmem

end

/-! ## What is asked for keeps its gaps -/

/-- Frames that an engine lays out with gaps: all are spaceable, and the containers inside
have one padding. -/
structure Roomy [ExactScalar α] [NumberText α] (methods : Methods α) (gap : α)
    (padding : Padding α) (f : Frame α) : Prop where
  self : f.Spaceable methods gap
  inside : ∀ c ∈ f.inside, c.Spaceable methods gap
  padding : ∀ c ∈ f.inside, c.isLeaf = false → (ContainerSettings.read c).padding = padding

section

variable [ExactScalar α] [NumberText α] {e : EngineSettings α} (he : e.Sound) (ends : List Ends)
  {gap : α} {padding : Padding α} (hpadding : padding.Nonneg) {f : Frame α}
  (hf : Roomy e.methods gap padding f)
include he hpadding hf

omit he hpadding in
theorem Roomy.of_mem_inside {g : Frame α} (hg : g ∈ f.inside) : Roomy e.methods gap padding g where
  self := hf.inside g hg
  inside c hc := hf.inside c (inside_trans (List.mem_cons_of_mem _ hg) hc)
  padding c hc := hf.padding c (inside_trans (List.mem_cons_of_mem _ hg) hc)

omit he in
theorem Roomy.arrangeable {c : Frame α} (hc : c ∈ f.inside) : c.Arrangeable where
  leaf := (hf.inside c hc).leaf
  container hleaf := by
    have hkeeps := (hf.inside c hc).container hleaf
    refine ⟨(hf.inside c hc).free, ?_⟩
    exact ⟨Scalar.nonneg_iff.mpr hkeeps.nodeSpacing, Scalar.nonneg_iff.mpr hkeeps.layerSpacing,
      (hf.padding c hc hleaf).symm ▸ hpadding⟩

/-- A container is spaced after everything inside is laid out, and holds it with room. -/
theorem Roomy.layoutAt (isRoot : Bool) (above : List String) :
    (NestedLayout.layoutAt e ends isRoot above f).Spaced gap ∧
      (NestedLayout.layoutAt e ends isRoot above f).Encloses
        (ContainerSettings.read f).padding := by
  have hchild {c : Frame α} (hc : c ∈ f.children) : c ∈ f.inside :=
    mem_inside_of_child hc List.mem_cons_self
  by_cases hempty : f.children.isEmpty = true
  · have hnone : (NestedLayout.layoutAt e ends isRoot above f).children = [] := by
      have hchildren := forall₂_layoutAt e ends isRoot above f
      rwa [List.isEmpty_iff.mp hempty, List.map_nil, List.forall₂_nil_right_iff] at hchildren
    exact ⟨spaced_of_childless hnone gap, encloses_of_childless hnone _⟩
  · have hleaf : f.isLeaf = false := by
      simp [isLeaf, hempty]
    have hkeeps := hf.self.container hleaf
    have hfree : ∀ c ∈ f.children.map (laidOut e ends above), c.isPinned = false := by
      intro c hc
      obtain ⟨d, hd, rfl⟩ := List.mem_map.mp hc
      rw [isPinned_laidOut]
      exact (hf.inside d (hchild hd)).free
    have hsizes : ∀ c ∈ f.children.map (laidOut e ends above), c.size.Nonneg := by
      intro c hc
      obtain ⟨d, hd, rfl⟩ := List.mem_map.mp hc
      exact size_laidOut_nonneg he ends above (hf.arrangeable hpadding (hchild hd))
    rw [layoutAt_eq, layoutIn_eq_map, if_neg hempty]
    exact ⟨spaced_arrange (f := { f with children := f.children.map (laidOut e ends above) }) hfree
        e.iterations ends above he.methods hkeeps.nodeSpacing hsizes hkeeps,
      encloses_arrange (f := { f with children := f.children.map (laidOut e ends above) }) hfree
        e.iterations ends above he.methods hkeeps.nodeSpacing hsizes⟩

/-- So is every container inside. -/
theorem Roomy.inside_layoutAt (isRoot : Bool) (above : List String) :
    ∀ c ∈ (NestedLayout.layoutAt e ends isRoot above f).inside,
      c.Spaced gap ∧ c.Encloses padding := by
  intro c hc
  obtain ⟨g, hg, way, hsame⟩ := exists_asked e ends hc
  have hlaid : (laidOut e ends way g).Spaced gap ∧ (laidOut e ends way g).Encloses padding := by
    cases hleaf : g.isLeaf with
    | true =>
      have hnone := (isLeaf_iff.mp hleaf).1
      rw [laidOut, if_pos hleaf]
      exact ⟨spaced_of_childless hnone gap, encloses_of_childless hnone padding⟩
    | false =>
      rw [laidOut_of_not_isLeaf e ends way hleaf, ← hf.padding g hg hleaf]
      exact (hf.of_mem_inside hg).layoutAt he ends hpadding false _
  exact ⟨hsame.spaced hlaid.1, hsame.encloses hlaid.2⟩

end

/-- What the boxes of an answer have to do with the frames that were asked for. -/
structure Separates [Scalar α] (gap : α) (padding : Padding α) (root : Frame α)
    (boxes : List (String × Bounds α)) : Prop where
  /-- Two boxes belong to one frame, or have the gap in between, or one frame holds the other. -/
  apart : ∀ a ∈ boxes, ∀ b ∈ boxes,
    a.1 = b.1 ∨ a.2.ApartBy gap b.2 ∨ root.Holds a.1 b.1 ∨ root.Holds b.1 a.1
  surrounds : ∀ g ∈ root.inside, ∀ d ∈ g.children, ∃ outer inner,
    (g.id, outer) ∈ boxes ∧ (d.id, inner) ∈ boxes ∧ Bounds.Surrounds padding outer inner
  leaf : ∀ g ∈ root.inside, g.isLeaf = true →
    ∃ corner, (g.id, Bounds.ofCorner corner g.size) ∈ boxes

theorem separates_layoutAt [ExactScalar α] [NumberText α] {e : EngineSettings α} (he : e.Sound)
    (ends : List Ends) {gap : α} {padding : Padding α} (hpadding : padding.Nonneg) {f : Frame α}
    (hf : Roomy e.methods gap padding f) (isRoot : Bool) (above : List String) (origin : Point α) :
    Separates gap padding f
      (Layout.absolute origin (NestedLayout.layoutAt e ends isRoot above f)) where
  apart a ha b hb := by
    have hself := hf.layoutAt he ends hpadding isRoot above
    have hinside := hf.inside_layoutAt he ends hpadding isRoot above
    have hcases := Layout.apartBy_of_mem_absolute hpadding
      (List.forall_mem_cons.mpr ⟨hself.1, fun c hc => (hinside c hc).1⟩)
      (fun c hc => (hinside c hc).2) ha hb
    exact hcases.imp_right (.imp_right (.imp (holds_layoutAt e ends) (holds_layoutAt e ends)))
  surrounds g hg d hd := by
    obtain ⟨c, hc, way, hsame⟩ := exists_answered e ends isRoot above hg
    obtain ⟨corner, hmem, hsub⟩ := Layout.exists_corner origin hc
    have hleaf := not_isLeaf_of_mem_inside (mem_inside_of_child hd List.mem_cons_self)
    obtain ⟨b, hb, hsameChild⟩ := exists_child_layoutAt e ends false (way ++ [g.id]) hd
    rw [← laidOut_of_not_isLeaf e ends way hleaf, ← hsame.children] at hb
    have hencloses := (hf.inside_layoutAt he ends hpadding isRoot above c hc).2
    refine ⟨_, _, ?_, ?_, Layout.surrounds_child hencloses hb corner⟩
    · rw [← id_laidOut e ends way g, ← hsame.id]
      exact hmem
    · rw [← id_laidOut e ends (way ++ [g.id]) d, ← hsameChild.id]
      exact hsub (Layout.mem_absolute_iff.mpr ⟨b, hb, .inl rfl⟩)
  leaf g hg hleaf := by
    obtain ⟨c, hc, way, hsame⟩ := exists_answered e ends isRoot above hg
    obtain ⟨corner, hmem, -⟩ := Layout.exists_corner origin hc
    rw [laidOut, if_pos hleaf] at hsame
    rw [Layout.boxAt, hsame.id, hsame.size] at hmem
    exact ⟨corner, hmem⟩

end NestedLayout

end DiagramPress
