-- What an answer of the engine leaves as it was, and where it puts the children of every
-- container: inside the padding, past what is pinned there, and with room at the far sides.
import DiagramPress.Proofs.Layout.Pinned
import DiagramPress.Proofs.Layout.Separation
import DiagramPress.Proofs.Layout.Ways

namespace DiagramPress

/-! ## Frames before and after -/

namespace Frame

variable {α : Type}

/-- Two graphs of one shape, related frame by frame. -/
inductive Everywhere (R : Frame α → Frame α → Prop) : Frame α → Frame α → Prop
  | step {f g : Frame α} (here : R f g)
      (inside : List.Forall₂ (Everywhere R) f.children g.children) : Everywhere R f g

variable [Scalar α]

/-- Where the children of a container are, after they had their places in `before`. -/
structure Arranged (s : ContainerSettings α) (before after : List (Frame α)) : Prop where
  placed : ∀ d ∈ after, d.x.isSome ∧ d.y.isSome
  pinned : ∀ c d, (c, d) ∈ before.zip after → c.isPinned = true → d.x = c.x ∧ d.y = c.y
  /-- What is free stands inside the padding. -/
  inside : ∀ c d, (c, d) ∈ before.zip after → c.isPinned = false →
    Point.Before ⟨s.padding.left, s.padding.top⟩ d.offset
  /-- What is free stands past what is pinned, along the flow. -/
  past : ∀ c d, (c, d) ∈ before.zip after → c.isPinned = false →
    ∀ p q, (p, q) ∈ before.zip after → p.isPinned = true →
      s.flow.along q.farCorner + s.layerSpacing ≤ s.flow.along d.offset ∧ d.box.Apart q.box

/-- What an answer says about one frame, which is `f` in the question. -/
structure IsLaidOut [NumberText α] (f g : Frame α) : Prop where
  id : g.id = f.id
  links : g.links = f.links
  options : g.options = f.options
  leaf : f.isLeaf = true → g.width = f.width ∧ g.height = f.height
  arranged : Arranged (ContainerSettings.read f) f.children g.children
  sized : g.children ≠ [] → g.width.isSome ∧ g.height.isSome
  /-- There is room for the padding past every child. -/
  room : ∀ d ∈ g.children,
    d.farCorner.x + (ContainerSettings.read f).padding.right ≤ g.size.width ∧
      d.farCorner.y + (ContainerSettings.read f).padding.bottom ≤ g.size.height

theorem arranged_nil (s : ContainerSettings α) : Arranged s [] [] := by
  constructor <;> simp

/-- The frames around do not matter, so neither does the place in them. -/
theorem Everywhere.placedAt [NumberText α] {f g : Frame α} (h : Everywhere IsLaidOut f g)
    (offset : Point α) : Everywhere IsLaidOut f (NestedLayout.placedAt g offset) := by
  cases h with
  | step here inside =>
    refine .step ?_ inside
    exact ⟨here.id, here.links, here.options, here.leaf, here.arranged, here.sized, here.room⟩

/-- So what becomes of a child that is laid out is laid out. -/
theorem Everywhere.becomes [NumberText α] {c k d : Frame α} {origin : Point α}
    {points : List (Point α)} (h : Everywhere IsLaidOut c k)
    (hd : NestedLayout.Becomes origin points k d) : Everywhere IsLaidOut c d := by
  cases hpinned : k.isPinned with
  | true =>
    rw [hd.pinned hpinned]
    exact h
  | false =>
    obtain ⟨q, -, rfl⟩ := hd.free hpinned
    exact h.placedAt _

/-- A frame without children is laid out if at most its size changes, and that of a leaf
does not. -/
theorem Everywhere.childless [NumberText α] {f g : Frame α} (hnone : f.children = [])
    (hid : g.id = f.id) (hlinks : g.links = f.links) (hoptions : g.options = f.options)
    (hchildren : g.children = []) (hleaf : f.isLeaf = true → g.width = f.width ∧ g.height = f.height) :
    Everywhere IsLaidOut f g := by
  refine .step ⟨hid, hlinks, hoptions, hleaf, ?_, ?_, ?_⟩ ?_
  · rw [hnone, hchildren]
    exact arranged_nil _
  · intro hsome
    exact absurd hchildren hsome
  · rw [hchildren]
    exact fun d hd => absurd hd List.not_mem_nil
  · rw [hnone, hchildren]
    exact .nil

end Frame

/-- There are points for all children, and none lies to the left of the origin or above it. -/
structure Placement.IsAnsweredBy {α : Type} [Scalar α] (p : Placement α) (points : List (Point α)) :
    Prop where
  count : p.count ≤ points.length
  nonneg : ∀ q ∈ points, Point.origin.Before q

theorem Placement.IsFilledBy.isAnsweredBy {α : Type} [ExactScalar α] {p : Placement α}
    {points : List (Point α)} (h : p.IsFilledBy points) : p.IsAnsweredBy points where
  count := h.count.ge
  nonneg q hq := ⟨Scalar.nonneg_iff.mpr (h.nonneg q hq).x, Scalar.nonneg_iff.mpr (h.nonneg q hq).y⟩

namespace NestedLayout

open DiagramPress.Frame

variable {α : Type} [Scalar α]

/-! ## What the engine asks for and what it keeps -/

section

variable [NumberText α] (e : EngineSettings α) (ends : List Ends) (above : List String)

/-- What the engine asks a method for, after all that is inside the container at `above`
is laid out. -/
def asked (f : Frame α) : Placement α :=
  placementOf (ContainerSettings.read f) e.iterations (f.children.map (laidOut e ends above))
    (localEdges above (f.children.map (·.id)) ends)

/-- What the engine is answered. -/
def answered (f : Frame α) : List (Point α) :=
  e.methods (ContainerSettings.read f).method (asked e ends above f)

theorem layoutAt_keeps (isRoot : Bool) (f : Frame α) :
    (layoutAt e ends isRoot above f).x = f.x ∧ (layoutAt e ends isRoot above f).y = f.y ∧
      (layoutAt e ends isRoot above f).links = f.links ∧
      (layoutAt e ends isRoot above f).options = f.options := by
  rw [layoutAt_eq]
  split
  · unfold settleEmpty
    split <;> exact ⟨rfl, rfl, rfl, rfl⟩
  · exact ⟨rfl, rfl, rfl, rfl⟩

theorem place_laidOut (c : Frame α) :
    (laidOut e ends above c).x = c.x ∧ (laidOut e ends above c).y = c.y := by
  unfold laidOut
  split
  · exact ⟨rfl, rfl⟩
  · obtain ⟨hx, hy, -⟩ := layoutAt_keeps e ends (above ++ [c.id]) false c
    exact ⟨hx, hy⟩

theorem everywhere_empty {f : Frame α} (hnone : f.children = []) {isRoot : Bool}
    (hroot : f.isLeaf = true → isRoot = true) :
    Everywhere IsLaidOut f (layoutAt e ends isRoot above f) := by
  obtain ⟨-, -, hlinks, hoptions⟩ := layoutAt_keeps e ends above isRoot f
  have hempty : f.children.isEmpty = true := by simp [hnone]
  refine .childless hnone (id_layoutAt e ends isRoot above f) hlinks hoptions ?_ fun hleaf => ?_
  · rw [layoutAt_eq, if_pos hempty, layoutIn_eq_map, hnone]
    unfold settleEmpty
    split <;> rfl
  · have hwidth := (isLeaf_iff.mp hleaf).2.1
    rw [layoutAt_eq, if_pos hempty]
    unfold settleEmpty
    rw [if_pos (by simp [hroot hleaf, hwidth])]
    exact ⟨rfl, rfl⟩

end

/-- The methods answer whatever the engine asks them for, while it lays out a graph. -/
def EngineSettings.Answers [NumberText α] (e : EngineSettings α) (root : Frame α) : Prop :=
  ∀ ends above f, resolve root = .ok ends → root.At above f → f.children ≠ [] →
    (asked e ends above f).IsAnsweredBy (answered e ends above f)

/-! ## One container -/

/-- Children that change before they are arranged, but neither their places nor whether
they are pinned. -/
theorem arranged_of_map {s : ContainerSettings α} {k : Frame α → Frame α}
    {before after : List (Frame α)}
    (hk : ∀ c, (k c).isPinned = c.isPinned ∧ (k c).x = c.x ∧ (k c).y = c.y)
    (h : Arranged s (before.map k) after) : Arranged s before after := by
  have hmem {c d : Frame α} (hcd : (c, d) ∈ before.zip after) :
      (k c, d) ∈ (before.map k).zip after := by
    rw [List.zip_map_left]
    exact List.mem_map.mpr ⟨(c, d), hcd, rfl⟩
  constructor
  · exact h.placed
  · intro c d hcd hpinned
    obtain ⟨hsame, hx, hy⟩ := hk c
    rw [← hx, ← hy]
    exact h.pinned _ d (hmem hcd) (hsame.trans hpinned)
  · intro c d hcd hfree
    exact h.inside _ d (hmem hcd) ((hk c).1.trans hfree)
  · intro c d hcd hfree p q hpq hpinned
    exact h.past _ d (hmem hcd) ((hk c).1.trans hfree) _ q (hmem hpq) ((hk p).1.trans hpinned)

variable [RoundedScalar α]

/-- Children that are pinned stay, and those that are put to points are in order. -/
theorem arranged_placeFree {s : ContainerSettings α} (hspacing : 0 ≤ s.layerSpacing)
    {fs : List (Frame α)} {points : List (Point α)}
    (hcount : (fs.filter fun c => !c.isPinned).length ≤ points.length)
    (hpoints : ∀ q ∈ points, Point.origin.Before q) :
    Arranged s fs (placeFree (originOf s fs) fs points) := by
  have hall := forall₂_becomes (originOf s fs) hcount
  have hstart {c d : Frame α} (h : Becomes (originOf s fs) points c d) (hfree : c.isPinned = false) :
      (originOf s fs).Before d.offset := by
    obtain ⟨q, hq, rfl⟩ := h.free hfree
    exact Point.before_add (hpoints q hq)
  constructor
  · intro d hd
    obtain ⟨c, -, hbecomes⟩ := (exists_of_forall₂ hall).2 d hd
    cases hpinned : c.isPinned with
    | true =>
      rw [hbecomes.pinned hpinned]
      exact isSome_of_isPinned hpinned
    | false =>
      obtain ⟨q, -, rfl⟩ := hbecomes.free hpinned
      exact ⟨rfl, rfl⟩
  · intro c d hcd hpinned
    rw [(List.forall₂_zip hall hcd).pinned hpinned]
    exact ⟨rfl, rfl⟩
  · intro c d hcd hfree
    exact (padding_before_origin s fs).trans (hstart (List.forall₂_zip hall hcd) hfree)
  · intro c d hcd hfree p q hpq hpinned
    have hsame := (List.forall₂_zip hall hpq).pinned hpinned
    have hp : p ∈ fs := (List.of_mem_zip hpq).1
    have hpast : s.flow.along q.farCorner + s.layerSpacing ≤ s.flow.along d.offset := by
      rw [hsame]
      exact RoundedScalar.le_trans (past_pinned s hp hpinned)
        ((hstart (List.forall₂_zip hall hcd) hfree).along _)
    exact ⟨hpast, Bounds.apart_of_along
      (RoundedScalar.le_trans (RoundedScalar.le_add _ hspacing) hpast)⟩

variable [NumberText α]

/-- The distance of layers is never negative. -/
theorem layerSpacing_nonneg (f : Frame α) : 0 ≤ (ContainerSettings.read f).layerSpacing := by
  show 0 ≤ ContainerSettings.readDistance f _ _
  unfold ContainerSettings.readDistance
  split
  · split
    · assumption
    · exact RoundedScalar.ofNat_nonneg 80
  · exact RoundedScalar.ofNat_nonneg 80

/-! ## All containers -/

section

variable (e : EngineSettings α) (ends : List Ends) (above : List String)

/-- A container takes its size from the children that it has in the end. -/
theorem layoutAt_of_children {f : Frame α} (hsome : f.children ≠ []) (isRoot : Bool) :
    ∃ far : Point α, (∀ d ∈ (layoutAt e ends isRoot above f).children, d.farCorner.Before far) ∧
      layoutAt e ends isRoot above f =
        { f with
          children := placeFree
            (originOf (ContainerSettings.read f) (f.children.map (laidOut e ends above)))
            (f.children.map (laidOut e ends above)) (answered e ends above f)
          width := some (far.x + (ContainerSettings.read f).padding.right)
          height := some (far.y + (ContainerSettings.read f).padding.bottom) } := by
  have hids : (f.children.map (laidOut e ends above)).map (·.id) = f.children.map (·.id) := by
    rw [List.map_map]
    exact List.map_congr_left fun c _ => id_laidOut e ends above c
  have hempty : ¬ f.children.isEmpty = true := by simpa using hsome
  have hlayout : layoutAt e ends isRoot above f = arrange e.methods e.iterations ends above
      { f with children := f.children.map (laidOut e ends above) } := by
    rw [layoutAt_eq, if_neg hempty, layoutIn_eq_map]
  refine ⟨((layoutAt e ends isRoot above f).children.map Frame.farCorner).foldl hull Point.origin,
    fun d hd => (foldl_hull _ _).2 _ (List.mem_map_of_mem hd), ?_⟩
  rw [hlayout]
  unfold arrange
  dsimp only
  rw [hids]
  rfl

/-- A container is laid out if all its children are, and if its method answers. -/
theorem everywhere_container {f : Frame α} (hsome : f.children ≠ []) (isRoot : Bool)
    (hanswer : (asked e ends above f).IsAnsweredBy (answered e ends above f))
    (hchildren : ∀ c ∈ f.children, Everywhere IsLaidOut c (laidOut e ends above c)) :
    Everywhere IsLaidOut f (layoutAt e ends isRoot above f) := by
  obtain ⟨far, hfar, hlayout⟩ := layoutAt_of_children e ends above hsome isRoot
  have hcount : ((f.children.map (laidOut e ends above)).filter fun c => !c.isPinned).length ≤
      (answered e ends above f).length := by
    refine le_trans (ge_of_eq ?_) hanswer.count
    exact List.length_map _
  have hroom : ∀ d ∈ (layoutAt e ends isRoot above f).children,
      d.farCorner.x + (ContainerSettings.read f).padding.right ≤
          far.x + (ContainerSettings.read f).padding.right ∧
        d.farCorner.y + (ContainerSettings.read f).padding.bottom ≤
          far.y + (ContainerSettings.read f).padding.bottom := by
    intro d hd
    exact ⟨RoundedScalar.add_le_add (hfar d hd).x _, RoundedScalar.add_le_add (hfar d hd).y _⟩
  rw [hlayout] at hroom ⊢
  refine .step ⟨rfl, rfl, rfl, fun hleaf => ?_, ?_, fun _ => ⟨rfl, rfl⟩, hroom⟩ ?_
  · simp [isLeaf, hsome] at hleaf
  · refine arranged_of_map (k := laidOut e ends above) (fun c => ?_) ?_
    · exact ⟨isPinned_laidOut e ends above c, place_laidOut e ends above c⟩
    · exact arranged_placeFree (layerSpacing_nonneg f) hcount hanswer.nonneg
  · have hbecomes := List.forall₂_map_left_iff.mp (forall₂_becomes (originOf
      (ContainerSettings.read f) (f.children.map (laidOut e ends above))) hcount)
    refine List.forall₂_iff_zip.mpr ⟨hbecomes.length_eq, fun {c d} hcd => ?_⟩
    exact (hchildren c (List.of_mem_zip hcd).1).becomes (List.forall₂_zip hbecomes hcd)

/-- Where every container is answered, everything is laid out, from the inside to the
outside. -/
theorem everywhere_layoutAt (f : Frame α) (isRoot : Bool)
    (hroot : f.isLeaf = true → isRoot = true)
    (hanswers : ∀ below g, f.At below g → g.children ≠ [] →
      (asked e ends (above ++ below) g).IsAnsweredBy (answered e ends (above ++ below) g)) :
    Everywhere IsLaidOut f (layoutAt e ends isRoot above f) := by
  induction f using Frame.induction generalizing isRoot above with
  | step f ih =>
    by_cases hnone : f.children = []
    · exact everywhere_empty e ends above hnone hroot
    · have hhere := hanswers [] f (.here f) hnone
      rw [List.append_nil] at hhere
      refine everywhere_container e ends above hnone isRoot hhere fun c hc => ?_
      unfold laidOut
      split
      · rename_i hleaf
        have hchildless := (isLeaf_iff.mp hleaf).1
        exact .childless hchildless rfl rfl rfl hchildless fun _ => ⟨rfl, rfl⟩
      · rename_i hcontainer
        refine ih c hc (above ++ [c.id]) false (fun hleaf => absurd hleaf hcontainer) ?_
        intro below g hg hsome
        rw [List.append_assoc]
        exact hanswers (c.id :: below) g (.into hc hg) hsome

end

/-! ## The engine -/

/-- If the methods answer with points that are not negative, then the answer to every graph
has its frames, its connections, its settings and the sizes of its leaves. In every container,
all children have places. Pinned ones have the places that they had, and free ones stand
inside the padding and past the pinned ones, so they do not cover them. Past every child there
is room for the padding. -/
theorem answers_are_arranged {e : EngineSettings α} {root answer : Frame α}
    (hanswers : e.Answers root) (hrun : run e root = .ok answer) :
    answer.x = some 0 ∧ answer.y = some 0 ∧ Everywhere IsLaidOut root answer := by
  unfold run at hrun
  cases hends : resolve root with
  | error cause =>
    rw [hends] at hrun
    cases hrun
  | ok ends =>
    rw [hends] at hrun
    obtain rfl := Except.ok.inj hrun
    have hall := everywhere_layoutAt e ends [] root true (fun _ => rfl) fun below g hg hsome =>
      hanswers ends below g hends hg hsome
    exact ⟨rfl, rfl, hall.placedAt ⟨0, 0⟩⟩

/-! ## The methods of the program -/

/-- Where no size is negative, the methods of a sound engine answer. -/
theorem answers_of_sound {α : Type} [ExactScalar α] [NumberText α] {e : EngineSettings α}
    (he : e.Sound) {root : Frame α} (hroot : ∀ f ∈ root :: root.inside, f.Arrangeable) :
    e.Answers root := by
  intro ends above f _ hf hsome
  have hmem := hf.mem
  have hleaf : f.isLeaf = false := by simp [isLeaf, hsome]
  have hspacing := ((hroot f hmem).container hleaf).2.nodeSpacing
  refine (he.methods _ _ (Scalar.nonneg_iff.mp hspacing) fun size hsize => ?_).isAnsweredBy
  obtain ⟨c, hc, rfl⟩ := List.mem_map.mp hsize
  obtain ⟨d, hd, rfl⟩ := List.mem_map.mp (List.mem_filter.mp hc).1
  have hinside : d ∈ root.inside :=
    inside_trans hmem (mem_inside_of_child hd List.mem_cons_self)
  exact size_laidOut_nonneg he ends above (hroot d (List.mem_cons_of_mem _ hinside))

def pinnedLeaf : Frame ℚ :=
  { (Frame.leaf "p" ⟨30, 40⟩).withOption pinKey "true" with x := some 10, y := some 20 }

/-- A container with room around the leaf in it. -/
def paddedContainer : Frame ℚ :=
  { (Frame.container "g").withOption ContainerSettings.paddingKey
      "[top=40,left=20,bottom=20,right=20]" with
    children := [Frame.leaf "b" ⟨50, 50⟩] }

/-- A pinned leaf beside a free one and a container with padding, and an edge into it. -/
def mixedGraph : Frame ℚ :=
  { (Frame.container "root" : Frame ℚ) with
    links := [⟨"e", ["a"], ["b"]⟩]
    children := [pinnedLeaf, Frame.leaf "a" ⟨60, 20⟩, paddedContainer] }

theorem arrangeable_mixedGraph : ∀ f ∈ mixedGraph :: mixedGraph.inside, f.Arrangeable := by
  have hleaf {f : Frame ℚ} (hleaf : f.isLeaf = true) (hsize : f.size.Nonneg) : f.Arrangeable := by
    refine ⟨fun _ => hsize, fun hcontainer => ?_⟩
    rw [hleaf] at hcontainer
    cases hcontainer
  have hroot : (ContainerSettings.read mixedGraph).Nonneg :=
    ⟨by decide +kernel, by decide +kernel, by constructor <;> decide +kernel⟩
  have hgroup : (ContainerSettings.read paddedContainer).Nonneg :=
    ⟨by decide +kernel, by decide +kernel, by constructor <;> decide +kernel⟩
  have hinside : mixedGraph.inside =
      [pinnedLeaf, Frame.leaf "a" ⟨60, 20⟩, paddedContainer, Frame.leaf "b" ⟨50, 50⟩] := rfl
  rw [hinside]
  intro f hf
  simp only [List.mem_cons, List.not_mem_nil, or_false] at hf
  rcases hf with rfl | rfl | rfl | rfl | rfl
  · exact Layout.arrangeable_container rfl rfl hroot
  · exact hleaf rfl (by constructor <;> decide)
  · exact hleaf rfl (by constructor <;> decide)
  · exact Layout.arrangeable_container rfl rfl hgroup
  · exact hleaf rfl (by constructor <;> decide)

theorem a_mixed_graph_is_arranged :
    let settings : LayoutSettings ℚ := .default
    let e : EngineSettings ℚ :=
      ⟨Methods.bundled, settings.emptyGroupSize, settings.forceIterations⟩
    e.Answers mixedGraph ∧ ∃ answer, run e mixedGraph = .ok answer ∧
      answer.x = some 0 ∧ answer.y = some 0 ∧ Everywhere IsLaidOut mixedGraph answer := by
  intro settings e
  have hnodup : mixedGraph.names.Nodup := by decide
  have hanswers : e.Answers mixedGraph :=
    answers_of_sound (sound_bundled nonneg_default) arrangeable_mixedGraph
  obtain ⟨answer, hrun, -⟩ := run_ok e hnodup (by decide)
  exact ⟨hanswers, answer, hrun, answers_are_arranged hanswers hrun⟩

end NestedLayout

end DiagramPress
