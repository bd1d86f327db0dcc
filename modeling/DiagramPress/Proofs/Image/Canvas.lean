-- What the canvas holds: it ends the padding away from everything that is drawn, and the lines
-- on it run from box to box without crossing either of them.
import DiagramPress.Proofs.Geometry.Exits
import DiagramPress.Proofs.Layout.Growth
import DiagramPress.Image.Canvas

namespace DiagramPress

/-! ## The smallest box around others -/

section

variable {α : Type} [ExactScalar α]

/-- The box covers all of them, and each of its sides is a side of one of them. -/
structure Bounds.IsHull (bs : List (Bounds α)) (hull : Bounds α) : Prop where
  covers : ∀ b ∈ bs, hull.Covers b
  left : ∃ b ∈ bs, b.x = hull.x
  top : ∃ b ∈ bs, b.y = hull.y
  right : ∃ b ∈ bs, b.right = hull.right
  bottom : ∃ b ∈ bs, b.bottom = hull.bottom

namespace Bounds.IsHull

variable {bs : List (Bounds α)} {hull b : Bounds α}

theorem singleton (b : Bounds α) : IsHull [b] b where
  covers c hc := by
    rw [List.mem_singleton.mp hc]
    exact Covers.refl b
  left := ⟨b, List.mem_singleton_self b, rfl⟩
  top := ⟨b, List.mem_singleton_self b, rfl⟩
  right := ⟨b, List.mem_singleton_self b, rfl⟩
  bottom := ⟨b, List.mem_singleton_self b, rfl⟩

omit [ExactScalar α] in
/-- A side that is the old one or the one of the new box is still a side of one of them. -/
theorem attained_concat {side : Bounds α → α} {v w : α} (h : ∃ c ∈ bs, side c = v)
    (hw : w = v ∨ w = side b) : ∃ c ∈ bs ++ [b], side c = w := by
  rcases hw with rfl | rfl
  · obtain ⟨c, hc, hv⟩ := h
    exact ⟨c, List.mem_append_left _ hc, hv⟩
  · exact ⟨b, by simp, rfl⟩

theorem union (h : IsHull bs hull) (b : Bounds α) : IsHull (bs ++ [b]) (hull.union b) where
  covers c hc := by
    rcases List.mem_append.mp hc with hc | hc
    · exact (union_covers_left hull b).trans (h.covers c hc)
    · rw [List.mem_singleton.mp hc]
      exact union_covers_right hull b
  left := attained_concat h.left (by rw [x_union]; exact min_choice _ _)
  top := attained_concat h.top (by rw [y_union]; exact min_choice _ _)
  right := attained_concat h.right (by rw [right_union]; exact max_choice _ _)
  bottom := attained_concat h.bottom (by rw [bottom_union]; exact max_choice _ _)

theorem foldl_union (h : IsHull bs hull) (rest : List (Bounds α)) :
    IsHull (bs ++ rest) (rest.foldl Bounds.union hull) := by
  induction rest generalizing bs hull with
  | nil => rwa [List.append_nil]
  | cons b rest ih =>
    rw [List.append_cons]
    exact ih (h.union b)

end Bounds.IsHull

theorem Image.exists_hull {bs : List (Bounds α)} (h : bs ≠ []) :
    ∃ hull, hull? bs = some hull ∧ Bounds.IsHull bs hull := by
  obtain ⟨b, rest, rfl⟩ := List.exists_cons_of_ne_nil h
  exact ⟨_, rfl, (Bounds.IsHull.singleton b).foldl_union rest⟩

end

namespace Image

/-! ## Boxes of a model -/

section

variable {α : Type} [Scalar α]

theorem groupBox_of_bounds? {g : Model.Group α} {b : Bounds α} (h : g.bounds? = some b) :
    groupBox g = b := by
  obtain ⟨hposition, hsize⟩ := Model.Group.isSome_bounds?_iff.mp (Option.isSome_of_mem h)
  obtain ⟨p, hp⟩ := Option.isSome_iff_exists.mp hposition
  obtain ⟨s, hs⟩ := Option.isSome_iff_exists.mp hsize
  rw [Model.Group.bounds?, hp, hs] at h
  rw [groupBox, hp, hs]
  exact Option.some.inj h

theorem nodeBox_of_bounds? {n : Model.Node α} {b : Bounds α} (h : n.bounds? = some b) :
    nodeBox n = b := by
  obtain ⟨p, hp, rfl⟩ := Option.map_eq_some_iff.mp h
  rw [nodeBox, hp]
  rfl

/-- A box that an edge leads to is one of those that are drawn. -/
theorem mem_boxes_of_boundsOf? {m : Model α} {id : String} {b : Bounds α}
    (h : m.boundsOf? id = some b) : b ∈ boxes m := by
  unfold Model.boundsOf? at h
  cases hnode : m.node? id with
  | some n =>
    rw [hnode] at h
    exact List.mem_append_left _
      (List.mem_map.mpr ⟨n, List.mem_of_find?_eq_some hnode, nodeBox_of_bounds? h⟩)
  | none =>
    rw [hnode] at h
    obtain ⟨g, hgroup, hg⟩ := Option.bind_eq_some_iff.mp h
    exact List.mem_append_right _
      (List.mem_map.mpr ⟨g, List.mem_of_find?_eq_some hgroup, groupBox_of_bounds? hg⟩)

theorem exists_of_line? {canvas : Canvas α} {m : Model α} {edge : Model.Edge} {start stop : Point α}
    (h : canvas.line? m edge = some (start, stop)) :
    ∃ s t, m.boundsOf? edge.source = some s ∧ m.boundsOf? edge.target = some t ∧
      start = (canvas.place s).exitToward (canvas.place t).center ∧
      stop = (canvas.place t).exitToward (canvas.place s).center := by
  unfold Canvas.line? at h
  split at h
  · rename_i s t hs ht
    cases h
    exact ⟨s, t, hs, ht, rfl, rfl⟩
  · cases h

end

/-! ## Lines from box to box -/

section

variable {α : Type} [ExactScalar α]

/-- The line leaves the one box, gets to the other one behind that, and has no point inside
of either. -/
structure Connects (a b : Bounds α) (start stop : Point α) : Prop where
  inOrder : Point.InOrder a.center start stop b.center
  outside : ∀ p, Point.Between start stop p → ¬ a.Interior p ∧ ¬ b.Interior p

/-- The way to a point leaves a box at its border; and where an edge connects boxes that have
no point inside in common, its line connects them where they are drawn. -/
theorem lines_run_from_border_to_border :
    (∀ (b : Bounds α) (p : Point α), b.size.Positive → p ≠ b.center →
        b.OnBorder (b.exitToward p) ∧ Point.OnRay b.center p (b.exitToward p)) ∧
      ∀ (canvas : Canvas α) (m : Model α) (edge : Model.Edge) (s t : Bounds α),
        m.boundsOf? edge.source = some s → m.boundsOf? edge.target = some t →
        s.size.Positive → t.size.Positive → s.Apart t →
        ∃ start stop, canvas.line? m edge = some (start, stop) ∧
          Connects (canvas.place s) (canvas.place t) start stop := by
  constructor
  · intro b p hb hp
    obtain ⟨part, hpart, hexit⟩ := Bounds.exists_endsAt hb.nonneg p
    rw [hexit]
    exact ⟨hpart.onBorder hp, part, hpart.nonneg, rfl⟩
  · intro canvas m edge s t hs ht hspos htpos hapart
    have hplaced : (canvas.place s).Apart (canvas.place t) := by
      rw [Bounds.apart_iff_apartBy hspos htpos] at hapart
      exact ((Bounds.apartBy_shift canvas.offset).mpr hapart).apart le_rfl
    obtain ⟨horder, houtside⟩ := Bounds.exits_inOrder (a := canvas.place s)
      (b := canvas.place t) hspos htpos hplaced
    refine ⟨_, _, ?_, horder, houtside⟩
    rw [Canvas.line?, hs, ht]

/-- Two nodes side by side, with a line from one to the other, and a group that is not placed. -/
def touching : Model ℚ where
  title := "touching"
  background := "#ffffff"
  groups := [⟨"g", 2, "", none, Model.layerCell, .empty, none, none⟩]
  nodes := [⟨"a", 3, "", .empty, none, some ⟨-50, 0⟩, ⟨10, 10⟩⟩,
    ⟨"b", 4, "", .empty, none, some ⟨-40, 4⟩, ⟨30, 2⟩⟩]
  edges := [⟨5, "a", "b", 3, 4, "", .empty⟩]

theorem a_line_between_touching_boxes :
    let a : Bounds ℚ := ⟨-50, 0, 10, 10⟩
    let b : Bounds ℚ := ⟨-40, 4, 30, 2⟩
    let canvas := Canvas.ofModel touching RenderSettings.default
    (a.size.Positive ∧ b.size.Positive ∧ a.Apart b ∧ b.center ≠ a.center) ∧
      a.OnBorder (a.exitToward b.center) ∧
      ∀ edge ∈ touching.edges, ∃ start stop, canvas.line? touching edge = some (start, stop) ∧
        Connects (canvas.place a) (canvas.place b) start stop := by
  intro a b canvas
  have ha : a.size.Positive := ⟨by decide +kernel, by decide +kernel⟩
  have hb : b.size.Positive := ⟨by decide +kernel, by decide +kernel⟩
  have hapart : a.Apart b := (Bounds.apart_iff_apartBy ha hb).mpr (.inl (by decide +kernel))
  have hne : b.center ≠ a.center :=
    fun heq => absurd (congrArg Point.x heq) (by decide +kernel)
  obtain ⟨hexit, hline⟩ := lines_run_from_border_to_border (α := ℚ)
  refine ⟨⟨ha, hb, hapart, hne⟩, (hexit a b.center ha hne).1, fun edge hedge => ?_⟩
  rw [List.mem_singleton.mp hedge]
  exact hline canvas touching _ a b rfl rfl ha hb hapart

end

/-! ## Room around everything -/

section

variable {α : Type} [ExactScalar α]

namespace Canvas

/-- The box keeps the padding from all four sides of the canvas. -/
structure Frames (canvas : Canvas α) (padding : α) (b : Bounds α) : Prop where
  left : padding ≤ b.x
  top : padding ≤ b.y
  right : b.right ≤ canvas.size.width - padding
  bottom : b.bottom ≤ canvas.size.height - padding

/-- The point keeps the padding from all four sides of the canvas. -/
structure Holds (canvas : Canvas α) (padding : α) (p : Point α) : Prop where
  left : padding ≤ p.x
  top : padding ≤ p.y
  right : p.x ≤ canvas.size.width - padding
  bottom : p.y ≤ canvas.size.height - padding

theorem Frames.holds {canvas : Canvas α} {padding : α} {b : Bounds α} (h : canvas.Frames padding b)
    {p : Point α} (hp : b.Encloses p) : canvas.Holds padding p :=
  ⟨h.left.trans hp.left, h.top.trans hp.top, hp.right.trans h.right, hp.bottom.trans h.bottom⟩

theorem right_place (canvas : Canvas α) (b : Bounds α) :
    (canvas.place b).right = b.right + canvas.offset.x := by
  simp only [place, Bounds.shift, Bounds.right]
  ring

theorem bottom_place (canvas : Canvas α) (b : Bounds α) :
    (canvas.place b).bottom = b.bottom + canvas.offset.y := by
  simp only [place, Bounds.shift, Bounds.bottom]
  ring

section

variable {m : Model α} {hull : Bounds α} (h : hull? (boxes m) = some hull)
  (settings : RenderSettings α)
include h

/-- The hull of all boxes is moved to where the padding ends. -/
theorem offset_ofModel :
    (ofModel m settings).offset = ⟨settings.padding - hull.x, settings.padding - hull.y⟩ := by
  rw [ofModel, h]
  rfl

/-- Behind the hull of all boxes there is room for the padding. -/
theorem size_ofModel :
    (ofModel m settings).size.width - settings.padding =
        hull.right + (ofModel m settings).offset.x ∧
      (ofModel m settings).size.height - settings.padding =
        hull.bottom + (ofModel m settings).offset.y := by
  have htwice : settings.padding * Scalar.ofNat 2 = settings.padding + settings.padding := by
    rw [Scalar.ofNat_eq_cast, Nat.cast_ofNat, mul_two]
  have hsize : (ofModel m settings).size =
      ⟨hull.width + settings.padding * Scalar.ofNat 2,
        hull.height + settings.padding * Scalar.ofNat 2⟩ := by
    rw [ofModel, h]
    rfl
  rw [offset_ofModel h, hsize, htwice]
  constructor
  · rw [Bounds.right]
    ring
  · rw [Bounds.bottom]
    ring

/-- Where the sides of a box are drawn, measured from the sides of the hull. -/
theorem sides_place (b : Bounds α) :
    ((ofModel m settings).place b).x = settings.padding + (b.x - hull.x) ∧
      ((ofModel m settings).place b).y = settings.padding + (b.y - hull.y) ∧
      ((ofModel m settings).place b).right =
        (ofModel m settings).size.width - settings.padding - (hull.right - b.right) ∧
      ((ofModel m settings).place b).bottom =
        (ofModel m settings).size.height - settings.padding - (hull.bottom - b.bottom) := by
  obtain ⟨hwidth, hheight⟩ := size_ofModel h settings
  refine ⟨?_, ?_, ?_, ?_⟩
  · simp only [place, Bounds.shift, offset_ofModel h settings]
    ring
  · simp only [place, Bounds.shift, offset_ofModel h settings]
    ring
  · rw [right_place, hwidth]
    ring
  · rw [bottom_place, hheight]
    ring

theorem frames_place {b : Bounds α} (hb : hull.Covers b) :
    (ofModel m settings).Frames settings.padding ((ofModel m settings).place b) := by
  obtain ⟨hx, hy, hright, hbottom⟩ := sides_place h settings b
  exact ⟨by linarith [hb.left], by linarith [hb.top], by linarith [hb.right],
    by linarith [hb.bottom]⟩

end

end Canvas

theorem nonneg_unplacedGroupSize : (Model.unplacedGroupSize : Size α).Nonneg := by
  have hnonneg : 0 ≤ (Scalar.ofNat 200 : α) := by
    rw [Scalar.ofNat_eq_cast]
    exact Nat.cast_nonneg 200
  exact ⟨hnonneg, hnonneg⟩

/-- No box has a negative size if no size of the model is negative. -/
theorem nonneg_boxes {m : Model α} (hnodes : ∀ n ∈ m.nodes, n.size.Nonneg)
    (hgroups : ∀ g ∈ m.groups, ∀ s ∈ g.size, s.Nonneg) : ∀ b ∈ boxes m, b.size.Nonneg := by
  intro b hb
  rcases List.mem_append.mp hb with hb | hb
  · obtain ⟨n, hn, rfl⟩ := List.mem_map.mp hb
    exact hnodes n hn
  · obtain ⟨g, hg, rfl⟩ := List.mem_map.mp hb
    have hsize : (groupBox g).size = g.size.getD Model.unplacedGroupSize := rfl
    rw [hsize]
    cases hs : g.size with
    | none => exact nonneg_unplacedGroupSize
    | some s => exact hgroups g hg s hs

/-- Every box that is drawn keeps the padding from the sides of the canvas, and at each side
one of them keeps no more than that; the ends of the lines keep it as well. -/
theorem drawings_keep_the_padding {m : Model α} (hm : m.nodes ≠ [] ∨ m.groups ≠ [])
    (hnodes : ∀ n ∈ m.nodes, n.size.Nonneg)
    (hgroups : ∀ g ∈ m.groups, ∀ s ∈ g.size, s.Nonneg) (settings : RenderSettings α) :
    let canvas := Canvas.ofModel m settings
    (∀ b ∈ boxes m, canvas.Frames settings.padding (canvas.place b)) ∧
      (∀ edge start stop, canvas.line? m edge = some (start, stop) →
        canvas.Holds settings.padding start ∧ canvas.Holds settings.padding stop) ∧
      (∃ b ∈ boxes m, (canvas.place b).x = settings.padding) ∧
      (∃ b ∈ boxes m, (canvas.place b).y = settings.padding) ∧
      (∃ b ∈ boxes m, (canvas.place b).right = canvas.size.width - settings.padding) ∧
      ∃ b ∈ boxes m, (canvas.place b).bottom = canvas.size.height - settings.padding := by
  intro canvas
  have hboxes : boxes m ≠ [] := by
    simpa [boxes, imp_iff_not_or] using hm
  obtain ⟨hull, hhull, hbounds⟩ := exists_hull hboxes
  have hframes : ∀ b ∈ boxes m, canvas.Frames settings.padding (canvas.place b) :=
    fun b hb => Canvas.frames_place hhull settings (hbounds.covers b hb)
  have hsides := Canvas.sides_place hhull settings
  refine ⟨hframes, fun edge start stop hline => ?_, ?_, ?_, ?_, ?_⟩
  · obtain ⟨s, t, hs, ht, rfl, rfl⟩ := exists_of_line? hline
    have hsbox := mem_boxes_of_boundsOf? hs
    have htbox := mem_boxes_of_boundsOf? ht
    have hsizes := nonneg_boxes hnodes hgroups
    exact ⟨(hframes s hsbox).holds
        (Bounds.encloses_exitToward (b := canvas.place s) (hsizes s hsbox) _),
      (hframes t htbox).holds
        (Bounds.encloses_exitToward (b := canvas.place t) (hsizes t htbox) _)⟩
  · obtain ⟨b, hb, hx⟩ := hbounds.left
    exact ⟨b, hb, by rw [(hsides b).1, hx, sub_self, add_zero]⟩
  · obtain ⟨b, hb, hy⟩ := hbounds.top
    exact ⟨b, hb, by rw [(hsides b).2.1, hy, sub_self, add_zero]⟩
  · obtain ⟨b, hb, hright⟩ := hbounds.right
    exact ⟨b, hb, by rw [(hsides b).2.2.1, hright, sub_self, sub_zero]⟩
  · obtain ⟨b, hb, hbottom⟩ := hbounds.bottom
    exact ⟨b, hb, by rw [(hsides b).2.2.2, hbottom, sub_self, sub_zero]⟩

/-- The group that is not placed ends the canvas at the right, and the node `a` at the left. -/
theorem touching_boxes_keep_the_padding :
    let canvas := Canvas.ofModel touching RenderSettings.default
    (touching.nodes ≠ [] ∧ (∀ n ∈ touching.nodes, n.size.Nonneg) ∧
        ∀ g ∈ touching.groups, ∀ s ∈ g.size, s.Nonneg) ∧
      (∀ b ∈ boxes touching, canvas.Frames 20 (canvas.place b)) ∧
      ∃ b ∈ boxes touching, (canvas.place b).right = canvas.size.width - 20 := by
  intro canvas
  have hnodes : ∀ n ∈ touching.nodes, n.size.Nonneg := by
    rw [touching, List.forall_mem_cons, List.forall_mem_singleton]
    exact ⟨⟨by decide +kernel, by decide +kernel⟩, by decide +kernel, by decide +kernel⟩
  have hgroups : ∀ g ∈ touching.groups, ∀ s ∈ g.size, s.Nonneg := by
    rw [touching, List.forall_mem_singleton]
    exact fun s hs => absurd hs (by simp)
  have hnonempty : touching.nodes ≠ [] := List.cons_ne_nil _ _
  obtain ⟨hframes, -, -, -, hright, -⟩ :=
    drawings_keep_the_padding (.inl hnonempty) hnodes hgroups RenderSettings.default
  exact ⟨⟨hnonempty, hnodes, hgroups⟩, hframes, hright⟩

end

end Image

end DiagramPress
