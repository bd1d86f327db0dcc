-- Rings: each one stands a step further out than the one before, or as far out as its members
-- need it side by side; every child has one seat on one ring.
import DiagramPress.Proofs.Layout.TreeSpacing

namespace DiagramPress

/-! ## Levels -/

namespace Rose

theorem perm_besides (left right : List (List Nat)) :
    (besides left right).flatten.Perm (left.flatten ++ right.flatten) := by
  induction left generalizing right with
  | nil => rfl
  | cons l left ih =>
    cases right with
    | nil => simp [besides]
    | cons r right =>
      rw [besides, List.flatten_cons, List.flatten_cons, List.flatten_cons, List.append_assoc,
        List.append_assoc]
      refine .append_left l (((ih right).append_left r).trans ?_)
      exact List.perm_append_comm_assoc r left.flatten right.flatten

mutual

/-- The levels of a tree hold each of its numbers once. -/
theorem perm_levels : ∀ t : Rose, t.levels.flatten.Perm t.indices
  | .node i ts => by
    rw [levels, indices, List.flatten_cons, List.singleton_append]
    exact (perm_levelsOf ts).cons i

theorem perm_levelsOf : ∀ ts : List Rose, (levelsOf ts).flatten.Perm (indicesOf ts)
  | [] => .refl _
  | t :: rest => by
    rw [levelsOf, indicesOf]
    exact (perm_besides _ _).trans ((perm_levels t).append (perm_levelsOf rest))

end

end Rose

namespace RadialPlacement

theorem perm_rings (count : Nat) (edges : List (Nat × Nat)) :
    (rings (SpanningForest.ofEdges count edges)).flatten.Perm (List.range count) := by
  have hflatten (forest : SpanningForest) :
      (rings forest).flatten = forest.trees.flatMap fun t => t.levels.flatten := by
    rw [rings, List.flatMap_def, List.flatten_flatten, List.map_map, List.flatMap_def]
    rfl
  refine List.Perm.trans ?_ (SpanningForest.perm_indices_trees count edges)
  rw [hflatten, Rose.indicesOf_eq]
  exact List.Perm.flatMap_left _ fun t _ => t.perm_levels

/-! ## Seats -/

/-- Who stands on a ring, in order, and how far out. -/
structure Ring (α : Type) where
  radius : α
  members : List Nat

variable {α : Type} [ExactScalar α]

namespace Ring

/-- One of the places on a ring, which are at equal angles. -/
def seat (ring : Ring α) (s : Nat) : Point α :=
  let angle : α := Scalar.turn * Scalar.ofNat s / Scalar.ofNat ring.members.length
  ⟨ring.radius * Scalar.cos angle, ring.radius * Scalar.sin angle⟩

/-- The members of a ring with their places. -/
def seats (ring : Ring α) : List (Nat × Point α) := onRing ring.radius ring.members

theorem seats_eq (ring : Ring α) :
    ring.seats = ring.members.zipIdx.map fun e => (e.1, ring.seat e.2) := rfl

theorem map_fst_seats (ring : Ring α) : ring.seats.map (·.1) = ring.members := by
  rw [seats_eq, List.map_map]
  exact List.zipIdx_map_fst 0 ring.members

theorem mem_seats {ring : Ring α} {s i : Nat} (h : ring.members[s]? = some i) :
    (i, ring.seat s) ∈ ring.seats := by
  rw [seats_eq]
  exact List.mem_map.mpr ⟨(i, s), List.mem_zipIdx_iff_getElem?.mpr h, rfl⟩

end Ring

/-! ## Radii -/

variable (p : Placement α)

/-- What the members of a ring need side by side. -/
def needed (members : List Nat) : α :=
  (members.map fun i => diagonal p i + p.nodeSpacing).sum

theorem nextRadius_eq (step radius : α) (members : List Nat) :
    nextRadius p step radius members = max (radius + step) (needed p members / Scalar.turn) := by
  have haround : members.foldl (fun sum i => sum + (diagonal p i + p.nodeSpacing)) 0 =
      needed p members := by
    rw [needed, List.sum_eq_foldl, List.foldl_map]
  unfold nextRadius
  rw [Scalar.greatest_eq_max, Scalar.numeral_zero, haround]

/-- How much further out the next ring is, at least. -/
def stepOf : α := ((List.range p.count).map (diagonal p)).foldl Scalar.greatest 0 + p.layerSpacing

/-- The rings outside a radius. -/
def ringsBeyond (step : α) : α → List (List Nat) → List (Ring α)
  | _, [] => []
  | radius, members :: rest =>
    ⟨nextRadius p step radius members, members⟩ ::
      ringsBeyond step (nextRadius p step radius members) rest

/-- All rings; one that stands in the middle has no radius. -/
def ringsOf : List (Ring α) :=
  match rings (SpanningForest.ofEdges p.count p.edges) with
  | [middle] :: outer => ⟨0, [middle]⟩ :: ringsBeyond p (stepOf p) 0 outer
  | all => ringsBeyond p (stepOf p) 0 all

theorem outward_eq (step radius : α) (levels : List (List Nat)) :
    outward p step radius levels = (ringsBeyond p step radius levels).flatMap Ring.seats := by
  induction levels generalizing radius with
  | nil => rfl
  | cons members rest ih =>
    rw [ringsBeyond, List.flatMap_cons, ← ih]
    rfl

/-- The centres are the seats of all rings. -/
theorem centers_eq : centers p = (ringsOf p).flatMap Ring.seats := by
  have hmiddle (middle : Nat) :
      [(middle, Point.origin)] = (⟨0, [middle]⟩ : Ring α).seats := by
    simp only [Ring.seats_eq, Ring.seat, Point.origin, Scalar.numeral_zero, zero_mul]
    rfl
  have hstep : ((List.range p.count).map (diagonal p)).foldl Scalar.greatest 0 + p.layerSpacing =
      stepOf p := rfl
  unfold centers ringsOf
  dsimp only
  rw [Scalar.numeral_zero, hstep]
  match rings (SpanningForest.ofEdges p.count p.edges) with
  | [middle] :: outer =>
    rw [List.flatMap_cons, ← hmiddle, ← outward_eq]
    rfl
  | [] => rfl
  | [] :: outer => exact outward_eq p _ _ _
  | (_ :: _ :: _) :: outer => exact outward_eq p _ _ _

theorem map_members_ringsBeyond (step radius : α) (levels : List (List Nat)) :
    (ringsBeyond p step radius levels).map (·.members) = levels := by
  induction levels generalizing radius with
  | nil => rfl
  | cons members rest ih => rw [ringsBeyond, List.map_cons, ih]

/-- On the rings stand the levels of the trees. -/
theorem map_members_ringsOf :
    (ringsOf p).map (·.members) = rings (SpanningForest.ofEdges p.count p.edges) := by
  unfold ringsOf
  split
  · rename_i heq
    rw [List.map_cons, map_members_ringsBeyond, heq]
  · exact map_members_ringsBeyond p _ _ _

/-- Every child stands on one ring. -/
theorem perm_members : ((ringsOf p).flatMap (·.members)).Perm (List.range p.count) := by
  rw [List.flatMap_def, map_members_ringsOf]
  exact perm_rings p.count p.edges

variable {p}

theorem exists_seat {i : Nat} (hi : i < p.count) :
    ∃ ring ∈ ringsOf p, ∃ s : Nat, ring.members[s]? = some i := by
  have hmember := (perm_members p).mem_iff.mpr (List.mem_range.mpr hi)
  obtain ⟨ring, hring, hi⟩ := List.mem_flatMap.mp hmember
  exact ⟨ring, hring, List.mem_iff_getElem?.mp hi⟩

/-- A step is longer than the diagonal of whoever stands on a ring. -/
theorem diagonal_le_stepOf {ring : Ring α} (hring : ring ∈ ringsOf p) {i : Nat}
    (hi : i ∈ ring.members) : diagonal p i + p.layerSpacing ≤ stepOf p := by
  have hcount : i ∈ List.range p.count :=
    (perm_members p).mem_iff.mp (List.mem_flatMap.mpr ⟨ring, hring, hi⟩)
  have hgreatest := (TreePlacement.le_foldl_max (diagonal p) (List.range p.count) 0).2 i hcount
  unfold stepOf
  simp only [List.foldl_map, Scalar.greatest_eq_max]
  exact add_le_add_left hgreatest _

theorem layerSpacing_le_stepOf : p.layerSpacing ≤ stepOf p := by
  have hstart := (TreePlacement.le_foldl_max (diagonal p) (List.range p.count) 0).1
  unfold stepOf
  simp only [List.foldl_map, Scalar.greatest_eq_max]
  exact le_add_of_nonneg_left hstart

/-- A ring has room: it is a step away from the middle, and its members fit on it side by side. -/
structure Ring.IsWide (p : Placement α) (ring : Ring α) : Prop where
  step : stepOf p ≤ ring.radius
  needed : needed p ring.members / Scalar.turn ≤ ring.radius

/-- Every ring outside a radius is a step further out than the one before. -/
theorem pairwise_ringsBeyond {step : α} (hstep : 0 ≤ step) (radius : α)
    (levels : List (List Nat)) :
    (∀ ring ∈ ringsBeyond p step radius levels, radius + step ≤ ring.radius ∧
        needed p ring.members / Scalar.turn ≤ ring.radius) ∧
      (ringsBeyond p step radius levels).Pairwise fun a b => a.radius + step ≤ b.radius := by
  induction levels generalizing radius with
  | nil => exact ⟨fun ring h => absurd h List.not_mem_nil, .nil⟩
  | cons members rest ih =>
    obtain ⟨hrest, hpairs⟩ := ih (nextRadius p step radius members)
    have hnext := nextRadius_eq p step radius members
    have hout : radius + step ≤ nextRadius p step radius members := hnext ▸ le_max_left _ _
    rw [ringsBeyond]
    refine ⟨List.forall_mem_cons.mpr ⟨⟨hout, hnext ▸ le_max_right _ _⟩, fun ring hring => ?_⟩,
      hpairs.cons fun ring hring => (hrest ring hring).1⟩
    exact ⟨hout.trans ((le_add_of_nonneg_right hstep).trans (hrest ring hring).1),
      (hrest ring hring).2⟩

/-- A child in the middle has its ring to itself; all other rings are wide. -/
theorem alone_or_isWide (hlayer : 0 ≤ p.layerSpacing) {ring : Ring α} (h : ring ∈ ringsOf p) :
    (ring.radius = 0 ∧ ring.members.length = 1) ∨ ring.IsWide p := by
  have hbeyond {levels : List (List Nat)} (h : ring ∈ ringsBeyond p (stepOf p) 0 levels) :
      ring.IsWide p := by
    obtain ⟨hstep, hneeded⟩ :=
      (pairwise_ringsBeyond (hlayer.trans layerSpacing_le_stepOf) 0 levels).1 ring h
    exact ⟨(zero_add (stepOf p)).ge.trans hstep, hneeded⟩
  unfold ringsOf at h
  split at h
  · rcases List.mem_cons.mp h with rfl | h
    · exact .inl ⟨rfl, rfl⟩
    · exact .inr (hbeyond h)
  · exact .inr (hbeyond h)

theorem radius_nonneg (hlayer : 0 ≤ p.layerSpacing) {ring : Ring α} (h : ring ∈ ringsOf p) :
    0 ≤ ring.radius := by
  rcases alone_or_isWide hlayer h with ⟨hzero, -⟩ | hwide
  · exact hzero.ge
  · exact (hlayer.trans layerSpacing_le_stepOf).trans hwide.step

/-- Of any two rings, the later one is a step further out. -/
theorem pairwise_ringsOf (hlayer : 0 ≤ p.layerSpacing) :
    (ringsOf p).Pairwise fun a b => a.radius + stepOf p ≤ b.radius := by
  have hstep := hlayer.trans (layerSpacing_le_stepOf (p := p))
  unfold ringsOf
  split
  · obtain ⟨hbeyond, hpairs⟩ := pairwise_ringsBeyond (p := p) hstep 0 _
    exact hpairs.cons fun ring hring => (hbeyond ring hring).1
  · exact (pairwise_ringsBeyond hstep 0 _).2

/-! ## Boxes on rings -/

/-- Where the centre of a child is. -/
def centerOf (p : Placement α) (i : Nat) : Point α :=
  ((centers p).lookup i).getD Point.origin

/-- The centre of a child is its seat on its ring. -/
theorem centerOf_eq_seat {ring : Ring α} (h : ring ∈ ringsOf p) {s i : Nat}
    (hs : ring.members[s]? = some i) : centerOf p i = ring.seat s := by
  have hkeys : (centers p).map (·.1) = (ringsOf p).flatMap (·.members) := by
    rw [centers_eq, List.map_flatMap]
    exact List.flatMap_congr fun ring _ => ring.map_fst_seats
  have hfound : (centers p).lookup i = some (ring.seat s) := by
    refine TreePlacement.lookup_of_mem ?_ ?_
    · rw [hkeys]
      exact (perm_members p).nodup_iff.mpr List.nodup_range
    · rw [centers_eq]
      exact List.mem_flatMap.mpr ⟨ring, h, Ring.mem_seats hs⟩
  rw [centerOf, hfound, Option.getD_some]

/-- Every child has its box around its centre; all boxes are then moved by one offset. -/
theorem exists_boxes_place (p : Placement α) :
    ∃ offset : Point α, ∀ i, (p.boxes (place p))[i]? =
      p.sizes[i]?.map fun s => (Bounds.around (centerOf p i) s).shift offset := by
  obtain ⟨offset, hboxes⟩ := Placement.exists_boxes_normalize p
    (Placement.cornersOf ((List.range p.count).map (centerOf p)) p.sizes)
  refine ⟨offset, fun i => ?_⟩
  have hplace : place p = Placement.normalize
      (Placement.cornersOf ((List.range p.count).map (centerOf p)) p.sizes) := rfl
  rw [hplace, hboxes, Placement.boxes_cornersOf, List.getElem?_map, List.getElem?_zipWith,
    List.getElem?_map]
  by_cases hi : i < p.count
  · rw [List.getElem?_range hi, List.getElem?_eq_getElem (show i < p.sizes.length from hi)]
    rfl
  · rw [List.getElem?_eq_none (show p.sizes.length ≤ i from not_lt.mp hi)]
    simp

theorem exists_box {i : Nat} {size : Size α} (h : p.sizes[i]? = some size) :
    ∃ b, (p.boxes (place p))[i]? = some b ∧ b.size = size := by
  obtain ⟨offset, hboxes⟩ := exists_boxes_place p
  refine ⟨(Bounds.around (centerOf p i) size).shift offset, ?_, rfl⟩
  rw [hboxes, h]
  rfl

/-- Two boxes are apart exactly if, on one axis, their seats are half of both boxes apart. -/
theorem apart_iff_seats (hsizes : ∀ s ∈ p.sizes, s.Positive) {ring ring' : Ring α}
    (hring : ring ∈ ringsOf p) (hring' : ring' ∈ ringsOf p) {s t i j : Nat}
    (hs : ring.members[s]? = some i) (ht : ring'.members[t]? = some j) {a b : Bounds α}
    (ha : (p.boxes (place p))[i]? = some a) (hb : (p.boxes (place p))[j]? = some b) :
    a.Apart b ↔
      a.width / Scalar.ofNat 2 + b.width / Scalar.ofNat 2 ≤
          |(ring.seat s).x - (ring'.seat t).x| ∨
        a.height / Scalar.ofNat 2 + b.height / Scalar.ofNat 2 ≤
          |(ring.seat s).y - (ring'.seat t).y| := by
  obtain ⟨offset, hboxes⟩ := exists_boxes_place p
  rw [hboxes, Option.map_eq_some_iff] at ha hb
  obtain ⟨size, hsize, rfl⟩ := ha
  obtain ⟨size', hsize', rfl⟩ := hb
  have hpos := hsizes size (List.mem_of_getElem? hsize)
  have hpos' := hsizes size' (List.mem_of_getElem? hsize')
  rw [Bounds.apart_iff_apartBy ⟨hpos.width, hpos.height⟩ ⟨hpos'.width, hpos'.height⟩,
    Bounds.apartBy_shift, Bounds.apartBy_around, add_zero, add_zero, centerOf_eq_seat hring hs,
    centerOf_eq_seat hring' ht]
  exact Iff.rfl

end RadialPlacement

end DiagramPress
