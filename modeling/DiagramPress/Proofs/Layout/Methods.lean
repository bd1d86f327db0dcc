-- What the placement methods have in common: each gives every child one point, and
-- where numbers are exact no point lies to the left of the origin or above it.
import DiagramPress.Proofs.Number.Exact
import DiagramPress.Layout.Engine

namespace DiagramPress

variable {α : Type} [ExactScalar α]

/-- A point without negative coordinates. -/
structure Point.Nonneg (p : Point α) : Prop where
  x : 0 ≤ p.x
  y : 0 ≤ p.y

structure Size.Nonneg (s : Size α) : Prop where
  width : 0 ≤ s.width
  height : 0 ≤ s.height

namespace Scalar

theorem isFinite_eq_true (a : α) : isFinite a = true := by
  have hsame : isFinite a = same (a - a) (ofNat 0) := rfl
  rw [hsame, ofNat_zero, sub_self]
  simp [same]

theorem foldl_least_le (l : List α) (a : α) :
    l.foldl least a ≤ a ∧ ∀ b ∈ l, l.foldl least a ≤ b := by
  induction l generalizing a with
  | nil => simp
  | cons c l ih =>
    obtain ⟨hstart, hrest⟩ := ih (least a c)
    rw [least_eq_min] at hstart hrest
    rw [List.foldl_cons, least_eq_min]
    refine ⟨hstart.trans (min_le_left a c), fun b hb => ?_⟩
    rcases List.mem_cons.mp hb with rfl | hb
    · exact hstart.trans (min_le_right a b)
    · exact hrest b hb

theorem least?_le {l : List α} {a : α} (h : least? l = some a) : ∀ b ∈ l, a ≤ b := by
  cases l with
  | nil => cases h
  | cons c l =>
    obtain rfl := Option.some.inj h
    intro b hb
    rcases List.mem_cons.mp hb with rfl | hb
    · exact (foldl_least_le l b).1
    · exact (foldl_least_le l c).2 b hb

theorem foldl_least_mem (l : List α) (a : α) : l.foldl least a ∈ a :: l := by
  induction l generalizing a with
  | nil => exact List.mem_cons_self
  | cons c l ih =>
    rw [List.foldl_cons]
    rcases List.mem_cons.mp (ih (least a c)) with heq | hmem
    · rw [heq, least_eq_min]
      rcases min_choice a c with hmin | hmin <;> simp [hmin]
    · simp [hmem]

theorem least?_mem {l : List α} {a : α} (h : least? l = some a) : a ∈ l := by
  cases l with
  | nil => cases h
  | cons c l => exact Option.some.inj h ▸ foldl_least_mem l c

end Scalar

namespace Placement

/-! ## Answers of a method -/

/-- There is one point for each child, and none has a negative coordinate. -/
structure IsFilledBy (p : Placement α) (points : List (Point α)) : Prop where
  count : points.length = p.count
  nonneg : ∀ q ∈ points, q.Nonneg

theorem length_normalize (points : List (Point α)) : (normalize points).length = points.length := by
  unfold normalize
  split
  · split
    · rw [List.length_map]
    · rfl
  · rfl

/-- The least coordinates of some points. -/
structure IsCorner (points : List (Point α)) (corner : Point α) : Prop where
  x_mem : ∃ q ∈ points, q.x = corner.x
  y_mem : ∃ q ∈ points, q.y = corner.y
  x_le : ∀ q ∈ points, corner.x ≤ q.x
  y_le : ∀ q ∈ points, corner.y ≤ q.y

/-- Points are moved to the origin from their least coordinates. -/
theorem exists_isCorner {points : List (Point α)} (h : points ≠ []) :
    ∃ corner, IsCorner points corner ∧ normalize points = points.map (·.relativeTo corner) := by
  obtain ⟨first, rest, rfl⟩ := List.exists_cons_of_ne_nil h
  obtain ⟨x, hx⟩ : ∃ x, Scalar.least? ((first :: rest).map (·.x)) = some x := ⟨_, rfl⟩
  obtain ⟨y, hy⟩ : ∃ y, Scalar.least? ((first :: rest).map (·.y)) = some y := ⟨_, rfl⟩
  refine ⟨⟨x, y⟩, ⟨?_, ?_, fun q hq => ?_, fun q hq => ?_⟩, ?_⟩
  · exact List.mem_map.mp (Scalar.least?_mem hx)
  · exact List.mem_map.mp (Scalar.least?_mem hy)
  · exact Scalar.least?_le hx _ (List.mem_map_of_mem hq)
  · exact Scalar.least?_le hy _ (List.mem_map_of_mem hq)
  · simp only [normalize, hx, hy, Scalar.isFinite_eq_true, Bool.and_self, if_true]
    rfl

/-- Points that are moved to the origin have no negative coordinate. -/
theorem nonneg_normalize (points : List (Point α)) : ∀ q ∈ normalize points, q.Nonneg := by
  intro q hq
  by_cases h : points = []
  · subst h
    exact absurd hq List.not_mem_nil
  · obtain ⟨corner, hcorner, heq⟩ := exists_isCorner h
    rw [heq] at hq
    obtain ⟨p, hp, rfl⟩ := List.mem_map.mp hq
    exact ⟨sub_nonneg.mpr (hcorner.x_le p hp), sub_nonneg.mpr (hcorner.y_le p hp)⟩

/-- Some point comes to stand at the left margin, and some point at the top. -/
theorem exists_zero_normalize {points : List (Point α)} (h : points ≠ []) :
    (∃ q ∈ normalize points, q.x = 0) ∧ ∃ q ∈ normalize points, q.y = 0 := by
  obtain ⟨corner, hcorner, heq⟩ := exists_isCorner h
  obtain ⟨p, hp, hx⟩ := hcorner.x_mem
  obtain ⟨r, hr, hy⟩ := hcorner.y_mem
  rw [heq]
  exact ⟨⟨_, List.mem_map_of_mem hp, sub_eq_zero.mpr hx⟩,
    ⟨_, List.mem_map_of_mem hr, sub_eq_zero.mpr hy⟩⟩

/-- Moved to the origin, as many points as there are children fill a placement. -/
theorem isFilledBy_normalize {p : Placement α} {points : List (Point α)}
    (h : points.length = p.count) : p.IsFilledBy (normalize points) :=
  ⟨(length_normalize points).trans h, nonneg_normalize points⟩

theorem length_cornersOf {p : Placement α} {centers : List (Point α)}
    (h : centers.length = p.count) : (cornersOf centers p.sizes).length = p.count := by
  rw [cornersOf, List.length_zipWith, h, count, Nat.min_self]

end Placement

/-! ## Rows -/

namespace Rows

/-- The next box goes neither to the left of the origin nor above it. -/
structure Cursor.Nonneg (c : Cursor α) : Prop where
  x : 0 ≤ c.x
  y : 0 ≤ c.y
  rowHeight : 0 ≤ c.rowHeight

theorem step_nonneg {gap : α} (hgap : 0 ≤ gap) (limit : α) {cursor : Cursor α}
    (hcursor : cursor.Nonneg) {size : Size α} (hsize : size.Nonneg) :
    (step gap limit cursor size).1.Nonneg ∧ (step gap limit cursor size).2.Nonneg := by
  have hzero : (0 : α) ≤ Scalar.ofNat 0 := Scalar.ofNat_zero.ge
  have hstep {start : Cursor α} (h : start.Nonneg) :
      Point.Nonneg ⟨start.x, start.y⟩ ∧ Cursor.Nonneg ⟨start.x + (size.width + gap), start.y,
        Scalar.greatest start.rowHeight size.height⟩ := by
    refine ⟨⟨h.x, h.y⟩, ⟨add_nonneg h.x (add_nonneg hsize.width hgap), h.y, ?_⟩⟩
    rw [Scalar.greatest_eq_max]
    exact h.rowHeight.trans (le_max_left _ _)
  unfold step
  dsimp only
  split
  · exact hstep ⟨hzero, add_nonneg hcursor.y (add_nonneg hcursor.rowHeight hgap), hzero⟩
  · exact hstep hcursor

theorem length_fill (gap limit : α) (cursor : Cursor α) (sizes : List (Size α)) :
    (fill gap limit cursor sizes).length = sizes.length := by
  induction sizes generalizing cursor with
  | nil => rfl
  | cons size rest ih => rw [fill, List.length_cons, ih, List.length_cons]

theorem fill_nonneg {gap limit : α} (hgap : 0 ≤ gap) {cursor : Cursor α} (hcursor : cursor.Nonneg)
    {sizes : List (Size α)} (hsizes : ∀ s ∈ sizes, s.Nonneg) :
    ∀ q ∈ fill gap limit cursor sizes, q.Nonneg := by
  induction sizes generalizing cursor with
  | nil => simp [fill]
  | cons size rest ih =>
    obtain ⟨hpoint, hnext⟩ := step_nonneg hgap limit hcursor (hsizes size (by simp))
    intro q hq
    rw [fill] at hq
    rcases List.mem_cons.mp hq with rfl | hq
    · exact hpoint
    · exact ih hnext (fun s hs => hsizes s (by simp [hs])) q hq

theorem isFilledBy_place {p : Placement α} (hgap : 0 ≤ p.nodeSpacing)
    (hsizes : ∀ s ∈ p.sizes, s.Nonneg) : p.IsFilledBy (place p) where
  count := length_fill _ _ _ _
  nonneg := by
    have hzero : (0 : α) ≤ Scalar.ofNat 0 := Scalar.ofNat_zero.ge
    exact fill_nonneg hgap ⟨hzero, hzero, hzero⟩ hsizes

end Rows

/-! ## Layers, trees and rings -/

theorem Layered.isFilledBy_place (p : Placement α) : p.IsFilledBy (Layered.place p) := by
  have hcenters : (centers p).length = p.count := by
    rw [centers, List.length_map, List.length_range]
  have hfromZero : (fromZero (centers p) p.sizes).length = p.count := by
    unfold fromZero
    dsimp only
    split
    · rw [List.length_map, hcenters]
    · exact hcenters
  exact Placement.isFilledBy_normalize (Placement.length_cornersOf hfromZero)

theorem TreePlacement.isFilledBy_place (p : Placement α) :
    p.IsFilledBy (TreePlacement.place p) := by
  refine Placement.isFilledBy_normalize ?_
  rw [points, List.length_map, List.length_zipIdx]
  rfl

theorem RadialPlacement.isFilledBy_place (p : Placement α) :
    p.IsFilledBy (RadialPlacement.place p) := by
  refine Placement.isFilledBy_normalize (Placement.length_cornersOf ?_)
  rw [List.length_map, List.length_range]

/-! ## Forces -/

namespace ForcePlacement

/-- What each step of a fold keeps, the fold keeps. -/
theorem foldl_keeps {β γ δ : Type} (measure : β → δ) {f : β → γ → β}
    (h : ∀ b c, measure (f b c) = measure b) (l : List γ) (b : β) :
    measure (l.foldl f b) = measure b := by
  induction l generalizing b with
  | nil => rfl
  | cons c l ih => rw [List.foldl_cons, ih, h]

theorem size_stepParticle (partners : List Nat) (particles : Array (Particle α)) (i : Nat) :
    (stepParticle partners particles i).size = particles.size := by
  unfold stepParticle
  split
  · rfl
  · dsimp only
    rw [Array.size_setIfInBounds]
    refine foldl_keeps (fun b : Particle α × Array (Particle α) => b.2.size) (fun b j => ?_) _ _
    split
    · exact Array.size_setIfInBounds
    · rfl

theorem size_run (partners : List (List Nat)) (n : Nat) (particles : Array (Particle α)) :
    (run partners n particles).size = particles.size := by
  induction n generalizing particles with
  | zero => rfl
  | succ n ih =>
    rw [run, ih]
    exact foldl_keeps Array.size
      (fun ps (entry : List Nat × Nat) => size_stepParticle entry.1 ps entry.2) _ particles

theorem length_simulate (p : Placement α) : (simulate p).length = p.count := by
  unfold simulate
  simp [size_run]

theorem length_separate (centers : List (Point α)) :
    (separate centers).length = centers.length := by
  have hfold (l placed : List (Point α)) : (l.foldl (fun placed c =>
      placed ++ [moveAside placed placed.length c]) placed).length = placed.length + l.length := by
    induction l generalizing placed with
    | nil => rfl
    | cons c l ih =>
      rw [List.foldl_cons, ih, List.length_append, List.length_singleton, List.length_cons]
      omega
  rw [separate, hfold, List.length_nil, Nat.zero_add]

theorem isFilledBy_place (p : Placement α) : p.IsFilledBy (place p) := by
  refine Placement.isFilledBy_normalize (Placement.length_cornersOf ?_)
  rw [List.length_map, length_separate, length_simulate]

end ForcePlacement

/-! ## All methods -/

/-- Every method of the program fills the placements that it is given. -/
theorem Methods.isFilledBy_bundled (method : Method) {p : Placement α} (hgap : 0 ≤ p.nodeSpacing)
    (hsizes : ∀ s ∈ p.sizes, s.Nonneg) : p.IsFilledBy (Methods.bundled method p) := by
  cases method with
  | layered => exact Layered.isFilledBy_place p
  | force => exact ForcePlacement.isFilledBy_place p
  | tree => exact TreePlacement.isFilledBy_place p
  | radial => exact RadialPlacement.isFilledBy_place p
  | rows => exact Rows.isFilledBy_place hgap hsizes

end DiagramPress
