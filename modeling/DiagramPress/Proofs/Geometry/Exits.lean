-- Where lines leave boxes: the way from the centre of a box to a point ends on the border of
-- the box, and ways between the centres of boxes that are apart leave both boxes in order.
import DiagramPress.Proofs.Geometry.Spacing
import DiagramPress.Proofs.Layout.Methods

namespace DiagramPress

variable {α : Type}

/-! ## Points on a way -/

namespace Point

theorem ext {p q : Point α} (hx : p.x = q.x) (hy : p.y = q.y) : p = q := by
  cases p
  cases q
  exact congrArg₂ mk hx hy

/-- The point at that part of the way from `p` to `q`. -/
def onWay [Scalar α] (p q : Point α) (part : α) : Point α :=
  ⟨p.x + (q.x - p.x) * part, p.y + (q.y - p.y) * part⟩

variable [ExactScalar α]

/-- The ray that starts at `start` and runs through `through` meets the point. -/
def OnRay (start through p : Point α) : Prop := ∃ part, 0 ≤ part ∧ p = start.onWay through part

/-- The line between both ends meets the point. -/
def Between (first last p : Point α) : Prop :=
  ∃ part, 0 ≤ part ∧ part ≤ 1 ∧ p = first.onWay last part

/-- The line from `first` to `last` meets `p`, and there or later `q`. -/
def InOrder (first p q last : Point α) : Prop :=
  ∃ near far, 0 ≤ near ∧ near ≤ far ∧ far ≤ 1 ∧ p = first.onWay last near ∧
    q = first.onWay last far

theorem onWay_swap (p q : Point α) (part : α) : q.onWay p part = p.onWay q (1 - part) := by
  simp only [onWay, mk.injEq]
  constructor <;> ring

theorem onWay_onWay (p q : Point α) (near far part : α) :
    (p.onWay q near).onWay (p.onWay q far) part = p.onWay q (near + (far - near) * part) := by
  simp only [onWay, mk.injEq]
  constructor <;> ring

end Point

theorem Size.Positive.nonneg [ExactScalar α] {s : Size α} (h : s.Positive) : s.Nonneg :=
  ⟨h.width.le, h.height.le⟩

namespace Bounds

/-! ## Points of a box -/

section

variable [Scalar α]

/-- The point is in the box or on one of its sides. -/
structure Encloses (b : Bounds α) (p : Point α) : Prop where
  left : b.x ≤ p.x
  top : b.y ≤ p.y
  right : p.x ≤ b.right
  bottom : p.y ≤ b.bottom

/-- The point belongs to the box and lies on one of its sides. -/
def OnBorder (b : Bounds α) (p : Point α) : Prop :=
  b.Encloses p ∧ (p.x = b.x ∨ p.x = b.right ∨ p.y = b.y ∨ p.y = b.bottom)

end

variable [ExactScalar α]

/-! ## Distances from the middle -/

theorem half_pos_of_pos {length : α} (h : 0 < length) : 0 < length / Scalar.ofNat 2 := by
  rw [Scalar.ofNat_eq_cast]
  exact div_pos h (Nat.cast_pos.mpr two_pos)

theorem half_nonneg {length : α} (h : 0 ≤ length) : 0 ≤ length / Scalar.ofNat 2 := by
  rw [Scalar.ofNat_eq_cast]
  exact div_nonneg h (Nat.cast_nonneg 2)

section

variable {lo length v : α}

theorem distance_le_half_iff :
    |v - (lo + length / Scalar.ofNat 2)| ≤ length / Scalar.ofNat 2 ↔
      lo ≤ v ∧ v ≤ lo + length := by
  have hhalves : length / Scalar.ofNat 2 + length / Scalar.ofNat 2 = length :=
    Scalar.half_add_half length
  rw [abs_le]
  refine and_congr ⟨fun h => ?_, fun h => ?_⟩ ⟨fun h => ?_, fun h => ?_⟩ <;> linarith

theorem distance_lt_half_iff :
    |v - (lo + length / Scalar.ofNat 2)| < length / Scalar.ofNat 2 ↔
      lo < v ∧ v < lo + length := by
  have hhalves : length / Scalar.ofNat 2 + length / Scalar.ofNat 2 = length :=
    Scalar.half_add_half length
  rw [abs_lt]
  refine and_congr ⟨fun h => ?_, fun h => ?_⟩ ⟨fun h => ?_, fun h => ?_⟩ <;> linarith

/-- As far from the middle as half of the length are only the two ends. -/
theorem eq_end_of_distance
    (h : |v - (lo + length / Scalar.ofNat 2)| = length / Scalar.ofNat 2) :
    v = lo ∨ v = lo + length := by
  have hhalves : length / Scalar.ofNat 2 + length / Scalar.ofNat 2 = length :=
    Scalar.half_add_half length
  rcases abs_choice (v - (lo + length / Scalar.ofNat 2)) with habs | habs
  · exact .inr (by linarith)
  · exact .inl (by linarith)

end

section

variable {b : Bounds α} {p : Point α}

theorem encloses_iff : b.Encloses p ↔
    |p.x - b.center.x| ≤ b.width / Scalar.ofNat 2 ∧
      |p.y - b.center.y| ≤ b.height / Scalar.ofNat 2 := by
  have hx : |p.x - b.center.x| ≤ b.width / Scalar.ofNat 2 ↔ b.x ≤ p.x ∧ p.x ≤ b.right :=
    distance_le_half_iff
  have hy : |p.y - b.center.y| ≤ b.height / Scalar.ofNat 2 ↔ b.y ≤ p.y ∧ p.y ≤ b.bottom :=
    distance_le_half_iff
  rw [hx, hy]
  exact ⟨fun h => ⟨⟨h.left, h.right⟩, h.top, h.bottom⟩, fun h => ⟨h.1.1, h.2.1, h.1.2, h.2.2⟩⟩

theorem interior_iff : b.Interior p ↔
    |p.x - b.center.x| < b.width / Scalar.ofNat 2 ∧
      |p.y - b.center.y| < b.height / Scalar.ofNat 2 := by
  have hx : |p.x - b.center.x| < b.width / Scalar.ofNat 2 ↔ b.x < p.x ∧ p.x < b.right :=
    distance_lt_half_iff
  have hy : |p.y - b.center.y| < b.height / Scalar.ofNat 2 ↔ b.y < p.y ∧ p.y < b.bottom :=
    distance_lt_half_iff
  rw [hx, hy]
  exact ⟨fun h => ⟨⟨h.left, h.right⟩, h.top, h.bottom⟩, fun h => ⟨h.1.1, h.2.1, h.1.2, h.2.2⟩⟩

theorem interior_center (h : b.size.Positive) : b.Interior b.center := by
  rw [interior_iff, sub_self, sub_self, abs_zero]
  exact ⟨half_pos_of_pos h.width, half_pos_of_pos h.height⟩

theorem onBorder_of_distance (h : b.Encloses p)
    (hreach : |p.x - b.center.x| = b.width / Scalar.ofNat 2 ∨
      |p.y - b.center.y| = b.height / Scalar.ofNat 2) : b.OnBorder p := by
  refine ⟨h, ?_⟩
  rcases hreach with hreach | hreach
  · rcases eq_end_of_distance hreach with hend | hend
    · exact .inl hend
    · exact .inr (.inl hend)
  · rcases eq_end_of_distance hreach with hend | hend
    · exact .inr (.inr (.inl hend))
    · exact .inr (.inr (.inr hend))

end

/-! ## Where the way from the centre ends -/

/-- At that part of the way from the centre to a point the box ends: on no axis it is further
than half of the box, and on one of them exactly so far. -/
structure EndsAt (b : Bounds α) (toward : Point α) (part : α) : Prop where
  nonneg : 0 ≤ part
  across : |toward.x - b.center.x| * part ≤ b.width / Scalar.ofNat 2
  down : |toward.y - b.center.y| * part ≤ b.height / Scalar.ofNat 2
  reaches : toward ≠ b.center → |toward.x - b.center.x| * part = b.width / Scalar.ofNat 2 ∨
    |toward.y - b.center.y| * part = b.height / Scalar.ofNat 2

theorem reach?_eq (half offset : α) :
    reach? half offset = if offset = 0 then none else some (half / |offset|) := by
  have hsame : Scalar.same offset (Scalar.ofNat 0) = true ↔ offset = 0 := by
    rw [Scalar.same, Bool.and_eq_true, decide_eq_true_eq, decide_eq_true_eq, Scalar.ofNat_zero]
    exact ⟨fun h => le_antisymm h.1 h.2, fun h => ⟨h.le, h.ge⟩⟩
  rw [reach?, Scalar.abs_eq_abs]
  exact if_congr hsame rfl rfl

/-- The way out of a box ends, also where it leads straight along one axis or nowhere. -/
theorem exists_endsAt {b : Bounds α} (hb : b.size.Nonneg) (toward : Point α) :
    ∃ part, b.EndsAt toward part ∧ b.exitToward toward = b.center.onWay toward part := by
  have hwidth : 0 ≤ b.width / Scalar.ofNat 2 := half_nonneg hb.width
  have hheight : 0 ≤ b.height / Scalar.ofNat 2 := half_nonneg hb.height
  have hfits {half d : α} (hd : d ≠ 0) : |d| * (half / |d|) = half :=
    mul_div_cancel₀ half (abs_pos.mpr hd).ne'
  unfold exitToward
  simp only [reach?_eq, Scalar.least_eq_min]
  by_cases hx : toward.x - b.center.x = 0 <;> by_cases hy : toward.y - b.center.y = 0
  · refine ⟨0, ⟨le_rfl, by simpa using hwidth, by simpa using hheight, fun hne => ?_⟩, ?_⟩
    · exact absurd (Point.ext (sub_eq_zero.mp hx) (sub_eq_zero.mp hy)) hne
    · simp [hx, hy, Point.onWay]
  · refine ⟨b.height / Scalar.ofNat 2 / |toward.y - b.center.y|,
      ⟨div_nonneg hheight (abs_nonneg _), ?_, (hfits hy).le, fun _ => .inr (hfits hy)⟩, ?_⟩
    · rwa [hx, abs_zero, zero_mul]
    · rw [if_pos hx, if_neg hy]
      rfl
  · refine ⟨b.width / Scalar.ofNat 2 / |toward.x - b.center.x|,
      ⟨div_nonneg hwidth (abs_nonneg _), (hfits hx).le, ?_, fun _ => .inl (hfits hx)⟩, ?_⟩
    · rwa [hy, abs_zero, zero_mul]
    · rw [if_neg hx, if_pos hy]
      rfl
  · refine ⟨min (b.width / Scalar.ofNat 2 / |toward.x - b.center.x|)
      (b.height / Scalar.ofNat 2 / |toward.y - b.center.y|), ?_, by rw [if_neg hx, if_neg hy]; rfl⟩
    rcases le_total (b.width / Scalar.ofNat 2 / |toward.x - b.center.x|)
      (b.height / Scalar.ofNat 2 / |toward.y - b.center.y|) with hle | hle
    · rw [min_eq_left hle]
      have hdown := mul_le_mul_of_nonneg_left hle (abs_nonneg (toward.y - b.center.y))
      exact ⟨div_nonneg hwidth (abs_nonneg _), (hfits hx).le, hdown.trans (hfits hy).le,
        fun _ => .inl (hfits hx)⟩
    · rw [min_eq_right hle]
      have hacross := mul_le_mul_of_nonneg_left hle (abs_nonneg (toward.x - b.center.x))
      exact ⟨div_nonneg hheight (abs_nonneg _), hacross.trans (hfits hx).le, (hfits hy).le,
        fun _ => .inr (hfits hy)⟩

section

variable {b : Bounds α} {toward : Point α} {part : α}

/-- How far a point of the way is from the centre, on both axes. -/
theorem distance_onWay (b : Bounds α) (toward : Point α) (h : 0 ≤ part) :
    |(b.center.onWay toward part).x - b.center.x| = |toward.x - b.center.x| * part ∧
      |(b.center.onWay toward part).y - b.center.y| = |toward.y - b.center.y| * part := by
  simp only [Point.onWay, add_sub_cancel_left, abs_mul, abs_of_nonneg h, and_self]

/-- Where the way ends, the point belongs to the box. -/
theorem EndsAt.encloses (h : b.EndsAt toward part) : b.Encloses (b.center.onWay toward part) := by
  obtain ⟨hx, hy⟩ := distance_onWay b toward h.nonneg
  rw [encloses_iff, hx, hy]
  exact ⟨h.across, h.down⟩

theorem EndsAt.onBorder (h : b.EndsAt toward part) (hne : toward ≠ b.center) :
    b.OnBorder (b.center.onWay toward part) := by
  obtain ⟨hx, hy⟩ := distance_onWay b toward h.nonneg
  refine onBorder_of_distance h.encloses ?_
  rw [hx, hy]
  exact h.reaches hne

/-- From its end on, the way has no point inside the box. -/
theorem EndsAt.not_interior (h : b.EndsAt toward part) (hne : toward ≠ b.center) {further : α}
    (hle : part ≤ further) : ¬ b.Interior (b.center.onWay toward further) := by
  obtain ⟨hx, hy⟩ := distance_onWay b toward (h.nonneg.trans hle)
  rw [interior_iff, hx, hy]
  rintro ⟨hacross, hdown⟩
  rcases h.reaches hne with hreach | hreach
  · have hgrows := mul_le_mul_of_nonneg_left hle (abs_nonneg (toward.x - b.center.x))
    exact absurd hacross (not_lt.mpr (hreach ▸ hgrows))
  · have hgrows := mul_le_mul_of_nonneg_left hle (abs_nonneg (toward.y - b.center.y))
    exact absurd hdown (not_lt.mpr (hreach ▸ hgrows))

/-- Wherever the way to a point leaves the box, it is still there. -/
theorem encloses_exitToward (hb : b.size.Nonneg) (toward : Point α) :
    b.Encloses (b.exitToward toward) := by
  obtain ⟨part, hpart, hexit⟩ := exists_endsAt hb toward
  rw [hexit]
  exact hpart.encloses

end

/-! ## Ways between two boxes -/

theorem around_center (b : Bounds α) : around b.center b.size = b := by
  cases b
  simp only [around, ofCorner, center, size, add_sub_cancel_right]

/-- On one axis: two parts of a distance that is long enough for both do not meet. -/
theorem parts_le_one {d half half' s t : α} (hpos : 0 < half + half') (hgap : half + half' ≤ |d|)
    (hs : |d| * s ≤ half) (ht : |d| * t ≤ half') : s + t ≤ 1 := by
  refine le_of_mul_le_mul_left ?_ (hpos.trans_le hgap)
  rw [mul_add, mul_one]
  linarith

section

variable {a b : Bounds α} (ha : a.size.Positive) (hb : b.size.Positive) (hapart : a.Apart b)
include ha hb hapart

/-- The ways from the centres of two boxes to each other end before they meet. -/
theorem EndsAt.add_le_one {s t : α} (hs : a.EndsAt b.center s) (ht : b.EndsAt a.center t) :
    s + t ≤ 1 := by
  have hgap := (apart_iff_apartBy ha hb).mp hapart
  rw [← around_center a, ← around_center b, apartBy_around, add_zero, add_zero] at hgap
  have hacross := hs.across
  have hdown := hs.down
  rw [abs_sub_comm] at hacross hdown
  rcases hgap with hgap | hgap
  · have hpos : 0 < a.size.width / Scalar.ofNat 2 + b.size.width / Scalar.ofNat 2 :=
      add_pos (half_pos_of_pos ha.width) (half_pos_of_pos hb.width)
    exact parts_le_one hpos hgap hacross ht.across
  · have hpos : 0 < a.size.height / Scalar.ofNat 2 + b.size.height / Scalar.ofNat 2 :=
      add_pos (half_pos_of_pos ha.height) (half_pos_of_pos hb.height)
    exact parts_le_one hpos hgap hdown ht.down

theorem center_ne_center : b.center ≠ a.center := by
  intro heq
  exact hapart a.center (interior_center ha) (heq ▸ interior_center hb)

/-- The line between the exits: first it leaves the one box, and then it gets to the other one. -/
theorem exits_inOrder :
    Point.InOrder a.center (a.exitToward b.center) (b.exitToward a.center) b.center ∧
      ∀ p, Point.Between (a.exitToward b.center) (b.exitToward a.center) p →
        ¬ a.Interior p ∧ ¬ b.Interior p := by
  have hne := center_ne_center ha hb hapart
  obtain ⟨s, hs, hexit⟩ := exists_endsAt ha.nonneg b.center
  obtain ⟨t, ht, hexit'⟩ := exists_endsAt hb.nonneg a.center
  have hsum := hs.add_le_one ha hb hapart ht
  rw [Point.onWay_swap] at hexit'
  rw [hexit, hexit']
  refine ⟨⟨s, 1 - t, hs.nonneg, by linarith, by linarith [ht.nonneg], rfl, rfl⟩, ?_⟩
  rintro p ⟨part, hpart, hone, rfl⟩
  rw [Point.onWay_onWay]
  -- So far is the point on the way from the one centre to the other one.
  have hlength : 0 ≤ 1 - t - s := by linarith
  have hstart : s ≤ s + (1 - t - s) * part := by
    linarith [mul_nonneg hlength hpart]
  have hend : t ≤ 1 - (s + (1 - t - s) * part) := by
    linarith [mul_le_of_le_one_right hlength hone]
  refine ⟨hs.not_interior hne hstart, ?_⟩
  have hback := ht.not_interior hne.symm hend
  rwa [Point.onWay_swap, sub_sub_cancel] at hback

end

end Bounds

end DiagramPress
