-- Boxes on rings: those on different rings never overlap, but those on one ring may. A ring is as
-- long as its members are side by side, and leaves the same angle to large and to small ones.
import DiagramPress.Proofs.Geometry.Chords
import DiagramPress.Proofs.Layout.Rings
import DiagramPress.Proofs.Number.Real

namespace DiagramPress.RadialPlacement

open Real

/-! ## Chords of a ring -/

/-- How far apart two seats of a ring are. -/
noncomputable def Ring.chord (ring : Ring ℝ) (s t : Nat) : ℝ :=
  ring.radius * Circle.chord ring.members.length s t

/-- The chord between two seats is long enough for these boxes: across or down, it is half of
both of them long. -/
def Ring.Fits (ring : Ring ℝ) (s t : Nat) (a b : Bounds ℝ) : Prop :=
  a.width / 2 + b.width / 2 ≤ ring.chord s t * |sin (π * (s + t) / ring.members.length)| ∨
    a.height / 2 + b.height / 2 ≤ ring.chord s t * |cos (π * (s + t) / ring.members.length)|

theorem Ring.seat_eq (ring : Ring ℝ) (s : Nat) :
    ring.seat s = ⟨ring.radius * cos (Circle.angle ring.members.length s),
      ring.radius * sin (Circle.angle ring.members.length s)⟩ := rfl

variable {p : Placement ℝ}

/-- The diagonal of a child is the one of its box. -/
theorem diagonal_eq_sqrt {points : List (Point ℝ)} {i : Nat} {a : Bounds ℝ}
    (ha : (p.boxes points)[i]? = some a) :
    diagonal p i = √(a.width * a.width + a.height * a.height) := by
  rw [diagonal, Placement.getElem?_sizes_of_boxes ha]
  rfl

section

variable (hsizes : ∀ s ∈ p.sizes, s.Positive) {ring ring' : Ring ℝ} (hring : ring ∈ ringsOf p)
  {s t i j : Nat} (hs : ring.members[s]? = some i) {a b : Bounds ℝ}
  (ha : (p.boxes (place p))[i]? = some a) (hb : (p.boxes (place p))[j]? = some b)
include hsizes hring hs ha hb

/-- Boxes are apart if their seats are as far apart as half of both diagonals. -/
theorem apart_of_distance (hring' : ring' ∈ ringsOf p) (ht : ring'.members[t]? = some j)
    (h : diagonal p i + diagonal p j ≤
      2 * √(((ring.seat s).x - (ring'.seat t).x) * ((ring.seat s).x - (ring'.seat t).x) +
        ((ring.seat s).y - (ring'.seat t).y) * ((ring.seat s).y - (ring'.seat t).y))) :
    a.Apart b := by
  rw [diagonal_eq_sqrt ha, diagonal_eq_sqrt hb] at h
  rw [apart_iff_seats hsizes hring hring' hs ht ha hb, ← add_div, ← add_div]
  exact Circle.half_le_of_diagonals h

/-- Boxes on different rings are apart: a step is more than any diagonal. -/
theorem apart_of_step (hlayer : 0 ≤ p.layerSpacing) (hring' : ring' ∈ ringsOf p)
    (ht : ring'.members[t]? = some j) (h : ring.radius + stepOf p ≤ ring'.radius) :
    a.Apart b := by
  refine apart_of_distance hsizes hring hs ha hb hring' ht ?_
  have hdistance := Circle.sub_le_distance (radius_nonneg hlayer hring)
    (radius_nonneg hlayer hring') (Circle.angle ring.members.length s)
    (Circle.angle ring'.members.length t)
  have hi := diagonal_le_stepOf hring (List.mem_of_getElem? hs)
  have hj := diagonal_le_stepOf hring' (List.mem_of_getElem? ht)
  rw [ring.seat_eq, ring'.seat_eq]
  linarith

/-- Boxes on one ring are apart exactly if the chord between their seats is long enough. -/
theorem apart_iff_fits (hlayer : 0 ≤ p.layerSpacing) (ht : ring.members[t]? = some j) :
    a.Apart b ↔ ring.Fits s t a b := by
  have hradius := radius_nonneg hlayer hring
  rw [apart_iff_seats hsizes hring hring hs ht ha hb, ring.seat_eq, ring.seat_eq, ← mul_sub,
    ← mul_sub, abs_mul, abs_mul, abs_of_nonneg hradius, Circle.abs_cos_sub_cos,
    Circle.abs_sin_sub_sin, ← mul_assoc, ← mul_assoc]
  exact Iff.rfl

theorem apart_of_chord (hlayer : 0 ≤ p.layerSpacing) (ht : ring.members[t]? = some j)
    (h : diagonal p i + diagonal p j ≤ 2 * ring.chord s t) : a.Apart b := by
  refine apart_of_distance hsizes hring hs ha hb hring ht (h.trans_eq ?_)
  have hchord : 0 ≤ ring.chord s t :=
    mul_nonneg (radius_nonneg hlayer hring) (Circle.chord_nonneg _ _ _)
  have hsquare := Circle.sq_chord ring.members.length s t
  rw [ring.seat_eq, ring.seat_eq]
  simp only
  rw [← mul_sub, ← mul_sub, ← Real.sqrt_sq hchord, Ring.chord, mul_pow, ← hsquare]
  congr 2
  ring

end

/-! ## Rings with room -/

/-- No diagonal of a member is longer than the chord between neighbours. -/
def Ring.IsRoomy (p : Placement ℝ) (ring : Ring ℝ) : Prop :=
  ∀ i ∈ ring.members, ring.members.length = 1 ∨ diagonal p i ≤ ring.chord 0 1

/-- Two seats of a roomy ring are as far apart as its diagonals are long. -/
theorem Ring.IsRoomy.le_chord {ring : Ring ℝ} (h : ring.IsRoomy p) (hradius : 0 ≤ ring.radius)
    {s t : Nat} (hs : s < ring.members.length) (ht : t < ring.members.length) (hne : s ≠ t)
    {i : Nat} (hi : i ∈ ring.members) : diagonal p i ≤ ring.chord s t := by
  rcases h i hi with halone | hneighbours
  · omega
  · exact hneighbours.trans
      (mul_le_mul_of_nonneg_left (Circle.chord_neighbours_le hs ht hne) hradius)

section

variable (hlayer : 0 ≤ p.layerSpacing) {ring : Ring ℝ} (hring : ring ∈ ringsOf p)
include hlayer hring

/-- Rings of six have room: the chords are as long as the radius, and that is a step or more. -/
theorem isRoomy_of_few (hsix : ring.members.length ≤ 6) : ring.IsRoomy p := by
  intro i hi
  rcases alone_or_isWide hlayer hring with ⟨-, halone⟩ | hwide
  · exact .inl halone
  · by_cases halone : ring.members.length = 1
    · exact .inl halone
    have htwo : 2 ≤ ring.members.length := by
      have hpos := List.length_pos_of_mem hi
      omega
    have hstep := diagonal_le_stepOf hring hi
    have hradius := hwide.step
    have hchord := mul_le_mul_of_nonneg_left (Circle.one_le_chord htwo hsix)
      (radius_nonneg hlayer hring)
    refine .inr ?_
    rw [Ring.chord]
    linarith

/-- Rings with boxes of one diagonal have room, unless the spacing is much smaller. -/
theorem isRoomy_of_alike {d : ℝ} (hd : ∀ i ∈ ring.members, diagonal p i = d)
    (hspacing : d ≤ 28 * p.nodeSpacing) : ring.IsRoomy p := by
  by_cases hsix : ring.members.length ≤ 6
  · exact isRoomy_of_few hlayer hring hsix
  · -- The circle is as long as what the members need side by side, and from seven members on
    -- the chords between neighbours are together hardly shorter than the circle.
    intro i hi
    have hwide := (alone_or_isWide hlayer hring).resolve_left (by omega)
    have hneeded : needed p ring.members = ring.members.length * (d + p.nodeSpacing) := by
      rw [needed, List.map_congr_left fun i hi => congrArg (· + p.nodeSpacing) (hd i hi),
        List.map_const', List.sum_replicate, nsmul_eq_mul]
    have hcircle : ring.members.length * (d + p.nodeSpacing) ≤ ring.radius * (2 * π) := by
      rw [← hneeded]
      exact (div_le_iff₀ two_pi_pos).mp hwide.needed
    have hchords := mul_le_mul_of_nonneg_left (Circle.circle_le_chords (not_le.mp hsix))
      (radius_nonneg hlayer hring)
    have hcount : (0 : ℝ) < ring.members.length := by exact_mod_cast (by omega)
    have hmany : ring.members.length * (29 * d) ≤ ring.members.length * (29 * ring.chord 0 1) := by
      have hspaced := mul_le_mul_of_nonneg_left hspacing hcount.le
      rw [Ring.chord]
      linarith
    rw [hd i hi]
    exact .inr (by linarith [le_of_mul_le_mul_left hmany hcount])

end

/-! ## The law of rings -/

/-- Every child stands on one ring. Boxes on different rings are apart; two boxes on one ring are
apart exactly if the chord between their seats is long enough for them. -/
structure StandsInRings (p : Placement ℝ) (points : List (Point ℝ)) : Prop where
  count : points.length = p.count
  members : ((ringsOf p).flatMap (·.members)).Perm (List.range p.count)
  between : (ringsOf p).Pairwise fun ring ring' => ∀ i ∈ ring.members, ∀ j ∈ ring'.members,
    ∀ a b, (p.boxes points)[i]? = some a → (p.boxes points)[j]? = some b → a.Apart b
  within : ∀ ring ∈ ringsOf p, ∀ s t i j : Nat,
    ring.members[s]? = some i → ring.members[t]? = some j →
      ∀ a b, (p.boxes points)[i]? = some a → (p.boxes points)[j]? = some b →
        (a.Apart b ↔ ring.Fits s t a b)
  /-- On a ring with room no two boxes overlap. -/
  roomy : ∀ ring ∈ ringsOf p, ring.IsRoomy p →
    ∀ i ∈ ring.members, ∀ j ∈ ring.members, i ≠ j →
      ∀ a b, (p.boxes points)[i]? = some a → (p.boxes points)[j]? = some b → a.Apart b
  apart : (∀ ring ∈ ringsOf p, ring.IsRoomy p) → (p.boxes points).Pairwise Bounds.Apart
  few : ∀ ring ∈ ringsOf p, ring.members.length ≤ 6 → ring.IsRoomy p
  /-- Boxes of one diagonal have room if the spacing is not less than a 28th of it. -/
  alike : ∀ ring ∈ ringsOf p, ∀ d ≤ 28 * p.nodeSpacing,
    (∀ i ∈ ring.members, diagonal p i = d) → ring.IsRoomy p

section

variable (hsizes : ∀ s ∈ p.sizes, s.Positive) (hlayer : 0 ≤ p.layerSpacing)
include hsizes hlayer

theorem apart_on_roomy {ring : Ring ℝ} (hring : ring ∈ ringsOf p) (hroomy : ring.IsRoomy p)
    {i j : Nat} (hi : i ∈ ring.members) (hj : j ∈ ring.members) (hne : i ≠ j) {a b : Bounds ℝ}
    (ha : (p.boxes (place p))[i]? = some a) (hb : (p.boxes (place p))[j]? = some b) :
    a.Apart b := by
  obtain ⟨s, hs⟩ := List.mem_iff_getElem?.mp hi
  obtain ⟨t, ht⟩ := List.mem_iff_getElem?.mp hj
  have hst : s ≠ t := by
    rintro rfl
    exact hne (Option.some.inj (hs.symm.trans ht))
  obtain ⟨hslt, -⟩ := List.getElem?_eq_some_iff.mp hs
  obtain ⟨htlt, -⟩ := List.getElem?_eq_some_iff.mp ht
  have hradius := radius_nonneg hlayer hring
  have hchord := hroomy.le_chord hradius hslt htlt hst hi
  have hchord' := hroomy.le_chord hradius hslt htlt hst hj
  exact apart_of_chord hsizes hring hs ha hb hlayer ht (by linarith)

theorem pairwise_apart_of_roomy (hroomy : ∀ ring ∈ ringsOf p, ring.IsRoomy p) :
    (p.boxes (place p)).Pairwise Bounds.Apart := by
  have hlength : (p.boxes (place p)).length ≤ p.count := by
    rw [Placement.boxes, List.length_zipWith]
    exact min_le_right _ _
  refine List.pairwise_iff_getElem.mpr fun i j hi hj hij => ?_
  have ha := List.getElem?_eq_getElem hi
  have hb := List.getElem?_eq_getElem hj
  obtain ⟨ring, hring, s, hs⟩ := exists_seat (hi.trans_le hlength)
  obtain ⟨ring', hring', t, ht⟩ := exists_seat (hj.trans_le hlength)
  by_cases hsame : ring = ring'
  · subst hsame
    exact apart_on_roomy hsizes hlayer hring (hroomy ring hring) (List.mem_of_getElem? hs)
      (List.mem_of_getElem? ht) hij.ne ha hb
  · have hsymm : Std.Symm fun a b : Ring ℝ =>
        a.radius + stepOf p ≤ b.radius ∨ b.radius + stepOf p ≤ a.radius := ⟨fun _ _ h => h.symm⟩
    have hsteps : (ringsOf p).Pairwise fun a b =>
        a.radius + stepOf p ≤ b.radius ∨ b.radius + stepOf p ≤ a.radius :=
      (pairwise_ringsOf hlayer).imp fun h => .inl h
    rcases hsteps.forall hring hring' hsame with hstep | hstep
    · exact apart_of_step hsizes hring hs ha hb hlayer hring' ht hstep
    · exact (apart_of_step hsizes hring' ht hb ha hlayer hring hs hstep).symm

/-- Boxes can overlap only if they stand on one ring, with a chord between them that is too short.
On rings of six at most there are no such chords, nor on rings of boxes that are alike. -/
theorem only_boxes_on_one_ring_can_overlap : StandsInRings p (place p) := by
  constructor
  case count => exact (isFilledBy_place p).count
  case members => exact perm_members p
  case between =>
    refine (pairwise_ringsOf hlayer).imp_of_mem fun hring hring' hstep i hi j hj a b ha hb => ?_
    obtain ⟨s, hs⟩ := List.mem_iff_getElem?.mp hi
    obtain ⟨t, ht⟩ := List.mem_iff_getElem?.mp hj
    exact apart_of_step hsizes hring hs ha hb hlayer hring' ht hstep
  case within =>
    intro ring hring s t i j hs ht a b ha hb
    exact apart_iff_fits hsizes hring hs ha hb hlayer ht
  case roomy =>
    intro ring hring hroomy i hi j hj hne a b ha hb
    exact apart_on_roomy hsizes hlayer hring hroomy hi hj hne ha hb
  case apart => exact pairwise_apart_of_roomy hsizes hlayer
  case few => exact fun ring hring => isRoomy_of_few hlayer hring
  case alike => exact fun ring hring d hspacing hd => isRoomy_of_alike hlayer hring hd hspacing

end

/-- Eight boxes around another one, all of one size. -/
noncomputable def evenRing : Placement ℝ where
  sizes := List.replicate 9 ⟨80, 40⟩
  edges := (List.range 8).map fun i => (0, i + 1)
  flow := .down
  nodeSpacing := 20
  layerSpacing := 40
  iterations := 0

theorem boxes_of_one_size_do_not_overlap :
    (∀ s ∈ evenRing.sizes, s.Positive) ∧ 0 ≤ evenRing.layerSpacing ∧
      StandsInRings evenRing (place evenRing) ∧
      (evenRing.boxes (place evenRing)).Pairwise Bounds.Apart := by
  have hsizes : ∀ s ∈ evenRing.sizes, s.Positive := by
    intro s hs
    obtain rfl := List.eq_of_mem_replicate hs
    constructor <;> norm_num
  have hlayer : 0 ≤ evenRing.layerSpacing := by norm_num [evenRing]
  have hrings := only_boxes_on_one_ring_can_overlap hsizes hlayer
  refine ⟨hsizes, hlayer, hrings, hrings.apart fun ring hring => ?_⟩
  refine hrings.alike ring hring (√(80 * 80 + 40 * 40)) ?_ fun i hi => ?_
  · norm_num [evenRing, Real.sqrt_le_left]
  · have hcount := hrings.members.mem_iff.mp (List.mem_flatMap.mpr ⟨ring, hring, hi⟩)
    have hsize : evenRing.sizes[i]? = some ⟨80, 40⟩ :=
      List.getElem?_replicate_of_lt (List.mem_range.mp hcount)
    rw [diagonal, hsize]
    rfl

/-- Two large boxes and six small ones around a small one. -/
noncomputable def unevenRing : Placement ℝ where
  sizes := ⟨3, 4⟩ :: ⟨300, 400⟩ :: ⟨300, 400⟩ :: List.replicate 6 ⟨3, 4⟩
  edges := (List.range 8).map fun i => (0, i + 1)
  flow := .down
  nodeSpacing := 10
  layerSpacing := 10
  iterations := 0

/-- The ring is a step away from the middle, which is more than its members need. -/
theorem ringsOf_unevenRing :
    ringsOf unevenRing = [⟨0, [0]⟩, ⟨510, [1, 2, 3, 4, 5, 6, 7, 8]⟩] := by
  have hrings : rings (SpanningForest.ofEdges unevenRing.count unevenRing.edges) =
      [[0], [1, 2, 3, 4, 5, 6, 7, 8]] := by decide +kernel
  have hhypot {a b d : ℝ} (hd : 0 ≤ d) (h : a * a + b * b = d * d) : Scalar.hypot a b = d :=
    (congrArg Real.sqrt h).trans (Real.sqrt_mul_self hd)
  have hsmall : Scalar.hypot (3 : ℝ) 4 = 5 := hhypot (by norm_num) (by norm_num)
  have hlarge : Scalar.hypot (300 : ℝ) 400 = 500 := hhypot (by norm_num) (by norm_num)
  have hdiagonals : (List.range unevenRing.count).map (diagonal unevenRing) =
      Scalar.hypot 3 4 :: List.replicate 2 (Scalar.hypot 300 400) ++
        List.replicate 6 (Scalar.hypot 3 4) := rfl
  have hmembers : [1, 2, 3, 4, 5, 6, 7, 8].map (fun i => diagonal unevenRing i +
      unevenRing.nodeSpacing) = List.replicate 2 (Scalar.hypot 300 400 + 10) ++
        List.replicate 6 (Scalar.hypot 3 4 + 10) := rfl
  have hstep : stepOf unevenRing = 510 := by
    unfold stepOf
    rw [hdiagonals, hsmall, hlarge]
    norm_num [List.replicate, Scalar.greatest_eq_max, unevenRing]
  have hneeded : needed unevenRing [1, 2, 3, 4, 5, 6, 7, 8] = 1110 := by
    rw [needed, hmembers, hsmall, hlarge]
    norm_num [List.sum_replicate]
  have hradius : nextRadius unevenRing 510 0 [1, 2, 3, 4, 5, 6, 7, 8] = 510 := by
    rw [nextRadius_eq, hneeded, zero_add, max_eq_left]
    refine (div_le_iff₀ two_pi_pos).mpr ?_
    linarith [pi_gt_three]
  unfold ringsOf
  rw [hrings, hstep]
  simp only [ringsBeyond, hradius]

theorem seat_unevenRing (members : List Nat) (h : members.length = 8) :
    (⟨510, members⟩ : Ring ℝ).seat 0 = ⟨510, 0⟩ ∧
      (⟨510, members⟩ : Ring ℝ).seat 1 = ⟨510 * (√2 / 2), 510 * (√2 / 2)⟩ := by
  have hfirst : Circle.angle 8 0 = 0 := by simp [Circle.angle]
  have hsecond : Circle.angle 8 1 = π / 4 := by
    rw [Circle.angle]
    push_cast
    ring
  rw [Ring.seat_eq, Ring.seat_eq]
  simp only [h, hfirst, hsecond, cos_zero, sin_zero, mul_one, mul_zero, cos_pi_div_four,
    sin_pi_div_four, and_self]

/-- Each of the six small boxes has as much of the ring as a large one, for which it is too
little. -/
theorem uneven_boxes_overlap_on_a_ring :
    (∀ s ∈ unevenRing.sizes, s.Positive) ∧ 0 < unevenRing.nodeSpacing ∧
      0 < unevenRing.layerSpacing ∧
      ¬ (unevenRing.boxes (place unevenRing)).Pairwise Bounds.Apart := by
  have hsizes : ∀ s ∈ unevenRing.sizes, s.Positive := by
    simp only [unevenRing, List.forall_mem_cons]
    refine ⟨?_, ?_, ?_, fun s hs => ?_⟩
    case refine_4 =>
      obtain rfl := List.eq_of_mem_replicate hs
      constructor <;> norm_num
    all_goals constructor <;> norm_num
  refine ⟨hsizes, by norm_num [unevenRing], by norm_num [unevenRing], fun hapart => ?_⟩
  have hlarge : unevenRing.sizes[1]? = some ⟨300, 400⟩ := rfl
  have hlarge' : unevenRing.sizes[2]? = some ⟨300, 400⟩ := rfl
  obtain ⟨a, ha, hsize⟩ := exists_box hlarge
  obtain ⟨b, hb, hsize'⟩ := exists_box hlarge'
  have hab : a.Apart b := by
    obtain ⟨hi, rfl⟩ := List.getElem?_eq_some_iff.mp ha
    obtain ⟨hj, rfl⟩ := List.getElem?_eq_some_iff.mp hb
    exact List.pairwise_iff_getElem.mp hapart 1 2 hi hj (by decide)
  have hring : (⟨510, [1, 2, 3, 4, 5, 6, 7, 8]⟩ : Ring ℝ) ∈ ringsOf unevenRing := by
    rw [ringsOf_unevenRing]
    exact List.mem_cons_of_mem _ List.mem_cons_self
  have hseats := (apart_iff_seats hsizes hring hring (s := 0) (t := 1) rfl rfl ha hb).mp hab
  obtain ⟨hfirst, hsecond⟩ := seat_unevenRing [1, 2, 3, 4, 5, 6, 7, 8] rfl
  have hwidth : a.width = 300 := congrArg Size.width hsize
  have hwidth' : b.width = 300 := congrArg Size.width hsize'
  have hheight : a.height = 400 := congrArg Size.height hsize
  have hheight' : b.height = 400 := congrArg Size.height hsize'
  rw [hfirst, hsecond, hwidth, hwidth', hheight, hheight', Scalar.ofNat_eq_cast, Nat.cast_ofNat,
    le_abs', le_abs'] at hseats
  have hroot : 1 ≤ √2 := one_le_sqrt.mpr one_le_two
  have hroot' : √2 ≤ 3 / 2 := sqrt_le_iff.mpr (by norm_num)
  rcases hseats with (hseats | hseats) | hseats | hseats <;> linarith

end DiagramPress.RadialPlacement
