-- Centres are spread as far as their boxes need it and no further: with any smaller
-- factor some two boxes are closer than the spacing on both axes.
import DiagramPress.Proofs.Layout.ForceSpacing

namespace DiagramPress

variable {α : Type} [ExactScalar α]

namespace ForcePlacement

/-! ## The smallest factor -/

section

variable {gap : α} {a b : Point α × Size α}

/-- A pair needs some distance, however small its boxes are. -/
theorem not_brings_zero (hgap : 0 ≤ gap) (ha : a.2.Positive) (hb : b.2.Positive) :
    ¬ Brings gap 0 a b := by
  have hhalf {length : α} (h : 0 < length) : 0 < length / Scalar.ofNat 2 := by
    rw [Scalar.ofNat_eq_cast]
    exact div_pos h (Nat.cast_pos.mpr (by decide))
  rintro (h | h)
  · rw [zero_mul] at h
    linarith [hhalf ha.width, hhalf hb.width]
  · rw [zero_mul] at h
    linarith [hhalf ha.height, hhalf hb.height]

end

/-- Centres are spread by a factor that keeps the spacing between all boxes. With a smaller one
some two of them are closer on both axes. The boxes are then shown moved by one offset. -/
structure IsSpread (p : Placement α) (centers : List (Point α)) (k : α) (points : List (Point α)) :
    Prop where
  count : points.length = p.count
  apart : (boxesAt p centers k).Pairwise (Bounds.ApartBy p.nodeSpacing)
  smallest : 2 ≤ p.count → ∀ less, 0 ≤ less → less < k →
    ∃ (i j : Nat) (b c : Bounds α), i < j ∧ (boxesAt p centers less)[i]? = some b ∧
      (boxesAt p centers less)[j]? = some c ∧ ¬ b.ApartBy p.nodeSpacing c
  shown : ∃ offset : Point α, p.boxes points = (boxesAt p centers k).map (·.shift offset)

theorem exists_of_not_pairwise {β : Type} {R : β → β → Prop} {l : List β} (h : ¬ l.Pairwise R) :
    ∃ (i j : Nat) (b c : β), i < j ∧ l[i]? = some b ∧ l[j]? = some c ∧ ¬ R b c := by
  rw [List.pairwise_iff_getElem] at h
  push Not at h
  obtain ⟨i, j, hi, hj, hij, hR⟩ := h
  exact ⟨i, j, _, _, hij, List.getElem?_eq_getElem hi, List.getElem?_eq_getElem hj, hR⟩

/-- Where there are two boxes with positive sizes, some pair is not brought apart by less than
the spread. -/
theorem exists_pair_spread {p : Placement α} (hgap : 0 ≤ p.nodeSpacing)
    (hsizes : ∀ s ∈ p.sizes, s.Positive) {centers : List (Point α)}
    (hcount : centers.length = p.count) (htwo : 2 ≤ p.count) :
    ∃ e ∈ pairs ((separate centers).zip p.sizes), ∀ k, Brings p.nodeSpacing k e.1 e.2 →
      spread p.nodeSpacing ((separate centers).zip p.sizes) ≤ k := by
  have hfactors := exists_factor_separate centers p
  have hlength : ((separate centers).zip p.sizes).length = p.count := by
    rw [List.length_zip, length_separate, hcount, Placement.count, Nat.min_self]
  have hneeded : ∀ e ∈ pairs ((separate centers).zip p.sizes),
      ¬ Brings p.nodeSpacing 0 e.1 e.2 := by
    refine forall_pairs_iff (R := fun a b => ¬ Brings p.nodeSpacing 0 a b) |>.mpr
      (List.pairwise_of_forall_mem_list fun a ha b hb => ?_)
    exact not_brings_zero hgap (hsizes _ (List.of_mem_zip ha).2) (hsizes _ (List.of_mem_zip hb).2)
  generalize (separate centers).zip p.sizes = boxes at hfactors hlength hneeded ⊢
  have hfound : ∀ e ∈ pairs boxes, ∃ f, pairFactor? p.nodeSpacing e.1 e.2 = some f :=
    fun e he => (hfactors e he).imp fun _ hf => hf.1
  obtain ⟨l, hspread, hall, hreached⟩ := exists_largest hfound
  have hpos : 0 < l := by
    obtain ⟨a, b, rest, rfl⟩ : ∃ a b rest, boxes = a :: b :: rest := by
      rcases boxes with _ | ⟨a, _ | ⟨b, rest⟩⟩
      · rw [List.length_nil] at hlength
        omega
      · rw [List.length_singleton] at hlength
        omega
      · exact ⟨a, b, rest, rfl⟩
    have hfirst : (a, b) ∈ pairs (a :: b :: rest) := by simp [pairs]
    obtain ⟨f, hf, hbrings, -⟩ := hfactors _ hfirst
    have hf0 : 0 < f := not_le.mp fun hle => hneeded _ hfirst (hbrings 0 hle)
    exact hf0.trans_le (hall _ hfirst f hf)
  rw [hspread, if_pos hpos]
  obtain ⟨e, he, hl⟩ := hreached.resolve_left hpos.ne'
  obtain ⟨f, hf, -, hleast⟩ := hfactors e he
  obtain rfl := Option.some.inj (hf.symm.trans hl)
  exact ⟨e, he, fun k hk => (hleast k hk).resolve_right (hneeded e he)⟩

theorem boxes_placeAround (centers : List (Point α)) (p : Placement α) :
    ∃ offset : Point α, p.boxes (placeAround centers p) =
      (boxesAt p (separate centers)
        (spread p.nodeSpacing ((separate centers).zip p.sizes))).map (·.shift offset) := by
  rw [← boxes_cornersOf_scaled]
  exact Placement.exists_boxes_normalize p _

/-- Wherever centres are left, they move aside until they can be told apart, and are then spread
as far as their boxes need it. -/
theorem centres_are_spread_no_further_than_needed {p : Placement α} (hgap : 0 ≤ p.nodeSpacing)
    (hsizes : ∀ s ∈ p.sizes, s.Positive) {centers : List (Point α)}
    (hcount : centers.length = p.count) :
    IsMovedAside centers (separate centers) ∧
      IsSpread p (separate centers) (spread p.nodeSpacing ((separate centers).zip p.sizes))
        (placeAround centers p) := by
  refine ⟨isMovedAside_separate centers, ?_⟩
  constructor
  case count => exact (isFilledBy_placeAround hcount).count
  case apart => exact pairwise_boxesAt_spread centers p
  case smallest =>
    intro htwo less hless hlt
    apply exists_of_not_pairwise
    rw [boxesAt, List.pairwise_map, ← forall_pairs_iff]
    intro hapart
    obtain ⟨e, he, hleast⟩ := exists_pair_spread hgap hsizes hcount htwo
    exact absurd (hleast less ((apartBy_boxAround hless).mp (hapart e he))) (not_le.mpr hlt)
  case shown => exact boxes_placeAround centers p

/-- Three boxes of other sizes. -/
def threeBoxes : Placement ℚ where
  sizes := [⟨20, 10⟩, ⟨30, 40⟩, ⟨6, 8⟩]
  edges := []
  flow := .down
  nodeSpacing := 5
  layerSpacing := 0
  iterations := 0

/-- The second centre is near the first one, and when it has moved on, it is near the third. -/
def nearCenters : List (Point ℚ) := [⟨0, 0⟩, ⟨1 / 2000, 0⟩, ⟨1, 1 / 3000⟩]

theorem near_centres_are_spread :
    (0 ≤ threeBoxes.nodeSpacing ∧ (∀ s ∈ threeBoxes.sizes, s.Positive) ∧
        nearCenters.length = threeBoxes.count) ∧
      (separate nearCenters).map (fun c => (c.x, c.y)) =
        [(0, 0), (2001 / 2000, 0), (2, 1 / 3000)] ∧
      spread 5 ((separate nearCenters).zip threeBoxes.sizes) = 20000 / 667 ∧
      IsMovedAside nearCenters (separate nearCenters) ∧
      IsSpread threeBoxes (separate nearCenters)
        (spread 5 ((separate nearCenters).zip threeBoxes.sizes))
        (placeAround nearCenters threeBoxes) := by
  have hsizes : ∀ s ∈ threeBoxes.sizes, s.Positive := by
    intro s hs
    simp only [threeBoxes, List.mem_cons, List.not_mem_nil, or_false] at hs
    rcases hs with rfl | rfl | rfl <;> constructor <;> decide +kernel
  have hgap : 0 ≤ threeBoxes.nodeSpacing := by decide +kernel
  have hcount : nearCenters.length = threeBoxes.count := by decide
  exact ⟨⟨hgap, hsizes, hcount⟩, by decide +kernel, by decide +kernel,
    centres_are_spread_no_further_than_needed hgap hsizes hcount⟩

end ForcePlacement

end DiagramPress
