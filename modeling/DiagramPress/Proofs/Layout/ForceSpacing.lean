-- Boxes around arbitrary centres are kept apart: the centres are moved aside until
-- no two coincide, and then spread until every pair of boxes has its gap.
import DiagramPress.Proofs.Layout.Spacing

namespace DiagramPress

namespace ForcePlacement

variable {α : Type}

/-! ## Moving aside -/

/-- Centres are told apart from this distance on. -/
def nearness [Scalar α] : α := Scalar.decimal 1 3

section

variable [ExactScalar α]

theorem nearness_pos : 0 < (nearness : α) := by
  unfold nearness Scalar.decimal
  rw [Scalar.ofNat_eq_cast, Scalar.ofNat_eq_cast]
  exact div_pos (Nat.cast_pos.mpr (by decide)) (Nat.cast_pos.mpr (by decide))

theorem two_nearness_lt_one : (nearness : α) + nearness < 1 := by
  have hpos : (0 : α) < ((Nat.pow 10 3 : Nat) : α) := Nat.cast_pos.mpr (by decide)
  unfold nearness Scalar.decimal
  rw [Scalar.ofNat_eq_cast, Scalar.ofNat_eq_cast, ← add_div, div_lt_one hpos, ← Nat.cast_add]
  exact Nat.cast_lt.mpr (by decide)

/-- On both axes the centres are closer than the distance from which on they are told apart. -/
def Near (a b : Point α) : Prop := |a.x - b.x| < nearness ∧ |a.y - b.y| < nearness

theorem coincide_iff {a b : Point α} : coincide a b = true ↔ Near a b := by
  rw [coincide, Bool.and_eq_true, decide_eq_true_eq, decide_eq_true_eq, Scalar.abs_eq_abs,
    Scalar.abs_eq_abs]
  exact Iff.rfl

theorem coincide_eq_false_iff {a b : Point α} : coincide a b = false ↔ ¬ Near a b := by
  rw [← coincide_iff, Bool.not_eq_true]

/-- The centres that a centre may still meet on its way to the right. -/
def ahead (others : List (Point α)) (c : Point α) : List (Point α) :=
  others.filter fun o => c.x - nearness < o.x

theorem mem_ahead_of_coincide {others : List (Point α)} {o c : Point α} (ho : o ∈ others)
    (h : coincide o c = true) : o ∈ ahead others c := by
  have hx := (abs_lt.mp (coincide_iff.mp h).1).1
  refine List.mem_filter.mpr ⟨ho, decide_eq_true ?_⟩
  linarith

/-- A centre that was in the way is left behind by one step. -/
theorem length_ahead_step {others : List (Point α)} {o c : Point α} (ho : o ∈ others)
    (h : coincide o c = true) :
    (ahead others ⟨c.x + Scalar.ofNat 1, c.y⟩).length < (ahead others c).length := by
  have hone : (Scalar.ofNat 1 : α) = 1 := Scalar.numeral_one
  have hnear := two_nearness_lt_one (α := α)
  have hpos := nearness_pos (α := α)
  have hbehind := (abs_lt.mp (coincide_iff.mp h).1).2
  have hfewer : ahead others ⟨c.x + Scalar.ofNat 1, c.y⟩ =
      (ahead others c).filter fun o => c.x + Scalar.ofNat 1 - nearness < o.x := by
    unfold ahead
    rw [List.filter_filter]
    refine List.filter_congr fun q _ => ?_
    rw [← Bool.decide_and, decide_eq_decide, hone]
    have hstep : c.x - nearness ≤ c.x + 1 - nearness :=
      sub_le_sub_right (le_add_of_nonneg_right zero_le_one) _
    exact ⟨fun hq => ⟨hq, hstep.trans_lt hq⟩, fun hq => hq.1⟩
  rw [hfewer, List.length_filter_lt_length_iff_exists]
  refine ⟨o, mem_ahead_of_coincide ho h, ?_⟩
  rw [decide_eq_true_eq, hone]
  linarith

/-- A centre moves to the right, step by step for as long as it is near one of the others. -/
inductive MovesAside (others : List (Point α)) : Point α → Point α → Prop
  | rest {c : Point α} (h : ∀ o ∈ others, ¬ Near o c) : MovesAside others c c
  | step {c c' o : Point α} (ho : o ∈ others) (h : Near o c)
    (hon : MovesAside others ⟨c.x + 1, c.y⟩ c') : MovesAside others c c'

theorem MovesAside.clear {others : List (Point α)} {c c' : Point α} (h : MovesAside others c c') :
    ∀ o ∈ others, ¬ Near o c' := by
  induction h with
  | rest h => exact h
  | step _ _ _ ih => exact ih

/-- With one step for each centre that it may meet, a centre comes to rest. -/
theorem movesAside_moveAside {others : List (Point α)} {fuel : Nat} {c : Point α}
    (h : (ahead others c).length ≤ fuel) : MovesAside others c (moveAside others fuel c) := by
  induction fuel generalizing c with
  | zero =>
    refine .rest fun o ho hnear => ?_
    have hmem := mem_ahead_of_coincide ho (coincide_iff.mpr hnear)
    rw [List.eq_nil_of_length_eq_zero (Nat.le_zero.mp h)] at hmem
    exact absurd hmem List.not_mem_nil
  | succ fuel ih =>
    unfold moveAside
    rw [Scalar.numeral_one]
    by_cases hany : (others.any fun o => coincide o c) = true
    · rw [if_pos hany]
      obtain ⟨o, ho, hcoincide⟩ := List.any_eq_true.mp hany
      have hfewer := length_ahead_step ho hcoincide
      have hone : (Scalar.ofNat 1 : α) = 1 := Scalar.numeral_one
      rw [hone] at hfewer
      exact .step ho (coincide_iff.mp hcoincide) (ih (Nat.le_of_lt_succ (hfewer.trans_le h)))
    · rw [if_neg hany]
      exact .rest fun o ho hnear =>
        hany (List.any_eq_true.mpr ⟨o, ho, coincide_iff.mpr hnear⟩)

/-- Every centre has moved aside from those before it, which have come to rest already, and in
the end no two of them are near each other. -/
structure IsMovedAside (centers moved : List (Point α)) : Prop where
  count : moved.length = centers.length
  rests : ∀ i c c', centers[i]? = some c → moved[i]? = some c' → MovesAside (moved.take i) c c'
  apart : moved.Pairwise fun a b => ¬ Near a b

/-- Centres that follow others move aside from these and from each other. -/
theorem exists_moved (centers placed : List (Point α)) :
    ∃ moved, centers.foldl (fun placed c => placed ++ [moveAside placed placed.length c]) placed =
        placed ++ moved ∧
      ∀ i c c', centers[i]? = some c → moved[i]? = some c' →
        MovesAside (placed ++ moved.take i) c c' := by
  induction centers generalizing placed with
  | nil => exact ⟨[], by simp, by simp⟩
  | cons c centers ih =>
    obtain ⟨moved, hfold, hrests⟩ := ih (placed ++ [moveAside placed placed.length c])
    refine ⟨moveAside placed placed.length c :: moved, ?_, fun i d d' hd hd' => ?_⟩
    · rw [List.foldl_cons, hfold, List.append_assoc, List.singleton_append]
    · cases i with
      | zero =>
        obtain rfl := Option.some.inj hd
        obtain rfl := Option.some.inj hd'
        rw [List.take_zero, List.append_nil]
        exact movesAside_moveAside (List.length_filter_le _ _)
      | succ i =>
        have hnext := hrests i d d' hd hd'
        rwa [List.append_assoc, List.singleton_append] at hnext

theorem isMovedAside_separate (centers : List (Point α)) :
    IsMovedAside centers (separate centers) := by
  obtain ⟨moved, hfold, hrests⟩ := exists_moved centers []
  have hmoved : separate centers = moved := hfold.trans (List.nil_append moved)
  have hcount : moved.length = centers.length := by rw [← hmoved, length_separate]
  rw [hmoved]
  refine ⟨hcount, hrests, List.pairwise_iff_getElem.mpr fun i j hi hj hij => ?_⟩
  -- The later one came to rest where it was near none of those before it.
  have hrest := hrests j _ _ (List.getElem?_eq_getElem (hcount ▸ hj)) (List.getElem?_eq_getElem hj)
  exact hrest.clear _ (List.mem_take_iff_getElem.mpr ⟨i, lt_min hij hi, rfl⟩)

/-! ## Spreading -/

theorem forall_pairs_iff {β : Type} {R : β → β → Prop} {l : List β} :
    (∀ e ∈ pairs l, R e.1 e.2) ↔ l.Pairwise R := by
  induction l with
  | nil => simp [pairs]
  | cons b l ih =>
    rw [pairs, List.forall_mem_append, List.forall_mem_map, List.pairwise_cons, ih]

/-- The factor brings the boxes of a pair apart, on one axis. -/
def Brings (gap k : α) (a b : Point α × Size α) : Prop :=
  a.2.width / Scalar.ofNat 2 + b.2.width / Scalar.ofNat 2 + gap ≤ k * |a.1.x - b.1.x| ∨
    a.2.height / Scalar.ofNat 2 + b.2.height / Scalar.ofNat 2 + gap ≤ k * |a.1.y - b.1.y|

theorem factor?_of_pos {distance needed : α} (h : 0 < distance) :
    factor? distance needed = some (needed / distance) := by
  unfold factor?
  rw [Scalar.numeral_zero, if_pos h]

theorem factor?_eq_none {distance needed : α} (h : ¬ 0 < distance) :
    factor? distance needed = none := by
  unfold factor?
  rw [Scalar.numeral_zero, if_neg h]

/-- Centres that do not coincide have a factor from which on their boxes are apart. Below it
they are not, unless they need no distance at all. -/
theorem exists_pairFactor (gap : α) {a b : Point α × Size α} (h : coincide a.1 b.1 = false) :
    ∃ f, pairFactor? gap a b = some f ∧ (∀ k, f ≤ k → Brings gap k a b) ∧
      ∀ k, Brings gap k a b → f ≤ k ∨ Brings gap 0 a b := by
  have hacross (hx : 0 < |a.1.x - b.1.x|) (k : α) :
      ((a.2.width + b.2.width) / Scalar.ofNat 2 + gap) / |a.1.x - b.1.x| ≤ k ↔
        a.2.width / Scalar.ofNat 2 + b.2.width / Scalar.ofNat 2 + gap ≤ k * |a.1.x - b.1.x| := by
    rw [div_le_iff₀ hx, add_div]
  have halong (hy : 0 < |a.1.y - b.1.y|) (k : α) :
      ((a.2.height + b.2.height) / Scalar.ofNat 2 + gap) / |a.1.y - b.1.y| ≤ k ↔
        a.2.height / Scalar.ofNat 2 + b.2.height / Scalar.ofNat 2 + gap ≤ k * |a.1.y - b.1.y| := by
    rw [div_le_iff₀ hy, add_div]
  have hzero {needed distance k : α} (hd : ¬ 0 < |distance|) (h : needed ≤ k * |distance|) :
      needed ≤ 0 * |distance| := by
    rw [le_antisymm (not_lt.mp hd) (abs_nonneg distance), mul_zero] at h ⊢
    exact h
  have hkept (f : α) : (some f).filter (fun f => !Scalar.isNaN f) = some f := by
    simp [Scalar.isNaN_eq_false]
  unfold pairFactor?
  dsimp only
  rw [Scalar.abs_eq_abs, Scalar.abs_eq_abs]
  by_cases hx : 0 < |a.1.x - b.1.x|
  · rw [factor?_of_pos hx]
    by_cases hy : 0 < |a.1.y - b.1.y|
    · rw [factor?_of_pos hy]
      have hbrings (k : α) := min_le_iff.trans (or_congr (hacross hx k) (halong hy k))
      refine ⟨_, rfl, fun k hk => ?_, fun k hk => .inl ?_⟩
      · rw [Scalar.least_eq_min] at hk
        exact (hbrings k).mp hk
      · rw [Scalar.least_eq_min]
        exact (hbrings k).mpr hk
    · rw [factor?_eq_none hy]
      refine ⟨_, hkept _, fun k hk => .inl ((hacross hx k).mp hk), fun k hk => ?_⟩
      exact hk.imp (hacross hx k).mpr fun hk => .inr (hzero hy hk)
  · rw [factor?_eq_none hx]
    have hy : 0 < |a.1.y - b.1.y| := by
      by_contra hy
      have hnear : coincide a.1 b.1 = true :=
        coincide_iff.mpr
          ⟨(not_lt.mp hx).trans_lt nearness_pos, (not_lt.mp hy).trans_lt nearness_pos⟩
      rw [h] at hnear
      cases hnear
    rw [factor?_of_pos hy]
    refine ⟨_, hkept _, fun k hk => .inr ((halong hy k).mp hk), fun k hk => ?_⟩
    exact hk.symm.imp (halong hy k).mpr fun hk => .inl (hzero hx hk)

/-- The larger of two factors, if both are there. -/
def larger : Option α → Option α → Option α
  | some l, some f => some (Scalar.greatest l f)
  | _, _ => none

theorem foldl_larger {β : Type} {factor? : β → Option α} {es : List β}
    (h : ∀ e ∈ es, ∃ f, factor? e = some f) (start : α) :
    ∃ l, (es.map factor?).foldl larger (some start) = some l ∧ start ≤ l ∧
      (∀ e ∈ es, ∀ f, factor? e = some f → f ≤ l) ∧
      (l = start ∨ ∃ e ∈ es, factor? e = some l) := by
  induction es generalizing start with
  | nil => exact ⟨start, rfl, le_rfl, fun e he => absurd he List.not_mem_nil, .inl rfl⟩
  | cons e es ih =>
    obtain ⟨f, hf⟩ := h e List.mem_cons_self
    obtain ⟨l, hl, hstart, hall, hreached⟩ :=
      ih (fun e he => h e (List.mem_cons_of_mem _ he)) (Scalar.greatest start f)
    rw [Scalar.greatest_eq_max] at hstart hreached
    refine ⟨l, ?_, (le_max_left _ _).trans hstart, fun e' he' f' hf' => ?_, ?_⟩
    · rw [List.map_cons, List.foldl_cons, hf]
      exact hl
    · rcases List.mem_cons.mp he' with rfl | he'
      · obtain rfl := Option.some.inj (hf.symm.trans hf')
        exact (le_max_right _ _).trans hstart
      · exact hall e' he' f' hf'
    · rcases hreached with rfl | ⟨e', he', hl'⟩
      · rcases max_choice start f with hmax | hmax
        · exact .inl hmax
        · exact .inr ⟨e, List.mem_cons_self, by rw [hmax, hf]⟩
      · exact .inr ⟨e', List.mem_cons_of_mem _ he', hl'⟩

/-- Where every pair has a factor, the spread is the largest of them, if that is above zero. -/
theorem exists_largest {gap : α} {boxes : List (Point α × Size α)}
    (h : ∀ e ∈ pairs boxes, ∃ f, pairFactor? gap e.1 e.2 = some f) :
    ∃ l, spread gap boxes = (if 0 < l then l else 1) ∧
      (∀ e ∈ pairs boxes, ∀ f, pairFactor? gap e.1 e.2 = some f → f ≤ l) ∧
      (l = 0 ∨ ∃ e ∈ pairs boxes, pairFactor? gap e.1 e.2 = some l) := by
  obtain ⟨l, hl, -, hall, hreached⟩ := foldl_larger h (Scalar.ofNat 0)
  rw [Scalar.ofNat_zero] at hreached
  refine ⟨l, ?_, hall, hreached⟩
  have hspread : spread gap boxes =
      if Scalar.isFinite l && decide (Scalar.ofNat 0 < l) then l else Scalar.ofNat 1 := by
    unfold spread
    dsimp only
    split
    · rename_i l' hl'
      obtain rfl : l = l' := Option.some.inj (hl.symm.trans hl')
      rfl
    · rename_i hnone
      cases hl.symm.trans hnone
  have hone : (Scalar.ofNat 1 : α) = 1 := Scalar.numeral_one
  rw [hspread, Scalar.isFinite_eq_true, hone, Scalar.ofNat_zero]
  simp only [Bool.true_and, decide_eq_true_eq]

/-- The spread is above zero, and no smaller than the factor of any pair if every pair has one. -/
theorem le_spread {gap : α} {boxes : List (Point α × Size α)}
    (h : ∀ e ∈ pairs boxes, ∃ f, pairFactor? gap e.1 e.2 = some f) :
    0 < spread gap boxes ∧
      ∀ e ∈ pairs boxes, ∀ f, pairFactor? gap e.1 e.2 = some f → f ≤ spread gap boxes := by
  obtain ⟨l, hspread, hall, -⟩ := exists_largest h
  rw [hspread]
  by_cases hpos : 0 < l
  · rw [if_pos hpos]
    exact ⟨hpos, hall⟩
  · rw [if_neg hpos]
    exact ⟨zero_lt_one, fun e he f hf => (hall e he f hf).trans ((not_lt.mp hpos).trans zero_le_one)⟩

end

/-! ## Boxes around spread centres -/

/-- The box around a centre after all centres are moved away from the origin. -/
def boxAround [Scalar α] (k : α) (b : Point α × Size α) : Bounds α :=
  Bounds.around ⟨b.1.x * k, b.1.y * k⟩ b.2

/-- The boxes around all centres after these are moved away from the origin. -/
def boxesAt [Scalar α] (p : Placement α) (centers : List (Point α)) (k : α) : List (Bounds α) :=
  (centers.zip p.sizes).map (boxAround k)

section

variable [ExactScalar α]

theorem apartBy_boxAround {gap k : α} (hk : 0 ≤ k) {a b : Point α × Size α} :
    (boxAround k a).ApartBy gap (boxAround k b) ↔ Brings gap k a b := by
  rw [boxAround, boxAround, Bounds.apartBy_around, ← sub_mul, ← sub_mul, abs_mul, abs_mul,
    abs_of_nonneg hk, mul_comm _ k, mul_comm _ k, Brings]

theorem boxes_cornersOf_scaled (p : Placement α) (centers : List (Point α)) (k : α) :
    p.boxes (Placement.cornersOf (centers.map fun c => ⟨c.x * k, c.y * k⟩) p.sizes) =
      boxesAt p centers k := by
  rw [Placement.boxes_cornersOf, List.zipWith_map_left, boxesAt, List.zip, List.map_zipWith]
  rfl

/-- Any two of the separated centres have a factor from which on their boxes are apart. -/
theorem exists_factor_separate (centers : List (Point α)) (p : Placement α) :
    ∀ e ∈ pairs ((separate centers).zip p.sizes), ∃ f,
      pairFactor? p.nodeSpacing e.1 e.2 = some f ∧
        (∀ k, f ≤ k → Brings p.nodeSpacing k e.1 e.2) ∧
          ∀ k, Brings p.nodeSpacing k e.1 e.2 → f ≤ k ∨ Brings p.nodeSpacing 0 e.1 e.2 := by
  have hseparate :
      ((separate centers).zip p.sizes).Pairwise fun a b => coincide a.1 b.1 = false := by
    have hpairs := List.pairwise_iff_getElem.mp (isMovedAside_separate centers).apart
    refine List.pairwise_iff_getElem.mpr fun i j hi hj hij => ?_
    rw [List.getElem_zip, List.getElem_zip]
    exact coincide_eq_false_iff.mpr (hpairs i j _ _ hij)
  exact fun e he => exists_pairFactor p.nodeSpacing (forall_pairs_iff.mpr hseparate e he)

/-- Whatever the centres are, the boxes around them end up apart by the spacing. -/
theorem pairwise_boxesAt_spread (centers : List (Point α)) (p : Placement α) :
    (boxesAt p (separate centers)
      (spread p.nodeSpacing ((separate centers).zip p.sizes))).Pairwise
        (Bounds.ApartBy p.nodeSpacing) := by
  have hfactors := exists_factor_separate centers p
  obtain ⟨hpos, hle⟩ := le_spread fun e he => (hfactors e he).imp fun _ hf => hf.1
  rw [boxesAt, List.pairwise_map]
  refine forall_pairs_iff.mp fun e he => ?_
  obtain ⟨f, hf, hbrings, -⟩ := hfactors e he
  exact (apartBy_boxAround hpos.le).mpr (hbrings _ (hle e he f hf))

theorem isSpacedBy_placeAround (centers : List (Point α)) (p : Placement α) :
    p.IsSpacedBy p.nodeSpacing (placeAround centers p) := by
  refine Placement.IsSpacedBy.normalize ?_
  rw [Placement.IsSpacedBy, boxes_cornersOf_scaled]
  exact pairwise_boxesAt_spread centers p

theorem isFilledBy_placeAround {centers : List (Point α)} {p : Placement α}
    (h : centers.length = p.count) : p.IsFilledBy (placeAround centers p) := by
  refine Placement.isFilledBy_normalize (Placement.length_cornersOf ?_)
  rw [List.length_map, length_separate, h]

end

end ForcePlacement

end DiagramPress
