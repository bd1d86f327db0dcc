-- Connections without circles. They all follow one order of the children, so none leads
-- back; and an edge is turned exactly if a circle leads to its start, without any child
-- that comes before its end.
import Mathlib.Data.Fintype.Pigeonhole
import Mathlib.Logic.Relation
import DiagramPress.Proofs.Layout.Acyclic

namespace DiagramPress.Acyclic

/-! ## Circles -/

/-- Some child is reached again along the edges that lead on from it. -/
def HasCircle (edges : List (Nat × Nat)) : Prop :=
  ∃ v, Relation.TransGen (fun a b => (a, b) ∈ edges) v v

/-- Edges that all lead to a higher rank come back to nobody. -/
theorem not_transGen_of_rank {r : Nat → Nat → Prop} (rank : Nat → Nat)
    (h : ∀ a b, r a b → rank a < rank b) (v : Nat) : ¬ Relation.TransGen r v v := by
  have hup : ∀ {a b : Nat}, Relation.TransGen r a b → rank a < rank b := by
    intro a b hab
    induction hab with
    | single hab => exact h _ _ hab
    | tail _ hbc ih => exact ih.trans (h _ _ hbc)
  exact fun hv => Nat.lt_irrefl _ (hup hv)

theorem not_hasCircle_of_rank {edges : List (Nat × Nat)} (rank : Nat → Nat)
    (h : ∀ e ∈ edges, rank e.1 < rank e.2) : ¬ HasCircle edges :=
  fun ⟨v, hv⟩ => not_transGen_of_rank rank (fun a b hab => h (a, b) hab) v hv

/-- Where each of finitely many has another one of them in front, a circle leads to each. -/
theorem exists_circle {r : Nat → Nat → Prop} (inside : Nat → Prop) {count : Nat}
    (hbelow : ∀ x, inside x → x < count) (hfront : ∀ x, inside x → ∃ y, inside y ∧ r y x)
    {x : Nat} (hx : inside x) : ∃ c, Relation.TransGen r c c ∧ Relation.ReflTransGen r c x := by
  choose! front hinside hedge using hfront
  have hall (n : Nat) : inside (front^[n] x) := by
    induction n with
    | zero => exact hx
    | succ n ih =>
      rw [Function.iterate_succ_apply']
      exact hinside _ ih
  have hback (m n : Nat) : Relation.ReflTransGen r (front^[m + n] x) (front^[m] x) := by
    induction n with
    | zero => exact .refl
    | succ n ih =>
      rw [← Nat.add_assoc, Function.iterate_succ_apply']
      exact ih.head (hedge _ (hall _))
  -- Going back, some child is met twice.
  obtain ⟨m, n, hlt, heq⟩ : ∃ m n, m < n ∧ front^[m] x = front^[n] x := by
    obtain ⟨m, n, hne, heq⟩ := Finite.exists_ne_map_eq_of_infinite fun n : Nat =>
      (⟨front^[n] x, hbelow _ (hall n)⟩ : Fin count)
    have hsame := congrArg Fin.val heq
    rcases Nat.lt_or_gt_of_ne hne with hlt | hlt
    · exact ⟨m, n, hlt, hsame⟩
    · exact ⟨n, m, hlt, hsame.symm⟩
  refine ⟨front^[m] x, ?_, by simpa using hback 0 m⟩
  have hround := hback m (n - m - 1)
  have hlast := hedge (front^[n - 1] x) (hall _)
  rw [show m + (n - m - 1) = n - 1 by omega] at hround
  rw [← Function.iterate_succ_apply' front, show (n - 1).succ = n by omega, ← heq] at hlast
  exact Relation.TransGen.head' hlast hround

/-- An edge between children that both stand at `b` or later. -/
def EdgeFrom (edges : List (Nat × Nat)) (b x y : Nat) : Prop := (x, y) ∈ edges ∧ b ≤ x ∧ b ≤ y

/-- A circle leads to the child, without any child before `b`. -/
def HeldUp (edges : List (Nat × Nat)) (b a : Nat) : Prop :=
  ∃ c, Relation.TransGen (EdgeFrom edges b) c c ∧ Relation.ReflTransGen (EdgeFrom edges b) c a

theorem HeldUp.exists_edge {edges : List (Nat × Nat)} {b a : Nat} (h : HeldUp edges b a) :
    b ≤ a ∧ ∃ x, HeldUp edges b x ∧ (x, a) ∈ edges := by
  obtain ⟨c, hcircle, hway⟩ := h
  obtain ⟨x, hx, hedge⟩ := Relation.TransGen.tail'_iff.mp (hcircle.trans_left hway)
  exact ⟨hedge.2.2, x, ⟨c, hcircle, hx⟩, hedge.1⟩

theorem HeldUp.hasCircle {edges : List (Nat × Nat)} {b a : Nat} (h : HeldUp edges b a) :
    HasCircle edges := by
  obtain ⟨c, hcircle, -⟩ := h
  exact ⟨c, hcircle.mono (fun _ _ hedge => hedge.1) c c⟩

/-! ## Who comes first -/

theorem idxOf_lt_iff {before after : List Nat} {v w : Nat} (hv : v ∉ before) :
    (before ++ v :: after).idxOf w < (before ++ v :: after).idxOf v ↔ w ∈ before := by
  rw [List.idxOf_append, List.idxOf_append, if_neg hv, List.idxOf_cons_self, Nat.zero_add]
  by_cases hw : w ∈ before
  · simp [hw, List.idxOf_lt_length_iff]
  · simp [hw]

/-- Nobody who is held up, `b` apart, comes to its turn before `b` has a place. -/
theorem InTurn.mem_of_heldUp {count : Nat} {edges : List (Nat × Nat)} {order : List Nat}
    (h : InTurn count edges order) {b : Nat} (hb : b < count) {x : Nat} (hx : x ∈ order)
    (hheld : HeldUp edges b x) : b ∈ order := by
  induction h generalizing x with
  | nil => exact absurd hx List.not_mem_nil
  | @snoc before v _ _ _ hturn ih =>
    rw [List.mem_append]
    rcases List.mem_append.mp hx with hx | hx
    · exact .inl (ih hx hheld)
    · obtain rfl := List.mem_singleton.mp hx
      obtain ⟨hle, y, hy, hedge⟩ := hheld.exists_edge
      cases hturn with
      | ready hready => exact .inl (ih (hready y hedge) hy)
      | forced hforced =>
        by_cases hplaced : b ∈ before
        · exact .inl hplaced
        · have hge := (hforced b hb hplaced).1
          exact .inr (List.mem_singleton.mpr (Nat.le_antisymm hle hge))

section

variable {count : Nat} {edges : List (Nat × Nat)} {a b : Nat}

/-- The end of an edge comes before its start exactly if the start is held up. -/
theorem end_first_iff (h : (a, b) ∈ SpanningForest.usable count edges) :
    (order count edges).idxOf b < (order count edges).idxOf a ↔
      HeldUp (SpanningForest.usable count edges) b a := by
  obtain ⟨-, hne, ha, hb⟩ := SpanningForest.mem_usable.mp h
  obtain ⟨hturn, -⟩ := sorted_spec count edges
  have hmem {v : Nat} (hv : v < count) : v ∈ order count edges :=
    (perm_order count edges).mem_iff.mpr (List.mem_range.mpr hv)
  constructor
  · intro hlt
    obtain ⟨before, after, hsplit⟩ := List.append_of_mem (hmem hb)
    rw [hsplit] at hturn hlt
    obtain ⟨-, hnew, hturn⟩ := hturn.split
    have hlater : a ∉ before := by
      intro hmem
      exact Nat.lt_asymm hlt ((idxOf_lt_iff hnew).mpr hmem)
    cases hturn with
    | ready hready => exact absurd (hready a h) hlater
    | forced hforced =>
      refine exists_circle (fun x => x < count ∧ x ∉ before) (fun x hx => hx.1)
        (fun x hx => ?_) ⟨ha, hlater⟩
      obtain ⟨hle, y, hy, hedge⟩ := hforced x hx.1 hx.2
      obtain ⟨-, -, hycount, -⟩ := SpanningForest.mem_usable.mp hedge
      exact ⟨y, ⟨hycount, hy⟩, hedge, (hforced y hycount hy).1, hle⟩
  · intro hheld
    obtain ⟨before, after, hsplit⟩ := List.append_of_mem (hmem ha)
    rw [hsplit] at hturn ⊢
    obtain ⟨hbefore, hnew, hturn⟩ := hturn.split
    rw [idxOf_lt_iff hnew]
    have hwhole := (hbefore.snoc ha hnew hturn).mem_of_heldUp hb (by simp) hheld
    rcases List.mem_append.mp hwhole with hmem | hmem
    · exact hmem
    · exact absurd (List.mem_singleton.mp hmem).symm hne

theorem idxOf_ne (h : (a, b) ∈ SpanningForest.usable count edges) :
    (order count edges).idxOf a ≠ (order count edges).idxOf b := by
  obtain ⟨-, hne, ha, -⟩ := SpanningForest.mem_usable.mp h
  have hmem := (perm_order count edges).mem_iff.mpr (List.mem_range.mpr ha)
  exact fun heq => hne ((List.idxOf_inj hmem).mp heq)

/-- The edges that are kept are the usable ones, turned so that they follow the order. -/
theorem mem_edges : (a, b) ∈ Acyclic.edges count edges ↔
    ((a, b) ∈ SpanningForest.usable count edges ∨ (b, a) ∈ SpanningForest.usable count edges) ∧
      (order count edges).idxOf a < (order count edges).idxOf b := by
  unfold Acyclic.edges
  rw [mem_once, List.mem_map]
  constructor
  · rintro ⟨⟨⟨x, y⟩, he, horiented⟩, -⟩
    unfold oriented at horiented
    split at horiented
    · rename_i hlt
      obtain ⟨rfl, rfl⟩ := Prod.mk.inj horiented
      exact ⟨.inl he, hlt⟩
    · rename_i hle
      obtain ⟨rfl, rfl⟩ := Prod.mk.inj horiented
      have hne := idxOf_ne he
      exact ⟨.inr he, Nat.lt_of_le_of_ne (Nat.le_of_not_lt hle) hne.symm⟩
  · rintro ⟨he, hlt⟩
    refine ⟨?_, List.not_mem_nil⟩
    rcases he with he | he
    · exact ⟨(a, b), he, if_pos hlt⟩
    · exact ⟨(b, a), he, if_neg (Nat.not_lt.mpr hlt.le)⟩

theorem mem_edges_of_usable (h : (a, b) ∈ SpanningForest.usable count edges) :
    ((a, b) ∈ Acyclic.edges count edges ↔
      ¬ HeldUp (SpanningForest.usable count edges) b a) ∧
    ((b, a) ∈ Acyclic.edges count edges ↔ HeldUp (SpanningForest.usable count edges) b a) := by
  have hne := idxOf_ne h
  rw [← end_first_iff h, mem_edges, mem_edges]
  constructor
  · rw [Nat.not_lt]
    exact ⟨fun hkept => hkept.2.le, fun hle => ⟨.inl h, Nat.lt_of_le_of_ne hle hne⟩⟩
  · exact ⟨fun hturned => hturned.2, fun hlt => ⟨.inr h, hlt⟩⟩

end

/-- Without circles, no edge is turned. -/
theorem edges_of_not_hasCircle {count : Nat} {edges : List (Nat × Nat)}
    (h : ¬ HasCircle (SpanningForest.usable count edges)) :
    Acyclic.edges count edges = (SpanningForest.usable count edges).eraseDups := by
  have hkept : ∀ e ∈ SpanningForest.usable count edges, oriented (order count edges) e = e := by
    intro e he
    have hne := idxOf_ne he
    have hfirst := mt (end_first_iff he).mp fun hheld => h hheld.hasCircle
    exact if_pos (Nat.lt_of_le_of_ne (Nat.le_of_not_lt hfirst) hne)
  unfold Acyclic.edges
  rw [List.map_congr_left hkept, List.map_id', once_eq]
  simp

/-! ## Broken circles -/

/-- The sorting ends with a place for every child. The edges that are kept run in no circle and
join each pair once that some usable edge joins, in one direction. Where no circle was to break,
they are the usable edges as they are, each where it stands first. -/
theorem circles_are_broken (count : Nat) (edges : List (Nat × Nat)) :
    (sorted count edges).step count (SpanningForest.usable count edges) = none ∧
    (order count edges).Perm (List.range count) ∧
    ¬ HasCircle (Acyclic.edges count edges) ∧
    ((Acyclic.edges count edges).Pairwise fun e e' => e' ≠ e ∧ e' ≠ e.swap) ∧
    (∀ a b, (a, b) ∈ Acyclic.edges count edges ∨ (b, a) ∈ Acyclic.edges count edges ↔
      ((a, b) ∈ edges ∨ (b, a) ∈ edges) ∧ a ≠ b ∧ a < count ∧ b < count) ∧
    (∀ a b, (a, b) ∈ Acyclic.edges count edges → (b, a) ∉ Acyclic.edges count edges) ∧
    (¬ HasCircle (SpanningForest.usable count edges) →
      Acyclic.edges count edges = (SpanningForest.usable count edges).eraseDups) := by
  have halong : ∀ e ∈ Acyclic.edges count edges,
      (order count edges).idxOf e.1 < (order count edges).idxOf e.2 :=
    fun e he => (mem_edges.mp he).2
  have hone : ∀ a b, (a, b) ∈ Acyclic.edges count edges → (b, a) ∉ Acyclic.edges count edges :=
    fun a b hab hba => Nat.lt_asymm (halong _ hab) (halong _ hba)
  refine ⟨(sorted_spec count edges).2, perm_order count edges,
    not_hasCircle_of_rank (order count edges).idxOf halong, ?_,
    fun a b => ?_, hone, edges_of_not_hasCircle⟩
  · have honce : (Acyclic.edges count edges).Nodup := nodup_once _ _
    refine honce.imp_of_mem fun {e e'} he he' hne => ⟨hne.symm, ?_⟩
    rintro rfl
    exact hone e.1 e.2 he he'
  · have husable {a b : Nat} (h : (a, b) ∈ Acyclic.edges count edges) :
        ((a, b) ∈ edges ∨ (b, a) ∈ edges) ∧ a ≠ b ∧ a < count ∧ b < count := by
      rcases (mem_edges.mp h).1 with h | h
      · obtain ⟨hmem, hne, ha, hb⟩ := SpanningForest.mem_usable.mp h
        exact ⟨.inl hmem, hne, ha, hb⟩
      · obtain ⟨hmem, hne, hb, ha⟩ := SpanningForest.mem_usable.mp h
        exact ⟨.inr hmem, hne.symm, ha, hb⟩
    have hkept {a b : Nat} (h : (a, b) ∈ SpanningForest.usable count edges) :
        (a, b) ∈ Acyclic.edges count edges ∨ (b, a) ∈ Acyclic.edges count edges := by
      obtain ⟨hsame, hturned⟩ := mem_edges_of_usable h
      rw [hsame, hturned]
      exact (Classical.em _).symm
    constructor
    · rintro (h | h)
      · exact husable h
      · obtain ⟨hmem, hne, hb, ha⟩ := husable h
        exact ⟨hmem.symm, hne.symm, ha, hb⟩
    · rintro ⟨hmem | hmem, hne, ha, hb⟩
      · exact hkept (SpanningForest.mem_usable.mpr ⟨hmem, hne, ha, hb⟩)
      · exact (hkept (SpanningForest.mem_usable.mpr ⟨hmem, hne.symm, hb, ha⟩)).symm

/-- Loops, repetitions and ends that do not exist are left out; the rest is not turned. -/
theorem edges_against_the_numbers_are_kept :
    let edges := [(2, 0), (0, 1), (2, 0), (1, 1), (2, 7), (2, 1)]
    (0, 1) ∈ Acyclic.edges 3 edges ∧ ¬ HasCircle (SpanningForest.usable 3 edges) ∧
      (1, 0) ∉ Acyclic.edges 3 edges ∧ Acyclic.edges 3 edges = [(2, 0), (0, 1), (2, 1)] := by
  intro edges
  have hmem : (0, 1) ∈ Acyclic.edges 3 edges := by decide +kernel
  have hcircle : ¬ HasCircle (SpanningForest.usable 3 edges) :=
    not_hasCircle_of_rank (fun v => [1, 2, 0].getD v 0) (by decide)
  obtain ⟨-, -, -, -, -, hone, hkept⟩ := circles_are_broken 3 edges
  exact ⟨hmem, hcircle, hone 0 1 hmem, (hkept hcircle).trans (by decide)⟩

/-! ## Edges that are turned -/

/-- An edge keeps its direction unless a circle leads to its start, without any child that comes
before its end; then it is turned. -/
theorem edges_are_turned_exactly_behind_circles {count : Nat} {edges : List (Nat × Nat)} {a b : Nat}
    (h : (a, b) ∈ edges) (hne : a ≠ b) (ha : a < count) (hb : b < count) :
    ((a, b) ∈ Acyclic.edges count edges ↔
      ¬ HeldUp (SpanningForest.usable count edges) b a) ∧
    ((b, a) ∈ Acyclic.edges count edges ↔ HeldUp (SpanningForest.usable count edges) b a) :=
  mem_edges_of_usable (SpanningForest.mem_usable.mpr ⟨h, hne, ha, hb⟩)

/-- The circle of 0 and 2 leads to the edge, but 0 comes before its end. -/
theorem an_edge_behind_an_earlier_circle_is_kept :
    let edges := [(0, 2), (2, 0), (2, 1)]
    ((2, 1) ∈ edges ∧ 2 ≠ 1 ∧ 2 < 3 ∧ 1 < 3) ∧ (2, 1) ∈ Acyclic.edges 3 edges := by
  intro edges
  have hedge : (2, 1) ∈ edges := by decide
  have hfree : ¬ HeldUp (SpanningForest.usable 3 edges) 1 2 := by
    rintro ⟨c, hcircle, -⟩
    refine not_transGen_of_rank (fun v => 2 - v) (fun x y hxy => ?_) c hcircle
    obtain ⟨hmem, hx, hy⟩ := hxy
    have hall : ∀ e ∈ SpanningForest.usable 3 edges, 1 ≤ e.1 → 1 ≤ e.2 → 2 - e.1 < 2 - e.2 := by
      decide
    exact hall (x, y) hmem hx hy
  exact ⟨⟨hedge, by decide, by decide, by decide⟩,
    (edges_are_turned_exactly_behind_circles hedge (by decide) (by decide) (by decide)).1.mpr
      hfree⟩

/-- The edge from 1 to 0 lies on no circle, as nothing leads back from 0. It is turned all the
same: 1 waits for 2 and 2 for 1, and of all who wait 0 is the first. -/
theorem an_edge_outside_all_circles_is_turned :
    let edges := [(1, 2), (2, 1), (1, 0)]
    ((1, 0) ∈ edges ∧ 1 < 3 ∧ 0 < 3 ∧ ¬ Relation.ReflTransGen (fun a b => (a, b) ∈ edges) 0 1) ∧
      (1, 0) ∉ Acyclic.edges 3 edges ∧ (0, 1) ∈ Acyclic.edges 3 edges := by
  intro edges
  refine ⟨⟨by decide, by decide, by decide, fun hback => ?_⟩, by decide +kernel,
    by decide +kernel⟩
  obtain h | ⟨x, hedge, -⟩ := hback.cases_head
  · exact absurd h (by decide)
  · have hnone : ∀ e ∈ edges, e.1 ≠ 0 := by decide
    exact hnone (0, x) hedge rfl

end DiagramPress.Acyclic
