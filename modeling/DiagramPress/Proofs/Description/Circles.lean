-- Circles of groups: the search finds one exactly when there is one, and the
-- group that it reports lies on it.
import DiagramPress.Proofs.Description.Depth
import Mathlib.Logic.Relation

namespace DiagramPress

/-! ## Who lies in whom -/

/-- Who lies directly in whom: every id with the id around it, if there is one. -/
abbrev Nesting := List (String × Option String)

namespace Nesting

/-- `inner` lies directly in `outer`. -/
def Inside (n : Nesting) (inner outer : String) : Prop := (inner, some outer) ∈ n

/-- The way outwards from `id` comes back to it. -/
def OnCircle (n : Nesting) (id : String) : Prop := Relation.TransGen n.Inside id id

/-- No way outwards comes back to where it has been. -/
def IsForest (n : Nesting) : Prop := ∀ id, ¬ n.OnCircle id

theorem OnCircle.exists_inside {n : Nesting} {id : String} (h : n.OnCircle id) :
    ∃ outer, n.Inside id outer := by
  obtain ⟨outer, hfirst, -⟩ := Relation.TransGen.head'_iff.mp h
  exact ⟨outer, hfirst⟩

/-- Where everything has a smaller rank than what lies in it, there are no circles. -/
theorem isForest_of_rank {n : Nesting} (rank : String → Nat)
    (h : ∀ inner outer, n.Inside inner outer → rank outer < rank inner) : n.IsForest := by
  have hway {inner outer : String} (hway : Relation.TransGen n.Inside inner outer) :
      rank outer < rank inner := by
    induction hway with
    | single hstep => exact h _ _ hstep
    | tail _ hstep ih => exact Nat.lt_trans (h _ _ hstep) ih
  exact fun id hcircle => Nat.lt_irrefl _ (hway hcircle)

end Nesting

namespace Description

variable {α : Type}

/-- Which group lies directly in which one. -/
def nestingOf (groups : List (Description.Group α)) : Nesting :=
  groups.map fun g => (g.id, g.parent)

section

variable {groups : List (Description.Group α)}

theorem mem_ids_of_onCircle {id : String} (h : (nestingOf groups).OnCircle id) :
    id ∈ groups.map (·.id) := by
  obtain ⟨outer, hfirst⟩ := h.exists_inside
  obtain ⟨g, hg, heq⟩ := List.mem_map.mp hfirst
  exact List.mem_map.mpr ⟨g, hg, congrArg Prod.fst heq⟩

theorem inside_of_parentOf? {id parent : String} (h : parentOf? groups id = some parent) :
    (nestingOf groups).Inside id parent := by
  obtain ⟨g, hfind, hparent⟩ := Option.bind_eq_some_iff.mp h
  obtain rfl : g.id = id := by simpa using List.find?_some hfind
  have hmem : g ∈ groups := List.mem_reverse.mp (List.mem_of_find?_eq_some hfind)
  exact List.mem_map.mpr ⟨g, hmem, by rw [hparent]⟩

/-- With distinct ids, every group has the parent that its entry names. -/
theorem parentOf?_of_inside (hnodup : (groups.map (·.id)).Nodup) {id parent : String}
    (h : (nestingOf groups).Inside id parent) : parentOf? groups id = some parent := by
  obtain ⟨g, hg, heq⟩ := List.mem_map.mp h
  obtain ⟨rfl, hparent⟩ := Prod.mk.inj heq
  rw [parentOf?_eq hnodup, find?_of_nodup hnodup hg]
  exact hparent

/-! ## What the search reports -/

/-- A walk that comes back to an id it has visited has gone round a circle. -/
theorem onCircle_of_circleFrom {fuel : Nat} {visited : List String} {id found : String}
    (h : circleFrom groups fuel visited id = some found)
    (hvisited : ∀ v ∈ visited, Relation.TransGen (nestingOf groups).Inside v id) :
    (nestingOf groups).OnCircle found := by
  induction fuel generalizing visited id with
  | zero => cases h
  | succ fuel ih =>
    unfold circleFrom at h
    split at h
    · rename_i hmem
      obtain rfl : id = found := Option.some.inj h
      exact hvisited id (by simpa using hmem)
    · cases hparent : parentOf? groups id with
      | none => rw [hparent] at h; cases h
      | some parent =>
        rw [hparent] at h
        have hstep := inside_of_parentOf? hparent
        refine ih h fun v hv => ?_
        rcases List.mem_cons.mp hv with rfl | hv
        · exact .single hstep
        · exact (hvisited v hv).tail hstep

theorem onCircle_of_circle? {id : String} (h : circle? groups = some id) :
    (nestingOf groups).OnCircle id := by
  obtain ⟨g, -, hwalk⟩ := List.exists_of_findSome?_eq_some h
  exact onCircle_of_circleFrom hwalk fun _ hv => absurd hv List.not_mem_nil

/-! ## What the search finds -/

variable (hnodup : (groups.map (·.id)).Nodup)
include hnodup

theorem onCircle_parent {id parent : String} (h : (nestingOf groups).OnCircle id)
    (hparent : parentOf? groups id = some parent) : (nestingOf groups).OnCircle parent := by
  obtain ⟨next, hfirst, hback⟩ := Relation.TransGen.head'_iff.mp h
  obtain rfl : next = parent :=
    Option.some.inj ((parentOf?_of_inside hnodup hfirst).symm.trans hparent)
  exact .tail' hback hfirst

/-- A group on a circle has no depth. -/
theorem not_depth_of_onCircle {id : String} {k : Nat} (hk : Depth groups id k) :
    ¬ (nestingOf groups).OnCircle id := by
  induction hk with
  | outermost hnone =>
    intro h
    obtain ⟨outer, hfirst⟩ := h.exists_inside
    rw [parentOf?_of_inside hnodup hfirst] at hnone
    cases hnone
  | inside hparent _ ih => exact fun h => ih (onCircle_parent hnodup h hparent)

open Classical in
/-- The walk from a group on a circle comes back to a visited id: the ids on
circles are closed under going outwards, so the fuel is enough for them. -/
theorem circleFrom_ne_none {id : String} (h : (nestingOf groups).OnCircle id) :
    circleFrom groups (groups.length + 2) [] id ≠ none := by
  intro hwalk
  let ids := (groups.map (·.id)).filter (nestingOf groups).OnCircle
  have mem_ids {id : String} (h : (nestingOf groups).OnCircle id) : id ∈ ids :=
    List.mem_filter.mpr ⟨mem_ids_of_onCircle h, by simpa using h⟩
  have hclosed : ∀ id ∈ ids, ∀ parent, parentOf? groups id = some parent → parent ∈ ids :=
    fun id hid parent hparent =>
      mem_ids (onCircle_parent hnodup (by simpa using (List.mem_filter.mp hid).2) hparent)
  have hlength : ids.length ≤ groups.length :=
    Nat.le_trans (List.length_filter_le _ _) (Nat.le_of_eq (List.length_map _))
  obtain ⟨k, hk, -⟩ := exists_depth hclosed hwalk List.nodup_nil (List.nil_subset _) (mem_ids h)
    (by rw [List.length_nil]; omega)
  exact not_depth_of_onCircle hnodup hk h

/-- No circle is found exactly when there is none. -/
theorem circle?_eq_none_iff : circle? groups = none ↔ (nestingOf groups).IsForest := by
  constructor
  · intro h id hid
    obtain ⟨g, hg, rfl⟩ := List.mem_map.mp (mem_ids_of_onCircle hid)
    exact circleFrom_ne_none hnodup hid (List.findSome?_eq_none_iff.mp h g hg)
  · intro hforest
    cases hfound : circle? groups with
    | none => rfl
    | some id => exact absurd (onCircle_of_circle? hfound) (hforest id)

end

end Description

end DiagramPress
