-- What the structural check promises of a description it accepts: every id is
-- there once, and every reference leads to something that is there.
import DiagramPress.Description.Check

namespace DiagramPress

namespace Description

variable {α : Type}

/-! ## Lists of ids -/

/-- Of distinct ids that are all new, the first is new, and the others stay so
when it is seen. -/
theorem unseen_of_nodup {β : Type} {id : β} {rest seen : List β} (hnodup : (id :: rest).Nodup)
    (hnew : ∀ x ∈ id :: rest, x ∉ seen) :
    id ∉ seen ∧ rest.Nodup ∧ ∀ x ∈ rest, x ∉ id :: seen := by
  obtain ⟨hid, hrest⟩ := List.nodup_cons.mp hnodup
  refine ⟨hnew id (by simp), hrest, fun x hx hmem => ?_⟩
  rcases List.mem_cons.mp hmem with rfl | hmem
  · exact hid hx
  · exact hnew x (by simp [hx]) hmem

theorem repeated_eq_nil_iff {seen ids : List String} :
    repeated seen ids = [] ↔ ids.Nodup ∧ ∀ id ∈ ids, id ∉ seen := by
  induction ids generalizing seen with
  | nil => simp [repeated]
  | cons id rest ih =>
    unfold repeated
    split
    · rename_i hid
      refine iff_of_false (List.cons_ne_nil _ _) fun h => h.2 id (by simp) ?_
      simpa using hid
    · rename_i hid
      have hnot : id ∉ seen := by simpa using hid
      rw [ih]
      constructor
      · rintro ⟨hnodup, hrest⟩
        refine ⟨List.nodup_cons.mpr ⟨fun hm => ?_, hnodup⟩, fun x hx => ?_⟩
        · exact hrest id hm (by simp)
        · rcases List.mem_cons.mp hx with rfl | hx
          · exact hnot
          · exact fun hs => hrest x hx (by simp [hs])
      · rintro ⟨hnodup, hnew⟩
        exact (unseen_of_nodup hnodup hnew).2

theorem mem_firstOf {seen ids : List String} {id : String} :
    id ∈ firstOf seen ids ↔ id ∈ ids ∧ id ∉ seen := by
  induction ids generalizing seen with
  | nil => simp [firstOf]
  | cons x rest ih =>
    unfold firstOf
    split
    · rename_i hx
      have hseen : x ∈ seen := by simpa using hx
      rw [ih, List.mem_cons]
      constructor
      · exact fun ⟨hid, hnew⟩ => ⟨.inr hid, hnew⟩
      · rintro ⟨rfl | hid, hnew⟩
        · exact absurd hseen hnew
        · exact ⟨hid, hnew⟩
    · rename_i hx
      have hnot : x ∉ seen := by simpa using hx
      rw [List.mem_cons, List.mem_cons, ih, List.mem_cons]
      by_cases hid : id = x
      · subst hid
        simp [hnot]
      · simp [hid]

theorem mem_entityIds {d : Description α} {id : String} :
    id ∈ d.entityIds ↔ id ∈ d.nodeIds ∨ id ∈ d.groupIds := by
  rw [entityIds, mem_firstOf, List.mem_append]
  exact and_iff_left List.not_mem_nil

/-! ## Parts of the check that find nothing -/

theorem problemIf_eq_nil_iff {condition : Bool} {problem : Problem} :
    problemIf condition problem = [] ↔ condition = false := by
  cases condition <;> simp [problemIf]

variable {d : Description α}

theorem duplicateProblems_eq_nil_iff :
    d.duplicateProblems = [] ↔
      d.nodeIds.Nodup ∧ d.groupIds.Nodup ∧ ∀ id ∈ d.groupIds, id ∉ d.nodeIds := by
  simp [duplicateProblems, repeated_eq_nil_iff]

theorem endpointProblems_eq_nil_iff {edge : Description.Edge α} :
    d.endpointProblems edge = [] ↔
      (edge.source ∈ d.nodeIds ∨ edge.source ∈ d.groupIds) ∧
        (edge.target ∈ d.nodeIds ∨ edge.target ∈ d.groupIds) := by
  simp only [endpointProblems, List.append_eq_nil_iff, problemIf_eq_nil_iff, Bool.not_eq_false',
    List.contains_iff_mem, mem_entityIds]

theorem memberProblems_eq_nil_iff {node : Description.Node α} :
    d.memberProblems node = [] ↔ ∀ id, node.group = some id → id ∈ d.groupIds := by
  unfold memberProblems
  cases node.group <;> simp [problemIf_eq_nil_iff]

theorem parentProblems_eq_nil_iff {group : Description.Group α} :
    d.parentProblems group = [] ↔ ∀ id, group.parent = some id → id ∈ d.groupIds := by
  unfold parentProblems
  cases group.parent <;> simp [problemIf_eq_nil_iff]

/-! ## Accepted descriptions -/

/-- The ids of a description are distinct and its references lead somewhere. -/
structure HangsTogether (d : Description α) : Prop where
  nodes_nodup : d.nodeIds.Nodup
  groups_nodup : d.groupIds.Nodup
  disjoint : ∀ id ∈ d.groupIds, id ∉ d.nodeIds
  source : ∀ e ∈ d.edges, e.source ∈ d.nodeIds ∨ e.source ∈ d.groupIds
  target : ∀ e ∈ d.edges, e.target ∈ d.nodeIds ∨ e.target ∈ d.groupIds
  member : ∀ n ∈ d.nodes, ∀ id, n.group = some id → id ∈ d.groupIds
  parent : ∀ g ∈ d.groups, ∀ id, g.parent = some id → id ∈ d.groupIds
  uncircled : circle? d.groups = none

theorem hangsTogether_of_accepted [Scalar α] {d : Description α} (h : d.problems = []) :
    d.HangsTogether := by
  simp only [problems, List.append_eq_nil_iff, List.flatMap_eq_nil_iff,
    duplicateProblems_eq_nil_iff, endpointProblems_eq_nil_iff, memberProblems_eq_nil_iff,
    parentProblems_eq_nil_iff, Option.toList_eq_nil_iff, Option.map_eq_none_iff] at h
  obtain ⟨⟨⟨⟨⟨-, hnodes, hgroups, hdisjoint⟩, hends⟩, hmembers⟩, hparents⟩, hcircle⟩ := h
  exact
    { nodes_nodup := hnodes
      groups_nodup := hgroups
      disjoint := hdisjoint
      source := fun e he => (hends e he).1
      target := fun e he => (hends e he).2
      member := hmembers
      parent := hparents
      uncircled := hcircle }

/-- The check finds nothing in a description that is read. -/
theorem problems_of_parse {text : String} {d : Description Float32}
    (h : Description.parse text = .ok d) : d.problems = [] := by
  unfold Description.parse at h
  split at h
  · cases h
  · split at h
    · rename_i hempty
      cases h
      simpa using hempty
    · cases h

end Description

end DiagramPress
