-- The structural check is exact: it finds nothing in a description exactly when
-- the description is well-formed, rule by rule.
import DiagramPress.Proofs.Description.Circles
import DiagramPress.Proofs.Number.Grid

namespace DiagramPress

namespace Description

variable {α : Type}

/-! ## Well-formed descriptions -/

/-- Everything that is said about the look of single cells. -/
def styles (d : Description α) : List (StyleOverride α) :=
  d.nodes.filterMap (·.style) ++ d.edges.filterMap (·.style) ++ d.groups.filterMap (·.style)

/-- Which group of a description lies directly in which one. -/
def nesting (d : Description α) : Nesting := nestingOf d.groups

/-- What a description has to be for a diagram to be made of it. -/
structure WellFormed [Scalar α] (d : Description α) : Prop where
  nodes : d.nodes ≠ []
  spacing : ¬ d.layout.spacing.node ≤ 0 ∧ ¬ d.layout.spacing.layer ≤ 0
  sizes : ∀ n ∈ d.nodes, ∀ s, n.size = some s → ¬ s.width ≤ 0 ∧ ¬ s.height ≤ 0
  nodeIds_ne : ∀ n ∈ d.nodes, n.id ≠ ""
  groupIds_ne : ∀ g ∈ d.groups, g.id ≠ ""
  endpoints_ne : ∀ e ∈ d.edges, e.source ≠ "" ∧ e.target ≠ ""
  opacities : ∀ style ∈ d.styles, ∀ v, style.opacity = some v → 0 ≤ v ∧ v ≤ 100
  ids_nodup : (d.nodeIds ++ d.groupIds).Nodup
  source : ∀ e ∈ d.edges, e.source ∈ d.nodeIds ∨ e.source ∈ d.groupIds
  target : ∀ e ∈ d.edges, e.target ∈ d.nodeIds ∨ e.target ∈ d.groupIds
  member : ∀ n ∈ d.nodes, ∀ id, n.group = some id → id ∈ d.groupIds
  parent : ∀ g ∈ d.groups, ∀ id, g.parent = some id → id ∈ d.groupIds
  forest : d.nesting.IsForest

/-! ## All entries of a kind -/

/-- Numbering the entries makes no difference to whether all of them are in order. -/
theorem flatMap_zipIdx_eq_nil_iff {β γ : Type} {check : β → Nat → List γ} {ok : β → Prop}
    (h : ∀ x i, check x i = [] ↔ ok x) (l : List β) :
    (l.zipIdx.flatMap fun (x, i) => check x i) = [] ↔ ∀ x ∈ l, ok x := by
  rw [List.flatMap_eq_nil_iff]
  constructor
  · intro hall x hx
    obtain ⟨i, hi⟩ := List.mem_iff_getElem?.mp hx
    exact (h x i).mp (hall (x, i) (List.mk_mem_zipIdx_iff_getElem?.mpr hi))
  · exact fun hall (x, i) hx => (h x i).mpr (hall x (List.fst_mem_of_mem_zipIdx hx))

/-- The ids of nodes and groups are distinct, among themselves and from each other. -/
theorem nodup_ids_iff {d : Description α} :
    (d.nodeIds ++ d.groupIds).Nodup ↔
      d.nodeIds.Nodup ∧ d.groupIds.Nodup ∧ ∀ id ∈ d.groupIds, id ∉ d.nodeIds := by
  rw [List.nodup_append', List.disjoint_comm]
  exact Iff.rfl

theorem forall_mem_styles_iff {d : Description α} {P : StyleOverride α → Prop} :
    (∀ style ∈ d.styles, P style) ↔
      (∀ n ∈ d.nodes, ∀ s, n.style = some s → P s) ∧
        (∀ e ∈ d.edges, ∀ s, e.style = some s → P s) ∧
          ∀ g ∈ d.groups, ∀ s, g.style = some s → P s := by
  simp only [styles, List.mem_append, or_imp, forall_and, List.forall_mem_filterMap, and_assoc]

/-! ## Single entries -/

variable [Scalar α]

/-- An opacity that is given lies between 0 and 100. -/
def OpacityFits (style : Option (StyleOverride α)) : Prop :=
  ∀ s, style = some s → ∀ v, s.opacity = some v → 0 ≤ v ∧ v ≤ 100

theorem badOpacity_eq_false_iff {style : Option (StyleOverride α)} :
    badOpacity style = false ↔ OpacityFits style := by
  unfold badOpacity OpacityFits
  cases style with
  | none => simp
  | some s => cases h : s.opacity <;> simp [h]

theorem badSize_eq_false_iff {size : Option (Size α)} :
    badSize size = false ↔ ∀ s, size = some s → ¬ s.width ≤ 0 ∧ ¬ s.height ≤ 0 := by
  unfold badSize
  cases size <;> simp

theorem nodeProblems_eq_nil_iff (n : Description.Node α) (index : Nat) :
    nodeProblems n index = [] ↔ n.id ≠ "" ∧
      (∀ s, n.size = some s → ¬ s.width ≤ 0 ∧ ¬ s.height ≤ 0) ∧ OpacityFits n.style := by
  simp [nodeProblems, problemIf_eq_nil_iff, badSize_eq_false_iff, badOpacity_eq_false_iff]

theorem edgeProblems_eq_nil_iff (e : Description.Edge α) (index : Nat) :
    edgeProblems e index = [] ↔ e.source ≠ "" ∧ e.target ≠ "" ∧ OpacityFits e.style := by
  simp [edgeProblems, problemIf_eq_nil_iff, badOpacity_eq_false_iff, and_assoc]

theorem groupProblems_eq_nil_iff (g : Description.Group α) (index : Nat) :
    groupProblems g index = [] ↔ g.id ≠ "" ∧ OpacityFits g.style := by
  simp [groupProblems, problemIf_eq_nil_iff, badOpacity_eq_false_iff]

/-! ## The whole description -/

theorem problems_eq_nil_iff (d : Description α) : d.problems = [] ↔ d.WellFormed := by
  simp only [problems, List.append_eq_nil_iff, problemIf_eq_nil_iff, List.isEmpty_eq_false_iff,
    decide_eq_false_iff_not, flatMap_zipIdx_eq_nil_iff nodeProblems_eq_nil_iff,
    flatMap_zipIdx_eq_nil_iff edgeProblems_eq_nil_iff,
    flatMap_zipIdx_eq_nil_iff groupProblems_eq_nil_iff, List.flatMap_eq_nil_iff,
    duplicateProblems_eq_nil_iff, endpointProblems_eq_nil_iff, memberProblems_eq_nil_iff,
    parentProblems_eq_nil_iff, Option.toList_eq_nil_iff, Option.map_eq_none_iff,
    ← nodup_ids_iff, and_assoc]
  constructor
  · rintro ⟨hsome, hnode, hlayer, hnodes, hedges, hgroups, hids, hends, hmembers, hparents, hcircle⟩
    have hgroupIds := (nodup_ids_iff.mp hids).2.1
    exact
      { nodes := hsome
        spacing := ⟨hnode, hlayer⟩
        sizes := fun n hn => (hnodes n hn).2.1
        nodeIds_ne := fun n hn => (hnodes n hn).1
        groupIds_ne := fun g hg => (hgroups g hg).1
        endpoints_ne := fun e he => ⟨(hedges e he).1, (hedges e he).2.1⟩
        opacities := forall_mem_styles_iff.mpr
          ⟨fun n hn => (hnodes n hn).2.2, fun e he => (hedges e he).2.2,
            fun g hg => (hgroups g hg).2⟩
        ids_nodup := hids
        source := fun e he => (hends e he).1
        target := fun e he => (hends e he).2
        member := hmembers
        parent := hparents
        forest := (circle?_eq_none_iff hgroupIds).mp hcircle }
  · intro h
    have hgroupIds := (nodup_ids_iff.mp h.ids_nodup).2.1
    obtain ⟨hnodes, hedges, hgroups⟩ := forall_mem_styles_iff.mp h.opacities
    refine ⟨h.nodes, h.spacing.1, h.spacing.2, ?_, ?_, ?_, h.ids_nodup, ?_, h.member, h.parent,
      (circle?_eq_none_iff hgroupIds).mpr h.forest⟩
    · exact fun n hn => ⟨h.nodeIds_ne n hn, h.sizes n hn, hnodes n hn⟩
    · exact fun e he => ⟨(h.endpoints_ne e he).1, (h.endpoints_ne e he).2, hedges e he⟩
    · exact fun g hg => ⟨h.groupIds_ne g hg, hgroups g hg⟩
    · exact fun e he => ⟨h.source e he, h.target e he⟩

/-! ## The law of the check -/

/-- The check finds nothing in a description exactly when it is well-formed. Where
group ids are distinct, it reports a group exactly when some group lies on a
circle, and the one it reports does. -/
theorem the_structural_check_is_exact (d : Description α) :
    (d.problems = [] ↔ d.WellFormed) ∧
      (d.groupIds.Nodup →
        ((circle? d.groups).isSome ↔ ∃ id, d.nesting.OnCircle id) ∧
          ∀ id, circle? d.groups = some id → id ∈ d.groupIds ∧ d.nesting.OnCircle id) := by
  refine ⟨problems_eq_nil_iff d, fun hnodup => ⟨?_, fun id hfound => ?_⟩⟩
  · rw [Option.isSome_iff_ne_none, Ne, circle?_eq_none_iff hnodup]
    exact not_forall_not
  · have hcircle := onCircle_of_circle? hfound
    exact ⟨mem_ids_of_onCircle hcircle, hcircle⟩

section Grid

/-- A group whose way outwards leads into a circle that it is not on itself. -/
def circlingDescription : Description Grid where
  title := "circling"
  theme := .professional
  layout := LayoutChoice.default
  nodes := [⟨"a", "A", Description.defaultType, some "tail", none, none, none⟩]
  edges := []
  groups := [⟨"tail", "Tail", some "left", none⟩, ⟨"left", "Left", some "right", none⟩,
    ⟨"right", "Right", some "left", none⟩]

theorem a_circle_behind_a_tail_is_reported :
    let d := circlingDescription
    d.groupIds.Nodup ∧ d.problems = [.circularGroups "left"] ∧ ¬ d.WellFormed ∧
      d.nesting.OnCircle "left" ∧ ∃ id, d.nesting.OnCircle id := by
  intro d
  have hnodup : d.groupIds.Nodup := by decide
  have hproblems : d.problems = [.circularGroups "left"] := by decide
  have hfound : circle? d.groups = some "left" := by decide
  obtain ⟨haccepted, hcircles⟩ := the_structural_check_is_exact d
  obtain ⟨hexists, hreported⟩ := hcircles hnodup
  refine ⟨hnodup, hproblems, fun h => ?_, (hreported "left" hfound).2, hexists.mp ?_⟩
  · rw [haccepted.mpr h] at hproblems
    cases hproblems
  · rw [hfound]
    rfl

end Grid

end Description

end DiagramPress
