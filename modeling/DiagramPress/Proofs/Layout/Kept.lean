-- What a layout keeps: it gives places to groups and free nodes and changes
-- nothing else in the model.
import DiagramPress.Layout.Adapter

namespace DiagramPress

namespace Model

variable {α : Type}

/-! ## Models without places -/

def Node.withoutPlace (n : Node α) : Node α := { n with position := none }

def Group.withoutPlace (g : Group α) : Group α := { g with position := none, size := none }

/-- The model as if nothing in it were placed. -/
def withoutPlaces (m : Model α) : Model α :=
  { m with nodes := m.nodes.map Node.withoutPlace, groups := m.groups.map Group.withoutPlace }

section

variable {β : Type} {m m' : Model α} (h : m'.withoutPlaces = m.withoutPlaces)
include h

/-- What does not look at the places of groups is the same for both models. -/
theorem map_groups_congr {f : Group α → β} (hf : ∀ g, f g.withoutPlace = f g) :
    m'.groups.map f = m.groups.map f := by
  have hsame := congrArg (fun m : Model α => m.groups.map f) h
  simpa only [withoutPlaces, List.map_map, Function.comp_def, hf] using hsame

theorem group_ids_congr : m'.groups.map (·.id) = m.groups.map (·.id) :=
  map_groups_congr h fun _ => rfl

theorem map_nodes_congr {f : Node α → β} (hf : ∀ n, f n.withoutPlace = f n) :
    m'.nodes.map f = m.nodes.map f := by
  have hsame := congrArg (fun m : Model α => m.nodes.map f) h
  simpa only [withoutPlaces, List.map_map, Function.comp_def, hf] using hsame

theorem edges_congr : m'.edges = m.edges := by
  have hsame := congrArg edges h
  exact hsame

end

end Model

namespace Layout

open Model

variable {α : Type}

/-! ## Writing the answer back -/

theorem writeNode_withoutPlace (boxes : List (String × Bounds α)) (n : Model.Node α) :
    (writeNode boxes n).withoutPlace = n.withoutPlace := by
  unfold writeNode
  split <;> rfl

theorem writeGroup_withoutPlace (boxes : List (String × Bounds α)) (g : Model.Group α) :
    (writeGroup boxes g).withoutPlace = g.withoutPlace := by
  unfold writeGroup
  split <;> rfl

variable [Scalar α]

theorem writeBack_withoutPlaces (m : Model α) (answer : Frame α) :
    (writeBack m answer).withoutPlaces = m.withoutPlaces := by
  simp only [writeBack, withoutPlaces, List.map_map, Function.comp_def, writeNode_withoutPlace,
    writeGroup_withoutPlace]

/-! ## Growing groups -/

theorem growAround_withoutPlace (padding : Padding α) (m : Model α) (g : Model.Group α) :
    (growAround padding m g).withoutPlace = g.withoutPlace := by
  unfold growAround
  split <;> rfl

theorem growAt_withoutPlaces (padding : Padding α) (m : Model α) (index : Nat) :
    (growAt padding m index).withoutPlaces = m.withoutPlaces := by
  have hgroups : (m.groups.modify index (growAround padding m)).map Group.withoutPlace =
      m.groups.map Group.withoutPlace := by
    apply List.ext_getElem?
    intro i
    simp only [List.getElem?_map, List.getElem?_modify]
    split
    · simp [Function.comp_def, growAround_withoutPlace]
    · simp
  simp only [growAt, withoutPlaces, hgroups]

theorem encloseMembers_withoutPlaces (padding : Padding α) (m : Model α) :
    (encloseMembers padding m).withoutPlaces = m.withoutPlaces := by
  have hrun (order : List Nat) (m : Model α) :
      (order.foldl (growAt padding) m).withoutPlaces = m.withoutPlaces := by
    induction order generalizing m with
    | nil => rfl
    | cons index order ih => rw [List.foldl_cons, ih, growAt_withoutPlaces]
  exact hrun _ m

end Layout

namespace Model

variable {α : Type} [Scalar α] [NumberText α] {m m' : Model α} {choice : LayoutChoice α}
  {engine : LayoutEngine α} {settings : LayoutSettings α}

/-- What a layout does: nothing without an algorithm; else what an engine answers
is written back, and groups grow around their members. -/
theorem layout_cases (h : m.layout choice engine settings = .ok m') :
    (Layout.methodOf? choice.algorithm = none ∧ m' = m) ∨
      ∃ method answer, Layout.methodOf? choice.algorithm = some method ∧
        engine (Layout.request m method choice settings) = .ok answer ∧
        m' = Layout.encloseMembers settings.groupPadding (Layout.writeBack m answer) := by
  unfold layout at h
  split at h
  · rename_i hmethod
    exact .inl ⟨hmethod, (Except.ok.inj h).symm⟩
  · rename_i method hmethod
    rcases hanswer : engine (Layout.request m method choice settings) with e | answer
    · simp [hanswer, Except.map] at h
    · simp only [hanswer, Except.map, Except.ok.injEq] at h
      exact .inr ⟨method, answer, hmethod, hanswer, h.symm⟩

/-- A layout changes nothing but places. -/
theorem withoutPlaces_layout (h : m.layout choice engine settings = .ok m') :
    m'.withoutPlaces = m.withoutPlaces := by
  rcases layout_cases h with ⟨-, rfl⟩ | ⟨method, answer, -, -, rfl⟩
  · rfl
  · rw [Layout.encloseMembers_withoutPlaces, Layout.writeBack_withoutPlaces]

end Model

end DiagramPress
