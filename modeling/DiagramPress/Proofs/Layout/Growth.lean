-- The boxes of groups: the answer of an engine gives them, and growing around
-- members neither takes one away nor moves a node.
import DiagramPress.Proofs.Layout.Inside

namespace DiagramPress

/-- A group has a box as soon as it has a position and a size. -/
theorem Model.Group.isSome_bounds?_iff {α : Type} {g : Model.Group α} :
    g.bounds?.isSome ↔ g.position.isSome ∧ g.size.isSome := by
  rw [bounds?]
  cases g.position <;> cases g.size <;> simp

namespace Layout

variable {α : Type}

theorem bounds?_writeGroup {boxes : List (String × Bounds α)} {g : Model.Group α} {b : Bounds α}
    (h : boxOf? boxes g.cell = some b) : (writeGroup boxes g).bounds? = some b := by
  rw [writeGroup, h]
  rfl

variable [Scalar α]

theorem isSome_bounds?_writeBack {m : Model α} {answer : Frame α}
    (h : ∀ g ∈ m.groups, toString g.cell ∈ answer.names) :
    ∀ g ∈ (writeBack m answer).groups, g.bounds?.isSome := by
  intro g hg
  obtain ⟨g, hmem, rfl⟩ := List.mem_map.mp hg
  obtain ⟨b, hb⟩ := exists_boxOf? answer.offset (h g hmem)
  rw [bounds?_writeGroup hb]
  rfl

/-! ## One group grows -/

section

variable (padding : Padding α) (m : Model α)

theorem growAround_id (g : Model.Group α) : (growAround padding m g).id = g.id := by
  unfold growAround
  split <;> rfl

theorem growAround_parent (g : Model.Group α) : (growAround padding m g).parent = g.parent := by
  unfold growAround
  split <;> rfl

/-- A group that grows unites the box that it has with the boxes of its members. -/
theorem bounds?_growAround (g : Model.Group α) :
    (growAround padding m g).bounds? = g.bounds?.map fun b =>
      (memberBoxes m g.id).foldl (fun b member => b.union (padded padding member)) b := by
  rw [growAround]
  cases hbox : g.bounds? with
  | none => exact hbox
  | some b => rfl

theorem getElem?_growAt (index i : Nat) :
    (growAt padding m index).groups[i]? =
      m.groups[i]?.map fun g => if index = i then growAround padding m g else g :=
  List.getElem?_modify ..

end

/-! ## All groups grow -/

section

variable {padding : Padding α} {P : Model.Group α → Prop}
  (hgrow : ∀ (m : Model α) (g : Model.Group α), P g → P (growAround padding m g))
include hgrow

/-- What a group keeps when it grows, all groups keep when one of them grows. -/
theorem forall_groups_growAt {m : Model α} (index : Nat) (h : ∀ g ∈ m.groups, P g) :
    ∀ g ∈ (growAt padding m index).groups, P g := by
  intro g hg
  obtain ⟨i, hi⟩ := List.mem_iff_getElem?.mp hg
  rw [getElem?_growAt, Option.map_eq_some_iff] at hi
  obtain ⟨g, hi, rfl⟩ := hi
  have hkept := h g (List.mem_of_getElem? hi)
  split
  · exact hgrow m g hkept
  · exact hkept

theorem forall_groups_encloseMembers {m : Model α} (h : ∀ g ∈ m.groups, P g) :
    ∀ g ∈ (encloseMembers padding m).groups, P g := by
  rw [encloseMembers]
  generalize deepestFirst m = order
  induction order generalizing m with
  | nil => exact h
  | cons index order ih => exact ih (forall_groups_growAt hgrow index h)

end

theorem isSome_bounds?_encloseMembers (padding : Padding α) {m : Model α}
    (h : ∀ g ∈ m.groups, g.bounds?.isSome) :
    ∀ g ∈ (encloseMembers padding m).groups, g.bounds?.isSome :=
  forall_groups_encloseMembers (fun m g hg => by rwa [bounds?_growAround, Option.isSome_map]) h

theorem nodes_encloseMembers (padding : Padding α) (m : Model α) :
    (encloseMembers padding m).nodes = m.nodes := by
  rw [encloseMembers]
  generalize deepestFirst m = order
  induction order generalizing m with
  | nil => rfl
  | cons index order ih => exact ih (growAt padding m index)

end Layout

end DiagramPress
