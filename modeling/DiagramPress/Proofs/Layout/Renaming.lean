-- A layout does not look at the names of ids: a renamed model asks the engine for the
-- same, and gets the same places.
import DiagramPress.Proofs.Layout.DeepestFirst
import DiagramPress.Proofs.Model.Renaming

namespace DiagramPress

open Function (Injective)

namespace Layout

variable {α : Type} {f : String → String}

/-! ## The request -/

/-- Where one group after the other is hung up under its new id, the frames are the same,
and the new ids of the same groups are visited. -/
theorem containersWith_rename {one one' : List String → String → Frame α × List String}
    (h : ∀ visited id, one' (visited.map f) (f id) = ((one visited id).1, (one visited id).2.map f))
    (visited ids : List String) :
    containersWith one' (visited.map f) (ids.map f) =
      ((containersWith one visited ids).1, (containersWith one visited ids).2.map f) := by
  induction ids generalizing visited with
  | nil => rfl
  | cons id rest ih => simp only [List.map_cons, containersWith, h, ih]

section

variable (m : Model α)

section

variable (keep keep' : Option String → Bool) (h : ∀ outer, keep' (outer.map f) = keep outer)
include h

/-- The nodes that are chosen by the group around them. -/
theorem filter_nodes_rename :
    ((m.rename f).nodes.filter fun n => keep' n.group) =
      (m.nodes.filter fun n => keep n.group).map (Model.Node.rename f) := by
  simp only [Model.rename, List.filter_map, Function.comp_def, Model.Node.rename, h]

theorem filter_groups_rename :
    ((m.rename f).groups.filter fun g => keep' g.parent) =
      (m.groups.filter fun g => keep g.parent).map (Model.Group.rename f) := by
  simp only [Model.rename, List.filter_map, Function.comp_def, Model.Group.rename, h]

/-- They are the same leaves. -/
theorem leaves_rename :
    ((m.rename f).nodes.filter fun n => keep' n.group).map leafOf =
      (m.nodes.filter fun n => keep n.group).map leafOf := by
  rw [filter_nodes_rename m keep keep' h, List.map_map]
  rfl

theorem groupIds_rename :
    ((m.rename f).groups.filter fun g => keep' g.parent).map (·.id) =
      ((m.groups.filter fun g => keep g.parent).map (·.id)).map f := by
  rw [filter_groups_rename m keep keep' h, List.map_map, List.map_map]
  rfl

end

variable (hf : Injective f)
include hf

theorem map_eq_some_rename (id : String) (outer : Option String) :
    decide (outer.map f = some (f id)) = decide (outer = some id) := by
  cases outer <;> simp [hf.eq_iff]

theorem isKnown_rename (id : Option String) : isKnown (m.rename f) (id.map f) = isKnown m id := by
  cases id with
  | none => rfl
  | some id =>
    simp only [isKnown, Option.map_some, Model.rename, List.any_map, Function.comp_def,
      Model.Group.rename, hf.eq_iff]

variable [NumberText α] (s : ContainerSettings α)

theorem emptyContainer_rename (id : String) :
    emptyContainer (m.rename f) s (f id) = emptyContainer m s id := by
  rw [emptyContainer, emptyContainer, Model.group?_rename hf, Option.map_map]
  rfl

theorem containerOf_rename (fuel : Nat) (visited : List String) (id : String) :
    containerOf (m.rename f) s fuel (visited.map f) (f id) =
      ((containerOf m s fuel visited id).1, (containerOf m s fuel visited id).2.map f) := by
  induction fuel generalizing visited id with
  | zero => rw [containerOf, containerOf, emptyContainer_rename m hf]
  | succ fuel ih =>
    have hvisited : (visited.map f).contains (f id) = visited.contains id := by
      simp [hf.eq_iff]
    have hinner := groupIds_rename m (· = some id) (· = some (f id)) (map_eq_some_rename hf id)
    have hleaves := leaves_rename m (· = some id) (· = some (f id)) (map_eq_some_rename hf id)
    have hinside := containersWith_rename ih (id :: visited)
      ((m.groups.filter fun g => g.parent = some id).map (·.id))
    rw [List.map_cons] at hinside
    rw [containerOf, containerOf, hvisited, emptyContainer_rename m hf, hinner, hleaves]
    split
    · rfl
    · simp only [hinside]

/-- A renamed model asks for the same as the model. -/
theorem request_rename [Scalar α] (method : Method) (choice : LayoutChoice α)
    (settings : LayoutSettings α) :
    request (m.rename f) method choice settings = request m method choice settings := by
  have hunknown (outer : Option String) : (!isKnown (m.rename f) (outer.map f)) =
      !isKnown m outer := congrArg not (isKnown_rename m hf outer)
  have htops := groupIds_rename m (!isKnown m ·) (!isKnown (m.rename f) ·) hunknown
  have hleaves := leaves_rename m (!isKnown m ·) (!isKnown (m.rename f) ·) hunknown
  have hlinks : (m.rename f).edges.map linkOf = m.edges.map linkOf := by
    simp only [Model.rename, List.map_map]
    rfl
  have hlength : (m.rename f).groups.length = m.groups.length := List.length_map _
  have hframes := containersWith_rename (containerOf_rename m hf
    (containerSettings method choice settings.groupPadding) (m.groups.length + 1)) []
    ((m.groups.filter fun g => !isKnown m g.parent).map (·.id))
  rw [List.map_nil] at hframes
  unfold request
  simp only [htops, hleaves, hlinks, hlength, hframes]

end

/-! ## The answer -/

theorem writeNode_rename (boxes : List (String × Bounds α)) (n : Model.Node α) :
    writeNode boxes (n.rename f) = (writeNode boxes n).rename f := by
  obtain ⟨id, cell, label, style, group, position, size⟩ := n
  cases position with
  | some p => rfl
  | none =>
    simp only [writeNode, Model.Node.rename]
    cases boxOf? boxes cell <;> rfl

theorem writeGroup_rename (boxes : List (String × Bounds α)) (g : Model.Group α) :
    writeGroup boxes (g.rename f) = (writeGroup boxes g).rename f := by
  simp only [writeGroup, Model.Group.rename]
  cases boxOf? boxes g.cell <;> rfl

theorem writeBack_rename [Scalar α] (m : Model α) (answer : Frame α) :
    writeBack (m.rename f) answer = (writeBack m answer).rename f := by
  simp only [writeBack, Model.rename, List.map_map, Function.comp_def, writeNode_rename,
    writeGroup_rename]

/-! ## Groups around their members -/

variable (m : Model α) (hf : Injective f)
include hf

theorem groupDepth_rename (id : String) : groupDepth (m.rename f) (f id) = groupDepth m id := by
  have hchain (fuel : Nat) (parent : Option String) :
      chainLength (m.rename f) fuel (parent.map f) = chainLength m fuel parent := by
    induction fuel generalizing parent with
    | zero => rfl
    | succ fuel ih =>
      cases parent with
      | none => rfl
      | some id =>
        rw [Option.map_some, chainLength, chainLength, Model.group?_rename hf, ← ih]
        cases m.group? id <;> rfl
  have hlength : (m.rename f).groups.length = m.groups.length := List.length_map _
  rw [groupDepth, groupDepth, Model.group?_rename hf, hlength, ← hchain]
  cases m.group? id <;> rfl

theorem deepestFirst_rename : deepestFirst (m.rename f) = deepestFirst m := by
  have hgroups : (m.rename f).groups = m.groups.map (Model.Group.rename f) := rfl
  exact deepestFirst_congr hgroups fun g => groupDepth_rename m hf g.id

theorem memberBoxes_rename (id : String) :
    memberBoxes (m.rename f) (f id) = memberBoxes m id := by
  rw [memberBoxes, memberBoxes,
    filter_nodes_rename m (· = some id) (· = some (f id)) (map_eq_some_rename hf id),
    filter_groups_rename m (· = some id) (· = some (f id)) (map_eq_some_rename hf id),
    List.filterMap_map, List.filterMap_map]
  rfl

variable [Scalar α] (padding : Padding α)

theorem growAround_rename (g : Model.Group α) :
    growAround padding (m.rename f) (g.rename f) = (growAround padding m g).rename f := by
  have hbounds : (g.rename f).bounds? = g.bounds? := rfl
  have hmembers : memberBoxes (m.rename f) (g.rename f).id = memberBoxes m g.id :=
    memberBoxes_rename m hf g.id
  unfold growAround
  rw [hbounds, hmembers]
  cases g.bounds? <;> rfl

theorem growAt_rename (index : Nat) :
    growAt padding (m.rename f) index = (growAt padding m index).rename f := by
  have hgroups : (m.rename f).groups.modify index (growAround padding (m.rename f)) =
      (m.groups.modify index (growAround padding m)).map (Model.Group.rename f) := by
    refine List.ext_getElem? fun i => ?_
    have hgrow (g : Model.Group α) : growAround padding (m.rename f) (g.rename f) =
        (growAround padding m g).rename f := growAround_rename m hf padding g
    rw [List.getElem?_map, List.getElem?_modify, List.getElem?_modify, Model.rename,
      List.getElem?_map]
    cases m.groups[i]? with
    | none => rfl
    | some g => by_cases hi : index = i <;> simp [hi, ← hgrow, Model.rename]
  rw [growAt, hgroups]
  rfl

theorem encloseMembers_rename :
    encloseMembers padding (m.rename f) = (encloseMembers padding m).rename f := by
  unfold encloseMembers
  rw [deepestFirst_rename m hf]
  induction deepestFirst m generalizing m with
  | nil => rfl
  | cons index order ih => rw [List.foldl_cons, List.foldl_cons, growAt_rename m hf, ih]

/-- The layout of a renamed model is the renamed layout, with any engine. -/
theorem layout_rename [NumberText α] (choice : LayoutChoice α) (engine : LayoutEngine α)
    (settings : LayoutSettings α) :
    (m.rename f).layout choice engine settings =
      (m.layout choice engine settings).map (Model.rename f) := by
  unfold Model.layout
  cases methodOf? choice.algorithm with
  | none => rfl
  | some method =>
    simp only [request_rename m hf]
    cases engine (request m method choice settings) with
    | error cause => rfl
    | ok answer =>
      simp only [Except.map, writeBack_rename, encloseMembers_rename _ hf]

end Layout

end DiagramPress
