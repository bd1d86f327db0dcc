-- The request for a layout holds the whole model: every group and every node is
-- one frame of it, directly inside the container of the group around it.
import DiagramPress.Proofs.Layout.Inside
import DiagramPress.Proofs.Model.Forest
import DiagramPress.Proofs.Model.WellNumbered
import Mathlib.Data.List.Perm.Basic

namespace DiagramPress

open Model

namespace Layout

variable {α : Type}

/-! ## Leaves -/

theorem leafOf_id (n : Model.Node α) : (leafOf n).id = toString n.cell := by
  unfold leafOf
  split <;> rfl

theorem leafOf_children (n : Model.Node α) : (leafOf n).children = [] := by
  unfold leafOf
  split <;> rfl

theorem leafOf_links (n : Model.Node α) : (leafOf n).links = [] := by
  unfold leafOf
  split <;> rfl

theorem leafOf_size (n : Model.Node α) :
    (leafOf n).width = some n.size.width ∧ (leafOf n).height = some n.size.height := by
  unfold leafOf
  split <;> exact ⟨rfl, rfl⟩

theorem isLeaf_leafOf (n : Model.Node α) : (leafOf n).isLeaf = true := by
  obtain ⟨hwidth, hheight⟩ := leafOf_size n
  simp [Frame.isLeaf, leafOf_children, hwidth, hheight]

theorem isPinned_leafOf (n : Model.Node α) : (leafOf n).isPinned = n.position.isSome := by
  unfold leafOf
  cases n.position with
  | none => rfl
  | some p => rfl

theorem leafOf_inside (n : Model.Node α) : (leafOf n).inside = [] := by
  rw [Frame.inside_eq, leafOf_children, List.flatMap_nil]

theorem flatMap_leaves (ns : List (Model.Node α)) :
    ((ns.map leafOf).flatMap fun f => f :: f.inside) = ns.map leafOf := by
  rw [List.flatMap_map, List.map_eq_flatMap]
  exact List.flatMap_congr fun n _ => by rw [leafOf_inside]

/-! ## Containers -/

/-- In a nested model, what does not lead to a group is no reference at all. -/
theorem not_isKnown {m : Model α} {reference : Option String}
    (h : ∀ id, reference = some id → ∃ g ∈ m.groups, g.id = id) :
    (!isKnown m reference) = decide (reference = none) := by
  cases reference with
  | none => rfl
  | some id =>
    obtain ⟨g, hg, hid⟩ := h id rfl
    have hknown : isKnown m (some id) = true := by
      rw [isKnown, List.any_eq_true]
      exact ⟨g, hg, by simpa using hid⟩
    simp [hknown]

variable [NumberText α]

/-- The container of a group with everything that lies in it. -/
def containerFor (m : Model α) (s : ContainerSettings α) : Model.Group α → Frame α :=
  m.fold fun g frames =>
    { s.write (Frame.container (toString g.cell)) with
      children := frames ++ (m.members g).map leafOf }

/-- Containers are built one after the other as if none had been built before. -/
theorem containersWith_eq (m : Model α) (s : ContainerSettings α)
    {one : List String → String → Frame α × List String} {groups : List (Model.Group α)}
    {visited : List String}
    (hone : ∀ g ∈ groups, ∀ visited, (∀ h ∈ m.within g, h.id ∉ visited) →
      one visited g.id = (containerFor m s g, ((m.within g).map (·.id)).reverse ++ visited))
    (hnodup : ((groups.flatMap m.within).map (·.id)).Nodup)
    (hnew : ∀ h ∈ groups.flatMap m.within, h.id ∉ visited) :
    containersWith one visited (groups.map (·.id)) =
      (groups.map (containerFor m s),
        ((groups.flatMap m.within).map (·.id)).reverse ++ visited) := by
  induction groups generalizing visited with
  | nil => rfl
  | cons g rest ih =>
    rw [List.flatMap_cons, List.map_append, List.nodup_append] at hnodup
    obtain ⟨-, hrest, hapart⟩ := hnodup
    have hfirst := hone g (by simp) visited fun h hh => hnew h (by simp [hh])
    have hnew' : ∀ h ∈ rest.flatMap m.within,
        h.id ∉ ((m.within g).map (·.id)).reverse ++ visited := by
      intro h hh hmem
      rcases List.mem_append.mp hmem with hmem | hmem
      · rw [List.mem_reverse] at hmem
        exact hapart _ hmem _ (List.mem_map_of_mem hh) rfl
      · refine hnew h ?_ hmem
        rw [List.flatMap_cons]
        exact List.mem_append_right _ hh
    have hlater := ih (fun h hh => hone h (by simp [hh])) hrest hnew'
    rw [List.map_cons, containersWith, hfirst]
    simp only [hlater, List.map_cons, List.flatMap_cons, List.map_append, List.reverse_append,
      List.append_assoc]

section

variable {m : Model α} (hm : m.Nested) (s : ContainerSettings α)
include hm

theorem containerFor_eq {g : Model.Group α} (hg : g ∈ m.groups) :
    containerFor m s g =
      { s.write (Frame.container (toString g.cell)) with
        children := (m.innerGroups g).map (containerFor m s) ++ (m.members g).map leafOf } :=
  hm.fold_eq _ hg

theorem emptyContainer_eq {g : Model.Group α} (hg : g ∈ m.groups) :
    emptyContainer m s g.id = s.write (Frame.container (toString g.cell)) := by
  have hfind : m.group? g.id = some g := Description.find?_of_nodup hm.groups_nodup hg
  rw [emptyContainer, hfind]
  rfl

/-- With enough fuel and nothing inside visited before, a container is complete. -/
theorem containerOf_eq {fuel : Nat} {g : Model.Group α} {visited : List String} (hg : g ∈ m.groups)
    (hfuel : m.groups.length ≤ fuel + groupDepth m g.id)
    (hnew : ∀ h ∈ m.within g, h.id ∉ visited) :
    containerOf m s fuel visited g.id =
      (containerFor m s g, ((m.within g).map (·.id)).reverse ++ visited) := by
  induction fuel generalizing g visited with
  | zero =>
    have hshallow := hm.shallow g hg
    omega
  | succ fuel ih =>
    have hself : ¬ visited.contains g.id = true := by
      simpa using hnew g (hm.self_mem_within hg)
    obtain ⟨hnodup, hapart⟩ := hm.new_inside hg hnew
    have hinner : containersWith (containerOf m s fuel) (g.id :: visited)
        ((m.innerGroups g).map (·.id)) =
        ((m.innerGroups g).map (containerFor m s),
          (((m.innerGroups g).flatMap m.within).map (·.id)).reverse ++ g.id :: visited) := by
      refine containersWith_eq m s (fun h hh visited hnew => ?_) hnodup hapart
      have hdeeper := hm.deeper g hg h hh
      exact ih (mem_innerGroups.mp hh).1 (by omega) hnew
    unfold containerOf
    rw [if_neg hself]
    dsimp only
    rw [show (m.groups.filter fun h => h.parent = some g.id) = m.innerGroups g from rfl, hinner,
      emptyContainer_eq hm s hg, containerFor_eq hm s hg, hm.within_eq hg, List.map_cons,
      List.reverse_cons, List.append_assoc]
    rfl

/-- Everything inside the container of a group: the containers of the groups in
it, each with its leaves. -/
theorem perm_inside_containerFor {g : Model.Group α} (hg : g ∈ m.groups) :
    (containerFor m s g :: (containerFor m s g).inside).Perm
      ((m.within g).flatMap fun h => containerFor m s h :: (m.members h).map leafOf) := by
  refine hm.induction_outwards
    (P := fun g => (containerFor m s g :: (containerFor m s g).inside).Perm
      ((m.within g).flatMap fun h => containerFor m s h :: (m.members h).map leafOf))
    (fun g hg ih => ?_) g hg
  have hchildren : (containerFor m s g).children =
      (m.innerGroups g).map (containerFor m s) ++ (m.members g).map leafOf := by
    rw [containerFor_eq hm s hg]
  have hinner : ((m.innerGroups g).flatMap fun h =>
      containerFor m s h :: (containerFor m s h).inside).Perm
      (((m.innerGroups g).flatMap m.within).flatMap fun h =>
        containerFor m s h :: (m.members h).map leafOf) := by
    rw [List.flatMap_assoc]
    exact List.Perm.flatMap_left _ ih
  rw [Frame.inside_eq, hchildren, List.flatMap_append, List.flatMap_map, flatMap_leaves,
    hm.within_eq hg, List.flatMap_cons, List.cons_append]
  exact ((hinner.append_right _).trans List.perm_append_comm).cons _

end

/-! ## The request -/

section

variable {m : Model α} (hm : m.Nested) (method : Method) (choice : LayoutChoice α)
  (settings : LayoutSettings α)
include hm

/-- The outermost groups and the nodes outside all groups are hung up directly. -/
theorem children_request :
    (request m method choice settings).children =
      m.outerGroups.map (containerFor m (containerSettings method choice settings.groupPadding)) ++
        m.outerNodes.map leafOf := by
  have hgroups : (m.groups.filter fun g => !isKnown m g.parent) = m.outerGroups :=
    List.filter_congr fun g hg => not_isKnown (hm.parent g hg)
  have hnodes : (m.nodes.filter fun n => !isKnown m n.group) = m.outerNodes :=
    List.filter_congr fun n hn => not_isKnown (hm.member n hn)
  have houter : m.outerGroups ⊆ m.groups := List.filter_subset_self _
  have hnodup : ((m.outerGroups.flatMap m.within).map (·.id)).Nodup :=
    (hm.perm_groups.map _).nodup_iff.mpr hm.groups_nodup
  have hone : ∀ g ∈ m.outerGroups, ∀ visited, (∀ h ∈ m.within g, h.id ∉ visited) →
      containerOf m (containerSettings method choice settings.groupPadding)
          (m.groups.length + 1) visited g.id =
        (containerFor m (containerSettings method choice settings.groupPadding) g,
          ((m.within g).map (·.id)).reverse ++ visited) :=
    fun g hg visited hnew => containerOf_eq hm _ (houter hg) (by omega) hnew
  unfold request
  dsimp only
  rw [hgroups, hnodes, containersWith_eq m _ hone hnodup fun _ _ => List.not_mem_nil]

/-- Every group and every node is one frame inside the request. -/
theorem perm_inside_request :
    (request m method choice settings).inside.Perm
      (m.groups.map (containerFor m (containerSettings method choice settings.groupPadding)) ++
        m.nodes.map leafOf) := by
  generalize hs : containerSettings method choice settings.groupPadding = s
  have hgroups : (m.outerGroups.flatMap fun g =>
      containerFor m s g :: (containerFor m s g).inside).Perm
      (m.groups.flatMap fun g => containerFor m s g :: (m.members g).map leafOf) := by
    refine (List.Perm.flatMap_left _ fun g hg =>
      perm_inside_containerFor hm s (mem_outerGroups.mp hg).1).trans ?_
    rw [← List.flatMap_assoc]
    exact hm.perm_groups.flatMap_right _
  have hsplit : (m.groups.flatMap fun g => containerFor m s g :: (m.members g).map leafOf).Perm
      (m.groups.map (containerFor m s) ++ (m.groups.flatMap m.members).map leafOf) := by
    rw [List.map_flatMap]
    exact (List.map_append_flatMap_perm _ _ _).symm
  rw [Frame.inside_eq, children_request hm, hs, List.flatMap_append, List.flatMap_map,
    flatMap_leaves]
  refine ((hgroups.trans hsplit).append_right _).trans ?_
  rw [List.append_assoc, ← List.map_append]
  exact (hm.perm_nodes.map _).append_left _

/-- Inside the request, groups and nodes are named by their cells. -/
theorem perm_names_request :
    (request m method choice settings).names.Perm (m.entityCells.map toString) := by
  have hperm := (perm_inside_request hm method choice settings).map (·.id)
  rw [List.map_append, List.map_map, List.map_map] at hperm
  have hgroups : m.groups.map ((·.id) ∘
      containerFor m (containerSettings method choice settings.groupPadding)) =
      m.groups.map fun g => toString g.cell := by
    refine List.map_congr_left fun g hg => ?_
    rw [Function.comp_apply, containerFor_eq hm _ hg]
    rfl
  have hnodes : m.nodes.map ((·.id) ∘ leafOf) = m.nodes.map fun n => toString n.cell :=
    List.map_congr_left fun n _ => leafOf_id n
  rw [hgroups, hnodes] at hperm
  rw [entityCells, List.map_append, List.map_map, List.map_map]
  exact hperm

end

end Layout

end DiagramPress
