-- What does not depend on places: models that differ in places only have the
-- same forest of groups, and their groups hang below the same cells.
import DiagramPress.Proofs.Model.Identifiers
import DiagramPress.Proofs.Model.Nesting

namespace DiagramPress

open Layout

namespace Model

variable {α : Type}

/-! ## Entries of the same model with other places -/

section

variable {m m' : Model α} (h : m'.withoutPlaces = m.withoutPlaces)
include h

/-- A group of one model is a group of the other one as well, up to its place. -/
theorem exists_group_of_mem {g : Group α} (hg : g ∈ m'.groups) : ∃ g' ∈ m.groups,
    g'.id = g.id ∧ g'.parent = g.parent ∧ g'.cell = g.cell ∧ g'.parentCell = g.parentCell := by
  have hgroups : m'.groups.map Group.withoutPlace = m.groups.map Group.withoutPlace :=
    congrArg groups h
  obtain ⟨g', hg', hsame⟩ := List.mem_map.mp (hgroups ▸ List.mem_map_of_mem hg)
  obtain ⟨hid, hcell, -, hparent, hparentCell, -⟩ := Group.mk.inj hsame
  exact ⟨g', hg', hid, hparent, hcell, hparentCell⟩

theorem exists_node_of_mem {n : Node α} (hn : n ∈ m'.nodes) :
    ∃ n' ∈ m.nodes, n'.id = n.id ∧ n'.group = n.group := by
  have hnodes : m'.nodes.map Node.withoutPlace = m.nodes.map Node.withoutPlace := congrArg nodes h
  obtain ⟨n', hn', hsame⟩ := List.mem_map.mp (hnodes ▸ List.mem_map_of_mem hn)
  obtain ⟨hid, -, -, -, hgroup, -⟩ := Node.mk.inj hsame
  exact ⟨n', hn', hid, hgroup⟩

/-! ## The forest of groups -/

theorem parentOf_group?_congr (id : String) :
    (m'.group? id).bind (·.parent) = (m.group? id).bind (·.parent) := by
  have hplaces (m : Model α) :
      (m.withoutPlaces.group? id).bind (·.parent) = (m.group? id).bind (·.parent) := by
    rw [group?, withoutPlaces, List.find?_map, Option.bind_map]
    rfl
  rw [← hplaces m', h, hplaces m]

theorem length_groups_congr : m'.groups.length = m.groups.length := by
  have hlength := congrArg List.length (group_ids_congr h)
  simpa only [List.length_map] using hlength

theorem groupDepth_congr (id : String) : groupDepth m' id = groupDepth m id := by
  have hchain (fuel : Nat) (parent : Option String) :
      chainLength m' fuel parent = chainLength m fuel parent := by
    induction fuel generalizing parent with
    | zero => rfl
    | succ fuel ih =>
      cases parent with
      | none => rfl
      | some id => rw [chainLength, chainLength, parentOf_group?_congr h, ih]
  rw [groupDepth, groupDepth, length_groups_congr h, parentOf_group?_congr h, hchain]

theorem exists_group_with_id {id : String} (hm : ∃ g ∈ m.groups, g.id = id) :
    ∃ g ∈ m'.groups, g.id = id := by
  obtain ⟨g, hg, rfl⟩ := hm
  obtain ⟨g', hg', hid, -⟩ := exists_group_of_mem h.symm hg
  exact ⟨g', hg', hid⟩

theorem Nested.congr (hm : m.Nested) : m'.Nested where
  groups_nodup := group_ids_congr h ▸ hm.groups_nodup
  nodes_nodup := by
    have hids : m'.nodes.map (·.id) = m.nodes.map (·.id) := map_nodes_congr h fun _ => rfl
    exact hids ▸ hm.nodes_nodup
  member n hn id hid := by
    obtain ⟨n', hn', -, hgroup⟩ := exists_node_of_mem h hn
    exact exists_group_with_id h (hm.member n' hn' id (hgroup.trans hid))
  parent g hg id hid := by
    obtain ⟨g', hg', -, hparent, -⟩ := exists_group_of_mem h hg
    exact exists_group_with_id h (hm.parent g' hg' id (hparent.trans hid))
  shallow g hg := by
    obtain ⟨g', hg', hid, -⟩ := exists_group_of_mem h hg
    rw [groupDepth_congr h, length_groups_congr h, ← hid]
    exact hm.shallow g' hg'
  outermost g hg := by
    obtain ⟨hg, hnone⟩ := mem_outerGroups.mp hg
    obtain ⟨g', hg', hid, hparent, -⟩ := exists_group_of_mem h hg
    rw [groupDepth_congr h, ← hid]
    exact hm.outermost g' (mem_outerGroups.mpr ⟨hg', hparent.trans hnone⟩)
  deeper g hg inner hinner := by
    obtain ⟨hinner, hsome⟩ := mem_innerGroups.mp hinner
    obtain ⟨g', hg', hid, -⟩ := exists_group_of_mem h hg
    obtain ⟨inner', hinner', hid', hparent, -⟩ := exists_group_of_mem h hinner
    rw [groupDepth_congr h, groupDepth_congr h, ← hid, ← hid']
    exact hm.deeper g' hg' inner' (mem_innerGroups.mpr ⟨hinner', by rw [hparent, hsome, hid]⟩)

/-! ## Parents of groups -/

theorem hangsBelowParent_congr (hm : ∀ g ∈ m.groups, m.HangsBelowParent g) :
    ∀ g ∈ m'.groups, m'.HangsBelowParent g := by
  intro g hg
  obtain ⟨g', hg', -, hparent, -, hcell⟩ := exists_group_of_mem h hg
  rcases hm g' hg' with ⟨p, hp, hin, hat⟩ | ⟨hnone, hat⟩
  · obtain ⟨p', hp', hid, -, hcell', -⟩ := exists_group_of_mem h.symm hp
    exact .inl ⟨p', hp', by rw [← hparent, hin, hid], by rw [← hcell, hat, hcell']⟩
  · refine .inr ⟨fun p hp hin => ?_, by rw [← hcell, hat]⟩
    obtain ⟨p', hp', hid, -⟩ := exists_group_of_mem h hp
    exact hnone p' hp' (by rw [hparent, hin, hid])

end

end Model

end DiagramPress
