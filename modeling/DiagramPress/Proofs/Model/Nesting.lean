-- The forest of groups in a model. Where references lead somewhere and nesting
-- ends, every group and every node lies at exactly one place in the forest.
import DiagramPress.Layout.Adapter
import DiagramPress.Proofs.Description.Depth
import DiagramPress.Proofs.Model.Numbering

namespace DiagramPress

open Layout

namespace Model

variable {α : Type}

/-! ## Who lies directly where -/

/-- The groups outside all others. -/
def outerGroups (m : Model α) : List (Group α) := m.groups.filter fun g => g.parent = none

/-- The nodes outside all groups. -/
def outerNodes (m : Model α) : List (Node α) := m.nodes.filter fun n => n.group = none

/-- The groups directly inside a group. -/
def innerGroups (m : Model α) (g : Group α) : List (Group α) :=
  m.groups.filter fun h => h.parent = some g.id

/-- The nodes directly inside a group. -/
def members (m : Model α) (g : Group α) : List (Node α) :=
  m.nodes.filter fun n => n.group = some g.id

section

variable {m : Model α} {g h : Group α} {n : Node α}

theorem mem_outerGroups : g ∈ m.outerGroups ↔ g ∈ m.groups ∧ g.parent = none := by
  simp [outerGroups]

theorem mem_innerGroups : h ∈ m.innerGroups g ↔ h ∈ m.groups ∧ h.parent = some g.id := by
  simp [innerGroups]

theorem mem_outerNodes : n ∈ m.outerNodes ↔ n ∈ m.nodes ∧ n.group = none := by
  simp [outerNodes]

theorem mem_members : n ∈ m.members g ↔ n ∈ m.nodes ∧ n.group = some g.id := by
  simp [members]

end

/-- The ids are distinct, references lead to groups that are there, and a group
is one step deeper than the one around it. -/
structure Nested (m : Model α) : Prop where
  groups_nodup : (m.groups.map (·.id)).Nodup
  nodes_nodup : (m.nodes.map (·.id)).Nodup
  member : ∀ n ∈ m.nodes, ∀ id, n.group = some id → ∃ g ∈ m.groups, g.id = id
  parent : ∀ g ∈ m.groups, ∀ id, g.parent = some id → ∃ p ∈ m.groups, p.id = id
  shallow : ∀ g ∈ m.groups, groupDepth m g.id < m.groups.length
  outermost : ∀ g ∈ m.outerGroups, groupDepth m g.id = 0
  deeper : ∀ g ∈ m.groups, ∀ h ∈ m.innerGroups g, groupDepth m h.id = groupDepth m g.id + 1

/-! ## Models of descriptions that hang together -/

theorem chainLength_of_depth {m : Model α} {groups : List (Description.Group α)}
    (hparent : ∀ id, (m.group? id).bind (·.parent) = Description.parentOf? groups id)
    {id : String} {k fuel : Nat} (hk : Description.Depth groups id k) (hfuel : k ≤ fuel) :
    chainLength m fuel (Description.parentOf? groups id) = k := by
  induction hk generalizing fuel with
  | outermost h =>
    rw [h]
    cases fuel <;> rfl
  | inside h _ ih =>
    obtain ⟨fuel, rfl⟩ : ∃ fuel', fuel = fuel' + 1 := ⟨fuel - 1, by omega⟩
    rw [h, chainLength, hparent, ih (by omega)]

variable [Scalar α] [NumberText α]

theorem parentOf?_build {d : Description α} (h : d.HangsTogether) (tables : Tables α)
    (settings : ModelSettings α) (id : String) :
    ((d.build tables settings).1.group? id).bind (·.parent) =
      Description.parentOf? d.groups id := by
  rw [Description.parentOf?_eq h.groups_nodup, group?, Description.groups_build, List.find?_map,
    Option.bind_map]
  rfl

theorem groupDepth_build {d : Description α} (h : d.HangsTogether) (tables : Tables α)
    (settings : ModelSettings α) {id : String} {k : Nat} (hk : Description.Depth d.groups id k)
    (hlt : k < d.groups.length) : groupDepth (d.build tables settings).1 id = k := by
  have hlength : (d.build tables settings).1.groups.length = d.groups.length := by
    rw [Description.groups_build, List.length_map]
  rw [groupDepth, parentOf?_build h, chainLength_of_depth (parentOf?_build h tables settings) hk]
  omega

/-- A group of the model comes from one of the description. -/
theorem depth_of_mem_build {d : Description α} (h : d.HangsTogether) {tables : Tables α}
    {settings : ModelSettings α} {g : Group α} (hg : g ∈ (d.build tables settings).1.groups) :
    Description.parentOf? d.groups g.id = g.parent ∧
      ∃ k, Description.Depth d.groups g.id k ∧ k < d.groups.length := by
  rw [Description.groups_build] at hg
  obtain ⟨g', hg', rfl⟩ := List.mem_map.mp hg
  refine ⟨?_, h.exists_depth hg'⟩
  have hfind := Description.find?_of_nodup h.groups_nodup hg'
  rw [Description.parentOf?_eq h.groups_nodup]
  exact congrArg (Option.bind · (·.parent)) hfind

theorem nested_build {d : Description α} (h : d.HangsTogether) (tables : Tables α)
    (settings : ModelSettings α) : (d.build tables settings).1.Nested := by
  have hgroups := Description.groups_build d tables settings
  have hnodes := Description.nodes_build d tables settings
  have hgroupIds := Description.groupIds_build d tables settings
  have hnodeIds := Description.nodeIds_build d tables settings
  have known {id : String} (hid : id ∈ d.groupIds) :
      ∃ g ∈ (d.build tables settings).1.groups, g.id = id :=
    List.mem_map.mp (hgroupIds ▸ hid)
  refine
    { groups_nodup := hgroupIds ▸ h.groups_nodup
      nodes_nodup := hnodeIds ▸ h.nodes_nodup
      member := fun n hn id hid => ?_
      parent := fun g hg id hid => ?_
      shallow := fun g hg => ?_
      outermost := fun g hg => ?_
      deeper := fun g _ inner hinner => ?_ }
  · rw [hnodes] at hn
    obtain ⟨⟨n', cell⟩, hn', rfl⟩ := List.mem_map.mp hn
    have hmem : n' ∈ d.nodes := List.fst_mem_of_mem_zipIdx hn'
    exact known (h.member n' hmem id hid)
  · rw [hgroups] at hg
    obtain ⟨g', hg', rfl⟩ := List.mem_map.mp hg
    exact known (h.parent g' hg' id hid)
  · obtain ⟨-, k, hk, hlt⟩ := depth_of_mem_build h hg
    rw [groupDepth_build h tables settings hk hlt, hgroups, List.length_map]
    exact hlt
  · obtain ⟨hg, hparent⟩ := mem_outerGroups.mp hg
    obtain ⟨hparent', k, hk, hlt⟩ := depth_of_mem_build h hg
    rw [groupDepth_build h tables settings hk hlt]
    cases hk with
    | outermost => rfl
    | inside hsome => rw [hsome, hparent] at hparent'; cases hparent'
  · obtain ⟨hinner, hparent⟩ := mem_innerGroups.mp hinner
    obtain ⟨hparent', k, hk, hlt⟩ := depth_of_mem_build h hinner
    rw [groupDepth_build h tables settings hk hlt]
    cases hk with
    | outermost hnone => rw [hnone, hparent] at hparent'; cases hparent'
    | @inside _ parent k hsome hk =>
      obtain rfl : parent = g.id := by
        rw [hsome, hparent] at hparent'
        exact Option.some.inj hparent'
      rw [groupDepth_build h tables settings hk (by omega)]

end Model

end DiagramPress
