-- Walking through the forest of groups from the inside to the outside. Listed
-- this way, every group and every node of a nested model comes up once.
import DiagramPress.Proofs.Model.Nesting

namespace DiagramPress

open Layout

namespace Model

variable {α β : Type}

/-! ## From the inside to the outside -/

/-- What `step` makes of a group and of the values of the groups directly inside,
at most `fuel` steps down. -/
def foldUpTo (m : Model α) (step : Group α → List β → β) : Nat → Group α → β
  | 0, g => step g []
  | fuel + 1, g => step g ((m.innerGroups g).map (foldUpTo m step fuel))

/-- What `step` makes of a group and of all groups inside. -/
def fold (m : Model α) (step : Group α → List β → β) (g : Group α) : β :=
  foldUpTo m step (m.groups.length - groupDepth m g.id) g

namespace Nested

variable {m : Model α} (hm : m.Nested)
include hm

theorem fold_eq (step : Group α → List β → β) {g : Group α} (hg : g ∈ m.groups) :
    m.fold step g = step g ((m.innerGroups g).map (m.fold step)) := by
  have hshallow := hm.shallow g hg
  obtain ⟨fuel, hfuel⟩ : ∃ fuel, m.groups.length - groupDepth m g.id = fuel + 1 :=
    ⟨m.groups.length - groupDepth m g.id - 1, by omega⟩
  have hinner : (m.innerGroups g).map (foldUpTo m step fuel) =
      (m.innerGroups g).map (m.fold step) := by
    apply List.map_congr_left
    intro h hh
    have hdeeper := hm.deeper g hg h hh
    rw [fold, show m.groups.length - groupDepth m h.id = fuel by omega]
  rw [fold, hfuel, foldUpTo, hinner]

/-- What holds of a group as soon as it holds of those directly inside holds of all. -/
theorem induction_outwards {P : Group α → Prop}
    (step : ∀ g ∈ m.groups, (∀ h ∈ m.innerGroups g, P h) → P g) : ∀ g ∈ m.groups, P g := by
  have hwalk (room : Nat) : ∀ g ∈ m.groups, m.groups.length - groupDepth m g.id = room → P g := by
    induction room using Nat.strongRecOn with
    | ind room ih =>
      intro g hg hroom
      refine step g hg fun h hh => ih _ ?_ h (mem_innerGroups.mp hh).1 rfl
      have hshallow := hm.shallow g hg
      have hdeeper := hm.deeper g hg h hh
      omega
  exact fun g hg => hwalk _ g hg rfl

/-- What holds of the outermost groups and passes on to inner groups holds of all. -/
theorem induction_inwards {P : Group α → Prop} (outer : ∀ g ∈ m.outerGroups, P g)
    (step : ∀ g ∈ m.groups, P g → ∀ h ∈ m.innerGroups g, P h) : ∀ g ∈ m.groups, P g := by
  have hwalk (depth : Nat) : ∀ g ∈ m.groups, groupDepth m g.id = depth → P g := by
    induction depth using Nat.strongRecOn with
    | ind depth ih =>
      intro g hg hdepth
      cases hparent : g.parent with
      | none => exact outer g (mem_outerGroups.mpr ⟨hg, hparent⟩)
      | some id =>
        obtain ⟨p, hp, rfl⟩ := hm.parent g hg id hparent
        have hinner := mem_innerGroups.mpr ⟨hg, hparent⟩
        have hdeeper := hm.deeper p hp g hinner
        exact step p hp (ih _ (by omega) p hp rfl) g hinner
  exact fun g hg => hwalk _ g hg rfl

end Nested

/-! ## Groups inside groups -/

/-- The group and all groups inside, outer groups before inner ones. -/
def within (m : Model α) : Group α → List (Group α) := m.fold fun g inner => g :: inner.flatten

namespace Nested

variable {m : Model α} (hm : m.Nested)
include hm

theorem within_eq {g : Group α} (hg : g ∈ m.groups) :
    m.within g = g :: (m.innerGroups g).flatMap m.within := by
  rw [within, hm.fold_eq _ hg, List.flatMap_def]

theorem self_mem_within {g : Group α} (hg : g ∈ m.groups) : g ∈ m.within g := by
  rw [hm.within_eq hg]
  exact List.mem_cons_self

theorem within_subset {g : Group α} (hg : g ∈ m.groups) : m.within g ⊆ m.groups := by
  refine hm.induction_outwards (P := fun g => m.within g ⊆ m.groups) (fun g hg ih => ?_) g hg
  rw [hm.within_eq hg]
  refine List.cons_subset.mpr ⟨hg, fun h hh => ?_⟩
  obtain ⟨inner, hinner, hmem⟩ := List.mem_flatMap.mp hh
  exact ih inner hinner hmem

/-- What lies in a group is the group itself or directly inside one of those in it. -/
theorem eq_or_inner_of_mem_within {g h : Group α} (hg : g ∈ m.groups) (hh : h ∈ m.within g) :
    h = g ∨ ∃ p ∈ m.within g, h ∈ m.innerGroups p := by
  refine hm.induction_outwards
    (P := fun g => h ∈ m.within g → h = g ∨ ∃ p ∈ m.within g, h ∈ m.innerGroups p)
    (fun g hg ih hh => ?_) g hg hh
  rw [hm.within_eq hg] at hh
  rcases List.mem_cons.mp hh with rfl | hh
  · exact .inl rfl
  · obtain ⟨inner, hinner, hmem⟩ := List.mem_flatMap.mp hh
    refine .inr ?_
    rcases ih inner hinner hmem with rfl | ⟨p, hp, hinside⟩
    · exact ⟨g, hm.self_mem_within hg, hinner⟩
    · refine ⟨p, ?_, hinside⟩
      rw [hm.within_eq hg]
      exact List.mem_cons_of_mem _ (List.mem_flatMap.mpr ⟨inner, hinner, hp⟩)

theorem inner_mem_within {g p h : Group α} (hg : g ∈ m.groups) (hp : p ∈ m.within g)
    (hh : h ∈ m.innerGroups p) : h ∈ m.within g := by
  refine hm.induction_outwards (P := fun g => p ∈ m.within g → h ∈ m.within g)
    (fun g hg ih hp => ?_) g hg hp
  rw [hm.within_eq hg] at hp ⊢
  refine List.mem_cons_of_mem _ (List.mem_flatMap.mpr ?_)
  rcases List.mem_cons.mp hp with rfl | hp
  · exact ⟨h, hh, hm.self_mem_within (mem_innerGroups.mp hh).1⟩
  · obtain ⟨inner, hinner, hmem⟩ := List.mem_flatMap.mp hp
    exact ⟨inner, hinner, ih inner hinner hmem⟩

theorem depth_le_of_mem_within {g h : Group α} (hg : g ∈ m.groups) (hh : h ∈ m.within g) :
    groupDepth m g.id ≤ groupDepth m h.id := by
  refine hm.induction_outwards
    (P := fun g => h ∈ m.within g → groupDepth m g.id ≤ groupDepth m h.id)
    (fun g hg ih hh => ?_) g hg hh
  rw [hm.within_eq hg] at hh
  rcases List.mem_cons.mp hh with rfl | hh
  · exact Nat.le_refl _
  · obtain ⟨inner, hinner, hmem⟩ := List.mem_flatMap.mp hh
    have hdeeper := hm.deeper g hg inner hinner
    have hle := ih inner hinner hmem
    omega

theorem eq_of_mem_within_of_depth {g h : Group α} (hg : g ∈ m.groups) (hh : h ∈ m.within g)
    (hdepth : groupDepth m h.id ≤ groupDepth m g.id) : h = g := by
  rcases hm.eq_or_inner_of_mem_within hg hh with rfl | ⟨p, hp, hinner⟩
  · rfl
  · have hle := hm.depth_le_of_mem_within hg hp
    have hdeeper := hm.deeper p (hm.within_subset hg hp) h hinner
    omega

/-- A group is in `g` only together with the group around it, unless it is `g`. -/
theorem eq_or_outer_mem_within {g p h : Group α} (hg : g ∈ m.groups) (hp : p ∈ m.groups)
    (hinner : h ∈ m.innerGroups p) (hh : h ∈ m.within g) : h = g ∨ p ∈ m.within g := by
  rcases hm.eq_or_inner_of_mem_within hg hh with rfl | ⟨q, hq, hinner'⟩
  · exact .inl rfl
  · have hid : some p.id = some q.id :=
      (mem_innerGroups.mp hinner).2.symm.trans (mem_innerGroups.mp hinner').2
    obtain rfl : p = q := List.inj_on_of_nodup_map hm.groups_nodup hp (hm.within_subset hg hq)
      (Option.some.inj hid)
    exact .inr hq

/-- Of the groups at one depth, only one has a given group in it. -/
theorem eq_of_mem_within {a b h : Group α} (ha : a ∈ m.groups) (hb : b ∈ m.groups)
    (hdepth : groupDepth m a.id = groupDepth m b.id) (hha : h ∈ m.within a)
    (hhb : h ∈ m.within b) : a = b := by
  have hh := hm.within_subset ha hha
  refine hm.induction_inwards (P := fun h => h ∈ m.within a → h ∈ m.within b → a = b)
    (fun h hh hha hhb => ?_) (fun p hp ih h hinner hha hhb => ?_) h hh hha hhb
  · have hzero := hm.outermost h hh
    rw [← hm.eq_of_mem_within_of_depth ha hha (by omega),
      ← hm.eq_of_mem_within_of_depth hb hhb (by omega)]
  · -- Both ways outwards from `h` lead on to `p`, unless one of them ends here.
    rcases hm.eq_or_outer_mem_within ha hp hinner hha with rfl | hpa
    · exact hm.eq_of_mem_within_of_depth hb hhb (by omega)
    · rcases hm.eq_or_outer_mem_within hb hp hinner hhb with rfl | hpb
      · exact (hm.eq_of_mem_within_of_depth ha hha (by omega)).symm
      · exact ih hpa hpb

/-- Groups at one depth have nothing in common, so listing them all repeats nothing. -/
theorem nodup_flatMap_within {l : List (Group α)} {depth : Nat} (hl : l ⊆ m.groups)
    (hnodup : l.Nodup) (hdepth : ∀ g ∈ l, groupDepth m g.id = depth)
    (heach : ∀ g ∈ l, (m.within g).Nodup) : (l.flatMap m.within).Nodup := by
  refine List.nodup_flatMap.mpr ⟨heach, hnodup.imp_of_mem fun {a b} ha hb hne h hha hhb => hne ?_⟩
  exact hm.eq_of_mem_within (hl ha) (hl hb) ((hdepth a ha).trans (hdepth b hb).symm) hha hhb

theorem nodup_groups : m.groups.Nodup := hm.groups_nodup.of_map

theorem nodup_within {g : Group α} (hg : g ∈ m.groups) : (m.within g).Nodup := by
  refine hm.induction_outwards (P := fun g => (m.within g).Nodup) (fun g hg ih => ?_) g hg
  rw [hm.within_eq hg]
  refine List.nodup_cons.mpr ⟨fun hmem => ?_, ?_⟩
  · obtain ⟨inner, hinner, hmem⟩ := List.mem_flatMap.mp hmem
    have hle := hm.depth_le_of_mem_within (mem_innerGroups.mp hinner).1 hmem
    have hdeeper := hm.deeper g hg inner hinner
    omega
  · exact hm.nodup_flatMap_within (List.filter_subset_self _) (hm.nodup_groups.filter _)
      (hm.deeper g hg) ih

theorem nodup_ids {groups : List (Group α)} (hsub : groups ⊆ m.groups) (h : groups.Nodup) :
    (groups.map (·.id)).Nodup :=
  h.map_on fun _ ha _ hb hid => List.inj_on_of_nodup_map hm.groups_nodup (hsub ha) (hsub hb) hid

theorem nodup_ids_within {g : Group α} (hg : g ∈ m.groups) : ((m.within g).map (·.id)).Nodup :=
  hm.nodup_ids (hm.within_subset hg) (hm.nodup_within hg)

/-- Below a group the ids are distinct, and those not met before are no more
met when the group itself is. -/
theorem new_inside {g : Group α} {visited : List String} (hg : g ∈ m.groups)
    (hnew : ∀ h ∈ m.within g, h.id ∉ visited) :
    (((m.innerGroups g).flatMap m.within).map (·.id)).Nodup ∧
      ∀ h ∈ (m.innerGroups g).flatMap m.within, h.id ∉ g.id :: visited := by
  have hnodup := hm.nodup_ids_within hg
  rw [hm.within_eq hg, List.map_cons, List.nodup_cons] at hnodup
  refine ⟨hnodup.2, fun h hh hmem => ?_⟩
  rcases List.mem_cons.mp hmem with hid | hmem
  · exact hnodup.1 (hid ▸ List.mem_map_of_mem hh)
  · refine hnew h ?_ hmem
    rw [hm.within_eq hg]
    exact List.mem_cons_of_mem _ hh

/-! ## Every group and every node once -/

/-- The groups inside the outermost ones are all groups, each once. -/
theorem perm_groups : (m.outerGroups.flatMap m.within).Perm m.groups := by
  have houter : m.outerGroups ⊆ m.groups := List.filter_subset_self _
  have hnodup := hm.nodup_flatMap_within houter (hm.nodup_groups.filter _) hm.outermost
    fun g hg => hm.nodup_within (houter hg)
  refine (List.perm_ext_iff_of_nodup hnodup hm.nodup_groups).mpr fun g => ⟨fun hg => ?_, ?_⟩
  · obtain ⟨top, htop, hmem⟩ := List.mem_flatMap.mp hg
    exact hm.within_subset (houter htop) hmem
  · refine hm.induction_inwards (fun g hg => ?_) (fun p hp ih g hinner => ?_) g
    · exact List.mem_flatMap.mpr ⟨g, hg, hm.self_mem_within (houter hg)⟩
    · obtain ⟨top, htop, hmem⟩ := List.mem_flatMap.mp ih
      exact List.mem_flatMap.mpr ⟨top, htop, hm.inner_mem_within (houter htop) hmem hinner⟩

/-- The members of all groups and the nodes outside are all nodes, each once. -/
theorem perm_nodes : (m.groups.flatMap m.members ++ m.outerNodes).Perm m.nodes := by
  have hnodes : m.nodes.Nodup := hm.nodes_nodup.of_map
  have hmembers : (m.groups.flatMap m.members).Nodup := by
    refine List.nodup_flatMap.mpr ⟨fun g _ => hnodes.filter _, ?_⟩
    refine hm.nodup_groups.imp_of_mem fun {a b} ha hb hne n hna hnb => hne ?_
    have hid : some a.id = some b.id := (mem_members.mp hna).2.symm.trans (mem_members.mp hnb).2
    exact List.inj_on_of_nodup_map hm.groups_nodup ha hb (Option.some.inj hid)
  have hnodup : (m.groups.flatMap m.members ++ m.outerNodes).Nodup := by
    refine hmembers.append (hnodes.filter _) fun n hn hout => ?_
    obtain ⟨g, -, hmem⟩ := List.mem_flatMap.mp hn
    have hsome := (mem_members.mp hmem).2
    rw [(mem_outerNodes.mp hout).2] at hsome
    cases hsome
  refine (List.perm_ext_iff_of_nodup hnodup hnodes).mpr fun n => ?_
  rw [List.mem_append, List.mem_flatMap, mem_outerNodes]
  constructor
  · rintro (⟨g, -, hn⟩ | ⟨hn, -⟩)
    · exact (mem_members.mp hn).1
    · exact hn
  · intro hn
    cases hgroup : n.group with
    | none => exact .inr ⟨hn, rfl⟩
    | some id =>
      obtain ⟨g, hg, rfl⟩ := hm.member n hn id hgroup
      exact .inl ⟨g, hg, mem_members.mpr ⟨hn, hgroup⟩⟩

end Nested

end Model

end DiagramPress
