-- How deep groups are nested. Without circles, the way outwards from a group
-- ends, and it is shorter than the list of all groups.
import DiagramPress.Proofs.Description.Accepted
import Mathlib.Data.List.Nodup
import Mathlib.Data.List.Perm.Subperm

namespace DiagramPress

namespace Description

variable {α : Type}

/-! ## Entries by their ids -/

/-- With distinct ids, the first entry with an id is the only one. -/
theorem find?_of_nodup {β : Type} {key : β → String} {l : List β} {x : β}
    (h : (l.map key).Nodup) (hx : x ∈ l) : (l.find? fun y => key y = key x) = some x := by
  cases hfind : l.find? fun y => key y = key x with
  | none =>
    have hnot := List.find?_eq_none.mp hfind x hx
    simp at hnot
  | some y =>
    have hkey : key y = key x := by simpa using List.find?_some hfind
    rw [List.inj_on_of_nodup_map h (List.mem_of_find?_eq_some hfind) hx hkey]

/-- With distinct ids, it does not matter from which end an entry is looked for. -/
theorem find?_reverse_of_nodup {β : Type} {key : β → String} {l : List β}
    (h : (l.map key).Nodup) (id : String) :
    (l.reverse.find? fun y => key y = id) = l.find? fun y => key y = id := by
  have hreverse : (l.reverse.map key).Nodup := by
    rw [List.map_reverse]
    exact List.nodup_reverse.mpr h
  by_cases hid : ∃ x ∈ l, key x = id
  · obtain ⟨x, hx, rfl⟩ := hid
    rw [find?_of_nodup h hx, find?_of_nodup hreverse (List.mem_reverse.mpr hx)]
  · have hnone (l' : List β) (hsub : l' ⊆ l) : (l'.find? fun y => key y = id) = none :=
      List.find?_eq_none.mpr fun y hy hkey => hid ⟨y, hsub hy, by simpa using hkey⟩
    have hsame : l.reverse ⊆ l := List.reverse_subset.mpr (List.Subset.refl l)
    rw [hnone l (List.Subset.refl l), hnone l.reverse hsame]

theorem parentOf?_eq {groups : List (Description.Group α)} (h : (groups.map (·.id)).Nodup)
    (id : String) : parentOf? groups id = (groups.find? fun g => g.id = id).bind (·.parent) := by
  rw [parentOf?, find?_reverse_of_nodup h]

/-! ## Depths -/

/-- The group with this id lies in `k` others. -/
inductive Depth (groups : List (Description.Group α)) : String → Nat → Prop
  | outermost {id : String} (h : parentOf? groups id = none) : Depth groups id 0
  | inside {id parent : String} {k : Nat} (h : parentOf? groups id = some parent)
      (hk : Depth groups parent k) : Depth groups id (k + 1)

/-- A walk without a circle ends, as it meets only new ids: the visited ones and
those in front of it are distinct. -/
theorem exists_depth {groups : List (Description.Group α)} {ids : List String}
    (hclosed : ∀ id ∈ ids, ∀ parent, parentOf? groups id = some parent → parent ∈ ids)
    {fuel : Nat} {visited : List String} {id : String}
    (h : circleFrom groups fuel visited id = none) (hnodup : visited.Nodup)
    (hvisited : visited ⊆ ids) (hid : id ∈ ids) (hfuel : ids.length < fuel + visited.length) :
    ∃ k, Depth groups id k ∧ k + visited.length < ids.length := by
  induction fuel generalizing visited id with
  | zero =>
    have hle := (List.subperm_of_subset hnodup hvisited).length_le
    omega
  | succ fuel ih =>
    unfold circleFrom at h
    split at h
    · cases h
    · rename_i hnew
      have hnodup' : (id :: visited).Nodup := List.nodup_cons.mpr ⟨by simpa using hnew, hnodup⟩
      have hvisited' : id :: visited ⊆ ids := List.cons_subset.mpr ⟨hid, hvisited⟩
      have hle := (List.subperm_of_subset hnodup' hvisited').length_le
      rw [List.length_cons] at hle
      cases hparent : parentOf? groups id with
      | none => exact ⟨0, .outermost hparent, by omega⟩
      | some parent =>
        rw [hparent] at h
        obtain ⟨k, hk, hlt⟩ := ih h hnodup' hvisited' (hclosed id hid parent hparent)
          (by rw [List.length_cons]; omega)
        rw [List.length_cons] at hlt
        exact ⟨k + 1, .inside hparent hk, by omega⟩

/-- Every group of an accepted description lies in fewer groups than there are. -/
theorem HangsTogether.exists_depth {d : Description α} (h : d.HangsTogether)
    {g : Description.Group α} (hg : g ∈ d.groups) :
    ∃ k, Depth d.groups g.id k ∧ k < d.groups.length := by
  have hclosed : ∀ id ∈ d.groupIds, ∀ parent, parentOf? d.groups id = some parent →
      parent ∈ d.groupIds := by
    intro id hid parent hparent
    obtain ⟨g, hg, rfl⟩ := List.mem_map.mp hid
    rw [parentOf?_eq h.groups_nodup, find?_of_nodup h.groups_nodup hg] at hparent
    exact h.parent g hg parent hparent
  have hwalk := List.findSome?_eq_none_iff.mp h.uncircled g hg
  have hlength : d.groupIds.length = d.groups.length := List.length_map _
  obtain ⟨k, hk, hlt⟩ := Description.exists_depth hclosed hwalk List.nodup_nil
    (List.nil_subset _) (List.mem_map_of_mem hg) (by rw [hlength]; simp)
  exact ⟨k, hk, by simpa [hlength] using hlt⟩

end Description

end DiagramPress
