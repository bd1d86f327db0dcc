-- For a type name without a shape the catalog suggests its nearest name: none if all
-- names are too far away, and of several that are equally near the first one in the
-- order of their bytes.
import DiagramPress.Catalog.Shapes
import DiagramPress.Proofs.Catalog.Edits
import DiagramPress.Proofs.Text.ByteOrder
import Mathlib.Data.List.Induction

namespace DiagramPress

/-! ## The keys of a map ascend -/

namespace TextMap

def keys (m : TextMap) : List String := m.entries.map (·.1)

theorem mem_keys_insert {m : TextMap} {key value name : String} :
    name ∈ (m.insert key value).keys ↔ name = key ∨ name ∈ m.keys := by
  obtain ⟨entries⟩ := m
  simp only [keys, insert]
  induction entries with
  | nil => simp [insertEntry]
  | cons entry rest ih =>
    obtain ⟨k, v⟩ := entry
    unfold insertEntry
    by_cases hlt : key < k
    · rw [if_pos hlt, List.map_cons, List.mem_cons]
    · rw [if_neg hlt]
      by_cases hkey : key = k
      · subst hkey
        rw [if_pos rfl, List.map_cons, List.map_cons, List.mem_cons, or_self_left]
      · rw [if_neg hkey, List.map_cons, List.map_cons, List.mem_cons, ih, List.mem_cons,
          or_left_comm]

theorem sorted_insert {m : TextMap} (h : m.keys.Pairwise (· < ·)) (key value : String) :
    (m.insert key value).keys.Pairwise (· < ·) := by
  obtain ⟨entries⟩ := m
  simp only [keys, insert] at h ⊢
  induction entries with
  | nil => simp [insertEntry]
  | cons entry rest ih =>
    obtain ⟨k, v⟩ := entry
    obtain ⟨hk, hrest⟩ := List.pairwise_cons.mp h
    unfold insertEntry
    by_cases hlt : key < k
    · rw [if_pos hlt]
      refine List.pairwise_cons.mpr ⟨fun other hother => ?_, h⟩
      rcases List.mem_cons.mp hother with rfl | hother
      · exact hlt
      · exact hlt.trans (hk other hother)
    · rw [if_neg hlt]
      by_cases hkey : key = k
      · subst hkey
        rw [if_pos rfl]
        exact List.pairwise_cons.mpr ⟨hk, hrest⟩
      · rw [if_neg hkey]
        refine List.pairwise_cons.mpr ⟨fun other hother => ?_, ih hrest⟩
        rcases mem_keys_insert (m := ⟨rest⟩).mp hother with rfl | hother
        · exact lt_of_le_of_ne (not_lt.mp hlt) (Ne.symm hkey)
        · exact hk other hother

/-- A map has the keys of the entries it was made of, and they ascend. -/
theorem keys_ofList (entries : List (String × String)) :
    (ofList entries).keys.Pairwise (· < ·) ∧
      ∀ name, name ∈ (ofList entries).keys ↔ name ∈ entries.map (·.1) := by
  induction entries using List.reverseRecOn with
  | nil => exact ⟨.nil, fun _ => Iff.rfl⟩
  | append_singleton entries entry ih =>
    obtain ⟨hsorted, hmem⟩ := ih
    have hlast : ofList (entries ++ [entry]) = (ofList entries).insert entry.1 entry.2 := by
      rw [ofList, List.foldl_append]
      rfl
    rw [hlast]
    refine ⟨sorted_insert hsorted _ _, fun name => ?_⟩
    rw [mem_keys_insert, hmem, List.map_append, List.mem_append, or_comm]
    exact or_congr_right List.mem_singleton.symm

end TextMap

/-! ## The nearest name -/

namespace ShapeCatalog

/-- Nothing is nearer to `name` than this key, the first one of those that are as near. -/
structure IsNearest (name : String) (keys : List String) (key : String) : Prop where
  mem : key ∈ keys
  near : nameDistance name key ≤ farthestSuggestion
  least : ∀ other ∈ keys, nameDistance name key ≤ nameDistance name other
  first : ∀ other ∈ keys, nameDistance name other = nameDistance name key → other ≠ key →
    Codec.Packing.bytesOf key < Codec.Packing.bytesOf other

theorem IsNearest.unique {name key key' : String} {keys : List String}
    (h : IsNearest name keys key) (h' : IsNearest name keys key') : key = key' := by
  have hsame : nameDistance name key = nameDistance name key' :=
    le_antisymm (h.least key' h'.mem) (h'.least key h.mem)
  by_contra hne
  have hlt := h.first key' h'.mem hsame.symm (Ne.symm hne)
  exact List.lt_asymm hlt (h'.first key h.mem hsame hne)

theorem IsNearest.congr {name key : String} {keys keys' : List String}
    (h : IsNearest name keys key) (hsame : ∀ other, other ∈ keys ↔ other ∈ keys') :
    IsNearest name keys' key where
  mem := (hsame key).mp h.mem
  near := h.near
  least other hother := h.least other ((hsame other).mpr hother)
  first other hother := h.first other ((hsame other).mpr hother)

/-- A name that is no nearer than the one before comes too late. -/
theorem IsNearest.concat {name found key : String} {keys : List String}
    (h : IsNearest name keys found) (hkey : found < key)
    (hnot : ¬ nameDistance name key < nameDistance name found) :
    IsNearest name (keys ++ [key]) found where
  mem := List.mem_append_left _ h.mem
  near := h.near
  least other hother := by
    rcases List.mem_append.mp hother with hother | hother
    · exact h.least other hother
    · rw [List.mem_singleton.mp hother]
      exact not_lt.mp hnot
  first other hother hsame hne := by
    rcases List.mem_append.mp hother with hother | hother
    · exact h.first other hother hsame hne
    · rw [List.mem_singleton.mp hother]
      exact Codec.Packing.bytesOf_lt hkey

/-- A name that is nearer than all before is the nearest one. -/
theorem isNearest_concat {name key : String} {keys : List String}
    (hnear : nameDistance name key ≤ farthestSuggestion)
    (hless : ∀ other ∈ keys, nameDistance name key < nameDistance name other) :
    IsNearest name (keys ++ [key]) key where
  mem := List.mem_append_right _ (List.mem_singleton_self key)
  near := hnear
  least other hother := by
    rcases List.mem_append.mp hother with hother | hother
    · exact (hless other hother).le
    · rw [List.mem_singleton.mp hother]
  first other hother hsame hne := by
    rcases List.mem_append.mp hother with hother | hother
    · exact absurd hsame (hless other hother).ne'
    · exact absurd (List.mem_singleton.mp hother) hne

/-- What the best name so far says about the names before. -/
def IsBest (name : String) (keys : List String) : Option (String × Nat) → Prop
  | none => ∀ key ∈ keys, farthestSuggestion < nameDistance name key
  | some (key, least) => least = nameDistance name key ∧ IsNearest name keys key

/-- One name more, behind all others in the order of names. -/
theorem isBest_nearer {name key : String} {keys : List String} {best : Option (String × Nat)}
    (h : IsBest name keys best) (hkey : ∀ other ∈ keys, other < key) :
    IsBest name (keys ++ [key]) (nearer name best key) := by
  unfold nearer
  by_cases hfar : farthestSuggestion < nameDistance name key
  · rw [if_pos hfar]
    match best, h with
    | none, h =>
      intro other hother
      rcases List.mem_append.mp hother with hother | hother
      · exact h other hother
      · rwa [List.mem_singleton.mp hother]
    | some (found, _), ⟨rfl, h⟩ =>
      have hnear := h.near
      exact ⟨rfl, h.concat (hkey found h.mem) (by omega)⟩
  · rw [if_neg hfar]
    match best, h with
    | none, h =>
      exact ⟨rfl, isNearest_concat (not_lt.mp hfar) fun other hother =>
        lt_of_le_of_lt (not_lt.mp hfar) (h other hother)⟩
    | some (found, _), ⟨rfl, h⟩ =>
      dsimp only
      by_cases hless : nameDistance name key < nameDistance name found
      · rw [if_pos hless]
        exact ⟨rfl, isNearest_concat (not_lt.mp hfar) fun other hother =>
          lt_of_lt_of_le hless (h.least other hother)⟩
      · rw [if_neg hless]
        exact ⟨rfl, h.concat (hkey found h.mem) hless⟩

/-- The scan of ascending names. -/
theorem isBest_foldl (name : String) {keys : List String} (hsorted : keys.Pairwise (· < ·)) :
    IsBest name keys (keys.foldl (nearer name) none) := by
  induction keys using List.reverseRecOn with
  | nil => exact fun _ hmem => absurd hmem List.not_mem_nil
  | append_singleton keys key ih =>
    obtain ⟨hbefore, -, hkey⟩ := List.pairwise_append.mp hsorted
    rw [List.foldl_append]
    exact isBest_nearer (ih hbefore) fun other hother => hkey other hother key (by simp)

/-- The suggestion for a name, whatever entries the catalog was made of. -/
theorem the_nearest_name_is_suggested (entries : List (String × String)) (name : String) :
    let keys := entries.map (·.1)
    (∀ a b, IsLeast {n | Catalog.Turns n a b} (Catalog.distance a b)) ∧
      ((ofList entries).suggest? name = none ↔
        ∀ key ∈ keys, 3 < Catalog.distance (Text.lower name.toList) (Text.lower key.toList)) ∧
      ∀ key, (ofList entries).suggest? name = some key ↔ IsNearest name keys key := by
  intro keys
  obtain ⟨hsorted, hmem⟩ := TextMap.keys_ofList entries
  have hsuggest : (ofList entries).suggest? name =
      ((TextMap.ofList entries).keys.foldl (nearer name) none).map (·.1) := rfl
  have hbest := isBest_foldl name hsorted
  refine ⟨Catalog.isLeast_distance, ?_⟩
  rw [hsuggest]
  cases hfound : (TextMap.ofList entries).keys.foldl (nearer name) none with
  | none =>
    rw [hfound] at hbest
    have hfar : ∀ key ∈ keys, 3 < nameDistance name key :=
      fun key hkey => hbest key ((hmem key).mpr hkey)
    refine ⟨iff_of_true rfl hfar, fun key => iff_of_false (by simp) fun h => ?_⟩
    exact absurd h.near (not_le.mpr (hfar key h.mem))
  | some best =>
    obtain ⟨found, least⟩ := best
    rw [hfound] at hbest
    have hnearest := hbest.2.congr hmem
    refine ⟨iff_of_false (by simp) fun h => ?_, fun key => ?_⟩
    · exact absurd hnearest.near (not_le.mpr (h found hnearest.mem))
    · rw [Option.map_some, Option.some_inj]
      exact ⟨fun h => h ▸ hnearest, hnearest.unique⟩

end ShapeCatalog

end DiagramPress
