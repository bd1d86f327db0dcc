-- The frames inside a frame, and what the walks of the adapter and of the engine
-- find there: each of them meets every frame inside once.
import DiagramPress.Layout.Adapter
import Mathlib.Data.List.Basic

namespace DiagramPress

namespace Frame

variable {α : Type}

/-- What holds of a frame as soon as it holds of its children holds of every frame. -/
theorem induction {P : Frame α → Prop} (step : ∀ f, (∀ c ∈ f.children, P c) → P f)
    (f : Frame α) : P f :=
  step f fun c hc =>
    have hsmaller : sizeOf c < sizeOf f := by
      have hmember := List.sizeOf_lt_of_mem hc
      cases f
      simp only [Frame.mk.sizeOf_spec] at hmember ⊢
      omega
    induction step c
termination_by sizeOf f

/-! ## Leaves and pinned frames -/

theorem isLeaf_iff {f : Frame α} :
    f.isLeaf = true ↔ f.children = [] ∧ f.width.isSome = true ∧ f.height.isSome = true := by
  simp only [isLeaf, Bool.and_eq_true, List.isEmpty_iff, and_assoc]

theorem isSome_of_isPinned {f : Frame α} (h : f.isPinned = true) : f.x.isSome ∧ f.y.isSome := by
  simp only [isPinned, Bool.and_eq_true] at h
  exact ⟨h.1.2, h.2⟩

/-! ## Everything inside -/

mutual

/-- The frames inside a frame, each before what it holds. -/
def inside : Frame α → List (Frame α)
  | ⟨_, _, _, _, _, children, _, _⟩ => insideIn children

def insideIn : List (Frame α) → List (Frame α)
  | [] => []
  | f :: rest => f :: inside f ++ insideIn rest

end

theorem insideIn_eq (fs : List (Frame α)) : insideIn fs = fs.flatMap fun f => f :: f.inside := by
  induction fs with
  | nil => rw [insideIn, List.flatMap_nil]
  | cons f rest ih => rw [insideIn, ih, List.flatMap_cons]

theorem inside_eq (f : Frame α) : f.inside = f.children.flatMap fun c => c :: c.inside := by
  cases f
  rw [inside, insideIn_eq]

/-- The ids of the frames inside a frame. -/
def names (f : Frame α) : List String := f.inside.map (·.id)

theorem names_eq (f : Frame α) : f.names = f.children.flatMap fun c => c.id :: c.names := by
  rw [names, inside_eq, List.map_flatMap]
  rfl

theorem names_congr {f g : Frame α} (h : f.children = g.children) : f.names = g.names := by
  rw [names_eq, names_eq, h]

end Frame

/-! ## The walks of the engine -/

namespace NestedLayout

open DiagramPress.Frame

variable {α : Type}

theorem idOf_append (above : List String) (id : String) : idOf (above ++ [id]) = id := by
  rw [idOf, List.getLastD_eq_getLast?, List.getLast?_concat]
  rfl

theorem pathsIn_eq (above : List String) (fs : List (Frame α)) :
    pathsIn above fs =
      fs.flatMap fun f => (above ++ [f.id]) :: paths (above ++ [f.id]) f := by
  induction fs with
  | nil => rw [pathsIn, List.flatMap_nil]
  | cons f rest ih =>
    cases f
    rw [pathsIn, ih, List.flatMap_cons]

theorem paths_eq (above : List String) (f : Frame α) :
    paths above f =
      f.children.flatMap fun c => (above ++ [c.id]) :: paths (above ++ [c.id]) c := by
  cases f
  rw [paths, pathsIn_eq]

/-- The paths end with the ids of all frames inside. -/
theorem map_idOf_paths (above : List String) (f : Frame α) :
    (paths above f).map idOf = f.names := by
  induction f using Frame.induction generalizing above with
  | step f ih =>
    rw [paths_eq, names_eq, List.map_flatMap]
    refine List.flatMap_congr fun c hc => ?_
    rw [List.map_cons, idOf_append, ih c hc]

theorem linksIn_eq (fs : List (Frame α)) : linksIn fs = fs.flatMap links := by
  induction fs with
  | nil => rw [linksIn, List.flatMap_nil]
  | cons f rest ih => rw [linksIn, ih, List.flatMap_cons]

theorem links_eq (f : Frame α) : links f = f.links ++ f.children.flatMap links := by
  cases f
  rw [links, linksIn_eq]

/-- The connections are those of the frame and of all frames inside. -/
theorem links_eq_inside (f : Frame α) : links f = f.links ++ f.inside.flatMap (·.links) := by
  induction f using Frame.induction with
  | step f ih =>
    rw [links_eq, inside_eq, List.flatMap_assoc]
    congr 1
    refine List.flatMap_congr fun c hc => ?_
    rw [ih c hc, List.flatMap_cons]

end NestedLayout

/-! ## The walk of the adapter -/

namespace Layout

open DiagramPress.Frame

variable {α : Type}

theorem isSome_boxOf? {boxes : List (String × Bounds α)} {cell : Nat}
    (h : toString cell ∈ boxes.map (·.1)) : (boxOf? boxes cell).isSome := by
  obtain ⟨⟨name, b⟩, hmem, hname⟩ := List.mem_map.mp h
  rw [boxOf?, List.lookup_isSome_iff]
  exact ⟨(name, b), List.mem_reverse.mpr hmem, by simpa using hname.symm⟩

/-- An id that is there once has its own box. -/
theorem boxOf?_of_count {boxes : List (String × Bounds α)} {cell : Nat} {b : Bounds α}
    (hcount : (boxes.map (·.1)).count (toString cell) = 1) (hmem : (toString cell, b) ∈ boxes) :
    boxOf? boxes cell = some b := by
  obtain ⟨later, earlier, hsplit⟩ := List.append_of_mem (List.mem_reverse.mpr hmem)
  have honce : (boxes.reverse.map (·.1)).count (toString cell) = 1 := by
    rw [List.map_reverse, List.count_reverse, hcount]
  rw [hsplit, List.map_append, List.count_append, List.map_cons, List.count_cons_self] at honce
  have hlater : toString cell ∉ later.map (·.1) := List.count_eq_zero.mp (by omega)
  refine List.lookup_eq_some_iff.mpr ⟨later, earlier, hsplit, fun entry hentry => ?_⟩
  have hother : toString cell ≠ entry.1 := fun h => hlater (h ▸ List.mem_map_of_mem hentry)
  simpa using hother

theorem boxOf?_of_not_mem {boxes : List (String × Bounds α)} {cell : Nat}
    (h : toString cell ∉ boxes.map (·.1)) : boxOf? boxes cell = none := by
  refine List.lookup_eq_none_iff.mpr fun entry hentry => ?_
  have hother : toString cell ≠ entry.1 :=
    fun heq => h (heq ▸ List.mem_map_of_mem (List.mem_reverse.mp hentry))
  simpa using hother

variable [Scalar α]

theorem absoluteIn_eq (origin : Point α) (fs : List (Frame α)) :
    absoluteIn origin fs = fs.flatMap fun f =>
      let corner : Point α := ⟨origin.x + f.offset.x, origin.y + f.offset.y⟩
      (f.id, Bounds.ofCorner corner f.size) :: absolute corner f := by
  induction fs with
  | nil => rw [absoluteIn, List.flatMap_nil]
  | cons f rest ih =>
    cases f
    rw [absoluteIn, ih, List.flatMap_cons]
    rfl

theorem absolute_eq (origin : Point α) (f : Frame α) :
    absolute origin f = f.children.flatMap fun c =>
      let corner : Point α := ⟨origin.x + c.offset.x, origin.y + c.offset.y⟩
      (c.id, Bounds.ofCorner corner c.size) :: absolute corner c := by
  cases f
  rw [absolute, absoluteIn_eq]

/-- Every frame inside has a box. -/
theorem map_fst_absolute (origin : Point α) (f : Frame α) :
    (absolute origin f).map (·.1) = f.names := by
  induction f using Frame.induction generalizing origin with
  | step f ih =>
    rw [absolute_eq, names_eq, List.map_flatMap]
    refine List.flatMap_congr fun c hc => ?_
    rw [List.map_cons, ih c hc]

theorem exists_boxOf? {f : Frame α} {cell : Nat} (origin : Point α) (h : toString cell ∈ f.names) :
    ∃ b, boxOf? (absolute origin f) cell = some b := by
  rw [← map_fst_absolute origin] at h
  exact Option.isSome_iff_exists.mp (isSome_boxOf? h)

end Layout

end DiagramPress
