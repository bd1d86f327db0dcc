-- Ways inwards by ids. Where ids are distinct, every frame inside is at the end of one
-- way, and only one child of a container leads to it.
import DiagramPress.Proofs.Layout.Clearance
import Mathlib.Data.List.Nodup

namespace DiagramPress

namespace Frame

variable {α : Type}

/-! ## Frames inside frames -/

/-- A frame inside comes with everything that it holds. -/
theorem cons_inside_sublist {f g : Frame α} (h : g ∈ f.inside) :
    (g :: g.inside).Sublist f.inside := by
  induction f using Frame.induction with
  | step f ih =>
    obtain ⟨d, hd, hg⟩ := mem_inside_iff.mp h
    have hchild : (d :: d.inside).Sublist f.inside := by
      rw [f.inside_eq, List.flatMap_def]
      exact List.sublist_flatten_of_mem (List.mem_map_of_mem (f := fun c => c :: c.inside) hd)
    rcases hg with rfl | hg
    · exact hchild
    · exact ((ih d hd hg).trans (List.sublist_cons_self _ _)).trans hchild

theorem not_mem_inside_self (f : Frame α) : f ∉ f.inside := by
  intro h
  have hlength := (cons_inside_sublist h).length_le
  simp at hlength

/-- Two frames do not hold each other. -/
theorem eq_of_mem_inside {f g : Frame α} (h : f ∈ g :: g.inside) (h' : g ∈ f :: f.inside) :
    f = g := by
  rcases List.mem_cons.mp h with heq | h
  · exact heq
  · rcases List.mem_cons.mp h' with heq | h'
    · exact heq.symm
    · exact absurd (inside_trans (List.mem_cons_of_mem _ h') h) (not_mem_inside_self f)

theorem mem_names_of_mem_inside {f g : Frame α} (h : g ∈ f.inside) {id : String}
    (hid : id ∈ g.id :: g.names) : id ∈ f.names :=
  ((cons_inside_sublist h).map (·.id)).subset hid

theorem mem_names_iff {f : Frame α} {id : String} :
    id ∈ f.names ↔ ∃ (i : Nat) (c : Frame α), f.children[i]? = some c ∧ id ∈ c.id :: c.names := by
  rw [names_eq, List.mem_flatMap]
  constructor
  · rintro ⟨c, hc, hid⟩
    obtain ⟨i, hi⟩ := List.mem_iff_getElem?.mp hc
    exact ⟨i, c, hi, hid⟩
  · rintro ⟨i, c, hi, hid⟩
    exact ⟨c, List.mem_of_getElem? hi, hid⟩

/-! ## Ways by ids -/

/-- The ids lead from `f` inwards, each to a frame directly inside the one before it, and
`g` is at the end. -/
inductive At : Frame α → List String → Frame α → Prop
  | here (f : Frame α) : At f [] f
  | into {f c g : Frame α} {path : List String} (hc : c ∈ f.children) (h : At c path g) :
      At f (c.id :: path) g

theorem At.mem {f g : Frame α} {path : List String} (h : f.At path g) : g ∈ f :: f.inside := by
  induction h with
  | here f => exact List.mem_cons_self
  | into hc _ ih => exact List.mem_cons_of_mem _ (mem_inside_of_child hc ih)

theorem At.id_mem {f g : Frame α} {path : List String} (h : f.At path g) :
    g.id ∈ f.id :: f.names := by
  rcases List.mem_cons.mp h.mem with rfl | hg
  · exact List.mem_cons_self
  · exact List.mem_cons_of_mem _ (List.mem_map_of_mem hg)

theorem At.mem_inside {f g : Frame α} {path : List String} (h : f.At path g) (hne : path ≠ []) :
    g ∈ f.inside := by
  cases h with
  | here => exact absurd rfl hne
  | into hc h => exact mem_inside_of_child hc h.mem

theorem exists_at {f g : Frame α} (h : g ∈ f :: f.inside) : ∃ path, f.At path g := by
  induction f using Frame.induction with
  | step f ih =>
    rcases List.mem_cons.mp h with rfl | h
    · exact ⟨[], .here g⟩
    · obtain ⟨d, hd, hg⟩ := mem_inside_iff.mp h
      obtain ⟨path, hpath⟩ := ih d hd (List.mem_cons.mpr hg)
      exact ⟨d.id :: path, .into hd hpath⟩

theorem at_append_iff {f g : Frame α} {above below : List String} :
    f.At (above ++ below) g ↔ ∃ c, f.At above c ∧ c.At below g := by
  induction above generalizing f with
  | nil =>
    constructor
    · intro h
      exact ⟨f, .here f, h⟩
    · rintro ⟨c, hc, h⟩
      cases hc
      exact h
  | cons id above ih =>
    constructor
    · intro h
      cases h with
      | into hc h =>
        obtain ⟨d, hd, h⟩ := ih.mp h
        exact ⟨d, .into hc hd, h⟩
    · rintro ⟨d, hd, h⟩
      cases hd with
      | into hc hd => exact .into hc (ih.mpr ⟨d, hd, h⟩)

theorem idOf_of_at {f g : Frame α} {path : List String} (h : f.At path g) (hne : path ≠ []) :
    NestedLayout.idOf path = g.id := by
  induction h with
  | here => exact absurd rfl hne
  | @into f c g path hc h ih =>
    cases path with
    | nil =>
      cases h
      rfl
    | cons next path => exact ih (List.cons_ne_nil _ _)

/-- The paths of the engine are the ways that end inside. -/
theorem mem_paths_iff {f : Frame α} {above path : List String} :
    path ∈ NestedLayout.paths above f ↔
      ∃ below g, below ≠ [] ∧ f.At below g ∧ path = above ++ below := by
  induction f using Frame.induction generalizing above with
  | step f ih =>
    rw [NestedLayout.paths_eq, List.mem_flatMap]
    constructor
    · rintro ⟨c, hc, hpath⟩
      rcases List.mem_cons.mp hpath with rfl | hpath
      · exact ⟨[c.id], c, List.cons_ne_nil _ _, .into hc (.here c), rfl⟩
      · obtain ⟨below, g, -, hat, rfl⟩ := (ih c hc).mp hpath
        exact ⟨c.id :: below, g, List.cons_ne_nil _ _, .into hc hat, List.append_assoc _ _ _⟩
    · rintro ⟨below, g, hne, hat, rfl⟩
      cases hat with
      | here => exact absurd rfl hne
      | @into _ c _ below hc hat =>
        refine ⟨c, hc, ?_⟩
        cases below with
        | nil => exact List.mem_cons_self
        | cons next below =>
          refine List.mem_cons_of_mem _ ((ih c hc).mpr ⟨next :: below, g, List.cons_ne_nil _ _, hat, ?_⟩)
          simp

/-! ## Distinct ids -/

section

variable {f : Frame α} (hnodup : f.names.Nodup)
include hnodup

theorem nodup_names_of_mem {g : Frame α} (hg : g ∈ f :: f.inside) : g.names.Nodup := by
  rcases List.mem_cons.mp hg with rfl | hg
  · exact hnodup
  · have hsub := (List.sublist_cons_self g g.inside).trans (cons_inside_sublist hg)
    have hnames : (g.inside.map (·.id)).Sublist (f.inside.map (·.id)) := hsub.map _
    exact hnodup.sublist hnames

/-- Of the children, only one is or holds the frame with an id. -/
theorem child_unique {i j : Nat} {a b : Frame α} (ha : f.children[i]? = some a)
    (hb : f.children[j]? = some b) {id : String} (hia : id ∈ a.id :: a.names)
    (hib : id ∈ b.id :: b.names) : i = j := by
  rw [names_eq, List.nodup_flatMap] at hnodup
  have hapart := List.pairwise_iff_getElem.mp hnodup.2
  obtain ⟨hi, rfl⟩ := List.getElem?_eq_some_iff.mp ha
  obtain ⟨hj, rfl⟩ := List.getElem?_eq_some_iff.mp hb
  by_contra hne
  rcases Nat.lt_or_gt_of_ne hne with hlt | hlt
  · exact hapart i j hi hj hlt hia hib
  · exact hapart j i hj hi hlt hib hia

/-- The number of a child is where its id comes up first. -/
theorem idxOf?_child {i : Nat} {a : Frame α} (ha : f.children[i]? = some a) :
    (f.children.map (·.id)).idxOf? a.id = some i := by
  rw [List.idxOf?_eq_some_iff]
  obtain ⟨hi, rfl⟩ := List.getElem?_eq_some_iff.mp ha
  refine ⟨by simpa using hi, by simp, fun j hlt => ?_⟩
  have hj : j < f.children.length := Nat.lt_trans hlt hi
  intro hsame
  simp only [List.getElem_map] at hsame
  have heq := child_unique hnodup (List.getElem?_eq_getElem hj) ha List.mem_cons_self
    (List.mem_cons.mpr (.inl hsame))
  omega

theorem eq_of_id {g h : Frame α} (hg : g ∈ f.inside) (hh : h ∈ f.inside) (hid : g.id = h.id) :
    g = h :=
  List.inj_on_of_nodup_map hnodup hg hh hid

/-- One way ends at one frame. -/
theorem At.frame_unique {g h : Frame α} {path : List String} (hg : f.At path g)
    (hh : f.At path h) : g = h := by
  by_cases hne : path = []
  · subst hne
    cases hg
    cases hh
    rfl
  · refine eq_of_id hnodup (hg.mem_inside hne) (hh.mem_inside hne) ?_
    rw [← idOf_of_at hg hne, ← idOf_of_at hh hne]

/-- To one frame there is one way. -/
theorem At.path_unique {g : Frame α} {path path' : List String} (h : f.At path g)
    (h' : f.At path' g) : path = path' := by
  by_cases hne : path = [] <;> by_cases hne' : path' = []
  · rw [hne, hne']
  · subst hne
    cases h
    exact absurd (h'.mem_inside hne') (not_mem_inside_self f)
  · subst hne'
    cases h'
    exact absurd (h.mem_inside hne) (not_mem_inside_self f)
  · rw [← NestedLayout.map_idOf_paths []] at hnodup
    have hmem {way : List String} (hway : f.At way g) (hne : way ≠ []) :
        way ∈ NestedLayout.paths [] f := mem_paths_iff.mpr ⟨way, g, hne, hway, rfl⟩
    refine List.inj_on_of_nodup_map hnodup (hmem h hne) (hmem h' hne') ?_
    rw [idOf_of_at h hne, idOf_of_at h' hne']

/-- Of two frames that hold the same id, one holds the other. -/
theorem inside_or_inside {g h : Frame α} (hg : g ∈ f :: f.inside) (hh : h ∈ f :: f.inside)
    {id : String} (hidg : id ∈ g.names) (hidh : id ∈ h.names) :
    g ∈ h :: h.inside ∨ h ∈ g.inside := by
  induction f using Frame.induction with
  | step f ih =>
    rcases List.mem_cons.mp hg with rfl | hg
    · rcases List.mem_cons.mp hh with rfl | hh
      · exact .inl List.mem_cons_self
      · exact .inr hh
    · rcases List.mem_cons.mp hh with rfl | hh
      · exact .inl (List.mem_cons_of_mem _ hg)
      · -- Both lie in children, and only one child holds the id.
        obtain ⟨a, ha, hga⟩ := mem_inside_iff.mp hg
        obtain ⟨b, hb, hhb⟩ := mem_inside_iff.mp hh
        have holds {c d : Frame α} (hd : d = c ∨ d ∈ c.inside) (hid : id ∈ d.names) :
            id ∈ c.id :: c.names := by
          rcases hd with rfl | hd
          · exact List.mem_cons_of_mem _ hid
          · exact List.mem_cons_of_mem _ (mem_names_of_mem_inside hd (List.mem_cons_of_mem _ hid))
        obtain ⟨i, hi⟩ := List.mem_iff_getElem?.mp ha
        obtain ⟨j, hj⟩ := List.mem_iff_getElem?.mp hb
        obtain rfl := child_unique hnodup hi hj (holds hga hidg) (holds hhb hidh)
        obtain rfl := Option.some.inj (hi.symm.trans hj)
        have hchild := mem_inside_of_child ha List.mem_cons_self
        exact ih a ha (nodup_names_of_mem hnodup (List.mem_cons_of_mem _ hchild))
          (List.mem_cons.mpr hga) (List.mem_cons.mpr hhb)

end

end Frame

end DiagramPress
