-- The trees that children are arranged in: the search hangs every child below one
-- that it has reached before, so all trees together hold every child once.
import Mathlib.Algebra.BigOperators.Group.List.Basic
import Mathlib.Algebra.GroupWithZero.Nat
import Mathlib.Data.List.Nodup
import Mathlib.Data.List.Perm.Basic
import DiagramPress.Layout.SpanningForest

namespace DiagramPress

namespace Rose

/-! ## The numbers in a tree -/

/-- What holds of a tree as soon as it holds of the trees below its root holds of every tree. -/
theorem induction {P : Rose → Prop} (step : ∀ i ts, (∀ t ∈ ts, P t) → P (.node i ts)) :
    ∀ t, P t
  | .node i ts => step i ts fun t ht =>
    have hsmaller : sizeOf t < sizeOf (Rose.node i ts) := by
      have hmember := List.sizeOf_lt_of_mem ht
      simp only [Rose.node.sizeOf_spec]
      omega
    induction step t
termination_by t => sizeOf t

mutual

/-- The numbers in a tree, a parent before its children. -/
def indices : Rose → List Nat
  | node i children => i :: indicesOf children

def indicesOf : List Rose → List Nat
  | [] => []
  | t :: rest => indices t ++ indicesOf rest

end

theorem indicesOf_eq (ts : List Rose) : indicesOf ts = ts.flatMap indices := by
  induction ts with
  | nil => rw [indicesOf, List.flatMap_nil]
  | cons t rest ih => rw [indicesOf, ih, List.flatMap_cons]

theorem indices_node (i : Nat) (ts : List Rose) :
    (node i ts).indices = i :: ts.flatMap indices := by
  rw [indices, indicesOf_eq]

theorem depthsOf_eq (depth : Nat) (ts : List Rose) :
    depthsOf depth ts = ts.flatMap (depths depth) := by
  induction ts with
  | nil => rw [depthsOf, List.flatMap_nil]
  | cons t rest ih => rw [depthsOf, ih, List.flatMap_cons]

theorem depths_node (depth i : Nat) (ts : List Rose) :
    (node i ts).depths depth = (i, depth) :: ts.flatMap (depths (depth + 1)) := by
  rw [depths, depthsOf_eq]

/-- The list of depths names the numbers in their order. -/
theorem map_fst_depths (t : Rose) (depth : Nat) : (t.depths depth).map (·.1) = t.indices := by
  induction t using Rose.induction generalizing depth with
  | step i ts ih =>
    rw [depths_node, indices_node, List.map_cons, List.map_flatMap]
    exact congrArg _ (List.flatMap_congr fun t ht => ih t ht (depth + 1))

theorem map_fst_depthsOf (ts : List Rose) (depth : Nat) :
    (depthsOf depth ts).map (·.1) = indicesOf ts := by
  rw [depthsOf_eq, indicesOf_eq, List.map_flatMap]
  exact List.flatMap_congr fun t _ => map_fst_depths t depth

end Rose

namespace SpanningForest

/-! ## Forests that grow -/

/-- What hangs in a forest: its roots, and the children at the ends of its links. -/
def reached (forest : SpanningForest) : List Nat := forest.roots ++ forest.links.map (·.2)

/-- Forests in which each root and each link was added with a child that was not
reached before, the link below one that was. -/
inductive Grown : SpanningForest → Prop
  | empty : Grown ⟨[], []⟩
  | root {forest : SpanningForest} {start : Nat} (h : Grown forest)
      (hnew : start ∉ forest.reached) :
    Grown ⟨forest.roots ++ [start], forest.links⟩
  | link {forest : SpanningForest} {parent child : Nat} (h : Grown forest)
    (hparent : parent ∈ forest.reached) (hnew : child ∉ forest.reached) :
    Grown ⟨forest.roots, forest.links ++ [(parent, child)]⟩

theorem perm_reached_root (forest : SpanningForest) (start : Nat) :
    (reached ⟨forest.roots ++ [start], forest.links⟩).Perm (start :: forest.reached) := by
  simp only [reached, List.append_assoc, List.singleton_append]
  exact List.perm_middle

theorem reached_link (forest : SpanningForest) (parent child : Nat) :
    reached ⟨forest.roots, forest.links ++ [(parent, child)]⟩ = forest.reached ++ [child] := by
  simp only [reached, List.map_append, List.map_singleton, List.append_assoc]

namespace Grown

theorem nodup {forest : SpanningForest} (h : Grown forest) : forest.reached.Nodup := by
  induction h with
  | empty => exact List.nodup_nil
  | root _ hnew ih => exact (perm_reached_root _ _).nodup_iff.mpr (List.nodup_cons.mpr ⟨hnew, ih⟩)
  | link _ _ hnew ih =>
    rw [reached_link, ← List.concat_eq_append]
    exact ih.concat hnew

theorem parent_mem {forest : SpanningForest} (h : Grown forest) :
    ∀ link ∈ forest.links, link.1 ∈ forest.reached := by
  induction h with
  | empty => exact fun _ h => absurd h List.not_mem_nil
  | root _ _ ih =>
    exact fun link hlink =>
      (perm_reached_root _ _).mem_iff.mpr (List.mem_cons_of_mem _ (ih link hlink))
  | link _ hparent _ ih =>
    intro link hlink
    rw [reached_link, List.mem_append]
    rcases List.mem_append.mp hlink with hlink | hlink
    · exact .inl (ih link hlink)
    · obtain rfl := List.mem_singleton.mp hlink
      exact .inl hparent

end Grown

/-! ## Their trees -/

theorem indices_treeAt_zero (forest : SpanningForest) (root : Nat) :
    (forest.treeAt 0 root).indices = [root] := by
  rw [treeAt, Rose.indices_node, List.flatMap_nil]

theorem indices_treeAt_succ (forest : SpanningForest) (depth root : Nat) :
    (forest.treeAt (depth + 1) root).indices =
      root :: (forest.childrenOf root).flatMap fun c => (forest.treeAt depth c).indices := by
  rw [treeAt, Rose.indices_node, List.flatMap_map]

theorem count_treeAt_succ (forest : SpanningForest) (depth root i : Nat) :
    (forest.treeAt (depth + 1) root).indices.count i = (if root = i then 1 else 0) +
      ((forest.childrenOf root).map fun c => (forest.treeAt depth c).indices.count i).sum := by
  rw [indices_treeAt_succ, List.count_cons, List.count_flatMap, Nat.add_comm]
  simp only [beq_iff_eq, Function.comp_def]

/-- Trees are made of links; it does not matter which children are roots. -/
theorem treeAt_congr {forest forest' : SpanningForest} (h : forest'.links = forest.links)
    (depth root : Nat) : forest'.treeAt depth root = forest.treeAt depth root := by
  induction depth generalizing root with
  | zero => rfl
  | succ depth ih =>
    have hchildren : forest'.childrenOf root = forest.childrenOf root := by
      rw [childrenOf, h, childrenOf]
    rw [treeAt, treeAt, hchildren]
    exact congrArg _ (List.map_congr_left fun c _ => ih c)

/-- No link leads on from there. -/
theorem indices_treeAt_of_no_link {forest : SpanningForest} {root : Nat}
    (h : ∀ link ∈ forest.links, link.1 ≠ root) (depth : Nat) :
    (forest.treeAt depth root).indices = [root] := by
  have hchildren : forest.childrenOf root = [] := by
    rw [childrenOf, List.map_eq_nil_iff, List.filter_eq_nil_iff]
    exact fun link hlink => by simpa using h link hlink
  cases depth with
  | zero => exact indices_treeAt_zero forest root
  | succ depth => rw [indices_treeAt_succ, hchildren, List.flatMap_nil]

/-- A link to a new child puts the child into a tree as often as its parent is there,
one level higher up. -/
theorem count_treeAt_link {forest : SpanningForest} {parent child : Nat} (hne : parent ≠ child)
    (hnew : ∀ link ∈ forest.links, link.1 ≠ child) (depth root i : Nat) :
    (treeAt ⟨forest.roots, forest.links ++ [(parent, child)]⟩ (depth + 1) root).indices.count i =
      (forest.treeAt (depth + 1) root).indices.count i +
        if i = child then (forest.treeAt depth root).indices.count parent else 0 := by
  generalize hlonger : (⟨forest.roots, forest.links ++ [(parent, child)]⟩ : SpanningForest) = longer
  have hlinks : longer.links = forest.links ++ [(parent, child)] := by rw [← hlonger]
  have hend (depth : Nat) : (longer.treeAt depth child).indices = [child] := by
    refine indices_treeAt_of_no_link (fun link hlink => ?_) depth
    rcases List.mem_append.mp (hlinks ▸ hlink) with hlink | hlink
    · exact hnew link hlink
    · rw [List.mem_singleton.mp hlink]
      exact hne
  have hchildren (root : Nat) : longer.childrenOf root =
      forest.childrenOf root ++ if parent = root then [child] else [] := by
    rw [childrenOf, hlinks, List.filter_append, List.map_append, childrenOf]
    by_cases hroot : parent = root <;> simp [hroot]
  have hcount (depth root : Nat) : (longer.treeAt (depth + 1) root).indices.count i =
      (if root = i then 1 else 0) +
        ((forest.childrenOf root).map fun c => (longer.treeAt depth c).indices.count i).sum +
          if parent = root ∧ i = child then 1 else 0 := by
    rw [count_treeAt_succ, hchildren, List.map_append, List.sum_append, Nat.add_assoc]
    by_cases hroot : parent = root
    · by_cases hi : i = child
      · simp [hroot, hi, hend]
      · simp [hroot, hi, hend, Ne.symm hi]
    · simp [hroot]
  induction depth generalizing root with
  | zero =>
    rw [hcount, count_treeAt_succ]
    simp only [indices_treeAt_zero, List.count_singleton, beq_iff_eq]
    by_cases hi : i = child <;> by_cases hroot : parent = root <;>
      simp [hi, hroot, eq_comm]
  | succ depth ih =>
    rw [hcount, count_treeAt_succ, List.map_congr_left fun c _ => ih c, List.sum_map_add,
      count_treeAt_succ]
    by_cases hi : i = child
    · simp only [hi, if_true, and_true, eq_comm (a := parent)]
      omega
    · simp [hi]

/-- All trees of a forest that has grown hold what hangs in it, each child once. -/
theorem Grown.perm_trees {forest : SpanningForest} (h : Grown forest) {depth : Nat}
    (hdepth : forest.links.length ≤ depth) :
    (forest.roots.flatMap fun r => (forest.treeAt depth r).indices).Perm forest.reached := by
  induction h generalizing depth with
  | empty => exact .nil
  | @root forest start h hnew ih =>
    have hsame : ∀ r, (treeAt ⟨forest.roots ++ [start], forest.links⟩ depth r).indices =
        (forest.treeAt depth r).indices := by
      intro r
      have hlinks : (⟨forest.roots ++ [start], forest.links⟩ : SpanningForest).links =
          forest.links := rfl
      rw [treeAt_congr hlinks]
    have hlast : (forest.treeAt depth start).indices = [start] := by
      refine indices_treeAt_of_no_link (fun link hlink => ?_) depth
      rintro rfl
      exact hnew (h.parent_mem link hlink)
    simp only [hsame, List.flatMap_append, List.flatMap_singleton, hlast]
    exact ((ih hdepth).append_right _).trans
      (List.perm_append_comm.trans (perm_reached_root forest start).symm)
  | @link forest parent child h hparent hnew ih =>
    obtain ⟨depth, rfl⟩ : ∃ n, depth = n + 1 := by
      rw [List.length_append, List.length_singleton] at hdepth
      exact ⟨depth - 1, by omega⟩
    have hroom : forest.links.length ≤ depth := by
      rw [List.length_append, List.length_singleton] at hdepth
      omega
    have hne : parent ≠ child := by
      rintro rfl
      exact hnew hparent
    have hsources : ∀ link ∈ forest.links, link.1 ≠ child := by
      rintro link hlink rfl
      exact hnew (h.parent_mem link hlink)
    have honce :
        (forest.roots.flatMap fun r => (forest.treeAt depth r).indices).count parent = 1 := by
      rw [(ih hroom).count_eq]
      exact List.count_eq_one_of_mem h.nodup hparent
    rw [List.count_flatMap] at honce
    refine List.perm_iff_count.mpr fun i => ?_
    have hbefore := (ih (Nat.le_succ_of_le hroom)).count_eq i
    rw [List.count_flatMap] at hbefore
    rw [reached_link, List.count_append, ← hbefore, List.count_flatMap, List.count_singleton]
    simp only [Function.comp_def, count_treeAt_link hne hsources, List.sum_map_add]
    by_cases hi : i = child
    · simp only [Function.comp_def] at honce
      simp [hi, honce]
    · simp [hi, Ne.symm hi]

/-! ## The search -/

theorem mem_usable {count a b : Nat} {edges : List (Nat × Nat)} :
    (a, b) ∈ usable count edges ↔ (a, b) ∈ edges ∧ a ≠ b ∧ a < count ∧ b < count := by
  simp [usable, List.mem_filter, and_assoc]

theorem usable_below {count : Nat} {edges : List (Nat × Nat)} :
    ∀ e ∈ usable count edges, e.2 < count := by
  rintro ⟨a, b⟩ he
  exact (mem_usable.mp he).2.2.2

/-- The links that the search has taken form a forest with the roots; what hangs in
it are the children that are seen. -/
structure Reach.Sound (count : Nat) (roots : List Nat) (reach : Reach) : Prop where
  grown : Grown ⟨roots, reach.links⟩
  seen : ∀ i, i ∈ reach.seen ↔ i ∈ reached ⟨roots, reach.links⟩
  below : ∀ i ∈ reach.seen, i < count

section

variable {count : Nat} {roots : List Nat} {reach : Reach}

theorem Reach.Sound.follow (h : reach.Sound count roots) {parent next : Nat}
    (hparent : parent ∈ reach.seen) (hnext : next < count) :
    (reach.follow parent next).Sound count roots ∧
      reach.seen ⊆ (reach.follow parent next).seen := by
  unfold Reach.follow
  by_cases hseen : reach.seen.contains next = true
  · rw [if_pos hseen]
    exact ⟨h, List.Subset.refl _⟩
  · rw [if_neg hseen]
    have hnew : next ∉ reached ⟨roots, reach.links⟩ := by
      rw [← h.seen]
      simpa using hseen
    refine ⟨⟨h.grown.link ((h.seen parent).mp hparent) hnew, fun i => ?_, fun i hi => ?_⟩,
      List.subset_append_left _ _⟩
    · have hlink := reached_link ⟨roots, reach.links⟩ parent next
      simp only at hlink
      rw [hlink, List.mem_append, List.mem_append, h.seen]
    · rcases List.mem_append.mp hi with hi | hi
      · exact h.below i hi
      · rwa [List.mem_singleton.mp hi]

theorem Reach.Sound.follow_all (h : reach.Sound count roots) {parent : Nat}
    (hparent : parent ∈ reach.seen) {targets : List Nat} (htargets : ∀ t ∈ targets, t < count) :
    (targets.foldl (Reach.follow parent) reach).Sound count roots ∧
      reach.seen ⊆ (targets.foldl (Reach.follow parent) reach).seen := by
  induction targets generalizing reach with
  | nil => exact ⟨h, List.Subset.refl _⟩
  | cons t rest ih =>
    obtain ⟨hfirst, hsubset⟩ := h.follow hparent (htargets t List.mem_cons_self)
    obtain ⟨hrest, hsubset'⟩ := ih hfirst (hsubset hparent) fun t ht =>
      htargets t (List.mem_cons_of_mem _ ht)
    exact ⟨hrest, List.Subset.trans hsubset hsubset'⟩

/-- However long it goes on, a search from what is seen sees more, and stays sound. -/
theorem Reach.Sound.search {edges : List (Nat × Nat)} (hedges : ∀ e ∈ edges, e.2 < count)
    (h : reach.Sound count roots) {queue : List Nat} (hqueue : queue ⊆ reach.seen) (fuel : Nat) :
    (SpanningForest.search edges fuel queue reach).Sound count roots ∧
      reach.seen ⊆ (SpanningForest.search edges fuel queue reach).seen := by
  induction fuel generalizing queue reach with
  | zero => exact ⟨h, List.Subset.refl _⟩
  | succ fuel ih =>
    cases queue with
    | nil => exact ⟨h, List.Subset.refl _⟩
    | cons current queue =>
      obtain ⟨hcurrent, hrest⟩ := List.cons_subset.mp hqueue
      have htargets : ∀ t ∈ (edges.filter fun e => e.1 = current).map (·.2), t < count := by
        intro t ht
        obtain ⟨e, he, rfl⟩ := List.mem_map.mp ht
        exact hedges e (List.mem_filter.mp he).1
      obtain ⟨hnext, hsubset⟩ := h.follow_all hcurrent htargets
      obtain ⟨hlast, hsubset'⟩ := ih hnext (List.append_subset.mpr
        ⟨List.Subset.trans hrest hsubset, List.drop_subset reach.seen.length _⟩)
      exact ⟨hlast, List.Subset.trans hsubset hsubset'⟩

theorem Reach.Sound.root (h : reach.Sound count roots) {start : Nat} (hnew : start ∉ reach.seen)
    (hstart : start < count) :
    Reach.Sound count (roots ++ [start]) ⟨reach.seen ++ [start], reach.links⟩ where
  grown := h.grown.root fun hmem => hnew ((h.seen start).mpr hmem)
  seen i := by
    have hroot := (perm_reached_root ⟨roots, reach.links⟩ start).mem_iff (a := i)
    simp only at hroot
    rw [hroot, List.mem_append, List.mem_singleton, List.mem_cons, h.seen, or_comm]
  below i hi := by
    rcases List.mem_append.mp hi with hi | hi
    · exact h.below i hi
    · rwa [List.mem_singleton.mp hi]

end

/-- A search that starts at all of these sees all of them. -/
theorem sound_grow_all {count : Nat} {edges : List (Nat × Nat)} (hedges : ∀ e ∈ edges, e.2 < count)
    {starts : List Nat} (hstarts : ∀ i ∈ starts, i < count) {state : List Nat × Reach}
    (h : state.2.Sound count state.1) :
    (starts.foldl (grow count edges) state).2.Sound count
        (starts.foldl (grow count edges) state).1 ∧
      state.2.seen ⊆ (starts.foldl (grow count edges) state).2.seen ∧
      starts ⊆ (starts.foldl (grow count edges) state).2.seen := by
  induction starts generalizing state with
  | nil => exact ⟨h, List.Subset.refl _, List.nil_subset _⟩
  | cons start rest ih =>
    have hgrown : (grow count edges state start).2.Sound count (grow count edges state start).1 ∧
        start :: state.2.seen ⊆ (grow count edges state start).2.seen := by
      obtain ⟨roots, reach⟩ := state
      unfold grow
      by_cases hseen : reach.seen.contains start = true
      · simp only [hseen, if_true]
        exact ⟨h, List.cons_subset.mpr ⟨by simpa using hseen, List.Subset.refl _⟩⟩
      · simp only [hseen]
        have hroot := h.root (by simpa using hseen) (hstarts start List.mem_cons_self)
        obtain ⟨hsound, hsubset⟩ := hroot.search hedges (List.subset_append_right _ _)
          count
        refine ⟨hsound, List.cons_subset.mpr ⟨hsubset (by simp), ?_⟩⟩
        exact List.Subset.trans (List.subset_append_left _ _) hsubset
    obtain ⟨hsound, hsubset⟩ := hgrown
    obtain ⟨hstart, hkept⟩ := List.cons_subset.mp hsubset
    obtain ⟨hlast, hkept', hrest⟩ := ih (fun i hi => hstarts i (List.mem_cons_of_mem _ hi)) hsound
    exact ⟨hlast, List.Subset.trans hkept hkept', List.cons_subset.mpr ⟨hkept' hstart, hrest⟩⟩

/-- The forest of some children has grown, and it reaches every one of them. -/
theorem grown_ofEdges (count : Nat) (edges : List (Nat × Nat)) :
    Grown (ofEdges count edges) ∧ (ofEdges count edges).reached.Perm (List.range count) := by
  let empty : List Nat × Reach := ([], ⟨[], []⟩)
  have hempty : empty.2.Sound count empty.1 :=
    ⟨.empty, fun _ => Iff.rfl, fun _ h => absurd h List.not_mem_nil⟩
  have hstarts : ∀ i ∈ ((List.range count).filter fun i =>
      !(usable count edges).any fun e => e.2 = i) ++ List.range count, i < count := by
    intro i hi
    simpa using List.append_subset.mpr ⟨List.filter_subset_self _, List.Subset.refl _⟩ hi
  obtain ⟨hsound, -, hall⟩ := sound_grow_all usable_below hstarts hempty
  refine ⟨hsound.grown,
    (List.perm_ext_iff_of_nodup hsound.grown.nodup List.nodup_range).mpr fun i => ?_⟩
  constructor
  · exact fun hi => List.mem_range.mpr (hsound.below i ((hsound.seen i).mpr hi))
  · exact fun hi => (hsound.seen i).mp (hall (List.mem_append_right _ hi))

/-- The trees of some children hold every child once. -/
theorem perm_indices_trees (count : Nat) (edges : List (Nat × Nat)) :
    (Rose.indicesOf (ofEdges count edges).trees).Perm (List.range count) := by
  obtain ⟨hgrown, hreached⟩ := grown_ofEdges count edges
  rw [Rose.indicesOf_eq, trees, List.flatMap_map]
  exact (hgrown.perm_trees (Nat.le_refl _)).trans hreached

end SpanningForest

end DiagramPress
