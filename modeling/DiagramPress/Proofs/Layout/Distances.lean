-- Depths in a spanning forest: none at a root, one more at each link, and in the first tree
-- the least number of edges that lead from its root. Every child hangs in the forest once.
import Mathlib.Order.Bounds.Basic
import DiagramPress.Proofs.Layout.Descent
import DiagramPress.Proofs.Layout.Searches
import DiagramPress.Proofs.Layout.TreeSpacing

namespace DiagramPress.SpanningForest

/-! ## Depths -/

/-- The depth of a child, looked up in its trees. -/
def depth (forest : SpanningForest) (i : Nat) : Nat :=
  ((Rose.depthsOf 0 forest.trees).lookup i).getD 0

/-- The depth of a child as a search writes it down when it takes links, one after the other. -/
def writtenDepth (links : List (Nat × Nat)) : Nat → Nat :=
  links.foldl (fun depth link => Function.update depth link.2 (depth link.1 + 1)) fun _ => 0

theorem writtenDepth_concat (links : List (Nat × Nat)) (parent child : Nat) :
    writtenDepth (links ++ [(parent, child)]) =
      Function.update (writtenDepth links) child (writtenDepth links parent + 1) := by
  rw [writtenDepth, List.foldl_append]
  rfl

theorem writtenDepth_of_not_child {links : List (Nat × Nat)} {i : Nat}
    (h : i ∉ links.map (·.2)) : writtenDepth links i = 0 := by
  induction links using List.reverseRecOn with
  | nil => rfl
  | append_singleton links link ih =>
    rw [List.map_append, List.mem_append, not_or, List.map_singleton, List.mem_singleton] at h
    rw [writtenDepth_concat, Function.update_of_ne h.2, ih h.1]

theorem HasDepth.mono {forest : SpanningForest} {i d : Nat} (h : forest.HasDepth i d)
    {roots : List Nat} {links : List (Nat × Nat)} (hroots : forest.roots ⊆ roots)
    (hlinks : forest.links ⊆ links) : HasDepth ⟨roots, links⟩ i d := by
  induction h with
  | root hroot => exact .root (hroots hroot)
  | link _ hlink ih => exact .link ih (hlinks hlink)

theorem HasDepth.mem_reached {forest : SpanningForest} {i d : Nat} (h : forest.HasDepth i d) :
    i ∈ forest.reached := by
  cases h with
  | root hroot => exact List.mem_append_left _ hroot
  | link _ hlink => exact List.mem_append_right _ (List.mem_map_of_mem hlink)

namespace Grown

variable {forest : SpanningForest}

/-- The trees say for each child how many links lead to it. -/
theorem hasDepth_depth (h : Grown forest) {i : Nat} (hi : i ∈ forest.reached) :
    forest.HasDepth i (forest.depth i) := by
  have hkeys : (Rose.depthsOf 0 forest.trees).map (·.1) = Rose.indicesOf forest.trees :=
    Rose.map_fst_depthsOf _ _
  have hnodup : ((Rose.depthsOf 0 forest.trees).map (·.1)).Nodup := by
    rw [hkeys]
    exact h.perm_indicesOf_trees.nodup_iff.mpr h.nodup
  have hi : i ∈ Rose.indicesOf forest.trees := h.perm_indicesOf_trees.mem_iff.mpr hi
  rw [← hkeys] at hi
  obtain ⟨⟨i, d⟩, hmem, rfl⟩ := List.mem_map.mp hi
  rw [depth, TreePlacement.lookup_of_mem hnodup hmem, Option.getD_some]
  exact hasDepth_of_mem_trees hmem

theorem depth_eq (h : Grown forest) {i d : Nat} (hd : forest.HasDepth i d) : forest.depth i = d :=
  h.depth_unique (h.hasDepth_depth hd.mem_reached) hd

theorem depth_root (h : Grown forest) : ∀ i ∈ forest.roots, forest.depth i = 0 :=
  fun _ hi => h.depth_eq (.root hi)

theorem depth_child (h : Grown forest) :
    ∀ link ∈ forest.links, forest.depth link.2 = forest.depth link.1 + 1 := by
  intro link hlink
  exact h.depth_eq ((h.hasDepth_depth (h.parent_mem link hlink)).link hlink)

/-- A link writes only the depth of its child, which was in no link before. -/
theorem writtenDepth_child (h : Grown forest) :
    ∀ link ∈ forest.links,
      writtenDepth forest.links link.2 = writtenDepth forest.links link.1 + 1 := by
  induction h with
  | empty => exact fun _ hlink => absurd hlink List.not_mem_nil
  | root _ _ ih => exact ih
  | @link forest parent child h hparent hnew ih =>
    have hkept {i : Nat} (hi : i ∈ forest.reached) :
        writtenDepth (forest.links ++ [(parent, child)]) i = writtenDepth forest.links i := by
      have hne : i ≠ child := by
        rintro rfl
        exact hnew hi
      rw [writtenDepth_concat, Function.update_of_ne hne]
    intro link hlink
    rcases List.mem_append.mp hlink with hlink | hlink
    · have hchild : link.2 ∈ forest.reached := List.mem_append_right _ (List.mem_map_of_mem hlink)
      rw [hkept hchild, hkept (h.parent_mem link hlink), ih link hlink]
    · obtain rfl := List.mem_singleton.mp hlink
      rw [hkept hparent, writtenDepth_concat, Function.update_self]

theorem writtenDepth_eq (h : Grown forest) {i d : Nat} (hd : forest.HasDepth i d) :
    writtenDepth forest.links i = d := by
  induction hd with
  | @root i hroot =>
    refine writtenDepth_of_not_child fun hchild => ?_
    obtain ⟨⟨a, _⟩, hlink, rfl⟩ := List.mem_map.mp hchild
    exact h.not_root_of_link hlink hroot
  | link _ hlink ih => rw [h.writtenDepth_child _ hlink, ih]

/-! ## Whole trees -/

/-- No tree is cut off: below each child stand all that links lead to, in their order. -/
theorem children_eq (h : Grown forest) {a : Nat} {ts : List Rose}
    (hsub : .node a ts ∈ Rose.subtreesOf forest.trees) :
    ts.map Rose.index = forest.childrenOf a := by
  obtain ⟨tree, htree, hnode⟩ := Rose.mem_subtreesOf.mp hsub
  obtain ⟨root, -, rfl⟩ := List.mem_map.mp htree
  obtain ⟨k, i, hat⟩ := exists_treeAt hnode
  cases k with
  | zero =>
    obtain ⟨rfl, rfl⟩ := Rose.node.inj hat
    refine (List.eq_nil_iff_forall_not_mem.mpr fun c hc => ?_).symm
    exact absurd ((h.mem_children_iff hsub).mpr (mem_childrenOf.mp hc)) List.not_mem_nil
  | succ k =>
    obtain ⟨rfl, rfl⟩ := Rose.node.inj hat
    rw [List.map_map]
    exact List.map_id'' (index_treeAt forest k) _

end Grown

theorem map_index_trees (forest : SpanningForest) : forest.trees.map Rose.index = forest.roots := by
  rw [trees, List.map_map]
  exact List.map_id'' (index_treeAt forest _) _

/-! ## The first tree -/

section FirstTree

variable {forest : SpanningForest} {root : Nat}

/-- The forest that has the same links, but only one root. -/
def only (forest : SpanningForest) (root : Nat) : SpanningForest := ⟨[root], forest.links⟩

/-- In the tree of a root stand those that links lead to from there. -/
theorem Grown.mem_tree_iff (h : Grown forest) (hroot : root ∈ forest.roots) {i : Nat} :
    i ∈ (forest.treeAt forest.links.length root).indices ↔
      ∃ d, (forest.only root).HasDepth i d := by
  have htree : forest.treeAt forest.links.length root ∈ forest.trees := List.mem_map_of_mem hroot
  constructor
  · intro hi
    rw [← Rose.map_fst_depths _ 0] at hi
    obtain ⟨⟨i, d⟩, hmem, rfl⟩ := List.mem_map.mp hi
    have hlinks : (forest.only root).links = forest.links := rfl
    rw [← treeAt_congr hlinks] at hmem
    exact ⟨d, hasDepth_of_mem_depths (.root (by simp [only])) _ hmem⟩
  · rintro ⟨d, hd⟩
    induction hd with
    | root hi =>
      obtain rfl := List.mem_singleton.mp hi
      rw [← Rose.map_index_subtrees]
      exact List.mem_map.mpr ⟨_, Rose.self_mem_subtrees _, index_treeAt _ _ _⟩
    | @link parent child _ _ hlink ih =>
      rw [← Rose.map_index_subtrees] at ih ⊢
      obtain ⟨⟨a, ts⟩, hsub, rfl⟩ := List.mem_map.mp ih
      have hnode : .node a ts ∈ Rose.subtreesOf forest.trees :=
        Rose.mem_subtreesOf.mpr ⟨_, htree, hsub⟩
      obtain ⟨t, ht, rfl⟩ := List.mem_map.mp ((h.mem_children_iff hnode).mpr hlink)
      have hbelow : t ∈ (Rose.node a ts).subtrees :=
        Rose.subtrees_of_child (Rose.mem_subtreesOf.mpr ⟨t, ht, Rose.self_mem_subtrees t⟩)
      exact List.mem_map_of_mem (Rose.subtrees_trans hsub hbelow)

end FirstTree

/-- Links are edges between children that exist, so following them is a walk. -/
theorem walk_of_hasDepth {count : Nat} {edges : List (Nat × Nat)} {forest : SpanningForest}
    (hlinks : ∀ link ∈ forest.links, link ∈ usable count edges) {root i d : Nat}
    (h : (forest.only root).HasDepth i d) : Walk count edges root i d := by
  induction h with
  | root hi =>
    obtain rfl := List.mem_singleton.mp hi
    exact .here
  | link _ hlink ih =>
    obtain ⟨hedge, -, hparent, hchild⟩ := mem_usable.mp (hlinks _ hlink)
    exact ih.step hedge hparent hchild

/-- The levels of a search are the depths along its links. -/
theorem Levels.eq_of_hasDepth {edges : List (Nat × Nat)} {root : Nat} {level : Nat → Nat}
    {done queue : List Nat} {reach : Reach} (h : Levels edges root level done queue reach)
    {i d : Nat} (hd : HasDepth ⟨[root], reach.links⟩ i d) : level i = d := by
  induction hd with
  | root hi => rw [List.mem_singleton.mp hi, h.root]
  | link _ hlink ih => rw [h.links _ hlink, ih]

/-- The first tree holds whoever edges lead to from its root, and their depths are the least
numbers of edges that do. -/
theorem first_tree {count : Nat} {edges : List (Nat × Nat)} {root : Nat}
    (hroot : (ofEdges count edges).roots.head? = some root) (i : Nat) :
    let forest := ofEdges count edges
    let tree := forest.treeAt forest.links.length root
    (i ∈ tree.indices ↔ ∃ n, Walk count edges root i n) ∧
      (i ∈ tree.indices → IsLeast {n | Walk count edges root i n} (forest.depth i)) := by
  intro forest tree
  have hgrown : Grown forest := (grown_ofEdges count edges).1
  have hmem : root ∈ forest.roots := List.mem_of_head? hroot
  have hwalk {i d : Nat} (hd : (forest.only root).HasDepth i d) : Walk count edges root i d :=
    walk_of_hasDepth links_ofEdges hd
  obtain ⟨reach, level, hfrontier, hlevels, hlinks⟩ := exists_first_search hroot
  -- Whoever a walk leads to was seen by the first search, at a level that is its depth.
  have hseen {i n : Nat} (hn : Walk count edges root i n) :
      (forest.only root).HasDepth i (level i) ∧ level i ≤ n := by
    obtain ⟨hi, hle⟩ := hlevels.le_of_walk hfrontier hn
    have hd := hfrontier.sound.grown.hasDepth_depth ((hfrontier.sound.seen i).mp hi)
    rw [hlevels.eq_of_hasDepth hd] at hle ⊢
    exact ⟨hd.mono (List.Subset.refl _) hlinks.subset, hle⟩
  have htree : i ∈ tree.indices ↔ ∃ n, Walk count edges root i n := by
    rw [hgrown.mem_tree_iff hmem]
    exact ⟨fun ⟨d, hd⟩ => ⟨d, hwalk hd⟩, fun ⟨_, hn⟩ => ⟨_, (hseen hn).1⟩⟩
  refine ⟨htree, fun hi => ?_⟩
  obtain ⟨n, hn⟩ := htree.mp hi
  obtain ⟨hdepth, -⟩ := hseen hn
  have hsub : (forest.only root).roots ⊆ forest.roots :=
    fun _ hr => List.mem_singleton.mp hr ▸ hmem
  rw [hgrown.depth_eq (hdepth.mono hsub (List.Subset.refl _))]
  exact ⟨hwalk hdepth, fun _ hm => (hseen hm).2⟩

/-! ## The forest -/

/-- What a spanning forest of some children is. -/
structure Spans (forest : SpanningForest) (count : Nat) (edges : List (Nat × Nat)) : Prop where
  /-- Every child is a root or hangs below one parent. -/
  partition : (forest.roots ++ forest.links.map (·.2)).Perm (List.range count)
  links_are_edges : ∀ link ∈ forest.links, link ∈ edges
  /-- The depths in the trees are those that a search writes down. -/
  written : ∀ i < count, writtenDepth forest.links i = forest.depth i
  root_depth : ∀ i ∈ forest.roots, forest.depth i = 0
  child_depth : ∀ link ∈ forest.links, forest.depth link.2 = forest.depth link.1 + 1
  /-- From the roots down, one comes to every child once. -/
  visits : (Rose.indicesOf forest.trees).Perm (List.range count)
  tree_roots : forest.trees.map Rose.index = forest.roots
  tree_children : ∀ a ts, .node a ts ∈ Rose.subtreesOf forest.trees →
    ts.map Rose.index = forest.childrenOf a
  /-- Children that no other child has an edge to come first, in the order of their numbers. -/
  sources_first : ((List.range count).filter fun i =>
    ∀ e ∈ edges, e.2 = i → e.1 = i ∨ count ≤ e.1) <+: forest.roots
  shortest : ∀ tree ∈ forest.trees.head?, ∀ i,
    (i ∈ tree.indices ↔ ∃ n, Walk count edges tree.index i n) ∧
      (i ∈ tree.indices → IsLeast {n | Walk count edges tree.index i n} (forest.depth i))

/-- The search finds such a forest, and ends by itself: no search needs more steps than there
are children. -/
theorem the_search_finds_a_spanning_forest (count : Nat) (edges : List (Nat × Nat)) :
    (ofEdges count edges).Spans count edges ∧
      ∀ more, within (count + more) count edges = ofEdges count edges := by
  obtain ⟨hgrown, hreached⟩ := grown_ofEdges count edges
  refine ⟨?_, within_more count edges⟩
  exact {
    partition := hreached
    links_are_edges := fun link hlink => (mem_usable.mp (links_ofEdges link hlink)).1
    written := fun i hi =>
      hgrown.writtenDepth_eq (hgrown.hasDepth_depth (hreached.mem_iff.mpr (List.mem_range.mpr hi)))
    root_depth := hgrown.depth_root
    child_depth := hgrown.depth_child
    visits := perm_indices_trees count edges
    tree_roots := map_index_trees _
    tree_children := fun _ _ hsub => hgrown.children_eq hsub
    sources_first := sources_prefix count edges
    shortest := by
      intro tree htree i
      rw [trees, List.head?_map] at htree
      obtain ⟨root, hroot, rfl⟩ := Option.map_eq_some_iff.mp htree
      rw [index_treeAt]
      exact first_tree hroot i }

example : ofEdges 4 [(1, 0), (0, 1), (2, 3)] = ⟨[2, 0], [(2, 3), (0, 1)]⟩ := by decide

end DiagramPress.SpanningForest
