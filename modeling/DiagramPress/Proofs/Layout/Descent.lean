-- Who stands below whom in a forest: along its links every child has one depth, and the
-- subtree at a child holds whoever can be reached from there.
import Mathlib.Logic.Relation
import DiagramPress.Proofs.Layout.SpanningForest

namespace DiagramPress

namespace Rose

/-! ## Subtrees -/

mutual

/-- The subtrees of a tree, the tree itself first. -/
def subtrees : Rose → List Rose
  | .node i children => .node i children :: subtreesOf children

def subtreesOf : List Rose → List Rose
  | [] => []
  | t :: rest => subtrees t ++ subtreesOf rest

end

theorem subtreesOf_eq (ts : List Rose) : subtreesOf ts = ts.flatMap subtrees := by
  induction ts with
  | nil => rw [subtreesOf, List.flatMap_nil]
  | cons t rest ih => rw [subtreesOf, ih, List.flatMap_cons]

theorem subtrees_node (i : Nat) (ts : List Rose) :
    (node i ts).subtrees = node i ts :: ts.flatMap subtrees := by
  rw [subtrees, subtreesOf_eq]

theorem mem_subtreesOf {ts : List Rose} {u : Rose} :
    u ∈ subtreesOf ts ↔ ∃ t ∈ ts, u ∈ t.subtrees := by
  rw [subtreesOf_eq, List.mem_flatMap]

theorem self_mem_subtrees (t : Rose) : t ∈ t.subtrees := by
  cases t with
  | node i ts =>
    rw [subtrees_node]
    exact List.mem_cons_self

/-- There is one subtree for each number in a tree. -/
theorem map_index_subtrees (t : Rose) : t.subtrees.map index = t.indices := by
  induction t using Rose.induction with
  | step i ts ih =>
    rw [subtrees_node, indices_node, List.map_cons, List.map_flatMap, index]
    exact congrArg _ (List.flatMap_congr ih)

theorem map_index_subtreesOf (ts : List Rose) : (subtreesOf ts).map index = indicesOf ts := by
  rw [subtreesOf_eq, indicesOf_eq, List.map_flatMap]
  exact List.flatMap_congr fun t _ => map_index_subtrees t

theorem subtrees_trans {t u v : Rose} (hu : u ∈ t.subtrees) (hv : v ∈ u.subtrees) :
    v ∈ t.subtrees := by
  induction t using Rose.induction with
  | step i ts ih =>
    rw [subtrees_node] at hu
    rcases List.mem_cons.mp hu with rfl | hu
    · exact hv
    · obtain ⟨t, ht, hut⟩ := List.mem_flatMap.mp hu
      rw [subtrees_node]
      exact List.mem_cons_of_mem _ (List.mem_flatMap.mpr ⟨t, ht, ih t ht hut⟩)

theorem subtreesOf_trans {ts : List Rose} {u v : Rose} (hu : u ∈ subtreesOf ts)
    (hv : v ∈ u.subtrees) : v ∈ subtreesOf ts := by
  obtain ⟨t, ht, hut⟩ := mem_subtreesOf.mp hu
  exact mem_subtreesOf.mpr ⟨t, ht, subtrees_trans hut hv⟩

theorem subtrees_of_child {i : Nat} {ts : List Rose} {u : Rose} (h : u ∈ subtreesOf ts) :
    u ∈ (node i ts).subtrees := by
  rw [subtrees]
  exact List.mem_cons_of_mem _ h

/-- A subtree is the whole tree, or it stands at a child. -/
theorem eq_or_child_of_mem_subtrees {t u : Rose} (h : u ∈ t.subtrees) :
    u = t ∨ ∃ i us, node i us ∈ t.subtrees ∧ u ∈ us := by
  induction t using Rose.induction with
  | step i ts ih =>
    rw [subtrees_node] at h
    rcases List.mem_cons.mp h with rfl | h
    · exact .inl rfl
    · obtain ⟨t, ht, hu⟩ := List.mem_flatMap.mp h
      have hup {v : Rose} (hv : v ∈ t.subtrees) : v ∈ (node i ts).subtrees :=
        subtrees_of_child (mem_subtreesOf.mpr ⟨t, ht, hv⟩)
      rcases ih t ht hu with rfl | ⟨j, us, hj, hus⟩
      · exact .inr ⟨i, ts, self_mem_subtrees _, ht⟩
      · exact .inr ⟨j, us, hup hj, hus⟩

end Rose

namespace SpanningForest

variable {forest : SpanningForest}

/-! ## Along the links -/

/-- How many links lead from a root to the child. -/
inductive HasDepth (forest : SpanningForest) : Nat → Nat → Prop
  | root {i : Nat} (h : i ∈ forest.roots) : HasDepth forest i 0
  | link {parent child d : Nat} (h : HasDepth forest parent d)
    (hlink : (parent, child) ∈ forest.links) : HasDepth forest child (d + 1)

/-- Links lead from the first child on to the second one. -/
def Above (forest : SpanningForest) : Nat → Nat → Prop :=
  Relation.TransGen fun a b => (a, b) ∈ forest.links

theorem mem_childrenOf {a c : Nat} : c ∈ forest.childrenOf a ↔ (a, c) ∈ forest.links := by
  unfold childrenOf
  simp [List.mem_map, List.mem_filter]

theorem mem_reached_of_above {a i : Nat} (h : forest.Above a i) : i ∈ forest.reached := by
  obtain ⟨b, -, hlink⟩ := Relation.TransGen.tail'_iff.mp h
  exact List.mem_append_right _ (List.mem_map_of_mem hlink)

namespace Grown

theorem not_root_of_link (h : Grown forest) {a i : Nat} (hlink : (a, i) ∈ forest.links) :
    i ∉ forest.roots := by
  intro hroot
  have hnodup := h.nodup
  unfold reached at hnodup
  exact (List.nodup_append.mp hnodup).2.2 i hroot i (List.mem_map_of_mem hlink) rfl

/-- Only one link leads to a child. -/
theorem parent_unique (h : Grown forest) {a b i : Nat} (ha : (a, i) ∈ forest.links)
    (hb : (b, i) ∈ forest.links) : a = b := by
  have hnodup := h.nodup
  unfold reached at hnodup
  have hlinks := (List.nodup_append.mp hnodup).2.1
  exact congrArg Prod.fst (List.inj_on_of_nodup_map hlinks ha hb rfl)

theorem depth_unique (h : Grown forest) {i d d' : Nat} (hd : forest.HasDepth i d)
    (hd' : forest.HasDepth i d') : d = d' := by
  induction hd generalizing d' with
  | root hroot =>
    cases hd' with
    | root => rfl
    | link _ hlink => exact absurd hroot (h.not_root_of_link hlink)
  | link _ hlink ih =>
    cases hd' with
    | root hroot => exact absurd hroot (h.not_root_of_link hlink)
    | link hparent hlink' =>
      obtain rfl := h.parent_unique hlink hlink'
      rw [ih hparent]

end Grown

/-! ## In the trees -/

theorem index_treeAt (forest : SpanningForest) (depth root : Nat) :
    (forest.treeAt depth root).index = root := by
  cases depth <;> rfl

/-- Trees have the depths that the links give. -/
theorem hasDepth_of_mem_depths {depth root k : Nat} (hroot : forest.HasDepth root k) :
    ∀ entry ∈ (forest.treeAt depth root).depths k, forest.HasDepth entry.1 entry.2 := by
  induction depth generalizing root k with
  | zero =>
    intro entry hentry
    rw [treeAt, Rose.depths_node, List.flatMap_nil, List.mem_singleton] at hentry
    exact hentry ▸ hroot
  | succ depth ih =>
    intro entry hentry
    rw [treeAt, Rose.depths_node, List.flatMap_map] at hentry
    rcases List.mem_cons.mp hentry with rfl | hentry
    · exact hroot
    · obtain ⟨c, hc, hentry⟩ := List.mem_flatMap.mp hentry
      exact ih (hroot.link (mem_childrenOf.mp hc)) entry hentry

theorem hasDepth_of_mem_trees {i d : Nat} (h : (i, d) ∈ Rose.depthsOf 0 forest.trees) :
    forest.HasDepth i d := by
  rw [Rose.depthsOf_eq, trees, List.flatMap_map] at h
  obtain ⟨root, hroot, hentry⟩ := List.mem_flatMap.mp h
  exact hasDepth_of_mem_depths (.root hroot) (i, d) hentry

/-- Every subtree of a tree is a tree at some child. -/
theorem exists_treeAt {depth root : Nat} {u : Rose}
    (h : u ∈ (forest.treeAt depth root).subtrees) : ∃ k i, u = forest.treeAt k i := by
  induction depth generalizing root with
  | zero =>
    rw [treeAt, Rose.subtrees_node, List.flatMap_nil, List.mem_singleton] at h
    exact ⟨0, root, h⟩
  | succ depth ih =>
    rw [treeAt, Rose.subtrees_node, List.flatMap_map] at h
    rcases List.mem_cons.mp h with rfl | h
    · exact ⟨depth + 1, root, rfl⟩
    · obtain ⟨c, -, hu⟩ := List.mem_flatMap.mp h
      exact ih hu

theorem link_of_child {a : Nat} {ts : List Rose} (h : .node a ts ∈ Rose.subtreesOf forest.trees)
    {t : Rose} (ht : t ∈ ts) : (a, t.index) ∈ forest.links := by
  obtain ⟨tree, htree, hsub⟩ := Rose.mem_subtreesOf.mp h
  obtain ⟨root, -, rfl⟩ := List.mem_map.mp htree
  obtain ⟨k, i, hnode⟩ := exists_treeAt hsub
  cases k with
  | zero =>
    obtain ⟨-, rfl⟩ := Rose.node.inj hnode
    exact absurd ht List.not_mem_nil
  | succ k =>
    obtain ⟨rfl, rfl⟩ := Rose.node.inj hnode
    obtain ⟨c, hc, rfl⟩ := List.mem_map.mp ht
    rw [index_treeAt]
    exact mem_childrenOf.mp hc

theorem above_of_mem_subtrees {t u : Rose} (ht : t ∈ Rose.subtreesOf forest.trees)
    (hu : u ∈ t.subtrees) : u = t ∨ forest.Above t.index u.index := by
  induction t using Rose.induction with
  | step i ts ih =>
    rw [Rose.subtrees_node] at hu
    rcases List.mem_cons.mp hu with rfl | hu
    · exact .inl rfl
    · obtain ⟨c, hc, huc⟩ := List.mem_flatMap.mp hu
      have hchild : c ∈ Rose.subtreesOf forest.trees :=
        Rose.subtreesOf_trans ht (Rose.subtrees_of_child (Rose.mem_subtreesOf.mpr
          ⟨c, hc, Rose.self_mem_subtrees c⟩))
      have hlink : (i, c.index) ∈ forest.links := link_of_child ht hc
      rcases ih c hc hchild huc with rfl | habove
      · exact .inr (.single hlink)
      · exact .inr (habove.head hlink)

namespace Grown

theorem perm_indicesOf_trees (h : Grown forest) :
    (Rose.indicesOf forest.trees).Perm forest.reached := by
  rw [Rose.indicesOf_eq, trees, List.flatMap_map]
  exact h.perm_trees (Nat.le_refl _)

/-- There is one subtree at each child. -/
theorem subtree_unique (h : Grown forest) {u v : Rose} (hu : u ∈ Rose.subtreesOf forest.trees)
    (hv : v ∈ Rose.subtreesOf forest.trees) (hindex : u.index = v.index) : u = v := by
  have hnodup : ((Rose.subtreesOf forest.trees).map Rose.index).Nodup := by
    rw [Rose.map_index_subtreesOf]
    exact h.perm_indicesOf_trees.nodup_iff.mpr h.nodup
  exact List.inj_on_of_nodup_map hnodup hu hv hindex

theorem exists_subtree (h : Grown forest) {i : Nat} (hi : i ∈ forest.reached) :
    ∃ ts, .node i ts ∈ Rose.subtreesOf forest.trees := by
  have hindex := h.perm_indicesOf_trees.mem_iff.mpr hi
  rw [← Rose.map_index_subtreesOf] at hindex
  obtain ⟨⟨j, ts⟩, hsub, rfl⟩ := List.mem_map.mp hindex
  exact ⟨ts, hsub⟩

/-- The child at the end of a link stands in the tree below the child at its start. -/
theorem exists_child (h : Grown forest) {a c : Nat} (hlink : (a, c) ∈ forest.links) :
    ∃ ts, .node a ts ∈ Rose.subtreesOf forest.trees ∧ c ∈ ts.map Rose.index := by
  have hreached : c ∈ forest.reached := List.mem_append_right _ (List.mem_map_of_mem hlink)
  obtain ⟨us, hsub⟩ := h.exists_subtree hreached
  obtain ⟨tree, htree, hu⟩ := Rose.mem_subtreesOf.mp hsub
  rcases Rose.eq_or_child_of_mem_subtrees hu with hwhole | ⟨b, ts, hb, hchild⟩
  · obtain ⟨root, hroot, rfl⟩ := List.mem_map.mp htree
    have hindex := congrArg Rose.index hwhole
    rw [index_treeAt] at hindex
    obtain rfl : c = root := hindex
    exact absurd hroot (h.not_root_of_link hlink)
  · have hb' : .node b ts ∈ Rose.subtreesOf forest.trees := Rose.mem_subtreesOf.mpr ⟨tree, htree, hb⟩
    obtain rfl : a = b := h.parent_unique hlink (link_of_child hb' hchild)
    exact ⟨ts, hb', List.mem_map_of_mem (f := Rose.index) hchild⟩

/-- The tree at a child goes on with the children that links lead to. -/
theorem mem_children_iff (h : Grown forest) {a : Nat} {ts : List Rose}
    (hsub : .node a ts ∈ Rose.subtreesOf forest.trees) {c : Nat} :
    c ∈ ts.map Rose.index ↔ (a, c) ∈ forest.links := by
  constructor
  · intro hc
    obtain ⟨t, ht, rfl⟩ := List.mem_map.mp hc
    exact link_of_child hsub ht
  · intro hlink
    obtain ⟨ts', hsub', hc⟩ := h.exists_child hlink
    obtain ⟨-, rfl⟩ := Rose.node.inj (h.subtree_unique hsub hsub' rfl)
    exact hc

/-- Below a child stand those that links lead to from there. -/
theorem mem_indices_iff (h : Grown forest) {a : Nat} {ts : List Rose}
    (hsub : .node a ts ∈ Rose.subtreesOf forest.trees) {i : Nat} :
    i ∈ Rose.indicesOf ts ↔ forest.Above a i := by
  rw [← Rose.map_index_subtreesOf]
  have hchild {us : List Rose} {t : Rose} (ht : t ∈ us) : t ∈ Rose.subtreesOf us :=
    Rose.mem_subtreesOf.mpr ⟨t, ht, Rose.self_mem_subtrees t⟩
  constructor
  · intro hi
    obtain ⟨u, hu, rfl⟩ := List.mem_map.mp hi
    obtain ⟨t, ht, hut⟩ := Rose.mem_subtreesOf.mp hu
    have hlink : (a, t.index) ∈ forest.links := link_of_child hsub ht
    have ht' := Rose.subtreesOf_trans hsub (Rose.subtrees_of_child (hchild ht))
    rcases above_of_mem_subtrees ht' hut with rfl | habove
    · exact .single hlink
    · exact habove.head hlink
  · intro habove
    induction habove with
    | single hlink =>
      obtain ⟨t, ht, rfl⟩ := List.mem_map.mp ((h.mem_children_iff hsub).mpr hlink)
      exact List.mem_map_of_mem (hchild ht)
    | tail _ hlink ih =>
      obtain ⟨⟨b, us⟩, hb, rfl⟩ := List.mem_map.mp ih
      have hb' := Rose.subtreesOf_trans hsub (Rose.subtrees_of_child hb)
      obtain ⟨t, ht, rfl⟩ := List.mem_map.mp ((h.mem_children_iff hb').mpr hlink)
      exact List.mem_map_of_mem (Rose.subtreesOf_trans hb (Rose.subtrees_of_child (hchild ht)))

end Grown

end SpanningForest

end DiagramPress
