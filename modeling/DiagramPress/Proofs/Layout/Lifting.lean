-- Connections between siblings. Of every pair of ends, the engine keeps an edge in one
-- container, the lowest one around both, as long as neither end holds the other.
import DiagramPress.Proofs.Layout.Acyclic
import DiagramPress.Proofs.Layout.Faults
import DiagramPress.Proofs.Layout.Separation
import DiagramPress.Proofs.Layout.Ways

namespace DiagramPress

namespace Frame

variable {α : Type}

/-! ## Edges between children -/

/-- The edge leads from the child that is or holds the source to another child, which is
or holds the target. -/
structure Joins (c : Frame α) (source target : String) (edge : Nat × Nat) : Prop where
  different : edge.1 ≠ edge.2
  source : ∃ a, c.children[edge.1]? = some a ∧ source ∈ a.id :: a.names
  target : ∃ b, c.children[edge.2]? = some b ∧ target ∈ b.id :: b.names

/-- The number of the child that is or holds the frame with an id. -/
def childWith? (c : Frame α) (id : String) : Option Nat :=
  c.children.findIdx? fun a => decide (id ∈ a.id :: a.names)

def edgeBetween? (c : Frame α) (source target : String) : Option (Nat × Nat) :=
  match c.childWith? source, c.childWith? target with
  | some i, some j => if i = j then none else some (i, j)
  | _, _ => none

section

variable {c : Frame α} (hnodup : c.names.Nodup)
include hnodup

theorem childWith?_eq_some_iff {id : String} {i : Nat} :
    c.childWith? id = some i ↔ ∃ a, c.children[i]? = some a ∧ id ∈ a.id :: a.names := by
  unfold childWith?
  rw [List.findIdx?_eq_some_iff_getElem]
  constructor
  · rintro ⟨hi, hid, -⟩
    exact ⟨c.children[i], List.getElem?_eq_getElem hi, by simpa using hid⟩
  · rintro ⟨a, ha, hid⟩
    obtain ⟨hi, rfl⟩ := List.getElem?_eq_some_iff.mp ha
    refine ⟨hi, by simpa using hid, fun j hlt hj => ?_⟩
    have hsame := child_unique hnodup (List.getElem?_eq_getElem (Nat.lt_trans hlt hi)) ha
      (by simpa using hj) hid
    omega

theorem edgeBetween?_eq_some_iff {source target : String} {edge : Nat × Nat} :
    c.edgeBetween? source target = some edge ↔ c.Joins source target edge := by
  obtain ⟨i, j⟩ := edge
  have hends : c.edgeBetween? source target = some (i, j) ↔
      i ≠ j ∧ c.childWith? source = some i ∧ c.childWith? target = some j := by
    unfold edgeBetween?
    cases c.childWith? source <;> cases c.childWith? target <;> grind
  rw [hends, childWith?_eq_some_iff hnodup, childWith?_eq_some_iff hnodup]
  constructor
  · rintro ⟨hne, hsource, htarget⟩
    exact ⟨hne, hsource, htarget⟩
  · rintro ⟨hne, hsource, htarget⟩
    exact ⟨hne, hsource, htarget⟩

end

/-- The edges of the container are those that pairs of ends ask for, each of them once, and
they stand in the order in which they are asked for first. -/
structure Lifts (c : Frame α) (pairs : List (Link × String × String)) (edges : List (Nat × Nat)) :
    Prop where
  mem_iff : ∀ edge, edge ∈ edges ↔ ∃ pair ∈ pairs, c.Joins pair.2.1 pair.2.2 edge
  once : edges.Nodup
  inOrder : edges.Pairwise fun edge later => ∃ before pair after,
    pairs = before ++ pair :: after ∧ c.Joins pair.2.1 pair.2.2 edge ∧
      ∀ p ∈ before, ¬ c.Joins p.2.1 p.2.2 later

theorem lifts_once {c : Frame α} (hnodup : c.names.Nodup) (pairs : List (Link × String × String)) :
    c.Lifts pairs (Acyclic.once [] (pairs.filterMap fun pair =>
      c.edgeBetween? pair.2.1 pair.2.2)) where
  mem_iff edge := by
    rw [Acyclic.mem_once, List.mem_filterMap]
    simp only [edgeBetween?_eq_some_iff hnodup, List.not_mem_nil, not_false_eq_true, and_true]
  once := Acyclic.nodup_once _ _
  inOrder := by
    refine (Acyclic.pairwise_once _ _).imp fun {edge later} hfirst => ?_
    obtain ⟨askedBefore, askedAfter, hasked, hnew⟩ := hfirst
    obtain ⟨before, rest, rfl, rfl, hrest⟩ := List.filterMap_eq_append_iff.mp hasked
    obtain ⟨skipped, pair, after, rfl, hskipped, hpair, -⟩ := List.filterMap_eq_cons_iff.mp hrest
    refine ⟨before ++ skipped, pair, after, by simp, (edgeBetween?_eq_some_iff hnodup).mp hpair, ?_⟩
    intro p hp hjoins
    have hlater := (edgeBetween?_eq_some_iff hnodup).mpr hjoins
    rcases List.mem_append.mp hp with hp | hp
    · exact hnew (List.mem_filterMap.mpr ⟨p, hp, hlater⟩)
    · rw [hskipped p hp] at hlater
      cases hlater

/-! ## The lowest container around two ends -/

/-- Neither of the two ends is, or holds, the other one. -/
structure Parts (root : Frame α) (source target : String) : Prop where
  different : source ≠ target
  outward : ¬ root.Holds source target
  inward : ¬ root.Holds target source

/-- The container holds both ends, and so does no other one inside of it. -/
structure IsLowestAround (root c : Frame α) (source target : String) : Prop where
  holds_source : source ∈ c.names
  holds_target : target ∈ c.names
  lowest : ∀ d ∈ root :: root.inside, source ∈ d.names → target ∈ d.names → c ∈ d :: d.inside

theorem Joins.mem_names {c : Frame α} {source target : String} {edge : Nat × Nat}
    (h : c.Joins source target edge) : source ∈ c.names ∧ target ∈ c.names := by
  obtain ⟨a, ha, hsource⟩ := h.source
  obtain ⟨b, hb, htarget⟩ := h.target
  exact ⟨mem_names_iff.mpr ⟨_, a, ha, hsource⟩, mem_names_iff.mpr ⟨_, b, hb, htarget⟩⟩

theorem Joins.symm {c : Frame α} {source target : String} {edge : Nat × Nat}
    (h : c.Joins source target edge) : c.Joins target source (edge.2, edge.1) :=
  ⟨h.different.symm, h.target, h.source⟩

/-- Ends in two children are not both inside one frame of the container. -/
theorem Joins.not_both {c d : Frame α} (hnodup : c.names.Nodup) {source target : String}
    {edge : Nat × Nat} (h : c.Joins source target edge) (hd : d ∈ c.inside)
    (hsource : source ∈ d.id :: d.names) (htarget : target ∈ d.id :: d.names) : False := by
  obtain ⟨a, ha, hin⟩ := h.source
  obtain ⟨b, hb, hin'⟩ := h.target
  obtain ⟨e, he, hde⟩ := mem_inside_iff.mp hd
  obtain ⟨k, hk⟩ := List.mem_iff_getElem?.mp he
  have hholds {id : String} (hid : id ∈ d.id :: d.names) : id ∈ e.id :: e.names := by
    rcases hde with rfl | hde
    · exact hid
    · exact List.mem_cons_of_mem _ (mem_names_of_mem_inside hde hid)
  have hi := child_unique hnodup ha hk hin (hholds hsource)
  have hj := child_unique hnodup hb hk hin' (hholds htarget)
  exact h.different (hi.trans hj.symm)

section

variable {root : Frame α} (hnodup : root.names.Nodup)
include hnodup

theorem Joins.isLowestAround {c : Frame α} (hc : c ∈ root :: root.inside) {source target : String}
    {edge : Nat × Nat} (h : c.Joins source target edge) :
    root.IsLowestAround c source target where
  holds_source := h.mem_names.1
  holds_target := h.mem_names.2
  lowest d hd hsource htarget := by
    rcases inside_or_inside hnodup hc hd h.mem_names.1 hsource with hin | hin
    · exact hin
    · exact (h.not_both (nodup_names_of_mem hnodup hc) hin (List.mem_cons_of_mem _ hsource)
        (List.mem_cons_of_mem _ htarget)).elim

/-- A frame inside that has an id of a child, or of what the child holds, is there too. -/
theorem mem_of_id_mem {c d : Frame α} (hc : c ∈ root.inside) (hd : d ∈ root.inside)
    (hid : d.id ∈ c.id :: c.names) : d ∈ c :: c.inside := by
  rcases List.mem_cons.mp hid with hsame | hid
  · rw [eq_of_id hnodup hd hc hsame]
    exact List.mem_cons_self
  · obtain ⟨e, he, hsame⟩ := List.mem_map.mp hid
    rw [eq_of_id hnodup hd (inside_trans (List.mem_cons_of_mem _ hc) he) hsame.symm]
    exact List.mem_cons_of_mem _ he

theorem Joins.not_holds {c : Frame α} (hc : c ∈ root :: root.inside) {source target : String}
    {edge : Nat × Nat} (h : c.Joins source target edge) : ¬ root.Holds source target := by
  rintro ⟨d, hd, rfl, htarget⟩
  obtain ⟨a, ha, hin⟩ := h.source
  have hchild : a ∈ c.inside := mem_inside_of_child (List.mem_of_getElem? ha) List.mem_cons_self
  have hmem := mem_of_id_mem hnodup (inside_trans hc hchild) hd hin
  have hinside : d ∈ c.inside := (cons_inside_sublist hchild).subset hmem
  exact h.not_both (nodup_names_of_mem hnodup hc) hinside List.mem_cons_self
    (List.mem_cons_of_mem _ htarget)

/-- Where there is an edge for two ends, neither of them is or holds the other one. -/
theorem Joins.parts {c : Frame α} (hc : c ∈ root :: root.inside) {source target : String}
    {edge : Nat × Nat} (h : c.Joins source target edge) : root.Parts source target where
  different := by
    rintro rfl
    obtain ⟨a, ha, hin⟩ := h.source
    have hchild : a ∈ c.inside := mem_inside_of_child (List.mem_of_getElem? ha) List.mem_cons_self
    exact h.not_both (nodup_names_of_mem hnodup hc) hchild hin hin
  outward := h.not_holds hnodup hc
  inward := h.symm.not_holds hnodup hc

omit hnodup in
/-- Two ends that part do so in some container. -/
theorem Parts.exists_joins {f : Frame α} {source target : String} (h : f.Parts source target)
    (hsource : source ∈ f.names) (htarget : target ∈ f.names) :
    ∃ above c edge, f.At above c ∧ c.Joins source target edge := by
  induction f using Frame.induction with
  | step f ih =>
    obtain ⟨i, a, ha, hsa⟩ := mem_names_iff.mp hsource
    obtain ⟨j, b, hb, htb⟩ := mem_names_iff.mp htarget
    by_cases hij : i = j
    · -- Both are in one child, and neither of them is the child itself.
      subst hij
      obtain rfl := Option.some.inj (ha.symm.trans hb)
      have hchild := List.mem_of_getElem? ha
      have hdeeper : f.Parts source target → source ∈ a.names ∧ target ∈ a.names := by
        intro h
        rcases List.mem_cons.mp hsa with rfl | hsa
        · rcases List.mem_cons.mp htb with heq | htb
          · exact absurd heq.symm h.different
          · exact absurd (holds_child hchild htb) h.outward
        · rcases List.mem_cons.mp htb with rfl | htb
          · exact absurd (holds_child hchild hsa) h.inward
          · exact ⟨hsa, htb⟩
      have hparts : a.Parts source target :=
        ⟨h.different, fun hh => h.outward (hh.of_child hchild),
          fun hh => h.inward (hh.of_child hchild)⟩
      obtain ⟨above, c, edge, hat, hjoins⟩ := ih a hchild hparts (hdeeper h).1 (hdeeper h).2
      exact ⟨a.id :: above, c, edge, .into hchild hat, hjoins⟩
    · exact ⟨[], f, (i, j), .here f, hij, ⟨a, ha, hsa⟩, b, hb, htb⟩

/-- There is only one container with an edge for two ends. -/
theorem Joins.container_unique {above above' : List String} {c c' : Frame α}
    (hc : root.At above c) (hc' : root.At above' c') {source target : String}
    {edge edge' : Nat × Nat} (h : c.Joins source target edge)
    (h' : c'.Joins source target edge') : above' = above ∧ c' = c := by
  have hin := (h.isLowestAround hnodup hc.mem).lowest c' hc'.mem h'.mem_names.1 h'.mem_names.2
  have hin' := (h'.isLowestAround hnodup hc'.mem).lowest c hc.mem h.mem_names.1 h.mem_names.2
  obtain rfl := eq_of_mem_inside hin hin'
  exact ⟨hc'.path_unique hnodup hc, rfl⟩

end

end Frame

namespace NestedLayout

open DiagramPress.Frame

variable {α : Type}

/-! ## Ends in a container -/

theorem lift?_eq_some_iff {above ids path : List String} {i : Nat} :
    lift? above ids path = some i ↔
      ∃ next rest, path = above ++ next :: rest ∧ ids.idxOf? next = some i := by
  unfold lift?
  by_cases habove : above.isPrefixOf path = true
  · obtain ⟨below, rfl⟩ := List.isPrefixOf_iff_prefix.mp habove
    rw [if_pos habove, List.drop_left]
    cases below with
    | nil => simp
    | cons next rest => simp
  · rw [if_neg habove]
    constructor
    · intro h
      cases h
    · rintro ⟨next, rest, rfl, -⟩
      exact absurd (List.isPrefixOf_iff_prefix.mpr (List.prefix_append _ _)) habove

/-- A path is lifted to the child that is or holds the frame at its end. -/
theorem lift?_eq {root c : Frame α} (hnodup : root.names.Nodup) {above path : List String}
    (hc : root.At above c) (hpath : path ∈ paths [] root) :
    lift? above (c.children.map (·.id)) path = c.childWith? (idOf path) := by
  have hcnodup := nodup_names_of_mem hnodup hc.mem
  obtain ⟨path, g, hne, hg, rfl⟩ := mem_paths_iff.mp hpath
  rw [idOf_of_at hg hne]
  refine Option.ext fun i => ?_
  rw [lift?_eq_some_iff, childWith?_eq_some_iff hcnodup]
  constructor
  · rintro ⟨next, rest, rfl, hnext⟩
    obtain ⟨c', hc', hbelow⟩ := at_append_iff.mp hg
    obtain rfl := hc'.frame_unique hnodup hc
    cases hbelow with
    | @into _ a _ _ ha hbelow =>
      obtain ⟨j, hj⟩ := List.mem_iff_getElem?.mp ha
      obtain rfl := Option.some.inj ((idxOf?_child hcnodup hj).symm.trans hnext)
      exact ⟨a, hj, hbelow.id_mem⟩
  · rintro ⟨a, ha, hid⟩
    have hchild : a ∈ c.inside := mem_inside_of_child (List.mem_of_getElem? ha) List.mem_cons_self
    have hmem := mem_of_id_mem hnodup (inside_trans hc.mem hchild) (hg.mem_inside hne) hid
    obtain ⟨rest, hrest⟩ := exists_at hmem
    have hway : root.At (above ++ a.id :: rest) g :=
      at_append_iff.mpr ⟨c, hc, .into (List.mem_of_getElem? ha) hrest⟩
    exact ⟨a.id, rest, hg.path_unique hnodup hway, idxOf?_child hcnodup ha⟩

/-! ## The edges of a container -/

theorem filterMap_of_forall₂ {β γ δ : Type} {f : β → Option δ} {g : γ → Option δ} {l : List β}
    {l' : List γ} (h : List.Forall₂ (fun x y => f x = g y) l l') : l.filterMap f = l'.filterMap g := by
  induction h with
  | nil => rfl
  | cons hxy _ ih => rw [List.filterMap_cons, List.filterMap_cons, hxy, ih]

section

variable {root c : Frame α} {ends : List Ends} (hends : resolve root = .ok ends)
  {above : List String} (hc : root.At above c)
include hends hc

/-- The local edges come from the pairs that connections ask for, one after the other. -/
theorem localEdges_eq : localEdges above (c.children.map (·.id)) ends =
    Acyclic.once [] (((links root).flatMap pairsOf).filterMap fun pair =>
      c.edgeBetween? pair.2.1 pair.2.2) := by
  obtain ⟨hnodup, hpairs⟩ := resolved_pairs hends
  unfold localEdges
  dsimp only
  congr 1
  symm
  refine filterMap_of_forall₂ (hpairs.imp ?_)
  rintro ⟨link, s, t⟩ ⟨source, target⟩ ⟨⟨hsource, rfl⟩, htarget, rfl⟩
  dsimp only
  rw [lift?_eq hnodup hc hsource, lift?_eq hnodup hc htarget]
  rfl

end

/-- The pairs of a graph that is resolved lead from one frame inside to another. -/
theorem pair_mem_names {root : Frame α} {ends : List Ends} (hends : resolve root = .ok ends)
    {pair : Link × String × String} (hpair : pair ∈ (links root).flatMap pairsOf) :
    pair.2.1 ∈ root.names ∧ pair.2.2 ∈ root.names := by
  obtain ⟨e, -, ⟨hsource, hs⟩, htarget, ht⟩ := (exists_of_forall₂ (resolved_pairs hends).2).1 _ hpair
  rw [← map_idOf_paths [] root, ← hs, ← ht]
  exact ⟨List.mem_map_of_mem hsource, List.mem_map_of_mem htarget⟩

/-- In each container, the engine has an edge from one child to another exactly if a pair of
ends asks for it, each edge once, the first one that is asked for first. If neither end of a
pair is or holds the other, the pair asks for an edge in one container, the lowest one around
both ends, and in no other; every other pair asks for none. -/
theorem edges_are_lifted_to_where_ends_part {root : Frame α} {ends : List Ends}
    (hends : resolve root = .ok ends) :
    (∀ above c, root.At above c →
      c.Lifts ((links root).flatMap pairsOf) (localEdges above (c.children.map (·.id)) ends)) ∧
    ∀ pair ∈ (links root).flatMap pairsOf,
      (root.Parts pair.2.1 pair.2.2 → ∃ above c, root.At above c ∧
        root.IsLowestAround c pair.2.1 pair.2.2 ∧ ∀ above' c', root.At above' c' →
          ((∃ edge, c'.Joins pair.2.1 pair.2.2 edge) ↔ above' = above ∧ c' = c)) ∧
      (¬ root.Parts pair.2.1 pair.2.2 → ∀ above c, root.At above c →
        ∀ edge, ¬ c.Joins pair.2.1 pair.2.2 edge) := by
  have hnodup := (resolved_pairs hends).1
  constructor
  · intro above c hc
    rw [localEdges_eq hends hc]
    exact lifts_once (nodup_names_of_mem hnodup hc.mem) _
  · intro pair hpair
    obtain ⟨hsource, htarget⟩ := pair_mem_names hends hpair
    constructor
    · intro hparts
      obtain ⟨above, c, edge, hc, hjoins⟩ := hparts.exists_joins hsource htarget
      refine ⟨above, c, hc, hjoins.isLowestAround hnodup hc.mem, fun above' c' hc' => ?_⟩
      constructor
      · rintro ⟨edge', hjoins'⟩
        exact hjoins.container_unique hnodup hc hc' hjoins'
      · rintro ⟨rfl, rfl⟩
        exact ⟨edge, hjoins⟩
    · intro hparts above c hc edge hjoins
      exact hparts (hjoins.parts hnodup hc.mem)

/-- Two containers with a leaf each. The connection leads from the first leaf and from the
container around it to the second leaf, and to that container. -/
def twoContainers : Frame Unit :=
  ⟨"root", none, none, none, none,
    [⟨"left", none, none, none, none, [Frame.leaf "a" ⟨(), ()⟩],
      [⟨"e", ["a", "left"], ["b", "left"]⟩], .empty⟩,
    ⟨"right", none, none, none, none, [Frame.leaf "b" ⟨(), ()⟩], [], .empty⟩],
    [], .empty⟩

theorem two_pairs_ask_for_one_edge :
    ∃ ends, resolve twoContainers = .ok ends ∧
      localEdges [] ["left", "right"] ends = [(0, 1)] ∧ localEdges ["left"] ["a"] ends = [] ∧
      twoContainers.Lifts ((links twoContainers).flatMap pairsOf) [(0, 1)] := by
  have hends : resolve twoContainers =
      .ok [(["left", "a"], ["right", "b"]), (["left", "a"], ["left"]),
        (["left"], ["right", "b"]), (["left"], ["left"])] := by decide +kernel
  refine ⟨_, hends, by decide, by decide, ?_⟩
  exact (edges_are_lifted_to_where_ends_part hends).1 [] twoContainers (.here _)

end NestedLayout

end DiagramPress
