-- One search after the other: none takes back what was found before, more steps change
-- nothing, and children without incoming edges become the first roots.
import DiagramPress.Proofs.Layout.BreadthFirst

namespace DiagramPress.SpanningForest

/-! ## One search after the other -/

/-- Where searches start: at the children without incoming edges, then at all that are left. -/
def starts (count : Nat) (edges : List (Nat × Nat)) : List Nat :=
  ((List.range count).filter fun i => !(usable count edges).any fun e => e.2 = i) ++
    List.range count

/-- The forest, if each search may take that many steps. -/
def within (steps count : Nat) (edges : List (Nat × Nat)) : SpanningForest :=
  let found := (starts count edges).foldl (grow steps (usable count edges)) ([], ⟨[], []⟩)
  ⟨found.1, found.2.links⟩

theorem ofEdges_eq_within (count : Nat) (edges : List (Nat × Nat)) :
    ofEdges count edges = within count count edges := rfl

/-- Between two searches: the last one is done with all that is seen. -/
def Settled (count : Nat) (edges : List (Nat × Nat)) (state : List Nat × Reach) : Prop :=
  Frontier count edges state.1 state.2.seen [] state.2

theorem grow_of_mem {state : List Nat × Reach} {start : Nat} (h : start ∈ state.2.seen)
    (steps : Nat) (edges : List (Nat × Nat)) : grow steps edges state start = state := by
  rw [grow, if_pos (List.contains_iff_mem.mpr h)]

theorem grow_of_not_mem {state : List Nat × Reach} {start : Nat} (h : start ∉ state.2.seen)
    (steps : Nat) (edges : List (Nat × Nat)) : grow steps edges state start =
      (state.1 ++ [start],
        search edges steps [start] ⟨state.2.seen ++ [start], state.2.links⟩) := by
  rw [grow, if_neg fun hc => h (List.contains_iff_mem.mp hc)]

namespace Settled

variable {count : Nat} {edges : List (Nat × Nat)} {state : List Nat × Reach}

theorem empty (count : Nat) (edges : List (Nat × Nat)) : Settled count edges ([], ⟨[], []⟩) where
  sound := ⟨.empty, fun _ => Iff.rfl, fun _ h => absurd h List.not_mem_nil⟩
  nodup := List.nodup_nil
  seen := rfl
  links _ h := absurd h List.not_mem_nil
  closed _ h := absurd h List.not_mem_nil

/-- A search that starts with a new root. -/
theorem root (h : Settled count edges state) {start : Nat} (hnew : start ∉ state.2.seen)
    (hstart : start < count) :
    Frontier count edges (state.1 ++ [start]) state.2.seen [start]
      ⟨state.2.seen ++ [start], state.2.links⟩ where
  sound := h.sound.root hnew hstart
  nodup := by
    rw [← List.concat_eq_append]
    exact h.nodup.concat hnew
  seen := rfl
  links := h.links
  closed a ha b hedge := List.mem_append_left _ (h.closed a ha b hedge)

/-- Each search ends between two searches, and keeps what was found before. -/
theorem grow (hedges : ∀ e ∈ edges, e.2 < count) (h : Settled count edges state) {start : Nat}
    (hstart : start < count) :
    Settled count edges (grow count edges state start) ∧
      (SpanningForest.grow count edges state start).2.Extends state.2 ∧
      state.1 <+: (SpanningForest.grow count edges state start).1 := by
  by_cases hseen : start ∈ state.2.seen
  · rw [grow_of_mem hseen]
    exact ⟨h, .refl _, List.prefix_rfl⟩
  · rw [grow_of_not_mem hseen]
    obtain ⟨hlast, hext⟩ := (h.root hseen hstart).run (P := fun _ _ reach => reach.Extends state.2)
      hedges (fun _ current _ reach _ hext => (reach.extends_advance edges current).trans hext)
      ⟨List.prefix_append _ _, List.prefix_rfl⟩ (Nat.le_add_right count _)
    exact ⟨hlast, hext, List.prefix_append _ _⟩

theorem grow_more (hedges : ∀ e ∈ edges, e.2 < count) (h : Settled count edges state)
    {start : Nat} (hstart : start < count) (more : Nat) :
    SpanningForest.grow (count + more) edges state start =
      SpanningForest.grow count edges state start := by
  by_cases hseen : start ∈ state.2.seen
  · rw [grow_of_mem hseen, grow_of_mem hseen]
  · rw [grow_of_not_mem hseen, grow_of_not_mem hseen,
      (h.root hseen hstart).search_eq hedges (by omega) (Nat.le_add_right count _)]

theorem foldl_grow (hedges : ∀ e ∈ edges, e.2 < count) {starts : List Nat}
    (hstarts : ∀ i ∈ starts, i < count) (h : Settled count edges state) :
    let last := starts.foldl (SpanningForest.grow count edges) state
    Settled count edges last ∧ last.2.Extends state.2 ∧ state.1 <+: last.1 := by
  induction starts generalizing state with
  | nil => exact ⟨h, .refl _, List.prefix_rfl⟩
  | cons start rest ih =>
    obtain ⟨hstart, hrest⟩ := List.forall_mem_cons.mp hstarts
    obtain ⟨hfirst, hext, hroots⟩ := h.grow hedges hstart
    obtain ⟨hlast, hext', hroots'⟩ := ih hrest hfirst
    exact ⟨hlast, hext'.trans hext, hroots.trans hroots'⟩

theorem foldl_grow_more (hedges : ∀ e ∈ edges, e.2 < count) {starts : List Nat}
    (hstarts : ∀ i ∈ starts, i < count) (h : Settled count edges state) (more : Nat) :
    starts.foldl (SpanningForest.grow (count + more) edges) state =
      starts.foldl (SpanningForest.grow count edges) state := by
  induction starts generalizing state with
  | nil => rfl
  | cons start rest ih =>
    obtain ⟨hstart, hrest⟩ := List.forall_mem_cons.mp hstarts
    rw [List.foldl_cons, List.foldl_cons, h.grow_more hedges hstart,
      ih hrest (h.grow hedges hstart).1]

/-- Children that no edge leads to are never seen before their turn, so each becomes a root. -/
theorem foldl_sources (hedges : ∀ e ∈ edges, e.2 < count) {sources : List Nat}
    (hsources : ∀ i ∈ sources, i < count ∧ ∀ e ∈ edges, e.2 ≠ i)
    (hnodup : (state.1 ++ sources).Nodup) (h : Settled count edges state) :
    (sources.foldl (SpanningForest.grow count edges) state).1 = state.1 ++ sources := by
  induction sources generalizing state with
  | nil => rw [List.foldl_nil, List.append_nil]
  | cons start rest ih =>
    obtain ⟨⟨hstart, hinto⟩, hrest⟩ := List.forall_mem_cons.mp hsources
    have hnew : start ∉ state.2.seen := by
      rw [h.sound.seen, reached, List.mem_append, not_or]
      refine ⟨fun hroot => ?_, fun hchild => ?_⟩
      · exact (List.nodup_append.mp hnodup).2.2 start hroot start List.mem_cons_self rfl
      · obtain ⟨link, hlink, hend⟩ := List.mem_map.mp hchild
        exact hinto link (h.links link hlink) hend
    have hgrown : (SpanningForest.grow count edges state start).1 = state.1 ++ [start] := by
      rw [grow_of_not_mem hnew]
    have hcut : state.1 ++ start :: rest = state.1 ++ [start] ++ rest := by simp
    rw [List.foldl_cons, ih hrest (by rwa [hgrown, ← hcut]) (h.grow hedges hstart).1, hgrown, hcut]

end Settled

section

variable {count : Nat} {edges : List (Nat × Nat)}

theorem starts_below : ∀ i ∈ starts count edges, i < count := by
  intro i hi
  rcases List.mem_append.mp hi with hi | hi
  · exact List.mem_range.mp (List.mem_filter.mp hi).1
  · exact List.mem_range.mp hi

/-- More steps for each search change nothing. -/
theorem within_more (count : Nat) (edges : List (Nat × Nat)) (more : Nat) :
    within (count + more) count edges = ofEdges count edges := by
  rw [ofEdges_eq_within, within, within,
    (Settled.empty count _).foldl_grow_more usable_below starts_below]

theorem links_ofEdges : ∀ link ∈ (ofEdges count edges).links, link ∈ usable count edges :=
  ((Settled.empty count _).foldl_grow usable_below starts_below).1.links

/-- Children that no other child has an edge to are the first roots. -/
theorem sources_prefix (count : Nat) (edges : List (Nat × Nat)) :
    ((List.range count).filter fun i => ∀ e ∈ edges, e.2 = i → e.1 = i ∨ count ≤ e.1) <+:
      (ofEdges count edges).roots := by
  have hsources : ((List.range count).filter fun i =>
      ∀ e ∈ edges, e.2 = i → e.1 = i ∨ count ≤ e.1) =
      (List.range count).filter fun i => !(usable count edges).any fun e => e.2 = i := by
    refine List.filter_congr fun i hi => ?_
    have hbelow := List.mem_range.mp hi
    rw [Bool.eq_iff_iff, decide_eq_true_iff, Bool.not_eq_true', List.any_eq_false]
    constructor
    · rintro h ⟨a, b⟩ he hend
      obtain ⟨hmem, hne, ha, -⟩ := mem_usable.mp he
      obtain rfl : b = i := by simpa using hend
      rcases h _ hmem rfl with hsame | hfar
      · exact hne hsame
      · exact Nat.not_lt_of_le hfar ha
    · rintro h ⟨a, b⟩ he rfl
      by_contra hnot
      rw [not_or, Nat.not_le] at hnot
      exact h _ (mem_usable.mpr ⟨he, hnot.1, hnot.2, hbelow⟩) (by simp)
  let sources := (List.range count).filter fun i => !(usable count edges).any fun e => e.2 = i
  have hinto : ∀ i ∈ sources, i < count ∧ ∀ e ∈ usable count edges, e.2 ≠ i := by
    intro i hi
    obtain ⟨hrange, hnone⟩ := List.mem_filter.mp hi
    rw [Bool.not_eq_true', List.any_eq_false] at hnone
    exact ⟨List.mem_range.mp hrange, fun e he => by simpa using hnone e he⟩
  have hnodup : (([] : List Nat) ++ sources).Nodup := List.nodup_range.filter _
  have hfirst := (Settled.empty count (usable count edges)).foldl_sources usable_below hinto hnodup
  have hsettled := ((Settled.empty count (usable count edges)).foldl_grow usable_below
    fun i hi => (hinto i hi).1).1
  have hrest := (hsettled.foldl_grow usable_below fun i hi => List.mem_range.mp hi).2.2
  rw [hsources, ofEdges_eq_within, within, starts, List.foldl_append]
  rw [hfirst] at hrest
  exact hrest

/-- The first search sees all of the first tree, with levels for all of it. -/
theorem exists_first_search {root : Nat} (h : (ofEdges count edges).roots.head? = some root) :
    ∃ reach level, Frontier count (usable count edges) [root] reach.seen [] reach ∧
      Levels (usable count edges) root level reach.seen [] reach ∧
      reach.links <+: (ofEdges count edges).links := by
  rw [ofEdges_eq_within, within] at h ⊢
  rcases hstarts : starts count edges with _ | ⟨start, rest⟩
  · rw [hstarts] at h
    cases h
  · have hbelow : ∀ i ∈ start :: rest, i < count := hstarts ▸ starts_below
    obtain ⟨hstart, hrest⟩ := List.forall_mem_cons.mp hbelow
    have hempty := Settled.empty count (usable count edges)
    have hfirst : grow count (usable count edges) ([], ⟨[], []⟩) start =
        ([] ++ [start], search (usable count edges) count [start] ⟨[] ++ [start], []⟩) :=
      grow_of_not_mem List.not_mem_nil count _
    obtain ⟨hfrontier, level, hlevels⟩ := exists_levels usable_below
      (hempty.root List.not_mem_nil hstart)
    obtain ⟨-, hext, hroots⟩ := (hempty.grow usable_below hstart).1.foldl_grow usable_below hrest
    rw [hstarts, List.foldl_cons] at h
    rw [hfirst] at hext hroots h
    obtain ⟨more, hmore⟩ := hroots
    have hhead := congrArg List.head? hmore
    obtain rfl : start = root := Option.some.inj (hhead.trans h)
    rw [List.foldl_cons, hfirst]
    exact ⟨_, level, hfrontier, hlevels, hext.links⟩

end

end DiagramPress.SpanningForest
