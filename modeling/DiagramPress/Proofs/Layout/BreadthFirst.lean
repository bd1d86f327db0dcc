-- The search of a spanning forest goes level by level: the queue stands in the order of
-- the levels, and no edge leads more than one level on, so levels are distances.
import Mathlib.Data.List.Perm.Subperm
import Mathlib.Logic.Function.Basic
import DiagramPress.Proofs.Layout.SpanningForest

namespace DiagramPress.SpanningForest

/-! ## Following edges -/

/-- What is seen after all edges from a child are followed. -/
def Reach.advance (edges : List (Nat × Nat)) (reach : Reach) (current : Nat) : Reach :=
  ((edges.filter fun e => e.1 = current).map (·.2)).foldl (Reach.follow current) reach

/-- What a step puts at the end of the queue. -/
def Reach.fresh (edges : List (Nat × Nat)) (reach : Reach) (current : Nat) : List Nat :=
  (reach.advance edges current).seen.drop reach.seen.length

theorem search_cons (edges : List (Nat × Nat)) (fuel current : Nat) (queue : List Nat)
    (reach : Reach) : search edges (fuel + 1) (current :: queue) reach =
      search edges fuel (queue ++ reach.fresh edges current) (reach.advance edges current) := rfl

theorem search_nil (edges : List (Nat × Nat)) (fuel : Nat) (reach : Reach) :
    search edges fuel [] reach = reach := by
  cases fuel <;> rfl

/-- A later state of the search: it has seen more and has taken more links. -/
structure Reach.Extends (later reach : Reach) : Prop where
  seen : reach.seen <+: later.seen
  links : reach.links <+: later.links

namespace Reach

variable {edges : List (Nat × Nat)} {reach later last : Reach}

theorem Extends.refl (reach : Reach) : reach.Extends reach := ⟨List.prefix_rfl, List.prefix_rfl⟩

theorem Extends.trans (h : last.Extends later) (h' : later.Extends reach) : last.Extends reach :=
  ⟨h'.seen.trans h.seen, h'.links.trans h.links⟩

theorem follow_of_mem {next : Nat} (h : next ∈ reach.seen) (parent : Nat) :
    reach.follow parent next = reach := by
  rw [follow, if_pos (List.contains_iff_mem.mpr h)]

theorem follow_of_not_mem {next : Nat} (h : next ∉ reach.seen) (parent : Nat) :
    reach.follow parent next = ⟨reach.seen ++ [next], reach.links ++ [(parent, next)]⟩ := by
  rw [follow, if_neg fun hc => h (List.contains_iff_mem.mp hc)]

theorem extends_follow (reach : Reach) (parent next : Nat) :
    (reach.follow parent next).Extends reach := by
  by_cases h : next ∈ reach.seen
  · rw [follow_of_mem h]
    exact .refl reach
  · rw [follow_of_not_mem h]
    exact ⟨List.prefix_append _ _, List.prefix_append _ _⟩

theorem mem_seen_follow (reach : Reach) (parent next : Nat) :
    next ∈ (reach.follow parent next).seen := by
  by_cases h : next ∈ reach.seen
  · rwa [follow_of_mem h]
  · rw [follow_of_not_mem h]
    simp

/-- Following edges one by one leaves all their ends seen. -/
theorem extends_foldl_follow (parent : Nat) (targets : List Nat) (reach : Reach) :
    (targets.foldl (follow parent) reach).Extends reach ∧
      ∀ t ∈ targets, t ∈ (targets.foldl (follow parent) reach).seen := by
  induction targets generalizing reach with
  | nil => exact ⟨.refl reach, fun _ h => absurd h List.not_mem_nil⟩
  | cons next rest ih =>
    obtain ⟨hext, hrest⟩ := ih (reach.follow parent next)
    refine ⟨hext.trans (reach.extends_follow parent next), fun t ht => ?_⟩
    rcases List.mem_cons.mp ht with rfl | ht
    · exact hext.seen.subset (reach.mem_seen_follow parent t)
    · exact hrest t ht

theorem mem_targets {current b : Nat} :
    b ∈ (edges.filter fun e => e.1 = current).map (·.2) ↔ (current, b) ∈ edges := by
  simp [List.mem_map, List.mem_filter]

theorem extends_advance (edges : List (Nat × Nat)) (reach : Reach) (current : Nat) :
    (reach.advance edges current).Extends reach :=
  (extends_foldl_follow _ _ _).1

theorem mem_seen_advance {current b : Nat} (h : (current, b) ∈ edges) :
    b ∈ (reach.advance edges current).seen :=
  (extends_foldl_follow _ _ _).2 b (mem_targets.mpr h)

theorem seen_advance (edges : List (Nat × Nat)) (reach : Reach) (current : Nat) :
    (reach.advance edges current).seen = reach.seen ++ reach.fresh edges current :=
  (List.prefix_iff_eq_append.mp (reach.extends_advance edges current).seen).symm

/-- What every followed edge keeps holds after all of them. -/
theorem advance_induction {P : Reach → Prop} {current : Nat} (h : P reach)
    (hfollow : ∀ r b, (current, b) ∈ edges → P r → P (r.follow current b)) :
    P (reach.advance edges current) :=
  List.foldlRecOn _ _ h fun r hr b hb => hfollow r b (mem_targets.mp hb) hr

end Reach

/-! ## The queue -/

/-- Where a search stands: what it has seen are those that it is done with, and the
queue. From those it is done with, all edges lead to what it has seen. -/
structure Frontier (count : Nat) (edges : List (Nat × Nat)) (roots done queue : List Nat)
    (reach : Reach) : Prop where
  sound : reach.Sound count roots
  nodup : reach.seen.Nodup
  seen : reach.seen = done ++ queue
  links : ∀ link ∈ reach.links, link ∈ edges
  closed : ∀ a ∈ done, ∀ b, (a, b) ∈ edges → b ∈ reach.seen

namespace Frontier

variable {count : Nat} {edges : List (Nat × Nat)} {roots done queue : List Nat} {reach : Reach}

theorem length_le (h : Frontier count edges roots done queue reach) :
    done.length + queue.length ≤ count := by
  have hsub : reach.seen ⊆ List.range count := fun i hi => List.mem_range.mpr (h.sound.below i hi)
  have hlen := (h.nodup.subperm hsub).length_le
  rwa [h.seen, List.length_append, List.length_range] at hlen

theorem advance (hedges : ∀ e ∈ edges, e.2 < count) {current : Nat}
    (h : Frontier count edges roots done (current :: queue) reach) :
    Frontier count edges roots (done ++ [current]) (queue ++ reach.fresh edges current)
      (reach.advance edges current) := by
  have hcurrent : current ∈ reach.seen := by simp [h.seen]
  have htargets : ∀ t ∈ (edges.filter fun e => e.1 = current).map (·.2), t < count :=
    fun t ht => hedges _ (Reach.mem_targets.mp ht)
  refine ⟨(h.sound.follow_all hcurrent htargets).1, ?_, ?_, ?_, fun a ha b hedge => ?_⟩
  · refine Reach.advance_induction (P := fun r => r.seen.Nodup) h.nodup fun r b _ hr => ?_
    by_cases hb : b ∈ r.seen
    · rwa [Reach.follow_of_mem hb]
    · rw [Reach.follow_of_not_mem hb, ← List.concat_eq_append]
      exact hr.concat hb
  · rw [Reach.seen_advance, h.seen]
    simp
  · refine Reach.advance_induction (P := fun r => ∀ link ∈ r.links, link ∈ edges) h.links
      fun r b hedge hr => ?_
    by_cases hb : b ∈ r.seen
    · rwa [Reach.follow_of_mem hb]
    · rw [Reach.follow_of_not_mem hb]
      exact List.forall_mem_append.mpr ⟨hr, List.forall_mem_singleton.mpr hedge⟩
  · rcases List.mem_append.mp ha with ha | ha
    · exact (reach.extends_advance edges current).seen.subset (h.closed a ha b hedge)
    · rw [List.mem_singleton.mp ha] at hedge
      exact Reach.mem_seen_advance hedge

/-- As many steps as there are children are enough: more of them change nothing. -/
theorem search_eq (hedges : ∀ e ∈ edges, e.2 < count)
    (h : Frontier count edges roots done queue reach) {fuel fuel' : Nat}
    (hfuel : count ≤ fuel + done.length) (hfuel' : count ≤ fuel' + done.length) :
    search edges fuel queue reach = search edges fuel' queue reach := by
  induction fuel generalizing fuel' done queue reach with
  | zero =>
    have hlen := h.length_le
    obtain rfl : queue = [] := List.eq_nil_of_length_eq_zero (by omega)
    rw [search_nil, search_nil]
  | succ fuel ih =>
    cases queue with
    | nil => rw [search_nil, search_nil]
    | cons current queue =>
      have hlen := h.length_le
      rw [List.length_cons] at hlen
      obtain ⟨fuel', rfl⟩ : ∃ n, fuel' = n + 1 := ⟨fuel' - 1, by omega⟩
      rw [search_cons, search_cons]
      refine ih (h.advance hedges) ?_ ?_
      all_goals
        rw [List.length_append, List.length_singleton]
        omega

/-- A search with enough steps ends with an empty queue. What each step keeps holds then. -/
theorem run {P : List Nat → List Nat → Reach → Prop} (hedges : ∀ e ∈ edges, e.2 < count)
    (hstep : ∀ done current queue reach, Frontier count edges roots done (current :: queue) reach →
      P done (current :: queue) reach →
      P (done ++ [current]) (queue ++ reach.fresh edges current) (reach.advance edges current))
    (h : Frontier count edges roots done queue reach) (hP : P done queue reach) {fuel : Nat}
    (hfuel : count ≤ fuel + done.length) :
    let last := search edges fuel queue reach
    Frontier count edges roots last.seen [] last ∧ P last.seen [] last := by
  have hempty {done : List Nat} {reach : Reach} (h : Frontier count edges roots done [] reach)
      (hP : P done [] reach) :
      Frontier count edges roots reach.seen [] reach ∧ P reach.seen [] reach := by
    have hdone : reach.seen = done := by rw [h.seen, List.append_nil]
    rw [hdone]
    exact ⟨h, hP⟩
  induction fuel generalizing done queue reach with
  | zero =>
    have hlen := h.length_le
    obtain rfl : queue = [] := List.eq_nil_of_length_eq_zero (by omega)
    rw [search_nil]
    exact hempty h hP
  | succ fuel ih =>
    cases queue with
    | nil =>
      rw [search_nil]
      exact hempty h hP
    | cons current queue =>
      rw [search_cons]
      refine ih (h.advance hedges) (hstep _ _ _ _ h hP) ?_
      rw [List.length_append, List.length_singleton]
      omega

end Frontier

/-! ## Levels -/

/-- Levels while the edges from `current` are followed: links lead one level on, what is
seen stands in the order of levels, and nobody is more than one level behind `current`. -/
structure Spread (start : Nat) (level : Nat → Nat) (current : Nat) (reach : Reach) : Prop where
  root : level start = 0
  start_mem : start ∈ reach.seen
  current_mem : current ∈ reach.seen
  ends : ∀ link ∈ reach.links, link.1 ∈ reach.seen ∧ link.2 ∈ reach.seen
  links : ∀ link ∈ reach.links, level link.2 = level link.1 + 1
  sorted : reach.seen.Pairwise fun i j => level i ≤ level j
  span : ∀ i ∈ reach.seen, level i ≤ level current + 1

/-- A child that is seen for the first time gets the next level. -/
theorem Spread.follow {start current : Nat} {level : Nat → Nat} {reach : Reach}
    (h : Spread start level current reach) (next : Nat) :
    ∃ level', Spread start level' current (reach.follow current next) ∧
      ∀ i ∈ reach.seen, level' i = level i := by
  by_cases hnext : next ∈ reach.seen
  · rw [Reach.follow_of_mem hnext]
    exact ⟨level, h, fun _ _ => rfl⟩
  rw [Reach.follow_of_not_mem hnext]
  let level' := Function.update level next (level current + 1)
  have hold : ∀ i ∈ reach.seen, level' i = level i := by
    intro i hi
    have hne : i ≠ next := by
      rintro rfl
      exact hnext hi
    exact Function.update_of_ne hne _ _
  have hnew : level' next = level current + 1 := Function.update_self _ _ _
  have hcurrent := hold current h.current_mem
  refine ⟨level', ?_, hold⟩
  exact {
    root := by rw [hold start h.start_mem, h.root]
    start_mem := List.mem_append_left _ h.start_mem
    current_mem := List.mem_append_left _ h.current_mem
    ends := by
      intro link hlink
      rcases List.mem_append.mp hlink with hlink | hlink
      · obtain ⟨hparent, hchild⟩ := h.ends link hlink
        exact ⟨List.mem_append_left _ hparent, List.mem_append_left _ hchild⟩
      · obtain rfl := List.mem_singleton.mp hlink
        exact ⟨List.mem_append_left _ h.current_mem, by simp⟩
    links := by
      intro link hlink
      rcases List.mem_append.mp hlink with hlink | hlink
      · obtain ⟨hparent, hchild⟩ := h.ends link hlink
        rw [hold _ hparent, hold _ hchild, h.links link hlink]
      · obtain rfl := List.mem_singleton.mp hlink
        rw [hnew, hcurrent]
    sorted := by
      refine List.pairwise_append.mpr ⟨?_, List.pairwise_singleton _ _, ?_⟩
      · refine h.sorted.imp_of_mem fun hi hj hle => ?_
        rwa [hold _ hi, hold _ hj]
      · intro i hi j hj
        rw [List.mem_singleton.mp hj, hold i hi, hnew]
        exact h.span i hi
    span := by
      intro i hi
      rw [hcurrent]
      rcases List.mem_append.mp hi with hi | hi
      · rw [hold i hi]
        exact h.span i hi
      · rw [List.mem_singleton.mp hi]
        exact Nat.le_of_eq hnew }

theorem Spread.advance {start current : Nat} {level : Nat → Nat} {reach : Reach}
    (h : Spread start level current reach) (edges : List (Nat × Nat)) :
    ∃ level', Spread start level' current (reach.advance edges current) ∧
      ∀ i ∈ reach.seen, level' i = level i := by
  have hboth : (∃ level', Spread start level' current (reach.advance edges current) ∧
      ∀ i ∈ reach.seen, level' i = level i) ∧ (reach.advance edges current).Extends reach := by
    refine Reach.advance_induction (P := fun r => (∃ level', Spread start level' current r ∧
      ∀ i ∈ reach.seen, level' i = level i) ∧ r.Extends reach)
      ⟨⟨level, h, fun _ _ => rfl⟩, .refl reach⟩ ?_
    rintro r b - ⟨⟨level', hspread, hsame⟩, hext⟩
    obtain ⟨level'', hspread', hsame'⟩ := hspread.follow b
    refine ⟨⟨level'', hspread', fun i hi => ?_⟩, (r.extends_follow current b).trans hext⟩
    rw [hsame' i (hext.seen.subset hi), hsame i hi]
  exact hboth.1

/-- Levels between two steps: from those that the search is done with, edges lead at most
one level on. -/
structure Levels (edges : List (Nat × Nat)) (start : Nat) (level : Nat → Nat)
    (done queue : List Nat) (reach : Reach) : Prop where
  root : level start = 0
  start_mem : start ∈ reach.seen
  links : ∀ link ∈ reach.links, level link.2 = level link.1 + 1
  sorted : reach.seen.Pairwise fun i j => level i ≤ level j
  span : ∀ current ∈ queue.head?, ∀ i ∈ reach.seen, level i ≤ level current + 1
  steps : ∀ a ∈ done, ∀ b, (a, b) ∈ edges → level b ≤ level a + 1

theorem Levels.advance {count start current : Nat} {edges : List (Nat × Nat)}
    {roots done queue : List Nat} {reach : Reach} {level : Nat → Nat}
    (hfrontier : Frontier count edges roots done (current :: queue) reach)
    (h : Levels edges start level done (current :: queue) reach) :
    ∃ level', Levels edges start level' (done ++ [current])
      (queue ++ reach.fresh edges current) (reach.advance edges current) := by
  have hseen (i : Nat) : i ∈ reach.seen ↔ i ∈ reached ⟨roots, reach.links⟩ := hfrontier.sound.seen i
  have hspread : Spread start level current reach :=
    { root := h.root
      start_mem := h.start_mem
      current_mem := by simp [hfrontier.seen]
      ends := fun link hlink =>
        ⟨(hseen _).mpr (hfrontier.sound.grown.parent_mem link hlink),
          (hseen _).mpr (List.mem_append_right _ (List.mem_map_of_mem hlink))⟩
      links := h.links
      sorted := h.sorted
      span := h.span current rfl }
  obtain ⟨level', hspread', hsame⟩ := hspread.advance edges
  have horder : (reach.advance edges current).seen =
      done ++ current :: (queue ++ reach.fresh edges current) := by
    rw [Reach.seen_advance, hfrontier.seen]
    simp
  refine ⟨level', hspread'.root, hspread'.start_mem, hspread'.links, hspread'.sorted, ?_, ?_⟩
  · intro next hnext i hi
    have hsorted := hspread'.sorted
    rw [horder] at hsorted
    have hbehind := (List.pairwise_cons.mp (List.pairwise_append.mp hsorted).2.1).1
    exact Nat.le_trans (hspread'.span i hi)
      (Nat.succ_le_succ (hbehind next (List.mem_of_head? hnext)))
  · intro a ha b hedge
    rcases List.mem_append.mp ha with ha | ha
    · have hdone : a ∈ reach.seen := by simp [hfrontier.seen, ha]
      rw [hsame a hdone, hsame b (hfrontier.closed a ha b hedge)]
      exact h.steps a ha b hedge
    · rw [List.mem_singleton.mp ha] at hedge ⊢
      exact hspread'.span b (Reach.mem_seen_advance hedge)

/-- The first search ends with levels for all that it has seen. -/
theorem exists_levels {count start : Nat} {edges : List (Nat × Nat)}
    (hedges : ∀ e ∈ edges, e.2 < count)
    (h : Frontier count edges [start] [] [start] ⟨[start], []⟩) :
    let last := search edges count [start] ⟨[start], []⟩
    Frontier count edges [start] last.seen [] last ∧
      ∃ level, Levels edges start level last.seen [] last := by
  refine h.run (P := fun done queue reach => ∃ level, Levels edges start level done queue reach)
    hedges ?_ ?_ (by simp)
  · rintro done current queue reach hfrontier ⟨level, hlevels⟩
    exact hlevels.advance hfrontier
  · refine ⟨fun _ => 0, rfl, by simp, by simp, by simp, ?_, by simp⟩
    intro current _ i _
    exact Nat.zero_le _

/-! ## Distances -/

/-- So many edges lead from one child to another, all of them between children that exist. -/
inductive Walk (count : Nat) (edges : List (Nat × Nat)) (a : Nat) : Nat → Nat → Prop
  | here : Walk count edges a a 0
  | step {b c n : Nat} (h : Walk count edges a b n) (hedge : (b, c) ∈ edges) (hb : b < count)
    (hc : c < count) : Walk count edges a c (n + 1)

/-- No walk is shorter than the level that it leads to. -/
theorem Levels.le_of_walk {count start : Nat} {edges : List (Nat × Nat)} {level : Nat → Nat}
    {roots : List Nat} {reach : Reach}
    (hfrontier : Frontier count (usable count edges) roots reach.seen [] reach)
    (h : Levels (usable count edges) start level reach.seen [] reach) {i n : Nat}
    (hwalk : Walk count edges start i n) : i ∈ reach.seen ∧ level i ≤ n := by
  induction hwalk with
  | here => exact ⟨h.start_mem, Nat.le_of_eq h.root⟩
  | @step b c n _ hedge hb hc ih =>
    obtain ⟨hseen, hle⟩ := ih
    by_cases hself : b = c
    · subst hself
      exact ⟨hseen, by omega⟩
    · have huse : (b, c) ∈ usable count edges := mem_usable.mpr ⟨hedge, hself, hb, hc⟩
      have hlevel := h.steps b hseen c huse
      exact ⟨hfrontier.closed b hseen c huse, by omega⟩

end DiagramPress.SpanningForest
