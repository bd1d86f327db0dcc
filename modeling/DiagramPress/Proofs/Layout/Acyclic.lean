-- The order in which circles are broken. Each step of the sorting gives the next place to a
-- child that waits for nobody or, where everybody waits, to the first one left; counts and
-- queue say who that is, and the sorting ends when all have a place.
import Mathlib.Data.List.Induction
import Mathlib.Data.List.Nodup
import Mathlib.Data.List.Perm.Subperm
import Mathlib.Data.List.TakeWhile
import DiagramPress.Layout.Acyclic
import DiagramPress.Proofs.Layout.SpanningForest

namespace DiagramPress.Acyclic

/-! ## Each edge once -/

theorem mem_once {seen edges : List (Nat × Nat)} {e : Nat × Nat} :
    e ∈ once seen edges ↔ e ∈ edges ∧ e ∉ seen := by
  induction edges generalizing seen with
  | nil => simp [once]
  | cons first rest ih =>
    unfold once
    split
    · rename_i hseen
      rw [ih, List.mem_cons]
      constructor
      · rintro ⟨hmem, hnew⟩
        exact ⟨.inr hmem, hnew⟩
      · rintro ⟨rfl | hmem, hnew⟩
        · exact absurd (by simpa using hseen) hnew
        · exact ⟨hmem, hnew⟩
    · rename_i hseen
      rw [List.mem_cons, ih, List.mem_cons, List.mem_cons]
      by_cases heq : e = first
      · subst heq
        simpa using hseen
      · simp [heq]

theorem nodup_once (seen edges : List (Nat × Nat)) : (once seen edges).Nodup := by
  induction edges generalizing seen with
  | nil => simp [once]
  | cons first rest ih =>
    unfold once
    split
    · exact ih seen
    · refine List.nodup_cons.mpr ⟨fun hmem => ?_, ih _⟩
      exact (mem_once.mp hmem).2 List.mem_cons_self

/-- The edges that are kept stand in the order in which they come up first. -/
theorem pairwise_once (seen edges : List (Nat × Nat)) :
    (once seen edges).Pairwise fun e e' =>
      ∃ before after, edges = before ++ e :: after ∧ e' ∉ before := by
  induction edges generalizing seen with
  | nil => simp [once]
  | cons first rest ih =>
    unfold once
    split
    · rename_i hseen
      refine (ih seen).imp_of_mem fun {e e'} _ he' hfirst => ?_
      obtain ⟨before, after, rfl, hbefore⟩ := hfirst
      refine ⟨first :: before, after, rfl, ?_⟩
      rintro (_ | ⟨_, hmem⟩)
      · exact (mem_once.mp he').2 (by simpa using hseen)
      · exact hbefore hmem
    · refine List.pairwise_cons.mpr ⟨fun e' _ => ⟨[], rest, rfl, List.not_mem_nil⟩, ?_⟩
      refine (ih (first :: seen)).imp_of_mem fun {e e'} _ he' hfirst => ?_
      obtain ⟨before, after, rfl, hbefore⟩ := hfirst
      refine ⟨first :: before, after, rfl, ?_⟩
      rintro (_ | ⟨_, hmem⟩)
      · exact (mem_once.mp he').2 List.mem_cons_self
      · exact hbefore hmem

/-- What is kept of a list are its members, each where it stands first. -/
theorem once_eq (seen edges : List (Nat × Nat)) :
    once seen edges = (edges.filter fun e => !seen.contains e).eraseDups := by
  induction edges generalizing seen with
  | nil => rfl
  | cons first rest ih =>
    unfold once
    split
    · rename_i hseen
      rw [ih, List.filter_cons_of_neg (by rw [hseen]; exact Bool.false_ne_true)]
    · rename_i hseen
      have hrest : rest.filter (fun e => !(first :: seen).contains e) =
          (rest.filter fun e => !seen.contains e).filter fun e => !e == first := by
        rw [List.filter_filter]
        refine List.filter_congr fun e _ => ?_
        rw [List.contains_cons, Bool.not_or]
      rw [ih, List.filter_cons_of_pos (by simpa using hseen), List.eraseDups_cons, hrest]

/-! ## Counts and queue -/

section

variable {count : Nat} {edges : List (Nat × Nat)}

theorem mem_enqueue {v w : Nat} {queue : List Nat} : w ∈ enqueue v queue ↔ w = v ∨ w ∈ queue := by
  induction queue with
  | nil => simp [enqueue]
  | cons u rest ih =>
    unfold enqueue
    split
    · rw [List.mem_cons]
    · rw [List.mem_cons, ih, List.mem_cons]
      exact or_left_comm

namespace Sorting

/-- How many edges lead to a child from those without a place. -/
def edgesTo (edges : List (Nat × Nat)) (placed : List Nat) (v : Nat) : Nat :=
  edges.countP fun e => e.2 = v ∧ e.1 ∉ placed

/-- Counts and queue are right about the children without a place, as soon as the
children in `pending` are released, each as often as it stands there. -/
structure Sound (count : Nat) (edges : List (Nat × Nat)) (pending : List Nat) (s : Sorting) :
    Prop where
  size : s.waiting.size = count
  waiting : ∀ v < count, v ∉ s.placed →
    s.waiting.getD v 0 = edgesTo edges s.placed v + pending.count v
  queued : ∀ v ∈ s.ready, v < count ∧ (v ∉ s.placed → s.waiting.getD v 0 = 0)
  complete : ∀ v < count, v ∉ s.placed → s.waiting.getD v 0 = 0 → v ∈ s.ready

theorem size_foldl_modify (edges : List (Nat × Nat)) (waiting : Array Nat) :
    (edges.foldl (fun waiting (_, b) => waiting.modify b (· + 1)) waiting).size =
      waiting.size := by
  induction edges generalizing waiting with
  | nil => rfl
  | cons e rest ih => rw [List.foldl_cons, ih, Array.size_modify]

theorem getD_foldl_modify (edges : List (Nat × Nat)) {waiting : Array Nat} {v : Nat}
    (hv : v < waiting.size) :
    (edges.foldl (fun waiting (_, b) => waiting.modify b (· + 1)) waiting).getD v 0 =
      waiting.getD v 0 + edges.countP fun e => e.2 = v := by
  induction edges generalizing waiting with
  | nil => rfl
  | cons e rest ih =>
    rw [List.foldl_cons, ih (by rwa [Array.size_modify]), List.countP_cons]
    by_cases he : e.2 = v
    · simp [Array.getD, hv, he, Array.getElem_modify]
      omega
    · simp [Array.getD, hv, he, Array.getElem_modify]

theorem sound_start (count : Nat) (edges : List (Nat × Nat)) :
    (start count edges).Sound count edges [] := by
  have hcounts : ∀ v < count, (start count edges).waiting.getD v 0 =
      edgesTo edges [] v := by
    intro v hv
    unfold start edgesTo
    rw [getD_foldl_modify edges (by simpa using hv)]
    simp [Array.getD, hv]
  refine ⟨?_, fun v hv _ => ?_, fun v hv => ?_, fun v hv _ hzero => ?_⟩
  · unfold start
    rw [size_foldl_modify, Array.size_replicate]
  · exact hcounts v hv
  · obtain ⟨hrange, hzero⟩ := List.mem_filter.mp hv
    exact ⟨List.mem_range.mp hrange, fun _ => of_decide_eq_true hzero⟩
  · exact List.mem_filter.mpr ⟨List.mem_range.mpr hv, decide_eq_true hzero⟩

theorem placed_release (s : Sorting) (v : Nat) : (s.release v).placed = s.placed := by
  unfold release
  split <;> rfl

theorem placed_foldl_release (targets : List Nat) (s : Sorting) :
    (targets.foldl release s).placed = s.placed := by
  induction targets generalizing s with
  | nil => rfl
  | cons v rest ih => rw [List.foldl_cons, ih, placed_release]

/-! One child is released. -/

section

variable {s : Sorting} {v : Nat}

theorem release_of_placed (h : v ∈ s.placed) : s.release v = s := by
  unfold release
  rw [if_pos (by simpa using h)]

theorem size_waiting_release (s : Sorting) (v : Nat) :
    (s.release v).waiting.size = s.waiting.size := by
  unfold release
  split
  · rfl
  · exact Array.size_setIfInBounds

theorem waiting_release_self (h : v ∉ s.placed) (hv : v < s.waiting.size) :
    (s.release v).waiting.getD v 0 = s.waiting.getD v 0 - 1 := by
  unfold release
  rw [if_neg (by simpa using h)]
  simp [Array.getD, hv]

theorem waiting_release_of_ne {w : Nat} (h : v ≠ w) :
    (s.release v).waiting.getD w 0 = s.waiting.getD w 0 := by
  unfold release
  split
  · rfl
  · rw [Array.getD_eq_getD_getElem?, Array.getElem?_setIfInBounds_ne h,
      Array.getD_eq_getD_getElem?]

theorem mem_ready_release (h : v ∉ s.placed) {w : Nat} : w ∈ (s.release v).ready ↔
    w ∈ s.ready ∨ w = v ∧ s.waiting.getD v 0 - 1 = 0 := by
  unfold release
  rw [if_neg (by simpa using h)]
  dsimp only
  split
  · rename_i hzero
    rw [mem_enqueue, or_comm]
    exact or_congr_right (and_iff_left hzero).symm
  · rename_i hleft
    exact (or_iff_left fun hlast => hleft hlast.2).symm

end

theorem Sound.release {s : Sorting} {v : Nat} {pending : List Nat}
    (h : s.Sound count edges (v :: pending)) (hv : v < count) :
    (s.release v).Sound count edges pending := by
  by_cases hplaced : v ∈ s.placed
  · rw [release_of_placed hplaced]
    refine ⟨h.size, fun w hw hfree => ?_, h.queued, h.complete⟩
    have hne : v ≠ w := by
      rintro rfl
      exact hfree hplaced
    rw [h.waiting w hw hfree, List.count_cons_of_ne hne]
  · have hsize : v < s.waiting.size := h.size.symm ▸ hv
    have hcount := h.waiting v hv hplaced
    rw [List.count_cons_self] at hcount
    refine ⟨(size_waiting_release s v).trans h.size, ?_, ?_, ?_⟩
    · intro w hw hfree
      rw [placed_release] at hfree ⊢
      by_cases hne : v = w
      · subst hne
        rw [waiting_release_self hplaced hsize]
        omega
      · rw [waiting_release_of_ne hne, h.waiting w hw hfree, List.count_cons_of_ne hne]
    · intro w hw
      rw [placed_release]
      rcases (mem_ready_release hplaced).mp hw with hold | ⟨rfl, hzero⟩
      · obtain ⟨hbelow, hready⟩ := h.queued w hold
        refine ⟨hbelow, fun hfree => ?_⟩
        have hne : v ≠ w := by
          rintro rfl
          have hzero := hready hplaced
          omega
        rw [waiting_release_of_ne hne]
        exact hready hfree
      · exact ⟨hv, fun _ => (waiting_release_self hplaced hsize).trans hzero⟩
    · intro w hw hfree hzero
      rw [placed_release] at hfree
      rw [mem_ready_release hplaced]
      by_cases hne : v = w
      · subst hne
        rw [waiting_release_self hplaced hsize] at hzero
        exact .inr ⟨rfl, hzero⟩
      · rw [waiting_release_of_ne hne] at hzero
        exact .inl (h.complete w hw hfree hzero)

theorem Sound.release_all {s : Sorting} {targets : List Nat} (h : s.Sound count edges targets)
    (htargets : ∀ v ∈ targets, v < count) :
    (targets.foldl Sorting.release s).Sound count edges [] := by
  induction targets generalizing s with
  | nil => exact h
  | cons v rest ih =>
    exact ih (h.release (htargets v List.mem_cons_self)) fun w hw =>
      htargets w (List.mem_cons_of_mem _ hw)

end Sorting

/-! ## Turns -/

/-- Who may take the place behind those in `before`: a child that waits for nobody or,
where all that are left wait for each other, the first of them. -/
inductive HasTurn (count : Nat) (edges : List (Nat × Nat)) (before : List Nat) (v : Nat) : Prop
  | ready (h : ∀ a, (a, v) ∈ edges → a ∈ before)
  | forced (h : ∀ u < count, u ∉ before → v ≤ u ∧ ∃ a ∉ before, (a, u) ∈ edges)

/-- Orders in which each child stands where it had its turn. -/
inductive InTurn (count : Nat) (edges : List (Nat × Nat)) : List Nat → Prop
  | nil : InTurn count edges []
  | snoc {before : List Nat} {v : Nat} (h : InTurn count edges before) (hv : v < count)
    (hnew : v ∉ before) (hturn : HasTurn count edges before v) : InTurn count edges (before ++ [v])

namespace InTurn

theorem nodup {order : List Nat} (h : InTurn count edges order) : order.Nodup := by
  induction h with
  | nil => exact List.nodup_nil
  | snoc _ _ hnew _ ih => exact List.concat_eq_append ▸ ih.concat hnew

theorem lt_count {order : List Nat} (h : InTurn count edges order) : ∀ v ∈ order, v < count := by
  induction h with
  | nil => exact fun v hv => absurd hv List.not_mem_nil
  | snoc _ hlast _ _ ih =>
    intro v hv
    rcases List.mem_append.mp hv with hv | hv
    · exact ih v hv
    · exact List.mem_singleton.mp hv ▸ hlast

theorem length_le {order : List Nat} (h : InTurn count edges order) : order.length ≤ count := by
  have hsubset : order ⊆ List.range count := fun v hv => List.mem_range.mpr (h.lt_count v hv)
  simpa using (List.subperm_of_subset h.nodup hsubset).length_le

/-- Whoever stands in the order had its turn behind those in front of it. -/
theorem split {before after : List Nat} {v : Nat} (h : InTurn count edges (before ++ v :: after)) :
    InTurn count edges before ∧ v ∉ before ∧ HasTurn count edges before v := by
  induction after using List.reverseRecOn with
  | nil =>
    generalize horder : before ++ [v] = order at h
    cases h with
    | nil => simp at horder
    | snoc h _ hnew hturn =>
      obtain ⟨rfl, hv⟩ := List.append_inj' horder rfl
      obtain rfl := List.singleton_inj.mp hv
      exact ⟨h, hnew, hturn⟩
  | append_singleton after w ih =>
    generalize horder : before ++ v :: (after ++ [w]) = order at h
    cases h with
    | nil => simp at horder
    | snoc h _ _ _ =>
      rw [← List.cons_append, ← List.append_assoc] at horder
      obtain ⟨rfl, -⟩ := List.append_inj' horder rfl
      exact ih h

end InTurn

namespace Sorting

theorem edgesTo_eq_zero {placed : List Nat} {v : Nat} (h : edgesTo edges placed v = 0) :
    ∀ a, (a, v) ∈ edges → a ∈ placed := by
  intro a ha
  have hnone := List.countP_eq_zero.mp h (a, v) ha
  simpa using hnone

theorem exists_edge_of_edgesTo {placed : List Nat} {v : Nat} (h : edgesTo edges placed v ≠ 0) :
    ∃ a ∉ placed, (a, v) ∈ edges := by
  obtain ⟨e, he, hto⟩ := List.countP_pos_iff.mp (Nat.pos_of_ne_zero h)
  obtain ⟨rfl, hfree⟩ := of_decide_eq_true hto
  exact ⟨e.1, hfree, he⟩

/-- Who comes next has its turn, and the queue keeps everybody else who is ready. -/
theorem Sound.next {s : Sorting} (h : s.Sound count edges []) {v : Nat} {rest : List Nat}
    (hnext : s.next? count = some (v, rest)) :
    v < count ∧ v ∉ s.placed ∧ HasTurn count edges s.placed v ∧
      rest ⊆ s.ready ∧ ∀ w ∈ s.ready, w ∉ s.placed → w ≠ v → w ∈ rest := by
  have hkept : ∀ w ∈ s.ready, w ∉ s.placed → w ∈ s.ready.dropWhile s.placed.contains := by
    intro w hw hfree
    rw [← List.takeWhile_append_dropWhile (p := s.placed.contains) (l := s.ready)] at hw
    rcases List.mem_append.mp hw with hw | hw
    · have hplaced := List.mem_takeWhile_imp hw
      exact absurd (by simpa using hplaced) hfree
    · exact hw
  unfold next? at hnext
  split at hnext
  · rename_i w rest' hqueue
    obtain ⟨rfl, rfl⟩ := Prod.mk.inj (Option.some.inj hnext)
    have hfree : w ∉ s.placed := by
      have hhead := List.head?_dropWhile_not s.placed.contains s.ready
      simpa [hqueue] using hhead
    have hsubset : w :: rest' ⊆ s.ready := hqueue ▸ (List.dropWhile_sublist _).subset
    obtain ⟨hw, hrest⟩ := List.cons_subset.mp hsubset
    obtain ⟨hbelow, hzero⟩ := h.queued w hw
    have hcount := h.waiting w hbelow hfree
    rw [hzero hfree, List.count_nil, Nat.add_zero] at hcount
    refine ⟨hbelow, hfree, .ready (edgesTo_eq_zero hcount.symm), hrest, fun u hu hufree hne => ?_⟩
    have hmem := hkept u hu hufree
    rw [hqueue] at hmem
    exact (List.mem_cons.mp hmem).resolve_left hne
  · rename_i hqueue
    obtain ⟨w, hfind, heq⟩ := Option.map_eq_some_iff.mp hnext
    obtain ⟨rfl, rfl⟩ := Prod.mk.inj heq
    obtain ⟨hfree, hbelow, hfirst⟩ := List.find?_range_eq_some.mp hfind
    have hnobody : ∀ u ∈ s.ready, u ∈ s.placed := by
      intro u hu
      by_contra hufree
      have hmem := hkept u hu hufree
      rw [hqueue] at hmem
      exact absurd hmem List.not_mem_nil
    refine ⟨List.mem_range.mp hbelow, by simpa using hfree,
      .forced fun u hu hufree => ⟨?_, ?_⟩, List.nil_subset _,
      fun u hu hufree => absurd (hnobody u hu) hufree⟩
    · by_contra hlt
      exact hufree (by simpa using hfirst u (Nat.lt_of_not_le hlt))
    · have hcount := h.waiting u hu hufree
      rw [List.count_nil, Nat.add_zero] at hcount
      refine exists_edge_of_edgesTo fun hzero => hufree (hnobody u (h.complete u hu hufree ?_))
      rw [hcount, hzero]

end Sorting

/-! ## The whole order -/

namespace Sorting

theorem placed_place (s : Sorting) (v : Nat) : (s.place edges v).placed = s.placed ++ [v] := by
  unfold place
  rw [placed_foldl_release]

/-- The child that takes a place releases the ends of its edges. -/
theorem edgesTo_snoc {placed : List Nat} {v w : Nat} (hv : v ∉ placed) :
    edgesTo edges placed w = edgesTo edges (placed ++ [v]) w +
      ((edges.filter fun e => e.1 = v).map (·.2)).count w := by
  unfold edgesTo
  induction edges with
  | nil => rfl
  | cons e rest ih =>
    rw [List.countP_cons, List.countP_cons, ih]
    by_cases hfrom : e.1 = v <;> by_cases hto : e.2 = w
    · subst hfrom
      simp [hto, hv]
      omega
    · simp [hfrom, hto]
    · simp [hfrom, hto]
      omega
    · simp [hfrom, hto]

theorem Sound.place {s : Sorting} (hedges : ∀ e ∈ edges, e.2 < count)
    (h : s.Sound count edges []) {v : Nat} (hnew : v ∉ s.placed) {rest : List Nat}
    (hrest : rest ⊆ s.ready) (hkept : ∀ w ∈ s.ready, w ∉ s.placed → w ≠ v → w ∈ rest) :
    (Sorting.place edges { s with ready := rest } v).Sound count edges [] := by
  have hfree {w : Nat} (hw : w ∉ s.placed ++ [v]) : w ∉ s.placed ∧ w ≠ v := by
    simpa using hw
  refine Sound.release_all ⟨h.size, fun w hw hlater => ?_, fun w hw => ?_,
    fun w hw hlater hzero => ?_⟩ fun w hw => ?_
  · have hold := h.waiting w hw (hfree hlater).1
    rw [List.count_nil, Nat.add_zero, edgesTo_snoc hnew] at hold
    exact hold
  · obtain ⟨hbelow, hready⟩ := h.queued w (hrest hw)
    exact ⟨hbelow, fun hlater => hready (hfree hlater).1⟩
  · obtain ⟨hnot, hne⟩ := hfree hlater
    exact hkept w (h.complete w hw hnot hzero) hnot hne
  · obtain ⟨e, he, rfl⟩ := List.mem_map.mp hw
    exact hedges e (List.mem_filter.mp he).1

/-- A step puts a child behind the others whose turn it is. -/
theorem step_cases {s s' : Sorting} (hedges : ∀ e ∈ edges, e.2 < count)
    (h : s.Sound count edges []) (hstep : s.step count edges = some s') :
    ∃ v < count, v ∉ s.placed ∧ HasTurn count edges s.placed v ∧
      s'.placed = s.placed ++ [v] ∧ s'.Sound count edges [] := by
  unfold step at hstep
  obtain ⟨⟨v, rest⟩, hnext, rfl⟩ := Option.map_eq_some_iff.mp hstep
  obtain ⟨hbelow, hnew, hturn, hrest, hkept⟩ := h.next hnext
  exact ⟨v, hbelow, hnew, hturn, placed_place _ v, h.place hedges hnew hrest hkept⟩

theorem mem_placed_of_step {s : Sorting} (h : s.step count edges = none) :
    ∀ v < count, v ∈ s.placed := by
  intro v hv
  unfold step next? at h
  split at h
  · cases h
  · simp only [Option.map_eq_none_iff, List.find?_eq_none, List.mem_range] at h
    simpa using h v hv

/-- With as many steps as there are children without a place, the sorting comes to its end. -/
theorem run_spec (hedges : ∀ e ∈ edges, e.2 < count) {fuel : Nat} {s : Sorting}
    (h : s.Sound count edges []) (hturn : InTurn count edges s.placed)
    (hfuel : count ≤ fuel + s.placed.length) :
    InTurn count edges (run count edges fuel s).placed ∧
      (run count edges fuel s).step count edges = none := by
  induction fuel generalizing s with
  | zero =>
    refine ⟨hturn, ?_⟩
    unfold run
    by_contra hmore
    obtain ⟨s', hstep⟩ := Option.ne_none_iff_exists'.mp hmore
    obtain ⟨v, hv, hnew, hv', -, -⟩ := step_cases hedges h hstep
    have hle := (hturn.snoc hv hnew hv').length_le
    rw [List.length_append, List.length_singleton] at hle
    omega
  | succ fuel ih =>
    unfold run
    split
    · rename_i hend
      exact ⟨hturn, hend⟩
    · rename_i s' hstep
      obtain ⟨v, hv, hnew, hv', hplaced, hsound⟩ := step_cases hedges h hstep
      refine ih hsound (hplaced ▸ hturn.snoc hv hnew hv') ?_
      rw [hplaced, List.length_append, List.length_singleton]
      omega

end Sorting

end

section

variable (count : Nat) (edges : List (Nat × Nat))

theorem sorted_spec : InTurn count (SpanningForest.usable count edges) (order count edges) ∧
    (sorted count edges).step count (SpanningForest.usable count edges) = none := by
  exact Sorting.run_spec SpanningForest.usable_below (Sorting.sound_start _ _) .nil (Nat.le_refl _)

theorem perm_order : (order count edges).Perm (List.range count) := by
  obtain ⟨hturn, hend⟩ := sorted_spec count edges
  refine (List.perm_ext_iff_of_nodup hturn.nodup List.nodup_range).mpr fun v => ?_
  rw [List.mem_range]
  exact ⟨hturn.lt_count v, Sorting.mem_placed_of_step hend v⟩

end

end DiagramPress.Acyclic
