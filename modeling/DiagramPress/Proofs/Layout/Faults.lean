-- Graphs that the engine gives no answer to: an id is there twice, or an end of a
-- connection is not there at all. A repeated id is reported before everything else.
import DiagramPress.Proofs.Layout.Answer
import Mathlib.Data.List.Forall2
import Mathlib.Data.List.Nodup
import DiagramPress.Proofs.Number.Grid

namespace DiagramPress

/-! ## Faults of a graph -/

namespace Frame

variable {α : Type}

/-- The connection stands on the frame or on one of those inside. -/
def Declares (root : Frame α) (link : Link) : Prop := ∃ f ∈ root :: root.inside, link ∈ f.links

/-- A connection that leads from somewhere to somewhere names an end that is no frame
inside. -/
structure Dangles (root : Frame α) (link : Link) (endpoint : String) : Prop where
  declared : root.Declares link
  sources : link.sources ≠ []
  targets : link.targets ≠ []
  mentioned : endpoint ∈ link.sources ++ link.targets
  missing : endpoint ∉ root.names

/-- What can be said against a graph. That an end is missing counts only where every id
is there once. -/
inductive Fault (root : Frame α) : LayoutError → Prop
  | repeatedId {id : String} (h : 2 ≤ root.names.count id) : Fault root (.duplicateId id)
  | missingEnd {link : Link} {endpoint : String} (honce : root.names.Nodup)
      (h : root.Dangles link endpoint) : Fault root (.unknownEndpoint link.id endpoint)

theorem mem_links_iff {root : Frame α} {link : Link} :
    link ∈ NestedLayout.links root ↔ root.Declares link := by
  unfold Declares
  rw [NestedLayout.links_eq_inside]
  simp

end Frame

namespace NestedLayout

open DiagramPress.Frame

variable {α : Type}

/-! ## Ids that are repeated -/

/-- The walk reports an id that it has seen before. -/
theorem count_of_firstRepeated {seen ids : List String} {id : String}
    (h : firstRepeated seen ids = some id) : 2 ≤ (seen ++ ids).count id := by
  induction ids generalizing seen with
  | nil => simp [firstRepeated] at h
  | cons first rest ih =>
    unfold firstRepeated at h
    split at h
    · rename_i hseen
      obtain rfl := Option.some.inj h
      have hbefore : 0 < seen.count first := by
        apply List.count_pos_iff.mpr
        simpa using hseen
      rw [List.count_append, List.count_cons_self]
      omega
    · have hmoved : (seen ++ first :: rest).Perm ((first :: seen) ++ rest) := List.perm_middle
      rw [hmoved.count_eq]
      exact ih h

theorem nodup_of_firstRepeated {seen ids : List String} (h : firstRepeated seen ids = none) :
    ids.Nodup ∧ ∀ id ∈ ids, id ∉ seen := by
  induction ids generalizing seen with
  | nil => simp
  | cons first rest ih =>
    unfold firstRepeated at h
    split at h
    · cases h
    · rename_i hseen
      obtain ⟨hnodup, hnew⟩ := ih h
      simp only [List.mem_cons, not_or] at hnew
      constructor
      · exact List.nodup_cons.mpr ⟨fun hmem => (hnew first hmem).1 rfl, hnodup⟩
      · intro id hid
        rcases List.mem_cons.mp hid with rfl | hid
        · simpa using hseen
        · exact (hnew id hid).2

/-! ## Ends that are missing -/

theorem not_mem_of_pathOf? {paths : List (List String)} {id : String}
    (h : pathOf? paths id = none) : id ∉ paths.map idOf := by
  intro hid
  obtain ⟨path, hpath⟩ := pathOf?_of_mem hid
  rw [h] at hpath
  cases hpath

theorem mem_of_pathOf? {paths : List (List String)} {id : String} {path : List String}
    (h : pathOf? paths id = some path) : path ∈ paths ∧ idOf path = id := by
  unfold pathOf? at h
  exact ⟨List.mem_of_find?_eq_some h, by simpa using List.find?_some h⟩

/-- A pair has no ends only because one of them leads nowhere. -/
theorem missing_of_endsOf {paths : List (List String)} {link : Link} {source target : String}
    {cause : LayoutError} (h : endsOf paths link source target = .error cause) :
    ∃ endpoint, (endpoint = source ∨ endpoint = target) ∧ endpoint ∉ paths.map idOf ∧
      cause = .unknownEndpoint link.id endpoint := by
  unfold endsOf at h
  split at h
  · cases h
  · rename_i hsource
    exact ⟨source, .inl rfl, not_mem_of_pathOf? hsource, (Except.error.inj h).symm⟩
  · rename_i htarget
    exact ⟨target, .inr rfl, not_mem_of_pathOf? htarget, (Except.error.inj h).symm⟩

theorem mem_pairsOf {link link' : Link} {source target : String} :
    (link', source, target) ∈ pairsOf link ↔
      link' = link ∧ source ∈ link.sources ∧ target ∈ link.targets := by
  unfold pairsOf
  simp only [List.mem_flatMap, List.mem_map, Prod.mk.injEq]
  constructor
  · rintro ⟨s, hs, t, ht, rfl, rfl, rfl⟩
    exact ⟨rfl, hs, ht⟩
  · rintro ⟨rfl, hs, ht⟩
    exact ⟨source, hs, target, ht, rfl, rfl, rfl⟩

/-! ## The graph as a whole -/

theorem fault_of_resolve {root : Frame α} {cause : LayoutError}
    (h : resolve root = .error cause) : Fault root cause := by
  have hnames := map_idOf_paths [] root
  unfold resolve at h
  dsimp only at h
  rw [hnames] at h
  split at h
  · rename_i id hrepeated
    obtain rfl := Except.error.inj h
    exact .repeatedId (by simpa using count_of_firstRepeated hrepeated)
  · rename_i hunique
    obtain ⟨⟨link, source, target⟩, hpair, hends⟩ := exists_of_mapM_error h
    obtain ⟨link', hlink, hpair⟩ := List.mem_flatMap.mp hpair
    obtain ⟨rfl, hsource, htarget⟩ := mem_pairsOf.mp hpair
    obtain ⟨endpoint, hendpoint, hmissing, rfl⟩ := missing_of_endsOf hends
    refine .missingEnd (nodup_of_firstRepeated hunique).1 ⟨mem_links_iff.mp hlink,
      List.ne_nil_of_mem hsource, List.ne_nil_of_mem htarget, ?_, hnames ▸ hmissing⟩
    rcases hendpoint with rfl | rfl <;> simp [hsource, htarget]

theorem ends_mem_of_endsOf {paths : List (List String)} {link : Link} {source target : String}
    {ends : Ends} (h : endsOf paths link source target = .ok ends) :
    (ends.1 ∈ paths ∧ idOf ends.1 = source) ∧ ends.2 ∈ paths ∧ idOf ends.2 = target := by
  unfold endsOf at h
  split at h
  · rename_i hsource htarget
    obtain rfl := Except.ok.inj h
    exact ⟨mem_of_pathOf? hsource, mem_of_pathOf? htarget⟩
  · cases h
  · cases h

/-- What a graph without faults is resolved to: every pair of a connection becomes the
paths of its two ends. -/
theorem resolved_pairs {root : Frame α} {ends : List Ends} (h : resolve root = .ok ends) :
    root.names.Nodup ∧ List.Forall₂ (fun pair e =>
      (e.1 ∈ paths [] root ∧ idOf e.1 = pair.2.1) ∧ e.2 ∈ paths [] root ∧ idOf e.2 = pair.2.2)
      ((links root).flatMap pairsOf) ends := by
  unfold resolve at h
  dsimp only at h
  split at h
  · cases h
  · rename_i hunique
    rw [map_idOf_paths] at hunique
    refine ⟨(nodup_of_firstRepeated hunique).1, .imp ?_ (forall₂_of_mapM h)⟩
    intro pair e hpair
    exact ends_mem_of_endsOf hpair

theorem not_dangles_of_resolve {root : Frame α} {ends : List Ends} (h : resolve root = .ok ends)
    (link : Link) (endpoint : String) : ¬ root.Dangles link endpoint := by
  intro hdangles
  have hfound : ∀ s ∈ link.sources, ∀ t ∈ link.targets, s ∈ root.names ∧ t ∈ root.names := by
    intro s hs t ht
    have hpair : (link, s, t) ∈ (links root).flatMap pairsOf :=
      List.mem_flatMap.mpr ⟨link, mem_links_iff.mpr hdangles.declared, mem_pairsOf.mpr ⟨rfl, hs, ht⟩⟩
    obtain ⟨e, -, ⟨hsource, rfl⟩, htarget, rfl⟩ := (exists_of_forall₂ (resolved_pairs h).2).1 _ hpair
    rw [← map_idOf_paths [] root]
    exact ⟨List.mem_map_of_mem hsource, List.mem_map_of_mem htarget⟩
  obtain ⟨s, hs⟩ := List.exists_mem_of_ne_nil _ hdangles.sources
  obtain ⟨t, ht⟩ := List.exists_mem_of_ne_nil _ hdangles.targets
  rcases List.mem_append.mp hdangles.mentioned with hend | hend
  · exact hdangles.missing (hfound endpoint hend t ht).1
  · exact hdangles.missing (hfound s hs endpoint hend).2

/-- A graph is resolved exactly if no id is repeated and no connection dangles. -/
theorem resolve_ok_iff (root : Frame α) :
    (∃ ends, resolve root = .ok ends) ↔
      root.names.Nodup ∧ ∀ link endpoint, ¬ root.Dangles link endpoint := by
  constructor
  · rintro ⟨ends, h⟩
    exact ⟨(resolved_pairs h).1, not_dangles_of_resolve h⟩
  · rintro ⟨honce, hends⟩
    refine resolve_ok honce fun link hlink s hs t ht => ?_
    have hlead (endpoint : String) (hend : endpoint ∈ link.sources ++ link.targets) :
        endpoint ∈ root.names := by
      by_contra hmissing
      exact hends link endpoint ⟨mem_links_iff.mp hlink, List.ne_nil_of_mem hs,
        List.ne_nil_of_mem ht, hend, hmissing⟩
    exact ⟨hlead s (List.mem_append_left _ hs), hlead t (List.mem_append_right _ ht)⟩

/-! ## The engine -/

variable [Scalar α] [NumberText α]

theorem run_error_iff (e : EngineSettings α) (root : Frame α) (cause : LayoutError) :
    run e root = .error cause ↔ resolve root = .error cause := by
  unfold run
  cases resolve root <;> simp [Except.map]

/-- The engine gives no answer exactly if an id is there twice, or if a connection from
somewhere to somewhere has an end that is not there. What it reports is the case, and an end
that is not there is reported only where every id is there once. -/
theorem graphs_with_faults_have_no_answer (e : EngineSettings α) (root : Frame α) :
    ((∃ cause, run e root = .error cause) ↔
      (∃ id, 2 ≤ root.names.count id) ∨ ∃ link endpoint, root.Dangles link endpoint) ∧
    ∀ cause, run e root = .error cause → root.Fault cause := by
  constructor
  · have hanswer : (∃ cause, run e root = .error cause) ↔ ¬ ∃ ends, resolve root = .ok ends := by
      simp only [run_error_iff]
      cases resolve root <;> simp
    have hrepeated : ¬ root.names.Nodup ↔ ∃ id, 2 ≤ root.names.count id := by
      rw [List.nodup_iff_count_le_one, not_forall]
      exact exists_congr fun id => by omega
    rw [hanswer, resolve_ok_iff, not_and_or, hrepeated]
    simp only [not_forall, not_not]
  · intro cause h
    exact fault_of_resolve ((run_error_iff e root cause).mp h)

section Grid

/-- Two frames with the id of the outermost one, one inside the other, and a connection
on the inner one whose target is nowhere. -/
def faultyGraph : Frame Grid :=
  ⟨"root", none, none, none, none,
    [⟨"root", none, none, none, none,
      [⟨"root", none, none, none, none, [], [⟨"e", ["root"], ["ghost"]⟩], .empty⟩], [], .empty⟩],
    [], .empty⟩

theorem a_repeated_id_is_reported_first :
    let e : EngineSettings Grid := ⟨Methods.bundled, ⟨(200 : Int), (200 : Int)⟩, 10⟩
    run e faultyGraph = .error (.duplicateId "root") ∧
      faultyGraph.Dangles ⟨"e", ["root"], ["ghost"]⟩ "ghost" ∧
      faultyGraph.Fault (.duplicateId "root") := by
  intro e
  have hrun : run e faultyGraph = .error (.duplicateId "root") := by
    rw [run_error_iff]
    decide +kernel
  refine ⟨hrun, ?_, (graphs_with_faults_have_no_answer e faultyGraph).2 _ hrun⟩
  constructor
  · exact ⟨_, List.mem_cons_of_mem _ (List.mem_cons_of_mem _ List.mem_cons_self),
      List.mem_cons_self⟩
  all_goals decide

end Grid

end NestedLayout

end DiagramPress
