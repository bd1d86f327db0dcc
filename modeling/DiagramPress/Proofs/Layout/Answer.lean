-- The engine's answer. There is one whenever ids are distinct and connections
-- lead to frames, and it has the same ids inside as the request.
import DiagramPress.Proofs.Description.Accepted
import DiagramPress.Proofs.Layout.Inside

namespace DiagramPress

namespace NestedLayout

open DiagramPress.Frame

variable {α : Type}

/-! ## The graph as a whole -/

theorem firstRepeated_eq_none {seen ids : List String} (hnodup : ids.Nodup)
    (hnew : ∀ id ∈ ids, id ∉ seen) : firstRepeated seen ids = none := by
  induction ids generalizing seen with
  | nil => rfl
  | cons id rest ih =>
    obtain ⟨hid, hrest, hnew⟩ := Description.unseen_of_nodup hnodup hnew
    have hfirst : ¬ seen.contains id = true := by simpa using hid
    rw [firstRepeated, if_neg hfirst]
    exact ih hrest hnew

theorem pathOf?_of_mem {paths : List (List String)} {id : String} (h : id ∈ paths.map idOf) :
    ∃ path, pathOf? paths id = some path := by
  obtain ⟨path, hpath, hid⟩ := List.mem_map.mp h
  refine Option.isSome_iff_exists.mp (List.find?_isSome.mpr ⟨path, hpath, ?_⟩)
  simpa using hid

theorem mapM_ok {β γ ε : Type} {f : β → Except ε γ} {l : List β} (h : ∀ x ∈ l, ∃ y, f x = .ok y) :
    ∃ ys, l.mapM f = .ok ys := by
  induction l with
  | nil => exact ⟨[], rfl⟩
  | cons x rest ih =>
    obtain ⟨y, hy⟩ := h x (by simp)
    obtain ⟨ys, hys⟩ := ih fun x hx => h x (by simp [hx])
    refine ⟨y :: ys, ?_⟩
    rw [List.mapM_cons, hy, hys]
    rfl

theorem forall₂_of_mapM {β γ ε : Type} {f : β → Except ε γ} {l : List β} {ys : List γ}
    (h : l.mapM f = .ok ys) : List.Forall₂ (fun x y => f x = .ok y) l ys := by
  induction l generalizing ys with
  | nil =>
    obtain rfl := Except.ok.inj h
    exact .nil
  | cons x rest ih =>
    rw [List.mapM_cons] at h
    cases hx : f x with
    | error cause => simp [hx, bind, Except.bind] at h
    | ok y =>
      cases hrest : rest.mapM f with
      | error cause => simp [hx, hrest, bind, Except.bind] at h
      | ok zs =>
        rw [hx, hrest] at h
        obtain rfl := Except.ok.inj h
        exact .cons hx (ih hrest)

theorem exists_of_mapM_error {β γ ε : Type} {f : β → Except ε γ} {l : List β} {cause : ε}
    (h : l.mapM f = .error cause) : ∃ x ∈ l, f x = .error cause := by
  induction l with
  | nil => cases h
  | cons x rest ih =>
    rw [List.mapM_cons] at h
    cases hx : f x with
    | error cause' =>
      rw [hx] at h
      obtain rfl := Except.error.inj h
      exact ⟨x, List.mem_cons_self, hx⟩
    | ok y =>
      cases hrest : rest.mapM f with
      | error cause' =>
        rw [hx, hrest] at h
        obtain rfl := Except.error.inj h
        obtain ⟨z, hz, herror⟩ := ih hrest
        exact ⟨z, List.mem_cons_of_mem _ hz, herror⟩
      | ok ys =>
        rw [hx, hrest] at h
        cases h

/-- What is related member by member is related to some member, in both directions. -/
theorem exists_of_forall₂ {β γ : Type} {R : β → γ → Prop} {l : List β} {l' : List γ}
    (h : List.Forall₂ R l l') : (∀ a ∈ l, ∃ b ∈ l', R a b) ∧ ∀ b ∈ l', ∃ a ∈ l, R a b := by
  induction h with
  | nil => exact ⟨fun a ha => absurd ha List.not_mem_nil, fun b hb => absurd hb List.not_mem_nil⟩
  | @cons a b l l' hab _ ih =>
    refine ⟨List.forall_mem_cons.mpr ⟨⟨b, List.mem_cons_self, hab⟩, fun a ha => ?_⟩,
      List.forall_mem_cons.mpr ⟨⟨a, List.mem_cons_self, hab⟩, fun b hb => ?_⟩⟩
    · obtain ⟨b, hb, hab⟩ := ih.1 a ha
      exact ⟨b, List.mem_cons_of_mem _ hb, hab⟩
    · obtain ⟨a, ha, hab⟩ := ih.2 b hb
      exact ⟨a, List.mem_cons_of_mem _ ha, hab⟩

/-- A graph with distinct ids has no fault if the ends of every connection that leads from
somewhere to somewhere are frames of it. -/
theorem resolve_ok {root : Frame α} (hnodup : root.names.Nodup)
    (hends : ∀ link ∈ links root, ∀ s ∈ link.sources, ∀ t ∈ link.targets,
      s ∈ root.names ∧ t ∈ root.names) :
    ∃ ends, resolve root = .ok ends := by
  have hpaths := map_idOf_paths [] root
  have hunique : firstRepeated [] ((paths [] root).map idOf) = none :=
    firstRepeated_eq_none (hpaths ▸ hnodup) fun _ _ => List.not_mem_nil
  have hfound {id : String} (hid : id ∈ root.names) :
      ∃ path, pathOf? (paths [] root) id = some path := pathOf?_of_mem (hpaths ▸ hid)
  rw [resolve, hunique]
  refine mapM_ok fun entry hentry => ?_
  obtain ⟨link, hlink, hpair⟩ := List.mem_flatMap.mp hentry
  obtain ⟨s, hs, hpair⟩ := List.mem_flatMap.mp hpair
  obtain ⟨t, ht, rfl⟩ := List.mem_map.mp hpair
  obtain ⟨hs, ht⟩ := hends link hlink s hs t ht
  obtain ⟨source, hsource⟩ := hfound hs
  obtain ⟨target, htarget⟩ := hfound ht
  exact ⟨(source, target), by simp only [endsOf, hsource, htarget]⟩

/-! ## One container -/

theorem names_settleEmpty (e : EngineSettings α) (isRoot : Bool) (f : Frame α) :
    (settleEmpty e isRoot f).names = f.names := by
  unfold settleEmpty
  split
  · rfl
  · exact names_congr rfl

variable [Scalar α]

theorem placeFree_entries (origin : Point α) (fs : List (Frame α)) (points : List (Point α)) :
    (placeFree origin fs points).map (fun c => c.id :: c.names) =
      fs.map fun c => c.id :: c.names := by
  induction fs generalizing points with
  | nil => rfl
  | cons f rest ih =>
    unfold placeFree
    split
    · rw [List.map_cons, List.map_cons, ih]
    · cases points with
      | nil => rfl
      | cons p points =>
        rw [List.map_cons, List.map_cons, ih]
        exact congrArg (fun ns => (f.id :: ns) :: _) (names_congr rfl)

variable [NumberText α]

theorem names_arrange (methods : Methods α) (iterations : Nat) (ends : List Ends)
    (above : List String) (f : Frame α) :
    (arrange methods iterations ends above f).names = f.names := by
  rw [names_eq, names_eq, List.flatMap_def, List.flatMap_def]
  exact congrArg List.flatten (placeFree_entries _ _ _)

/-! ## All containers -/

theorem layoutIn_eq (e : EngineSettings α) (ends : List Ends) (above : List String)
    (fs : List (Frame α)) :
    layoutIn e ends above fs =
      fs.map fun f => if f.isLeaf then f else layoutAt e ends false (above ++ [f.id]) f := by
  induction fs with
  | nil => rw [layoutIn, List.map_nil]
  | cons f rest ih =>
    cases f
    rw [layoutIn, ih, List.map_cons]

theorem layoutAt_eq (e : EngineSettings α) (ends : List Ends) (isRoot : Bool)
    (above : List String) (f : Frame α) :
    layoutAt e ends isRoot above f =
      if f.children.isEmpty then
        settleEmpty e isRoot { f with children := layoutIn e ends above f.children }
      else
        arrange e.methods e.iterations ends above
          { f with children := layoutIn e ends above f.children } := by
  cases f
  rw [layoutAt]

theorem id_layoutAt (e : EngineSettings α) (ends : List Ends) (isRoot : Bool)
    (above : List String) (f : Frame α) : (layoutAt e ends isRoot above f).id = f.id := by
  rw [layoutAt_eq]
  split
  · unfold settleEmpty
    split <;> rfl
  · rfl

/-- A layout changes no id inside a frame. -/
theorem names_layoutAt (e : EngineSettings α) (ends : List Ends) (isRoot : Bool)
    (above : List String) (f : Frame α) : (layoutAt e ends isRoot above f).names = f.names := by
  induction f using Frame.induction generalizing isRoot above with
  | step f ih =>
    have hinside : ({ f with children := layoutIn e ends above f.children } : Frame α).names =
        f.names := by
      rw [names_eq, names_eq, layoutIn_eq, List.flatMap_map]
      refine List.flatMap_congr fun c hc => ?_
      split
      · rfl
      · rw [id_layoutAt, ih c hc]
    rw [layoutAt_eq]
    split
    · rw [names_settleEmpty, hinside]
    · rw [names_arrange, hinside]

/-- The engine answers every graph that is in order, and the answer has its ids. -/
theorem run_ok (e : EngineSettings α) {root : Frame α} (hnodup : root.names.Nodup)
    (hends : ∀ link ∈ links root, ∀ id ∈ link.sources ++ link.targets, id ∈ root.names) :
    ∃ answer, run e root = .ok answer ∧ answer.names = root.names := by
  obtain ⟨ends, hresolve⟩ := resolve_ok hnodup fun link hlink s hs t ht =>
    ⟨hends link hlink s (List.mem_append_left _ hs), hends link hlink t (List.mem_append_right _ ht)⟩
  refine ⟨{ layoutAt e ends true [] root with x := some 0, y := some 0 }, ?_, ?_⟩
  · rw [run, hresolve]
    rfl
  · rw [← names_layoutAt e ends true [] root]
    exact names_congr rfl

end NestedLayout

end DiagramPress
