-- Models whose groups are nested in any way, in circles too. The walk that hangs them up
-- comes to an end, and what hangs in the request is what the references lead out of.
import DiagramPress.Proofs.Layout.DeepestFirst
import DiagramPress.Proofs.Layout.Positions
import DiagramPress.Proofs.Layout.Request
import DiagramPress.Proofs.Number.Written

namespace DiagramPress

open Layout

namespace Model

variable {α : Type}

/-- The reference leads nowhere, or from group to group to one whose own reference leads
nowhere. -/
inductive LeadsOut (m : Model α) : Option String → Prop
  | nowhere {reference : Option String} (h : isKnown m reference = false) : LeadsOut m reference
  | into {g : Group α} (hg : g ∈ m.groups) (h : LeadsOut m g.parent) : LeadsOut m (some g.id)

open scoped Classical in
/-- The cells of the groups and the nodes that lead out. -/
noncomputable def leadingCells (m : Model α) : List Nat :=
  (m.groups.filter fun g => m.LeadsOut g.parent).map (·.cell) ++
    (m.nodes.filter fun n => m.LeadsOut n.group).map (·.cell)

theorem leadingCells_sublist (m : Model α) : m.leadingCells.Sublist m.entityCells := by
  unfold leadingCells
  exact (List.filter_sublist.map _).append (List.filter_sublist.map _)

theorem mem_leadingCells {m : Model α} {cell : Nat} : cell ∈ m.leadingCells ↔
    (∃ g ∈ m.groups, m.LeadsOut g.parent ∧ g.cell = cell) ∨
      ∃ n ∈ m.nodes, m.LeadsOut n.group ∧ n.cell = cell := by
  simp [leadingCells, and_assoc]

end Model

namespace Layout

variable {α : Type}

theorem isKnown_iff {m : Model α} {reference : Option String} :
    isKnown m reference = true ↔ ∃ id ∈ m.groups.map (·.id), reference = some id := by
  cases reference with
  | none => simp [isKnown]
  | some id => simp [isKnown]

/-- As long as some group is not visited, fewer ids are visited than there are groups. -/
theorem length_lt_of_not_mem {m : Model α} {visited : List String} {id : String}
    (hnodup : visited.Nodup) (hvisited : visited ⊆ m.groups.map (·.id))
    (hid : id ∈ m.groups.map (·.id)) (hnew : id ∉ visited) : visited.length < m.groups.length := by
  have hmore : (id :: visited).Nodup := List.nodup_cons.mpr ⟨hnew, hnodup⟩
  have hle := (List.subperm_of_subset hmore (List.cons_subset.mpr ⟨hid, hvisited⟩)).length_le
  rw [List.length_map, List.length_cons] at hle
  exact hle

/-! ## Containers and leaves -/

/-- The containers among some frames and inside of them. -/
def containersIn (fs : List (Frame α)) : List (Frame α) :=
  (Frame.insideIn fs).filter fun f => !f.isLeaf

def leavesAmong (fs : List (Frame α)) : List (Frame α) := (Frame.insideIn fs).filter Frame.isLeaf

theorem insideIn_cons (f : Frame α) (fs : List (Frame α)) :
    Frame.insideIn (f :: fs) = f :: Frame.insideIn f.children ++ Frame.insideIn fs := by
  rw [Frame.insideIn, Frame.inside_eq, Frame.insideIn_eq f.children]

theorem insideIn_append_leaves (fs : List (Frame α)) (ns : List (Model.Node α)) :
    Frame.insideIn (fs ++ ns.map leafOf) = Frame.insideIn fs ++ ns.map leafOf := by
  rw [Frame.insideIn_eq, Frame.insideIn_eq, List.flatMap_append, flatMap_leaves]

section

variable {f : Frame α} (hf : f.isLeaf = false) (fs : List (Frame α)) (ns : List (Model.Node α))

include hf in
theorem containersIn_cons :
    containersIn (f :: fs) = f :: containersIn f.children ++ containersIn fs := by
  unfold containersIn
  rw [insideIn_cons, List.filter_append, List.filter_cons_of_pos (by simp [hf])]

include hf in
theorem leavesAmong_cons : leavesAmong (f :: fs) = leavesAmong f.children ++ leavesAmong fs := by
  unfold leavesAmong
  rw [insideIn_cons, List.filter_append, List.filter_cons_of_neg (by simp [hf])]

theorem containersIn_append_leaves : containersIn (fs ++ ns.map leafOf) = containersIn fs := by
  have hnone : (ns.map leafOf).filter (fun f => !f.isLeaf) = [] := by
    rw [List.filter_eq_nil_iff]
    intro f hf
    obtain ⟨n, -, rfl⟩ := List.mem_map.mp hf
    simp [isLeaf_leafOf]
  unfold containersIn
  rw [insideIn_append_leaves, List.filter_append, hnone, List.append_nil]

theorem leavesAmong_append_leaves :
    leavesAmong (fs ++ ns.map leafOf) = leavesAmong fs ++ ns.map leafOf := by
  have hall : (ns.map leafOf).filter Frame.isLeaf = ns.map leafOf := by
    rw [List.filter_eq_self]
    intro f hf
    obtain ⟨n, -, rfl⟩ := List.mem_map.mp hf
    exact isLeaf_leafOf n
  unfold leavesAmong
  rw [insideIn_append_leaves, List.filter_append, hall]

end

/-! ## What leads out -/

/-- The name that the container of a group gets. -/
def nameOf (m : Model α) (id : String) : String :=
  ((m.group? id).map fun g => toString g.cell).getD ""

open scoped Classical in
/-- What of a model hangs in a graph: the containers of the groups that lead out, and the
leaves of the nodes that do. -/
structure HoldsLeadingOut (m : Model α) (root : Frame α) : Prop where
  containers : ((root.inside.filter fun f => !f.isLeaf).map (·.id)).Perm
    ((m.groups.filter fun g => m.LeadsOut g.parent).map fun g => nameOf m g.id)
  leaves : (root.inside.filter Frame.isLeaf).Perm
    ((m.nodes.filter fun n => m.LeadsOut n.group).map leafOf)

/-- Every group and every node that leads out has one frame, and its cell is the name. -/
structure NamesLeadingOut (m : Model α) (root : Frame α) : Prop where
  once : root.names.Nodup
  group : ∀ g ∈ m.groups, toString g.cell ∈ root.names ↔ m.LeadsOut g.parent
  node : ∀ n ∈ m.nodes, toString n.cell ∈ root.names ↔ m.LeadsOut n.group
  only : ∀ name ∈ root.names, ∃ cell ∈ m.entityCells, name = toString cell

open scoped Classical in
theorem HoldsLeadingOut.perm_names {m : Model α} {root : Frame α} (h : HoldsLeadingOut m root)
    (hids : (m.groups.map (·.id)).Nodup) : root.names.Perm (m.leadingCells.map toString) := by
  have hname : ∀ g ∈ m.groups, nameOf m g.id = toString g.cell := by
    intro g hg
    have hfind : m.group? g.id = some g := Description.find?_of_nodup hids hg
    rw [nameOf, hfind]
    rfl
  have hsplit := (List.filter_append_perm Frame.isLeaf root.inside).map (·.id)
  rw [List.map_append] at hsplit
  refine hsplit.symm.trans (List.perm_append_comm.trans ?_)
  rw [Model.leadingCells, List.map_append, List.map_map, List.map_map]
  refine (h.containers.trans (.of_eq ?_)).append ((h.leaves.map (·.id)).trans (.of_eq ?_))
  · exact List.map_congr_left fun g hg => hname g (List.mem_filter.mp hg).1
  · rw [List.map_map]
    exact List.map_congr_left fun n _ => leafOf_id n

/-- With distinct ids and cells, names tell the groups and the nodes apart. -/
theorem HoldsLeadingOut.namesLeadingOut {m : Model α} {root : Frame α} (h : HoldsLeadingOut m root)
    (hids : (m.groups.map (·.id)).Nodup) (hcells : m.entityCells.Nodup) :
    NamesLeadingOut m root := by
  have hnames := h.perm_names hids
  obtain ⟨hgroups, hnodes, hapart⟩ := List.nodup_append.mp hcells
  have hmem (cell : Nat) : toString cell ∈ root.names ↔ cell ∈ m.leadingCells := by
    rw [hnames.mem_iff, List.mem_map_of_injective toString_injective]
  constructor
  · exact hnames.nodup_iff.mpr ((hcells.sublist m.leadingCells_sublist).map toString_injective)
  · intro g hg
    rw [hmem, Model.mem_leadingCells]
    constructor
    · rintro (⟨g', hg', hout, hcell⟩ | ⟨n, hn, -, hcell⟩)
      · rwa [← List.inj_on_of_nodup_map hgroups hg' hg hcell]
      · exact absurd hcell.symm (hapart _ (List.mem_map_of_mem hg) _ (List.mem_map_of_mem hn))
    · intro hout
      exact .inl ⟨g, hg, hout, rfl⟩
  · intro n hn
    rw [hmem, Model.mem_leadingCells]
    constructor
    · rintro (⟨g, hg, -, hcell⟩ | ⟨n', hn', hout, hcell⟩)
      · exact absurd hcell (hapart _ (List.mem_map_of_mem hg) _ (List.mem_map_of_mem hn))
      · rwa [← List.inj_on_of_nodup_map hnodes hn' hn hcell]
    · intro hout
      exact .inr ⟨n, hn, hout, rfl⟩
  · intro name hname
    obtain ⟨cell, hcell, rfl⟩ := List.mem_map.mp (hnames.mem_iff.mp hname)
    exact ⟨cell, m.leadingCells_sublist.subset hcell, rfl⟩

/-- What two questions pick that are never both answered with yes. -/
theorem perm_filter_append {β : Type} {p q : β → Bool} {xs : List β}
    (h : ∀ x ∈ xs, p x = true → q x = false) :
    (xs.filter p ++ xs.filter q).Perm (xs.filter fun x => p x || q x) := by
  have hp : (xs.filter fun x => p x || q x).filter p = xs.filter p := by
    rw [List.filter_filter]
    exact List.filter_congr fun x _ => by cases p x <;> simp
  have hq : (xs.filter fun x => p x || q x).filter (fun x => !p x) = xs.filter q := by
    rw [List.filter_filter]
    refine List.filter_congr fun x hx => ?_
    cases hpx : p x with
    | true => simp [h x hx hpx]
    | false => simp
  have hsplit := List.filter_append_perm p (xs.filter fun x => p x || q x)
  rwa [hp, hq] at hsplit

theorem perm_flatMap_filter {β : Type} (reference : β → Option String) (xs : List β)
    {ids : List String} (hnodup : ids.Nodup) :
    (ids.flatMap fun id => xs.filter fun x => reference x = some id).Perm
      (xs.filter fun x => ∃ id ∈ ids, reference x = some id) := by
  induction ids with
  | nil => simp
  | cons id rest ih =>
    obtain ⟨hnew, hrest⟩ := List.nodup_cons.mp hnodup
    rw [List.flatMap_cons]
    refine ((ih hrest).append_left _).trans ((perm_filter_append fun x _ hx => ?_).trans ?_)
    · have hx : reference x = some id := by simpa using hx
      simp only [hx, decide_eq_false_iff_not]
      rintro ⟨other, hother, heq⟩
      exact hnew (Option.some.inj heq ▸ hother)
    · refine .of_eq (List.filter_congr fun x _ => ?_)
      simp

/-! ## The walk -/

/-- The ids of the groups directly inside the one with that id. -/
def innerIds (m : Model α) (id : String) : List String :=
  (m.groups.filter fun g => g.parent = some id).map (·.id)

/-- The leaves directly inside the container of the group with that id. -/
def leavesIn (m : Model α) (id : String) : List (Frame α) :=
  (m.nodes.filter fun n => n.group = some id).map leafOf

variable [NumberText α]

/-- Groups are hung up one after the other, given the ids that are visited before: the
frames and the ids that are visited afterwards. Nothing bounds how far the walk goes down. -/
inductive HangUp (m : Model α) (s : ContainerSettings α) :
    List String → List String → List (Frame α) → List String → Prop
  | done (visited : List String) : HangUp m s visited [] [] visited
  | again {visited ids visited' : List String} {id : String} {frames : List (Frame α)}
      (hid : id ∈ visited) (rest : HangUp m s visited ids frames visited') :
      HangUp m s visited (id :: ids) (emptyContainer m s id :: frames) visited'
  | first {visited ids between visited' : List String} {id : String}
      {inner frames : List (Frame α)} (hid : id ∉ visited)
      (down : HangUp m s (id :: visited) (innerIds m id) inner between)
      (rest : HangUp m s between ids frames visited') :
      HangUp m s visited (id :: ids)
        ({ emptyContainer m s id with children := inner ++ leavesIn m id } :: frames) visited'

namespace HangUp

variable {m : Model α} {s : ContainerSettings α} {visited ids visited' : List String}
  {frames : List (Frame α)}

/-- What holds of the ids at the start, and passes on from a group to those directly inside,
holds of every id that is visited. -/
theorem forall_visited (h : HangUp m s visited ids frames visited') {P : String → Prop}
    (step : ∀ g ∈ m.groups, ∀ id, g.parent = some id → P id → P g.id)
    (hids : ∀ id ∈ ids, P id) (hvisited : ∀ id ∈ visited, P id) : ∀ id ∈ visited', P id := by
  induction h with
  | done => exact hvisited
  | again _ _ ih => exact ih (fun id hid => hids id (List.mem_cons_of_mem _ hid)) hvisited
  | first _ _ _ ihDown ihRest =>
    have hfirst := hids _ List.mem_cons_self
    refine ihRest (fun id hid => hids id (List.mem_cons_of_mem _ hid)) (ihDown ?_ ?_)
    · intro id hid
      obtain ⟨g, hg, rfl⟩ := List.mem_map.mp hid
      obtain ⟨hmem, hparent⟩ := List.mem_filter.mp hg
      exact step g hmem _ (by simpa using hparent) hfirst
    · intro id hid
      rcases List.mem_cons.mp hid with rfl | hid
      · exact hfirst
      · exact hvisited id hid

/-- The walk forgets no id that is visited. -/
theorem suffix (h : HangUp m s visited ids frames visited') : visited <:+ visited' := by
  induction h with
  | done => exact List.suffix_rfl
  | again _ _ ih => exact ih
  | first _ _ _ ihDown ihRest => exact ((List.suffix_cons _ _).trans ihDown).trans ihRest

/-- It visits no id twice. -/
theorem nodup (h : HangUp m s visited ids frames visited') (hnodup : visited.Nodup) :
    visited'.Nodup := by
  induction h with
  | done => exact hnodup
  | again _ _ ih => exact ih hnodup
  | first hid _ _ ihDown ihRest => exact ihRest (ihDown (List.nodup_cons.mpr ⟨hid, hnodup⟩))

theorem ids_subset (h : HangUp m s visited ids frames visited') : ids ⊆ visited' := by
  induction h with
  | done => exact List.nil_subset _
  | again hid rest ih => exact List.cons_subset.mpr ⟨rest.suffix.subset hid, ih⟩
  | first _ down rest _ ih =>
    exact List.cons_subset.mpr ⟨rest.suffix.subset (down.suffix.subset List.mem_cons_self), ih⟩

/-- With an id that is visited on the way, the ids directly inside are visited. -/
theorem closed (h : HangUp m s visited ids frames visited') :
    ∀ id ∈ visited', id ∈ visited ∨ innerIds m id ⊆ visited' := by
  induction h with
  | done => exact fun id hid => .inl hid
  | again _ _ ih => exact ih
  | first _ down rest ihDown ihRest =>
    intro id hid
    rcases ihRest id hid with hid | hinner
    · rcases ihDown id hid with hid | hinner
      · rcases List.mem_cons.mp hid with rfl | hid
        · exact .inr fun inner h => rest.suffix.subset (down.ids_subset h)
        · exact .inl hid
      · exact .inr fun inner h => rest.suffix.subset (hinner h)
    · exact .inr hinner

end HangUp

/-! ## The end of the walk -/

theorem containerOf_of_mem (m : Model α) (s : ContainerSettings α) (fuel : Nat)
    {visited : List String} {id : String} (hid : id ∈ visited) :
    containerOf m s (fuel + 1) visited id = (emptyContainer m s id, visited) := by
  unfold containerOf
  rw [if_pos (by simpa using hid)]

theorem containerOf_of_not_mem (m : Model α) (s : ContainerSettings α) (fuel : Nat)
    {visited : List String} {id : String} (hid : id ∉ visited) :
    containerOf m s (fuel + 1) visited id =
      ({ emptyContainer m s id with
        children := (containersWith (containerOf m s fuel) (id :: visited) (innerIds m id)).1 ++
          leavesIn m id },
      (containersWith (containerOf m s fuel) (id :: visited) (innerIds m id)).2) := by
  conv_lhs => unfold containerOf
  rw [if_neg (by simpa using hid)]
  rfl

/-- The steps down that the program may take are never used up: each of them visits a group
that was not visited before. -/
theorem hangUp_containersWith (m : Model α) (s : ContainerSettings α) (fuel : Nat)
    {visited ids : List String} (hnodup : visited.Nodup)
    (hvisited : visited ⊆ m.groups.map (·.id)) (hids : ids ⊆ m.groups.map (·.id))
    (hfuel : m.groups.length ≤ fuel + visited.length) :
    HangUp m s visited ids (containersWith (containerOf m s fuel) visited ids).1
      (containersWith (containerOf m s fuel) visited ids).2 := by
  have hinner (id : String) : innerIds m id ⊆ m.groups.map (·.id) :=
    List.map_subset _ (List.filter_subset_self _)
  induction fuel generalizing visited ids with
  | zero =>
    induction ids with
    | nil => exact .done visited
    | cons id rest ih =>
      obtain ⟨hid, hrest⟩ := List.cons_subset.mp hids
      have hseen : id ∈ visited := by
        by_contra hnew
        have hlt := length_lt_of_not_mem hnodup hvisited hid hnew
        omega
      exact .again hseen (ih hrest)
  | succ fuel ihDown =>
    induction ids generalizing visited with
    | nil => exact .done visited
    | cons id rest ihRest =>
      obtain ⟨hid, hrest⟩ := List.cons_subset.mp hids
      by_cases hseen : id ∈ visited
      · rw [containersWith, containerOf_of_mem m s fuel hseen]
        exact .again hseen (ihRest hnodup hvisited hrest hfuel)
      · have hnodup' := List.nodup_cons.mpr ⟨hseen, hnodup⟩
        have hvisited' := List.cons_subset.mpr ⟨hid, hvisited⟩
        have hdown := ihDown hnodup' hvisited' (hinner id) (by rw [List.length_cons]; omega)
        have hbetween := hdown.forall_visited (fun g hg _ _ _ => List.mem_map_of_mem hg)
          (hinner id) hvisited'
        have hlength := hdown.suffix.length_le
        rw [List.length_cons] at hlength
        rw [containersWith, containerOf_of_not_mem m s fuel hseen]
        exact .first hseen hdown (ihRest (hdown.nodup hnodup') hbetween hrest (by omega))

/-! ## What hangs in the request -/

theorem id_emptyContainer (m : Model α) (s : ContainerSettings α) (id : String) :
    (emptyContainer m s id).id = nameOf m id := rfl

/-- Every id that is visited hangs the groups and nodes up that lie directly there. -/
theorem HangUp.contents {m : Model α} {s : ContainerSettings α} {visited ids visited' : List String}
    {frames : List (Frame α)} (h : HangUp m s visited ids frames visited') :
    ∃ entered, visited'.Perm (entered ++ visited) ∧
      ((containersIn frames).map (·.id)).Perm
        ((ids ++ entered.flatMap (innerIds m)).map (nameOf m)) ∧
      leavesAmong frames = entered.flatMap (leavesIn m) := by
  induction h with
  | done visited => exact ⟨[], .refl _, .refl _, rfl⟩
  | @again visited ids visited' id frames _ _ ih =>
    obtain ⟨entered, hvisited, hcontainers, hleaves⟩ := ih
    have hempty : (emptyContainer m s id).isLeaf = false := rfl
    refine ⟨entered, hvisited, ?_, ?_⟩
    · rw [containersIn_cons hempty]
      exact hcontainers.cons _
    · rw [leavesAmong_cons hempty]
      exact hleaves
  | @first visited ids between visited' id inner frames _ _ _ ihDown ihRest =>
    obtain ⟨below, hbetween, hinner, hleaves⟩ := ihDown
    obtain ⟨beside, hvisited, hframes, hleaves'⟩ := ihRest
    have hcontainer : ({ emptyContainer m s id with children := inner ++ leavesIn m id } :
        Frame α).isLeaf = false := by
      have hwidth : (emptyContainer m s id).width = none := rfl
      simp [Frame.isLeaf, hwidth]
    refine ⟨below ++ id :: beside, ?_, ?_, ?_⟩
    · refine hvisited.trans (List.perm_iff_count.mpr fun a => ?_)
      have hcount := hbetween.count_eq a
      simp only [List.count_append, List.count_cons] at hcount ⊢
      omega
    · rw [containersIn_cons hcontainer]
      refine List.perm_iff_count.mpr fun a => ?_
      have hcount := hinner.count_eq a
      have hcount' := hframes.count_eq a
      simp only [leavesIn, containersIn_append_leaves, id_emptyContainer, List.map_append,
        List.map_cons, List.flatMap_append, List.flatMap_cons, List.count_append,
        List.count_cons] at hcount hcount' ⊢
      omega
    · rw [leavesAmong_cons hcontainer, hleaves']
      simp only [leavesIn, leavesAmong_append_leaves, hleaves, List.flatMap_append,
        List.flatMap_cons, List.append_assoc]

/-- The ids of the groups that the walk starts with. -/
def topIds (m : Model α) : List String :=
  (m.groups.filter fun g => !isKnown m g.parent).map (·.id)

section

variable {m : Model α} {s : ContainerSettings α} {frames : List (Frame α)} {visited : List String}
  (h : HangUp m s [] (topIds m) frames visited)
include h

theorem HangUp.isKnown_visited : ∀ id ∈ visited, isKnown m (some id) = true := by
  refine h.forall_visited (fun g hg _ _ _ => ?_) (fun id hid => ?_) fun _ hid => ?_
  · exact isKnown_iff.mpr ⟨g.id, List.mem_map_of_mem hg, rfl⟩
  · obtain ⟨g, hg, rfl⟩ := List.mem_map.mp hid
    exact isKnown_iff.mpr ⟨g.id, List.mem_map_of_mem (List.mem_filter.mp hg).1, rfl⟩
  · cases hid

/-- The groups that are visited are those that are led out of. -/
theorem HangUp.leadsOut_iff {reference : Option String} :
    m.LeadsOut reference ↔ isKnown m reference = false ∨ ∃ id ∈ visited, reference = some id := by
  constructor
  · intro hout
    induction hout with
    | nowhere hunknown => exact .inl hunknown
    | @into g hg _ ih =>
      refine .inr ⟨g.id, ?_, rfl⟩
      rcases ih with hunknown | ⟨id, hid, hparent⟩
      · refine h.ids_subset (List.mem_map_of_mem (List.mem_filter.mpr ⟨hg, ?_⟩))
        simpa using hunknown
      · have hinner := (h.closed id hid).resolve_left List.not_mem_nil
        refine hinner (List.mem_map_of_mem (List.mem_filter.mpr ⟨hg, ?_⟩))
        simpa using hparent
  · rintro (hunknown | ⟨id, hid, rfl⟩)
    · exact .nowhere hunknown
    · refine h.forall_visited (P := fun id => m.LeadsOut (some id)) (fun g hg outer hparent hout => ?_)
        (fun id hid => ?_) (fun _ hid => ?_) id hid
      · exact .into hg (hparent ▸ hout)
      · obtain ⟨g, hg, rfl⟩ := List.mem_map.mp hid
        obtain ⟨hmem, hunknown⟩ := List.mem_filter.mp hg
        exact .into hmem (.nowhere (by simpa using hunknown))
      · cases hid

open scoped Classical in
/-- What refers to no group, or to a group that is visited, is what leads out. -/
theorem HangUp.perm_leadsOut {β : Type} (reference : β → Option String) (xs : List β) :
    ((xs.filter fun x => !isKnown m (reference x)) ++
      visited.flatMap fun id => xs.filter fun x => reference x = some id).Perm
      (xs.filter fun x => m.LeadsOut (reference x)) := by
  have hvisited := perm_flatMap_filter reference xs (h.nodup List.nodup_nil)
  refine (hvisited.append_left _).trans ((perm_filter_append fun x _ hx => ?_).trans ?_)
  · rw [decide_eq_false_iff_not]
    rintro ⟨id, hid, heq⟩
    have hknown := h.isKnown_visited id hid
    rw [heq, hknown] at hx
    cases hx
  · refine .of_eq (List.filter_congr fun x _ => ?_)
    rw [decide_eq_decide.mpr h.leadsOut_iff, Bool.decide_or]
    simp

end

/-- The request is what the walk hangs up, and the nodes that refer to no group. -/
theorem hangUp_request (m : Model α) (method : Method) (choice : LayoutChoice α)
    (settings : LayoutSettings α) : ∃ frames visited,
      HangUp m (containerSettings method choice settings.groupPadding) [] (topIds m) frames visited ∧
      (request m method choice settings).children =
        frames ++ (m.nodes.filter fun n => !isKnown m n.group).map leafOf := by
  have hids : topIds m ⊆ m.groups.map (·.id) := List.map_subset _ (List.filter_subset_self _)
  have hwalk := hangUp_containersWith m
    (containerSettings method choice settings.groupPadding) (m.groups.length + 1) List.nodup_nil
    (List.nil_subset _) hids (by simp)
  exact ⟨_, _, hwalk, rfl⟩

theorem holdsLeadingOut_request (m : Model α) (method : Method) (choice : LayoutChoice α)
    (settings : LayoutSettings α) : HoldsLeadingOut m (request m method choice settings) := by
  obtain ⟨frames, visited, h, hchildren⟩ := hangUp_request m method choice settings
  obtain ⟨entered, hvisited, hcontainers, hleaves⟩ := h.contents
  rw [List.append_nil] at hvisited
  have hinside : (request m method choice settings).inside = Frame.insideIn
      (frames ++ (m.nodes.filter fun n => !isKnown m n.group).map leafOf) := by
    rw [Frame.inside_eq, ← Frame.insideIn_eq, hchildren]
  constructor
  · rw [hinside]
    refine (List.Perm.of_eq ?_).trans (hcontainers.trans ?_)
    · exact congrArg (List.map (·.id)) (containersIn_append_leaves frames _)
    · have hgroups := (h.perm_leadsOut (·.parent) m.groups).map fun g => nameOf m g.id
      refine List.Perm.trans ?_ hgroups
      rw [List.map_append, List.map_append, topIds, List.map_map, List.map_flatMap, List.map_flatMap]
      refine List.Perm.append_left _ ?_
      refine (hvisited.symm.flatMap_right _).trans (.of_eq ?_)
      simp only [innerIds, List.map_map]
      rfl
  · have hnodes := (h.perm_leadsOut (·.group) m.nodes).map leafOf
    refine List.Perm.trans ?_ hnodes
    rw [hinside, List.map_append, List.map_flatMap]
    refine (List.Perm.of_eq (leavesAmong_append_leaves frames _)).trans ?_
    rw [hleaves]
    refine List.perm_append_comm.trans (List.Perm.append_left _ ?_)
    exact hvisited.symm.flatMap_right _

/-- A graph that the groups and the nodes of a model hang in, each at most once. -/
structure IsHungUp (m : Model α) (s : ContainerSettings α) (root : Frame α) : Prop where
  ends : ∃ frames visited, HangUp m s [] (topIds m) frames visited ∧
    root.children = frames ++ (m.nodes.filter fun n => !isKnown m n.group).map leafOf
  containers : (root.inside.filter fun f => !f.isLeaf).length ≤ m.groups.length
  leaves : (root.inside.filter Frame.isLeaf).Subperm (m.nodes.map leafOf)
  holds : HoldsLeadingOut m root
  names : (m.groups.map (·.id)).Nodup → m.entityCells.Nodup → NamesLeadingOut m root

theorem isHungUp_request (m : Model α) (method : Method) (choice : LayoutChoice α)
    (settings : LayoutSettings α) :
    IsHungUp m (containerSettings method choice settings.groupPadding)
      (request m method choice settings) := by
  have hholds := holdsLeadingOut_request m method choice settings
  refine ⟨hangUp_request m method choice settings, ?_, ?_, hholds, hholds.namesLeadingOut⟩
  · have hlength := hholds.containers.length_eq
    rw [List.length_map, List.length_map] at hlength
    rw [hlength]
    exact List.length_filter_le _ _
  · exact hholds.leaves.subperm.trans (List.filter_sublist.map _).subperm

end Layout

/-! ## What stays without a place -/

/-- What leads nowhere and has no place in the first model is the same in the second one. -/
structure Model.LeavesUnplaced {α : Type} [Scalar α] (m m' : Model α) : Prop where
  node : ∀ (i : Nat) (n : Model.Node α), m.nodes[i]? = some n → n.position = none →
    ¬ m.LeadsOut n.group → m'.nodes[i]? = some n
  group : ∀ (i : Nat) (g : Model.Group α), m.groups[i]? = some g → g.bounds? = none →
    ¬ m.LeadsOut g.parent → m'.groups[i]? = some g

namespace Layout

variable {α : Type} [Scalar α]

/-- A group without a box does not get one when groups grow. -/
theorem getElem?_encloseMembers (padding : Padding α) {m : Model α} {i : Nat} {g : Model.Group α}
    (hg : m.groups[i]? = some g) (hbox : g.bounds? = none) :
    (encloseMembers padding m).groups[i]? = some g := by
  have hgrow (m : Model α) : growAround padding m g = g := by
    rw [growAround, hbox]
  rw [encloseMembers]
  generalize deepestFirst m = order
  induction order generalizing m with
  | nil => exact hg
  | cons index order ih =>
    refine ih (m := growAt padding m index) ?_
    rw [getElem?_growAt, hg, Option.map_some, hgrow, ite_self]

variable [NumberText α]

theorem leavesUnplaced_layout {m m' : Model α} {choice : LayoutChoice α} {engine : LayoutEngine α}
    {settings : LayoutSettings α} (hids : (m.groups.map (·.id)).Nodup)
    (hcells : m.entityCells.Nodup)
    (hengine : ∀ method answer, methodOf? choice.algorithm = some method →
      engine (request m method choice settings) = .ok answer →
        answer.names ⊆ (request m method choice settings).names)
    (hlayout : m.layout choice engine settings = .ok m') : m.LeavesUnplaced m' := by
  rcases Model.layout_cases hlayout with ⟨-, rfl⟩ | ⟨method, answer, hmethod, hanswer, rfl⟩
  · exact ⟨fun i n hn _ _ => hn, fun i g hg _ _ => hg⟩
  · have hsub := hengine method answer hmethod hanswer
    have hnames := (holdsLeadingOut_request m method choice settings).namesLeadingOut hids hcells
    have hfollows := Model.followsAnswer_written settings.groupPadding m answer
    constructor
    · intro i n hn hfree hout
      refine hfollows.missing i n hn hfree fun hname => hout ?_
      exact (hnames.node n (List.mem_of_getElem? hn)).mp (hsub hname)
    · intro i g hg hbox hout
      have hmissing : toString g.cell ∉ (absolute answer.offset answer).map (·.1) := by
        rw [map_fst_absolute]
        intro hname
        exact hout ((hnames.group g (List.mem_of_getElem? hg)).mp (hsub hname))
      refine getElem?_encloseMembers _ ?_ hbox
      rw [writeBack, List.getElem?_map, hg, Option.map_some, writeGroup,
        boxOf?_of_not_mem hmissing]

/-- Groups may be nested in any way, in circles too: the walk that hangs them up ends, and so
does the search for the depth of each group, after which every group grows once. No more
containers hang in the request than there are groups, and no node hangs there twice: it is
the groups and the nodes whose references lead out. If ids and cells are distinct, each of
them is there once by the name of its cell, and as long as an engine answers with no other
names, everything else that has no place stays as it is. -/
theorem groups_nested_in_any_way_are_laid_out (m : Model α) (choice : LayoutChoice α)
    (settings : LayoutSettings α) :
    ((deepestFirst m).Perm (List.range m.groups.length) ∧
      ∀ id, groupDepth m id ≤ m.groups.length + 1) ∧
    (∀ method, IsHungUp m (containerSettings method choice settings.groupPadding)
      (request m method choice settings)) ∧
    ((m.groups.map (·.id)).Nodup → m.entityCells.Nodup → ∀ engine m',
      (∀ method answer, methodOf? choice.algorithm = some method →
        engine (request m method choice settings) = .ok answer →
          answer.names ⊆ (request m method choice settings).names) →
      m.layout choice engine settings = .ok m' → m.LeavesUnplaced m') := by
  refine ⟨⟨perm_deepestFirst m, fun id => chainLength_le _ _⟩, fun method => ?_, ?_⟩
  · exact isHungUp_request m method choice settings
  · intro hids hcells engine m' hengine hlayout
    exact leavesUnplaced_layout hids hcells hengine hlayout

section Grid

/-- Two groups in a circle, one that is its own parent, and one whose parent is nowhere, with
a group inside. The first node lies in the circle, the second one in the innermost group. -/
def tangledModel : Model Grid where
  title := "tangled"
  background := "#ffffff"
  groups :=
    [⟨"a", 2, "A", some "b", Model.layerCell, Style.empty, none, none⟩,
      ⟨"b", 3, "B", some "a", Model.layerCell, Style.empty, none, none⟩,
      ⟨"c", 4, "C", some "c", Model.layerCell, Style.empty, none, none⟩,
      ⟨"d", 5, "D", some "ghost", Model.layerCell, Style.empty, none, none⟩,
      ⟨"e", 6, "E", some "d", Model.layerCell, Style.empty, none, none⟩]
  nodes :=
    [⟨"n", 7, "N", Style.empty, some "a", none, ⟨(40 : Int), (20 : Int)⟩⟩,
      ⟨"o", 8, "O", Style.empty, some "e", none, ⟨(40 : Int), (20 : Int)⟩⟩]
  edges := []

theorem what_is_caught_in_a_circle_stays_unplaced :
    (tangledModel.groups.map (·.id)).Nodup ∧ tangledModel.entityCells.Nodup ∧
      tangledModel.LeadsOut (some "e") ∧ ¬ tangledModel.LeadsOut (some "a") ∧
      ∃ m', tangledModel.layout LayoutChoice.default (fun root => .ok root)
          LayoutSettings.default = .ok m' ∧
        m'.nodes[0]? = tangledModel.nodes[0]? ∧ m'.groups[2]? = tangledModel.groups[2]? := by
  have hids : (tangledModel.groups.map (·.id)).Nodup := by decide
  have hcells : tangledModel.entityCells.Nodup := by decide
  obtain ⟨-, hrequest, hlayout⟩ := groups_nested_in_any_way_are_laid_out tangledModel
    LayoutChoice.default LayoutSettings.default
  have hnames := (hrequest .layered).names hids hcells
  have hinner : tangledModel.LeadsOut (some "e") :=
    (hnames.node _ (List.mem_of_getElem? (i := 1) rfl)).mp (by decide +kernel)
  have hcircle : ¬ tangledModel.LeadsOut (some "a") := fun hout =>
    absurd ((hnames.node _ (List.mem_of_getElem? (i := 0) rfl)).mpr hout) (by decide +kernel)
  have hself : ¬ tangledModel.LeadsOut (some "c") := fun hout =>
    absurd ((hnames.group _ (List.mem_of_getElem? (i := 2) rfl)).mpr hout) (by decide +kernel)
  have hunplaced := hlayout hids hcells (fun root => .ok root) _
    (fun method answer _ h => by rw [Except.ok.inj h]; exact List.Subset.refl _) rfl
  exact ⟨hids, hcells, hinner, hcircle, _, rfl, hunplaced.node 0 _ rfl rfl hcircle,
    hunplaced.group 2 _ rfl rfl hself⟩

end Grid

end Layout

end DiagramPress
