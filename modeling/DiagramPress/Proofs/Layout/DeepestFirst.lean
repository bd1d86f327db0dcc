-- The order in which groups grow: every group once, and, as long as nesting has
-- no circles, none before the groups that lie in it.
import DiagramPress.Layout.Adapter
import DiagramPress.Proofs.Description.Circles
import DiagramPress.Proofs.Layout.Kept
import Mathlib.Data.List.Range

namespace DiagramPress

open Layout

/-- The entry with the first number lies directly in the one with the second. -/
def Nesting.InsideAt (n : Nesting) (i j : Nat) : Prop :=
  ∃ id outer parent, n[i]? = some (id, some outer) ∧ n[j]? = some (outer, parent)

namespace Model

variable {α : Type}

/-- Which group of a model lies directly in which one. -/
def nesting (m : Model α) : Nesting := m.groups.map fun g => (g.id, g.parent)

theorem nesting_congr {m m' : Model α} (h : m'.withoutPlaces = m.withoutPlaces) :
    m'.nesting = m.nesting :=
  map_groups_congr h fun _ => rfl

theorem inside_iff {m : Model α} {inner outer : String} :
    m.nesting.Inside inner outer ↔ ∃ g ∈ m.groups, g.id = inner ∧ g.parent = some outer := by
  unfold Nesting.Inside nesting
  rw [List.mem_map]
  exact exists_congr fun g => and_congr_right fun _ => Prod.mk.injEq _ _ _ _ ▸ Iff.rfl

theorem insideAt_iff {m : Model α} {i j : Nat} :
    m.nesting.InsideAt i j ↔
      ∃ g h, m.groups[i]? = some g ∧ m.groups[j]? = some h ∧ g.parent = some h.id := by
  simp only [Nesting.InsideAt, nesting, List.getElem?_map, Option.map_eq_some_iff, Prod.mk.injEq]
  constructor
  · rintro ⟨-, -, -, ⟨g, hg, -, hparent⟩, h, hh, rfl, -⟩
    exact ⟨g, h, hg, hh, hparent⟩
  · rintro ⟨g, h, hg, hh, hparent⟩
    exact ⟨_, _, _, ⟨g, hg, rfl, hparent⟩, h, hh, rfl, rfl⟩

end Model

namespace Layout

variable {α : Type} {m : Model α}

/-! ## Depths -/

theorem chainLength_le (fuel : Nat) (parent : Option String) : chainLength m fuel parent ≤ fuel := by
  induction fuel generalizing parent with
  | zero => simp [chainLength]
  | succ fuel ih =>
    cases parent with
    | none => simp [chainLength]
    | some id =>
      rw [chainLength]
      exact Nat.succ_le_succ (ih _)

/-- Fuel that is left over makes no difference. -/
theorem chainLength_eq_of_le {fuel : Nat} {parent : Option String}
    (h : chainLength m (fuel + 1) parent ≤ fuel) :
    chainLength m fuel parent = chainLength m (fuel + 1) parent := by
  induction fuel generalizing parent with
  | zero =>
    cases parent with
    | none => rfl
    | some id =>
      rw [chainLength] at h
      omega
  | succ fuel ih =>
    cases parent with
    | none => rfl
    | some id =>
      rw [chainLength] at h
      rw [chainLength, chainLength, ih (by omega)]

/-- Without circles the way outwards never uses up more fuel than there are groups:
every group that it leaves is a new one. -/
theorem fuel_le_of_chainLength (hforest : m.nesting.IsForest) {fuel : Nat} {visited : List String}
    {id : String} (hlong : fuel ≤ chainLength m fuel ((m.group? id).bind (·.parent)))
    (hnodup : visited.Nodup) (hvisited : visited ⊆ m.groups.map (·.id))
    (hleads : ∀ v ∈ visited, Relation.TransGen m.nesting.Inside v id) :
    fuel + visited.length ≤ m.groups.length := by
  -- Every unit of fuel puts one more group among the visited ones, all of them distinct.
  induction fuel generalizing visited id with
  | zero =>
    have hle := (List.subperm_of_subset hnodup hvisited).length_le
    rw [List.length_map] at hle
    omega
  | succ fuel ih =>
    cases hparent : (m.group? id).bind (·.parent) with
    | none => simp [hparent, chainLength] at hlong
    | some parent =>
      rw [hparent, chainLength] at hlong
      have hrest := Nat.le_of_succ_le_succ hlong
      obtain ⟨g, hfind, hg⟩ := Option.bind_eq_some_iff.mp hparent
      obtain rfl : g.id = id := by simpa using List.find?_some hfind
      have hmem : g ∈ m.groups := List.mem_of_find?_eq_some hfind
      have hstep : m.nesting.Inside g.id parent := Model.inside_iff.mpr ⟨g, hmem, rfl, hg⟩
      have hnew : g.id ∉ visited := fun h => hforest g.id (hleads g.id h)
      have hlength := ih hrest (List.nodup_cons.mpr ⟨hnew, hnodup⟩)
        (List.cons_subset.mpr ⟨List.mem_map_of_mem hmem, hvisited⟩) fun v hv => by
          rcases List.mem_cons.mp hv with rfl | hv
          · exact .single hstep
          · exact (hleads v hv).tail hstep
      rw [List.length_cons] at hlength
      omega

/-- Without circles a group is deeper than the one around it. -/
theorem groupDepth_lt (hids : (m.groups.map (·.id)).Nodup) (hforest : m.nesting.IsForest)
    {g h : Model.Group α} (hh : h ∈ m.groups) (hparent : h.parent = some g.id) :
    groupDepth m g.id < groupDepth m h.id := by
  have hfind : m.group? h.id = some h := Description.find?_of_nodup hids hh
  -- From the inner group it is one step more, but that step has used up fuel.
  have hinner : groupDepth m h.id =
      chainLength m m.groups.length ((m.group? g.id).bind (·.parent)) + 1 := by
    rw [groupDepth, hfind, Option.bind_some, hparent, chainLength]
  have hshort : groupDepth m g.id ≤ m.groups.length := by
    by_contra hlong
    have hle := fuel_le_of_chainLength hforest (Nat.lt_of_not_le hlong) List.nodup_nil
      (List.nil_subset _) fun _ hv => absurd hv List.not_mem_nil
    omega
  rw [hinner, chainLength_eq_of_le hshort]
  exact Nat.lt_succ_self _

/-! ## The order -/

/-- The numbers of the groups of one depth, in order. -/
def level (m : Model α) (d : Nat) : List Nat :=
  ((m.groups.zipIdx.map fun (g, i) => (groupDepth m g.id, i)).filter
    fun (depth, _) => depth = d).map (·.2)

theorem deepestFirst_eq (m : Model α) :
    deepestFirst m = (List.range (m.groups.length + 2)).reverse.flatMap (level m) := rfl

/-- Groups that correspond to each other and lie equally deep grow in the same order. -/
theorem deepestFirst_congr {m' : Model α} {f : Model.Group α → Model.Group α}
    (hgroups : m'.groups = m.groups.map f)
    (hdepth : ∀ g, groupDepth m' (f g).id = groupDepth m g.id) :
    deepestFirst m' = deepestFirst m := by
  have hlevel (d : Nat) : level m' d = level m d := by
    simp only [level, hgroups, List.zipIdx_map, List.map_map, Function.comp_def, Prod.map, hdepth]
    rfl
  have hlength : m'.groups.length = m.groups.length := by rw [hgroups, List.length_map]
  rw [deepestFirst_eq, deepestFirst_eq, hlength, funext hlevel]

theorem mem_level {d i : Nat} :
    i ∈ level m d ↔ ∃ g, m.groups[i]? = some g ∧ groupDepth m g.id = d := by
  simp [level, List.mem_zipIdx_iff_getElem?]

theorem mem_deepestFirst {i : Nat} {g : Model.Group α} (h : m.groups[i]? = some g) :
    i ∈ deepestFirst m := by
  rw [deepestFirst_eq, List.mem_flatMap]
  refine ⟨groupDepth m g.id, ?_, mem_level.mpr ⟨g, h, rfl⟩⟩
  rw [List.mem_reverse, List.mem_range]
  exact Nat.lt_succ_of_le (chainLength_le _ _)

theorem nodup_deepestFirst (m : Model α) : (deepestFirst m).Nodup := by
  have hlevel (d : Nat) : (level m d).Nodup := by
    have hnumbers : (m.groups.zipIdx.map fun (g, i) => (groupDepth m g.id, i)).map (·.2) =
        List.range m.groups.length := by
      simp [List.map_map, Function.comp_def, List.range_eq_range']
    rw [level]
    refine (List.filter_sublist.map _).nodup ?_
    rw [hnumbers]
    exact List.nodup_range
  rw [deepestFirst_eq, List.nodup_flatMap]
  refine ⟨fun d _ => hlevel d, ?_⟩
  refine List.nodup_reverse.mpr List.nodup_range |>.imp fun hne i hi hj => hne ?_
  obtain ⟨g, hg, rfl⟩ := mem_level.mp hi
  obtain ⟨h, hh, rfl⟩ := mem_level.mp hj
  rw [Option.some.inj (hg.symm.trans hh)]

/-- The order has every group in it once. -/
theorem perm_deepestFirst (m : Model α) : (deepestFirst m).Perm (List.range m.groups.length) := by
  refine (List.perm_ext_iff_of_nodup (nodup_deepestFirst m) List.nodup_range).mpr fun i => ?_
  rw [List.mem_range]
  constructor
  · intro hi
    rw [deepestFirst_eq, List.mem_flatMap] at hi
    obtain ⟨d, -, hlevel⟩ := hi
    obtain ⟨g, hg, -⟩ := mem_level.mp hlevel
    exact (List.getElem?_eq_some_iff.mp hg).1
  · intro hi
    exact mem_deepestFirst (List.getElem?_eq_getElem hi)

/-- The depths never grow along the order. -/
theorem pairwise_deepestFirst (m : Model α) :
    (deepestFirst m).Pairwise fun i j => ∀ g h, m.groups[i]? = some g → m.groups[j]? = some h →
      groupDepth m h.id ≤ groupDepth m g.id := by
  have hdepth {d i : Nat} (hi : i ∈ level m d) (g : Model.Group α) (hg : m.groups[i]? = some g) :
      groupDepth m g.id = d := by
    obtain ⟨g', hg', hd⟩ := mem_level.mp hi
    rw [Option.some.inj (hg.symm.trans hg'), hd]
  rw [deepestFirst_eq, List.pairwise_flatMap]
  constructor
  · refine fun d _ => List.pairwise_of_forall_mem_list fun i hi j hj g h hg hh => ?_
    rw [hdepth hi g hg, hdepth hj h hh]
  · refine List.pairwise_reverse.mpr (List.pairwise_lt_range.imp fun hlt i hi j hj g h hg hh => ?_)
    rw [hdepth hi g hg, hdepth hj h hh]
    exact Nat.le_of_lt hlt

/-- Without circles no group comes before one that lies directly in it. -/
theorem pairwise_not_insideAt (hids : (m.groups.map (·.id)).Nodup) (hforest : m.nesting.IsForest) :
    (deepestFirst m).Pairwise fun i j => ¬ m.nesting.InsideAt j i := by
  refine (pairwise_deepestFirst m).imp fun hle hinside => ?_
  obtain ⟨h, g, hh, hg, hparent⟩ := Model.insideAt_iff.mp hinside
  have hlt := groupDepth_lt hids hforest (List.mem_of_getElem? hh) hparent
  exact Nat.not_le_of_lt hlt (hle g h hg hh)

theorem not_insideAt_self (hforest : m.nesting.IsForest) (i : Nat) : ¬ m.nesting.InsideAt i i := by
  intro hinside
  obtain ⟨g, h, hg, hh, hparent⟩ := Model.insideAt_iff.mp hinside
  obtain rfl := Option.some.inj (hg.symm.trans hh)
  exact hforest g.id (.single (Model.inside_iff.mpr ⟨g, List.mem_of_getElem? hg, rfl, hparent⟩))

end Layout

end DiagramPress
