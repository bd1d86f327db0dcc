-- The check of a text reports no error exactly when the cells in it keep the
-- rules of an editor. The rules speak of cells and their attributes, not of text.
import DiagramPress.Proofs.Markup.Faults
import DiagramPress.Proofs.Markup.Foreign

namespace DiagramPress.Markup

/-! ## What it means that a fault is not reported -/

theorem nodup_of_repeatedIds {seen ids : List (List Char)} (h : repeatedIds seen ids = []) :
    ids.Nodup ∧ ∀ id ∈ ids, id ∉ seen := by
  induction ids generalizing seen with
  | nil => simp
  | cons id rest ih =>
    rw [repeatedIds] at h
    split at h
    · cases h
    · rename_i hid
      obtain ⟨hnodup, hrest⟩ := ih h
      simp only [List.contains_iff_mem] at hid
      have hnew : id ∉ rest := fun hmem => hrest id hmem (by simp)
      refine ⟨List.nodup_cons.mpr ⟨hnew, hnodup⟩, fun other hother => ?_⟩
      rcases List.mem_cons.mp hother with rfl | hother
      · exact hid
      · exact fun hseen => hrest other hother (by simp [hseen])

theorem repeatedIds_eq_nil_iff {ids : List (List Char)} : repeatedIds [] ids = [] ↔ ids.Nodup :=
  ⟨fun h => (nodup_of_repeatedIds h).1, fun h => repeatedIds_eq_nil h fun _ _ => List.not_mem_nil⟩

theorem wrapperFaults_eq_nil_iff {text : List Char} {cells : List FoundCell} :
    wrapperFaults text cells = [] ↔ occurs "<mxfile".toList text = true ∧
      (∃ c ∈ cells, isRoot c = true) ∧ ∃ c ∈ cells, isLayer c = true := by
  unfold wrapperFaults
  rw [List.append_eq_nil_iff, List.append_eq_nil_iff, ← List.any_eq_true, ← List.any_eq_true,
    and_assoc]
  simp only [ite_eq_left_iff, List.cons_ne_nil, imp_false, not_not]

theorem FoundCell.has_iff {cell : FoundCell} {name value : String} :
    cell.has name value = true ↔ cell.get? name = some value.toList := by
  rw [FoundCell.has, beq_iff_eq]

theorem vertexFaults_eq_nil_iff {cell : FoundCell} :
    vertexFaults cell = [] ↔ (cell.get? "vertex" = some "1".toList →
      ∃ g, cell.geometry? = some g ∧ g.get? "as" = some "geometry".toList) := by
  rw [← FoundCell.has_iff]
  unfold vertexFaults
  by_cases hvertex : cell.has "vertex" "1" = true
  · rw [if_pos hvertex]
    simp only [hvertex, true_imp_iff]
    rcases cell.geometry? with _ | g
    · simp only [List.cons_ne_nil, reduceCtorEq, false_and, exists_false]
    · simp only [Option.some.injEq, exists_eq_left', ite_eq_left_iff, beq_iff_eq,
        List.cons_ne_nil, imp_false, not_not]
  · simp only [hvertex, if_false, Bool.false_eq_true, false_imp_iff]

theorem endFaults_eq_nil_iff {ids : List (List Char)} {cell : FoundCell} {role : End} :
    endFaults ids cell role = [] ↔ ∃ id, cell.get? role.name = some id ∧ id ∈ ids := by
  unfold endFaults
  cases cell.get? role.name with
  | none => simp
  | some id => simp

theorem edgeFaults_eq_nil_iff {ids : List (List Char)} {cell : FoundCell} :
    edgeFaults ids cell = [] ↔ (cell.get? "edge" = some "1".toList →
      (∀ role : End, ∃ id, cell.get? role.name = some id ∧ id ∈ ids) ∧
        ∃ g, cell.geometry? = some g ∧ g.get? "relative" = some "1".toList) := by
  have hgeometry : (cell.geometry?.bind (·.get? "relative")) = some "1".toList ↔
      ∃ g, cell.geometry? = some g ∧ g.get? "relative" = some "1".toList := Option.bind_eq_some_iff
  have hroles (role : End) : role ∈ End.all := by cases role <;> decide
  rw [← FoundCell.has_iff, ← hgeometry]
  unfold edgeFaults
  by_cases hedge : cell.has "edge" "1" = true
  · rw [if_pos hedge]
    simp only [hedge, true_imp_iff, List.append_eq_nil_iff, List.flatMap_eq_nil_iff,
      endFaults_eq_nil_iff, hroles, ite_eq_left_iff, beq_iff_eq, List.cons_ne_nil, imp_false,
      not_not]
    rfl
  · simp only [hedge, if_false, Bool.false_eq_true, false_imp_iff]

/-- No error is reported exactly when the wrapper is there, the ids are distinct
and no cell has a fault of its own. -/
theorem faults_eq_nil_iff {text : List Char} :
    faults text = [] ↔ wrapperFaults text (cells text) = [] ∧
      ((cells text).filterMap (·.get? "id")).Nodup ∧
      ∀ cell ∈ cells text, vertexFaults cell = [] ∧
        edgeFaults ((cells text).filterMap (·.get? "id")) cell = [] := by
  simp only [faults, List.append_eq_nil_iff, repeatedIds_eq_nil_iff, List.flatMap_eq_nil_iff,
    and_assoc]

/-! ## Looking up distinct attributes -/

theorem lookup_eq_some_iff {as : Attributes} (h : (as.map Prod.fst).Nodup)
    {name value : List Char} : as.lookup name = some value ↔ (name, value) ∈ as := by
  induction as with
  | nil => simp
  | cons a as ih =>
    obtain ⟨key, val⟩ := a
    obtain ⟨hkey, hnodup⟩ := List.nodup_cons.mp h
    rw [List.lookup_cons, List.mem_cons]
    by_cases he : name = key
    · subst he
      have hnot : (name, value) ∉ as := fun hm => hkey (List.mem_map.mpr ⟨_, hm, rfl⟩)
      simp [hnot, eq_comm]
    · have hne : (name == key) = false := by simpa using he
      rw [hne, ih hnodup]
      simp [he]

theorem Attributes.get?_eq_some_iff {as : Attributes} (h : (as.map Prod.fst).Nodup)
    {name : String} {value : List Char} :
    as.get? name = some value ↔ (name.toList, value) ∈ as := by
  have hreverse : (as.reverse.map Prod.fst).Nodup := by
    rw [List.map_reverse]
    exact List.nodup_reverse.mpr h
  rw [Attributes.get?, lookup_eq_some_iff hreverse, List.mem_reverse]

namespace Foreign

/-! ## The rules -/

/-- The attributes of a tag, in the order they stand in. -/
def Tag.attributes (t : Tag) : List Attribute := t.entries.map Entry.toAttribute

def Tag.Has (t : Tag) (name value : String) : Prop := ⟨name, value⟩ ∈ t.attributes

def Cell.Has (c : Cell) (name value : String) : Prop := c.tag.Has name value

/-- What an editor needs to open a document. -/
structure KeepsRules (cells : List Cell) : Prop where
  root : ∃ c ∈ cells, c.Has "id" "0" ∧ ∀ parent, ¬ c.Has "parent" parent
  layer : ∃ c ∈ cells, c.Has "id" "1" ∧ c.Has "parent" "0"
  distinct : cells.Pairwise fun c c' => ∀ id, c.Has "id" id → ¬ c'.Has "id" id
  vertices : ∀ c ∈ cells, c.Has "vertex" "1" →
    ∃ g, c.geometry? = some g ∧ g.Has "as" "geometry"
  ends : ∀ c ∈ cells, c.Has "edge" "1" →
    ∀ role : End, ∃ id, c.Has role.name id ∧ ∃ c' ∈ cells, c'.Has "id" id
  lines : ∀ c ∈ cells, c.Has "edge" "1" → ∃ g, c.geometry? = some g ∧ g.Has "relative" "1"

/-! ## What the reader finds is what was written -/

theorem Tag.nodup_found (t : Tag) : (t.found.map Prod.fst).Nodup := by
  have hnames : t.found.map Prod.fst = (t.entries.map fun e => e.name).map String.toList := by
    rw [Tag.found, List.map_map, List.map_map]
    rfl
  rw [hnames]
  exact List.Nodup.map (fun _ _ => String.toList_inj.mp) t.distinct

theorem Tag.get?_found (t : Tag) (name value : String) :
    t.found.get? name = some value.toList ↔ t.Has name value := by
  rw [Attributes.get?_eq_some_iff t.nodup_found, Tag.found, Tag.Has, Tag.attributes, List.mem_map,
    List.mem_map]
  refine exists_congr fun e => and_congr_right fun _ => ?_
  rw [Entry.found, Prod.mk.injEq, String.toList_inj, String.toList_inj, ← Attribute.mk.injEq]

theorem Cell.get?_found (c : Cell) (name value : String) :
    c.found.get? name = some value.toList ↔ c.Has name value := c.tag.get?_found name value

theorem Cell.get?_found_eq_none (c : Cell) (name : String) :
    c.found.get? name = none ↔ ∀ value, ¬ c.Has name value := by
  rw [Option.eq_none_iff_forall_ne_some]
  constructor
  · intro h value hvalue
    exact h _ ((c.get?_found name value).mpr hvalue)
  · intro h chars hchars
    rw [← String.toList_ofList (l := chars)] at hchars
    exact h _ ((c.get?_found name _).mp hchars)

theorem Cell.isRoot_found (c : Cell) :
    isRoot c.found = true ↔ c.Has "id" "0" ∧ ∀ parent, ¬ c.Has "parent" parent := by
  rw [isRoot, Bool.and_eq_true, FoundCell.has_iff, c.get?_found, Option.isNone_iff_eq_none,
    c.get?_found_eq_none]

theorem Cell.isLayer_found (c : Cell) :
    isLayer c.found = true ↔ c.Has "id" "1" ∧ c.Has "parent" "0" := by
  rw [isLayer, Bool.and_eq_true, FoundCell.has_iff, FoundCell.has_iff, c.get?_found, c.get?_found]

/-- The geometry that is found says the same as the one that was written. -/
theorem Cell.geometry_found_has (c : Cell) (name value : String) :
    (∃ g, c.found.geometry? = some g ∧ g.get? name = some value.toList) ↔
      ∃ g, c.geometry? = some g ∧ g.Has name value := by
  rw [c.geometry?_found]
  cases c.geometry? with
  | none => simp
  | some g => simp [g.get?_found]

def foundIds (cells : List Cell) : List (List Char) :=
  (cells.map Cell.found).filterMap (·.get? "id")

theorem mem_foundIds {cells : List Cell} {id : String} :
    id.toList ∈ foundIds cells ↔ ∃ c ∈ cells, c.Has "id" id := by
  simp only [foundIds, List.mem_filterMap, List.mem_map, exists_exists_and_eq_and, Cell.get?_found]

theorem nodup_foundIds {cells : List Cell} : (foundIds cells).Nodup ↔
    cells.Pairwise fun c c' => ∀ id, c.Has "id" id → ¬ c'.Has "id" id := by
  unfold foundIds List.Nodup
  rw [List.pairwise_filterMap, List.pairwise_map]
  refine List.Pairwise.iff fun c c' => ?_
  constructor
  · intro h id hid hid'
    exact h _ ((c.get?_found "id" id).mpr hid) _ ((c'.get?_found "id" id).mpr hid') rfl
  · intro h chars hchars chars' hchars' he
    rw [← he, ← String.toList_ofList (l := chars)] at hchars'
    rw [← String.toList_ofList (l := chars)] at hchars
    exact h _ ((c.get?_found "id" _).mp hchars) ((c'.get?_found "id" _).mp hchars')

/-! ## The check of a document -/

theorem Document.occurs_wrapper (d : Document) :
    occurs "<mxfile".toList d.text.toList = true := by
  have hsplit : d.text.toList = d.before.chars ++ ("<mxfile".toList ++ (d.wrapper.chars ++
      (['>'] ++ (d.pieces.flatMap Piece.chars ++ (endTag "mxfile" ++ d.after.chars))))) :=
    String.toList_ofList
  rw [hsplit]
  exact occurs_of_append _ (occurs_append _ _)

theorem vertexFaults_found (c : Cell) : vertexFaults c.found = [] ↔
    (c.Has "vertex" "1" → ∃ g, c.geometry? = some g ∧ g.Has "as" "geometry") := by
  rw [vertexFaults_eq_nil_iff, c.get?_found, c.geometry_found_has]

theorem endFaults_found (cells : List Cell) (c : Cell) (role : End) :
    endFaults (foundIds cells) c.found role = [] ↔
      ∃ id, c.Has role.name id ∧ ∃ c' ∈ cells, c'.Has "id" id := by
  rw [endFaults_eq_nil_iff]
  constructor
  · rintro ⟨id, hget, hmem⟩
    rw [← String.toList_ofList (l := id)] at hget hmem
    exact ⟨_, (c.get?_found _ _).mp hget, mem_foundIds.mp hmem⟩
  · rintro ⟨id, hhas, hmem⟩
    exact ⟨id.toList, (c.get?_found _ _).mpr hhas, mem_foundIds.mpr hmem⟩

theorem edgeFaults_found (cells : List Cell) (c : Cell) :
    edgeFaults (foundIds cells) c.found = [] ↔ (c.Has "edge" "1" →
      (∀ role : End, ∃ id, c.Has role.name id ∧ ∃ c' ∈ cells, c'.Has "id" id) ∧
        ∃ g, c.geometry? = some g ∧ g.Has "relative" "1") := by
  rw [edgeFaults_eq_nil_iff, c.get?_found, c.geometry_found_has]
  simp only [← endFaults_eq_nil_iff, endFaults_found]

theorem errors_eq_nil_iff (d : Document) :
    (check d.text).errors = [] ↔ KeepsRules d.cells := by
  have hroot : (∃ c ∈ d.cells.map Cell.found, isRoot c = true) ↔
      ∃ c ∈ d.cells, c.Has "id" "0" ∧ ∀ parent, ¬ c.Has "parent" parent := by
    simp only [List.mem_map, exists_exists_and_eq_and, Cell.isRoot_found]
  have hlayer : (∃ c ∈ d.cells.map Cell.found, isLayer c = true) ↔
      ∃ c ∈ d.cells, c.Has "id" "1" ∧ c.Has "parent" "0" := by
    simp only [List.mem_map, exists_exists_and_eq_and, Cell.isLayer_found]
  rw [check, faults_eq_nil_iff, wrapperFaults_eq_nil_iff, cells_text, hroot, hlayer, ← foundIds,
    nodup_foundIds, List.forall_mem_map]
  simp only [d.occurs_wrapper, true_and, vertexFaults_found, edgeFaults_found]
  constructor
  · rintro ⟨⟨hroot, hlayer⟩, hdistinct, hcells⟩
    exact ⟨hroot, hlayer, hdistinct, fun c hc => (hcells c hc).1,
      fun c hc hedge => ((hcells c hc).2 hedge).1, fun c hc hedge => ((hcells c hc).2 hedge).2⟩
  · intro h
    exact ⟨⟨h.root, h.layer⟩, h.distinct, fun c hc =>
      ⟨h.vertices c hc, fun hedge => ⟨h.ends c hc hedge, h.lines c hc hedge⟩⟩⟩

/-! ## Other orders -/

/-- The same attributes, possibly in another order and with other white space. -/
def Tag.Reorders (t t' : Tag) : Prop := t.attributes.Perm t'.attributes

def Cell.Reorders (c c' : Cell) : Prop :=
  c.tag.Reorders c'.tag ∧ Option.Rel Tag.Reorders c.geometry? c'.geometry?

theorem Tag.Reorders.has_iff {t t' : Tag} (h : t.Reorders t') (name value : String) :
    t.Has name value ↔ t'.Has name value := h.mem_iff

theorem Tag.Reorders.symm {t t' : Tag} (h : t.Reorders t') : t'.Reorders t := List.Perm.symm h

theorem Cell.Reorders.symm {c c' : Cell} (h : c.Reorders c') : c'.Reorders c := by
  obtain ⟨htag, hgeometry⟩ := h
  refine ⟨htag.symm, ?_⟩
  generalize c.geometry? = g at hgeometry
  generalize c'.geometry? = g' at hgeometry
  cases hgeometry with
  | none => exact .none
  | some h => exact .some h.symm

theorem Cell.Reorders.has_iff {c c' : Cell} (h : c.Reorders c') (name value : String) :
    c.Has name value ↔ c'.Has name value := h.1.has_iff name value

theorem Cell.Reorders.geometry_has {c c' : Cell} (h : c.Reorders c') {name value : String}
    (hg : ∃ g, c.geometry? = some g ∧ g.Has name value) :
    ∃ g, c'.geometry? = some g ∧ g.Has name value := by
  obtain ⟨g, hsome, hhas⟩ := hg
  have hgeometry := h.2
  rw [hsome] at hgeometry
  generalize c'.geometry? = found at hgeometry ⊢
  cases hgeometry with
  | @some _ g' hreorders => exact ⟨g', rfl, (hreorders.has_iff name value).mp hhas⟩

/-- The rules do not depend on the order of attributes: here for cells in pairs. -/
theorem KeepsRules.reordered {pairs : List (Cell × Cell)} (h : ∀ p ∈ pairs, p.1.Reorders p.2)
    (hrules : KeepsRules (pairs.map Prod.fst)) : KeepsRules (pairs.map Prod.snd) where
  root := by
    obtain ⟨c, hc, hid, hparent⟩ := hrules.root
    obtain ⟨p, hp, rfl⟩ := List.mem_map.mp hc
    refine ⟨p.2, List.mem_map_of_mem hp, ((h p hp).has_iff _ _).mp hid, fun parent hhas => ?_⟩
    exact hparent parent (((h p hp).has_iff _ _).mpr hhas)
  layer := by
    obtain ⟨c, hc, hid, hparent⟩ := hrules.layer
    obtain ⟨p, hp, rfl⟩ := List.mem_map.mp hc
    exact ⟨p.2, List.mem_map_of_mem hp, ((h p hp).has_iff _ _).mp hid,
      ((h p hp).has_iff _ _).mp hparent⟩
  distinct := by
    refine List.pairwise_map.mpr ((List.pairwise_map.mp hrules.distinct).imp_of_mem ?_)
    intro p q hp hq hdistinct id hid hid'
    exact hdistinct id (((h p hp).has_iff _ _).mpr hid) (((h q hq).has_iff _ _).mpr hid')
  vertices := by
    intro c' hc' hvertex
    obtain ⟨p, hp, rfl⟩ := List.mem_map.mp hc'
    exact (h p hp).geometry_has (hrules.vertices p.1 (List.mem_map_of_mem hp)
      (((h p hp).has_iff _ _).mpr hvertex))
  ends := by
    intro c' hc' hedge role
    obtain ⟨p, hp, rfl⟩ := List.mem_map.mp hc'
    obtain ⟨id, hend, c, hc, hid⟩ := hrules.ends p.1 (List.mem_map_of_mem hp)
      (((h p hp).has_iff _ _).mpr hedge) role
    obtain ⟨q, hq, rfl⟩ := List.mem_map.mp hc
    exact ⟨id, ((h p hp).has_iff _ _).mp hend, q.2, List.mem_map_of_mem hq,
      ((h q hq).has_iff _ _).mp hid⟩
  lines := by
    intro c' hc' hedge
    obtain ⟨p, hp, rfl⟩ := List.mem_map.mp hc'
    exact (h p hp).geometry_has (hrules.lines p.1 (List.mem_map_of_mem hp)
      (((h p hp).has_iff _ _).mpr hedge))

theorem keepsRules_of_reorders {cells cells' : List Cell}
    (h : List.Forall₂ Cell.Reorders cells cells') (hrules : KeepsRules cells) :
    KeepsRules cells' := by
  obtain ⟨hlength, hpairs⟩ := List.forall₂_iff_zip.mp h
  have hfirst := List.map_fst_zip (Nat.le_of_eq hlength)
  have hsecond := List.map_snd_zip (Nat.le_of_eq hlength.symm)
  rw [← hsecond]
  rw [← hfirst] at hrules
  exact hrules.reordered fun p hp => hpairs hp

/-- The check finds no error in a document exactly if its cells keep the rules, and its
verdict does not depend on the order of attributes in any tag. -/
theorem the_check_agrees_with_the_rules :
    (∀ d : Document, (check d.text).errors = [] ↔ KeepsRules d.cells) ∧
    ∀ d d' : Document, List.Forall₂ Cell.Reorders d.cells d'.cells →
      (check d.text).valid = (check d'.text).valid := by
  refine ⟨errors_eq_nil_iff, fun d d' h => ?_⟩
  have hflip : List.Forall₂ Cell.Reorders d'.cells d.cells :=
    h.flip.imp fun _ _ => Cell.Reorders.symm
  rw [Bool.eq_iff_iff, CheckReport.valid, CheckReport.valid, List.isEmpty_iff, List.isEmpty_iff,
    errors_eq_nil_iff, errors_eq_nil_iff]
  exact ⟨keepsRules_of_reorders h, keepsRules_of_reorders hflip⟩

/-- An attribute after one space. -/
def Entry.spaced (a : Attribute) (reads : isName a.name = true)
    (plain : ∀ c ∈ a.value.toList, c ≠ '\"' ∧ c ≠ '<' ∧ c ≠ '>') : Entry :=
  { a with gap := ⟨[' '], by simp [Text.isBlank]⟩, gap_ne := by decide, reads, plain }

def idEntry : Entry := .spaced ⟨"id", "1"⟩ (by decide) (by simp)

def parentEntry : Entry := .spaced ⟨"parent", "0"⟩ (by decide) (by simp)

/-- A document with nothing but the layer. -/
def layerDocument (layer : Tag) : Document :=
  { before := ⟨[], by decide⟩
    wrapper := ⟨[], by decide, ⟨[], by simp⟩⟩
    pieces := [.text ⟨['\n'], by decide⟩, .cell (.lone layer)]
    after := ⟨[], by decide⟩ }

def layerById : Tag := ⟨[idEntry, parentEntry], by decide, ⟨[], by simp⟩⟩

def layerByParent : Tag :=
  ⟨[parentEntry, idEntry], by decide, ⟨[' '], by simp [Text.isBlank]⟩⟩

/-- The parent may stand before the id. -/
theorem the_order_of_a_layer_is_free :
    List.Forall₂ Cell.Reorders (layerDocument layerById).cells
      (layerDocument layerByParent).cells ∧
    (check (layerDocument layerById).text).valid =
      (check (layerDocument layerByParent).text).valid := by
  have hreorders : List.Forall₂ Cell.Reorders (layerDocument layerById).cells
      (layerDocument layerByParent).cells :=
    .cons ⟨List.Perm.swap _ _ _, .none⟩ .nil
  exact ⟨hreorders, the_check_agrees_with_the_rules.2 _ _ hreorders⟩

end Foreign

end DiagramPress.Markup
