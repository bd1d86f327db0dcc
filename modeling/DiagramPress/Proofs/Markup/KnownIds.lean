-- Which ids the check knows: those that cells carry in their own tags. It looks
-- at no other element, so an end of an edge can be reported as unknown although
-- an element around a cell has that id.
import DiagramPress.Proofs.Markup.Spellings

namespace DiagramPress.Markup

/-! ## When an end is reported -/

theorem message_unknownEnd (reference : String) (role : End) :
    (Fault.unknownEnd reference role).message =
      "Edge references non-existent " ++ (role.name ++ (" " ++ quotedId reference)) := by
  simp only [← String.append_assoc]
  rfl

theorem char_append {opening : String} {i : Nat} (h : i < opening.toList.length) (rest : String) :
    (opening ++ rest).toList[i]? = opening.toList[i]? := by
  rw [String.toList_append, List.getElem?_append_left h]

/-- The sixth character tells the message for an unknown end from all others. -/
theorem exists_of_sixth_message {f : Fault} (h : f.message.toList[5]? = some 'r') :
    ∃ reference role, f = .unknownEnd reference role := by
  have hother {opening rest : String} (hmessage : f.message = opening ++ rest)
      (hlong : 5 < opening.toList.length) : opening.toList[5]? = some 'r' := by
    rw [← char_append hlong rest, ← hmessage, h]
  cases f with
  | unknownEnd reference role => exact ⟨reference, role, rfl⟩
  | noWrapper => exact absurd h (by decide)
  | noRoot => exact absurd h (by decide)
  | noLayer => exact absurd h (by decide)
  | duplicateId id =>
    have hcell : (Fault.duplicateId id).message = "Duplicate cell " ++ quotedId id := rfl
    exact absurd (hother hcell (by decide)) (by decide)
  | noGeometry id =>
    have hvertex : (Fault.noGeometry id).message =
        "Vertex cell " ++ (quotedId id ++ " is missing <mxGeometry> element") := by
      rw [← String.append_assoc]
      rfl
    exact absurd (hother hvertex (by decide)) (by decide)
  | unmarkedGeometry id =>
    have hvertex : (Fault.unmarkedGeometry id).message =
        "Vertex cell " ++ (quotedId id ++ " geometry is missing as=\"geometry\" attribute") := by
      rw [← String.append_assoc]
      rfl
    exact absurd (hother hvertex (by decide)) (by decide)
  | missingEnd id role =>
    have hedge : (Fault.missingEnd id role).message =
        "Edge cell " ++ (quotedId id ++ (" is missing " ++ (role.name ++ " attribute"))) := by
      simp only [← String.append_assoc]
      rfl
    exact absurd (hother hedge (by decide)) (by decide)
  | absoluteEdge id =>
    have hedge : (Fault.absoluteEdge id).message =
        "Edge cell " ++ (quotedId id ++ " geometry is missing relative=\"1\" attribute") := by
      rw [← String.append_assoc]
      rfl
    exact absurd (hother hedge (by decide)) (by decide)

/-- No two faults of that kind are reported alike. -/
theorem message_eq_unknownEnd_iff {f : Fault} {reference : String} {role : End} :
    f.message = (Fault.unknownEnd reference role).message ↔ f = .unknownEnd reference role := by
  refine ⟨fun h => ?_, fun h => h ▸ rfl⟩
  obtain ⟨other, role', rfl⟩ : ∃ other role', f = .unknownEnd other role' := by
    apply exists_of_sixth_message
    rw [h, message_unknownEnd, char_append (by decide)]
    decide
  rw [message_unknownEnd, message_unknownEnd, String.append_right_inj] at h
  obtain rfl : role' = role := by
    have hfirst (r : End) : 0 < r.name.toList.length := by cases r <;> decide
    have hsame := congrArg (fun text => text.toList[0]?) h
    simp only [char_append (hfirst _)] at hsame
    revert hsame
    cases role' <;> cases role <;> decide
  rw [String.append_right_inj, String.append_right_inj, quotedId, quotedId,
    String.append_left_inj, String.append_right_inj] at h
  rw [h]

theorem attributes_cells (text : List Char) :
    (cells text).map FoundCell.attributes = tagsNamed "mxCell" text := by
  rw [cells, List.map_map, tagsNamed]
  rfl

theorem unknownEnd_mem_endFaults {ids : List (List Char)} {cell : FoundCell} {reference : String}
    {role role' : End} : Fault.unknownEnd reference role ∈ endFaults ids cell role' ↔
      role' = role ∧ cell.get? role.name = some reference.toList ∧ reference.toList ∉ ids := by
  unfold endFaults
  split
  · rename_i hnone
    simp only [List.mem_singleton, reduceCtorEq, false_iff]
    rintro ⟨rfl, hsome, -⟩
    rw [hnone] at hsome
    cases hsome
  · rename_i found hsome
    split
    · rename_i hknown
      simp only [List.not_mem_nil, false_iff]
      rintro ⟨rfl, hfound, hids⟩
      rw [hsome, Option.some.injEq] at hfound
      exact hids (hfound ▸ List.contains_iff_mem.mp hknown)
    · rename_i hunknown
      rw [List.contains_iff_mem] at hunknown
      simp only [List.mem_singleton, Fault.unknownEnd.injEq]
      constructor
      · rintro ⟨rfl, rfl⟩
        exact ⟨rfl, by rw [hsome, String.toList_ofList], by rwa [String.toList_ofList]⟩
      · rintro ⟨rfl, hfound, -⟩
        rw [hsome, Option.some.injEq] at hfound
        exact ⟨by rw [hfound, String.ofList_toList], rfl⟩

theorem unknownEnd_mem_edgeFaults {ids : List (List Char)} {cell : FoundCell} {reference : String}
    {role : End} : Fault.unknownEnd reference role ∈ edgeFaults ids cell ↔
      cell.get? "edge" = some "1".toList ∧ cell.get? role.name = some reference.toList ∧
        reference.toList ∉ ids := by
  have hall : role ∈ End.all := by cases role <;> decide
  rw [← FoundCell.has_iff, edgeFaults]
  by_cases hedge : cell.has "edge" "1" = true
  · have hother (relative : Bool) : Fault.unknownEnd reference role ∉
        (if relative then [] else [Fault.absoluteEdge cell.shownId]) := by
      cases relative <;> simp
    simp only [hedge, if_true, List.mem_append, List.mem_flatMap, unknownEnd_mem_endFaults,
      hother, or_false, true_and]
    constructor
    · rintro ⟨other, -, -, h⟩
      exact h
    · exact fun h => ⟨role, hall, rfl, h⟩
  · simp only [hedge, if_false, List.not_mem_nil, false_and, Bool.false_eq_true]

theorem unknownEnd_not_mem_repeatedIds (reference : String) (role : End)
    (seen ids : List (List Char)) :
    Fault.unknownEnd reference role ∉ repeatedIds seen ids := by
  induction ids generalizing seen with
  | nil => exact List.not_mem_nil
  | cons id rest ih =>
    rw [repeatedIds]
    split
    · simpa using ih seen
    · exact ih _

/-- An end is reported exactly if an edge refers to it and no cell has it as its id. -/
theorem unknownEnd_mem_faults {text : List Char} {reference : String} {role : End} :
    Fault.unknownEnd reference role ∈ faults text ↔
      (∃ as ∈ tagsNamed "mxCell" text, as.get? "edge" = some "1".toList ∧
        as.get? role.name = some reference.toList) ∧
      ∀ as ∈ tagsNamed "mxCell" text, as.get? "id" ≠ some reference.toList := by
  have hwrapper : Fault.unknownEnd reference role ∉ wrapperFaults text (cells text) := by
    unfold wrapperFaults
    split_ifs <;> simp
  have hvertex (cell : FoundCell) : Fault.unknownEnd reference role ∉ vertexFaults cell := by
    unfold vertexFaults
    split
    · split
      · simp
      · split <;> simp
    · simp
  rw [← attributes_cells]
  simp only [faults, List.mem_append, List.mem_flatMap, hwrapper, hvertex,
    unknownEnd_not_mem_repeatedIds, unknownEnd_mem_edgeFaults, false_or, List.mem_map,
    List.mem_filterMap, FoundCell.get?, exists_exists_and_eq_and, forall_exists_index, and_imp,
    forall_apply_eq_imp_iff₂, not_exists, not_and, ne_eq]
  constructor
  · rintro ⟨cell, hcell, hedge, hend, hids⟩
    exact ⟨⟨cell, hcell, hedge, hend⟩, hids⟩
  · rintro ⟨⟨cell, hcell, hedge, hend⟩, hids⟩
    exact ⟨cell, hcell, hedge, hend, hids⟩

namespace Foreign

/-! ## The report -/

/-- The report says that the end of an edge does not exist. -/
def Misses (parts : List Part) (role : End) (id : String) : Prop :=
  (Fault.unknownEnd id role).message ∈ (check (textOf parts)).errors.map Fault.message

theorem misses_iff_found {parts : List Part} {role : End} {id : String} : Misses parts role id ↔
    (∃ as ∈ tagsNamed "mxCell" (textOf parts).toList, as.get? "edge" = some "1".toList ∧
      as.get? role.name = some id.toList) ∧
    ∀ as ∈ tagsNamed "mxCell" (textOf parts).toList, as.get? "id" ≠ some id.toList := by
  rw [← unknownEnd_mem_faults]
  simp only [Misses, check, List.mem_map, message_eq_unknownEnd_iff, exists_eq_right]

theorem Misses.not_has_id {parts : List Part} {role : End} {id : String} (h : Misses parts role id)
    {o : Opening} (ho : o ∈ openings parts) (hcell : o.IsCell) (hplain : o.IsPlain) :
    ¬ o.Has "id" id := by
  obtain ⟨as, has, hreads⟩ := hplain.exists_found ho hcell
  rw [← hreads]
  exact (misses_iff_found.mp h).2 as has

theorem PlainCells.misses_iff {parts : List Part} (h : PlainCells parts) (role : End)
    (id : String) :
    Misses parts role id ↔
      (∃ o ∈ openings parts, o.IsCell ∧ o.Has "edge" "1" ∧ o.Has role.name id) ∧
        ∀ o ∈ openings parts, o.IsCell → ¬ o.Has "id" id := by
  constructor
  · intro hmisses
    obtain ⟨as, has, hedge, hend⟩ := (misses_iff_found.mp hmisses).1
    obtain ⟨o, ho, hcell, hreads⟩ := h.exists_cell has
    exact ⟨⟨o, ho, hcell, (hreads "edge" "1").mp hedge, (hreads _ _).mp hend⟩,
      fun o ho hcell => hmisses.not_has_id ho hcell (h.plain ho hcell)⟩
  · rintro ⟨⟨o, ho, hcell, hedge, hend⟩, hids⟩
    obtain ⟨as, has, hreads⟩ := (h.plain ho hcell).exists_found ho hcell
    refine misses_iff_found.mpr
      ⟨⟨as, has, (hreads "edge" "1").mpr hedge, (hreads _ _).mpr hend⟩, fun as has hid => ?_⟩
    obtain ⟨o, ho, hcell, hreads⟩ := h.exists_cell has
    exact hids o ho hcell ((hreads "id" id).mp hid)

/-- An end is reported only if no cell in a plain spelling has that id, and if all cells are in
a plain spelling, exactly if an edge refers to it and no cell has it. Ids of other elements
make no difference. -/
theorem ends_are_looked_for_among_cells (parts : List Part) (role : End) (id : String) :
    (Misses parts role id → ∀ o ∈ openings parts, o.IsCell → o.IsPlain → ¬ o.Has "id" id) ∧
    (PlainCells parts → (Misses parts role id ↔
      (∃ o ∈ openings parts, o.IsCell ∧ o.Has "edge" "1" ∧ o.Has role.name id) ∧
        ∀ o ∈ openings parts, o.IsCell → ¬ o.Has "id" id)) :=
  ⟨fun h _ ho hcell hplain => h.not_has_id ho hcell hplain, fun h => h.misses_iff role id⟩

/-! ## Where the check sees no id -/

theorem blank_nil : ∀ c ∈ ([] : List Char), Text.isBlank c = true := by simp

theorem blank_space : ∀ c ∈ [' '], Text.isBlank c = true := by simp [Text.isBlank]

theorem space_ne_nil : [' '] ≠ [] := by decide

theorem plain_of_mayName {value : String} (h : isLooseName value = true) :
    ∀ c ∈ value.toList, c ≠ '\"' ∧ c ≠ '<' ∧ c ≠ '>' := by
  intro c hc
  have hmay := mayName_of_mem h c hc
  refine ⟨?_, ?_, ?_⟩
  all_goals
    rintro rfl
    exact absurd hmay (by decide)

/-- An attribute after one space, with a value of one word. -/
def LooseEntry.spaced (name value : String) (named : isLooseName name = true := by decide)
    (plain : isLooseName value = true := by decide) : LooseEntry :=
  { name, value, named
    gap := ⟨[' '], blank_space⟩
    gap_ne := space_ne_nil
    before := ⟨[], blank_nil⟩
    after := ⟨[], blank_nil⟩
    plain := plain_of_mayName plain }

/-- The same with spaces around the equals sign. -/
def LooseEntry.widened (e : LooseEntry) : LooseEntry :=
  { e with before := ⟨[' '], blank_space⟩, after := ⟨[' '], blank_space⟩ }

def Part.start (name : String) (entries : List LooseEntry) (lone : Bool)
    (named : isLooseName name = true := by decide)
    (distinct : (entries.map fun e => e.name).Nodup := by decide) : Part :=
  .opening ⟨name, named, entries, distinct, ⟨[], blank_nil⟩, lone⟩

def Part.finish (name : String)
    (named : isLooseName name = true := by decide) : Part :=
  .closing name named ⟨[], blank_nil⟩

/-- A document with an edge from the element with id 2 to the layer. -/
def edgeFromTwo (element : List Part) : List Part :=
  [.start "mxfile" [] false, .start "diagram" [] false, .start "mxGraphModel" [] false,
    .start "root" [] false, .start "mxCell" [.spaced "id" "0"] true,
    .start "mxCell" [.spaced "id" "1", .spaced "parent" "0"] true] ++ element ++
  [.start "mxCell" [.spaced "id" "3", .spaced "edge" "1", .spaced "parent" "1",
      .spaced "source" "2", .spaced "target" "1"] false,
    .start "mxGeometry" [.spaced "relative" "1", .spaced "as" "geometry"] true,
    .finish "mxCell", .finish "root", .finish "mxGraphModel", .finish "diagram", .finish "mxfile"]

/-- A vertex inside an element that has its id. -/
def wrappedCell : List Part :=
  [.start "object" [.spaced "label" "A", .spaced "id" "2"] false,
    .start "mxCell" [.spaced "vertex" "1", .spaced "parent" "1"] false,
    .start "mxGeometry" [.spaced "as" "geometry"] true, .finish "mxCell", .finish "object"]

example : textOf wrappedCell =
    "<object label=\"A\" id=\"2\"><mxCell vertex=\"1\" parent=\"1\">" ++
      "<mxGeometry as=\"geometry\"/></mxCell></object>" := by
  decide +kernel

/-- A vertex that has its id in a spelling with spaces. -/
def spacedCell : List Part :=
  [.start "mxCell" [(LooseEntry.spaced "id" "2").widened, .spaced "vertex" "1"] false,
    .start "mxGeometry" [.spaced "as" "geometry"] true, .finish "mxCell"]

/-- A vertex with a second name that ends like the name of an id. -/
def prefixedCell : List Part :=
  [.start "mxCell" [.spaced "id" "2", .spaced "xml:id" "b", .spaced "vertex" "1"] false,
    .start "mxGeometry" [.spaced "as" "geometry"] true, .finish "mxCell"]

/-- The cell is known to an editor by the id of the element around it. -/
theorem the_id_of_a_wrapped_cell_is_missed :
    PlainCells (edgeFromTwo wrappedCell) ∧ Misses (edgeFromTwo wrappedCell) .source "2" ∧
    ∀ o ∈ openings (edgeFromTwo wrappedCell), o.IsCell → o.IsPlain → ¬ o.Has "id" "2" := by
  have hplain : PlainCells (edgeFromTwo wrappedCell) := ⟨by decide, by decide⟩
  have hmisses : Misses (edgeFromTwo wrappedCell) .source "2" :=
    ((ends_are_looked_for_among_cells _ _ _).2 hplain).mpr (by decide)
  exact ⟨hplain, hmisses, (ends_are_looked_for_among_cells _ _ _).1 hmisses⟩

/-- An end is reported although an element has that id: one around a cell, and a cell in a
spelling that the reader does not understand. -/
theorem ends_are_missed_although_elements_have_their_ids :
    (Misses (edgeFromTwo wrappedCell) .source "2" ∧
      ∃ o ∈ openings (edgeFromTwo wrappedCell), o.name = "object" ∧ o.Has "id" "2") ∧
    (Misses (edgeFromTwo spacedCell) .source "2" ∧
      ∃ o ∈ openings (edgeFromTwo spacedCell), o.IsCell ∧ o.Has "id" "2") ∧
    Misses (edgeFromTwo prefixedCell) .source "2" ∧
      ∃ o ∈ openings (edgeFromTwo prefixedCell), o.IsCell ∧ o.Has "id" "2" := by
  simp only [misses_iff_found, tagsNamed_textOf]
  refine ⟨⟨?_, ?_⟩, ⟨?_, ?_⟩, ?_, ?_⟩
  all_goals decide +kernel

end Foreign

end DiagramPress.Markup
