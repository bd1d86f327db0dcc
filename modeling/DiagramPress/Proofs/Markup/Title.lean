-- The title of a document: one element carries it as its name, and the reader gets back
-- what the references in the title stand for, as a title is not escaped like a label.
import DiagramPress.Proofs.Markup.Faults
import DiagramPress.Proofs.Number.Grid

namespace DiagramPress.Markup

/-! ## Elements by their names -/

namespace Element

mutual

/-- The attributes of each element with that name, in the order of the start tags. -/
def named (name : String) : Element → List (List Attribute)
  | text _ => []
  | lone word as => if word = name then [as] else []
  | span word as content => (if word = name then [as] else []) ++ namedIn name content
  | block word as content => (if word = name then [as] else []) ++ namedIn name content

def namedIn (name : String) : List Element → List (List Attribute)
  | [] => []
  | e :: rest => e.named name ++ namedIn name rest

end

theorem namedIn_eq_nil {name : String} {es : List Element} (h : ∀ e ∈ es, e.named name = []) :
    namedIn name es = [] := by
  induction es with
  | nil => rfl
  | cons e es ih => rw [namedIn, h e (by simp), ih fun x hx => h x (by simp [hx]), List.nil_append]

end Element

section

variable {name : String}

theorem tagsNamed_newline (rest : List Char) :
    tagsNamed name ('\n' :: rest) = tagsNamed name rest :=
  tagsNamed_plain (by decide : '<' ∉ ['\n']) rest

/-- A start tag is found by its own name, with its attributes, and by no other name. -/
theorem tagsNamed_startOfTag (hname : isWord name = true) {word : String} {as : List Attribute}
    (hword : isWord word = true) (has : ∀ a ∈ as, isName a.name = true) {close : List Char}
    (hclose : close = [] ∨ close = ['/']) (rest : List Char) :
    tagsNamed name (startOfTag word as ++ (close ++ '>' :: rest)) =
      ((if word = name then [as] else []).map fun as => as.map Attribute.found) ++
        tagsNamed name rest := by
  by_cases hsame : word = name
  · subst hsame
    have hsplit : startOfTag word as ++ (close ++ '>' :: rest) =
        '<' :: word.toList ++ as.flatMap Attribute.chars ++ (close ++ ['>']) ++ rest := by
      simp [startOfTag]
    have hinside := inside_attributes has
    rw [if_pos rfl, hsplit, tagsNamed, hinside.scan_tag_self word hclose, List.map_cons,
      hinside.attributes_eq hword hclose]
    rfl
  · have hstop : StopsName (close ++ '>' :: rest) := by
      rcases hclose with rfl | rfl <;> exact stopsName_cons (by decide) _
    have hplain : '<' ∉ close ++ ['>'] := by rcases hclose with rfl | rfl <;> decide
    have hsplit : close ++ '>' :: rest = close ++ ['>'] ++ rest := by simp
    rw [if_neg hsame, tagsNamed, scan_tag_startOfTag hname hword (Ne.symm hsame) has hstop, hsplit]
    exact tagsNamed_plain hplain rest

mutual

/-- The reader finds the elements of a name in the lines of an element. -/
theorem tagsNamed_lines (hname : isWord name = true) (depth : Nat) (rest : List Char) :
    ∀ e : Element, e.isTagged = true →
      tagsNamed name (e.lines depth ++ rest) =
        ((e.named name).map fun as => as.map Attribute.found) ++ tagsNamed name rest
  | .text _, h => by simp [Element.isTagged] at h
  | .span _ _ _, h => by simp [Element.isTagged] at h
  | .lone word as, h => by
    simp only [Element.isTagged, Bool.and_eq_true, List.all_eq_true] at h
    have hsplit : (Element.lone word as).lines depth ++ rest =
        indent depth ++ (startOfTag word as ++ (['/'] ++ '>' :: rest)) := by
      simp [lines_lone, loneTag]
    rw [hsplit, tagsNamed_plain (bracket_not_mem_indent depth),
      tagsNamed_startOfTag hname h.1 h.2 (.inr rfl), Element.named]
  | .block word as content, h => by
    simp only [Element.isTagged, Bool.and_eq_true, List.all_eq_true] at h
    obtain ⟨⟨hword, has⟩, hcontent⟩ := h
    have hsplit : (Element.block word as content).lines depth ++ rest =
        indent depth ++ (startOfTag word as ++ ([] ++ '>' :: '\n' ::
          (Element.linesAll (depth + 1) content ++ (indent depth ++ (endTag word ++ rest))))) := by
      simp [Element.lines, startTag]
    have hend : tagsNamed name (endTag word ++ rest) = tagsNamed name rest := by
      rw [tagsNamed, scan_tag_endTag hname hword, tagsNamed]
    rw [hsplit, tagsNamed_plain (bracket_not_mem_indent depth),
      tagsNamed_startOfTag hname hword has (.inl rfl), tagsNamed_newline,
      tagsNamed_linesAll hname (depth + 1) _ content hcontent,
      tagsNamed_plain (bracket_not_mem_indent depth), hend, Element.named, List.map_append,
      List.append_assoc]

theorem tagsNamed_linesAll (hname : isWord name = true) (depth : Nat) (rest : List Char) :
    ∀ es : List Element, Element.allTagged es = true →
      tagsNamed name (Element.linesAll depth es ++ rest) =
        ((Element.namedIn name es).map fun as => as.map Attribute.found) ++ tagsNamed name rest
  | [], _ => by simp [Element.linesAll, Element.namedIn]
  | e :: es, h => by
    simp only [Element.allTagged, Bool.and_eq_true] at h
    have hsplit : Element.linesAll depth (e :: es) ++ rest =
        e.lines depth ++ ('\n' :: (Element.linesAll depth es ++ rest)) := by
      simp [Element.linesAll]
    rw [hsplit, tagsNamed_lines hname depth _ e h.1, tagsNamed_newline,
      tagsNamed_linesAll hname depth rest es h.2, Element.namedIn, List.map_append,
      List.append_assoc]

end

end

section Document

variable {α : Type} [Scalar α] [NumberText α]

/-! ## The diagram of a document -/

/-- What the diagram in a document is called, with the references read. -/
def titles (text : List Char) : List (Option (List Char)) :=
  (tagsNamed "diagram" text).map fun as => (as.get? "name").map unescapeChars

theorem named_cell (c : Cell α) : c.element.named "diagram" = [] := by
  cases c <;> simp [Cell.element, cellElement, Element.named, Element.namedIn]

/-- A document has one diagram. -/
theorem named_document (m : Model α) (modified : String) :
    (document m modified).named "diagram" = [[⟨"name", m.title⟩, ⟨"id", "diagram-1"⟩]] := by
  have hcells : Element.namedIn "diagram" (foundation ++ (cellsOf m).map Cell.element) = [] := by
    refine Element.namedIn_eq_nil fun e he => ?_
    rcases List.mem_append.mp he with he | he
    · simp only [foundation, List.mem_cons, List.not_mem_nil, or_false] at he
      rcases he with rfl | rfl <;> simp [Element.named]
    · obtain ⟨c, -, rfl⟩ := List.mem_map.mp he
      exact named_cell c
  simp [document, Element.named, Element.namedIn, hcells]

theorem tagsNamed_encode {name : String} (hname : isWord name = true) (m : Model α)
    (modified : String) : tagsNamed name (encode m modified).toList =
      ((document m modified).named name).map fun as => as.map Attribute.found := by
  have hnil : tagsNamed name [] = [] := rfl
  have h := tagsNamed_lines hname 0 [] (document m modified) (isTagged_document m modified)
  simpa [encode, hnil] using h

/-- The title of a model is guarded when it is written, so only its references are read. -/
theorem titles_encode (m : Model α) (modified : String) :
    titles (encode m modified).toList = [some (unescapeChars m.title.toList)] := by
  have hvalue : valueOf? [⟨"name", m.title⟩, ⟨"id", "diagram-1"⟩] "name" = some m.title := by
    simp [valueOf?]
  rw [titles, tagsNamed_encode (by decide), named_document, List.map_singleton, List.map_singleton,
    get?_map_found, hvalue, Option.map_some, Option.map_some, unescapeChars_guardChars]

end Document

end DiagramPress.Markup

namespace DiagramPress

/-- The document of a description has one diagram. The reader takes for its name what
the references in the title stand for, which is the title itself exactly if the
title holds no reference to a character. -/
theorem a_title_is_read_back_without_its_references {α : Type} [Scalar α] [NumberText α]
    (d : Description α) (tables : Tables α) (settings : ModelSettings α) (modified : String) :
    let text := (Markup.encode (d.build tables settings).1 modified).toList
    Markup.titles text = [some (Markup.unescapeChars d.title.toList)] ∧
      (Markup.titles text = [some d.title.toList] ↔ ¬ Markup.HoldsReference d.title.toList) := by
  intro text
  have htitles : Markup.titles text = [some (Markup.unescapeChars d.title.toList)] :=
    Markup.titles_encode (d.build tables settings).1 modified
  refine ⟨htitles, ?_⟩
  rw [htitles, ← Markup.unescapeChars_eq_self_iff]
  simp

section Grid

/-- A diagram whose title looks like a reference. -/
def titledAsReference : Description Grid where
  title := "&amp;"
  theme := .professional
  layout := LayoutChoice.default
  nodes := [⟨"a", "a", "rounded=1;", none, none, none, none⟩]
  edges := []
  groups := []

/-- The description is accepted, and its title is read back as a mere ampersand. -/
theorem a_title_that_looks_like_a_reference_is_changed :
    let built := (titledAsReference.build Tables.builtin ModelSettings.default).1
    titledAsReference.problems = [] ∧
      Markup.titles (Markup.encode built "now").toList = [some ['&']] ∧
      Markup.titles (Markup.encode built "now").toList ≠
        [some titledAsReference.title.toList] := by
  intro built
  have hread : Markup.unescapeChars "&amp;".toList = ['&'] := by decide
  have htitle : Markup.titles (Markup.encode built "now").toList = [some ['&']] :=
    (Markup.titles_encode built "now").trans (congrArg (fun read => [some read]) hread)
  refine ⟨by decide, htitle, ?_⟩
  rw [htitle]
  decide

end Grid

end DiagramPress
