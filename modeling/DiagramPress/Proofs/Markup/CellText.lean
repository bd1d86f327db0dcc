-- Where a cell ends in a text, and what the reader finds in it: the attributes
-- of its tag, and the geometry between its tags if there is one.
import DiagramPress.Proofs.Markup.Scanning

namespace DiagramPress.Markup

theorem isWord_cell : isWord "mxCell" = true := by decide

theorem isWord_geometry : isWord "mxGeometry" = true := by decide

/-! ## The end of a cell -/

namespace FoundCell

theorem closing_cons : closing = '<' :: '/' :: "mxCell>".toList := rfl

theorem closing_eq : closing = endTag "mxCell" := rfl

theorem not_closing_cons {c : Char} (h : '<' ≠ c) (rest : List Char) :
    closing.isPrefixOf (c :: rest) = false := by
  simp [closing_cons, List.isPrefixOf, h]

theorem not_closing_tag {c : Char} (h : '/' ≠ c) (rest : List Char) :
    closing.isPrefixOf ('<' :: c :: rest) = false := by
  simp [closing_cons, List.isPrefixOf, h]

theorem upTo_closing_cons {c : Char} {rest : List Char}
    (h : closing.isPrefixOf (c :: rest) = false) :
    upTo closing (c :: rest) = c :: upTo closing rest := by
  rw [upTo, h]
  rfl

theorem upTo_closing_plain {pre : List Char} (h : '<' ∉ pre) (rest : List Char) :
    upTo closing (pre ++ rest) = pre ++ upTo closing rest := by
  induction pre with
  | nil => rfl
  | cons c pre ih =>
    have hc : '<' ≠ c := by rintro rfl; exact h (by simp)
    rw [List.cons_append, upTo_closing_cons (not_closing_cons hc _), ih fun hm => h (by simp [hm])]
    rfl

theorem upTo_closing_endTag (rest : List Char) :
    upTo closing (endTag "mxCell" ++ rest) = endTag "mxCell" := by
  have hpre : closing.isPrefixOf (endTag "mxCell" ++ rest) = true := by
    rw [closing_eq, List.isPrefixOf_iff_prefix]
    exact ⟨rest, rfl⟩
  have hcons : endTag "mxCell" ++ rest = '<' :: ('/' :: "mxCell".toList ++ ['>'] ++ rest) := by
    simp [endTag]
  rw [hcons] at hpre ⊢
  rw [upTo, if_pos hpre, ← hcons, closing_eq, List.take_left]

end FoundCell

section

variable {text : List Char} {found : Attributes}

/-- The end of a cell is not inside a tag. -/
theorem Inside.upTo_closing (h : Inside text found) {name : String} (hname : isWord name = true)
    (rest : List Char) :
    FoundCell.upTo FoundCell.closing ('<' :: name.toList ++ text ++ rest) =
      '<' :: name.toList ++ text ++ FoundCell.upTo FoundCell.closing rest := by
  obtain ⟨hne, hw⟩ := wordChars_of_isWord hname
  obtain ⟨c, cs, hcs⟩ := List.exists_cons_of_ne_nil hne
  have hc : '/' ≠ c := by
    rintro rfl
    exact absurd (hw '/' (by simp [hcs])) (by decide)
  have hplain : '<' ∉ c :: cs ++ text := by
    rw [← hcs]
    intro hm
    rcases List.mem_append.mp hm with hm | hm
    · exact absurd (not_reserved_of_mem_word hname _ hm) (by decide)
    · exact h.no_start hm
  have hskip := FoundCell.upTo_closing_cons (FoundCell.not_closing_tag hc (cs ++ text ++ rest))
  have hrest := FoundCell.upTo_closing_plain hplain rest
  simp only [hcs, List.cons_append, List.append_assoc] at hskip hrest ⊢
  rw [hskip, hrest]

/-- A tag that ends without a slash has something inside it. -/
theorem Inside.not_lone (h : Inside text found) {name : String} (hname : isWord name = true) :
    ['/', '>'].isSuffixOf ('<' :: name.toList ++ text ++ ['>']) = false := by
  have hslash : ('<' :: name.toList ++ text).getLast? ≠ some '/' := by
    intro hlast
    rcases List.eq_nil_or_concat text with rfl | ⟨before, c, rfl⟩
    · have hmem : '/' ∈ name.toList := by simpa using List.mem_of_getLast? hlast
      exact absurd ((wordChars_of_isWord hname).2 _ hmem) (by decide)
    · have hlast' := h.no_slash
      rw [List.concat_eq_append, List.getLast?_concat] at hlast'
      rw [List.concat_eq_append, ← List.append_assoc, List.getLast?_concat] at hlast
      exact hlast' hlast
  cases hsuffix : ['/', '>'].isSuffixOf ('<' :: name.toList ++ text ++ ['>']) with
  | false => rfl
  | true =>
    obtain ⟨before, hbefore⟩ := List.isSuffixOf_iff_suffix.mp hsuffix
    have hcut : before ++ ['/'] = '<' :: name.toList ++ text := by
      have hcut' : before ++ ['/'] ++ ['>'] = '<' :: name.toList ++ text ++ ['>'] := by
        rw [← hbefore, List.append_assoc]
        rfl
      exact List.append_cancel_right hcut'
    exact absurd (by rw [← hcut]; simp) hslash

end

/-! ## Between the tags of a cell -/

/-- What stands between the tags of a cell is text, with at most one geometry. -/
inductive Content : List Char → Option Attributes → Prop
  | plain {text : List Char} (h : '<' ∉ text) : Content text none
  | geometry {before text after : List Char} {found : Attributes} (hbefore : '<' ∉ before)
      (h : Inside text found) (hafter : '<' ∉ after) :
      Content (before ++ ('<' :: "mxGeometry".toList ++ text ++ (['/', '>'] ++ after)))
        (some found)

namespace Content

variable {content : List Char} {geometry : Option Attributes}

theorem upTo_closing (h : Content content geometry) (rest : List Char) :
    FoundCell.upTo FoundCell.closing (content ++ (endTag "mxCell" ++ rest)) =
      content ++ endTag "mxCell" := by
  cases h with
  | plain h => rw [FoundCell.upTo_closing_plain h, FoundCell.upTo_closing_endTag]
  | @geometry before text after found hbefore h hafter =>
    have hend : '<' ∉ ['/', '>'] ++ after := by simpa using hafter
    rw [List.append_assoc, FoundCell.upTo_closing_plain hbefore, List.append_assoc,
      h.upTo_closing isWord_geometry, FoundCell.upTo_closing_plain hend,
      FoundCell.upTo_closing_endTag]
    simp only [List.append_assoc]

/-- No other cell starts before the end of the cell. -/
theorem scan_tag_cell (h : Content content geometry) (rest : List Char) :
    scan (tag "mxCell") (content ++ (endTag "mxCell" ++ rest)) = scan (tag "mxCell") rest := by
  cases h with
  | plain h => rw [scan_tag_plain h, scan_tag_endTag isWord_cell isWord_cell]
  | @geometry before text after found hbefore h hafter =>
    have hend : '<' ∉ ['/', '>'] ++ after := by simpa using hafter
    have hstop : StopsName (['/', '>'] ++ after ++ (endTag "mxCell" ++ rest)) :=
      stopsName_cons (by decide) _
    rw [List.append_assoc, scan_tag_plain hbefore, List.append_assoc,
      h.scan_tag_other isWord_cell isWord_geometry (by decide) hstop, scan_tag_plain hend,
      scan_tag_endTag isWord_cell isWord_cell]

theorem scan_tag_geometry (h : Content content geometry) :
    ((scan (tag "mxGeometry") (content ++ endTag "mxCell")).head?).map
      (fun (tag, _) => attributes tag) = geometry := by
  have hnone : scan (tag "mxGeometry") (endTag "mxCell" ++ []) = [] := by
    rw [scan_tag_endTag isWord_geometry isWord_cell]
    rfl
  rw [← List.append_nil (endTag "mxCell")]
  cases h with
  | plain h =>
    rw [scan_tag_plain h, hnone]
    rfl
  | @geometry before text after found hbefore h hafter =>
    have hsplit : '<' :: "mxGeometry".toList ++ text ++ (['/', '>'] ++ after) ++
        (endTag "mxCell" ++ []) = '<' :: "mxGeometry".toList ++ text ++ (['/'] ++ ['>']) ++
          (after ++ (endTag "mxCell" ++ [])) := by
      simp
    rw [List.append_assoc, scan_tag_plain hbefore, hsplit, h.scan_tag_self "mxGeometry" (.inr rfl)]
    simp only [List.head?_cons, Option.map_some]
    rw [h.attributes_eq isWord_geometry (.inr rfl)]

end Content

/-! ## The text of a cell -/

/-- A text that is one cell, with the attributes of its tag and those of its geometry. -/
inductive CellText : List Char → Attributes → Option Attributes → Prop
  | lone {text : List Char} {found : Attributes} (h : Inside text found) :
      CellText ('<' :: "mxCell".toList ++ text ++ ['/', '>']) found none
  | block {text content : List Char} {found : Attributes} {geometry : Option Attributes}
      (h : Inside text found) (hcontent : Content content geometry) :
      CellText ('<' :: "mxCell".toList ++ text ++ ['>'] ++ (content ++ endTag "mxCell")) found
        geometry

namespace CellText

variable {text : List Char} {found : Attributes} {geometry : Option Attributes}

/-- A cell is found as itself, and then the scan is behind it. -/
theorem scan_tag_cell (h : CellText text found geometry) (rest : List Char) :
    (scan (tag "mxCell") (text ++ rest)).map (fun (tag, text) => FoundCell.ofTag tag text) =
      ⟨found, text⟩ ::
        (scan (tag "mxCell") rest).map fun (tag, text) => FoundCell.ofTag tag text := by
  cases h with
  | @lone text found h =>
    have hend : ['/', '>'].isSuffixOf ('<' :: "mxCell".toList ++ text ++ ['/', '>']) = true := by
      rw [List.isSuffixOf_iff_suffix]
      exact ⟨_, rfl⟩
    have hscan := h.scan_tag_self "mxCell" (.inr rfl) rest
    have hattributes := h.attributes_eq isWord_cell (.inr rfl)
    simp only [List.cons_append, List.nil_append] at hscan hattributes hend ⊢
    rw [hscan, List.map_cons]
    simp only [FoundCell.ofTag, hattributes, hend, if_true]
  | @block text content found geometry h hcontent =>
    let whole := '<' :: "mxCell".toList ++ text ++ ['>']
    have hscan : scan (tag "mxCell") (whole ++ (content ++ (endTag "mxCell" ++ rest))) =
        (whole, whole ++ (content ++ (endTag "mxCell" ++ rest))) :: scan (tag "mxCell") rest := by
      have := h.scan_tag_self "mxCell" (.inl rfl) (content ++ (endTag "mxCell" ++ rest))
      rwa [hcontent.scan_tag_cell] at this
    have hattributes : attributes whole = found := h.attributes_eq isWord_cell (.inl rfl)
    have hnot : ¬ ['/', '>'].isSuffixOf whole = true := by
      rw [h.not_lone isWord_cell]
      exact Bool.false_ne_true
    have hsplit : whole ++ (content ++ endTag "mxCell") ++ rest =
        whole ++ (content ++ (endTag "mxCell" ++ rest)) := by
      simp only [List.append_assoc]
    rw [hsplit, hscan, List.map_cons]
    simp only [FoundCell.ofTag, hattributes, if_neg hnot, List.drop_left, hcontent.upTo_closing]
    rfl

/-- The geometry of a cell is found inside it. -/
theorem geometry?_eq (h : CellText text found geometry) :
    FoundCell.geometry? ⟨found, text⟩ = geometry := by
  unfold FoundCell.geometry?
  cases h with
  | @lone text found h =>
    have hstop : StopsName ['/', '>'] := stopsName_cons (by decide) _
    have hnone : scan (tag "mxGeometry") ['/', '>'] = [] := by decide
    simp only [h.scan_tag_other isWord_geometry isWord_cell (by decide) hstop, hnone]
    rfl
  | @block text content found geometry h hcontent =>
    have hstop : StopsName (['>'] ++ (content ++ endTag "mxCell")) :=
      stopsName_cons (by decide) _
    have hplain : '<' ∉ ['>'] := by decide
    rw [List.append_assoc ('<' :: "mxCell".toList ++ text)]
    simp only [h.scan_tag_other isWord_geometry isWord_cell (by decide) hstop,
      scan_tag_plain hplain]
    exact hcontent.scan_tag_geometry

end CellText

end DiagramPress.Markup
