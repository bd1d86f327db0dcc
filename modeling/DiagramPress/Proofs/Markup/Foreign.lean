-- Documents as other programs write them: attributes in any order and with any
-- white space, and any text between the tags. The reader finds the same cells
-- in them that were written.
import DiagramPress.Proofs.Markup.CellText
import DiagramPress.Proofs.Text.Blanks

namespace DiagramPress.Markup

/-! ## White space -/

/-- White space belongs to no name and ends no tag. -/
theorem isBlank_apart {c : Char} (h : Text.isBlank c = true) :
    continuesName c = false ∧ c ≠ '=' ∧ c ≠ '\"' ∧ c ≠ '<' ∧ c ≠ '>' ∧ c ≠ '/' := by
  have hne {d : Char} (hd : Text.isBlank d = false) : c ≠ d := by
    rintro rfl
    rw [h] at hd
    cases hd
  refine ⟨?_, hne (by decide), hne (by decide), hne (by decide), hne (by decide), hne (by decide)⟩
  simp [continuesName, Text.isWordChar_of_isBlank h, hne (show Text.isBlank '.' = false by decide),
    hne (show Text.isBlank '-' = false by decide)]

theorem startsName_of_isBlank {c : Char} (h : Text.isBlank c = true) : startsName c = false := by
  cases hc : startsName c with
  | false => rfl
  | true =>
    have := continues_of_starts hc
    rw [(isBlank_apart h).1] at this
    cases this

namespace Foreign

/-! ## What other programs write -/

/-- A text without tags. -/
structure Filler where
  chars : List Char
  no_tag : '<' ∉ chars

/-- White space, possibly none. -/
structure Gap where
  chars : List Char
  blank : ∀ c ∈ chars, Text.isBlank c = true

/-- An attribute after white space. Its value stands in the text as it is. -/
structure Entry extends Attribute where
  gap : Gap
  gap_ne : gap.chars ≠ []
  reads : isName name = true
  plain : ∀ c ∈ value.toList, c ≠ '\"' ∧ c ≠ '<' ∧ c ≠ '>'

/-- What stands in a tag behind its name. No attribute stands there twice. -/
structure Tag where
  entries : List Entry
  distinct : (entries.map fun e => e.name).Nodup
  gap : Gap

/-- The name of an element that is no cell. -/
structure OtherName where
  name : String
  reads : isWord name = true
  not_cell : "mxCell" ≠ name

inductive Cell where
  | lone (tag : Tag)
  | empty (tag : Tag) (inside : Filler)
  | filled (tag : Tag) (before : Filler) (geometry : Tag) (after : Filler)

/-- A piece of a document. The reader does not look how other elements are
nested, so their tags are pieces of their own. -/
inductive Piece where
  | text (filler : Filler)
  | start (name : OtherName) (tag : Tag)
  | stop (name : OtherName)
  | cell (c : Cell)

/-- A document with everything inside one wrapper. -/
structure Document where
  before : Filler
  wrapper : Tag
  pieces : List Piece
  after : Filler

/-! ## Their texts -/

def Entry.chars (e : Entry) : List Char :=
  e.gap.chars ++ (e.name.toList ++ ('=' :: '\"' :: (e.value.toList ++ ['\"'])))

def Tag.chars (t : Tag) : List Char := t.entries.flatMap Entry.chars ++ t.gap.chars

namespace Cell

def tag : Cell → Tag
  | lone tag => tag
  | empty tag _ => tag
  | filled tag _ _ _ => tag

def geometry? : Cell → Option Tag
  | lone _ => none
  | empty _ _ => none
  | filled _ _ geometry _ => some geometry

def chars : Cell → List Char
  | lone tag => '<' :: "mxCell".toList ++ tag.chars ++ ['/', '>']
  | empty tag inside =>
    '<' :: "mxCell".toList ++ tag.chars ++ ['>'] ++ (inside.chars ++ endTag "mxCell")
  | filled tag before geometry after =>
    '<' :: "mxCell".toList ++ tag.chars ++ ['>'] ++
      (before.chars ++ ('<' :: "mxGeometry".toList ++ geometry.chars ++ (['/', '>'] ++ after.chars))
        ++ endTag "mxCell")

end Cell

namespace Piece

def chars : Piece → List Char
  | text filler => filler.chars
  | start name tag => '<' :: name.name.toList ++ tag.chars ++ ['>']
  | stop name => endTag name.name
  | cell c => c.chars

def cell? : Piece → Option Cell
  | cell c => some c
  | _ => none

end Piece

namespace Document

def cells (d : Document) : List Cell := d.pieces.filterMap Piece.cell?

def chars (d : Document) : List Char :=
  d.before.chars ++ ('<' :: "mxfile".toList ++ d.wrapper.chars ++ (['>'] ++
    (d.pieces.flatMap Piece.chars ++ (endTag "mxfile" ++ d.after.chars))))

def text (d : Document) : String := String.ofList d.chars

end Document

/-! ## Attributes found -/

def Entry.found (e : Entry) : List Char × List Char := (e.name.toList, e.value.toList)

def Tag.found (t : Tag) : Attributes := t.entries.map Entry.found

theorem Gap.scan_namedValue (g : Gap) (rest : List Char) :
    scan namedValue (g.chars ++ rest) = scan namedValue rest := by
  refine scan_append_of_none looksAhead_namedValue fun c before after he => ?_
  have hblank : Text.isBlank c = true := g.blank c (by simp [he])
  simp [namedValue, startsName_of_isBlank hblank]

theorem Gap.stopsName (g : Gap) {rest : List Char} (h : StopsName rest) :
    StopsName (g.chars ++ rest) := by
  rcases hg : g.chars with _ | ⟨c, more⟩
  · exact h
  · obtain ⟨hname, hequals, hquote, -⟩ := isBlank_apart (g.blank c (by simp [hg]))
    exact stopsName_cons ⟨hname, hequals, hquote⟩ _

theorem Entry.scan_namedValue (e : Entry) (rest : List Char) :
    scan namedValue (e.chars ++ rest) = e.found :: scan namedValue rest := by
  have hvalue : '\"' ∉ e.value.toList := fun hm => (e.plain _ hm).1 rfl
  have hsplit : e.chars ++ rest = e.gap.chars ++ (e.name.toList ++
      ('=' :: '\"' :: (e.value.toList ++ '\"' :: rest))) := by
    simp [Entry.chars]
  rw [hsplit, e.gap.scan_namedValue, scan_namedValue_pair e.reads hvalue, Entry.found]

theorem scan_namedValue_entries (entries : List Entry) (rest : List Char) :
    scan namedValue (entries.flatMap Entry.chars ++ rest) =
      entries.map Entry.found ++ scan namedValue rest := by
  induction entries with
  | nil => rfl
  | cons e entries ih =>
    rw [List.flatMap_cons, List.append_assoc, e.scan_namedValue, ih]
    rfl

theorem Entry.bracket_not_mem (e : Entry) {c : Char} (hc : c = '<' ∨ c = '>') :
    c ∉ e.chars := by
  have hgap : c ∉ e.gap.chars := fun hm => by
    obtain ⟨-, -, -, hopen, hclose, -⟩ := isBlank_apart (e.gap.blank c hm)
    exact hc.elim hopen hclose
  have hname : c ∉ e.name.toList := fun hm => by
    have := continues_of_mem_name e.reads c hm
    rcases hc with rfl | rfl <;> exact absurd this (by decide)
  have hvalue : c ∉ e.value.toList := fun hm => by
    obtain ⟨-, hopen, hclose⟩ := e.plain c hm
    exact hc.elim hopen hclose
  have hmark : c ≠ '=' ∧ c ≠ '\"' := by rcases hc with rfl | rfl <;> decide
  simp [Entry.chars, hgap, hname, hvalue, hmark]

theorem Tag.bracket_not_mem (t : Tag) {c : Char} (hc : c = '<' ∨ c = '>') : c ∉ t.chars := by
  intro hm
  rcases List.mem_append.mp hm with hm | hm
  · obtain ⟨e, -, hm⟩ := List.mem_flatMap.mp hm
    exact e.bracket_not_mem hc hm
  · obtain ⟨-, -, -, hopen, hclose, -⟩ := isBlank_apart (t.gap.blank c hm)
    exact hc.elim hopen hclose

/-- A tag ends with white space, or with the quote of its last value. -/
theorem Tag.getLast?_chars (t : Tag) : t.chars.getLast? ≠ some '/' := by
  unfold Tag.chars
  intro hlast
  rcases List.eq_nil_or_concat t.gap.chars with hgap | ⟨before, c, hgap⟩
  · rw [hgap, List.append_nil] at hlast
    rcases List.eq_nil_or_concat t.entries with hnil | ⟨entries, e, hentries⟩
    · simp [hnil] at hlast
    · have hsplit : e.chars = (e.gap.chars ++ (e.name.toList ++
          ('=' :: '\"' :: e.value.toList))) ++ ['\"'] := by
        simp [Entry.chars]
      have hquote : e.chars.getLast? = some '\"' := by
        rw [hsplit, List.getLast?_concat]
      simp [hentries, List.getLast?_append, hquote] at hlast
  · have hblank : Text.isBlank c = true := t.gap.blank c (by simp [hgap])
    obtain ⟨-, -, -, -, -, hslash⟩ := isBlank_apart hblank
    simp [hgap, List.getLast?_append, hslash] at hlast

theorem Tag.stopsName (t : Tag) {rest : List Char} (h : StopsName rest) :
    StopsName (t.chars ++ rest) := by
  rw [Tag.chars, List.append_assoc]
  rcases t.entries with _ | ⟨e, entries⟩
  · exact t.gap.stopsName h
  · obtain ⟨c, more, hgap⟩ := List.exists_cons_of_ne_nil e.gap_ne
    obtain ⟨hname, hequals, hquote, -⟩ := isBlank_apart (e.gap.blank c (by simp [hgap]))
    simp only [List.flatMap_cons, Entry.chars, hgap, List.cons_append]
    exact stopsName_cons ⟨hname, hequals, hquote⟩ _

/-- The reader finds the attributes of a tag, one by one. -/
theorem Tag.inside (t : Tag) : Inside t.chars t.found where
  no_start := t.bracket_not_mem (.inl rfl)
  no_end := t.bracket_not_mem (.inr rfl)
  no_slash := t.getLast?_chars
  apart _ h := t.stopsName h
  reads rest _ := by
    rw [Tag.chars, List.append_assoc, scan_namedValue_entries, t.gap.scan_namedValue, Tag.found]

/-! ## Cells found -/

def Cell.found (c : Cell) : FoundCell := ⟨c.tag.found, c.chars⟩

theorem Cell.cellText (c : Cell) :
    CellText c.chars c.tag.found (c.geometry?.map Tag.found) := by
  cases c with
  | lone tag => exact .lone tag.inside
  | empty tag inside => exact .block tag.inside (.plain inside.no_tag)
  | filled tag before geometry after =>
    exact .block tag.inside (.geometry before.no_tag geometry.inside after.no_tag)

theorem Cell.geometry?_found (c : Cell) : c.found.geometry? = c.geometry?.map Tag.found :=
  c.cellText.geometry?_eq

/-- A piece gives its cell if it is one, and then the scan is behind it. -/
theorem scan_piece (p : Piece) (rest : List Char) :
    (scan (tag "mxCell") (p.chars ++ rest)).map (fun (tag, text) => FoundCell.ofTag tag text) =
      p.cell?.toList.map Cell.found ++
        (scan (tag "mxCell") rest).map fun (tag, text) => FoundCell.ofTag tag text := by
  cases p with
  | text filler => simp [Piece.chars, Piece.cell?, scan_tag_plain filler.no_tag]
  | start name tag =>
    have hstop : StopsName (['>'] ++ rest) := stopsName_cons (by decide) _
    have hplain : '<' ∉ ['>'] := by decide
    rw [Piece.chars, List.append_assoc,
      tag.inside.scan_tag_other isWord_cell name.reads name.not_cell hstop, scan_tag_plain hplain]
    rfl
  | stop name =>
    rw [Piece.chars, scan_tag_endTag isWord_cell name.reads]
    rfl
  | cell c =>
    rw [Piece.chars, c.cellText.scan_tag_cell]
    rfl

theorem scan_pieces (pieces : List Piece) (rest : List Char) :
    (scan (tag "mxCell") (pieces.flatMap Piece.chars ++ rest)).map
        (fun (tag, text) => FoundCell.ofTag tag text) =
      (pieces.filterMap Piece.cell?).map Cell.found ++
        (scan (tag "mxCell") rest).map fun (tag, text) => FoundCell.ofTag tag text := by
  induction pieces with
  | nil => rfl
  | cons p pieces ih =>
    rw [List.flatMap_cons, List.append_assoc, scan_piece, ih, List.filterMap_cons]
    cases p.cell? <;> rfl

/-- The reader finds the cells of a document, in order. -/
theorem cells_text (d : Document) :
    Markup.cells d.text.toList = d.cells.map Cell.found := by
  have hfile : isWord "mxfile" = true ∧ "mxCell" ≠ "mxfile" := by decide
  have hstop : StopsName (['>'] ++ (d.pieces.flatMap Piece.chars ++
      (endTag "mxfile" ++ d.after.chars))) := stopsName_cons (by decide) _
  have hplain : '<' ∉ ['>'] := by decide
  have hnone : scan (tag "mxCell") (endTag "mxfile" ++ d.after.chars) = [] := by
    rw [scan_tag_endTag isWord_cell hfile.1, ← List.append_nil d.after.chars,
      scan_tag_plain d.after.no_tag]
    rfl
  rw [Document.text, String.toList_ofList, Markup.cells, Document.chars,
    scan_tag_plain d.before.no_tag,
    d.wrapper.inside.scan_tag_other isWord_cell hfile.1 hfile.2 hstop, scan_tag_plain hplain,
    scan_pieces, hnone, List.map_nil, List.append_nil, Document.cells]

end Foreign

end DiagramPress.Markup
