-- Documents in any spelling that markup allows, with elements around cells,
-- comments and instructions. No tag starts in one part of such a document and
-- ends in another one, so the reader finds the cells part by part.
import DiagramPress.Proofs.Markup.Rules

namespace DiagramPress.Markup

namespace Foreign

/-! ## Documents in any spelling -/

/-- Characters that end a name. -/
def marks : List Char := ['<', '>', '=', '/', '\"']

/-- A character that names may hold. Markup allows fewer. -/
def mayName (c : Char) : Bool := !Text.isBlank c && !marks.contains c

def isLooseName (name : String) : Bool := name.toList.all mayName

/-- An attribute in any spelling: white space may stand around the equals sign, too. -/
structure LooseEntry extends Attribute where
  gap : Gap
  gap_ne : gap.chars ≠ []
  before : Gap
  after : Gap
  named : isLooseName name = true
  plain : ∀ c ∈ value.toList, c ≠ '\"' ∧ c ≠ '<' ∧ c ≠ '>'

/-- The tag that an element starts with. A lone one is the whole element. -/
structure Opening where
  name : String
  named : isLooseName name = true
  entries : List LooseEntry
  distinct : (entries.map fun e => e.name).Nodup
  gap : Gap
  lone : Bool

/-- Markup that is no element: a comment, an instruction, a declaration or quoted text. -/
structure Aside where
  chars : List Char
  starts : ['<', '!'] <+: chars ∨ ['<', '?'] <+: chars
  ends : chars.getLast? = some '>'

/-- A part of a document. How elements are nested makes no difference to the
check, so each of their tags is a part of its own. -/
inductive Part where
  | text (filler : Filler)
  | aside (markup : Aside)
  | opening (o : Opening)
  | closing (name : String) (named : isLooseName name = true) (gap : Gap)

def LooseEntry.chars (e : LooseEntry) : List Char :=
  e.gap.chars ++ (e.name.toList ++ (e.before.chars ++ '=' ::
    (e.after.chars ++ '\"' :: (e.value.toList ++ ['\"']))))

namespace Opening

/-- What stands behind the name, up to the bracket. -/
def inside (o : Opening) : List Char :=
  o.entries.flatMap LooseEntry.chars ++ o.gap.chars ++ if o.lone then ['/'] else []

def chars (o : Opening) : List Char := '<' :: o.name.toList ++ o.inside ++ ['>']

def attributes (o : Opening) : List Attribute := o.entries.map LooseEntry.toAttribute

def Has (o : Opening) (name value : String) : Prop := ⟨name, value⟩ ∈ o.attributes

def IsCell (o : Opening) : Prop := o.name = "mxCell"

/-- The spelling that the reader understands: names that it takes as a whole, and no space
around the equals sign. -/
def IsPlain (o : Opening) : Prop :=
  ∀ e ∈ o.entries, isName e.name = true ∧ e.before.chars = [] ∧ e.after.chars = []

/-- The reader takes the element for a cell: the first word of its name is that of cells. -/
def ReadsAsCell (o : Opening) : Prop :=
  "mxCell".toList <+: o.name.toList ∧ wordEnds (o.name.toList.drop 6) = true

instance (o : Opening) (name value : String) : Decidable (o.Has name value) :=
  inferInstanceAs (Decidable (_ ∈ _))

instance (o : Opening) : Decidable o.IsCell := inferInstanceAs (Decidable (_ = _))

instance (o : Opening) : Decidable o.IsPlain :=
  inferInstanceAs (Decidable (∀ e ∈ o.entries, _ ∧ _ ∧ _))

instance (o : Opening) : Decidable o.ReadsAsCell := inferInstanceAs (Decidable (_ ∧ _))

end Opening

namespace Part

def chars : Part → List Char
  | text filler => filler.chars
  | aside markup => markup.chars
  | opening o => o.chars
  | closing name _ gap => '<' :: '/' :: name.toList ++ gap.chars ++ ['>']

def opening? : Part → Option Opening
  | opening o => some o
  | _ => none

def aside? : Part → Option Aside
  | aside markup => some markup
  | _ => none

end Part

/-- The text of a document. -/
def textOf (parts : List Part) : String := String.ofList (parts.flatMap Part.chars)

/-- The elements of a document. -/
def openings (parts : List Part) : List Opening := parts.filterMap Part.opening?

def asides (parts : List Part) : List Aside := parts.filterMap Part.aside?

/-- What is taken for a cell is one, in the spelling that the reader understands. -/
structure PlainCells (parts : List Part) : Prop where
  cells : ∀ o ∈ openings parts, o.ReadsAsCell → o.IsCell ∧ o.IsPlain
  asides : ∀ a ∈ asides parts, ¬ "<mxCell".toList <:+: a.chars

/-! ## Cells in them -/

theorem mayName_of_mem {name : String} (h : isLooseName name = true) :
    ∀ c ∈ name.toList, mayName c = true := List.all_eq_true.mp h

theorem not_mayName_of_mem_gap (g : Gap) : ∀ c ∈ g.chars, mayName c = false := by
  intro c hc
  simp [mayName, g.blank c hc]

theorem LooseEntry.bracket_not_mem (e : LooseEntry) {c : Char} (hc : c = '<' ∨ c = '>') :
    c ∉ e.chars := by
  have hgap (g : Gap) : c ∉ g.chars := fun hm => by
    obtain ⟨-, -, -, hopen, hclose, -⟩ := isBlank_apart (g.blank c hm)
    exact hc.elim hopen hclose
  have hname : c ∉ e.name.toList := fun hm => by
    have := mayName_of_mem e.named c hm
    rcases hc with rfl | rfl <;> exact absurd this (by decide)
  have hvalue : c ∉ e.value.toList := fun hm => by
    obtain ⟨-, hopen, hclose⟩ := e.plain c hm
    exact hc.elim hopen hclose
  have hmark : c ≠ '=' ∧ c ≠ '\"' := by rcases hc with rfl | rfl <;> decide
  simp [LooseEntry.chars, hgap, hname, hvalue, hmark]

namespace Opening

theorem bracket_not_mem_inside (o : Opening) {c : Char} (hc : c = '<' ∨ c = '>') :
    c ∉ o.inside := by
  intro hm
  rcases List.mem_append.mp hm with hm | hm
  · rcases List.mem_append.mp hm with hm | hm
    · obtain ⟨e, -, hm⟩ := List.mem_flatMap.mp hm
      exact e.bracket_not_mem hc hm
    · obtain ⟨-, -, -, hopen, hclose, -⟩ := isBlank_apart (o.gap.blank c hm)
      exact hc.elim hopen hclose
  · split at hm
    · obtain rfl := List.mem_singleton.mp hm
      simp at hc
    · cases hm

/-- The name ends where the inside starts. -/
theorem name_ends (o : Opening) : ∀ c ∈ (o.inside ++ ['>']).head?, mayName c = false := by
  have hgap (g : Gap) {rest : List Char} (h : ∀ c ∈ rest.head?, mayName c = false) :
      ∀ c ∈ (g.chars ++ rest).head?, mayName c = false := by
    intro c hc
    rcases hg : g.chars with _ | ⟨d, more⟩
    · exact h c (by simpa [hg] using hc)
    · obtain rfl : d = c := by simpa [hg] using hc
      exact not_mayName_of_mem_gap g d (by simp [hg])
  have hend : ∀ c ∈ ((if o.lone then ['/'] else []) ++ ['>']).head?, mayName c = false := by
    cases o.lone <;> simp [mayName, marks]
  unfold inside
  rcases hentries : o.entries with _ | ⟨e, entries⟩
  · rw [List.flatMap_nil, List.nil_append, List.append_assoc]
    exact hgap o.gap hend
  · obtain ⟨d, more, hd⟩ := List.exists_cons_of_ne_nil e.gap_ne
    intro c hc
    obtain rfl : d = c := by simpa [LooseEntry.chars, hd] using hc
    exact not_mayName_of_mem_gap e.gap d (by simp [hd])

/-- An element that does not read as a cell gives none. -/
theorem tagsNamed_other {o : Opening} (h : ¬ o.ReadsAsCell) : tagsNamed "mxCell" o.chars = [] := by
  have hnone : tag "mxCell" none ('<' :: (o.name.toList ++ (o.inside ++ ['>']))) = none := by
    refine Option.eq_none_iff_forall_ne_some.mpr fun found hfound => h ?_
    obtain ⟨more, hsplit, hends⟩ := tag_matches hfound
    rw [List.cons_append, List.cons.injEq] at hsplit
    rcases List.append_eq_append_iff.mp hsplit.2 with ⟨ds, hcell, hinside⟩ | ⟨ds, hname, rfl⟩
    · have hds : ds = [] := by
        rcases ds with _ | ⟨d, ds⟩
        · rfl
        · have hd : mayName d = true := by
            have hword : isLooseName "mxCell" = true := by decide
            exact mayName_of_mem hword d (by simp [hcell])
          have := o.name_ends d (by simp [hinside])
          simp [hd] at this
      rw [hds, List.append_nil] at hcell
      rw [ReadsAsCell, ← hcell]
      decide
    · rw [ReadsAsCell, hname]
      refine ⟨List.prefix_append _ _, ?_⟩
      have hdrop : ("mxCell".toList ++ ds).drop 6 = ds := List.drop_left' (by decide)
      rw [hdrop]
      cases ds with
      | nil => rfl
      | cons d ds => exact hends
  have hplain : '<' ∉ o.name.toList ++ (o.inside ++ ['>']) := by
    have hname : '<' ∉ o.name.toList := fun hm => absurd (mayName_of_mem o.named _ hm) (by decide)
    simp [hname, o.bracket_not_mem_inside (.inl rfl)]
  have hchars : o.chars = '<' :: (o.name.toList ++ (o.inside ++ ['>'])) := by simp [chars]
  rw [hchars, tagsNamed_cons hnone, ← List.append_nil (o.name.toList ++ _), tagsNamed_plain hplain]
  rfl

/-- In a plain spelling, the tag is one that the reader understands. -/
theorem IsPlain.exists_tag {o : Opening} (h : o.IsPlain) : ∃ t : Tag,
    t.attributes = o.attributes ∧ t.chars = o.entries.flatMap LooseEntry.chars ++ o.gap.chars := by
  have hentries : ∀ es : List LooseEntry,
      (∀ e ∈ es, isName e.name = true ∧ e.before.chars = [] ∧ e.after.chars = []) →
        ∃ es' : List Entry, es'.map Entry.toAttribute = es.map LooseEntry.toAttribute ∧
          es'.flatMap Entry.chars = es.flatMap LooseEntry.chars := by
    intro es hes
    induction es with
    | nil => exact ⟨[], rfl, rfl⟩
    | cons e es ih =>
      obtain ⟨es', hattributes, hchars⟩ := ih fun e he => hes e (by simp [he])
      obtain ⟨hname, hbefore, hafter⟩ := hes e (by simp)
      refine ⟨⟨e.toAttribute, e.gap, e.gap_ne, hname, e.plain⟩ :: es', ?_, ?_⟩
      · rw [List.map_cons, List.map_cons, hattributes]
      · rw [List.flatMap_cons, List.flatMap_cons, hchars]
        simp [Entry.chars, LooseEntry.chars, hbefore, hafter]
  obtain ⟨es, hattributes, hchars⟩ := hentries o.entries h
  have hnames : (es.map fun e => e.name) = o.entries.map fun e => e.name := by
    have := congrArg (List.map Attribute.name) hattributes
    rwa [List.map_map, List.map_map] at this
  refine ⟨⟨es, hnames ▸ o.distinct, o.gap⟩, hattributes, ?_⟩
  rw [Tag.chars, hchars]

/-- The attributes say the same as the tag. -/
def ReadAs (o : Opening) (as : Attributes) : Prop :=
  ∀ name value, as.get? name = some value.toList ↔ o.Has name value

/-- A plain cell is found with its attributes. -/
theorem IsPlain.tagsNamed_cell {o : Opening} (h : o.IsPlain) (hcell : o.IsCell) :
    ∃ as, tagsNamed "mxCell" o.chars = [as] ∧ o.ReadAs as := by
  obtain ⟨t, hattributes, hchars⟩ := h.exists_tag
  have hclose : (if o.lone then ['/'] else []) = [] ∨ (if o.lone then ['/'] else []) = ['/'] := by
    cases o.lone <;> simp
  have hwhole : o.chars =
      '<' :: "mxCell".toList ++ t.chars ++ ((if o.lone then ['/'] else []) ++ ['>']) ++ [] := by
    rw [chars, inside, ← hchars, hcell]
    simp
  refine ⟨t.found, ?_, fun name value => ?_⟩
  · rw [hwhole, tagsNamed, t.inside.scan_tag_self "mxCell" hclose, List.map_cons,
      t.inside.attributes_eq isWord_cell hclose]
    rfl
  · rw [t.get?_found, Tag.Has, hattributes, Has]

end Opening

theorem Aside.tagsNamed_quiet {a : Aside} (h : ¬ "<mxCell".toList <:+: a.chars) :
    tagsNamed "mxCell" a.chars = [] := by
  have hscan : scan (tag "mxCell") (a.chars ++ []) = scan (tag "mxCell") [] := by
    refine scan_append_of_none (looksAhead_tag _) fun c before after hsplit => ?_
    refine Option.eq_none_iff_forall_ne_some.mpr fun found hfound => h ?_
    obtain ⟨more, hmore, -⟩ := tag_matches hfound
    rw [List.append_nil] at hmore
    exact ⟨before, more, by rw [hsplit, hmore]; simp⟩
  rw [List.append_nil] at hscan
  rw [tagsNamed, hscan]
  rfl

theorem Filler.tagsNamed_eq_nil (filler : Filler) : tagsNamed "mxCell" filler.chars = [] := by
  rw [← List.append_nil filler.chars, tagsNamed_plain filler.no_tag]
  rfl

namespace Part

/-- No tag starts in one part of a document and ends in another one. -/
theorem tagsNamed_append (p : Part) (rest : List Char) : tagsNamed "mxCell" (p.chars ++ rest) =
    tagsNamed "mxCell" p.chars ++ tagsNamed "mxCell" rest := by
  have hcell : '>' ∉ "mxCell".toList := by decide
  cases p with
  | text filler =>
    rw [chars, tagsNamed_plain filler.no_tag, filler.tagsNamed_eq_nil, List.nil_append]
  | aside markup => exact Closed.tagsNamed_append hcell (.inr markup.ends)
  | opening o => exact Closed.tagsNamed_append hcell (.inr List.getLast?_concat)
  | closing name named gap => exact Closed.tagsNamed_append hcell (.inr List.getLast?_concat)

theorem tagsNamed_closing (name : String) (named : isLooseName name = true)
    (gap : Gap) : tagsNamed "mxCell" (closing name named gap).chars = [] := by
  have hnone : tag "mxCell" none ('<' :: '/' :: (name.toList ++ (gap.chars ++ ['>']))) = none := by
    refine Option.eq_none_iff_forall_ne_some.mpr fun found hfound => ?_
    obtain ⟨more, hsplit, -⟩ := tag_matches hfound
    simp at hsplit
  have hplain : '<' ∉ '/' :: (name.toList ++ (gap.chars ++ ['>'])) := by
    have hname : '<' ∉ name.toList := fun hm => absurd (mayName_of_mem named _ hm) (by decide)
    have hgap : '<' ∉ gap.chars := fun hm => absurd (gap.blank _ hm) (by decide)
    simp [hname, hgap]
  have hchars : (closing name named gap).chars =
      '<' :: '/' :: (name.toList ++ (gap.chars ++ ['>'])) := by
    simp [chars]
  rw [hchars, tagsNamed_cons hnone, ← List.append_nil ('/' :: _), tagsNamed_plain hplain]
  rfl

end Part

theorem tagsNamed_textOf (parts : List Part) : tagsNamed "mxCell" (textOf parts).toList =
    parts.flatMap fun p => tagsNamed "mxCell" p.chars := by
  rw [textOf, String.toList_ofList]
  induction parts with
  | nil => rfl
  | cons p parts ih => rw [List.flatMap_cons, p.tagsNamed_append, ih, List.flatMap_cons]

theorem mem_openings {parts : List Part} {o : Opening} :
    o ∈ openings parts ↔ .opening o ∈ parts := by
  simp only [openings, List.mem_filterMap]
  constructor
  · rintro ⟨p, hp, ho⟩
    cases p <;> simp [Part.opening?] at ho
    exact ho ▸ hp
  · exact fun h => ⟨_, h, rfl⟩

theorem mem_asides {parts : List Part} {a : Aside} :
    a ∈ asides parts ↔ .aside a ∈ parts := by
  simp only [asides, List.mem_filterMap]
  constructor
  · rintro ⟨p, hp, ha⟩
    cases p <;> simp [Part.aside?] at ha
    exact ha ▸ hp
  · exact fun h => ⟨_, h, rfl⟩

/-- A plain cell of a document is found in its text. -/
theorem Opening.IsPlain.exists_found {parts : List Part} {o : Opening} (ho : o ∈ openings parts)
    (hcell : o.IsCell) (hplain : o.IsPlain) :
    ∃ as ∈ tagsNamed "mxCell" (textOf parts).toList, o.ReadAs as := by
  obtain ⟨as, hfound, hreads⟩ := hplain.tagsNamed_cell hcell
  refine ⟨as, ?_, hreads⟩
  rw [tagsNamed_textOf, List.mem_flatMap]
  exact ⟨_, mem_openings.mp ho, by simp [Part.chars, hfound]⟩

/-- Nothing else is found where all cells are plain. -/
theorem PlainCells.exists_cell {parts : List Part} (h : PlainCells parts) {as : Attributes}
    (has : as ∈ tagsNamed "mxCell" (textOf parts).toList) :
    ∃ o ∈ openings parts, o.IsCell ∧ o.ReadAs as := by
  rw [tagsNamed_textOf, List.mem_flatMap] at has
  obtain ⟨p, hp, has⟩ := has
  cases p with
  | text filler => simp [Part.chars, filler.tagsNamed_eq_nil] at has
  | aside a => simp [Part.chars, Aside.tagsNamed_quiet (h.asides a (mem_asides.mpr hp))] at has
  | closing name named gap => simp [Part.tagsNamed_closing] at has
  | opening o =>
    have ho := mem_openings.mpr hp
    by_cases hreads : o.ReadsAsCell
    · obtain ⟨hcell, hplain⟩ := h.cells o ho hreads
      obtain ⟨found, hfound, hsame⟩ := hplain.tagsNamed_cell hcell
      rw [Part.chars, hfound, List.mem_singleton] at has
      exact ⟨o, ho, hcell, has ▸ hsame⟩
    · simp [Part.chars, Opening.tagsNamed_other hreads] at has

theorem PlainCells.plain {parts : List Part} (h : PlainCells parts) {o : Opening}
    (ho : o ∈ openings parts) (hcell : o.IsCell) : o.IsPlain := by
  have hreads : o.ReadsAsCell := by
    rw [Opening.ReadsAsCell, hcell]
    decide
  exact (h.cells o ho hreads).2

end Foreign

end DiagramPress.Markup
