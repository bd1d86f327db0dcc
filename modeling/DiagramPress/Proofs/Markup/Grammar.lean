-- Well-formed markup, said without the writer: tags nest, and nothing in a value or a
-- text can be taken for markup. What the writer writes is well-formed.
import DiagramPress.Markup.Element
import DiagramPress.Proofs.Markup.References
import Mathlib.Data.List.Nodup

namespace DiagramPress.Markup

/-! ## The grammar -/

/-- Every ampersand starts a reference. -/
def AmpersandsRefer (cs : List Char) : Prop :=
  ∀ before after, cs = before ++ '&' :: after → (reference? after).isSome

/-- A text between tags. -/
def IsText (cs : List Char) : Prop := (∀ c ∈ cs, c ≠ '<' ∧ c ≠ '>') ∧ AmpersandsRefer cs

/-- The value of an attribute, without its quotes. -/
def IsValue (cs : List Char) : Prop :=
  (∀ c ∈ cs, c ≠ '<' ∧ c ≠ '>' ∧ c ≠ '\"') ∧ AmpersandsRefer cs

/-- A name of an element or of an attribute: letters, digits, hyphens and colons, of which
the first is a letter. -/
def isTagName (name : String) : Bool :=
  (name.toList.head?.any Char.isAlpha) &&
    name.toList.all fun c => c.isAlphanum || c = '-' || c = ':'

/-- The attributes inside a tag, each after a space, with their names. -/
inductive IsAttributes : List Char → List String → Prop where
  | none : IsAttributes [] []
  | next {name : String} {value rest : List Char} {names : List String}
      (hname : isTagName name = true) (hvalue : IsValue value) (hrest : IsAttributes rest names) :
      IsAttributes (' ' :: name.toList ++ '=' :: '\"' :: value ++ '\"' :: rest) (name :: names)

/-- How a tag starts; no attribute stands in it twice. -/
inductive OpensTag (name : String) : List Char → Prop where
  | intro {attributes : List Char} {names : List String} (hname : isTagName name = true)
      (hattributes : IsAttributes attributes names) (hnodup : names.Nodup) :
      OpensTag name ('<' :: name.toList ++ attributes)

/-- Text with tags that nest, and the names of its elements, in the order of their tags. -/
inductive Nests : List Char → List String → Prop where
  | done : Nests [] []
  | text {cs rest : List Char} {names : List String} (hcs : IsText cs) (hrest : Nests rest names) :
      Nests (cs ++ rest) names
  | lone {name : String} {tag rest : List Char} {names : List String} (htag : OpensTag name tag)
      (hrest : Nests rest names) : Nests (tag ++ '/' :: '>' :: rest) (name :: names)
  | element {name : String} {tag inside rest : List Char} {inner names : List String}
      (htag : OpensTag name tag) (hinside : Nests inside inner) (hrest : Nests rest names) :
      Nests (tag ++ '>' :: (inside ++ endTag name ++ rest)) (name :: (inner ++ names))

/-- One element with a start tag and an end tag, and the names of all elements inside it. -/
inductive IsElement (name : String) : List Char → List String → Prop where
  | intro {tag inside : List Char} {inner : List String} (htag : OpensTag name tag)
      (hinside : Nests inside inner) : IsElement name (tag ++ '>' :: (inside ++ endTag name)) inner

/-! ## Texts and values -/

theorem ampersandsRefer_of_no_bare {cs : List Char} (h : hasBareAmpersandChars cs = false) :
    AmpersandsRefer cs := by
  intro before after hsplit
  subst hsplit
  induction before with
  | nil =>
    simp only [List.nil_append, hasBareAmpersandChars, Bool.or_eq_false_iff] at h
    simpa using h.1
  | cons c before ih =>
    simp only [List.cons_append, hasBareAmpersandChars, Bool.or_eq_false_iff] at h
    exact ih h.2

theorem ampersandsRefer_of_none {cs : List Char} (h : '&' ∉ cs) : AmpersandsRefer cs := by
  rintro before after rfl
  exact absurd (List.mem_append_right _ List.mem_cons_self) h

theorem isValue_guardChars (cs : List Char) : IsValue (guardChars cs) := by
  refine ⟨fun c hc => ?_, ampersandsRefer_of_no_bare (hasBareAmpersandChars_guardChars cs)⟩
  obtain ⟨hless, hgreater, hquote, -⟩ := quotable_guardChars cs c hc
  exact ⟨hless, hgreater, hquote⟩

/-- An escaped text is one that needs no guard. -/
theorem isText_escapeChars (cs : List Char) : IsText (escapeChars cs) := by
  rw [← guardChars_escapeChars]
  obtain ⟨hplain, hrefer⟩ := isValue_guardChars (escapeChars cs)
  exact ⟨fun c hc => ⟨(hplain c hc).1, (hplain c hc).2.1⟩, hrefer⟩

theorem isText_of_plain {cs : List Char} (h : ∀ c ∈ cs, c ≠ '<' ∧ c ≠ '>' ∧ c ≠ '&') :
    IsText cs :=
  ⟨fun c hc => ⟨(h c hc).1, (h c hc).2.1⟩,
    ampersandsRefer_of_none fun hmem => (h '&' hmem).2.2 rfl⟩

theorem isText_indent (depth : Nat) : IsText (indent depth) := by
  refine isText_of_plain fun c hc => ?_
  rw [List.eq_of_mem_replicate hc]
  decide

theorem isText_lineBreak : IsText ['\n'] := by
  refine isText_of_plain fun c hc => ?_
  rw [List.mem_singleton.mp hc]
  decide

/-! ## Elements with proper names -/

/-- A name of an element with names of attributes that can stand in one tag. -/
def isProperTag (name : String) (names : List String) : Bool :=
  isTagName name && names.all isTagName && decide names.Nodup

namespace Element

mutual

/-- All tags of the element have proper names. -/
def isProper : Element → Bool
  | text _ => true
  | lone name as => isProperTag name (as.map (·.name))
  | span name as content => isProperTag name (as.map (·.name)) && allProper content
  | block name as content => isProperTag name (as.map (·.name)) && allProper content

def allProper : List Element → Bool
  | [] => true
  | e :: rest => e.isProper && allProper rest

end

mutual

/-- The names of the element and of all elements inside it, in order. -/
def names : Element → List String
  | text _ => []
  | lone name _ => [name]
  | span name _ content => name :: namesOf content
  | block name _ content => name :: namesOf content

def namesOf : List Element → List String
  | [] => []
  | e :: rest => e.names ++ namesOf rest

end

theorem allProper_iff {es : List Element} : allProper es = true ↔ ∀ e ∈ es, e.isProper = true := by
  induction es with
  | nil => simp [allProper]
  | cons e es ih => simp [allProper, ih]

theorem namesOf_eq (es : List Element) : namesOf es = es.flatMap names := by
  induction es with
  | nil => rfl
  | cons e es ih => rw [namesOf, ih, List.flatMap_cons]

end Element

/-! ## What the writer writes -/

theorem isAttributes_chars {as : List Attribute}
    (h : ∀ name ∈ as.map (·.name), isTagName name = true) :
    IsAttributes (as.flatMap Attribute.chars) (as.map (·.name)) := by
  induction as with
  | nil => exact .none
  | cons a as ih =>
    obtain ⟨ha, has⟩ := List.forall_mem_cons.mp h
    have hnext := IsAttributes.next ha (isValue_guardChars a.value.toList) (ih has)
    rw [List.flatMap_cons, Attribute.chars, List.map_cons]
    simpa only [List.append_assoc, List.cons_append, List.nil_append] using hnext

theorem opensTag_startOfTag {name : String} {as : List Attribute}
    (h : isProperTag name (as.map (·.name)) = true) : OpensTag name (startOfTag name as) := by
  simp only [isProperTag, Bool.and_eq_true, List.all_eq_true, decide_eq_true_eq] at h
  exact .intro h.1.1 (isAttributes_chars h.1.2) h.2

section

variable {rest : List Char} {names : List String} (hrest : Nests rest names)
include hrest

theorem nests_loneTag {name : String} {as : List Attribute}
    (h : isProperTag name (as.map (·.name)) = true) :
    Nests (loneTag name as ++ rest) (name :: names) := by
  simpa only [loneTag, List.append_assoc, List.cons_append, List.nil_append] using
    Nests.lone (opensTag_startOfTag h) hrest

theorem nests_element {name : String} {as : List Attribute}
    (h : isProperTag name (as.map (·.name)) = true) {inside : List Char} {inner : List String}
    (hinside : Nests inside inner) :
    Nests (startTag name as ++ inside ++ endTag name ++ rest) (name :: (inner ++ names)) := by
  simpa only [startTag, List.append_assoc, List.cons_append, List.nil_append] using
    Nests.element (opensTag_startOfTag h) hinside hrest

end

mutual

/-- An element on one line nests, in front of what nests. -/
theorem nests_inline {rest : List Char} {names : List String} (hrest : Nests rest names) :
    ∀ e : Element, e.isProper = true → Nests (e.inline ++ rest) (e.names ++ names)
  | .text content, _ => Nests.text (isText_escapeChars content.toList) hrest
  | .lone name as, h => nests_loneTag hrest h
  | .span name as content, h => by
    simp only [Element.isProper, Bool.and_eq_true] at h
    have hinside := nests_inlineAll content h.2
    exact nests_element hrest h.1 hinside
  | .block name as content, h => by
    simp only [Element.isProper, Bool.and_eq_true] at h
    have hinside := nests_inlineAll content h.2
    exact nests_element hrest h.1 hinside

theorem nests_inlineAll :
    ∀ es : List Element, Element.allProper es = true →
      Nests (Element.inlineAll es) (Element.namesOf es)
  | [], _ => .done
  | e :: es, h => by
    simp only [Element.allProper, Bool.and_eq_true] at h
    rw [Element.inlineAll, Element.namesOf]
    exact nests_inline (nests_inlineAll es h.2) e h.1

end

mutual

/-- An element on lines of its own nests. -/
theorem nests_lines (depth : Nat) {rest : List Char} {names : List String}
    (hrest : Nests rest names) :
    ∀ e : Element, e.isProper = true → Nests (e.lines depth ++ rest) (e.names ++ names)
  | .block name as content, h => by
    simp only [Element.isProper, Bool.and_eq_true] at h
    have hindent : Nests (indent depth ++ []) [] := .text (isText_indent depth) .done
    have hinside := Nests.text isText_lineBreak (nests_linesAll (depth + 1) hindent content h.2)
    have helement := Nests.text (isText_indent depth) (nests_element hrest h.1 hinside)
    simpa only [Element.lines, Element.names, List.append_assoc, List.cons_append, List.nil_append,
      List.append_nil] using helement
  | .text content, h => by
    simp only [Element.lines, List.append_assoc]
    exact .text (isText_indent depth) (nests_inline hrest _ h)
  | .lone name as, h => by
    simp only [Element.lines, List.append_assoc]
    exact .text (isText_indent depth) (nests_inline hrest _ h)
  | .span name as content, h => by
    simp only [Element.lines, List.append_assoc]
    exact .text (isText_indent depth) (nests_inline hrest _ h)

/-- Elements below each other nest, in front of what nests. -/
theorem nests_linesAll (depth : Nat) {rest : List Char} {names : List String}
    (hrest : Nests rest names) :
    ∀ es : List Element, Element.allProper es = true →
      Nests (Element.linesAll depth es ++ rest) (Element.namesOf es ++ names)
  | [], _ => hrest
  | e :: es, h => by
    simp only [Element.allProper, Bool.and_eq_true] at h
    have hbelow := Nests.text isText_lineBreak (nests_linesAll depth hrest es h.2)
    simpa only [Element.linesAll, Element.namesOf, List.append_assoc, List.cons_append,
      List.nil_append] using nests_lines depth hbelow e h.1

end

/-- A block that starts a text is one element. -/
theorem isElement_block {name : String} {as : List Attribute} {content : List Element}
    (h : (Element.block name as content).isProper = true) :
    IsElement name ((Element.block name as content).lines 0) (Element.namesOf content) := by
  simp only [Element.isProper, Bool.and_eq_true] at h
  have hinside := Nests.text isText_lineBreak (nests_linesAll 1 .done content h.2)
  have helement := IsElement.intro (opensTag_startOfTag h.1) hinside
  simpa only [Element.lines, indent, startTag, Nat.mul_zero, List.replicate_zero, List.nil_append,
    List.append_assoc, List.cons_append, List.append_nil] using helement

end DiagramPress.Markup
