-- What the patterns of the reader find in a text that is made of tags: a tag
-- gives its attributes and nothing else, and the text between tags gives nothing.
import DiagramPress.Markup.Element
import DiagramPress.Markup.Reader
import DiagramPress.Proofs.Markup.References

namespace DiagramPress.Markup

/-! ## Scanning with a pattern that does not look back -/

section Scan

variable {β : Type} {p : Pattern β}

/-- The pattern pays no attention to the character in front. -/
def LooksAhead (p : Pattern β) : Prop := ∀ a b text, p a text = p b text

theorem scanAfter_eq_scan_drop (hp : LooksAhead p) (before : Option Char) (skip : Nat)
    (text : List Char) : scanAfter p before skip text = scan p (text.drop skip) := by
  unfold scan
  induction text generalizing before skip with
  | nil => cases skip <;> rfl
  | cons c rest ih =>
    cases skip with
    | succ skip => exact ih (some c) skip
    | zero =>
      simp only [List.drop_zero, scanAfter, hp before none]

theorem scan_cons_of_none (hp : LooksAhead p) {c : Char} {rest : List Char}
    (h : p none (c :: rest) = none) : scan p (c :: rest) = scan p rest := by
  have : scan p (c :: rest) = scanAfter p (some c) 0 rest := by simp [scan, scanAfter, h]
  rw [this, scanAfter_eq_scan_drop hp, List.drop_zero]

/-- A finding is reported, and the scan goes on behind it. -/
theorem scan_of_some (hp : LooksAhead p) {whole rest : List Char} {found : β} (hne : whole ≠ [])
    (h : p none (whole ++ rest) = some (whole.length, found)) :
    scan p (whole ++ rest) = found :: scan p rest := by
  obtain ⟨c, more, rfl⟩ := List.exists_cons_of_ne_nil hne
  have : scan p (c :: more ++ rest) = found :: scanAfter p (some c) more.length (more ++ rest) := by
    rw [List.cons_append] at h ⊢
    simp [scan, scanAfter, h]
  rw [this, scanAfter_eq_scan_drop hp, List.drop_left]

theorem scan_append_of_none (hp : LooksAhead p) {pre rest : List Char}
    (h : ∀ c before after, pre = before ++ c :: after → p none (c :: (after ++ rest)) = none) :
    scan p (pre ++ rest) = scan p rest := by
  induction pre with
  | nil => rfl
  | cons c pre ih =>
    rw [List.cons_append, scan_cons_of_none hp (h c [] pre rfl)]
    exact ih fun d before after he => h d (c :: before) after (by rw [he]; rfl)

end Scan

/-! ## Names -/

/-- A text that the reader takes as the name of an attribute. -/
def isName (name : String) : Bool :=
  match name.toList with
  | [] => false
  | c :: rest => startsName c && rest.all continuesName

/-- A text that the reader takes as the name of an element. -/
def isWord (name : String) : Bool := !name.toList.isEmpty && name.toList.all Text.isWordChar

theorem isName_iff {name : String} : isName name = true ↔
    ∃ c rest, name.toList = c :: rest ∧ startsName c = true ∧
      ∀ d ∈ rest, continuesName d = true := by
  unfold isName
  rcases name.toList with _ | ⟨c, rest⟩
  · simp
  · simp only [Bool.and_eq_true, List.all_eq_true]
    constructor
    · intro h
      exact ⟨c, rest, rfl, h⟩
    · rintro ⟨d, more, he, h⟩
      obtain ⟨rfl, rfl⟩ := List.cons.inj he
      exact h

theorem continues_of_starts {c : Char} (h : startsName c = true) : continuesName c = true := by
  have hlt : c.toNat < 0x80 := by
    have halpha : c.isAlpha = (decide (c.val ≥ 'A'.val ∧ c.val ≤ 'Z'.val) ||
        decide (c.val ≥ 'a'.val) && decide (c.val ≤ 'z'.val)) := rfl
    simp only [startsName, halpha, Bool.or_eq_true, Bool.and_eq_true, decide_eq_true_eq] at h
    rcases h with (h | h) | rfl
    · have := UInt32.le_iff_toNat_le.mp h.2
      simp only [Char.toNat]
      have : c.val.toNat ≤ 90 := this
      omega
    · have : c.val.toNat ≤ 122 := UInt32.le_iff_toNat_le.mp h.2
      simp only [Char.toNat]
      omega
    · decide
  simp only [startsName, Bool.or_eq_true, decide_eq_true_eq] at h
  simp only [continuesName, Text.isWordChar, hlt, if_true, Char.isAlphanum]
  rcases h with h | h <;> simp [h]

theorem continues_of_mem_name {name : String} (h : isName name = true) :
    ∀ c ∈ name.toList, continuesName c = true := by
  obtain ⟨c, rest, he, hc, hrest⟩ := isName_iff.mp h
  intro d hd
  rw [he] at hd
  rcases List.mem_cons.mp hd with rfl | hd
  · exact continues_of_starts hc
  · exact hrest d hd

theorem not_reserved_of_continues {c : Char} (h : continuesName c = true) :
    isReserved c = false := by
  cases hr : isReserved c with
  | false => rfl
  | true =>
    rcases reserved_cases hr with rfl | rfl | rfl | rfl | rfl <;>
      exact absurd h (by decide)

theorem not_reserved_of_mem_word {name : String} (h : isWord name = true) :
    ∀ c ∈ name.toList, isReserved c = false := by
  intro c hc
  simp only [isWord, Bool.and_eq_true] at h
  exact not_reserved_of_continues (by simp [continuesName, List.all_eq_true.mp h.2 c hc])

/-! ## What ends a name -/

/-- The text does not go on with a name, nor with what comes between a name and its value. -/
def StopsName (text : List Char) : Prop :=
  ∀ c ∈ text.head?, continuesName c = false ∧ c ≠ '=' ∧ c ≠ '\"'

theorem stopsName_cons {c : Char} (h : continuesName c = false ∧ c ≠ '=' ∧ c ≠ '\"')
    (rest : List Char) : StopsName (c :: rest) := by
  intro d hd
  rw [Option.mem_def, List.head?_cons, Option.some.injEq] at hd
  exact hd ▸ h

theorem wordEnds_cons {c : Char} (h : continuesName c = false) (rest : List Char) :
    wordEnds (c :: rest) = true := by
  simp only [continuesName, Bool.or_eq_false_iff] at h
  simp [wordEnds, h.1.1]

/-! ## Attributes in a text -/

theorem looksAhead_namedValue : LooksAhead namedValue := by
  intro a b text
  cases text <;> rfl

theorem until?_append {mark : Char} {inside : List Char} (h : mark ∉ inside) (rest : List Char) :
    until? mark (inside ++ mark :: rest) = some inside := by
  have htake : (inside ++ mark :: rest).takeWhile (· ≠ mark) = inside := by
    rw [List.takeWhile_append_of_pos fun c hc => by
      simpa using fun he : c = mark => h (he ▸ hc)]
    simp
  have hmem : (inside ++ mark :: rest).contains mark = true := by simp
  rw [until?, if_pos hmem, htake]

theorem after?_append (word rest : List Char) : Text.after? word (word ++ rest) = some rest := by
  simp [Text.after?, List.isPrefixOf_iff_prefix]

theorem after?_of_head_ne {a b : Char} (h : a ≠ b) (word rest : List Char) :
    Text.after? (a :: word) (b :: rest) = none := by
  simp [Text.after?, List.isPrefixOf, h]

theorem dropWhile_name {ds : List Char} (h : ∀ c ∈ ds, continuesName c = true)
    {rest : List Char} (hrest : ∀ c ∈ rest.head?, continuesName c = false) :
    (ds ++ rest).takeWhile continuesName = ds ∧ (ds ++ rest).dropWhile continuesName = rest := by
  have hnil : rest.takeWhile continuesName = [] ∧ rest.dropWhile continuesName = rest := by
    cases rest with
    | nil => simp
    | cons c rest => simp [hrest c rfl]
  rw [List.takeWhile_append_of_pos h, List.dropWhile_append_of_pos h, hnil.1, hnil.2,
    List.append_nil]
  exact ⟨rfl, rfl⟩

/-- No value starts before the next stop where no quote stands. -/
theorem after?_of_no_quote {more rest : List Char} (hmore : '\"' ∉ more) (hrest : StopsName rest) :
    Text.after? ['=', '\"'] (more ++ rest) = none := by
  match more, hmore with
  | [], _ =>
    match rest, hrest with
    | [], _ => rfl
    | d :: rest, hrest => exact after?_of_head_ne (hrest d rfl).2.1.symm _ _
  | [d], _ =>
    match rest, hrest with
    | [], _ => simp [Text.after?, List.isPrefixOf]
    | e :: rest, hrest =>
      have hquote := (hrest e rfl).2.2.symm
      simp [Text.after?, List.isPrefixOf, hquote]
  | d :: e :: more, hmore =>
    have hquote : '\"' ≠ e := by
      rintro rfl
      exact hmore (by simp)
    simp [Text.after?, List.isPrefixOf, hquote]

/-- A text without quotes that does not end inside a name holds no attribute. -/
theorem scan_namedValue_plain {pre rest : List Char} (hpre : '\"' ∉ pre) (hrest : StopsName rest) :
    scan namedValue (pre ++ rest) = scan namedValue rest := by
  refine scan_append_of_none looksAhead_namedValue fun c before after he => ?_
  simp only [namedValue]
  split
  · obtain ⟨ds, more, hsplit, hds, hmore⟩ : ∃ ds more, after = ds ++ more ∧
        (∀ d ∈ ds, continuesName d = true) ∧ ∀ d ∈ more.head?, continuesName d = false := by
      refine ⟨after.takeWhile continuesName, after.dropWhile continuesName,
        List.takeWhile_append_dropWhile.symm, ?_, ?_⟩
      · exact fun d hd => List.all_eq_true.mp List.all_takeWhile d hd
      · intro d hd
        have := List.head?_dropWhile_not continuesName after
        rwa [Option.mem_def.mp hd] at this
    have hquote : '\"' ∉ more := fun hm => hpre (by simp [he, hsplit, hm])
    have hstop : ∀ d ∈ (more ++ rest).head?, continuesName d = false := by
      cases more with
      | nil => exact fun d hd => (hrest d hd).1
      | cons d more => exact hmore
    rw [hsplit, List.append_assoc, (dropWhile_name hds hstop).2, after?_of_no_quote hquote hrest]
  · rfl

theorem scan_namedValue_cons {c : Char} (h : startsName c = false) (rest : List Char) :
    scan namedValue (c :: rest) = scan namedValue rest :=
  scan_cons_of_none looksAhead_namedValue (by simp [namedValue, h])

/-- A name with a value between quotes is found as it stands. -/
theorem scan_namedValue_pair {name : String} (h : isName name = true) {value : List Char}
    (hvalue : '\"' ∉ value) (rest : List Char) :
    scan namedValue (name.toList ++ ('=' :: '\"' :: (value ++ '\"' :: rest))) =
      (name.toList, value) :: scan namedValue rest := by
  obtain ⟨c, more, he, hc, hmore⟩ := isName_iff.mp h
  let whole := c :: more ++ '=' :: '\"' :: value ++ ['\"']
  have hwhole : name.toList ++ ('=' :: '\"' :: (value ++ '\"' :: rest)) = whole ++ rest := by
    simp [whole, he]
  rw [hwhole]
  refine scan_of_some looksAhead_namedValue (by simp [whole]) ?_
  have hsplit : whole ++ rest = c :: (more ++ (['=', '\"'] ++ (value ++ '\"' :: rest))) := by
    simp [whole]
  have hstop : ∀ d ∈ (['=', '\"'] ++ (value ++ '\"' :: rest)).head?, continuesName d = false := by
    intro d hd
    obtain rfl : '=' = d := by simpa using hd
    decide
  rw [hsplit]
  simp only [namedValue, hc, if_true, (dropWhile_name hmore hstop).1,
    (dropWhile_name hmore hstop).2, after?_append, until?_append hvalue, Option.map_some, he]
  simp [whole]
  omega

/-- An attribute as the reader gives it. -/
def Attribute.found (a : Attribute) : List Char × List Char :=
  (a.name.toList, guardChars a.value.toList)

theorem scan_namedValue_attribute {a : Attribute} (h : isName a.name = true) (rest : List Char) :
    scan namedValue (a.chars ++ rest) = a.found :: scan namedValue rest := by
  have hvalue : '\"' ∉ guardChars a.value.toList := fun hm =>
    (quotable_guardChars _ _ hm).2.2.1 rfl
  have hsplit : a.chars ++ rest = ' ' :: (a.name.toList ++
      ('=' :: '\"' :: (guardChars a.value.toList ++ '\"' :: rest))) := by
    simp [Attribute.chars]
  rw [hsplit, scan_namedValue_cons (by decide), scan_namedValue_pair h hvalue, Attribute.found]

theorem stopsName_attributes (as : List Attribute) {rest : List Char} (h : StopsName rest) :
    StopsName (as.flatMap Attribute.chars ++ rest) := by
  cases as with
  | nil => exact h
  | cons a as => exact stopsName_cons (by decide) _

theorem scan_namedValue_attributes {as : List Attribute} (h : ∀ a ∈ as, isName a.name = true)
    (rest : List Char) : scan namedValue (as.flatMap Attribute.chars ++ rest) =
      as.map Attribute.found ++ scan namedValue rest := by
  induction as with
  | nil => rfl
  | cons a as ih =>
    rw [List.flatMap_cons, List.append_assoc, scan_namedValue_attribute (h a (by simp)),
      ih fun b hb => h b (by simp [hb])]
    rfl

theorem quote_not_mem_word {name : String} (h : isWord name = true) : '\"' ∉ name.toList :=
  fun hm => absurd (not_reserved_of_mem_word h _ hm) (by decide)

/-! ## The text inside a tag -/

/-- A text that can stand in a tag behind its name: the reader finds these
attributes in it, and no end of the tag. -/
structure Inside (text : List Char) (found : Attributes) : Prop where
  no_start : '<' ∉ text
  no_end : '>' ∉ text
  no_slash : text.getLast? ≠ some '/'
  apart : ∀ rest, StopsName rest → StopsName (text ++ rest)
  reads : ∀ rest, StopsName rest →
    scan namedValue (text ++ rest) = found ++ scan namedValue rest

theorem bracket_not_mem_chars {a : Attribute} (h : isName a.name = true) {c : Char}
    (hc : c = '<' ∨ c = '>') : c ∉ a.chars := by
  have hreserved : isReserved c = true := by rcases hc with rfl | rfl <;> decide
  have hname : c ∉ a.name.toList := fun hm => by
    have := not_reserved_of_continues (continues_of_mem_name h c hm)
    simp [hreserved] at this
  have hvalue : c ∉ guardChars a.value.toList := fun hm => by
    obtain ⟨h1, h2, -, -⟩ := quotable_guardChars _ c hm
    exact hc.elim h1 h2
  simp only [Attribute.chars, List.cons_append, List.mem_cons, List.mem_append, List.not_mem_nil,
    or_false]
  rintro (rfl | (hm | rfl | rfl | hm) | rfl)
  · simp at hc
  · exact hname hm
  · simp at hc
  · simp at hc
  · exact hvalue hm
  · simp at hc

theorem bracket_not_mem_attributes {as : List Attribute} (h : ∀ a ∈ as, isName a.name = true)
    {c : Char} (hc : c = '<' ∨ c = '>') : c ∉ as.flatMap Attribute.chars := by
  intro hm
  obtain ⟨a, ha, hm⟩ := List.mem_flatMap.mp hm
  exact bracket_not_mem_chars (h a ha) hc hm

/-- Attributes end with a quote. -/
theorem getLast?_attributes (as : List Attribute) :
    (as.flatMap Attribute.chars).getLast? ≠ some '/' := by
  rcases List.eq_nil_or_concat as with rfl | ⟨before, a, rfl⟩
  · simp
  · have hquote : (a.chars).getLast? = some '\"' := List.getLast?_concat
    simp [List.getLast?_append, hquote]

theorem inside_attributes {as : List Attribute} (h : ∀ a ∈ as, isName a.name = true) :
    Inside (as.flatMap Attribute.chars) (as.map Attribute.found) where
  no_start := bracket_not_mem_attributes h (.inl rfl)
  no_end := bracket_not_mem_attributes h (.inr rfl)
  no_slash := getLast?_attributes as
  apart _ hrest := stopsName_attributes as hrest
  reads rest _ := scan_namedValue_attributes h rest

section Inside

variable {text : List Char} {found : Attributes}

theorem Inside.scan_namedValue (h : Inside text found) {name : String} (hname : isWord name = true)
    {rest : List Char} (hrest : StopsName rest) :
    scan namedValue ('<' :: name.toList ++ text ++ rest) = found ++ scan namedValue rest := by
  have hquote : '\"' ∉ '<' :: name.toList := by
    simpa using quote_not_mem_word hname
  rw [List.append_assoc, scan_namedValue_plain hquote (h.apart rest hrest), h.reads rest hrest]

/-- The attributes of a tag, which may have a slash before its bracket. -/
theorem Inside.attributes_eq (h : Inside text found) {name : String} (hname : isWord name = true)
    {close : List Char} (hclose : close = [] ∨ close = ['/']) :
    attributes ('<' :: name.toList ++ text ++ (close ++ ['>'])) = found := by
  have hstop : StopsName (close ++ ['>']) := by
    rcases hclose with rfl | rfl <;> exact stopsName_cons (by decide) _
  have hnone : scan namedValue (close ++ ['>']) = [] := by
    rcases hclose with rfl | rfl <;> decide
  rw [attributes, h.scan_namedValue hname hstop, hnone, List.append_nil]

end Inside

theorem scan_namedValue_startOfTag {name : String} {as : List Attribute}
    (hname : isWord name = true) (h : ∀ a ∈ as, isName a.name = true) {rest : List Char}
    (hrest : StopsName rest) :
    scan namedValue (startOfTag name as ++ rest) =
      as.map Attribute.found ++ scan namedValue rest :=
  (inside_attributes h).scan_namedValue hname hrest

/-! ## Tags in a text -/

theorem looksAhead_tag (name : String) : LooksAhead (tag name) := fun _ _ _ => rfl

theorem scan_tag_plain {name : String} {pre : List Char} (h : '<' ∉ pre) (rest : List Char) :
    scan (tag name) (pre ++ rest) = scan (tag name) rest := by
  refine scan_append_of_none (looksAhead_tag name) fun c before after he => ?_
  have hc : '<' ≠ c := by
    rintro rfl
    exact h (by simp [he])
  simp only [tag, after?_of_head_ne hc]

theorem wordChars_of_isWord {name : String} (h : isWord name = true) :
    name.toList ≠ [] ∧ ∀ c ∈ name.toList, Text.isWordChar c = true := by
  simpa [isWord] using h

theorem tag_matches {name : String} {before : Option Char} {text : List Char}
    {r : Nat × List Char × List Char} (h : tag name before text = some r) :
    ∃ rest, text = '<' :: name.toList ++ rest ∧ wordEnds rest = true := by
  simp only [tag] at h
  split at h
  · cases h
  · rename_i rest hafter
    split at h
    · rename_i hends
      refine ⟨rest, ?_, hends⟩
      rw [Text.after?] at hafter
      split at hafter
      · rename_i hpre
        obtain ⟨more, hmore⟩ := List.isPrefixOf_iff_prefix.mp hpre
        rw [← hmore, List.drop_left, Option.some.injEq] at hafter
        rw [← hmore, hafter]
      · cases hafter
    · cases h

/-- No name of an element goes on as another one, so a tag matches only its own name. -/
theorem eq_of_tag_matches {name other : String} {rest more : List Char}
    (hname : isWord name = true) (hother : isWord other = true) (hrest : StopsName rest)
    (hmore : wordEnds more = true) (h : other.toList ++ rest = name.toList ++ more) :
    name = other := by
  have hn := (wordChars_of_isWord hname).2
  have ho := (wordChars_of_isWord hother).2
  apply String.toList_inj.mp
  rcases List.append_eq_append_iff.mp h with ⟨ds, hsplit, hcut⟩ | ⟨ds, hsplit, hcut⟩
  · match ds with
    | [] => simpa using hsplit
    | d :: ds =>
      have hd := hn d (by simp [hsplit])
      have := (hrest d (by simp [hcut])).1
      simp [continuesName, hd] at this
  · match ds with
    | [] => simpa using hsplit.symm
    | d :: ds =>
      have hd := ho d (by simp [hsplit])
      simp [hcut, wordEnds, hd] at hmore

/-- A tag does not match the pattern for a different name. -/
theorem scan_tag_other {name other : String} (hname : isWord name = true)
    (hother : isWord other = true) (hne : name ≠ other) {rest : List Char}
    (hrest : StopsName rest) :
    scan (tag name) ('<' :: other.toList ++ rest) = scan (tag name) rest := by
  have hnone : tag name none ('<' :: (other.toList ++ rest)) = none := by
    rw [Option.eq_none_iff_forall_ne_some]
    intro r hr
    obtain ⟨more, he, hmore⟩ := tag_matches hr
    exact hne (eq_of_tag_matches hname hother hrest hmore (List.cons.inj he).2)
  have hplain : '<' ∉ other.toList := fun hm =>
    absurd (not_reserved_of_mem_word hother _ hm) (by decide)
  rw [List.cons_append, scan_cons_of_none (looksAhead_tag name) hnone, scan_tag_plain hplain]

/-- The tags of other elements are passed over, with all their attributes. -/
theorem Inside.scan_tag_other {text : List Char} {found : Attributes} (h : Inside text found)
    {name other : String} (hname : isWord name = true) (hother : isWord other = true)
    (hne : name ≠ other) {rest : List Char} (hrest : StopsName rest) :
    scan (tag name) ('<' :: other.toList ++ text ++ rest) = scan (tag name) rest := by
  rw [List.append_assoc, Markup.scan_tag_other hname hother hne (h.apart rest hrest),
    scan_tag_plain h.no_start]

/-- A tag is found as a whole, up to the first bracket behind its name. -/
theorem scan_tag_whole (name : String) {inside : List Char} (hinside : '>' ∉ inside)
    {rest : List Char} (hends : wordEnds (inside ++ '>' :: rest) = true) :
    let whole := '<' :: name.toList ++ inside ++ ['>']
    scan (tag name) (whole ++ rest) = (whole, whole ++ rest) :: scan (tag name) rest := by
  intro whole
  refine scan_of_some (looksAhead_tag name) (by simp [whole]) ?_
  have hsplit : whole ++ rest = ('<' :: name.toList) ++ (inside ++ '>' :: rest) := by
    simp [whole]
  rw [hsplit]
  simp only [tag, after?_append, hends, if_true, until?_append hinside, Option.map_some]
  simp [whole]

/-- The reader finds a tag that holds attributes. `close` is the slash of a tag without an end,
if it has one. -/
theorem Inside.scan_tag_self {text : List Char} {found : Attributes} (h : Inside text found)
    (name : String) {close : List Char} (hclose : close = [] ∨ close = ['/']) (rest : List Char) :
    let whole := '<' :: name.toList ++ text ++ (close ++ ['>'])
    scan (tag name) (whole ++ rest) = (whole, whole ++ rest) :: scan (tag name) rest := by
  intro whole
  have hinside : '>' ∉ text ++ close := by
    intro hm
    rcases List.mem_append.mp hm with hm | hm
    · exact h.no_end hm
    · rcases hclose with rfl | rfl <;> simp at hm
  have hends : wordEnds (text ++ close ++ '>' :: rest) = true := by
    have hstop : StopsName (close ++ '>' :: rest) := by
      rcases hclose with rfl | rfl <;> exact stopsName_cons (by decide) _
    have happart := h.apart _ hstop
    rw [← List.append_assoc] at happart
    rcases hcut : text ++ close ++ '>' :: rest with _ | ⟨c, more⟩
    · rfl
    · exact wordEnds_cons (happart c (by rw [hcut]; rfl)).1 more
  have hwhole : whole = '<' :: name.toList ++ (text ++ close) ++ ['>'] := by
    simp only [whole, List.append_assoc]
  rw [hwhole]
  exact scan_tag_whole name hinside hends

theorem scan_tag_startOfTag {name other : String} {as : List Attribute} (hname : isWord name = true)
    (hother : isWord other = true) (hne : name ≠ other) (h : ∀ a ∈ as, isName a.name = true)
    {rest : List Char} (hrest : StopsName rest) :
    scan (tag name) (startOfTag other as ++ rest) = scan (tag name) rest :=
  (inside_attributes h).scan_tag_other hname hother hne hrest

theorem scan_tag_endTag {name : String} (hname : isWord name = true) {other : String}
    (hother : isWord other = true) (rest : List Char) :
    scan (tag name) (endTag other ++ rest) = scan (tag name) rest := by
  have hnone : tag name none (endTag other ++ rest) = none := by
    rw [Option.eq_none_iff_forall_ne_some]
    intro r hr
    obtain ⟨more, he, -⟩ := tag_matches hr
    obtain ⟨hne, hw⟩ := wordChars_of_isWord hname
    obtain ⟨c, cs, hcs⟩ := List.exists_cons_of_ne_nil hne
    have hc : '/' = c := by
      simp only [endTag, hcs, List.cons_append, List.cons.injEq, true_and] at he
      exact he.1
    have := hw c (by simp [hcs])
    rw [← hc] at this
    exact absurd this (by decide)
  have hplain : '<' ∉ '/' :: other.toList ++ ['>'] := fun hm => by
    have hm : '<' ∈ other.toList := by simpa using hm
    exact absurd (not_reserved_of_mem_word hother _ hm) (by decide)
  have hsplit : endTag other ++ rest = '<' :: ('/' :: other.toList ++ ['>'] ++ rest) := by
    simp [endTag]
  rw [hsplit] at hnone ⊢
  rw [scan_cons_of_none (looksAhead_tag name) hnone, scan_tag_plain hplain]

/-! ## Tags by their names -/

/-- The attributes of each tag with that name in a text, as the reader finds them. -/
def tagsNamed (name : String) (text : List Char) : List Attributes :=
  (scan (tag name) text).map fun found => attributes found.1

section TagsNamed

variable {name : String} {text rest : List Char}

theorem tagsNamed_plain {pre : List Char} (h : '<' ∉ pre) (rest : List Char) :
    tagsNamed name (pre ++ rest) = tagsNamed name rest := by
  rw [tagsNamed, scan_tag_plain h, tagsNamed]

theorem tagsNamed_cons {c : Char} (h : tag name none (c :: rest) = none) :
    tagsNamed name (c :: rest) = tagsNamed name rest := by
  rw [tagsNamed, scan_cons_of_none (looksAhead_tag name) h, tagsNamed]

theorem tagsNamed_whole {inside : List Char} (hinside : '>' ∉ inside)
    (hends : wordEnds (inside ++ '>' :: rest) = true) :
    tagsNamed name ('<' :: name.toList ++ inside ++ ['>'] ++ rest) =
      attributes ('<' :: name.toList ++ inside ++ ['>']) :: tagsNamed name rest := by
  rw [tagsNamed, scan_tag_whole name hinside hends, List.map_cons, tagsNamed]

/-- A text that no tag can run out of: its last character is a bracket. -/
def Closed (text : List Char) : Prop := text = [] ∨ text.getLast? = some '>'

theorem Closed.of_append {text more : List Char} (h : Closed (text ++ more)) : Closed more := by
  rcases List.eq_nil_or_concat more with rfl | ⟨before, c, rfl⟩
  · exact .inl rfl
  · rcases h with h | h
    · simp at h
    · refine .inr ?_
      simpa [List.getLast?_append] using h

/-- At the start of a closed text there is a whole tag, or none whatever comes behind. -/
theorem Closed.tag_cases (hname : '>' ∉ name.toList) (hne : text ≠ []) (h : Closed text) :
    (∃ inside more, text = '<' :: name.toList ++ inside ++ ['>'] ++ more ∧ '>' ∉ inside ∧
      ∀ rest, wordEnds (inside ++ '>' :: rest) = true) ∨
    ∀ rest, tag name none (text ++ rest) = none := by
  have hlast : text.getLast? = some '>' := h.resolve_left hne
  have hopening : '>' ∉ '<' :: name.toList := by simpa using hname
  by_cases hstart : ∃ more, text = '<' :: name.toList ++ more ∧ wordEnds more = true
  · obtain ⟨more, rfl, hends⟩ := hstart
    have hmem : '>' ∈ more := by
      rcases List.mem_append.mp (List.mem_of_getLast? hlast) with hm | hm
      · exact absurd hm hopening
      · exact hm
    obtain ⟨inside, after, rfl, hinside⟩ := List.eq_append_cons_of_mem hmem
    refine .inl ⟨inside, after, by simp, hinside, fun rest => ?_⟩
    cases inside with
    | nil => exact wordEnds_cons (by decide) rest
    | cons c inside => exact hends
  · refine .inr fun rest => Option.eq_none_iff_forall_ne_some.mpr fun found hfound => ?_
    obtain ⟨more, hsplit, hends⟩ := tag_matches hfound
    rcases List.append_eq_append_iff.mp hsplit with ⟨ds, hcut, -⟩ | ⟨ds, hcut, rfl⟩
    · exact hopening (hcut ▸ List.mem_append_left ds (List.mem_of_getLast? hlast))
    · refine hstart ⟨ds, hcut, ?_⟩
      cases ds with
      | nil => rfl
      | cons d ds => exact hends

/-- No tag reaches from a closed text into what comes behind it. -/
theorem Closed.tagsNamed_append (hname : '>' ∉ name.toList) (h : Closed text) :
    tagsNamed name (text ++ rest) = tagsNamed name text ++ tagsNamed name rest := by
  induction hn : text.length using Nat.strongRecOn generalizing text with
  | _ n ih =>
    subst hn
    by_cases hne : text = []
    · subst hne
      rfl
    rcases h.tag_cases hname hne with ⟨inside, more, rfl, hinside, hends⟩ | hnone
    · have hmore := ih more.length (by simp; omega) h.of_append rfl
      rw [List.append_assoc, tagsNamed_whole hinside (hends _), tagsNamed_whole hinside (hends _),
        hmore]
      rfl
    · obtain ⟨c, more, rfl⟩ := List.exists_cons_of_ne_nil hne
      have htail : Closed more := Closed.of_append (show Closed ([c] ++ more) from h)
      have hmore := ih more.length (by simp) htail rfl
      have hself : tag name none (c :: more) = none := by simpa using hnone []
      have hthere : tag name none (c :: (more ++ rest)) = none := hnone rest
      rw [List.cons_append, tagsNamed_cons hthere, tagsNamed_cons hself, hmore]

end TagsNamed

end DiagramPress.Markup
