-- Escaping, guarding and reading references fit together: reading undoes
-- escaping, and guarding changes nothing that reading would see and no text
-- that can stand between quotes as it is.
import DiagramPress.Markup.Escape

namespace DiagramPress.Markup

/-! ## The reserved characters -/

/-- The five characters with a meaning of their own. -/
def isReserved (c : Char) : Bool := c = '&' || c = '<' || c = '>' || c = '\"' || c = '\x27'

/-- A text that can stand between quotes: no angle bracket and no quote. -/
def Quotable (cs : List Char) : Prop := ∀ c ∈ cs, c ≠ '<' ∧ c ≠ '>' ∧ c ≠ '\"' ∧ c ≠ '\x27'

theorem escapeChar_of_not_reserved {c : Char} (h : isReserved c = false) : escapeChar c = [c] := by
  simp only [isReserved, Bool.or_eq_false_iff, decide_eq_false_iff_not] at h
  obtain ⟨⟨⟨⟨h1, h2⟩, h3⟩, h4⟩, h5⟩ := h
  simp [escapeChar, h1, h2, h3, h4, h5]

theorem reserved_cases {c : Char} (h : isReserved c = true) :
    c = '&' ∨ c = '<' ∨ c = '>' ∨ c = '\"' ∨ c = '\x27' := by
  simpa [isReserved, or_assoc] using h

theorem quotable_escapeChar (c : Char) : Quotable (escapeChar c) := by
  cases h : isReserved c with
  | true => rcases reserved_cases h with rfl | rfl | rfl | rfl | rfl <;> simp [Quotable, escapeChar]
  | false =>
    rw [escapeChar_of_not_reserved h]
    simp_all [Quotable, isReserved]

/-! ## One replacement after the other -/

theorem replaceChar_append (c : Char) (text as bs : List Char) :
    replaceChar c text (as ++ bs) = replaceChar c text as ++ replaceChar c text bs :=
  List.flatMap_append

theorem replaceChar_singleton (c : Char) (text : List Char) (x : Char) :
    replaceChar c text [x] = if x = c then text else [x] := List.flatMap_singleton _ _

theorem escapeChars_append (as bs : List Char) :
    escapeChars (as ++ bs) = escapeChars as ++ escapeChars bs := by
  simp only [escapeChars, replaceChar_append]

/-- No replacement sees what an earlier one has brought in. -/
theorem escapeChars_singleton (c : Char) : escapeChars [c] = escapeChar c := by
  cases h : isReserved c with
  -- the references for the other four hold an ampersand: its turn is over by then
  | true => rcases reserved_cases h with rfl | rfl | rfl | rfl | rfl <;> rfl
  | false =>
    rw [escapeChar_of_not_reserved h]
    simp only [isReserved, Bool.or_eq_false_iff, decide_eq_false_iff_not] at h
    obtain ⟨⟨⟨⟨h1, h2⟩, h3⟩, h4⟩, h5⟩ := h
    simp only [escapeChars, replaceChar_singleton, if_neg h1, if_neg h2, if_neg h3, if_neg h4,
      if_neg h5]

/-- The five replacements together go over the text once. -/
theorem escapeChars_cons (c : Char) (rest : List Char) :
    escapeChars (c :: rest) = escapeChar c ++ escapeChars rest := by
  have hsplit : c :: rest = [c] ++ rest := rfl
  rw [hsplit, escapeChars_append, escapeChars_singleton]

/-! ## What makes a reference -/

theorem reserved_of_hexDigit {c : Char} (h : isHexDigit c = true) : isReserved c = false := by
  cases hr : isReserved c with
  | false => rfl
  | true => rcases reserved_cases hr with rfl | rfl | rfl | rfl | rfl <;> simp [isHexDigit] at h

theorem reserved_of_digit {c : Char} (h : c.isDigit = true) : isReserved c = false :=
  reserved_of_hexDigit (by simp [isHexDigit, h])

/-- A reference is decided by the characters it takes, none of which is
reserved, whatever follows them. -/
def Spells (body : List Char) (value : Option Char) : Prop :=
  (∀ c ∈ body, isReserved c = false) ∧
    ∀ rest, reference? (body ++ rest) = some (body.length, value)

theorem no_reserved {cs : List Char} (h : cs.any isReserved = false) :
    ∀ c ∈ cs, isReserved c = false := by
  simpa using h

theorem spells_named {name : List Char} {c : Char} (h : (name, c) ∈ namedReferences) :
    Spells name (some c) := by
  simp only [namedReferences, List.mem_cons, Prod.mk.injEq, List.not_mem_nil, or_false] at h
  rcases h with ⟨rfl, rfl⟩ | ⟨rfl, rfl⟩ | ⟨rfl, rfl⟩ | ⟨rfl, rfl⟩ | ⟨rfl, rfl⟩ <;>
    exact ⟨no_reserved (by decide), fun rest => rfl⟩

/-- The digits of a numeric reference and its semicolon, after `lead` characters. -/
def numeral? (lead base : Nat) (isDigit : Char → Bool) (body : List Char) :
    Option (Nat × Option Char) :=
  let ds := body.takeWhile isDigit
  if ds.isEmpty then none
  else
    match body.drop ds.length with
    | ';' :: _ => some (lead + ds.length + 1, charOf? (readNumber base ds))
    | _ => none

theorem reference?_hex {x : Char} (hx : x = 'x' ∨ x = 'X') (body : List Char) :
    reference? ('#' :: x :: body) = numeral? 2 16 isHexDigit body := by
  rcases hx with rfl | rfl <;> rfl

theorem no_named_hash (numeric : List Char) :
    (namedReferences.find? fun (name, _) => name.isPrefixOf ('#' :: numeric)) = none := rfl

theorem reference?_decimal {numeric : List Char} (hx : ∀ body, numeric ≠ 'x' :: body)
    (hX : ∀ body, numeric ≠ 'X' :: body) :
    reference? ('#' :: numeric) = numeral? 1 10 Char.isDigit numeric := by
  unfold reference?
  rw [no_named_hash]
  dsimp only
  split
  · rename_i body heq
    obtain rfl : numeric = body := by simpa using heq
    split
    · rename_i body
      exact absurd rfl (hx body)
    · rename_i body
      exact absurd rfl (hX body)
    · rfl
  · rename_i hne
    exact absurd rfl (hne numeric)

theorem drop_takeWhile (p : Char → Bool) (cs : List Char) :
    cs.drop (cs.takeWhile p).length = cs.dropWhile p := by
  induction cs with
  | nil => rfl
  | cons c rest ih => by_cases h : p c <;> simp [h, ih]

theorem numeral?_eq_some {lead base n : Nat} {p : Char → Bool} {body : List Char}
    {value : Option Char} (h : numeral? lead base p body = some (n, value)) :
    ∃ ds rest, ds ≠ [] ∧ (∀ c ∈ ds, p c = true) ∧ body = ds ++ ';' :: rest ∧
      n = lead + ds.length + 1 ∧ value = charOf? (readNumber base ds) := by
  unfold numeral? at h
  dsimp only at h
  split at h
  · cases h
  · rename_i hne
    split at h
    · rename_i rest hd
      simp only [Option.some.injEq, Prod.mk.injEq] at h
      refine ⟨body.takeWhile p, rest, by simpa using hne, ?_, ?_, h.1.symm, h.2.symm⟩
      · intro c hc
        exact List.all_eq_true.mp List.all_takeWhile c hc
      · rw [← hd, drop_takeWhile, List.takeWhile_append_dropWhile]
    · cases h

theorem numeral?_digits {p : Char → Bool} {ds : List Char} (lead base : Nat) (hne : ds ≠ [])
    (h : ∀ c ∈ ds, p c = true) (hp : p ';' = false) (rest : List Char) :
    numeral? lead base p (ds ++ ';' :: rest) =
      some (lead + ds.length + 1, charOf? (readNumber base ds)) := by
  have htake : (ds ++ ';' :: rest).takeWhile p = ds := by
    rw [List.takeWhile_append_of_pos h]
    simp [hp]
  simp [numeral?, htake, hne]

/-- A numeric reference is spelt by its mark, its digits and its semicolon. -/
theorem spells_numeral {mark ds : List Char} {base : Nat} {p : Char → Bool} (hne : ds ≠ [])
    (hmark : ∀ c ∈ mark, isReserved c = false) (h : ∀ c ∈ ds, p c = true) (hp : p ';' = false)
    (hplain : ∀ c, p c = true → isReserved c = false)
    (href : ∀ rest, reference? (mark ++ (ds ++ ';' :: rest)) =
      numeral? mark.length base p (ds ++ ';' :: rest)) :
    Spells (mark ++ ds ++ [';']) (charOf? (readNumber base ds)) := by
  refine ⟨fun c hc => ?_, fun rest => ?_⟩
  · simp only [List.mem_append, List.mem_singleton] at hc
    rcases hc with (hc | hc) | rfl
    · exact hmark c hc
    · exact hplain c (h c hc)
    · rfl
  · rw [List.append_assoc, List.append_assoc, List.singleton_append, href,
      numeral?_digits _ _ hne h hp]
    simp [Nat.add_assoc]

theorem spells_hex {x : Char} (hx : x = 'x' ∨ x = 'X') {ds : List Char} (hne : ds ≠ [])
    (h : ∀ c ∈ ds, isHexDigit c = true) :
    Spells (['#', x] ++ ds ++ [';']) (charOf? (readNumber 16 ds)) := by
  refine spells_numeral hne ?_ h (by decide) (fun c => reserved_of_hexDigit) fun rest => ?_
  · rcases hx with rfl | rfl <;> exact no_reserved (by decide)
  · exact reference?_hex hx _

theorem spells_decimal {ds : List Char} (hne : ds ≠ []) (h : ∀ c ∈ ds, c.isDigit = true) :
    Spells (['#'] ++ ds ++ [';']) (charOf? (readNumber 10 ds)) := by
  refine spells_numeral hne (no_reserved (by decide)) h (by decide)
    (fun c => reserved_of_digit) fun rest => ?_
  obtain ⟨d, more, rfl⟩ := List.exists_cons_of_ne_nil hne
  have hd := h d (by simp)
  refine reference?_decimal (fun body he => ?_) (fun body he => ?_)
  · rw [(List.cons.inj he).1] at hd
    exact absurd hd (by decide)
  · rw [(List.cons.inj he).1] at hd
    exact absurd hd (by decide)

theorem hash_of_reference {after : List Char} {r : Nat × Option Char}
    (hfind : (namedReferences.find? fun (name, _) => name.isPrefixOf after) = none)
    (h : reference? after = some r) : ∃ numeric, after = '#' :: numeric := by
  unfold reference? at h
  rw [hfind] at h
  dsimp only at h
  split at h
  · exact ⟨_, rfl⟩
  · cases h

/-- Where a reference is found, the text starts with what spells it. -/
theorem spells_of_reference {after : List Char} {n : Nat} {value : Option Char}
    (h : reference? after = some (n, value)) :
    ∃ body rest, after = body ++ rest ∧ body.length = n ∧ Spells body value := by
  rcases hfind : namedReferences.find? fun (name, _) => name.isPrefixOf after with _ | ⟨name, c⟩
  · obtain ⟨numeric, rfl⟩ := hash_of_reference hfind h
    by_cases hx : ∃ x body, (x = 'x' ∨ x = 'X') ∧ numeric = x :: body
    · obtain ⟨x, body, hx, rfl⟩ := hx
      rw [reference?_hex hx] at h
      obtain ⟨ds, rest, hne, hds, rfl, rfl, rfl⟩ := numeral?_eq_some h
      exact ⟨_, rest, by simp, by simp; omega, spells_hex hx hne hds⟩
    · rw [reference?_decimal (fun body he => hx ⟨'x', body, .inl rfl, he⟩)
        (fun body he => hx ⟨'X', body, .inr rfl, he⟩)] at h
      obtain ⟨ds, rest, hne, hds, rfl, rfl, rfl⟩ := numeral?_eq_some h
      exact ⟨_, rest, by simp, by simp; omega, spells_decimal hne hds⟩
  · simp only [reference?, hfind, Option.some.injEq, Prod.mk.injEq] at h
    obtain ⟨rfl, rfl⟩ := h
    have hpre := List.find?_some hfind
    obtain ⟨rest, rfl⟩ := List.isPrefixOf_iff_prefix.mp hpre
    exact ⟨name, rest, rfl, rfl, spells_named (List.mem_of_find?_eq_some hfind)⟩

/-! ## Guarding -/

theorem guardChars_append {body : List Char} (h : ∀ c ∈ body, isReserved c = false)
    (rest : List Char) : guardChars (body ++ rest) = body ++ guardChars rest := by
  induction body with
  | nil => rfl
  | cons c body ih =>
    have hc := h c (by simp)
    have hne : c ≠ '&' := by rintro rfl; exact absurd hc (by decide)
    rw [List.cons_append, guardChars, if_neg (fun hand => hne hand.1),
      escapeChar_of_not_reserved hc, ih fun x hx => h x (by simp [hx])]
    rfl

theorem reference?_guardChars {after : List Char} {r : Nat × Option Char}
    (h : reference? after = some r) : reference? (guardChars after) = some r := by
  obtain ⟨n, value⟩ := r
  obtain ⟨body, rest, rfl, hn, hplain, hspells⟩ := spells_of_reference h
  rw [guardChars_append hplain, hspells, hn]

theorem quotable_guardChars (cs : List Char) : Quotable (guardChars cs) := by
  induction cs with
  | nil => simp [Quotable, guardChars]
  | cons c rest ih =>
    unfold guardChars
    split
    · intro x hx
      rcases List.mem_cons.mp hx with rfl | hx
      · decide
      · exact ih x hx
    · intro x hx
      rcases List.mem_append.mp hx with hx | hx
      · exact quotable_escapeChar c x hx
      · exact ih x hx

theorem hasBareAmpersandChars_append {body : List Char} (h : ∀ c ∈ body, c ≠ '&')
    (rest : List Char) : hasBareAmpersandChars (body ++ rest) = hasBareAmpersandChars rest := by
  induction body with
  | nil => rfl
  | cons c body ih =>
    rw [List.cons_append, hasBareAmpersandChars, ih fun x hx => h x (by simp [hx])]
    simp [h c (by simp)]

/-- A guarded text has no ampersand that starts no reference. -/
theorem hasBareAmpersandChars_guardChars (cs : List Char) :
    hasBareAmpersandChars (guardChars cs) = false := by
  induction cs with
  | nil => rfl
  | cons c rest ih =>
    unfold guardChars
    split
    · rename_i h
      obtain ⟨r, hr⟩ := Option.isSome_iff_exists.mp h.2
      simp [hasBareAmpersandChars, reference?_guardChars hr, ih]
    · cases hc : isReserved c with
      | false =>
        rw [escapeChar_of_not_reserved hc, hasBareAmpersandChars_append, ih]
        intro x hx
        rw [List.mem_singleton.mp hx]
        rintro rfl
        exact absurd hc (by decide)
      | true =>
        rcases reserved_cases hc with rfl | rfl | rfl | rfl | rfl
        all_goals
          simp only [escapeChar]
          exact ih

/-! ## Reading what was written -/

theorem unescapeAfter_length (body rest : List Char) :
    unescapeAfter body.length (body ++ rest) = unescapeAfter 0 rest := by
  induction body with
  | nil => rfl
  | cons c body ih => simpa [unescapeAfter] using ih

theorem unescapeAfter_escapeChar (c : Char) (rest : List Char) :
    unescapeAfter 0 (escapeChar c ++ rest) = c :: unescapeAfter 0 rest := by
  cases h : isReserved c with
  | true =>
    rcases reserved_cases h with rfl | rfl | rfl | rfl | rfl
    all_goals
      simp only [escapeChar]
      rfl
  | false =>
    have hne : c ≠ '&' := by rintro rfl; exact absurd h (by decide)
    simp [escapeChar_of_not_reserved h, unescapeAfter, hne]

theorem unescapeAfter_of_spells {body : List Char} {value : Option Char} (h : Spells body value)
    (rest : List Char) : unescapeAfter 0 ('&' :: (body ++ rest)) =
      match value with
      | some c => c :: unescapeAfter 0 rest
      | none => '&' :: unescapeAfter 0 (body ++ rest) := by
  simp only [unescapeAfter, if_true, h.2 rest]
  cases value with
  | none => rfl
  | some c => simp only [unescapeAfter_length]

/-- Reading undoes escaping. -/
theorem unescapeChars_escapeChars (cs : List Char) : unescapeChars (escapeChars cs) = cs := by
  induction cs with
  | nil => rfl
  | cons c rest ih =>
    unfold unescapeChars at *
    rw [escapeChars_cons, unescapeAfter_escapeChar, ih]

theorem unescape_escape (text : String) : unescape (escape text) = text := by
  rw [unescape, escape, String.toList_ofList, unescapeChars_escapeChars, String.ofList_toList]

/-- Reading sees no difference between a text and the guarded text. -/
theorem unescapeChars_guardChars (cs : List Char) :
    unescapeChars (guardChars cs) = unescapeChars cs := by
  unfold unescapeChars
  match cs with
  | [] => rfl
  | c :: rest =>
    unfold guardChars
    split
    · rename_i h
      obtain ⟨rfl, href⟩ := h
      obtain ⟨⟨n, value⟩, hr⟩ := Option.isSome_iff_exists.mp href
      obtain ⟨body, more, rfl, -, hspells⟩ := spells_of_reference hr
      have hrest := unescapeChars_guardChars (body ++ more)
      have hmore := unescapeChars_guardChars more
      unfold unescapeChars at hrest hmore
      rw [guardChars_append hspells.1] at hrest ⊢
      rw [unescapeAfter_of_spells hspells, unescapeAfter_of_spells hspells, hmore, hrest]
    · rename_i h
      have hrest := unescapeChars_guardChars rest
      unfold unescapeChars at hrest
      rw [unescapeAfter_escapeChar, hrest]
      by_cases hc : c = '&'
      · have hnone : reference? rest = none := by
          simpa [hc] using h
        simp [unescapeAfter, hc, hnone]
      · simp [unescapeAfter, hc]
termination_by cs.length
decreasing_by all_goals (subst_vars; simp only [List.length_cons, List.length_append]; omega)

theorem unescape_guard (text : String) : unescape (guard text) = unescape text := by
  rw [unescape, guard, String.toList_ofList, unescapeChars_guardChars, unescape]

theorem guardChars_escapeChar (c : Char) (rest : List Char) :
    guardChars (escapeChar c ++ rest) = escapeChar c ++ guardChars rest := by
  cases h : isReserved c with
  | true =>
    rcases reserved_cases h with rfl | rfl | rfl | rfl | rfl
    all_goals
      simp only [escapeChar]
      rfl
  | false =>
    rw [escapeChar_of_not_reserved h]
    exact guardChars_append (by simpa using h) rest

/-- An escaped text needs no guard. -/
theorem guardChars_escapeChars (cs : List Char) : guardChars (escapeChars cs) = escapeChars cs := by
  induction cs with
  | nil => rfl
  | cons c rest ih => rw [escapeChars_cons, guardChars_escapeChar, ih]

theorem guard_escape (text : String) : guard (escape text) = escape text := by
  rw [guard, escape, String.toList_ofList, guardChars_escapeChars]

/-- A text without reserved characters is guarded as it stands. -/
theorem guardChars_eq_self {cs : List Char} (h : ∀ c ∈ cs, isReserved c = false) :
    guardChars cs = cs := by
  simpa [guardChars] using guardChars_append h []

theorem escapeChars_eq_self {cs : List Char} (h : ∀ c ∈ cs, isReserved c = false) :
    escapeChars cs = cs := by
  induction cs with
  | nil => rfl
  | cons c rest ih =>
    rw [escapeChars_cons, escapeChar_of_not_reserved (h c (by simp)),
      ih fun x hx => h x (by simp [hx])]
    rfl

/-! ## Texts that guarding leaves alone -/

/-- A text that can stand between quotes as it is: all its ampersands start references. -/
def IsSafe (text : String) : Prop := Quotable text.toList ∧ hasBareAmpersand text = false

theorem isSafe_guard (text : String) : IsSafe (guard text) := by
  rw [IsSafe, hasBareAmpersand, guard, String.toList_ofList]
  exact ⟨quotable_guardChars _, hasBareAmpersandChars_guardChars _⟩

theorem guardChars_of_quotable {cs : List Char} (hquotable : Quotable cs)
    (hbare : hasBareAmpersandChars cs = false) : guardChars cs = cs := by
  induction cs with
  | nil => rfl
  | cons c rest ih =>
    rw [hasBareAmpersandChars, Bool.or_eq_false_iff] at hbare
    have hrest := ih (fun x hx => hquotable x (List.mem_cons_of_mem c hx)) hbare.2
    by_cases hc : c = '&'
    · have href : (reference? rest).isSome = true := by simpa [hc] using hbare.1
      rw [guardChars, if_pos ⟨hc, href⟩, hrest, hc]
    · obtain ⟨hless, hgreater, hquote, happos⟩ := hquotable c List.mem_cons_self
      have hplain : isReserved c = false := by
        simp [isReserved, hc, hless, hgreater, hquote, happos]
      rw [guardChars, if_neg fun h => hc h.1, escapeChar_of_not_reserved hplain, hrest]
      rfl

theorem guard_eq_self_iff {text : String} : guard text = text ↔ IsSafe text := by
  constructor
  · intro h
    exact h ▸ isSafe_guard text
  · rintro ⟨hquotable, hbare⟩
    rw [guard, guardChars_of_quotable hquotable hbare, String.ofList_toList]

/-- Guarding makes a text safe, changes no text that is safe and every other one; so a
second guard finds nothing to do. -/
theorem guarding_changes_exactly_unsafe_texts (text : String) :
    IsSafe (guard text) ∧ (guard text = text ↔ IsSafe text) ∧
      guard (guard text) = guard text :=
  ⟨isSafe_guard text, guard_eq_self_iff, guard_eq_self_iff.mpr (isSafe_guard text)⟩

/-- What was escaped reads back and needs no guard, and a guard changes nothing of what
is read. -/
theorem escaped_texts_read_back_and_need_no_guard (text : String) :
    unescape (escape text) = text ∧ guard (escape text) = escape text ∧
      unescape (guard text) = unescape text :=
  ⟨unescape_escape text, guard_escape text, unescape_guard text⟩

/-- A reference inside an escaped reference, digits that end nowhere, and a number that is
no character: an ampersand stays where something that looks like a reference starts. -/
example :
    escape "&lt; '" = "&amp;lt; &apos;" ∧ unescape "&amp;lt; &apos;" = "&lt; '" ∧
      guard "&&#x41;&#38&#x110000;" = "&amp;&#x41;&amp;#38&#x110000;" ∧
      unescape "&&#x41;&#38&#x110000;" = "&A&#38&#x110000;" := by
  decide

/-! ## Texts that reading leaves alone -/

/-- Some ampersand of the text starts a reference to a character. -/
def HoldsReference (cs : List Char) : Prop :=
  ∃ before after n c, cs = before ++ '&' :: after ∧ reference? after = some (n, some c)

theorem holdsReference_cons {c : Char} {rest : List Char} : HoldsReference (c :: rest) ↔
    (c = '&' ∧ ∃ n value, reference? rest = some (n, some value)) ∨ HoldsReference rest := by
  constructor
  · rintro ⟨before, after, n, value, hsplit, href⟩
    match before with
    | [] =>
      obtain ⟨rfl, rfl⟩ := List.cons.inj hsplit
      exact .inl ⟨rfl, n, value, href⟩
    | b :: before => exact .inr ⟨before, after, n, value, (List.cons.inj hsplit).2, href⟩
  · rintro (⟨rfl, n, value, href⟩ | ⟨before, after, n, value, rfl, href⟩)
    · exact ⟨[], rest, n, value, rfl, href⟩
    · exact ⟨c :: before, after, n, value, rfl, href⟩

theorem unescapeChars_cons_of_no_reference {c : Char} {rest : List Char}
    (h : ¬ (c = '&' ∧ ∃ n value, reference? rest = some (n, some value))) :
    unescapeChars (c :: rest) = c :: unescapeChars rest := by
  simp only [unescapeChars, unescapeAfter]
  split
  · rename_i hc
    subst hc
    split
    · rename_i n value href
      exact absurd ⟨rfl, n, value, href⟩ h
    · rfl
  · rfl

/-- Reading makes no text longer, and passes over what a reference has used up. -/
theorem length_unescapeAfter_le (skip : Nat) (cs : List Char) :
    (unescapeAfter skip cs).length ≤ cs.length - skip := by
  induction cs generalizing skip with
  | nil => simp [unescapeAfter]
  | cons c rest ih =>
    cases skip with
    | succ skip =>
      have := ih skip
      simp only [unescapeAfter, List.length_cons]
      omega
    | zero =>
      have hrest := ih 0
      simp only [unescapeAfter]
      split
      · split
        · rename_i n value _
          have := ih n
          simp only [List.length_cons]
          omega
        · simp only [List.length_cons]
          omega
      · simp only [List.length_cons]
        omega

/-- A reference has at least two characters behind its ampersand. -/
theorem length_of_reference {after : List Char} {n : Nat} {value : Option Char}
    (h : reference? after = some (n, value)) : 2 ≤ n ∧ n ≤ after.length := by
  obtain ⟨body, rest, rfl, rfl, -, hspells⟩ := spells_of_reference h
  refine ⟨?_, by simp⟩
  have hself := hspells []
  rw [List.append_nil] at hself
  match body with
  | [] => cases hself
  | [c] =>
    by_cases hc : c = '#'
    · subst hc
      cases hself
    · simp [reference?, namedReferences, List.isPrefixOf, hc] at hself
  | _ :: _ :: _ => simp

/-- Reading makes a text with a reference at least two characters shorter. -/
theorem length_unescapeChars_of_holdsReference {cs : List Char} (h : HoldsReference cs) :
    (unescapeChars cs).length + 2 ≤ cs.length := by
  induction cs with
  | nil =>
    obtain ⟨before, after, n, c, hsplit, -⟩ := h
    simp at hsplit
  | cons c rest ih =>
    -- The first reference of the text is read, and what it uses up starts no other one.
    by_cases hhere : c = '&' ∧ ∃ n value, reference? rest = some (n, some value)
    · obtain ⟨rfl, n, value, href⟩ := hhere
      have hread : unescapeChars ('&' :: rest) = value :: unescapeAfter n rest := by
        simp [unescapeChars, unescapeAfter, href]
      have hle := length_unescapeAfter_le n rest
      have hlength := length_of_reference href
      simp only [hread, List.length_cons]
      omega
    · have hrest := ih ((holdsReference_cons.mp h).resolve_left hhere)
      simp only [unescapeChars_cons_of_no_reference hhere, List.length_cons]
      omega

/-- Reading changes a text exactly if it holds a reference to a character. -/
theorem unescapeChars_eq_self_iff {cs : List Char} :
    unescapeChars cs = cs ↔ ¬ HoldsReference cs := by
  constructor
  · intro hsame h
    have := length_unescapeChars_of_holdsReference h
    rw [hsame] at this
    omega
  · intro h
    induction cs with
    | nil => rfl
    | cons c rest ih =>
      rw [holdsReference_cons, not_or] at h
      rw [unescapeChars_cons_of_no_reference h.1, ih h.2]

end DiagramPress.Markup
