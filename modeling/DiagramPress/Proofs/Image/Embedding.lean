-- A document is found again in the image it was put into: no text in front of
-- the outermost element and no value inside its tag is mistaken for it.
import DiagramPress.Image.Drawing
import DiagramPress.Image.Embedding
import DiagramPress.Proofs.Codec.Packing
import DiagramPress.Proofs.Markup.Scanning
import DiagramPress.Proofs.Number.Written

namespace DiagramPress.Image

open Markup (Attribute isName isReserved startOfTag until? until?_append)
open Codec (Packing)
open Codec.Packing (wrapping)

/-! ## The text in front of the image element -/

/-- Every bracket in the text is followed, in the text, by another character than an `s`. -/
def isQuiet : List Char → Bool
  | [] => true
  | [c] => c ≠ '<'
  | c :: d :: rest => (c ≠ '<' || d ≠ 's') && isQuiet (d :: rest)

theorem isQuiet_tail {c : Char} {rest : List Char} (h : isQuiet (c :: rest) = true) :
    isQuiet rest = true := by
  cases rest with
  | nil => rfl
  | cons d rest =>
    rw [isQuiet, Bool.and_eq_true] at h
    exact h.2

theorem not_opens {c : Char} {pre : List Char} (h : isQuiet (c :: pre) = true)
    (word rest : List Char) : ('<' :: 's' :: word).isPrefixOf (c :: (pre ++ rest)) = false := by
  by_cases hc : '<' = c
  · subst hc
    cases pre with
    | nil => simp [isQuiet] at h
    | cons d pre =>
      simp only [isQuiet, Bool.and_eq_true, Bool.or_eq_true, decide_eq_true_eq] at h
      have hd : 's' ≠ d := by
        rcases h.1 with h | h
        · exact absurd rfl h
        · exact Ne.symm h
      simp [List.isPrefixOf, hd]
  · simp [List.isPrefixOf, hc]

theorem insertAfter_quiet {pre : List Char} (h : isQuiet pre = true) (inserted rest : List Char) :
    insertAfter opening inserted (pre ++ rest) = pre ++ insertAfter opening inserted rest := by
  induction pre with
  | nil => rfl
  | cons c pre ih =>
    have hnot : opening.isPrefixOf (c :: (pre ++ rest)) = false := not_opens h _ rest
    rw [List.cons_append, insertAfter, hnot, ih (isQuiet_tail h)]
    rfl

theorem findContent?_quiet {pre : List Char} (h : isQuiet pre = true) (rest : List Char) :
    findContent? (pre ++ rest) = findContent? rest := by
  induction pre with
  | nil => rfl
  | cons c pre ih =>
    have hnot : "<svg".toList.isPrefixOf (c :: (pre ++ rest)) = false := not_opens h _ rest
    have hnone : contentOfTag? (c :: (pre ++ rest)) = none := by
      rw [contentOfTag?, Text.after?, hnot]
      rfl
    rw [List.cons_append, findContent?, hnone, ih (isQuiet_tail h)]

/-! ## The attributes of the image element -/

theorem lastContent?_cons {c : Char} {rest : List Char} (hc : c ≠ '>')
    (hnone : contentHere? (c :: rest) = none) : lastContent? (c :: rest) = lastContent? rest := by
  rw [lastContent?, if_neg hc, hnone]
  cases lastContent? rest <;> rfl

/-- A text that the pattern of the content attribute passes over. -/
theorem lastContent?_skip {pre rest : List Char}
    (h : ∀ before c after, pre = before ++ c :: after →
      c ≠ '>' ∧ contentHere? (c :: (after ++ rest)) = none) :
    lastContent? (pre ++ rest) = lastContent? rest := by
  induction pre with
  | nil => rfl
  | cons c pre ih =>
    obtain ⟨hc, hnone⟩ := h [] c pre rfl
    rw [List.cons_append, lastContent?_cons hc hnone]
    exact ih fun before d after he => h (c :: before) d after (by rw [he]; rfl)

theorem contentHere?_of_not_blank {c : Char} (h : Text.isBlank c = false) (rest : List Char) :
    contentHere? (c :: rest) = none := by
  simp [contentHere?, h]

/-- What stands in front of a mark is decided by the text alone. -/
theorem eq_of_append_cons {mark : Char} {a b s t : List Char} (ha : mark ∉ a) (hb : mark ∉ b)
    (h : a ++ mark :: s = b ++ mark :: t) : a = b := by
  have := congrArg (until? mark) h
  rw [until?_append ha, until?_append hb] at this
  exact Option.some.inj this

/-- A name without white space, an equals sign or a bracket. -/
def isSolid (name : List Char) : Bool :=
  name.all fun c => !Text.isBlank c && c ≠ '=' && c ≠ '>'

/-- A value without reserved characters and without an equals sign. -/
def isBare (value : List Char) : Bool := value.all fun c => !isReserved c && c ≠ '='

/-- An attribute that is not taken for the content, nor is anything inside it. -/
structure Harmless (a : Attribute) : Prop where
  solid : isSolid a.name.toList = true
  other : a.name ≠ "content"
  bare : isBare a.value.toList = true

theorem isBare_iff {value : List Char} : isBare value = true ↔
    ∀ c ∈ value, isReserved c = false ∧ c ≠ '=' := by
  simp [isBare]

theorem isSolid_iff {name : List Char} : isSolid name = true ↔
    ∀ c ∈ name, (Text.isBlank c = false ∧ c ≠ '=') ∧ c ≠ '>' := by
  simp [isSolid]

theorem guardChars_bare {value : List Char} (h : isBare value = true) :
    Markup.guardChars value = value :=
  Markup.guardChars_eq_self fun c hc => (isBare_iff.mp h c hc).1

theorem content_split : "content=\"".toList = "content".toList ++ ['=', '\"'] := by decide

/-- No other name reads as that of the content. -/
theorem contentHere?_name {a : Attribute} (h : Harmless a) (value rest : List Char) :
    contentHere? (' ' :: (a.name.toList ++ '=' :: (value ++ rest))) = none := by
  have hnot : "content=\"".toList.isPrefixOf (a.name.toList ++ '=' :: (value ++ rest)) = false := by
    rw [Bool.eq_false_iff]
    intro hpre
    obtain ⟨more, hmore⟩ := List.isPrefixOf_iff_prefix.mp hpre
    rw [content_split, List.append_assoc] at hmore
    have hname : '=' ∉ a.name.toList := fun hm => (isSolid_iff.mp h.solid _ hm).1.2 rfl
    have hsame := eq_of_append_cons (by decide : '=' ∉ "content".toList) hname hmore
    exact h.other (String.toList_inj.mp hsame.symm)
  have hblank : Text.isBlank ' ' = true := by decide
  rw [contentHere?, if_pos hblank, Text.after?, hnot]
  rfl

/-- Nothing inside a bare value, up to the quote behind it, reads as a content attribute. -/
theorem contentHere?_value {c : Char} {after : List Char} (h : isBare after = true)
    (rest : List Char) : contentHere? (c :: (after ++ '\"' :: rest)) = none := by
  have hnot : "content=\"".toList.isPrefixOf (after ++ '\"' :: rest) = false := by
    rw [Bool.eq_false_iff]
    intro hpre
    obtain ⟨more, hmore⟩ := List.isPrefixOf_iff_prefix.mp hpre
    have hsplit : "content=\"".toList = "content=".toList ++ ['\"'] := by decide
    rw [hsplit, List.append_assoc] at hmore
    have hquote : '\"' ∉ after := fun hm => absurd (isBare_iff.mp h _ hm).1 (by decide)
    have hsame := eq_of_append_cons (by decide : '\"' ∉ "content=".toList) hquote hmore
    have hequals : '=' ∈ after := hsame ▸ (by decide : '=' ∈ "content=".toList)
    exact (isBare_iff.mp h _ hequals).2 rfl
  simp only [contentHere?, Text.after?, hnot]
  split <;> rfl

theorem lastContent?_attribute {a : Attribute} (h : Harmless a) (rest : List Char) :
    lastContent? (a.chars ++ rest) = lastContent? rest := by
  have hchars : a.chars ++ rest =
      ' ' :: (a.name.toList ++ '=' :: ('\"' :: (a.value.toList ++ '\"' :: rest))) := by
    simp [Attribute.chars, guardChars_bare h.bare]
  have hvalue : lastContent? (a.value.toList ++ '\"' :: rest) = lastContent? ('\"' :: rest) := by
    refine lastContent?_skip fun before c after he => ?_
    have hbare := isBare_iff.mp h.bare
    refine ⟨?_, contentHere?_value (isBare_iff.mpr fun x hx => hbare x (by simp [he, hx])) rest⟩
    rintro rfl
    exact absurd (hbare '>' (by simp [he])).1 (by decide)
  have hplain (c : Char) (hc : c ≠ '>') (hblank : Text.isBlank c = false) (rest : List Char) :
      lastContent? (c :: rest) = lastContent? rest :=
    lastContent?_cons hc (contentHere?_of_not_blank hblank rest)
  have hname : lastContent? (a.name.toList ++ '=' :: ('\"' :: (a.value.toList ++ '\"' :: rest))) =
      lastContent? ('=' :: ('\"' :: (a.value.toList ++ '\"' :: rest))) := by
    refine lastContent?_skip fun before c after he => ?_
    obtain ⟨⟨hblank, -⟩, hclose⟩ := isSolid_iff.mp h.solid c (by simp [he])
    exact ⟨hclose, contentHere?_of_not_blank hblank _⟩
  have hnone : contentHere? (' ' :: (a.name.toList ++ '=' :: ('\"' :: (a.value.toList ++
      '\"' :: rest)))) = none := contentHere?_name h ['\"'] (a.value.toList ++ '\"' :: rest)
  rw [hchars, lastContent?_cons (by decide) hnone, hname, hplain '=' (by decide) (by decide),
    hplain '\"' (by decide) (by decide), hvalue, hplain '\"' (by decide) (by decide)]

theorem lastContent?_attributes {as : List Attribute} (h : ∀ a ∈ as, Harmless a)
    (rest : List Char) :
    lastContent? (as.flatMap Attribute.chars ++ '>' :: rest) = none := by
  induction as with
  | nil => rw [List.flatMap_nil, List.nil_append, lastContent?, if_pos rfl]
  | cons a as ih =>
    rw [List.flatMap_cons, List.append_assoc, lastContent?_attribute (h a (by simp)),
      ih fun b hb => h b (by simp [hb])]

/-! ## The content attribute itself -/

/-- A packed document can stand between quotes as it is, and no blank is in it. -/
structure IsPacked (packed : List Char) : Prop where
  plain : ∀ c ∈ packed, isReserved c = false
  solid : ∀ c ∈ packed, Text.isBlank c = false

theorem isPacked_pack (deflate : List UInt8 → List UInt8)
    (inflate? : List UInt8 → Option (List UInt8)) (text : String) :
    IsPacked ((wrapping deflate inflate?).pack text).toList where
  plain := by
    have hall : ∀ n < 256, Codec.Base64.isPlain (UInt8.ofNat n) = true →
        isReserved (Codec.Packing.charOf (UInt8.ofNat n)) = false := by decide +kernel
    intro c hc
    obtain ⟨b, hb, rfl⟩ := Codec.Packing.pack_plain text c hc
    have := hall b.toNat b.toNat_lt
    rw [UInt8.ofNat_toNat] at this
    exact this hb
  solid := by
    intro c hc
    obtain ⟨b, hb, rfl⟩ := Codec.Packing.pack_plain text c hc
    exact (Codec.Packing.charOf_plain hb).2

/-- The attribute that holds a packed document. -/
def contentOf (packed : String) : Attribute := ⟨"content", packed⟩

theorem opening_split : opening = "<svg".toList ++ [' '] := by decide

theorem contentAttribute_split (packed : String) : contentAttribute packed =
    "content=\"".toList ++ Markup.guardChars packed.toList ++ ['\"', ' '] :=
  congrArg (fun rest => "content=\"".toList ++ Markup.guardChars packed.toList ++ rest)
    (by decide : "\" ".toList = ['\"', ' '])

theorem contentAttribute_eq (packed : String) (after : List Char) :
    opening ++ contentAttribute packed ++ after =
      "<svg".toList ++ ((contentOf packed).chars ++ ' ' :: after) := by
  have hname : (contentOf packed).name.toList = "content".toList := rfl
  have hvalue : (contentOf packed).value.toList = packed.toList := rfl
  rw [opening_split, contentAttribute_split, content_split, Attribute.chars, hname, hvalue]
  generalize "content".toList = name
  generalize "<svg".toList = start
  simp only [List.append_assoc, List.cons_append, List.nil_append]

/-- Nothing in the content attribute ends a tag or parts one attribute from the next. -/
theorem solid_content {packed : String} (h : IsPacked packed.toList) :
    ∀ c ∈ "content=\"".toList ++ (packed.toList ++ ['\"']), c ≠ '>' ∧ Text.isBlank c = false := by
  have hname : ∀ c ∈ "content=\"".toList, c ≠ '>' ∧ Text.isBlank c = false := by
    have hall : ("content=\"".toList.all fun c => c ≠ '>' && !Text.isBlank c) = true := by decide
    simpa using hall
  intro c hc
  rcases List.mem_append.mp hc with hc | hc
  · exact hname c hc
  · rcases List.mem_append.mp hc with hc | hc
    · refine ⟨?_, h.solid c hc⟩
      rintro rfl
      exact absurd (h.plain _ hc) (by decide)
    · rw [List.mem_singleton.mp hc]
      decide

/-- The content attribute in front of all others is the one that is found. -/
theorem lastContent?_content {packed : String} (h : IsPacked packed.toList) {rest : List Char}
    (hrest : lastContent? rest = none) :
    lastContent? ((contentOf packed).chars ++ rest) = some packed.toList := by
  have hguard : Markup.guardChars packed.toList = packed.toList := Markup.guardChars_eq_self h.plain
  have hchars : (contentOf packed).chars ++ rest =
      ' ' :: ("content=\"".toList ++ (packed.toList ++ '\"' :: rest)) := by
    simp only [contentOf, Attribute.chars, hguard, content_split, List.append_assoc,
      List.cons_append, List.nil_append]
  have hquote : '\"' ∉ packed.toList := fun hm => absurd (h.plain _ hm) (by decide)
  have hblank : Text.isBlank ' ' = true := by decide
  have hhere : contentHere? (' ' :: ("content=\"".toList ++ (packed.toList ++ '\"' :: rest))) =
      some packed.toList := by
    rw [contentHere?, if_pos hblank, Markup.after?_append, Option.bind_some, until?_append hquote]
  have hinside : lastContent? ("content=\"".toList ++ (packed.toList ++ '\"' :: rest)) = none := by
    have hsplit : "content=\"".toList ++ (packed.toList ++ '\"' :: rest) =
        "content=\"".toList ++ (packed.toList ++ ['\"']) ++ rest := by
      simp only [List.append_assoc, List.cons_append, List.nil_append]
    rw [hsplit, lastContent?_skip, hrest]
    intro before c after he
    obtain ⟨hclose, hc⟩ := solid_content h c (he ▸ by simp)
    exact ⟨hclose, contentHere?_of_not_blank hc _⟩
  rw [hchars, lastContent?, if_neg (by decide), hinside, hhere]

/-! ## The image of a model -/

theorem isBare_of_isNumeric {value : List Char} (h : ∀ c ∈ value, isNumeric c = true) :
    isBare value = true := by
  refine isBare_iff.mpr fun c hc => ⟨?_, ?_⟩
  · cases hr : isReserved c with
    | false => rfl
    | true =>
      have hnumeric := h c hc
      rcases Markup.reserved_cases hr with rfl | rfl | rfl | rfl | rfl <;>
        exact absurd hnumeric (by decide)
  · rintro rfl
    exact absurd (h '=' hc) (by decide)

theorem isBare_append {a b : List Char} (ha : isBare a = true) (hb : isBare b = true) :
    isBare (a ++ b) = true := by
  rw [isBare, List.all_append, Bool.and_eq_true]
  exact ⟨ha, hb⟩

theorem harmless_of {name value : String} (hsolid : isSolid name.toList = true)
    (hother : name ≠ "content") (hbare : isBare value.toList = true) : Harmless ⟨name, value⟩ :=
  ⟨hsolid, hother, hbare⟩

theorem harmless_root (size : Size Float32) : ∀ a ∈ rootAttributes size, Harmless a := by
  have hnumber (x : Float32) : isBare (NumberText.plain x).toList = true :=
    isBare_of_isNumeric (Single.isNumeric_plain x)
  have hpixels (x : Float32) : isBare (NumberText.plain x ++ "px").toList = true := by
    rw [String.toList_append]
    exact isBare_append (hnumber x) (by decide)
  have hbox (x y : Float32) :
      isBare ("0 0 " ++ NumberText.plain x ++ " " ++ NumberText.plain y).toList = true := by
    rw [String.toList_append, String.toList_append, String.toList_append]
    exact isBare_append (isBare_append (isBare_append (by decide) (hnumber x)) (by decide))
      (hnumber y)
  intro a ha
  simp only [rootAttributes, List.mem_cons, List.not_mem_nil, or_false] at ha
  rcases ha with rfl | rfl | rfl | rfl | rfl | rfl
  · exact ⟨by decide, by decide, by decide⟩
  · exact ⟨by decide, by decide, by decide⟩
  · exact ⟨by decide, by decide, by decide⟩
  · exact harmless_of (by decide) (by decide) (hpixels _)
  · exact harmless_of (by decide) (by decide) (hpixels _)
  · exact harmless_of (by decide) (by decide) (hbox _ _)

theorem lines_block (name : String) (as : List Attribute) (content : List Markup.Element) :
    ∃ more, (Markup.Element.block name as content).lines 0 =
      '<' :: name.toList ++ (as.flatMap Attribute.chars ++ '>' :: more) := by
  refine ⟨'\n' :: (Markup.Element.linesAll 1 content ++ Markup.endTag name), ?_⟩
  simp [Markup.Element.lines, Markup.indent, Markup.startTag, startOfTag]

/-- The text of an image: what stands in front, the tag of the outermost element, and the rest. -/
theorem draw_split (m : Model Float32) (settings : RenderSettings Float32) :
    ∃ more, (draw m settings).toList = prolog.toList ++ ("<svg".toList ++
      ((rootAttributes (Canvas.ofModel m settings).size).flatMap Attribute.chars ++
        '>' :: more)) := by
  obtain ⟨more, hmore⟩ := lines_block "svg" (rootAttributes (Canvas.ofModel m settings).size)
    (.block "defs" [] [arrowhead settings.arrowColor] :: background m.background ::
      painted (Canvas.ofModel m settings) settings m)
  refine ⟨more ++ ['\n'], ?_⟩
  rw [draw, String.toList_append, String.toList_ofList, root, hmore]
  simp only [List.append_assoc, List.cons_append]
  rfl

/-! ## Into the image and out of it -/

theorem isQuiet_prolog : isQuiet prolog.toList = true := by decide +kernel

theorem opening_cons (after : List Char) :
    ∃ more, opening ++ after = '<' :: more := ⟨_, rfl⟩

theorem isPrefixOf_opening (after : List Char) : opening.isPrefixOf (opening ++ after) = true := by
  rw [List.isPrefixOf_iff_prefix]
  exact ⟨after, rfl⟩

theorem insertAfter_opening (inserted after : List Char) :
    insertAfter opening inserted (opening ++ after) = opening ++ inserted ++ after := by
  obtain ⟨more, hmore⟩ := opening_cons after
  have hpre := isPrefixOf_opening after
  rw [hmore] at hpre ⊢
  rw [insertAfter, if_pos hpre, ← hmore, List.drop_left]

/-- The image of a model from the blank behind its first opening on. -/
theorem draw_opening (m : Model Float32) (settings : RenderSettings Float32) :
    ∃ after more, (draw m settings).toList = prolog.toList ++ (opening ++ after) ∧
      ' ' :: after = (rootAttributes (Canvas.ofModel m settings).size).flatMap Attribute.chars ++
        '>' :: more := by
  obtain ⟨more, hmore⟩ := draw_split m settings
  obtain ⟨after, hafter⟩ : ∃ after,
      (rootAttributes (Canvas.ofModel m settings).size).flatMap Attribute.chars ++ '>' :: more =
        ' ' :: after := ⟨_, rfl⟩
  refine ⟨after, more, ?_, hafter.symm⟩
  rw [hmore, hafter, opening_split, List.append_assoc, List.singleton_append]

/-- The document goes into the tag of the outermost element, in front of all attributes. -/
theorem embed_opening (packing : Packing) (xml : String) {image : String} {after : List Char}
    (h : image.toList = prolog.toList ++ (opening ++ after)) :
    (embed packing image xml).toList =
      prolog.toList ++ (opening ++ contentAttribute (packing.pack xml) ++ after) := by
  rw [embed, String.toList_ofList, h, insertAfter_quiet isQuiet_prolog, insertAfter_opening]

theorem contentOfTag?_svg {after : List Char} (h : Markup.wordEnds after = true) :
    contentOfTag? ("<svg".toList ++ after) = lastContent? after := by
  rw [contentOfTag?, Markup.after?_append]
  dsimp only
  rw [if_pos h]

theorem findContent?_embed {packing : Packing} {xml : String} (m : Model Float32)
    (settings : RenderSettings Float32) (h : IsPacked (packing.pack xml).toList) :
    findContent? (embed packing (draw m settings) xml).toList =
      some (packing.pack xml).toList := by
  obtain ⟨after, more, himage, hafter⟩ := draw_opening m settings
  have hends : Markup.wordEnds ((contentOf (packing.pack xml)).chars ++ ' ' :: after) = true :=
    Markup.wordEnds_cons (by decide) _
  have hnone : lastContent? (' ' :: after) = none := by
    rw [hafter, lastContent?_attributes (harmless_root _)]
  have htag := (contentOfTag?_svg hends).trans (lastContent?_content h hnone)
  obtain ⟨rest, hrest⟩ : ∃ rest, "<svg".toList ++ ((contentOf (packing.pack xml)).chars ++
      ' ' :: after) = '<' :: rest := ⟨_, rfl⟩
  rw [embed_opening _ _ himage, findContent?_quiet isQuiet_prolog, contentAttribute_eq, hrest]
  rw [hrest] at htag
  rw [findContent?, htag]

theorem unescape_packed {packed : String} (h : IsPacked packed.toList) :
    Markup.unescape (String.ofList packed.toList) = packed := by
  have hescape : Markup.escapeChars packed.toList = packed.toList :=
    Markup.escapeChars_eq_self h.plain
  have hread := Markup.unescapeChars_escapeChars packed.toList
  rw [hescape] at hread
  rw [Markup.unescape, String.toList_ofList, hread, String.ofList_toList]

/-- A document is got out of the image of any model as it was put in. -/
theorem extract_embed {deflate : List UInt8 → List UInt8}
    {inflate? : List UInt8 → Option (List UInt8)}
    (h : ∀ bytes, inflate? (deflate bytes) = some bytes) (m : Model Float32) (settings : RenderSettings Float32) (xml : String) :
    extract (wrapping deflate inflate?) (embed (wrapping deflate inflate?) (draw m settings) xml) =
      .ok xml := by
  have hpacked := isPacked_pack deflate inflate? xml
  rw [extract, findContent?_embed m settings hpacked]
  dsimp only
  rw [unescape_packed hpacked, Codec.Packing.unpack_pack h]
  rfl

/-! ## Taking the document away -/

/-- The text behind the opening without a content attribute in front. -/
def dropContent (text : List Char) : List Char :=
  match Text.after? "content=\"".toList text with
  | some value => (value.dropWhile (· ≠ '\"')).drop 2
  | none => text

/-- The image without the content attribute behind its first opening. -/
def withoutContent : List Char → List Char
  | [] => []
  | c :: rest =>
    if opening.isPrefixOf (c :: rest) then
      opening ++ dropContent ((c :: rest).drop opening.length)
    else c :: withoutContent rest

theorem withoutContent_quiet {pre : List Char} (h : isQuiet pre = true) (rest : List Char) :
    withoutContent (pre ++ rest) = pre ++ withoutContent rest := by
  induction pre with
  | nil => rfl
  | cons c pre ih =>
    have hnot : opening.isPrefixOf (c :: (pre ++ rest)) = false := not_opens h _ rest
    rw [List.cons_append, withoutContent, hnot, ih (isQuiet_tail h)]
    rfl

theorem withoutContent_opening (after : List Char) :
    withoutContent (opening ++ after) = opening ++ dropContent after := by
  obtain ⟨more, hmore⟩ := opening_cons after
  have hpre := isPrefixOf_opening after
  rw [hmore] at hpre ⊢
  rw [withoutContent, if_pos hpre, ← hmore, List.drop_left]

theorem dropContent_contentAttribute {packed : String} (after : List Char) :
    dropContent (contentAttribute packed ++ after) = after := by
  have hquote : ∀ c ∈ Markup.guardChars packed.toList, (c ≠ '\"') := fun c hc =>
    (Markup.quotable_guardChars _ c hc).2.2.1
  have hdrop : (Markup.guardChars packed.toList ++ '\"' :: ' ' :: after).dropWhile (· ≠ '\"') =
      '\"' :: ' ' :: after := by
    rw [List.dropWhile_append_of_pos (by simpa using hquote)]
    simp
  rw [contentAttribute_split, List.append_assoc, List.append_assoc]
  rw [dropContent, Markup.after?_append]
  exact congrArg (List.drop 2) hdrop

/-- What is left of an image when the document is taken away is the image before. -/
theorem withoutContent_embed (packing : Packing) (m : Model Float32)
    (settings : RenderSettings Float32) (xml : String) :
    withoutContent (embed packing (draw m settings) xml).toList = (draw m settings).toList := by
  obtain ⟨after, more, himage, -⟩ := draw_opening m settings
  rw [embed_opening _ _ himage, withoutContent_quiet isQuiet_prolog, List.append_assoc,
    withoutContent_opening, dropContent_contentAttribute, himage]

end DiagramPress.Image
