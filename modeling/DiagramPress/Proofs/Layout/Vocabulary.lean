-- The settings of a container as texts in its frame: they are read as they were
-- written, except that a distance below zero is replaced by its default. All that
-- is asked of the numbers is that each one reads back from its own text.
import DiagramPress.Proofs.Geometry.Covering
import DiagramPress.Proofs.Number.Fractions
import DiagramPress.Number.Single

namespace DiagramPress

/-! ## Lookups -/

namespace TextMap

theorem lookup_cons (name key value : String) (rest : List (String × String)) :
    ((key, value) :: rest).lookup name = if name = key then some value else rest.lookup name := by
  by_cases hname : name = key
  · simp [hname]
  · rw [List.lookup_cons, beq_false_of_ne hname, if_neg hname]

theorem lookup_insertEntry (key value name : String) (entries : List (String × String)) :
    (insertEntry key value entries).lookup name =
      if name = key then some value else entries.lookup name := by
  induction entries with
  | nil => exact lookup_cons name key value []
  | cons entry rest ih =>
    obtain ⟨k, v⟩ := entry
    unfold insertEntry
    by_cases hlt : key < k
    · rw [if_pos hlt, lookup_cons]
    · rw [if_neg hlt]
      by_cases hkey : key = k
      · rw [if_pos hkey, lookup_cons, lookup_cons, ← hkey]
        split <;> rfl
      · rw [if_neg hkey, lookup_cons, lookup_cons, ih]
        by_cases hname : name = k
        · simp [hname, Ne.symm hkey]
        · rw [if_neg hname, if_neg hname]

theorem get?_insert (m : TextMap) (key value name : String) :
    (m.insert key value).get? name = if name = key then some value else m.get? name :=
  lookup_insertEntry key value name m.entries

end TextMap

theorem Frame.get?_withOption {α : Type} (f : Frame α) (key value name : String) :
    (f.withOption key value).options.get? name =
      if name = key then some value else f.options.get? name :=
  TextMap.get?_insert f.options key value name

/-! ## Words -/

theorem Method.parse?_word (m : Method) : Method.parse? m.word = some m := by
  cases m <;> decide

theorem Flow.parse?_word (f : Flow) : Flow.parse? f.word = some f := by
  cases f <;> decide

/-! ## The text of a padding -/

namespace Padding

/-- A character that ends or splits a piece of a padding, or white space. -/
def isSeparator (c : Char) : Bool := c = ']' || c = ',' || c = '=' || Text.isBlank c

/-- A character that a padding is put together with, or white space. -/
def isMark (c : Char) : Bool := c = '[' || c = ']' || c = ',' || c = '=' || Text.isBlank c

theorem isMark_of_isDigit {c : Char} (h : c.isDigit = true) : isMark c = false := by
  have hvalue : 48 ≤ c.toNat ∧ c.toNat ≤ 57 := by
    simpa [Char.isDigit, UInt32.le_iff_toNat_le] using h
  have hne (mark : Char) (hmark : mark.isDigit = false) : c ≠ mark := by
    rintro rfl
    rw [h] at hmark
    cases hmark
  have hblank : Text.isBlank c = false := by
    simp only [Text.isBlank, Bool.or_eq_false_iff, Bool.and_eq_false_iff, decide_eq_false_iff_not]
    omega
  simp [isMark, hblank, hne '[' (by decide), hne ']' (by decide), hne ',' (by decide),
    hne '=' (by decide)]

theorem isSeparator_of_isMark {c : Char} (h : isMark c = false) : isSeparator c = false := by
  simp only [isMark, Bool.or_eq_false_iff] at h
  obtain ⟨⟨⟨⟨-, hclose⟩, hcomma⟩, hequals⟩, hblank⟩ := h
  simp only [isSeparator, hclose, hcomma, hequals, hblank, Bool.or_self]

end Padding

/-- The number reads back from its text, which holds no separator of a padding. -/
structure NumberText.ReadsBack {α : Type} [NumberText α] (a : α) : Prop where
  read_plain : NumberText.read? (NumberText.plain a) = some a
  isSeparator_plain : ∀ c ∈ (NumberText.plain a).toList, Padding.isSeparator c = false

theorem NumberText.ReadsBack.of_all {α : Type} [NumberText α] {a : α}
    (hread : NumberText.read? (NumberText.plain a) = some a)
    (hplain : ((NumberText.plain a).toList.all fun c => !Padding.isSeparator c) = true) :
    NumberText.ReadsBack a where
  read_plain := hread
  isSeparator_plain c hc := by simpa using List.all_eq_true.mp hplain c hc

/-- Numbers read back from their texts, and no text has a mark of a padding in it. -/
class ExactText (α : Type) [NumberText α] : Prop where
  read_plain (a : α) : NumberText.read? (NumberText.plain a) = some a
  isMark_plain (a : α) : ∀ c ∈ (NumberText.plain a).toList, Padding.isMark c = false

theorem ExactText.readsBack {α : Type} [NumberText α] [ExactText α] (a : α) :
    NumberText.ReadsBack a where
  read_plain := ExactText.read_plain a
  isSeparator_plain c hc := Padding.isSeparator_of_isMark (ExactText.isMark_plain a c hc)

instance : ExactText ℚ where
  read_plain := Fraction.read?_toString
  isMark_plain q c hc := by
    rcases Fraction.mem_toString_rat hc with hdigit | rfl | rfl
    · exact Padding.isMark_of_isDigit hdigit
    · decide
    · decide

namespace Padding

variable {α : Type}

/-- The padding with another amount on the named side. -/
def withSide (p : Padding α) (amount : α) : String → Padding α
  | "top" => { p with top := amount }
  | "left" => { p with left := amount }
  | "bottom" => { p with bottom := amount }
  | "right" => { p with right := amount }
  | _ => p

variable [NumberText α]

/-- Every side reads back from its text. -/
structure ReadsBack (p : Padding α) : Prop where
  top : NumberText.ReadsBack p.top
  left : NumberText.ReadsBack p.left
  bottom : NumberText.ReadsBack p.bottom
  right : NumberText.ReadsBack p.right

/-- The piece of a text that gives one side. -/
def piece (side : String) (amount : α) : List Char :=
  side.toList ++ '=' :: (NumberText.plain amount).toList

theorem trim_of_no_separators {cs : List Char} (h : ∀ c ∈ cs, isSeparator c = false) :
    Text.trim cs = cs := by
  refine Text.trim_of_no_blanks fun c hc => ?_
  have hplain := h c hc
  simp only [isSeparator, Bool.or_eq_false_iff] at hplain
  exact hplain.2

section

variable {side : String} (hside : ∀ c ∈ side.toList, isSeparator c = false) {amount : α}
  (hamount : NumberText.ReadsBack amount)
include hside hamount

theorem readSide_piece (p : Padding α) :
    readSide p (piece side amount) = withSide p amount side := by
  have hequals : '=' ∉ side.toList := fun h => absurd (hside _ h) (by decide)
  unfold readSide piece
  rw [Text.splitOnce?_append hequals]
  simp only [trim_of_no_separators hside, trim_of_no_separators hamount.isSeparator_plain,
    String.ofList_toList, hamount.read_plain]
  rfl

/-- The only separator in a piece is the sign between the side and its amount. -/
theorem mem_piece {c : Char} (hc : c ∈ piece side amount) : c = '=' ∨ isSeparator c = false := by
  rcases List.mem_append.mp hc with hc | hc
  · exact .inr (hside c hc)
  · rcases List.mem_cons.mp hc with rfl | hc
    · exact .inl rfl
    · exact .inr (hamount.isSeparator_plain c hc)

end

/-- The sides in the order in which they are written. -/
def sides : List String := ["top", "left", "bottom", "right"]

theorem isSeparator_sides {side : String} (hside : side ∈ sides) :
    ∀ c ∈ side.toList, isSeparator c = false := by
  have hall : (sides.all fun side => side.toList.all fun c => !isSeparator c) = true := by decide
  have hchars := List.all_eq_true.mp (List.all_eq_true.mp hall side hside)
  exact fun c hc => by simpa using hchars c hc

/-- The text between the brackets. -/
def inner (p : Padding α) : List Char :=
  piece "top" p.top ++ ',' :: (piece "left" p.left ++ ',' ::
    (piece "bottom" p.bottom ++ ',' :: piece "right" p.right))

theorem toList_text (p : Padding α) : p.text.toList = '[' :: (inner p ++ [']']) := by
  have hopen : "[top=".toList = '[' :: ("top".toList ++ ['=']) := by decide
  have hleft : ",left=".toList = ',' :: ("left".toList ++ ['=']) := by decide
  have hbottom : ",bottom=".toList = ',' :: ("bottom".toList ++ ['=']) := by decide
  have hright : ",right=".toList = ',' :: ("right".toList ++ ['=']) := by decide
  have hclose : "]".toList = [']'] := by decide
  simp only [text, inner, piece, String.toList_append, hopen, hleft, hbottom, hright, hclose,
    List.cons_append, List.append_assoc, List.nil_append]

theorem head?_inner (p : Padding α) : (inner p).head? = some 't' := by
  have htop : "top".toList = ['t', 'o', 'p'] := by decide
  rw [inner, piece, htop]
  rfl

namespace ReadsBack

variable {p : Padding α} (h : p.ReadsBack)
include h

theorem mem_inner {c : Char} (hc : c ∈ inner p) : c = ',' ∨ c = '=' ∨ isSeparator c = false := by
  simp only [inner, List.mem_append, List.mem_cons] at hc
  rcases hc with hc | rfl | hc | rfl | hc | rfl | hc
  · exact .inr (mem_piece (isSeparator_sides (by decide)) h.top hc)
  · exact .inl rfl
  · exact .inr (mem_piece (isSeparator_sides (by decide)) h.left hc)
  · exact .inl rfl
  · exact .inr (mem_piece (isSeparator_sides (by decide)) h.bottom hc)
  · exact .inl rfl
  · exact .inr (mem_piece (isSeparator_sides (by decide)) h.right hc)

theorem trim_text : Text.trim p.text.toList = p.text.toList := by
  refine Text.trim_of_no_blanks fun c hc => ?_
  rw [toList_text, List.mem_cons, List.mem_append, List.mem_singleton] at hc
  rcases hc with rfl | hc | rfl
  · decide
  · rcases h.mem_inner hc with rfl | rfl | hplain
    · decide
    · decide
    · simp only [isSeparator, Bool.or_eq_false_iff] at hplain
      exact hplain.2
  · decide

/-- The brackets are taken off again. An amount may begin with a bracket, but the text between
the brackets begins with the name of a side. -/
theorem between_brackets :
    ((p.text.toList.dropWhile (· = '[')).reverse.dropWhile (· = ']')).reverse = inner p := by
  have hopen : (inner p ++ [']']).dropWhile (· = '[') = inner p ++ [']'] := by
    obtain ⟨rest, hrest⟩ := List.head?_eq_some_iff.mp (head?_inner p)
    rw [hrest, List.cons_append, List.dropWhile_cons_of_neg (by decide)]
  have hclose : (inner p).reverse.dropWhile (· = ']') = (inner p).reverse := by
    refine Text.dropWhile_of_none fun c hc => ?_
    rw [decide_eq_false_iff_not]
    rintro rfl
    rcases h.mem_inner (List.mem_reverse.mp hc) with hc | hc | hc <;> exact absurd hc (by decide)
  rw [toList_text, List.dropWhile_cons_of_pos (by decide), hopen, List.reverse_append,
    List.reverse_singleton, List.singleton_append, List.dropWhile_cons_of_pos (by decide), hclose,
    List.reverse_reverse]

theorem split_inner : Text.split (· = ',') (inner p) =
    [piece "top" p.top, piece "left" p.left, piece "bottom" p.bottom, piece "right" p.right] := by
  have hcomma {side : String} (hside : side ∈ sides) {amount : α}
      (hamount : NumberText.ReadsBack amount) :
      ∀ c ∈ piece side amount, decide (c = ',') = false := by
    intro c hc
    rw [decide_eq_false_iff_not]
    rintro rfl
    rcases mem_piece (isSeparator_sides hside) hamount hc with h | h <;> exact absurd h (by decide)
  rw [inner, Text.split_piece (hcomma (by decide) h.top) (by decide),
    Text.split_piece (hcomma (by decide) h.left) (by decide),
    Text.split_piece (hcomma (by decide) h.bottom) (by decide),
    Text.split_last (hcomma (by decide) h.right)]

/-- A padding is read as it was written, whatever the default. -/
theorem read_text (default : Padding α) : read p.text default = p := by
  unfold read
  simp only [h.trim_text, h.between_brackets, h.split_inner, List.foldl_cons, List.foldl_nil]
  rw [readSide_piece (isSeparator_sides (by decide)) h.top,
    readSide_piece (isSeparator_sides (by decide)) h.left,
    readSide_piece (isSeparator_sides (by decide)) h.bottom,
    readSide_piece (isSeparator_sides (by decide)) h.right]
  rfl

end ReadsBack

end Padding

/-! ## The settings of a container -/

namespace ContainerSettings

/-- No distance and no side of the padding is negative. -/
structure Nonneg {α : Type} [Scalar α] (s : ContainerSettings α) : Prop where
  nodeSpacing : 0 ≤ s.nodeSpacing
  layerSpacing : 0 ≤ s.layerSpacing
  padding : s.padding.Nonneg

section

variable {α : Type} [NumberText α]

/-- The options that settings are written as. -/
def entries (s : ContainerSettings α) : List (String × String) :=
  [(methodKey, s.method.word), (flowKey, s.flow.word),
    (nodeSpacingKey, NumberText.plain s.nodeSpacing),
    (layerSpacingKey, NumberText.plain s.layerSpacing), (paddingKey, s.padding.text)]

theorem get?_write {s : ContainerSettings α} {key value : String} (h : (key, value) ∈ s.entries)
    (f : Frame α) : (s.write f).options.get? key = some value := by
  simp only [entries, List.mem_cons, Prod.mk.injEq, List.not_mem_nil, or_false] at h
  unfold write
  rcases h with ⟨rfl, rfl⟩ | ⟨rfl, rfl⟩ | ⟨rfl, rfl⟩ | ⟨rfl, rfl⟩ | ⟨rfl, rfl⟩ <;>
    simp [Frame.get?_withOption, methodKey, flowKey, nodeSpacingKey, layerSpacingKey, paddingKey]

variable [Scalar α]

theorem read_congr {f g : Frame α} (h : f.options = g.options) : read f = read g := by
  simp only [read, readDistance, h]

def keys : List String := [methodKey, flowKey, nodeSpacingKey, layerSpacingKey, paddingKey]

/-- Other options of a frame do not matter for its settings. -/
theorem read_withOption {key : String} (hkey : key ∉ keys) (f : Frame α) (value : String) :
    read (f.withOption key value) = read f := by
  simp only [keys, List.mem_cons, List.not_mem_nil, or_false, not_or] at hkey
  obtain ⟨hmethod, hflow, hnode, hlayer, hpadding⟩ := hkey
  simp only [read, readDistance, Frame.get?_withOption, if_neg (Ne.symm hmethod),
    if_neg (Ne.symm hflow), if_neg (Ne.symm hnode), if_neg (Ne.symm hlayer),
    if_neg (Ne.symm hpadding)]

end

section

variable {α : Type} [NumberText α]

/-- Every number of the settings reads back from its text. -/
structure ReadsBack (s : ContainerSettings α) : Prop where
  nodeSpacing : NumberText.ReadsBack s.nodeSpacing
  layerSpacing : NumberText.ReadsBack s.layerSpacing
  padding : s.padding.ReadsBack

variable [Scalar α]

theorem readDistance_plain {f : Frame α} {key : String} {a : α}
    (hwritten : f.options.get? key = some (NumberText.plain a)) (hread : NumberText.ReadsBack a)
    (ha : 0 ≤ a) (default : α) : readDistance f key default = a := by
  rw [readDistance, hwritten, Option.bind_some, hread.read_plain]
  exact if_pos ha

/-- Settings without negative distances are read as they were written. -/
theorem ReadsBack.read_write {s : ContainerSettings α} (h : s.ReadsBack)
    (hnode : 0 ≤ s.nodeSpacing) (hlayer : 0 ≤ s.layerSpacing) (f : Frame α) :
    read (s.write f) = s := by
  have hmethod : (s.write f).options.get? methodKey = some s.method.word :=
    get?_write (by simp [entries]) f
  have hflow : (s.write f).options.get? flowKey = some s.flow.word :=
    get?_write (by simp [entries]) f
  have hnodeText : (s.write f).options.get? nodeSpacingKey =
      some (NumberText.plain s.nodeSpacing) := get?_write (by simp [entries]) f
  have hlayerText : (s.write f).options.get? layerSpacingKey =
      some (NumberText.plain s.layerSpacing) := get?_write (by simp [entries]) f
  have hpadding : (s.write f).options.get? paddingKey = some s.padding.text :=
    get?_write (by simp [entries]) f
  unfold read
  rw [hmethod, hflow, hpadding, readDistance_plain hnodeText h.nodeSpacing hnode,
    readDistance_plain hlayerText h.layerSpacing hlayer]
  simp only [Option.bind_some, Option.map_some, Option.getD_some, Method.parse?_word,
    Flow.parse?_word, h.padding.read_text]

/-- What is written is read again, with any default for the sides of the padding. -/
theorem settings_are_read_as_they_are_written {s : ContainerSettings α} (h : s.ReadsBack) :
    (0 ≤ s.nodeSpacing → 0 ≤ s.layerSpacing → ∀ f : Frame α, read (s.write f) = s) ∧
      ∀ default : Padding α, Padding.read s.padding.text default = s.padding := by
  constructor
  · intro hnode hlayer f
    exact h.read_write hnode hlayer f
  · intro default
    exact h.padding.read_text default

/-- Floats that have no short decimal form, and a padding that is negative on two sides. -/
def unevenSettings : ContainerSettings Float32 where
  method := .radial
  flow := .left
  nodeSpacing := 0
  layerSpacing := Scalar.decimal 1 1
  padding := ⟨-(Scalar.decimal 25 1), 1 / 3, -(Scalar.decimal 1 9), Scalar.ofNat (10 ^ 30)⟩

/-- A frame with other settings. -/
def dressedFrame : Frame Float32 :=
  ((Frame.container "root").withOption methodKey "force").withOption paddingKey "[left=[7]"

theorem uneven_settings_are_read_again :
    (unevenSettings.ReadsBack ∧ 0 ≤ unevenSettings.nodeSpacing ∧
        0 ≤ unevenSettings.layerSpacing) ∧
      read (unevenSettings.write dressedFrame) = unevenSettings ∧
      Padding.read unevenSettings.padding.text (Padding.uniform 7) = unevenSettings.padding := by
  have hnumbers : unevenSettings.ReadsBack :=
    ⟨.of_all (by decide +kernel) (by decide +kernel),
      .of_all (by decide +kernel) (by decide +kernel),
      .of_all (by decide +kernel) (by decide +kernel),
      .of_all (by decide +kernel) (by decide +kernel),
      .of_all (by decide +kernel) (by decide +kernel),
      .of_all (by decide +kernel) (by decide +kernel)⟩
  have hnode : 0 ≤ unevenSettings.nodeSpacing := by decide +kernel
  have hlayer : 0 ≤ unevenSettings.layerSpacing := by decide +kernel
  obtain ⟨hwritten, hpadding⟩ := settings_are_read_as_they_are_written hnumbers
  exact ⟨⟨hnumbers, hnode, hlayer⟩, hwritten hnode hlayer _, hpadding _⟩

end

section

variable {α : Type} [NumberText α] [ExactText α]

theorem readsBack (s : ContainerSettings α) : s.ReadsBack where
  nodeSpacing := ExactText.readsBack _
  layerSpacing := ExactText.readsBack _
  padding := ⟨ExactText.readsBack _, ExactText.readsBack _, ExactText.readsBack _,
    ExactText.readsBack _⟩

variable [ExactScalar α]

theorem read_write {s : ContainerSettings α} (hnode : 0 ≤ s.nodeSpacing)
    (hlayer : 0 ≤ s.layerSpacing) (f : Frame α) : read (s.write f) = s :=
  s.readsBack.read_write (Scalar.nonneg_iff.mpr hnode) (Scalar.nonneg_iff.mpr hlayer) f

end

end ContainerSettings

end DiagramPress
