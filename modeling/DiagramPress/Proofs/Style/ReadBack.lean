-- The text of a style reads back as the style exactly if its keys are distinct and no
-- mark of the text stands in a key or a value. All styles that are read are of this kind.
import DiagramPress.Proofs.Text.Words
import DiagramPress.Style
import Mathlib.Data.List.Nodup

namespace DiagramPress.Style

/-! ## Texts inside a style -/

/-- A text that ends nowhere but at the next semicolon: it has none itself, and no
blanks at its ends that the reader would drop. -/
def Clean (text : String) : Prop := ';' ∉ text.toList ∧ Text.Trimmed text.toList

instance (text : String) : Decidable (Clean text) := inferInstanceAs (Decidable (_ ∧ _))

/-- A clean text that does not end at an equals sign either. -/
def IsKey (text : String) : Prop := '=' ∉ text.toList ∧ Clean text

instance (text : String) : Decidable (IsKey text) := inferInstanceAs (Decidable (_ ∧ _))

namespace Entry

@[simp]
theorem key_flag (name : String) : (flag name).key = name := rfl

@[simp]
theorem key_pair (key value : String) : (pair key value).key = key := rfl

/-- The text of the entry can be taken for nothing else. -/
def Readable : Entry → Prop
  | .flag name => name ≠ "" ∧ IsKey name
  | .pair key value => IsKey key ∧ Clean value

/-- The text of an entry without its semicolon. -/
def chars : Entry → List Char
  | .flag name => name.toList
  | .pair key value => key.toList ++ '=' :: value.toList

theorem toList_text (e : Entry) : e.text.toList = e.chars ++ [';'] := by
  cases e <;> simp [text, chars]

theorem Readable.no_semicolon {e : Entry} (h : e.Readable) : ';' ∉ e.chars := by
  cases e with
  | flag name => exact h.2.2.1
  | pair key value =>
    obtain ⟨⟨-, hkey, -⟩, hvalue, -⟩ := h
    simp [chars, hkey, hvalue]

/-- The equals sign keeps the blanks inside a pair away from its ends. -/
theorem Readable.trimmed {e : Entry} (h : e.Readable) : Text.Trimmed e.chars := by
  cases e with
  | flag name => exact h.2.2.2
  | pair key value =>
    obtain ⟨⟨-, -, hfirst, -⟩, -, -, hlast⟩ := h
    refine ⟨fun c hc => ?_, fun c hc => ?_⟩
    · rw [chars, List.head?_append] at hc
      cases hkey : key.toList.head? with
      | none =>
        rw [hkey] at hc
        obtain rfl : '=' = c := Option.some.inj hc
        decide
      | some d =>
        rw [hkey] at hc
        exact hfirst c (hkey.trans hc)
    · rw [chars, List.getLast?_append, List.getLast?_cons] at hc
      cases hvalue : value.toList.getLast? with
      | none =>
        rw [hvalue] at hc
        obtain rfl : '=' = c := Option.some.inj hc
        decide
      | some d =>
        rw [hvalue] at hc
        exact hlast c (hvalue.trans hc)

end Entry

/-- The text of each entry stands for this entry and no other one. -/
structure Readable (s : Style) : Prop where
  keys_nodup : (s.entries.map Entry.key).Nodup
  entries : ∀ e ∈ s.entries, e.Readable

theorem readable_empty : empty.Readable :=
  ⟨List.nodup_nil, fun _ he => absurd he List.not_mem_nil⟩

theorem toList_text (s : Style) :
    s.text.toList = s.entries.flatMap fun e => e.chars ++ [';'] := by
  rw [text]
  induction s.entries with
  | nil => rfl
  | cons e es ih =>
    rw [List.map_cons, String.join_cons, String.toList_append, ih, e.toList_text, List.flatMap_cons]

/-! ## Putting entries into a style -/

theorem replace_of_not_mem {e : Entry} {es : List Entry} (h : e.key ∉ es.map Entry.key) :
    replace e es = es ++ [e] := by
  induction es with
  | nil => rfl
  | cons x es ih =>
    rw [List.map_cons, List.mem_cons, not_or] at h
    rw [replace, if_neg (Ne.symm h.1), ih h.2, List.cons_append]

theorem map_key_replace {e : Entry} {es : List Entry} (h : e.key ∈ es.map Entry.key) :
    (replace e es).map Entry.key = es.map Entry.key := by
  induction es with
  | nil => cases h
  | cons x es ih =>
    rw [replace]
    split
    · rename_i hx
      rw [List.map_cons, List.map_cons, hx]
    · rename_i hx
      have hrest := (List.mem_cons.mp h).resolve_left (Ne.symm hx)
      rw [List.map_cons, List.map_cons, ih hrest]

theorem mem_replace {e x : Entry} {es : List Entry} (h : x ∈ replace e es) : x = e ∨ x ∈ es := by
  induction es with
  | nil => exact .inl (List.mem_singleton.mp h)
  | cons y es ih =>
    rw [replace] at h
    split at h
    · exact (List.mem_cons.mp h).imp_right (List.mem_cons_of_mem y)
    · rcases List.mem_cons.mp h with rfl | h
      · exact .inr List.mem_cons_self
      · exact (ih h).imp_right (List.mem_cons_of_mem y)

/-- What the reader does with an entry. -/
def put (s : Style) : Entry → Style
  | .flag name => s.setFlag name
  | .pair key value => s.set key value

/-- An entry with a key of its own comes last. -/
theorem put_new {s : Style} {e : Entry} (h : e.key ∉ s.entries.map Entry.key) :
    s.put e = ⟨s.entries ++ [e]⟩ := by
  cases e with
  | flag name =>
    have hname : name ∉ s.entries.map Entry.key := h
    have hnone : ¬ (s.entries.any fun e => e.key = name) = true := by simpa using hname
    rw [put, setFlag, if_neg hnone]
  | pair key value => rw [put, set, replace_of_not_mem h]

/-- A flag whose name is known already changes nothing. -/
theorem put_flag_of_mem {s : Style} {name : String} (h : name ∈ s.entries.map Entry.key) :
    s.put (.flag name) = s := by
  have hsome : (s.entries.any fun e => e.key = name) = true := by simpa using h
  rw [put, setFlag, if_pos hsome]

theorem nodup_keys_put {s : Style} (hs : (s.entries.map Entry.key).Nodup) (e : Entry) :
    ((s.put e).entries.map Entry.key).Nodup := by
  by_cases hkey : e.key ∈ s.entries.map Entry.key
  · cases e with
    | flag name =>
      rw [Entry.key_flag] at hkey
      rwa [put_flag_of_mem hkey]
    | pair key value => rwa [put, set, map_key_replace hkey]
  · rw [put_new hkey, List.map_append, List.map_singleton, ← List.concat_eq_append]
    exact List.Nodup.concat hkey hs

theorem mem_put {s : Style} {e x : Entry} (h : x ∈ (s.put e).entries) : x = e ∨ x ∈ s.entries := by
  cases e with
  | flag name =>
    by_cases hkey : name ∈ s.entries.map Entry.key
    · rw [put_flag_of_mem hkey] at h
      exact .inr h
    · rw [put_new hkey] at h
      exact (List.mem_append.mp h).symm.imp_left List.mem_singleton.mp
  | pair key value => exact mem_replace h

theorem Readable.put {s : Style} (hs : s.Readable) {e : Entry} (he : e.Readable) :
    (s.put e).Readable := by
  refine ⟨nodup_keys_put hs.keys_nodup e, fun x hx => ?_⟩
  rcases mem_put hx with rfl | hx
  · exact he
  · exact hs.entries x hx

theorem Readable.set {s : Style} (hs : s.Readable) (key : String) (hkey : IsKey key)
    {value : String} (hvalue : Clean value) : (s.set key value).Readable := by
  have he : (Entry.pair key value).Readable := ⟨hkey, hvalue⟩
  exact hs.put he

/-! ## Reading a text -/

/-- The reader takes a readable entry for itself. -/
theorem addPiece_chars (s : Style) {e : Entry} (h : e.Readable) : addPiece s e.chars = s.put e := by
  rw [addPiece, Text.trim_of_trimmed h.trimmed]
  cases e with
  | flag name =>
    obtain ⟨hne, hequals, -⟩ := h
    have hsome : ¬ name.toList.isEmpty = true := by simpa using hne
    simp only [Entry.chars, if_neg hsome, Text.splitOnce?_of_not_mem hequals, String.ofList_toList,
      put]
  | pair key value =>
    obtain ⟨⟨hequals, hkey⟩, hvalue⟩ := h
    have hsome : ¬ (key.toList ++ '=' :: value.toList).isEmpty = true := by simp
    simp only [Entry.chars, if_neg hsome, Text.splitOnce?_append hequals,
      Text.trim_of_trimmed hkey.2, Text.trim_of_trimmed hvalue.2, String.ofList_toList, put]

theorem semicolon_not_mem_piece {text piece : List Char} (h : piece ∈ Text.split (· = ';') text) :
    ';' ∉ piece := by
  intro hm
  simpa using Text.not_mark_of_mem_split h ';' hm

/-- A piece of a style text adds nothing or a readable entry that is no longer. -/
theorem addPiece_cases (s : Style) {piece : List Char} (h : ';' ∉ piece) :
    addPiece s piece = s ∨
      ∃ e : Entry, e.Readable ∧ addPiece s piece = s.put e ∧ e.chars.length ≤ piece.length := by
  have hclean {part : List Char} (hpart : part.Sublist piece) :
      Clean (String.ofList (Text.trim part)) := by
    have hsub := (Text.trim_sublist part).trans hpart
    rw [Clean, String.toList_ofList]
    exact ⟨fun hm => h (hsub.subset hm), Text.trimmed_trim part⟩
  have htrim := (Text.trim_sublist piece).length_le
  rw [addPiece]
  split
  · exact .inl rfl
  · rename_i hne
    refine .inr ?_
    split
    · rename_i key value hsplit
      obtain ⟨hpiece, hequals⟩ := Text.eq_of_splitOnce? hsplit
      have hparts : key.Sublist piece ∧ value.Sublist piece := by
        have hsub := Text.trim_sublist piece
        rw [hpiece] at hsub
        exact ⟨(List.sublist_append_left _ _).trans hsub,
          ((List.sublist_cons_self _ _).trans (List.sublist_append_right _ _)).trans hsub⟩
      refine ⟨.pair (String.ofList (Text.trim key)) (String.ofList (Text.trim value)),
        ⟨⟨?_, hclean hparts.1⟩, hclean hparts.2⟩, rfl, ?_⟩
      · rw [String.toList_ofList]
        exact fun hm => hequals ((Text.trim_sublist key).subset hm)
      · have hkey := (Text.trim_sublist key).length_le
        have hvalue := (Text.trim_sublist value).length_le
        rw [hpiece, List.length_append, List.length_cons] at htrim
        simp only [Entry.chars, String.toList_ofList, List.length_append, List.length_cons]
        omega
    · rename_i hsplit
      refine ⟨.flag (String.ofList (Text.trim piece)),
        ⟨?_, ?_, hclean (List.Sublist.refl piece)⟩, rfl, ?_⟩
      · intro hempty
        exact hne (by simpa using congrArg String.toList hempty)
      · rw [String.toList_ofList]
        exact Text.not_mem_of_splitOnce? hsplit
      · rw [Entry.chars, String.toList_ofList]
        exact htrim

/-- Every text is read as a style that is readable in its own text. -/
theorem readable_parse (text : String) : (parse text).Readable := by
  have hpieces : ∀ piece ∈ Text.split (· = ';') text.toList, ';' ∉ piece :=
    fun _ => semicolon_not_mem_piece
  -- What was read so far is readable, whatever piece comes next.
  have hs := readable_empty
  rw [parse]
  generalize Text.split (· = ';') text.toList = pieces at hpieces
  generalize empty = s at hs ⊢
  induction pieces generalizing s with
  | nil => exact hs
  | cons piece pieces ih =>
    obtain ⟨hpiece, hrest⟩ := List.forall_mem_cons.mp hpieces
    rw [List.foldl_cons]
    rcases addPiece_cases s hpiece with hsame | ⟨e, he, hput, -⟩
    · exact ih hrest (addPiece s piece) (hsame.symm ▸ hs)
    · exact ih hrest (addPiece s piece) (hput.symm ▸ hs.put he)

/-- The entries that are still to be read are added one by one to those that were read. -/
theorem foldl_addPiece_entries (seen rest : List Entry)
    (hkeys : ((seen ++ rest).map Entry.key).Nodup) (h : ∀ e ∈ rest, e.Readable) :
    (Text.split (· = ';') (rest.flatMap fun e => e.chars ++ [';'])).foldl addPiece ⟨seen⟩ =
      ⟨seen ++ rest⟩ := by
  induction rest generalizing seen with
  | nil =>
    rw [List.append_nil]
    rfl
  | cons e rest ih =>
    obtain ⟨he, hrest⟩ := List.forall_mem_cons.mp h
    have hplain : ∀ c ∈ e.chars, decide (c = ';') = false := by
      intro c hc
      simpa using fun hsemi : c = ';' => he.no_semicolon (hsemi ▸ hc)
    -- No entry so far has the key of `e`, so `e` is added and replaces nothing.
    have hnew : e.key ∉ seen.map Entry.key := by
      intro hm
      rw [List.map_append, List.map_cons] at hkeys
      exact List.disjoint_of_nodup_append hkeys hm List.mem_cons_self
    rw [List.append_cons] at hkeys ⊢
    rw [List.flatMap_cons, List.append_assoc, List.singleton_append,
      Text.split_piece hplain (by decide), List.foldl_cons, addPiece_chars _ he, put_new hnew]
    exact ih (seen ++ [e]) hkeys hrest

/-- A style is what its text is read as exactly if it is readable. -/
theorem parse_text_iff {s : Style} : parse s.text = s ↔ s.Readable := by
  constructor
  · intro h
    exact h ▸ readable_parse s.text
  · intro h
    rw [parse, toList_text]
    exact foldl_addPiece_entries [] s.entries h.keys_nodup h.entries

/-! ## Lengths of texts -/

theorem length_replace_le (e : Entry) (es : List Entry) :
    ((replace e es).flatMap fun e => e.chars ++ [';']).length ≤
      (es.flatMap fun e => e.chars ++ [';']).length + (e.chars.length + 1) := by
  induction es with
  | nil => simp [replace]
  | cons x es ih =>
    rw [replace]
    split <;> simp only [List.flatMap_cons, List.length_append, List.length_singleton] <;> omega

theorem length_put_le (s : Style) (e : Entry) :
    (s.put e).text.toList.length ≤ s.text.toList.length + (e.chars.length + 1) := by
  rw [toList_text, toList_text]
  cases e with
  | flag name =>
    rw [put, setFlag]
    split
    · omega
    · simp [Entry.chars]
  | pair key value => exact length_replace_le (.pair key value) s.entries

/-- Reading and writing makes a style text longer by a semicolon at most. -/
theorem length_text_parse_le (text : String) :
    (parse text).text.toList.length ≤ text.toList.length + 1 := by
  have hpieces : ∀ piece ∈ Text.split (· = ';') text.toList, ';' ∉ piece :=
    fun _ => semicolon_not_mem_piece
  have hfold (pieces : List (List Char)) (hpieces : ∀ piece ∈ pieces, ';' ∉ piece) (s : Style) :
      (pieces.foldl addPiece s).text.toList.length ≤
        s.text.toList.length + (pieces.flatMap fun piece => piece ++ [';']).length := by
    induction pieces generalizing s with
    | nil => simp
    | cons piece pieces ih =>
      obtain ⟨hpiece, hrest⟩ := List.forall_mem_cons.mp hpieces
      have hnext := ih hrest (addPiece s piece)
      rw [List.foldl_cons, List.flatMap_cons, List.length_append, List.length_append,
        List.length_singleton]
      rcases addPiece_cases s hpiece with hsame | ⟨e, -, hput, hlength⟩
      · rw [hsame] at hnext ⊢
        omega
      · have hstep := length_put_le s e
        rw [hput] at hnext ⊢
        omega
  have hall := hfold _ hpieces empty
  rw [Text.length_split] at hall
  simpa [parse, empty, Style.text] using hall

/-! ## Looking up keys -/

@[simp]
theorem get?_set_self (s : Style) (key value : String) :
    (s.set key value).get? key = some value := by
  rw [set, get?]
  dsimp only
  induction s.entries with
  | nil => simp [replace]
  | cons e es ih =>
    rw [replace]
    split
    · simp
    · rename_i hne
      cases e with
      | flag name => simpa using ih
      | pair k v =>
        have hkey : k ≠ key := hne
        simpa [hkey] using ih

@[simp]
theorem get?_set_of_ne (s : Style) {key other : String} (value : String) (h : other ≠ key) :
    (s.set key value).get? other = s.get? other := by
  rw [set, get?, get?]
  dsimp only
  induction s.entries with
  | nil => simp [replace, h.symm]
  | cons e es ih =>
    rw [replace]
    split
    · rename_i hkey
      cases e with
      | flag name => simp [h.symm]
      | pair k v =>
        have hk : k = key := hkey
        simp [hk, h.symm]
    · cases e with
      | flag name => simpa using ih
      | pair k v =>
        by_cases hk : k = other
        · simp [hk]
        · simpa [hk] using ih

/-- Every value of a readable style is clean. -/
theorem Readable.clean_of_get? {s : Style} (h : s.Readable) {key value : String}
    (hget : s.get? key = some value) : Clean value := by
  obtain ⟨e, he, hvalue⟩ := List.exists_of_findSome?_eq_some hget
  have hreadable := h.entries e he
  cases e with
  | flag name => cases hvalue
  | pair k v =>
    dsimp only at hvalue
    split at hvalue
    · cases hvalue
      exact hreadable.2
    · cases hvalue

end DiagramPress.Style
