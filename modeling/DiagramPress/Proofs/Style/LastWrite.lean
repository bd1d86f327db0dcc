-- A style after any number of edits: of all that was ever written for a key, the last pair
-- is left, and it stands where the key was introduced.
import DiagramPress.Proofs.Style.ReadBack
import Mathlib.Data.List.Induction

namespace DiagramPress.Style

/-! ## Keys in the order of their introduction -/

theorem eraseDups_concat (keys : List String) (key : String) :
    (keys ++ [key]).eraseDups =
      if key ∈ keys then keys.eraseDups else keys.eraseDups ++ [key] := by
  rw [List.eraseDups_append]
  split
  · rename_i h
    simp [List.removeAll, h]
  · rename_i h
    simp [List.removeAll, h, List.eraseDups_cons]

theorem nodup_eraseDups (keys : List String) : keys.eraseDups.Nodup := by
  induction keys using List.reverseRecOn with
  | nil => exact List.nodup_nil
  | append_singleton keys key ih =>
    rw [eraseDups_concat]
    split
    · exact ih
    · rename_i h
      rw [← List.concat_eq_append]
      exact ih.concat (by rwa [List.mem_eraseDups])

/-! ## What is left of all writes -/

/-- The value that the entry gives to the key. -/
def Entry.valueFor? (key : String) : Entry → Option String
  | .pair k value => if k = key then some value else none
  | .flag _ => none

theorem get?_eq_findSome? (s : Style) (key : String) :
    s.get? key = s.entries.findSome? (Entry.valueFor? key) := rfl

/-- The value of the last pair that was written for the key. -/
def lastValue? (key : String) (writes : List Entry) : Option String :=
  (writes.filterMap (Entry.valueFor? key)).getLast?

/-- The entry of a key after all writes: its last pair, and a flag if it has none. -/
def settled (writes : List Entry) (key : String) : Entry :=
  match lastValue? key writes with
  | some value => .pair key value
  | none => .flag key

/-- One entry for each key, in the order in which the keys were introduced. -/
def settle (writes : List Entry) : Style :=
  ⟨(writes.map Entry.key).eraseDups.map (settled writes)⟩

section

variable {writes : List Entry} {key : String}

@[simp]
theorem key_settled (writes : List Entry) (key : String) : (settled writes key).key = key := by
  unfold settled
  split <;> rfl

theorem lastValue?_concat (key : String) (writes : List Entry) (e : Entry) :
    lastValue? key (writes ++ [e]) = (e.valueFor? key).or (lastValue? key writes) := by
  rw [lastValue?, List.filterMap_append, List.getLast?_append]
  cases h : e.valueFor? key <;> simp [h, lastValue?]

theorem lastValue?_eq_none_iff :
    lastValue? key writes = none ↔ ∀ value, Entry.pair key value ∉ writes := by
  rw [lastValue?, List.getLast?_eq_none_iff, List.filterMap_eq_nil_iff]
  constructor
  · intro h value hmem
    simpa [Entry.valueFor?] using h _ hmem
  · intro h e he
    cases e with
    | flag name => rfl
    | pair k value =>
      have hne : k ≠ key := fun hk => h value (hk ▸ he)
      exact if_neg hne

theorem lastValue?_of_not_mem (h : key ∉ writes.map Entry.key) : lastValue? key writes = none :=
  lastValue?_eq_none_iff.mpr fun _ hmem => h (List.mem_map_of_mem hmem)

theorem settled_concat_flag (writes : List Entry) (name : String) :
    settled (writes ++ [.flag name]) = settled writes := by
  funext key
  rw [settled, lastValue?_concat]
  rfl

theorem settled_concat_pair (writes : List Entry) (key value : String) :
    settled (writes ++ [.pair key value]) =
      fun k => if k = key then .pair key value else settled writes k := by
  funext k
  rw [settled, lastValue?_concat, Entry.valueFor?]
  by_cases h : k = key
  · rw [if_pos h.symm, if_pos h, h]
    rfl
  · rw [if_neg (Ne.symm h), if_neg h]
    rfl

/-! ## One write after the other -/

/-- Where each key has one entry, a pair takes the place of the entry of its key. -/
theorem replace_map {keys : List String} (hkeys : keys.Nodup) {entryOf : String → Entry}
    (hentry : ∀ k, (entryOf k).key = k) {e : Entry} (h : e.key ∈ keys) :
    replace e (keys.map entryOf) = keys.map fun k => if k = e.key then e else entryOf k := by
  induction keys with
  | nil => cases h
  | cons first rest ih =>
    obtain ⟨hfirst, hrest⟩ := List.nodup_cons.mp hkeys
    rw [List.map_cons, List.map_cons, replace, hentry]
    split
    · rename_i hkey
      have hsame : ∀ k ∈ rest, entryOf k = if k = e.key then e else entryOf k := by
        intro k hk
        have hne : k ≠ e.key := fun hek => hfirst (hkey.trans hek.symm ▸ hk)
        rw [if_neg hne]
      rw [List.map_congr_left hsame]
    · rename_i hkey
      rw [ih hrest ((List.mem_cons.mp h).resolve_left (Ne.symm hkey))]

theorem keys_settle (writes : List Entry) :
    (settle writes).entries.map Entry.key = (writes.map Entry.key).eraseDups := by
  have hkey : Entry.key ∘ settled writes = id := funext (key_settled writes)
  rw [settle, List.map_map, hkey, List.map_id]

theorem mem_keys_settle : key ∈ (settle writes).entries.map Entry.key ↔
    key ∈ writes.map Entry.key := by
  rw [keys_settle, List.mem_eraseDups]

/-- A key that is written for the first time comes last, with the entry that was written. -/
theorem settle_concat_new {e : Entry} (h : e.key ∉ writes.map Entry.key) :
    settle (writes ++ [e]) = ⟨(settle writes).entries ++ [e]⟩ := by
  have hold : ∀ k ∈ (writes.map Entry.key).eraseDups,
      settled (writes ++ [e]) k = settled writes k := by
    intro k hk
    have hne : k ≠ e.key := fun hek => h (hek ▸ List.mem_eraseDups.mp hk)
    cases e with
    | flag name => rw [settled_concat_flag]
    | pair key value =>
      rw [settled_concat_pair]
      exact if_neg hne
  have hnew : settled (writes ++ [e]) e.key = e := by
    cases e with
    | flag name =>
      rw [settled_concat_flag, settled, lastValue?_of_not_mem h]
      rfl
    | pair key value =>
      rw [settled_concat_pair]
      exact if_pos rfl
  rw [settle, List.map_append, List.map_singleton, eraseDups_concat, if_neg h, List.map_append,
    List.map_singleton, List.map_congr_left hold, hnew]
  rfl

/-- One more write changes what is left of all writes as it changes the style. -/
theorem put_settle (writes : List Entry) (e : Entry) :
    (settle writes).put e = settle (writes ++ [e]) := by
  by_cases h : e.key ∈ writes.map Entry.key
  · have hkeys : ((writes ++ [e]).map Entry.key).eraseDups =
        (writes.map Entry.key).eraseDups := by
      rw [List.map_append, List.map_singleton, eraseDups_concat, if_pos h]
    cases e with
    | flag name =>
      have hmem := mem_keys_settle.mpr h
      rw [Entry.key_flag] at hmem
      rw [put_flag_of_mem hmem, settle, settle, hkeys, settled_concat_flag]
    | pair key value =>
      rw [put, set, settle, settle, hkeys, settled_concat_pair,
        replace_map (nodup_eraseDups _) (key_settled writes) (List.mem_eraseDups.mpr h)]
      rfl
  · rw [put_new (mem_keys_settle.not.mpr h), settle_concat_new h]

theorem foldl_put (writes : List Entry) : writes.foldl put empty = settle writes := by
  induction writes using List.reverseRecOn with
  | nil => rfl
  | append_singleton writes e ih =>
    rw [List.foldl_append, ih]
    exact put_settle writes e

/-! ## Reading what is left -/

theorem nodup_keys_settle (writes : List Entry) :
    ((settle writes).entries.map Entry.key).Nodup := by
  rw [keys_settle]
  exact nodup_eraseDups _

theorem get?_setFlag (s : Style) (name key : String) :
    (s.setFlag name).get? key = s.get? key := by
  rw [setFlag]
  split
  · rfl
  · rw [get?_eq_findSome?, get?_eq_findSome?, List.findSome?_append]
    exact Option.or_none

theorem get?_put (s : Style) (e : Entry) (key : String) :
    (s.put e).get? key = (e.valueFor? key).or (s.get? key) := by
  cases e with
  | flag name => exact get?_setFlag s name key
  | pair k value =>
    rw [put, Entry.valueFor?]
    by_cases h : k = key
    · rw [if_pos h, h, get?_set_self]
      rfl
    · rw [if_neg h, get?_set_of_ne s value (Ne.symm h)]
      rfl

theorem get?_settle (writes : List Entry) (key : String) :
    (settle writes).get? key = lastValue? key writes := by
  induction writes using List.reverseRecOn with
  | nil => rfl
  | append_singleton writes e ih => rw [← put_settle, get?_put, ih, lastValue?_concat]

theorem settled_eq_flag_iff {name : String} :
    settled writes key = .flag name ↔ key = name ∧ lastValue? key writes = none := by
  unfold settled
  split
  · rename_i value hlast
    simp [hlast]
  · rename_i hlast
    simp [hlast]

theorem hasFlag_settle (writes : List Entry) (name : String) :
    (settle writes).hasFlag name = true ↔
      Entry.flag name ∈ writes ∧ ∀ value, Entry.pair name value ∉ writes := by
  have hmem : (settle writes).hasFlag name = true ↔
      name ∈ writes.map Entry.key ∧ lastValue? name writes = none := by
    simp only [hasFlag, settle, List.any_eq_true, decide_eq_true_eq, List.mem_map,
      List.mem_eraseDups]
    constructor
    · rintro ⟨e, ⟨key, hkey, rfl⟩, he⟩
      obtain ⟨rfl, hlast⟩ := settled_eq_flag_iff.mp he
      exact ⟨hkey, hlast⟩
    · rintro ⟨hkey, hlast⟩
      exact ⟨_, ⟨name, hkey, rfl⟩, settled_eq_flag_iff.mpr ⟨rfl, hlast⟩⟩
  rw [hmem, lastValue?_eq_none_iff]
  refine and_congr_left fun hnone => ⟨fun hkey => ?_, fun h => List.mem_map_of_mem h⟩
  obtain ⟨e, he, hname⟩ := List.mem_map.mp hkey
  cases e with
  | flag n => exact hname ▸ he
  | pair k value => exact absurd (hname ▸ he) (hnone value)

end

/-! ## Edits of a style that was read -/

/-- The entry that a piece of a style text gives: a pair if it holds an equals sign, else a
flag, and nothing if it is blank. -/
def entryOf? (piece : List Char) : Option Entry :=
  let piece := Text.trim piece
  if piece.isEmpty then none
  else
    match Text.splitOnce? '=' piece with
    | some (key, value) =>
      some (.pair (String.ofList (Text.trim key)) (String.ofList (Text.trim value)))
    | none => some (.flag (String.ofList piece))

/-- The entries that a text gives, between its semicolons. -/
def written (text : String) : List Entry :=
  (Text.split (· = ';') text.toList).filterMap entryOf?

theorem addPiece_eq (s : Style) (piece : List Char) :
    addPiece s piece = (entryOf? piece).elim s s.put := by
  unfold addPiece entryOf?
  dsimp only
  split
  · rfl
  · cases Text.splitOnce? '=' (Text.trim piece) <;> rfl

/-- To read a text is to write its entries, one after the other. -/
theorem parse_eq_settle (text : String) : parse text = settle (written text) := by
  rw [parse, written, ← foldl_put]
  generalize empty = s
  induction Text.split (· = ';') text.toList generalizing s with
  | nil => rfl
  | cons piece pieces ih =>
    rw [List.foldl_cons, ih, addPiece_eq]
    cases h : entryOf? piece with
    | none => rw [List.filterMap_cons_none h, Option.elim_none]
    | some e => rw [List.filterMap_cons_some h, Option.elim_some, List.foldl_cons]

/-- What can be done to a style. -/
inductive Edit where
  | set (key value : String)
  | setBool (key : String) (value : Bool)
  | setFlag (name : String)

namespace Edit

def apply (s : Style) : Edit → Style
  | .set key value => s.set key value
  | .setBool key value => s.setBool key value
  | .setFlag name => s.setFlag name

/-- The entry that an edit writes. -/
def entry : Edit → Entry
  | .set key value => .pair key value
  | .setBool key value => .pair key (if value then "1" else "0")
  | .setFlag name => .flag name

/-- The texts of the edit can be taken for nothing else. -/
def Readable : Edit → Prop
  | .set key value => IsKey key ∧ Clean value
  | .setBool key _ => IsKey key
  | .setFlag name => name ≠ "" ∧ IsKey name

theorem apply_eq_put (s : Style) (edit : Edit) : edit.apply s = s.put edit.entry := by
  cases edit <;> rfl

theorem Readable.entry {edit : Edit} (h : edit.Readable) : edit.entry.Readable := by
  cases edit with
  | set key value => exact h
  | setBool key value =>
    refine ⟨h, ?_⟩
    cases value <;> decide
  | setFlag name => exact h

end Edit

/-- A style that is read from a text and then edited. -/
def edited (text : String) (edits : List Edit) : Style := edits.foldl Edit.apply (parse text)

/-- All that is written to it: what the text gives, and then what the edits give. -/
def writes (text : String) (edits : List Edit) : List Entry :=
  written text ++ edits.map Edit.entry

theorem edited_eq_settle (text : String) (edits : List Edit) :
    edited text edits = settle (writes text edits) := by
  have happly : Edit.apply = fun s edit => s.put edit.entry :=
    funext fun s => funext fun edit => Edit.apply_eq_put s edit
  rw [edited, writes, happly, parse_eq_settle, ← foldl_put, ← foldl_put, List.foldl_append,
    List.foldl_map]

theorem readable_edited (text : String) {edits : List Edit} (h : ∀ edit ∈ edits, edit.Readable) :
    (edited text edits).Readable := by
  have hs := readable_parse text
  rw [edited]
  generalize parse text = s at hs ⊢
  induction edits generalizing s with
  | nil => exact hs
  | cons edit edits ih =>
    obtain ⟨hedit, hrest⟩ := List.forall_mem_cons.mp h
    rw [List.foldl_cons, Edit.apply_eq_put]
    exact ih hrest _ (hs.put hedit.entry)

/-- Of each key the last pair counts, and it stands where the key was introduced; a flag is
left where there is no pair. The style is read again from its text as long as no edit
brings in a text that can be taken for something else, whatever the style was read from. -/
theorem styles_keep_the_last_writes (text : String) (edits : List Edit) :
    let s := edited text edits
    (s.entries.map Entry.key).Nodup ∧
      (∀ key, s.get? key = lastValue? key (writes text edits)) ∧
      (∀ name, s.hasFlag name = true ↔ Entry.flag name ∈ writes text edits ∧
        ∀ value, Entry.pair name value ∉ writes text edits) ∧
      s.entries.map Entry.key = ((writes text edits).map Entry.key).eraseDups ∧
      ((∀ edit ∈ edits, edit.Readable) → parse s.text = s) := by
  intro s
  have hs : s = settle (writes text edits) := edited_eq_settle text edits
  rw [hs]
  refine ⟨nodup_keys_settle _, get?_settle _, hasFlag_settle _, keys_settle _, fun h => ?_⟩
  rw [← hs]
  exact parse_text_iff.mpr (readable_edited text h)

/-- A text with a key that is empty, a value with an equals sign, and a flag that becomes a
pair; then a pair that is written anew, and a flag that is turned into a switch. -/
theorem repeated_keys_keep_their_places :
    let text := " a ;=x; b = 1 = 2;;a=0;b"
    let edits : List Edit := [.set "b" "9=8", .setFlag "c", .setBool "c" true, .setFlag "d"]
    (∀ edit ∈ edits, edit.Readable) ∧
      (edited text edits).entries.map Entry.key = ["a", "", "b", "c", "d"] ∧
      (edited text edits).get? "b" = some "9=8" ∧ (edited text edits).hasFlag "a" = false ∧
      (edited text edits).hasFlag "d" = true ∧
      parse (edited text edits).text = edited text edits := by
  intro text edits
  have hedits : ∀ edit ∈ edits, edit.Readable := by
    rw [List.forall_mem_cons, List.forall_mem_cons, List.forall_mem_cons, List.forall_mem_singleton]
    exact ⟨⟨by decide, by decide⟩, ⟨by decide, by decide⟩, (by decide : IsKey "c"),
      ⟨by decide, by decide⟩⟩
  obtain ⟨-, hvalue, hflag, hkeys, hread⟩ := styles_keep_the_last_writes text edits
  have hpair : Entry.pair "a" "0" ∈ writes text edits := by decide +kernel
  have hnoPair : lastValue? "d" (writes text edits) = none := by decide +kernel
  refine ⟨hedits, hkeys.trans (by decide +kernel), (hvalue "b").trans (by decide +kernel), ?_,
    (hflag "d").mpr ⟨by decide +kernel, lastValue?_eq_none_iff.mp hnoPair⟩, hread hedits⟩
  rw [Bool.eq_false_iff, ne_eq, hflag]
  exact fun h => h.2 "0" hpair

end DiagramPress.Style
