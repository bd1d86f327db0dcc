-- Texts taken apart: pieces without blanks and without marks come out as they
-- were put together.
import DiagramPress.Text.Words

namespace DiagramPress.Text

/-- What no character of a text fulfils drops nothing of it. -/
theorem dropWhile_of_none {p : Char → Bool} {cs : List Char} (h : ∀ c ∈ cs, p c = false) :
    cs.dropWhile p = cs := by
  cases cs with
  | nil => rfl
  | cons c cs => simp [h c (by simp)]

theorem trim_of_no_blanks {cs : List Char} (h : ∀ c ∈ cs, isBlank c = false) : trim cs = cs := by
  rw [trim, trimEnd, dropWhile_of_none h, dropWhile_of_none (by simpa using h),
    List.reverse_reverse]

/-! ## Trimmed texts -/

/-- No blank stands at either end. -/
def Trimmed (cs : List Char) : Prop :=
  (∀ c ∈ cs.head?, isBlank c = false) ∧ ∀ c ∈ cs.getLast?, isBlank c = false

instance (cs : List Char) : Decidable (Trimmed cs) :=
  @instDecidableAnd _ _ (Option.decidableForallMem cs.head?) (Option.decidableForallMem cs.getLast?)

theorem trimmed_of_no_blanks {cs : List Char} (h : ∀ c ∈ cs, isBlank c = false) : Trimmed cs :=
  ⟨fun c hc => h c (List.mem_of_mem_head? hc), fun c hc => h c (List.mem_of_mem_getLast? hc)⟩

theorem dropWhile_of_head {p : Char → Bool} {cs : List Char} (h : ∀ c ∈ cs.head?, p c = false) :
    cs.dropWhile p = cs := by
  cases cs with
  | nil => rfl
  | cons c cs => simp [h c rfl]

theorem trim_of_trimmed {cs : List Char} (h : Trimmed cs) : trim cs = cs := by
  rw [trim, trimEnd, dropWhile_of_head h.1,
    dropWhile_of_head (by simpa only [List.head?_reverse] using h.2), List.reverse_reverse]

theorem trimmed_trim (cs : List Char) : Trimmed (trim cs) := by
  have hnot (ds : List Char) : ∀ c ∈ (ds.dropWhile isBlank).head?, isBlank c = false := by
    intro c hc
    have := List.head?_dropWhile_not isBlank ds
    rwa [Option.mem_def.mp hc] at this
  obtain ⟨dropped, hsplit⟩ : ∃ dropped, cs.dropWhile isBlank = trim cs ++ dropped := by
    obtain ⟨front, hfront⟩ := List.dropWhile_suffix isBlank (l := (cs.dropWhile isBlank).reverse)
    exact ⟨front.reverse, by rw [trim, trimEnd, ← List.reverse_append, hfront,
      List.reverse_reverse]⟩
  refine ⟨fun c hc => hnot cs c ?_, ?_⟩
  · rw [hsplit, List.head?_append, Option.mem_def.mp hc]
    rfl
  · rw [trim, trimEnd, List.getLast?_reverse]
    exact hnot _

theorem trim_sublist (cs : List Char) : (trim cs).Sublist cs := by
  have hend (ds : List Char) : (trimEnd ds).Sublist ds := by
    rw [trimEnd, ← List.reverse_sublist, List.reverse_reverse]
    exact List.dropWhile_sublist isBlank
  exact (hend _).trans (List.dropWhile_sublist isBlank)

/-! ## The first mark -/

theorem splitOnce?_of_not_mem {mark : Char} {cs : List Char} (h : mark ∉ cs) :
    splitOnce? mark cs = none := by
  induction cs with
  | nil => rfl
  | cons c cs ih =>
    have hc : c ≠ mark := fun he => h (by simp [he])
    rw [splitOnce?, if_neg hc, ih fun hm => h (by simp [hm])]
    rfl

theorem splitOnce?_append {mark : Char} {before : List Char} (h : mark ∉ before)
    (after : List Char) : splitOnce? mark (before ++ mark :: after) = some (before, after) := by
  induction before with
  | nil => simp [splitOnce?]
  | cons c before ih =>
    have hc : c ≠ mark := fun he => h (by simp [he])
    rw [List.cons_append, splitOnce?, if_neg hc, ih fun hm => h (by simp [hm])]
    rfl

theorem eq_of_splitOnce? {mark : Char} {cs before after : List Char}
    (h : splitOnce? mark cs = some (before, after)) :
    cs = before ++ mark :: after ∧ mark ∉ before := by
  induction cs generalizing before with
  | nil => cases h
  | cons c cs ih =>
    rw [splitOnce?] at h
    split at h
    · rename_i hc
      cases h
      exact ⟨by rw [hc]; rfl, List.not_mem_nil⟩
    · rename_i hc
      obtain ⟨⟨first, rest⟩, hrest, hpair⟩ := Option.map_eq_some_iff.mp h
      cases hpair
      obtain ⟨rfl, hfirst⟩ := ih hrest
      exact ⟨rfl, by simp [Ne.symm hc, hfirst]⟩

theorem not_mem_of_splitOnce? {mark : Char} {cs : List Char} (h : splitOnce? mark cs = none) :
    mark ∉ cs := by
  intro hm
  obtain ⟨before, after, rfl, hbefore⟩ := List.eq_append_cons_of_mem hm
  rw [splitOnce?_append hbefore] at h
  cases h

/-! ## All marks -/

theorem split_ne_nil (p : Char → Bool) (cs : List Char) : split p cs ≠ [] := by
  cases cs with
  | nil => simp [split]
  | cons c cs =>
    rw [split]
    split
    · simp
    · split <;> simp

theorem split_cons {p : Char → Bool} {c : Char} (hc : p c = true) (cs : List Char) :
    split p (c :: cs) = [] :: split p cs := by
  obtain ⟨piece, pieces, hsplit⟩ := List.exists_cons_of_ne_nil (split_ne_nil p cs)
  simp only [split, hsplit, if_pos hc]

/-- Characters without a mark go to the front of the first piece. -/
theorem split_append {p : Char → Bool} {before : List Char} (h : ∀ c ∈ before, p c = false)
    (cs : List Char) {piece : List Char} {pieces : List (List Char)}
    (hcs : split p cs = piece :: pieces) : split p (before ++ cs) = (before ++ piece) :: pieces := by
  induction before with
  | nil => exact hcs
  | cons c before ih =>
    have hc : ¬ p c = true := by simp [h c]
    rw [List.cons_append, split, ih fun c hm => h c (by simp [hm])]
    simp only [if_neg hc, List.cons_append]

/-- A piece in front of a mark. -/
theorem split_piece {p : Char → Bool} {piece : List Char} (h : ∀ c ∈ piece, p c = false)
    {mark : Char} (hmark : p mark = true) (cs : List Char) :
    split p (piece ++ mark :: cs) = piece :: split p cs := by
  rw [split_append h _ (split_cons hmark cs), List.append_nil]

/-- The pieces with a mark behind each of them are longer by one mark than the text. -/
theorem length_split (p : Char → Bool) (mark : Char) (cs : List Char) :
    ((split p cs).flatMap fun piece => piece ++ [mark]).length = cs.length + 1 := by
  induction cs with
  | nil => rfl
  | cons c cs ih =>
    obtain ⟨piece, pieces, hsplit⟩ := List.exists_cons_of_ne_nil (split_ne_nil p cs)
    rw [hsplit, List.flatMap_cons, List.length_append, List.length_append] at ih
    simp only [split, hsplit]
    split <;> simp only [List.flatMap_cons, List.length_append, List.length_cons,
      List.length_nil] at ih ⊢ <;> omega

theorem split_last {p : Char → Bool} {piece : List Char} (h : ∀ c ∈ piece, p c = false) :
    split p piece = [piece] := by
  simpa [split] using split_append h [] (rfl : split p [] = [[]])

end DiagramPress.Text
