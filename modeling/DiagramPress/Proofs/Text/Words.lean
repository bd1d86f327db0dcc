-- The words of a text: taking it apart at line breaks and filling lines keeps all of
-- them, in order.
import DiagramPress.Proofs.Text.Pieces
import Mathlib.Data.List.TakeWhile

namespace DiagramPress.Text

/-! ## Pieces around marks -/

section

variable {p : Char → Bool}

/-- The pieces around a mark are those before it and those behind it. -/
theorem split_around {mark : Char} (hmark : p mark = true) (before after : List Char) :
    split p (before ++ mark :: after) = split p before ++ split p after := by
  induction before with
  | nil => exact split_cons hmark after
  | cons c before ih =>
    obtain ⟨piece, pieces, hsplit⟩ := List.exists_cons_of_ne_nil (split_ne_nil p before)
    rw [List.cons_append]
    simp only [split, ih, hsplit, List.cons_append]
    by_cases hc : p c = true
    · simp only [if_pos hc, List.cons_append]
    · simp only [if_neg hc, List.cons_append]

/-- The pieces with the mark in between give the text back. -/
theorem intercalate_split (mark : Char) (cs : List Char) :
    [mark].intercalate (split (· = mark) cs) = cs := by
  induction cs with
  | nil => rfl
  | cons c cs ih =>
    obtain ⟨piece, pieces, hsplit⟩ := List.exists_cons_of_ne_nil (split_ne_nil (· = mark) cs)
    rw [hsplit] at ih
    by_cases hc : c = mark
    · rw [split_cons (by simpa using hc), hsplit, List.intercalate_cons_cons, ih, hc]
      rfl
    · have hfirst : split (· = mark) (c :: cs) = (c :: piece) :: pieces := by
        simp [split, hsplit, hc]
      rw [hfirst]
      cases pieces with
      | nil =>
        rw [List.intercalate_singleton] at ih ⊢
        rw [ih]
      | cons next pieces =>
        rw [List.intercalate_cons_cons] at ih ⊢
        rw [← ih]
        rfl

theorem not_mark_of_mem_split {cs piece : List Char} (h : piece ∈ split p cs) :
    ∀ c ∈ piece, p c = false := by
  induction cs generalizing piece with
  | nil =>
    rw [List.mem_singleton.mp h]
    exact fun c hc => absurd hc List.not_mem_nil
  | cons c cs ih =>
    by_cases hc : p c = true
    · rw [split_cons hc] at h
      rcases List.mem_cons.mp h with rfl | h
      · exact fun c hc => absurd hc List.not_mem_nil
      · exact ih h
    · obtain ⟨first, pieces, hsplit⟩ := List.exists_cons_of_ne_nil (split_ne_nil p cs)
      simp only [split, hsplit, if_neg hc, List.mem_cons] at h
      rcases h with rfl | h
      · rw [List.forall_mem_cons]
        exact ⟨by simpa using hc, ih (hsplit ▸ List.mem_cons_self)⟩
      · exact ih (hsplit ▸ List.mem_cons_of_mem _ h)

end

/-! ## Words -/

theorem words_around {blank : Char} (h : isBlank blank = true) (before after : List Char) :
    words (before ++ blank :: after) = words before ++ words after := by
  rw [words, split_around h, List.filter_append]
  rfl

/-- A word is its own only word. -/
theorem words_of_mem_words {cs word : List Char} (h : word ∈ words cs) : words word = [word] := by
  obtain ⟨hpiece, hne⟩ := List.mem_filter.mp h
  rw [words, split_last (not_mark_of_mem_split hpiece)]
  exact List.filter_cons_of_pos hne

theorem words_intercalate {mark : Char} (h : isBlank mark = true) (pieces : List (List Char)) :
    words ([mark].intercalate pieces) = pieces.flatMap words := by
  induction pieces with
  | nil => rfl
  | cons piece pieces ih =>
    cases pieces with
    | nil => rw [List.intercalate_singleton, List.flatMap_singleton]
    | cons next pieces =>
      rw [List.intercalate_cons_cons, List.append_assoc, List.singleton_append, words_around h, ih]
      rfl

/-- A text has the words of its pieces if a blank parts them. -/
theorem flatMap_words_split {mark : Char} (h : isBlank mark = true) (cs : List Char) :
    (split (· = mark) cs).flatMap words = words cs := by
  rw [← words_intercalate h, intercalate_split]

/-! ## Lines -/

/-- Filling lines keeps the words of the first line and all further ones. -/
theorem flatMap_words_fill (budget : Nat) (line : List Char) {ws : List (List Char)}
    (h : ∀ w ∈ ws, words w = [w]) : (fill budget line ws).flatMap words = words line ++ ws := by
  induction ws generalizing line with
  | nil => rw [fill, List.flatMap_singleton, List.append_nil]
  | cons w ws ih =>
    obtain ⟨hw, hws⟩ := List.forall_mem_cons.mp h
    rw [fill]
    split
    · rw [ih _ hws, words_around (by decide), hw, List.append_assoc, List.singleton_append]
    · rw [List.flatMap_cons, ih _ hws, hw, List.singleton_append]

theorem flatMap_words_wrap (budget : Nat) (text : List Char) :
    (wrap budget text).flatMap words = words text := by
  unfold wrap
  cases hwords : words text with
  | nil => rfl
  | cons word rest =>
    have hall : ∀ w ∈ word :: rest, words w = [w] := fun w hw => words_of_mem_words (hwords ▸ hw)
    obtain ⟨hword, hrest⟩ := List.forall_mem_cons.mp hall
    rw [flatMap_words_fill budget word hrest, hword, List.singleton_append]

/-! ## Blank texts -/

/-- A text has nothing left when it is trimmed exactly if all of it is blank. -/
theorem trim_eq_nil_iff {cs : List Char} : trim cs = [] ↔ ∀ c ∈ cs, isBlank c = true := by
  rw [trim, trimEnd, List.reverse_eq_nil_iff, List.dropWhile_eq_nil_iff]
  constructor
  · intro h
    refine List.dropWhile_eq_nil_iff.mp (by_contra fun hne => ?_)
    have hhead := List.head_dropWhile_not isBlank hne
    rw [h _ (List.mem_reverse.mpr (List.head_mem hne))] at hhead
    cases hhead
  · intro h c hc
    exact h c ((List.dropWhile_suffix isBlank).subset (List.mem_reverse.mp hc))

end DiagramPress.Text
