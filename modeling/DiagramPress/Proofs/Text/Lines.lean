-- Words on lines: a line is filled as long as the next word fits, which keeps all words in
-- their order and takes no more lines than any other way to do so.
import DiagramPress.Proofs.Text.Words
import Mathlib.Algebra.GroupWithZero.Nat
import Mathlib.Data.List.Chain

namespace DiagramPress.Text

/-! ## Words with single blanks in between -/

def spaced (ws : List (List Char)) : List Char := [' '].intercalate ws

theorem spaced_singleton (w : List Char) : spaced [w] = w := List.intercalate_singleton

theorem spaced_cons_cons (w next : List Char) (rest : List (List Char)) :
    spaced (w :: next :: rest) = w ++ ' ' :: spaced (next :: rest) := by
  rw [spaced, List.intercalate_cons_cons, List.append_assoc]
  rfl

theorem spaced_append {ws more : List (List Char)} (hws : ws ≠ []) (hmore : more ≠ []) :
    spaced (ws ++ more) = spaced ws ++ ' ' :: spaced more := by
  obtain ⟨next, rest, rfl⟩ := List.exists_cons_of_ne_nil hmore
  induction ws with
  | nil => exact absurd rfl hws
  | cons first ws ih =>
    cases ws with
    | nil => rw [List.singleton_append, spaced_cons_cons, spaced_singleton]
    | cons second ws =>
      rw [List.cons_append, List.cons_append, spaced_cons_cons, ← List.cons_append, ih (by simp),
        spaced_cons_cons, List.append_assoc, List.cons_append]

theorem spaced_concat {ws : List (List Char)} (h : ws ≠ []) (w : List Char) :
    spaced (ws ++ [w]) = spaced ws ++ ' ' :: w := by
  rw [spaced_append h (by simp), spaced_singleton]

theorem length_spaced (ws : List (List Char)) :
    (spaced ws).length = (ws.map List.length).sum + (ws.length - 1) := by
  induction ws with
  | nil => rfl
  | cons first ws ih =>
    cases ws with
    | nil => simp [spaced_singleton]
    | cons second ws =>
      rw [spaced_cons_cons, List.length_append, List.length_cons, ih]
      simp only [List.map_cons, List.sum_cons, List.length_cons]
      omega

/-- Words around them make a line of words only longer. -/
theorem length_spaced_le (before ws after : List (List Char)) :
    (spaced ws).length ≤ (spaced (before ++ ws ++ after)).length := by
  simp only [length_spaced, List.map_append, List.sum_append, List.length_append]
  omega

/-- Lines that are put side by side read as their words. -/
theorem spaced_map_spaced {lines : List (List (List Char))} (h : ∀ line ∈ lines, line ≠ []) :
    spaced (lines.map spaced) = spaced lines.flatten := by
  induction lines with
  | nil => rfl
  | cons line lines ih =>
    obtain ⟨hline, hlines⟩ := List.forall_mem_cons.mp h
    cases lines with
    | nil => simp [spaced_singleton]
    | cons next lines =>
      have hrest : (next :: lines).flatten ≠ [] := by
        simp [(List.forall_mem_cons.mp hlines).1]
      rw [List.flatten_cons, spaced_append hline hrest, ← ih hlines]
      exact spaced_cons_cons _ _ _

/-! ## Lines that have room for their words -/

/-- The words have room on one line. A single word always has. -/
def FitsLine (budget : Nat) (ws : List (List Char)) : Prop :=
  (spaced ws).length ≤ budget ∨ ws.length = 1

instance (budget : Nat) (ws : List (List Char)) : Decidable (FitsLine budget ws) :=
  inferInstanceAs (Decidable (_ ∨ _))

/-- The words, in their order, on lines that each have room for their part of them. -/
structure AreLines (budget : Nat) (ws : List (List Char)) (lines : List (List (List Char))) :
    Prop where
  flatten_eq : lines.flatten = ws
  fits : ∀ line ∈ lines, FitsLine budget line

/-- No line has room for the first word of the next one. -/
def AreFull (budget : Nat) (lines : List (List (List Char))) : Prop :=
  lines.IsChain fun line next => ∃ w ∈ next.head?, budget < (spaced (line ++ [w])).length

/-- Where words fit, the last ones of them fit as well. -/
theorem FitsLine.of_append {budget : Nat} {before ws : List (List Char)}
    (h : FitsLine budget (before ++ ws)) (hws : ws ≠ []) : FitsLine budget ws := by
  rcases h with h | h
  · refine .inl (le_trans ?_ h)
    simpa using length_spaced_le before ws []
  · have hpos := List.length_pos_iff.mpr hws
    rw [List.length_append] at h
    exact .inr (by omega)

/-- A line on which more than one word fits has room for its start and one word more. -/
theorem FitsLine.length_le {budget : Nat} {line more : List (List Char)} {w : List Char}
    (h : FitsLine budget (line ++ w :: more)) (hline : line ≠ []) :
    (spaced (line ++ [w])).length ≤ budget := by
  rcases h with h | h
  · refine le_trans ?_ h
    simpa using length_spaced_le [] (line ++ [w]) more
  · have hpos := List.length_pos_iff.mpr hline
    rw [List.length_append, List.length_cons] at h
    omega

/-! ## Filling lines -/

/-- The words of the lines that are filled, of which the first one has some already. -/
def fillLines (budget : Nat) (line : List (List Char)) :
    List (List Char) → List (List (List Char))
  | [] => [line]
  | w :: rest =>
    if (spaced (line ++ [w])).length ≤ budget then fillLines budget (line ++ [w]) rest
    else line :: fillLines budget [w] rest

/-- The words of each line, without a line where there is no word. -/
def filledLines (budget : Nat) : List (List Char) → List (List (List Char))
  | [] => []
  | w :: rest => fillLines budget [w] rest

section

variable {budget : Nat} {line : List (List Char)}

/-- The text of the lines is filled as their words are. -/
theorem fill_eq_map (h : line ≠ []) (ws : List (List Char)) :
    fill budget (spaced line) ws = (fillLines budget line ws).map spaced := by
  induction ws generalizing line with
  | nil => rfl
  | cons w ws ih =>
    have hlength : (spaced line).length + 1 + w.length = (spaced (line ++ [w])).length := by
      rw [spaced_concat h, List.length_append, List.length_cons]
      omega
    rw [fill, fillLines, hlength]
    split
    · rw [← spaced_concat h, ih (by simp)]
    · rw [List.map_cons, ← ih (by simp), spaced_singleton]

theorem flatten_fillLines (budget : Nat) (line ws : List (List Char)) :
    (fillLines budget line ws).flatten = line ++ ws := by
  induction ws generalizing line with
  | nil => simp [fillLines]
  | cons w ws ih =>
    rw [fillLines]
    split
    · rw [ih, List.append_assoc, List.singleton_append]
    · rw [List.flatten_cons, ih, List.singleton_append]

/-- What holds of a line with one word, and stays true of a line when a word fits and is
added, holds of all lines. -/
theorem forall_mem_fillLines {P : List (List Char) → Prop} (hstart : ∀ w, P [w])
    (hmore : ∀ line w, (spaced (line ++ [w])).length ≤ budget → P line → P (line ++ [w]))
    (h : P line) (ws : List (List Char)) : ∀ l ∈ fillLines budget line ws, P l := by
  induction ws generalizing line with
  | nil => simpa [fillLines] using h
  | cons w ws ih =>
    rw [fillLines]
    split
    · rename_i hfits
      exact ih (hmore line w hfits h)
    · exact List.forall_mem_cons.mpr ⟨h, ih (hstart w)⟩

theorem fitsLine_fillLines (w : List Char) (ws : List (List Char)) :
    ∀ l ∈ fillLines budget [w] ws, FitsLine budget l :=
  forall_mem_fillLines (fun _ => .inr rfl) (fun _ _ hfits _ => .inl hfits) (.inr rfl) ws

theorem ne_nil_fillLines (w : List Char) (ws : List (List Char)) :
    ∀ l ∈ fillLines budget [w] ws, l ≠ [] :=
  forall_mem_fillLines (by simp) (by simp) (by simp) ws

/-- The first line starts with what it has already. -/
theorem exists_fillLines_eq_cons (budget : Nat) (line ws : List (List Char)) :
    ∃ more rest, fillLines budget line ws = (line ++ more) :: rest := by
  induction ws generalizing line with
  | nil => exact ⟨[], [], by simp [fillLines]⟩
  | cons w ws ih =>
    rw [fillLines]
    split
    · obtain ⟨more, rest, hmore⟩ := ih (line ++ [w])
      exact ⟨w :: more, rest, by rw [hmore, List.append_assoc, List.singleton_append]⟩
    · exact ⟨[], fillLines budget [w] ws, by rw [List.append_nil]⟩

theorem areFull_fillLines (budget : Nat) (line ws : List (List Char)) :
    AreFull budget (fillLines budget line ws) := by
  induction ws generalizing line with
  | nil => exact List.IsChain.singleton line
  | cons w ws ih =>
    rw [fillLines]
    split
    · exact ih _
    · rename_i hfull
      have hrest := ih [w]
      obtain ⟨more, rest, hmore⟩ := exists_fillLines_eq_cons budget [w] ws
      rw [hmore] at hrest ⊢
      exact List.isChain_cons_cons.mpr ⟨⟨w, rfl, not_le.mp hfull⟩, hrest⟩

/-! ## No way takes fewer lines -/

/-- Behind the first line, the words that are left are filled on lines of their own. -/
theorem exists_fillLines_eq (budget : Nat) (line ws : List (List Char)) :
    ∃ full rest, fillLines budget line ws = full :: filledLines budget rest ∧ rest <:+ ws := by
  induction ws generalizing line with
  | nil => exact ⟨line, [], rfl, List.suffix_rfl⟩
  | cons w ws ih =>
    rw [fillLines]
    split
    · obtain ⟨full, rest, hfull, hrest⟩ := ih (line ++ [w])
      exact ⟨full, rest, hfull, hrest.trans (List.suffix_cons w ws)⟩
    · exact ⟨line, w :: ws, rfl, List.suffix_rfl⟩

/-- What has room on one line together stands on the first line. -/
theorem exists_fillLines_of_fitsLine (hline : line ≠ []) {more : List (List Char)}
    (h : FitsLine budget (line ++ more)) (behind : List (List Char)) :
    ∃ full rest, fillLines budget line (more ++ behind) = full :: filledLines budget rest ∧
      rest <:+ behind := by
  induction more generalizing line with
  | nil => exact exists_fillLines_eq budget line behind
  | cons w more ih =>
    rw [List.cons_append, fillLines, if_pos (h.length_le hline)]
    refine ih (by simp) ?_
    rwa [List.append_assoc, List.singleton_append]

/-- Any lines with room for some words are at least as many as those that are filled with the
last of these words. -/
theorem length_filledLines_le {others : List (List (List Char))}
    (h : ∀ other ∈ others, FitsLine budget other) {ws : List (List Char)}
    (hws : ws <:+ others.flatten) : (filledLines budget ws).length ≤ others.length := by
  induction others generalizing ws with
  | nil =>
    rw [List.suffix_nil.mp hws]
    exact Nat.zero_le 0
  | cons other others ih =>
    obtain ⟨hother, hothers⟩ := List.forall_mem_cons.mp h
    obtain ⟨before, hbefore⟩ := hws
    rw [List.flatten_cons, List.append_eq_append_iff] at hbefore
    rw [List.length_cons]
    -- The words begin on this line, or on a later one.
    rcases hbefore with ⟨part, hpart, rfl⟩ | ⟨skipped, -, hskipped⟩
    · cases part with
      | nil => exact Nat.le_succ_of_le (ih hothers List.suffix_rfl)
      | cons w more =>
        rw [hpart] at hother
        obtain ⟨full, rest, hfull, hrest⟩ := exists_fillLines_of_fitsLine (List.cons_ne_nil w [])
          (hother.of_append (List.cons_ne_nil w more)) others.flatten
        rw [List.cons_append, filledLines, hfull, List.length_cons]
        exact Nat.succ_le_succ (ih hothers hrest)
    · exact Nat.le_succ_of_le (ih hothers ⟨skipped, hskipped.symm⟩)

end

/-- The lines of a text hold its words in their order, with single blanks in between; each has
room for its words and none for the first word of the next line; and no other lines with room
for these words are fewer. -/
theorem lines_are_full_and_fewest (budget : Nat) (text : List Char) :
    ∃ lines, wrap budget text = lines.map spaced ∧ lines ≠ [] ∧
      AreLines budget (words text) lines ∧ AreFull budget lines ∧
      spaced (wrap budget text) = spaced (words text) ∧
      (words text ≠ [] →
        ∀ others, AreLines budget (words text) others → lines.length ≤ others.length) := by
  unfold wrap
  cases hwords : words text with
  | nil =>
    refine ⟨[[]], rfl, by simp, ⟨rfl, ?_⟩, List.IsChain.singleton _, rfl, fun h => absurd rfl h⟩
    rw [List.forall_mem_singleton]
    exact .inl (Nat.zero_le budget)
  | cons w rest =>
    have hfill : fill budget w rest = (fillLines budget [w] rest).map spaced := by
      rw [← fill_eq_map (List.cons_ne_nil w []), spaced_singleton]
    have hflatten : (fillLines budget [w] rest).flatten = w :: rest := flatten_fillLines _ _ _
    refine ⟨fillLines budget [w] rest, hfill, ?_, ⟨hflatten, fitsLine_fillLines w rest⟩,
      areFull_fillLines budget [w] rest, ?_, fun _ others hothers => ?_⟩
    · obtain ⟨more, lines, hlines⟩ := exists_fillLines_eq_cons budget [w] rest
      rw [hlines]
      exact List.cons_ne_nil _ _
    · change spaced (fill budget w rest) = _
      rw [hfill, spaced_map_spaced (ne_nil_fillLines w rest), hflatten]
    · have hall : w :: rest <:+ others.flatten := hothers.flatten_eq ▸ List.suffix_rfl
      exact length_filledLines_le hothers.fits hall

/-- A word that is too long stands alone, and the words behind it start a line of their own. -/
theorem an_overlong_word_stands_alone :
    let text := "  a bc\tunbreakable d e ".toList
    let others := [["a"], ["bc"], ["unbreakable"], ["d", "e"]].map (List.map String.toList)
    words text ≠ [] ∧ AreLines 5 (words text) others ∧ (wrap 5 text).length ≤ others.length ∧
      spaced (wrap 5 text) = "a bc unbreakable d e".toList := by
  intro text others
  have hwords : words text ≠ [] := by decide
  have hothers : AreLines 5 (words text) others := ⟨by decide, by decide⟩
  obtain ⟨lines, hwrap, -, -, -, hspaced, hfewest⟩ := lines_are_full_and_fewest 5 text
  refine ⟨hwords, hothers, ?_, hspaced.trans (by decide)⟩
  rw [hwrap, List.length_map]
  exact hfewest hwords others hothers

end DiagramPress.Text
