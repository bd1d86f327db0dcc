-- The distance of two texts is what its name says: the least number of edits of
-- single characters that turn one text into the other, wherever and in whatever
-- order the edits are made.
import DiagramPress.Catalog.Distance
import Mathlib.Data.Nat.Init
import Mathlib.Order.Bounds.Defs
import Mathlib.Order.MinMax
import Mathlib.Order.Nat

namespace DiagramPress.Catalog

/-! ## Edits -/

/-- One character is put in, taken out or exchanged. -/
inductive Edit : List Char → List Char → Prop
  | insert (before after : List Char) (c : Char) : Edit (before ++ after) (before ++ c :: after)
  | delete (before after : List Char) (c : Char) : Edit (before ++ c :: after) (before ++ after)
  | exchange (before after : List Char) (c d : Char) :
    Edit (before ++ c :: after) (before ++ d :: after)

/-- So many edits, one after the other, turn the first text into the second. -/
inductive Turns : Nat → List Char → List Char → Prop
  | done (a : List Char) : Turns 0 a a
  | edit {n : Nat} {a b c : List Char} (h : Edit a b) (hrest : Turns n b c) : Turns (n + 1) a c

theorem Edit.cons {a b : List Char} (h : Edit a b) (p : Char) : Edit (p :: a) (p :: b) := by
  cases h with
  | insert before after c => exact .insert (p :: before) after c
  | delete before after c => exact .delete (p :: before) after c
  | exchange before after c d => exact .exchange (p :: before) after c d

theorem Edit.reverse {a b : List Char} (h : Edit a b) : Edit a.reverse b.reverse := by
  cases h with
  | insert before after c => simpa using Edit.insert after.reverse before.reverse c
  | delete before after c => simpa using Edit.delete after.reverse before.reverse c
  | exchange before after c d => simpa using Edit.exchange after.reverse before.reverse c d

namespace Turns

theorem cons {n : Nat} {a b : List Char} (h : Turns n a b) (p : Char) :
    Turns n (p :: a) (p :: b) := by
  induction h with
  | done a => exact .done (p :: a)
  | edit h _ ih => exact .edit (h.cons p) ih

theorem reverse {n : Nat} {a b : List Char} (h : Turns n a b) : Turns n a.reverse b.reverse := by
  induction h with
  | done a => exact .done a.reverse
  | edit h _ ih => exact .edit h.reverse ih

theorem reverse_iff {n : Nat} {a b : List Char} : Turns n a.reverse b.reverse ↔ Turns n a b :=
  ⟨fun h => by simpa using h.reverse, reverse⟩

/-- A text is written one character after the other. -/
theorem of_nil (b : List Char) : Turns b.length [] b := by
  induction b with
  | nil => exact .done []
  | cons d b ih => exact .edit (.insert [] [] d) (ih.cons d)

theorem to_nil (a : List Char) : Turns a.length a [] := by
  induction a with
  | nil => exact .done []
  | cons c a ih => exact .edit (.delete [] a c) ih

end Turns

/-! ## The fewest edits -/

/-- The fewest edits, found from the first characters on: equal ones stay, and else the
first character is taken out, put in or exchanged. -/
def fewest : List Char → List Char → Nat
  | [], b => b.length
  | a, [] => a.length
  | c :: a, d :: b =>
    if c = d then fewest a b
    else 1 + min (fewest a (d :: b)) (min (fewest (c :: a) b) (fewest a b))
termination_by a b => a.length + b.length

@[simp] theorem fewest_nil_left (b : List Char) : fewest [] b = b.length := by rw [fewest]

@[simp] theorem fewest_nil_right (a : List Char) : fewest a [] = a.length := by
  cases a with
  | nil => rw [fewest_nil_left]
  | cons c a =>
    rw [fewest]
    exact List.cons_ne_nil c a

theorem fewest_cons_self (c : Char) (a b : List Char) : fewest (c :: a) (c :: b) = fewest a b := by
  rw [fewest, if_pos rfl]

theorem fewest_cons_of_ne {c d : Char} (h : c ≠ d) (a b : List Char) :
    fewest (c :: a) (d :: b) =
      1 + min (fewest a (d :: b)) (min (fewest (c :: a) b) (fewest a b)) := by
  rw [fewest, if_neg h]

theorem fewest_self (a : List Char) : fewest a a = 0 := by
  induction a with
  | nil => simp
  | cons c a ih => rw [fewest_cons_self, ih]

theorem fewest_comm (a b : List Char) : fewest a b = fewest b a := by
  induction a generalizing b with
  | nil => simp
  | cons c a iha =>
    induction b with
    | nil => simp
    | cons d b ihb =>
      by_cases h : c = d
      · subst h
        rw [fewest_cons_self, fewest_cons_self, iha]
      · rw [fewest_cons_of_ne h, fewest_cons_of_ne (Ne.symm h), iha, iha, ihb, ← min_assoc,
          ← min_assoc, min_comm (fewest (d :: b) a)]

/-- There are as many edits as that. -/
theorem turns_fewest (a b : List Char) : Turns (fewest a b) a b := by
  induction a generalizing b with
  | nil => simpa using Turns.of_nil b
  | cons c a iha =>
    induction b with
    | nil => simpa using Turns.to_nil (c :: a)
    | cons d b ihb =>
      by_cases h : c = d
      · subst h
        rw [fewest_cons_self]
        exact (iha b).cons c
      · rw [fewest_cons_of_ne h, Nat.add_comm]
        rcases min_choice (fewest a (d :: b)) (min (fewest (c :: a) b) (fewest a b)) with
          hmin | hmin
        · rw [hmin]
          exact .edit (.delete [] a c) (iha (d :: b))
        · rw [hmin]
          rcases min_choice (fewest (c :: a) b) (fewest a b) with hmin | hmin
          · rw [hmin]
            exact .edit (.insert [] (c :: a) d) (ihb.cons d)
          · rw [hmin]
            exact .edit (.exchange [] a c d) ((iha b).cons d)

/-! ## No edit saves more than one -/

/-- A first character more or less on one side makes a difference of at most one. -/
theorem fewest_cons_left (c : Char) (a b : List Char) :
    fewest (c :: a) b ≤ fewest a b + 1 ∧ fewest a b ≤ fewest (c :: a) b + 1 := by
  -- Both sides swap places where first characters are dropped, so the lengths decrease together.
  induction hn : a.length + b.length using Nat.strongRecOn generalizing a b c with
  | _ n ih =>
    cases b with
    | nil =>
      rw [fewest_nil_right, fewest_nil_right, List.length_cons]
      omega
    | cons d b =>
      have hright := ih (b.length + a.length) (by simp at hn; omega) d b a rfl
      rw [fewest_comm (d :: b), fewest_comm b] at hright
      by_cases h : c = d
      · subst h
        rw [fewest_cons_self]
        exact hright.symm
      · have hleft := ih (a.length + b.length) (by simp at hn; omega) c a b rfl
        rw [fewest_cons_of_ne h]
        omega

theorem fewest_cons_right (a : List Char) (d : Char) (b : List Char) :
    fewest a (d :: b) ≤ fewest a b + 1 ∧ fewest a b ≤ fewest a (d :: b) + 1 := by
  rw [fewest_comm a, fewest_comm a]
  exact fewest_cons_left d b a

theorem fewest_exchange_le (c d : Char) (a x : List Char) :
    fewest (c :: a) x ≤ fewest (d :: a) x + 1 := by
  induction x with
  | nil => simp
  | cons e x ih =>
    have hright := fewest_cons_right a e x
    have hleft := fewest_cons_left d a x
    by_cases hc : c = e
    · rw [hc, fewest_cons_self]
      by_cases hd : d = e
      · rw [hd, fewest_cons_self]
        omega
      · rw [fewest_cons_of_ne hd]
        omega
    · rw [fewest_cons_of_ne hc]
      by_cases hd : d = e
      · rw [hd, fewest_cons_self]
        omega
      · rw [fewest_cons_of_ne hd]
        omega

/-- What holds of two texts holds of both behind one more first character. -/
theorem fewest_le_cons {a b : List Char} (h : ∀ x, fewest a x ≤ fewest b x + 1) (p : Char)
    (x : List Char) : fewest (p :: a) x ≤ fewest (p :: b) x + 1 := by
  induction x with
  | nil => simpa using h []
  | cons e x ih =>
    by_cases hp : p = e
    · rw [hp, fewest_cons_self, fewest_cons_self]
      exact h x
    · rw [fewest_cons_of_ne hp, fewest_cons_of_ne hp]
      have hhere := h x
      have hbehind := h (e :: x)
      omega

theorem fewest_le_append {a b : List Char} (h : ∀ x, fewest a x ≤ fewest b x + 1)
    (before x : List Char) : fewest (before ++ a) x ≤ fewest (before ++ b) x + 1 := by
  induction before generalizing x with
  | nil => exact h x
  | cons p before ih => exact fewest_le_cons ih p x

theorem Edit.fewest_le {a b : List Char} (h : Edit a b) (x : List Char) :
    fewest a x ≤ fewest b x + 1 := by
  cases h with
  | insert before after c =>
    exact fewest_le_append (fun x => (fewest_cons_left c after x).2) before x
  | delete before after c =>
    exact fewest_le_append (fun x => (fewest_cons_left c after x).1) before x
  | exchange before after c d => exact fewest_le_append (fewest_exchange_le c d after) before x

theorem Turns.fewest_le {n : Nat} {a b : List Char} (h : Turns n a b) : fewest a b ≤ n := by
  induction h with
  | done a => exact Nat.le_of_eq (fewest_self a)
  | edit h _ ih => exact Nat.le_trans (h.fewest_le _) (Nat.add_le_add_right ih 1)

theorem isLeast_fewest (a b : List Char) : IsLeast {n | Turns n a b} (fewest a b) :=
  ⟨turns_fewest a b, fun _ h => Turns.fewest_le h⟩

/-! ## The rows of the table -/

/-- The entries of a row behind a beginning of the second text. The beginnings are kept
backwards, as a row goes on with one more character each time. -/
def entries (a : List Char) : List Char → List Char → List Nat
  | _, [] => []
  | begun, d :: rest => fewest a (d :: begun) :: entries a (d :: begun) rest

/-- The row of a text, which is kept backwards too: its distances from all beginnings. -/
def row (a b : List Char) : List Nat := fewest a [] :: entries a [] b

theorem nextEntries_entries (c : Char) (a begun rest : List Char) :
    nextEntries c (fewest a begun) (fewest (c :: a) begun) rest (entries a begun rest) =
      entries (c :: a) begun rest := by
  induction rest generalizing begun with
  | nil => rw [entries, nextEntries, entries]; simp
  | cons d rest ih =>
    have hentry : (if c = d then fewest a begun
        else 1 + min (fewest a (d :: begun)) (min (fewest (c :: a) begun) (fewest a begun))) =
          fewest (c :: a) (d :: begun) := by
      rw [fewest]
    rw [entries, nextEntries, entries]
    simp only [hentry, ih]

theorem nextRow_row (c : Char) (a b : List Char) : nextRow b (row a b) c = row (c :: a) b := by
  have hnext := nextEntries_entries c a [] b
  rw [fewest_nil_right, fewest_nil_right, List.length_cons] at hnext
  rw [row, nextRow, row, fewest_nil_right, fewest_nil_right, List.length_cons, hnext]

theorem foldl_nextRow (a begun b : List Char) :
    a.foldl (nextRow b) (row begun b) = row (a.reverse ++ begun) b := by
  induction a generalizing begun with
  | nil => rfl
  | cons c a ih => rw [List.foldl_cons, nextRow_row, ih, List.reverse_cons, List.append_assoc]; rfl

/-- The first row numbers the beginnings by their lengths. -/
theorem row_nil (b : List Char) : row [] b = List.range (b.length + 1) := by
  have hentries (begun rest : List Char) :
      entries [] begun rest = List.range' (begun.length + 1) rest.length := by
    induction rest generalizing begun with
    | nil => rw [entries, List.length_nil, List.range'_zero]
    | cons d rest ih =>
      rw [entries, ih, fewest_nil_left, List.length_cons, List.length_cons, List.range'_succ]
  rw [row, hentries, fewest_nil_right, List.range_eq_range', List.range'_succ]
  rfl

/-- The last entry of a row belongs to the whole second text. -/
theorem getLastD_row (a b : List Char) : (row a b).getLastD 0 = fewest a b.reverse := by
  have hentries (begun rest : List Char) :
      (fewest a begun :: entries a begun rest).getLastD 0 = fewest a (rest.reverse ++ begun) := by
    induction rest generalizing begun with
    | nil => rfl
    | cons d rest ih =>
      have hlast := ih (d :: begun)
      rw [List.getLastD_cons] at hlast
      rw [entries, List.getLastD_cons, List.getLastD_cons, hlast, List.reverse_cons,
        List.append_assoc]
      rfl
  rw [row, hentries, List.append_nil]

theorem distance_eq (a b : List Char) : distance a b = fewest a.reverse b.reverse := by
  rw [distance, ← row_nil, foldl_nextRow, List.append_nil, getLastD_row]

/-- The distance of two texts is the least number of edits between them. -/
theorem isLeast_distance (a b : List Char) : IsLeast {n | Turns n a b} (distance a b) := by
  have hleast := isLeast_fewest a.reverse b.reverse
  simp only [Turns.reverse_iff] at hleast
  rwa [distance_eq]

end DiagramPress.Catalog
