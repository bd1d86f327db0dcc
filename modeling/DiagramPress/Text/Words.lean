-- Blanks and words: trimming a text, taking it apart at blanks or at a mark,
-- and filling lines with words.

namespace DiagramPress.Text

/-! ## Blanks -/

/-- The white space of the Unicode standard. -/
def isBlank (c : Char) : Bool :=
  let n := c.toNat
  (0x09 ≤ n && n ≤ 0x0D) || n = 0x20 || n = 0x85 || n = 0xA0 || n = 0x1680 ||
    (0x2000 ≤ n && n ≤ 0x200A) || n = 0x2028 || n = 0x2029 || n = 0x202F || n = 0x205F ||
    n = 0x3000

/-- Drops the blanks at the end. -/
def trimEnd (cs : List Char) : List Char := (cs.reverse.dropWhile isBlank).reverse

/-- Drops the blanks at both ends. -/
def trim (cs : List Char) : List Char := trimEnd (cs.dropWhile isBlank)

/-! ## Taking a text apart -/

/-- The pieces between the characters that `p` marks; there is always one. -/
def split (p : Char → Bool) : List Char → List (List Char)
  | [] => [[]]
  | c :: cs =>
    match split p cs with
    | [] => [[c]]
    | piece :: pieces => if p c then [] :: piece :: pieces else (c :: piece) :: pieces

/-- What is left after `word`, if the text starts with it. -/
def after? (word text : List Char) : Option (List Char) :=
  if word.isPrefixOf text then some (text.drop word.length) else none

/-- The parts before and after the first `mark`. -/
def splitOnce? (mark : Char) : List Char → Option (List Char × List Char)
  | [] => none
  | c :: cs =>
    if c = mark then some ([], cs)
    else (splitOnce? mark cs).map fun (before, after) => (c :: before, after)

/-- The longest pieces without blanks, in order. -/
def words (cs : List Char) : List (List Char) :=
  (split isBlank cs).filter fun piece => !piece.isEmpty

/-! ## Filling lines -/

/-- Adds words to `line` while the line stays within the budget of characters,
then goes on with the next line. -/
def fill (budget : Nat) (line : List Char) : List (List Char) → List (List Char)
  | [] => [line]
  | word :: rest =>
    if line.length + 1 + word.length ≤ budget then
      fill budget (line ++ ' ' :: word) rest
    else line :: fill budget word rest

/-- The words of a text on as few lines as the budget allows. A longer word
stands alone, and a text without words is one empty line. -/
def wrap (budget : Nat) (text : List Char) : List (List Char) :=
  match words text with
  | [] => [[]]
  | word :: rest => fill budget word rest

end DiagramPress.Text
