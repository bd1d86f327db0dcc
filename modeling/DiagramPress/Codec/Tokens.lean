-- A text of bytes as literals and copies of what stands before. Any list of
-- tokens that is found here stands for its bytes, however copies are looked for.
import Std.Data.HashMap

namespace DiagramPress.Codec

inductive Token where
  | literal (byte : UInt8)
  /-- As many bytes as stand so far back. -/
  | copy (length distance : Nat)
deriving DecidableEq, Repr

namespace Token

/-! ## What tokens stand for -/

/-- Copies bytes one by one, so that a copy may overlap with itself. -/
def copyBytes (distance : Nat) : Nat → Array UInt8 → Array UInt8
  | 0, out => out
  | length + 1, out => copyBytes distance length (out.push (out.getD (out.size - distance) 0))

/-- Adds what a token stands for; a copy cannot reach back before the start. -/
def expand? (out : Array UInt8) : Token → Option (Array UInt8)
  | literal byte => some (out.push byte)
  | copy length distance =>
    if 0 < distance ∧ distance ≤ out.size then some (copyBytes distance length out) else none

/-! ## Finding copies -/

def leastLength : Nat := 3

def greatestLength : Nat := 258

def greatestDistance : Nat := 32768

/-- How many places are tried for a copy. -/
def candidates : Nat := 32

/-- How many bytes are the same from two places on, at most `limit`. -/
def common (bytes : Array UInt8) : Nat → Nat → Nat → Nat
  | 0, _, _ => 0
  | limit + 1, i, j =>
    match bytes[i]?, bytes[j]? with
    | some a, some b => if a = b then common bytes limit (i + 1) (j + 1) + 1 else 0
    | _, _ => 0

/-- Where the same three bytes stood lately. -/
abbrev Recent := Std.HashMap Nat (List Nat)

/-- The three bytes from a place on as a number. -/
def key? (bytes : Array UInt8) (i : Nat) : Option Nat :=
  match bytes[i]?, bytes[i + 1]?, bytes[i + 2]? with
  | some a, some b, some c => some (a.toNat * 65536 + b.toNat * 256 + c.toNat)
  | _, _, _ => none

def remember (bytes : Array UInt8) (recent : Recent) (i : Nat) : Recent :=
  match key? bytes i with
  | some k => recent.insert k (i :: (recent.getD k []).take (candidates - 1))
  | none => recent

/-- The longest copy among the places, as length and place. -/
def longest (bytes : Array UInt8) (i : Nat) (places : List Nat) : Nat × Nat :=
  places.foldl (fun (best : Nat × Nat) j =>
    let length := common bytes greatestLength j i
    if j < i ∧ i - j ≤ greatestDistance ∧ best.1 < length then (length, j) else best) (0, 0)

/-- The tokens of the bytes from `i` on. -/
def findFrom (bytes : Array UInt8) : Nat → Nat → Recent → List Token → List Token
  | 0, _, _, found => found.reverse
  | fuel + 1, i, recent, found =>
    match bytes[i]? with
    | none => found.reverse
    | some b =>
      let places := ((key? bytes i).map fun k => recent.getD k []).getD []
      let (length, j) := longest bytes i places
      if leastLength ≤ length then
        let recent := (List.range length).foldl (fun r k => remember bytes r (i + k)) recent
        findFrom bytes fuel (i + length) recent (copy length (i - j) :: found)
      else findFrom bytes fuel (i + 1) (remember bytes recent i) (literal b :: found)

/-- The bytes as tokens, with the longest copies that are found from left to right. -/
def find (bytes : Array UInt8) : List Token := findFrom bytes bytes.size 0 ∅ []

end Token

/-! ## Classes of lengths and distances -/

/-- A class of numbers: the least one, and how many bits tell the others apart. -/
structure NumberClass where
  least : Nat
  width : Nat
deriving DecidableEq, Repr

def lengthClasses : List NumberClass :=
  [⟨3, 0⟩, ⟨4, 0⟩, ⟨5, 0⟩, ⟨6, 0⟩, ⟨7, 0⟩, ⟨8, 0⟩, ⟨9, 0⟩, ⟨10, 0⟩, ⟨11, 1⟩, ⟨13, 1⟩, ⟨15, 1⟩,
    ⟨17, 1⟩, ⟨19, 2⟩, ⟨23, 2⟩, ⟨27, 2⟩, ⟨31, 2⟩, ⟨35, 3⟩, ⟨43, 3⟩, ⟨51, 3⟩, ⟨59, 3⟩, ⟨67, 4⟩,
    ⟨83, 4⟩, ⟨99, 4⟩, ⟨115, 4⟩, ⟨131, 5⟩, ⟨163, 5⟩, ⟨195, 5⟩, ⟨227, 5⟩, ⟨258, 0⟩]

def distanceClasses : List NumberClass :=
  [⟨1, 0⟩, ⟨2, 0⟩, ⟨3, 0⟩, ⟨4, 0⟩, ⟨5, 1⟩, ⟨7, 1⟩, ⟨9, 2⟩, ⟨13, 2⟩, ⟨17, 3⟩, ⟨25, 3⟩, ⟨33, 4⟩,
    ⟨49, 4⟩, ⟨65, 5⟩, ⟨97, 5⟩, ⟨129, 6⟩, ⟨193, 6⟩, ⟨257, 7⟩, ⟨385, 7⟩, ⟨513, 8⟩, ⟨769, 8⟩,
    ⟨1025, 9⟩, ⟨1537, 9⟩, ⟨2049, 10⟩, ⟨3073, 10⟩, ⟨4097, 11⟩, ⟨6145, 11⟩, ⟨8193, 12⟩,
    ⟨12289, 12⟩, ⟨16385, 13⟩, ⟨24577, 13⟩]

/-- The class of a number: the last one that does not start above it. -/
def classOf (classes : List NumberClass) (n : Nat) : Nat :=
  (classes.takeWhile fun c => c.least ≤ n).length - 1

end DiagramPress.Codec
