-- Codes of different lengths for symbols, given by nothing but the lengths: the
-- codes of one length follow each other, and shorter codes come first.

namespace DiagramPress.Codec

structure HuffmanCode where
  /-- How many codes there are of each length, from 1 on. -/
  counts : List Nat
  /-- The symbols in the order of their codes. -/
  symbols : Array Nat

namespace HuffmanCode

def longestCode : Nat := 15

/-- How many of the possible codes of the greatest length stand behind the codes. -/
def covered (counts : List Nat) : Nat :=
  counts.zipIdx.foldl (fun n (count, index) => n + count * Nat.pow 2 (longestCode - 1 - index)) 0

/-- The code with these lengths, where a symbol of length 0 has no code. With
two codes or more every stream of bits has to start with one of them. -/
def ofLengths? (lengths : List Nat) : Option HuffmanCode :=
  let ofLength (n : Nat) : List Nat :=
    (lengths.zipIdx.filter fun (length, _) => length = n).map (·.2)
  let groups := (List.range longestCode).map fun i => ofLength (i + 1)
  let counts := groups.map List.length
  if groups.flatten.length ≤ 1 ∨ covered counts = Nat.pow 2 longestCode then some ⟨counts, groups.flatten.toArray⟩
  else none

/-- Looks for the code at the start of the bits. `code` is what has been read,
`first` the first code of the length before this one after doubling, and
`index` the place of its symbol. -/
def search (symbols : Array Nat) : List Nat → Nat → Nat → Nat → List Bool →
    Option (Nat × List Bool)
  | count :: counts, code, first, index, b :: rest =>
    let code := code + b.toNat
    if code < first + count then (symbols[index + (code - first)]?).map fun s => (s, rest)
    else search symbols counts (2 * code) (2 * (first + count)) (index + count) rest
  | _, _, _, _, _ => none

/-- The symbol at the start of the bits, and what follows it. -/
def symbol? (c : HuffmanCode) (bits : List Bool) : Option (Nat × List Bool) :=
  search c.symbols c.counts 0 0 0 bits

/-! ## The fixed codes -/

/-- The lengths of the fixed code for literals and lengths of copies. -/
def fixedLengths : List Nat :=
  List.replicate 144 8 ++ List.replicate 112 9 ++ List.replicate 24 7 ++ List.replicate 8 8

/-- The lengths of the fixed code for distances. -/
def fixedDistanceLengths : List Nat := List.replicate 32 5

end HuffmanCode

end DiagramPress.Codec
