-- The compressed form of bytes: blocks of tokens, each written as a code for
-- its class with some further bits. Writing uses one block with fixed codes;
-- reading knows all kinds of blocks.
import DiagramPress.Codec.Bits
import DiagramPress.Codec.Huffman
import DiagramPress.Codec.Tokens

namespace DiagramPress.Codec.Deflate

/-! ## Writing -/

/-- A code, whose highest bit comes first. -/
def codeBits (width code : Nat) : List Bool := (Bits.ofNat width code).reverse

/-- The fixed code of a literal, of the end or of a class of lengths. -/
def symbolBits (s : Nat) : List Bool :=
  if s < 144 then codeBits 8 (s + 48)
  else if s < 256 then codeBits 9 (s + 256)
  else if s < 280 then codeBits 7 (s - 256)
  else codeBits 8 (s - 88)

/-- The symbol that ends a block. -/
def endSymbol : Nat := 256

/-- The symbol of the first class of lengths. -/
def firstLengthSymbol : Nat := 257

/-- What has to be added to the least number of the class. -/
def furtherBits (classes : List NumberClass) (index n : Nat) : List Bool :=
  match classes[index]? with
  | some c => Bits.ofNat c.width (n - c.least)
  | none => []

def tokenBits : Token → List Bool
  | .literal b => symbolBits b.toNat
  | .copy length distance =>
    let l := classOf lengthClasses length
    let d := classOf distanceClasses distance
    symbolBits (firstLengthSymbol + l) ++ furtherBits lengthClasses l length ++ codeBits 5 d ++
      furtherBits distanceClasses d distance

/-- One last block with fixed codes. -/
def blockBits (tokens : List Token) : List Bool :=
  [true, true, false] ++ tokens.flatMap tokenBits ++ symbolBits endSymbol

def compress (bytes : List UInt8) : List UInt8 :=
  Bits.toBytes (blockBits (Token.find bytes.toArray))

/-! ## Reading tokens -/

/-- What has been read, and the bits that are left. -/
structure State where
  out : Array UInt8
  bits : List Bool

/-- Reads the further bits of a class. -/
def number? (classes : List NumberClass) (index : Nat) (bits : List Bool) :
    Option (Nat × List Bool) := do
  let c ← classes[index]?
  let (n, bits) ← Bits.take? c.width bits
  return (c.least + n, bits)

/-- Reads the token or the end of the block that stands next. -/
def token? (codes distances : HuffmanCode) (bits : List Bool) :
    Option (Option Token × List Bool) := do
  let (s, bits) ← codes.symbol? bits
  if s < endSymbol then return (some (.literal (UInt8.ofNat s)), bits)
  else if s = endSymbol then return (none, bits)
  else
    let (length, bits) ← number? lengthClasses (s - firstLengthSymbol) bits
    let (d, bits) ← distances.symbol? bits
    let (distance, bits) ← number? distanceClasses d bits
    return (some (.copy length distance), bits)

/-- Reads the tokens of a block. Every token takes a bit, so there are fewer
tokens than bits. -/
def tokens? (codes distances : HuffmanCode) : Nat → State → Option State
  | 0, _ => none
  | fuel + 1, st => do
    let (t, bits) ← token? codes distances st.bits
    match t with
    | none => return { st with bits := bits }
    | some t =>
      let out ← t.expand? st.out
      tokens? codes distances fuel ⟨out, bits⟩

/-! ## Reading blocks -/

/-- A block of plain bytes: their number, its complement, and the bytes. -/
def stored? (st : State) : Option State := do
  let (length, bits) ← Bits.take? 16 (Bits.align st.bits)
  let (complement, bits) ← Bits.take? 16 bits
  let plain := bits.take (8 * length)
  if length + complement = 65535 ∧ plain.length = 8 * length then
    return ⟨st.out ++ (Bits.toBytes plain).toArray, bits.drop (8 * length)⟩
  else none

/-- The order in which the lengths of the codes for lengths are given. -/
def lengthOrder : List Nat := [16, 17, 18, 0, 8, 7, 9, 6, 10, 5, 11, 4, 12, 3, 13, 2, 14, 1, 15]

/-- Reads `n` numbers of three bits. -/
def threes? : Nat → List Bool → Option (List Nat × List Bool)
  | 0, bits => some ([], bits)
  | n + 1, bits => do
    let (first, bits) ← Bits.take? 3 bits
    let (rest, bits) ← threes? n bits
    return (first :: rest, bits)

/-- Reads lengths of codes until there are `wanted`; `read` has the latest first.
A symbol above 15 repeats the latest length, or zero. -/
def lengths? (code : HuffmanCode) (wanted : Nat) :
    Nat → List Nat → List Bool → Option (List Nat × List Bool)
  | 0, _, _ => none
  | fuel + 1, read, bits =>
    if wanted < read.length then none
    else if read.length = wanted then some (read.reverse, bits)
    else do
      let (s, bits) ← code.symbol? bits
      if s < 16 then lengths? code wanted fuel (s :: read) bits
      else
        let (width, least) := if s = 16 then (2, 3) else if s = 17 then (3, 3) else (7, 11)
        let (n, bits) ← Bits.take? width bits
        let repeated ← if s = 16 then read.head? else some 0
        lengths? code wanted fuel (List.replicate (n + least) repeated ++ read) bits

/-- Reads the codes that a block brings along. -/
def codes? (bits : List Bool) : Option ((HuffmanCode × HuffmanCode) × List Bool) := do
  let (literals, bits) ← Bits.take? 5 bits
  let (distances, bits) ← Bits.take? 5 bits
  let (given, bits) ← Bits.take? 4 bits
  if literals > 29 ∨ distances > 29 then none
  let (short, bits) ← threes? (given + 4) bits
  let lengthOf (s : Nat) : Nat := ((lengthOrder.zip short).lookup s).getD 0
  let code ← HuffmanCode.ofLengths? ((List.range 19).map lengthOf)
  let wanted := literals + 257 + (distances + 1)
  let (lengths, bits) ← lengths? code wanted (wanted + 1) [] bits
  let first ← HuffmanCode.ofLengths? (lengths.take (literals + 257))
  let second ← HuffmanCode.ofLengths? (lengths.drop (literals + 257))
  return ((first, second), bits)

/-- The codes of a block, by its kind, with the bits after them. -/
def blockCodes? (kind : Nat) (bits : List Bool) :
    Option ((HuffmanCode × HuffmanCode) × List Bool) :=
  if kind = 1 then do
    let first ← HuffmanCode.ofLengths? HuffmanCode.fixedLengths
    let second ← HuffmanCode.ofLengths? HuffmanCode.fixedDistanceLengths
    return ((first, second), bits)
  else if kind = 2 then codes? bits
  else none

/-- Reads blocks up to the last one. -/
def blocks? : Nat → State → Option State
  | 0, _ => none
  | fuel + 1, st => do
    let (last, bits) ← Bits.take? 1 st.bits
    let (kind, bits) ← Bits.take? 2 bits
    let st ←
      if kind = 0 then stored? { st with bits := bits }
      else do
        let ((codes, distances), bits) ← blockCodes? kind bits
        tokens? codes distances (bits.length + 1) { st with bits := bits }
    if last = 1 then return st else blocks? fuel st

/-- Reads a compressed stream; what follows it is left over. -/
def expand? (bits : List Bool) : Option State := blocks? (bits.length + 1) ⟨#[], bits⟩

end DiagramPress.Codec.Deflate
