-- Texts packed into a short line of plain symbols: compressed bytes between a
-- header and a checksum, written as base 64.
import DiagramPress.Codec.Base64
import DiagramPress.Codec.Deflate
import DiagramPress.Text.Words

namespace DiagramPress.Codec

/-! ## Framed streams -/

namespace Zlib

/-- The checksum of bytes: their sum, and the sum of the sums. -/
def checksum (bytes : List UInt8) : Nat :=
  let (a, b) := bytes.foldl (fun (a, b) byte =>
    let a := (a + byte.toNat) % 65521
    (a, (b + a) % 65521)) (1, 0)
  b * 65536 + a

/-- The method, and the promise of the best compression. -/
def header : List UInt8 := [0x78, 0xDA]

/-- A number as four bytes, the highest first. -/
def fourBytes (n : Nat) : List UInt8 :=
  [UInt8.ofNat (n / 16777216), UInt8.ofNat (n / 65536), UInt8.ofNat (n / 256), UInt8.ofNat n]

def compress (bytes : List UInt8) : List UInt8 :=
  header ++ Deflate.compress bytes ++ fourBytes (checksum bytes)

/-- The header names the one known method, a window of at most 32768 bytes and
no dictionary, and it is a multiple of 31. -/
def isHeader (first second : UInt8) : Bool :=
  (first.toNat * 256 + second.toNat) % 31 = 0 && first.toNat % 16 = 8 && first.toNat / 16 ≤ 7 &&
    second.toNat / 32 % 2 = 0

/-- Reads a framed stream. What follows it is passed over. -/
def expand? (bytes : List UInt8) : Option (List UInt8) :=
  match bytes with
  | first :: second :: rest => do
    if !isHeader first second then none
    let st ← Deflate.expand? (Bits.ofBytes rest)
    let sum := (Bits.toBytes ((Bits.align st.bits).take 32))
    let out := st.out.toList
    if sum = fourBytes (checksum out) then return out else none
  | _ => none

end Zlib

/-! ## Packed texts -/

/-- Why a text cannot be unpacked. -/
inductive UnpackError where
  | base64 (cause : Base64Error)
  | damaged
  | noText
deriving DecidableEq, Repr

def UnpackError.message : UnpackError → String
  | base64 cause => cause.message
  | damaged => "corrupt deflate stream"
  | noText => "stream did not contain valid UTF-8"

/-- A way to hide a text in plain symbols and to get it back. -/
structure Packing where
  pack : String → String
  unpack : String → Except UnpackError String

namespace Packing

def bytesOf (text : String) : List UInt8 := text.toUTF8.toList

/-- The text with one symbol for each byte. -/
def ofSymbols (bytes : List UInt8) : String :=
  String.ofList (bytes.map fun b => Char.ofNat b.toNat)

/-- Compressed texts in base 64. White space around them does not count. -/
def compressed : Packing where
  pack text := ofSymbols (Base64.encode (Zlib.compress (bytesOf text)))
  unpack symbols :=
    match Base64.decode (bytesOf (String.ofList (Text.trim symbols.toList))) with
    | .error cause => .error (.base64 cause)
    | .ok bytes =>
      match Zlib.expand? bytes with
      | none => .error .damaged
      | some bytes =>
        match String.fromUTF8? (ByteArray.mk bytes.toArray) with
        | none => .error .noText
        | some text => .ok text

end Packing

end DiagramPress.Codec
