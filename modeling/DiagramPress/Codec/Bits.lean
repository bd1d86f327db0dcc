-- Bytes as a stream of bits, the lowest bit of every byte first.

namespace DiagramPress.Codec.Bits

/-- The lowest bits of a number, the lowest first. -/
def ofNat : Nat → Nat → List Bool
  | 0, _ => []
  | width + 1, n => (n % 2 = 1) :: ofNat width (n / 2)

/-- The number whose bits these are, the lowest first. -/
def toNat : List Bool → Nat
  | [] => 0
  | b :: rest => b.toNat + 2 * toNat rest

def ofBytes (bytes : List UInt8) : List Bool := bytes.flatMap fun b => ofNat 8 b.toNat

/-- The bytes of a stream; the last one is filled up with zeros. -/
def toBytes : List Bool → List UInt8
  | a :: b :: c :: d :: e :: f :: g :: h :: rest =>
    UInt8.ofNat (toNat [a, b, c, d, e, f, g, h]) :: toBytes rest
  | [] => []
  | bits => [UInt8.ofNat (toNat bits)]

/-- Takes a number of so many bits off a stream. -/
def take? (width : Nat) (bits : List Bool) : Option (Nat × List Bool) :=
  let taken := bits.take width
  if taken.length = width then some (toNat taken, bits.drop width) else none

/-- Drops the bits up to the start of a byte, in a stream that ends with a whole byte. -/
def align (bits : List Bool) : List Bool := bits.drop (bits.length % 8)

end DiagramPress.Codec.Bits
