-- Bytes as text: groups of three bytes become four symbols, and the last group
-- is filled up with padding. Reading takes only what writing can have made.

namespace DiagramPress.Codec

/-- Why a text stands for no bytes. Places count the bytes of the text. -/
inductive Base64Error where
  /-- A byte that is no symbol, or padding where it does not belong. -/
  | badByte (place : Nat) (byte : UInt8)
  /-- A single symbol is left at the end. -/
  | badLength (length : Nat)
  /-- The last symbol has bits that belong to no byte. -/
  | badLastSymbol (place : Nat) (byte : UInt8)
  | badPadding
deriving DecidableEq, Repr

def Base64Error.message : Base64Error → String
  | badByte place byte => "Invalid symbol " ++ toString byte ++ ", offset " ++ toString place ++ "."
  | badLength length => "Invalid input length: " ++ toString length
  | badLastSymbol place byte =>
    "Invalid last symbol " ++ toString byte ++ ", offset " ++ toString place ++ "."
  | badPadding => "Invalid padding"

namespace Base64

/-! ## Symbols -/

/-- The symbol for a number below 64. -/
def symbol (n : Nat) : UInt8 :=
  if n < 26 then UInt8.ofNat (n + 65)
  else if n < 52 then UInt8.ofNat (n + 71)
  else if n < 62 then UInt8.ofNat (n - 4)
  else if n = 62 then 43
  else 47

/-- The number that a symbol stands for. -/
def value? (b : UInt8) : Option Nat :=
  if 65 ≤ b ∧ b ≤ 90 then some (b.toNat - 65)
  else if 97 ≤ b ∧ b ≤ 122 then some (b.toNat - 71)
  else if 48 ≤ b ∧ b ≤ 57 then some (b.toNat + 4)
  else if b = 43 then some 62
  else if b = 47 then some 63
  else none

/-- The byte that fills up the last group. -/
def padding : UInt8 := 61

/-! ## Writing -/

def encode : List UInt8 → List UInt8
  | a :: b :: c :: rest =>
    let n := a.toNat * 65536 + b.toNat * 256 + c.toNat
    symbol (n / 262144) :: symbol (n / 4096 % 64) :: symbol (n / 64 % 64) :: symbol (n % 64) ::
      encode rest
  | [a, b] =>
    let n := a.toNat * 1024 + b.toNat * 4
    [symbol (n / 4096), symbol (n / 64 % 64), symbol (n % 64), padding]
  | [a] =>
    let n := a.toNat * 16
    [symbol (n / 64), symbol (n % 64), padding, padding]
  | [] => []

/-! ## Reading -/

def valueAt (place : Nat) (b : UInt8) : Except Base64Error Nat :=
  match value? b with
  | some n => .ok n
  | none => .error (.badByte place b)

/-- The values of the symbols of a group up to its padding, and how many bytes
of padding there are. -/
def symbolsAt (place : Nat) (start : Nat) : List UInt8 → Except Base64Error (List Nat × Nat)
  | [] => .ok ([], 0)
  | b :: rest =>
    if b = padding then
      if place < start + 2 ∨ !rest.all (· = padding) then .error (.badByte place b)
      else .ok ([], rest.length + 1)
    else do
      let n ← valueAt place b
      let (values, paddings) ← symbolsAt (place + 1) start rest
      return (n :: values, paddings)

/-- The bytes of the last group, which has at most four symbols and paddings. -/
def decodeLast (place : Nat) (group : List UInt8) : Except Base64Error (List UInt8) := do
  let (values, paddings) ← symbolsAt place place group
  let last := group.getD (values.length - 1) 0
  match values with
  | [] => return []
  | [_] => throw (.badLength (place + 1))
  | a :: b :: more =>
    if (values.length + paddings) % 4 ≠ 0 then throw .badPadding
    match more with
    | [] =>
      if b % 16 ≠ 0 then throw (.badLastSymbol (place + 1) last)
      return [UInt8.ofNat (a * 4 + b / 16)]
    | [c] =>
      if c % 4 ≠ 0 then throw (.badLastSymbol (place + 2) last)
      return [UInt8.ofNat (a * 4 + b / 16), UInt8.ofNat (b % 16 * 16 + c / 4)]
    | c :: d :: _ =>
      return [UInt8.ofNat (a * 4 + b / 16), UInt8.ofNat (b % 16 * 16 + c / 4),
        UInt8.ofNat (c % 4 * 64 + d)]

/-- The bytes of all groups from a place on. -/
def decodeFrom (place : Nat) : List UInt8 → Except Base64Error (List UInt8)
  | a :: b :: c :: d :: e :: rest => do
    let a ← valueAt place a
    let b ← valueAt (place + 1) b
    let c ← valueAt (place + 2) c
    let d ← valueAt (place + 3) d
    let bytes ← decodeFrom (place + 4) (e :: rest)
    return UInt8.ofNat (a * 4 + b / 16) :: UInt8.ofNat (b % 16 * 16 + c / 4) ::
      UInt8.ofNat (c % 4 * 64 + d) :: bytes
  | group => decodeLast place group

/-- A bad byte alone at the end, such as a line break, is reported before all others. -/
def strayEnd? (text : List UInt8) : Option Base64Error :=
  match text.getLast? with
  | some b =>
    if text.length % 4 = 1 ∧ b ≠ padding ∧ (value? b).isNone then
      some (.badByte (text.length - 1) b)
    else none
  | none => none

/-- Reads the bytes that a text stands for. -/
def decode (text : List UInt8) : Except Base64Error (List UInt8) :=
  match strayEnd? text with
  | some e => .error e
  | none => decodeFrom 0 text

end Base64

end DiagramPress.Codec
