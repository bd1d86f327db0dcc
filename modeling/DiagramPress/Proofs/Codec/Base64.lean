-- Reading base 64 undoes writing it, and only plain symbols are written.
import DiagramPress.Codec.Base64

namespace DiagramPress.Codec.Base64

/-! ## Symbols -/

theorem value?_symbol : ∀ n < 64, value? (symbol n) = some n := by decide

theorem symbol_ne_padding : ∀ n < 64, symbol n ≠ padding := by decide

theorem valueAt_symbol (place : Nat) {n : Nat} (h : n < 64) : valueAt place (symbol n) = .ok n := by
  rw [valueAt, value?_symbol n h]

/-- A letter, a digit, or one of the three marks. -/
def isPlain (b : UInt8) : Bool := (value? b).isSome || b = padding

theorem isPlain_symbol {n : Nat} (h : n < 64) : isPlain (symbol n) = true := by
  rw [isPlain, value?_symbol n h]
  rfl

theorem isPlain_of_mem_encode {bytes : List UInt8} : ∀ b ∈ encode bytes, isPlain b = true := by
  fun_induction encode bytes with
  | case1 a b c rest n ih =>
    have ha := a.toNat_lt
    have hb := b.toNat_lt
    have hc := c.toNat_lt
    intro x hx
    simp only [List.mem_cons] at hx
    rcases hx with rfl | rfl | rfl | rfl | hx
    · exact isPlain_symbol (by omega)
    · exact isPlain_symbol (by omega)
    · exact isPlain_symbol (by omega)
    · exact isPlain_symbol (by omega)
    · exact ih x hx
  | case2 a b n =>
    have ha := a.toNat_lt
    have hb := b.toNat_lt
    intro x hx
    simp only [List.mem_cons, List.not_mem_nil, or_false] at hx
    rcases hx with rfl | rfl | rfl | rfl
    · exact isPlain_symbol (by omega)
    · exact isPlain_symbol (by omega)
    · exact isPlain_symbol (by omega)
    · decide
  | case3 a n =>
    have ha := a.toNat_lt
    intro x hx
    simp only [List.mem_cons, List.not_mem_nil, or_false] at hx
    rcases hx with rfl | rfl | rfl | rfl
    · exact isPlain_symbol (by omega)
    · exact isPlain_symbol (by omega)
    · decide
    · decide
  | case4 => simp

/-! ## Groups -/

theorem length_encode_mod (bytes : List UInt8) : (encode bytes).length % 4 = 0 := by
  fun_induction encode bytes with
  | case1 a b c rest n ih =>
    simp only [List.length_cons]
    omega
  | case2 a b n => simp
  | case3 a n => simp
  | case4 => rfl

theorem strayEnd?_encode (bytes : List UInt8) : strayEnd? (encode bytes) = none := by
  have h := length_encode_mod bytes
  unfold strayEnd?
  split
  · rw [if_neg]
    omega
  · rfl

theorem symbolsAt_symbol {n : Nat} (h : n < 64) (place start : Nat) (rest : List UInt8) :
    symbolsAt place start (symbol n :: rest) =
      (symbolsAt (place + 1) start rest).map fun (values, paddings) => (n :: values, paddings) := by
  rw [symbolsAt, if_neg (symbol_ne_padding n h), valueAt_symbol place h]
  rcases symbolsAt (place + 1) start rest with e | ⟨values, paddings⟩ <;> rfl

theorem decodeLast_full (place : Nat) {x y z w : Nat} (hx : x < 64) (hy : y < 64) (hz : z < 64)
    (hw : w < 64) : decodeLast place [symbol x, symbol y, symbol z, symbol w] =
      .ok [UInt8.ofNat (x * 4 + y / 16), UInt8.ofNat (y % 16 * 16 + z / 4),
        UInt8.ofNat (z % 4 * 64 + w)] := by
  have hsymbols : symbolsAt place place [symbol x, symbol y, symbol z, symbol w] =
      .ok ([x, y, z, w], 0) := by
    rw [symbolsAt_symbol hx, symbolsAt_symbol hy, symbolsAt_symbol hz, symbolsAt_symbol hw]
    rfl
  rw [decodeLast, hsymbols]
  simp [bind, Except.bind, pure, Except.pure]

theorem decodeLast_two (place : Nat) {x y z : Nat} (hx : x < 64) (hy : y < 64) (hz : z < 64)
    (hlast : z % 4 = 0) : decodeLast place [symbol x, symbol y, symbol z, padding] =
      .ok [UInt8.ofNat (x * 4 + y / 16), UInt8.ofNat (y % 16 * 16 + z / 4)] := by
  have hpadding : symbolsAt (place + 1 + 1 + 1) place [padding] = .ok ([], 1) := by
    simp [symbolsAt]
  have hsymbols : symbolsAt place place [symbol x, symbol y, symbol z, padding] =
      .ok ([x, y, z], 1) := by
    rw [symbolsAt_symbol hx, symbolsAt_symbol hy, symbolsAt_symbol hz, hpadding]
    rfl
  rw [decodeLast, hsymbols]
  simp [hlast, bind, Except.bind, pure, Except.pure]

theorem decodeLast_one (place : Nat) {x y : Nat} (hx : x < 64) (hy : y < 64)
    (hlast : y % 16 = 0) : decodeLast place [symbol x, symbol y, padding, padding] =
      .ok [UInt8.ofNat (x * 4 + y / 16)] := by
  have hpadding : symbolsAt (place + 1 + 1) place [padding, padding] = .ok ([], 2) := by
    simp [symbolsAt]
  have hsymbols : symbolsAt place place [symbol x, symbol y, padding, padding] =
      .ok ([x, y], 2) := by
    rw [symbolsAt_symbol hx, symbolsAt_symbol hy, hpadding]
    rfl
  rw [decodeLast, hsymbols]
  simp [hlast, bind, Except.bind, pure, Except.pure]

theorem decodeFrom_cons (place : Nat) {x y z w : Nat} (hx : x < 64) (hy : y < 64) (hz : z < 64)
    (hw : w < 64) {rest bytes : List UInt8} (h : decodeFrom (place + 4) rest = .ok bytes) :
    decodeFrom place (symbol x :: symbol y :: symbol z :: symbol w :: rest) =
      .ok (UInt8.ofNat (x * 4 + y / 16) :: UInt8.ofNat (y % 16 * 16 + z / 4) ::
        UInt8.ofNat (z % 4 * 64 + w) :: bytes) := by
  cases rest with
  | nil =>
    cases h
    exact decodeLast_full place hx hy hz hw
  | cons e rest =>
    rw [decodeFrom, valueAt_symbol _ hx, valueAt_symbol _ hy, valueAt_symbol _ hz,
      valueAt_symbol _ hw, h]
    rfl

theorem ofNat_eq {n : Nat} {b : UInt8} (h : n = b.toNat) : UInt8.ofNat n = b := by
  rw [h, UInt8.ofNat_toNat]

theorem decodeFrom_encode (bytes : List UInt8) (place : Nat) :
    decodeFrom place (encode bytes) = .ok bytes := by
  fun_induction encode bytes generalizing place with
  | case1 a b c rest n ih =>
    have ha := a.toNat_lt
    have hb := b.toNat_lt
    have hc := c.toNat_lt
    have hn : n = a.toNat * 65536 + b.toNat * 256 + c.toNat := rfl
    have hfirst : n / 262144 * 4 + n / 4096 % 64 / 16 = a.toNat := by omega
    have hsecond : n / 4096 % 64 % 16 * 16 + n / 64 % 64 / 4 = b.toNat := by omega
    have hthird : n / 64 % 64 % 4 * 64 + n % 64 = c.toNat := by omega
    rw [decodeFrom_cons place (by omega) (by omega) (by omega) (by omega) (ih (place + 4)),
      ofNat_eq hfirst, ofNat_eq hsecond, ofNat_eq hthird]
  | case2 a b n =>
    have ha := a.toNat_lt
    have hb := b.toNat_lt
    have hn : n = a.toNat * 1024 + b.toNat * 4 := rfl
    have hfirst : n / 4096 * 4 + n / 64 % 64 / 16 = a.toNat := by omega
    have hsecond : n / 64 % 64 % 16 * 16 + n % 64 / 4 = b.toNat := by omega
    rw [decodeFrom, decodeLast_two place (by omega) (by omega) (by omega) (by omega),
      ofNat_eq hfirst, ofNat_eq hsecond]
    simp
  | case3 a n =>
    have ha := a.toNat_lt
    have hn : n = a.toNat * 16 := rfl
    have hfirst : n / 64 * 4 + n % 64 / 16 = a.toNat := by omega
    rw [decodeFrom, decodeLast_one place (by omega) (by omega) (by omega), ofNat_eq hfirst]
    simp
  | case4 => rfl

/-- Reading undoes writing. -/
theorem decode_encode (bytes : List UInt8) : decode (encode bytes) = .ok bytes := by
  rw [decode, strayEnd?_encode]
  exact decodeFrom_encode bytes 0

end DiagramPress.Codec.Base64
