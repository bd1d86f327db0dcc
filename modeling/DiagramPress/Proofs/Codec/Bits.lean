-- Numbers and bytes as bits: what is written in bits is read back, whatever
-- stands behind it in the stream.
import DiagramPress.Codec.Bits
import Mathlib.Algebra.Group.Nat.Defs

namespace DiagramPress.Codec.Bits

/-! ## Numbers -/

theorem length_ofNat (width n : Nat) : (ofNat width n).length = width := by
  induction width generalizing n with
  | zero => rfl
  | succ width ih => rw [ofNat, List.length_cons, ih]

theorem toNat_ofNat {width n : Nat} (h : n < 2 ^ width) : toNat (ofNat width n) = n := by
  induction width generalizing n with
  | zero => simp_all [ofNat, toNat]
  | succ width ih =>
    have hhalf : n / 2 < 2 ^ width := by
      rw [Nat.pow_succ] at h
      omega
    rw [ofNat, toNat, ih hhalf]
    rcases Nat.mod_two_eq_zero_or_one n with hmod | hmod <;> simp [hmod] <;> omega

theorem toNat_lt (bits : List Bool) : toNat bits < 2 ^ bits.length := by
  induction bits with
  | nil => decide
  | cons b bits ih =>
    have := b.toNat_le
    rw [toNat, List.length_cons, Nat.pow_succ]
    omega

theorem ofNat_toNat (bits : List Bool) : ofNat bits.length (toNat bits) = bits := by
  induction bits with
  | nil => rfl
  | cons b bits ih =>
    have hhalf : (b.toNat + 2 * toNat bits) / 2 = toNat bits := by
      have := b.toNat_lt
      omega
    have hlow : decide ((b.toNat + 2 * toNat bits) % 2 = 1) = b := by
      cases b <;> simp
    rw [List.length_cons, toNat, ofNat, hhalf, hlow, ih]

/-- A number is taken off the stream as it was put on. -/
theorem take?_ofNat {width n : Nat} (h : n < 2 ^ width) (rest : List Bool) :
    take? width (ofNat width n ++ rest) = some (n, rest) := by
  have htake : (ofNat width n ++ rest).take width = ofNat width n :=
    List.take_left' (length_ofNat width n)
  have hdrop : (ofNat width n ++ rest).drop width = rest :=
    List.drop_left' (length_ofNat width n)
  simp only [take?, htake, hdrop, length_ofNat, toNat_ofNat h, if_true]

/-! ## Bytes -/

theorem length_ofBytes (bytes : List UInt8) : (ofBytes bytes).length = 8 * bytes.length := by
  induction bytes with
  | nil => rfl
  | cons b bytes ih =>
    rw [ofBytes, List.flatMap_cons, List.length_append, length_ofNat, List.length_cons]
    have : (bytes.flatMap fun b => ofNat 8 b.toNat).length = 8 * bytes.length := ih
    omega

theorem ofBytes_append (a b : List UInt8) : ofBytes (a ++ b) = ofBytes a ++ ofBytes b :=
  List.flatMap_append

theorem toBytes_byte (b : UInt8) (rest : List Bool) :
    toBytes (ofNat 8 b.toNat ++ rest) = b :: toBytes rest := by
  have hbits : toNat (ofNat 8 b.toNat) = b.toNat := toNat_ofNat b.toNat_lt
  simp only [ofNat, List.cons_append, List.nil_append, toBytes] at hbits ⊢
  rw [hbits, UInt8.ofNat_toNat]

/-- Bytes are read back from their bits. -/
theorem toBytes_ofBytes (bytes : List UInt8) : toBytes (ofBytes bytes) = bytes := by
  induction bytes with
  | nil => rfl
  | cons b bytes ih =>
    have hcons : ofBytes (b :: bytes) = ofNat 8 b.toNat ++ ofBytes bytes := rfl
    rw [hcons, toBytes_byte, ih]

theorem toNat_append_zeros (bits : List Bool) (k : Nat) :
    toNat (bits ++ List.replicate k false) = toNat bits := by
  induction bits with
  | nil =>
    induction k with
    | zero => rfl
    | succ k ih =>
      rw [List.nil_append] at ih ⊢
      have hstep : toNat (false :: List.replicate k false) =
          2 * toNat (List.replicate k false) := by simp [toNat]
      rw [List.replicate_succ, hstep, ih]
      rfl
  | cons b bits ih => rw [List.cons_append, toNat, toNat, ih]

/-- Bits that are no more than a byte are filled up to one. -/
theorem ofNat_toNat_short {bits : List Bool} (h : bits.length ≤ 8) :
    ofNat 8 (UInt8.ofNat (toNat bits)).toNat =
      bits ++ List.replicate (8 - bits.length) false := by
  have hlt : toNat bits < 256 := by
    have := toNat_lt bits
    have : 2 ^ bits.length ≤ 2 ^ 8 := Nat.pow_le_pow_right (by decide) h
    omega
  have hwhole := ofNat_toNat (bits ++ List.replicate (8 - bits.length) false)
  rw [toNat_append_zeros, List.length_append, List.length_replicate,
    Nat.add_sub_cancel' h] at hwhole
  rw [UInt8.toNat_ofNat_of_lt' hlt, hwhole]

/-- A stream is read back from its bytes, with fewer than eight zeros behind it
that fill up the last byte. -/
theorem ofBytes_toBytes (bits : List Bool) :
    ∃ k < 8, (bits.length + k) % 8 = 0 ∧
      ofBytes (toBytes bits) = bits ++ List.replicate k false := by
  fun_induction toBytes bits with
  | case1 a b c d e f g h rest ih =>
    obtain ⟨k, hk, hlen, hrest⟩ := ih
    refine ⟨k, hk, ?_, ?_⟩
    · simp only [List.length_cons]
      omega
    · have hbyte : ofNat 8 (UInt8.ofNat (toNat [a, b, c, d, e, f, g, h])).toNat =
          [a, b, c, d, e, f, g, h] ++ [] := ofNat_toNat_short (by simp)
      rw [ofBytes, List.flatMap_cons, hbyte]
      exact congrArg ([a, b, c, d, e, f, g, h] ++ ·) hrest
  | case2 => exact ⟨0, by decide, rfl, rfl⟩
  | case3 bits hlong hne =>
    have hshort : bits.length < 8 := by
      match bits, hlong with
      | [], _ => simp
      | [_], _ => simp
      | [_, _], _ => simp
      | [_, _, _], _ => simp
      | [_, _, _, _], _ => simp
      | [_, _, _, _, _], _ => simp
      | [_, _, _, _, _, _], _ => simp
      | [_, _, _, _, _, _, _], _ => simp
      | a :: b :: c :: d :: e :: f :: g :: h :: rest, hlong =>
        exact absurd rfl (hlong a b c d e f g h rest)
    have hpos : 0 < bits.length := List.length_pos_iff.mpr (by simpa using hne)
    refine ⟨8 - bits.length, by omega, by omega, ?_⟩
    rw [ofBytes, List.flatMap_cons, List.flatMap_nil, List.append_nil,
      ofNat_toNat_short (by omega)]

/-- Dropping the rest of a byte gets to the next byte. -/
theorem align_zeros {k : Nat} (hk : k < 8) (bytes : List UInt8) :
    align (List.replicate k false ++ ofBytes bytes) = ofBytes bytes := by
  have hlen : (List.replicate k false ++ ofBytes bytes).length % 8 = k := by
    rw [List.length_append, List.length_replicate, length_ofBytes]
    omega
  rw [align, hlen]
  exact List.drop_left' List.length_replicate

end DiagramPress.Codec.Bits
