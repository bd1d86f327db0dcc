-- Texts in the order of their characters are in the order of their bytes: a longer
-- character starts with a larger byte, and no character starts another one.
import DiagramPress.Proofs.Codec.Packing
import Mathlib.Data.String.Basic
import Mathlib.Tactic.SplitIfs

namespace DiagramPress.Codec.Packing

/-- Of two numbers the smaller one is smaller at the first place, in base 64, where they
differ. -/
theorem lt_at_first_place {v w : Nat} (h : v < w) :
    v / 262144 < w / 262144 ∨ v / 262144 = w / 262144 ∧
      (v / 4096 % 64 < w / 4096 % 64 ∨ v / 4096 % 64 = w / 4096 % 64 ∧
        (v / 64 % 64 < w / 64 % 64 ∨ v / 64 % 64 = w / 64 % 64 ∧ v % 64 < w % 64)) := by
  rcases Nat.lt_or_eq_of_le (Nat.div_le_div_right (c := 262144) h.le) with hfirst | hfirst
  · exact .inl hfirst
  · refine .inr ⟨hfirst, ?_⟩
    rcases Nat.lt_or_eq_of_le (Nat.div_le_div_right (c := 4096) h.le) with hsecond | hsecond
    · exact .inl (by omega)
    · omega

/-- The bytes of the smaller character come first, whatever stands behind them. -/
theorem utf8EncodeChar_lt {c d : Char} (h : c < d) (r s : List UInt8) :
    String.utf8EncodeChar c ++ r < String.utf8EncodeChar d ++ s := by
  have hlt : c.val.toNat < d.val.toNat := h
  have hd : d.val.toNat < 0x110000 := by
    rcases d.valid with h | h <;> omega
  have hplace := lt_at_first_place hlt
  simp only [String.utf8EncodeChar]
  generalize c.val.toNat = v at *
  generalize d.val.toNat = w at *
  -- Characters of one length differ at the first place in which their numbers do.
  split_ifs
  all_goals first
    | omega
    | simp only [List.cons_append, List.nil_append, List.cons_lt_cons_iff, UInt8.lt_iff_toNat_lt,
        ← UInt8.toNat_inj, UInt8.toNat_ofNat']
      simp (disch := omega) only [Nat.mod_eq_of_lt]
      omega

theorem flatMap_utf8EncodeChar_lt {a b : List Char} (h : a < b) :
    a.flatMap String.utf8EncodeChar < b.flatMap String.utf8EncodeChar := by
  induction h with
  | nil =>
    rename_i d b
    obtain ⟨x, xs, hx⟩ := List.exists_cons_of_ne_nil (String.utf8EncodeChar_ne_nil (c := d))
    rw [List.flatMap_nil, List.flatMap_cons, hx, List.cons_append]
    exact List.nil_lt_cons x _
  | rel h => exact utf8EncodeChar_lt h _ _
  | cons _ ih => exact List.append_left_lt ih

/-- The order of texts is the order of their bytes. -/
theorem bytesOf_lt {a b : String} (h : a < b) : bytesOf a < bytesOf b := by
  have hbytes (text : String) : bytesOf text = text.toList.flatMap String.utf8EncodeChar := by
    rw [bytesOf_eq, ← String.utf8Encode_toList, List.utf8Encode, List.toList_data_toByteArray]
  rw [hbytes, hbytes]
  exact flatMap_utf8EncodeChar_lt (String.lt_iff_toList_lt.mp h)

end DiagramPress.Codec.Packing
