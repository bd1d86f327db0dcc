-- A packed text is unpacked as it was, and its packed form is made of plain
-- symbols, so that nothing in it looks like markup.
import DiagramPress.Codec.Packing
import DiagramPress.Proofs.Codec.Base64
import DiagramPress.Proofs.Codec.Deflate
import DiagramPress.Proofs.Text.Pieces

namespace DiagramPress.Codec

/-! ## Framed streams -/

namespace Zlib

/-- What was compressed is expanded again. -/
theorem expand?_compress (bytes : List UInt8) : expand? (compress bytes) = some bytes := by
  obtain ⟨k, hk, hblock⟩ := Deflate.expand?_compress bytes
  have hheader : isHeader 0x78 0xDA = true := by decide
  have hsplit : compress bytes =
      0x78 :: 0xDA :: (Deflate.compress bytes ++ fourBytes (checksum bytes)) := rfl
  have hexpand := hblock (Bits.ofBytes (fourBytes (checksum bytes)))
  rw [← Bits.ofBytes_append] at hexpand
  have hsum : ((Bits.align (List.replicate k false ++
      Bits.ofBytes (fourBytes (checksum bytes)))).take 32) =
        Bits.ofBytes (fourBytes (checksum bytes)) := by
    rw [Bits.align_zeros hk]
    exact List.take_of_length_le (by simp [Bits.length_ofBytes, fourBytes])
  rw [hsplit, expand?]
  simp [hheader, hexpand, hsum, Bits.toBytes_ofBytes]

end Zlib

namespace Packing

/-! ## Texts as bytes -/

theorem toList_loop (bytes : ByteArray) (i : Nat) (read : List UInt8) :
    ByteArray.toList.loop bytes i read = read.reverse ++ bytes.data.toList.drop i := by
  fun_induction ByteArray.toList.loop bytes i read with
  | case1 i read h ih =>
    have hlt : i < bytes.data.toList.length := h
    have hget : bytes.get! i = bytes.data.toList[i] := getElem!_pos bytes.data i h
    rw [ih, hget, List.reverse_cons, List.append_assoc, List.drop_eq_getElem_cons hlt]
    rfl
  | case2 i read h =>
    have hle : bytes.data.toList.length ≤ i := Nat.le_of_not_lt h
    rw [List.drop_of_length_le hle, List.append_nil]

theorem bytesOf_eq (text : String) : bytesOf text = text.toByteArray.data.toList := by
  rw [bytesOf, String.toUTF8, ByteArray.toList, toList_loop]
  rfl

/-- The bytes of a text are those of this text alone. -/
theorem fromUTF8?_bytesOf (text : String) :
    String.fromUTF8? (ByteArray.mk (bytesOf text).toArray) = some text := by
  have hbytes : ByteArray.mk (bytesOf text).toArray = text.toByteArray := by
    rw [bytesOf_eq]
  rw [hbytes, String.fromUTF8?, dif_pos text.isValidUTF8]
  rfl

/-! ## Plain symbols -/

/-- The character that stands for a byte. -/
def charOf (b : UInt8) : Char := Char.ofNat b.toNat

/-- A plain symbol is one byte long, and it is not white space. -/
theorem charOf_plain {b : UInt8} (h : Base64.isPlain b = true) :
    String.utf8EncodeChar (charOf b) = [b] ∧ Text.isBlank (charOf b) = false := by
  have hall : ∀ n < 256, Base64.isPlain (UInt8.ofNat n) = true →
      String.utf8EncodeChar (charOf (UInt8.ofNat n)) = [UInt8.ofNat n] ∧
        Text.isBlank (charOf (UInt8.ofNat n)) = false := by decide +kernel
  have hb := hall b.toNat b.toNat_lt
  rw [UInt8.ofNat_toNat] at hb
  exact hb h

theorem flatMap_utf8EncodeChar {bytes : List UInt8} (h : ∀ b ∈ bytes, Base64.isPlain b = true) :
    (bytes.map charOf).flatMap String.utf8EncodeChar = bytes := by
  induction bytes with
  | nil => rfl
  | cons b bytes ih =>
    rw [List.map_cons, List.flatMap_cons, (charOf_plain (h b (by simp))).1,
      ih fun x hx => h x (by simp [hx])]
    rfl

theorem bytesOf_ofSymbols {bytes : List UInt8} (h : ∀ b ∈ bytes, Base64.isPlain b = true) :
    bytesOf (ofSymbols bytes) = bytes := by
  have hchars : ofSymbols bytes = String.ofList (bytes.map charOf) := rfl
  rw [bytesOf_eq, hchars, String.toByteArray_ofList, List.utf8Encode, flatMap_utf8EncodeChar h,
    List.toList_data_toByteArray]

/-! ## Packings -/

/-- Texts in base 64, over any way to deflate bytes and to inflate them. -/
def wrapping (deflate : List UInt8 → List UInt8) (inflate? : List UInt8 → Option (List UInt8)) :
    Packing where
  pack text := ofSymbols (Base64.encode (deflate (bytesOf text)))
  unpack symbols :=
    match Base64.decode (bytesOf (String.ofList (Text.trim symbols.toList))) with
    | .error cause => .error (.base64 cause)
    | .ok bytes =>
      match inflate? bytes with
      | none => .error .damaged
      | some bytes =>
        match String.fromUTF8? (ByteArray.mk bytes.toArray) with
        | none => .error .noText
        | some text => .ok text

theorem compressed_eq_wrapping : compressed = wrapping Zlib.compress Zlib.expand? := rfl

section

variable {deflate : List UInt8 → List UInt8} {inflate? : List UInt8 → Option (List UInt8)}

/-- The packed form of a text has plain symbols only. -/
theorem pack_plain (text : String) :
    ∀ c ∈ ((wrapping deflate inflate?).pack text).toList,
      ∃ b, Base64.isPlain b = true ∧ c = charOf b := by
  intro c hc
  simp only [wrapping, ofSymbols, String.toList_ofList, List.mem_map] at hc
  obtain ⟨b, hb, rfl⟩ := hc
  exact ⟨b, Base64.isPlain_of_mem_encode b hb, rfl⟩

/-- What was packed is unpacked again. -/
theorem unpack_pack (h : ∀ bytes, inflate? (deflate bytes) = some bytes) (text : String) :
    (wrapping deflate inflate?).unpack ((wrapping deflate inflate?).pack text) = .ok text := by
  have hplain : ∀ b ∈ Base64.encode (deflate (bytesOf text)), Base64.isPlain b = true :=
    Base64.isPlain_of_mem_encode
  have htrim : Text.trim (ofSymbols (Base64.encode (deflate (bytesOf text)))).toList =
      (ofSymbols (Base64.encode (deflate (bytesOf text)))).toList := by
    refine Text.trim_of_no_blanks fun c hc => ?_
    have hpacked : c ∈ ((wrapping deflate inflate?).pack text).toList := hc
    obtain ⟨b, hb, rfl⟩ := pack_plain text c hpacked
    exact (charOf_plain hb).2
  simp only [wrapping, htrim, String.ofList_toList, bytesOf_ofSymbols hplain,
    Base64.decode_encode, h, fromUTF8?_bytesOf]

end

end Packing

end DiagramPress.Codec
