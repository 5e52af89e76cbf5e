import SolidityLint.Text.Utf8

/-!
# Text — characters from bytes

A text is read back from its bytes (`textOfBytes_toUTF8`).  Bytes that are not can be lost in the
text that they are read as; those below 128 never are, since each of them is a character of its own
(`toUTF8_ofList_decode`).
-/

namespace SolidityLint

theorem toList_bytes (bs : ByteArray) : bs.toList = bs.data.toList := by
  have loop (i : Nat) (r : List UInt8) :
      ByteArray.toList.loop bs i r = r.reverse ++ bs.data.toList.drop i := by
    fun_induction ByteArray.toList.loop bs i r with
    | case1 i r more ih =>
        have there : i < bs.data.toList.length := by simpa using more
        have first : bs.get! i = bs.data.toList.get ⟨i, there⟩ :=
          getElem!_pos bs.data i (by simpa using there)
        rw [ih, List.drop_eq_getElem_cons there, List.reverse_cons, first]
        simp
    | case2 i r done =>
        have none : bs.data.toList.length ≤ i := by simpa using done
        rw [List.drop_eq_nil_of_le none, List.append_nil]
  exact loop 0 []

theorem textOfBytes_toUTF8 (s : String) : textOfBytes s.toUTF8 = s := by
  have read : String.fromUTF8? s.toUTF8 = some s := dif_pos s.isValidUTF8
  rw [textOfBytes, read]

/-! ### Bytes below 128 -/

theorem Utf8.decode_of_ascii {bytes : List UInt8} (h : ∀ b ∈ bytes, b < 0x80) :
    decode bytes = bytes.map fun b => Char.ofNat b.toNat := by
  induction bytes with
  | nil => rfl
  | cons b bytes ih =>
      have first : next b bytes = (Char.ofNat b.toNat, 1) := if_pos (h b List.mem_cons_self)
      have rest := ih fun c hc => h c (List.mem_cons_of_mem b hc)
      rw [List.map_cons, ← rest, decode, decodeSized, decodeSized.go, first]
      rfl

theorem toNat_char_of_ascii {b : UInt8} (h : b < 0x80) : (Char.ofNat b.toNat).toNat = b.toNat := by
  have small : b.toNat < 128 := by simpa using UInt8.lt_iff_toNat_lt.mp h
  rw [Char.ofNat, dif_pos (Or.inl (by omega))]
  rfl

/-- The character that a byte below 128 is read as is written as this byte. -/
theorem utf8EncodeChar_of_ascii {b : UInt8} (h : b < 0x80) :
    String.utf8EncodeChar (Char.ofNat b.toNat) = [b] := by
  have small : b.toNat < 128 := by simpa using UInt8.lt_iff_toNat_lt.mp h
  have value : (Char.ofNat b.toNat).val.toNat = b.toNat := toNat_char_of_ascii h
  rw [String.utf8EncodeChar, value, if_pos (by omega), UInt8.ofNat_toNat]

/-- **Bytes below 128** are the bytes of the text that they are read as. -/
theorem toUTF8_ofList_decode {bytes : List UInt8} (h : ∀ b ∈ bytes, b < 0x80) :
    (String.ofList (Utf8.decode bytes)).toUTF8 = bytes.toByteArray := by
  have same : (bytes.map fun b => Char.ofNat b.toNat).flatMap String.utf8EncodeChar = bytes := by
    rw [List.flatMap_map]
    induction bytes with
    | nil => rfl
    | cons b bytes ih =>
        rw [List.flatMap_cons, utf8EncodeChar_of_ascii (h b List.mem_cons_self),
          ih fun c hc => h c (List.mem_cons_of_mem b hc)]
        rfl
  rw [Utf8.decode_of_ascii h, String.toUTF8, String.toByteArray_ofList, List.utf8Encode, same]

end SolidityLint
