import Mathlib.Data.List.Basic
import EnvTemplates.Text.Utf8

/-!
# Text and its bytes

What is decoded is what was encoded (`encode_of_decode?`). The bytes of an ASCII character stand for
nothing else, so the character is in a text if and only if its byte is among those of the text
(`byte_mem_encode_iff`).
-/

namespace EnvTemplates.Utf8

theorem encode_eq_utf8Encode (t : Text) : encode t = t.utf8Encode.data.toList := by
  rw [List.utf8Encode, List.data_toByteArray]
  rfl

/-- What is decoded is what was encoded. -/
theorem encode_of_decode? {bytes : Bytes} {t : Text} (h : decode? bytes = some t) :
    encode t = bytes := by
  obtain ⟨chars, hchars, rfl⟩ := Option.map_eq_some_iff.1 h
  have hget : ((ByteArray.mk bytes.toArray).utf8Decode?.get (by rw [hchars]; rfl)) = chars := by
    simp only [hchars, Option.get_some]
  have hbytes : chars.toList.utf8Encode = ByteArray.mk bytes.toArray := by
    rw [← hget]
    exact ByteArray.utf8Encode_get_utf8Decode?
  rw [encode_eq_utf8Encode, hbytes]

/-- Different texts have different encodings. -/
theorem encode_injective : Function.Injective encode := by
  intro s t h
  rw [encode_eq_utf8Encode, encode_eq_utf8Encode, Array.toList_inj] at h
  have hbytes : s.utf8Encode = t.utf8Encode := ByteArray.ext h
  apply String.ofList_injective
  exact String.toByteArray_inj.1 hbytes

/-- The byte of an ASCII character belongs to no other character. -/
theorem byte_mem_utf8EncodeChar_iff {a c : Char} (ha : a.toNat < 128) :
    UInt8.ofNat a.toNat ∈ String.utf8EncodeChar c ↔ c = a := by
  have hchar : c = a ↔ c.val.toNat = a.toNat := by
    rw [← Char.toNat_inj]
    rfl
  have hbyte : ∀ n, UInt8.ofNat a.toNat = UInt8.ofNat n ↔ a.toNat = n % 256 := by
    intro n
    rw [UInt8.ofNat_eq_iff_mod_eq_toNat, UInt8.toNat_ofNat']
    omega
  -- Only the first of the four forms has a byte below 128.
  rw [hchar, String.utf8EncodeChar]
  split
  · simp only [List.mem_singleton, hbyte]
    omega
  · split
    · simp only [List.mem_cons, List.not_mem_nil, or_false, hbyte]
      omega
    · split
      · simp only [List.mem_cons, List.not_mem_nil, or_false, hbyte]
        omega
      · simp only [List.mem_cons, List.not_mem_nil, or_false, hbyte]
        omega

/-- An ASCII character is in a text if and only if its byte is in the encoding. -/
theorem byte_mem_encode_iff {a : Char} (ha : a.toNat < 128) (t : Text) :
    UInt8.ofNat a.toNat ∈ encode t ↔ a ∈ t := by
  rw [encode, List.mem_flatMap]
  simp only [byte_mem_utf8EncodeChar_iff ha, exists_eq_right]

end EnvTemplates.Utf8
