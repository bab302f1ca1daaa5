import Riaps.Foundation.PyText

/-!
# Text and bytes

`encode` and `decode` of UTF-8. What is encoded is decoded again, and a character of a text has its
bytes among those of the text.
-/

namespace Riaps.Foundation

/-- `t.encode("utf-8")`. -/
def encodeUtf8 (t : Text) : List UInt8 := t.flatMap String.utf8EncodeChar

/-- `data.decode("utf-8")`; `none` is the exception. -/
def decodeUtf8 (data : List UInt8) : Option Text := (ByteArray.utf8Decode? data.toByteArray).map Array.toList

@[simp] theorem decodeUtf8_encodeUtf8 (t : Text) : decodeUtf8 (encodeUtf8 t) = some t := by
  have hdecode := List.utf8Decode?_utf8Encode (l := t)
  rw [List.utf8Encode] at hdecode
  rw [decodeUtf8, encodeUtf8, hdecode]
  rfl

theorem eq_encodeUtf8_of_decodeUtf8 {data : List UInt8} {t : Text} (h : decodeUtf8 data = some t) :
    encodeUtf8 t = data := by
  obtain ⟨chars, hchars, rfl⟩ := Option.map_eq_some_iff.mp h
  have hencode := ByteArray.utf8Encode_get_utf8Decode? (h := Option.isSome_iff_exists.mpr ⟨chars, hchars⟩)
  simp only [hchars, Option.get_some, List.utf8Encode] at hencode
  rw [encodeUtf8, ← List.toList_data_toByteArray (l := chars.toList.flatMap String.utf8EncodeChar), hencode,
    List.toList_data_toByteArray]

/-- Without a byte of a character in what is decoded, the character is not in the text. -/
theorem notMem_decodeUtf8 {data : List UInt8} {t : Text} {c : Char} {b : UInt8} (hb : b ∈ String.utf8EncodeChar c)
    (hdata : b ∉ data) (h : decodeUtf8 data = some t) : c ∉ t := by
  intro hc
  refine hdata ?_
  rw [← eq_encodeUtf8_of_decodeUtf8 h]
  exact List.mem_flatMap.mpr ⟨c, hc, hb⟩

end Riaps.Foundation
