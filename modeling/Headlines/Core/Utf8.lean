import Headlines.Core.Subject

/-! # Strings by their bytes

A string whose bytes begin with those of another begins with it, and an ASCII byte at the end is the last
character: no encoding of a character ends inside that of another.
-/

namespace Headlines.Core

theorem bytes_append (one other : String) : bytes (one ++ other) = bytes one ++ bytes other := by
  simp [bytes]

theorem bytes_ofList (chars : List Char) : bytes (String.ofList chars) = chars.flatMap String.utf8EncodeChar := by
  simp [bytes, List.utf8Encode]

theorem bytes_injective {one other : String} (same : bytes one = bytes other) : one = other :=
  String.toByteArray_inj.mp (ByteArray.ext (Array.toList_inj.mp same))

/-- The bytes of a string begin with those of another exactly if it begins with it. -/
theorem bytes_isPrefix {start s : String} {rest : List UInt8} (same : bytes s = bytes start ++ rest) :
    ∃ tail, s = start ++ tail ∧ rest = bytes tail := by
  have encoded : start.toList.utf8Encode ++ (⟨rest.toArray⟩ : ByteArray) = s.toList.utf8Encode := by
    rw [String.utf8Encode_toList, String.utf8Encode_toList]
    refine ByteArray.ext (Array.toList_inj.mp ?_)
    simpa [bytes] using same.symm
  obtain ⟨tail, whole⟩ := List.isPrefix_of_utf8Encode_append_eq_utf8Encode _ encoded
  have split : s = start ++ String.ofList tail := by
    rw [← String.toList_inj, String.toList_append, String.toList_ofList, whole]
  refine ⟨String.ofList tail, split, ?_⟩
  rw [split, bytes_append] at same
  exact (List.append_cancel_left same).symm

/-- Only a character of one byte ends with an ASCII byte. -/
theorem utf8EncodeChar_last {c : Char} {front : List UInt8} {byte : UInt8} (ascii : byte &&& 0x80 = 0)
    (same : String.utf8EncodeChar c = front ++ [byte]) : front = [] := by
  have last : front.length < (String.utf8EncodeChar c).length := by
    rw [same]
    simp
  have first : ((String.utf8EncodeChar c).get ⟨front.length, last⟩).IsUTF8FirstByte := by
    simp only [same, List.get_eq_getElem, List.getElem_concat_length]
    exact .inl ascii
  exact List.length_eq_zero_iff.mp (UInt8.isUTF8FirstByte_getElem_utf8EncodeChar.mp first)

/-- An ASCII byte at the end of a string is its last character. -/
theorem bytes_concat {s : String} {front : List UInt8} {c : Char} {byte : UInt8} (ascii : byte &&& 0x80 = 0)
    (encoded : String.utf8EncodeChar c = [byte]) (same : bytes s = front ++ [byte]) :
    ∃ start, s = start ++ String.singleton c ∧ bytes start = front := by
  have single : bytes (String.singleton c) = [byte] := by
    rw [← encoded]
    simp [bytes, List.utf8Encode]
  rcases List.eq_nil_or_concat s.toList with empty | ⟨before, last, whole⟩
  · obtain rfl : s = "" := String.toList_eq_nil_iff.mp empty
    exact absurd same.symm (List.append_ne_nil_of_right_ne_nil _ (List.cons_ne_nil _ _))
  · have split : s = String.ofList before ++ String.singleton last := by
      rw [← String.toList_inj, whole]
      simp
    rw [split, bytes_append] at same
    have whole : bytes (String.singleton last) = String.utf8EncodeChar last := by
      simp [bytes, List.utf8Encode]
    obtain ⟨init, final, ends⟩ := (List.eq_nil_or_concat (String.utf8EncodeChar last)).resolve_left String.utf8EncodeChar_ne_nil
    rw [whole, ends, List.concat_eq_append, ← List.append_assoc] at same
    obtain ⟨rfl, rfl⟩ := List.concat_inj.mp (by simpa only [List.concat_eq_append] using same)
    rw [List.concat_eq_append] at ends
    obtain rfl := utf8EncodeChar_last ascii ends
    refine ⟨String.ofList before, ?_, (List.append_nil _).symm⟩
    rw [split]
    congr 1
    refine bytes_injective ?_
    rw [whole, ends, single, List.nil_append]

end Headlines.Core
