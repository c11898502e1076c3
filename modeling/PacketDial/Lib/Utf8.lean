import Mathlib.Data.List.Basic

/-!
# Bytes that are UTF-8

A list of bytes is UTF-8 if it is the encoding of some characters. What comes after a part that is
UTF-8, and what comes before an ASCII byte, is UTF-8 if the whole is.
-/

namespace PacketDial.Lib

/-- The bytes are the encoding of some characters. -/
def IsUtf8 (bytes : List UInt8) : Prop := bytes.toByteArray.IsValidUTF8

instance (bytes : List UInt8) : Decidable (IsUtf8 bytes) :=
  inferInstanceAs (Decidable bytes.toByteArray.IsValidUTF8)

/-- The bytes of a text. -/
def utf8Bytes (text : String) : List UInt8 := text.toByteArray.data.toList

/-- The text that the bytes encode, if they are UTF-8. -/
def decodeUtf8 (bytes : List UInt8) : Option String := String.fromUTF8? bytes.toByteArray

/-- The encoding of some characters is read as these. -/
theorem decodeUtf8_flatMap (chars : List Char) :
    decodeUtf8 (chars.flatMap String.utf8EncodeChar) = some (String.ofList chars) := by
  have hvalid : (chars.flatMap String.utf8EncodeChar).toByteArray.IsValidUTF8 := ⟨chars, rfl⟩
  unfold decodeUtf8 String.fromUTF8?
  rw [dif_pos hvalid]
  rfl

namespace IsUtf8

variable {bytes more : List UInt8}

/-- No bytes encode no characters. -/
theorem nil : IsUtf8 [] := ByteArray.isValidUTF8_empty

/-- One encoding after another. -/
theorem append (h : IsUtf8 bytes) (h' : IsUtf8 more) : IsUtf8 (bytes ++ more) := by
  unfold IsUtf8
  rw [List.toByteArray_append]
  exact ByteArray.IsValidUTF8.append h h'

/-- What comes after the encoding of some characters. -/
theorem encode_append_iff (chars : List Char) (b : ByteArray) :
    (chars.utf8Encode ++ b).IsValidUTF8 ↔ b.IsValidUTF8 := by
  induction chars with
  | nil => simp
  | cons c chars ih =>
    rw [List.utf8Encode_cons, ByteArray.append_assoc,
      ByteArray.isValidUTF8_utf8Encode_singleton_append_iff, ih]

/-- What comes after an encoding. -/
theorem of_append (h : IsUtf8 (bytes ++ more)) (hbytes : IsUtf8 bytes) : IsUtf8 more := by
  obtain ⟨chars, hchars⟩ := hbytes
  unfold IsUtf8 at h
  rw [List.toByteArray_append, hchars] at h
  exact (encode_append_iff chars _).mp h

/-- What comes before a byte that begins a character. -/
theorem of_append_first {b : UInt8} (h : IsUtf8 (bytes ++ b :: more)) (hb : b.IsUTF8FirstByte) :
    IsUtf8 bytes := by
  let s : String := ⟨(bytes ++ b :: more).toByteArray, h⟩
  let p : String.Pos.Raw := ⟨bytes.length⟩
  have hsize : s.utf8ByteSize = bytes.length + (more.length + 1) := by
    change (bytes ++ b :: more).toByteArray.size = _
    simp
  have hlt : p < s.rawEndPos := by
    rw [String.Pos.Raw.lt_iff, String.byteIdx_rawEndPos, hsize]
    change bytes.length < _
    omega
  have hbyte : s.getUTF8Byte p hlt = b := by
    have hbytes : s.toByteArray = (bytes ++ b :: more).toByteArray := rfl
    simp [String.getUTF8Byte, p, hbytes, ByteArray.getElem_eq_getElem_data]
  have hp : p.IsValid s := by
    rw [String.Pos.Raw.isValid_iff_isUTF8FirstByte]
    refine Or.inr ⟨hlt, ?_⟩
    rw [hbyte]
    exact hb
  have hfirst := hp.isValidUTF8_extract_zero
  have hextract : s.toByteArray.extract 0 p.byteIdx = bytes.toByteArray := by
    change (bytes ++ b :: more).toByteArray.extract 0 bytes.length = _
    rw [List.toByteArray_append]
    exact ByteArray.extract_append_eq_left (by simp)
  rw [hextract] at hfirst
  exact hfirst

end IsUtf8

section Chars

variable {bytes more : List UInt8} {chars : List Char} {b : UInt8}

/-- The characters that the bytes encode, if they are UTF-8. -/
def decodeChars (bytes : List UInt8) : Option (List Char) := (decodeUtf8 bytes).map String.toList

/-- An ASCII byte stands for its own character only. -/
theorem toNat_of_mem_encode {c : Char} (hb : b.toNat < 0x80) (h : b ∈ String.utf8EncodeChar c) :
    c.toNat = b.toNat := by
  have high (n : Nat) (hn : 0x80 ≤ n % 256) : b ≠ UInt8.ofNat n := by
    rintro rfl
    rw [UInt8.toNat_ofNat'] at hb
    omega
  have hc : c.val.toNat = c.toNat := rfl
  unfold String.utf8EncodeChar at h
  rw [hc] at h
  dsimp only at h
  split at h
  · rw [List.mem_singleton.mp h, UInt8.toNat_ofNat']
    omega
  · exfalso
    split at h
    · simp only [List.mem_cons, List.not_mem_nil, or_false] at h
      rcases h with h | h <;> exact high _ (by omega) h
    · split at h
      · simp only [List.mem_cons, List.not_mem_nil, or_false] at h
        rcases h with h | h | h <;> exact high _ (by omega) h
      · simp only [List.mem_cons, List.not_mem_nil, or_false] at h
        rcases h with h | h | h | h <;> exact high _ (by omega) h

/-- The bytes of a text are those of its characters. -/
theorem utf8Bytes_eq (text : String) :
    utf8Bytes text = text.toList.flatMap String.utf8EncodeChar := by
  rw [utf8Bytes, ← String.utf8Encode_toList]
  simp [List.utf8Encode]

/-- Bytes are read just if they are UTF-8. -/
theorem decodeChars_eq_none_iff : decodeChars bytes = none ↔ ¬IsUtf8 bytes := by
  unfold decodeChars decodeUtf8 String.fromUTF8? IsUtf8
  rw [Option.map_eq_none_iff]
  split
  · next h => exact iff_of_false (Option.some_ne_none _) (not_not_intro h)
  · next h => exact iff_of_true rfl h

/-- Bytes that are read are UTF-8. -/
theorem isUtf8_of_decodeChars (h : decodeChars bytes = some chars) : IsUtf8 bytes := by
  by_contra hinvalid
  rw [decodeChars_eq_none_iff.mpr hinvalid] at h
  cases h

/-- Bytes are read as some characters just if they are the encoding of these. -/
theorem decodeChars_eq_some_iff :
    decodeChars bytes = some chars ↔ chars.flatMap String.utf8EncodeChar = bytes := by
  constructor
  · intro h
    obtain ⟨read, hread⟩ := isUtf8_of_decodeChars h
    have hbytes : bytes = read.flatMap String.utf8EncodeChar := by
      have hdata := congrArg ByteArray.data hread
      simpa [List.utf8Encode] using congrArg Array.toList hdata
    rw [hbytes, decodeChars, decodeUtf8_flatMap, Option.map_some, String.toList_ofList] at h
    rw [hbytes, Option.some.inj h]
  · rintro rfl
    rw [decodeChars, decodeUtf8_flatMap, Option.map_some, String.toList_ofList]

/-- What is read in two parts is read as a whole. -/
theorem decodeChars_append {front back : List Char} (h : decodeChars bytes = some front)
    (h' : decodeChars more = some back) : decodeChars (bytes ++ more) = some (front ++ back) := by
  rw [decodeChars_eq_some_iff] at h h' ⊢
  rw [List.flatMap_append, h, h']

/-- Characters in front of bytes. -/
theorem decodeChars_encode_append (chars : List Char) (more : List UInt8) :
    decodeChars (chars.flatMap String.utf8EncodeChar ++ more) =
      (decodeChars more).map (chars ++ ·) := by
  have hfront : decodeChars (chars.flatMap String.utf8EncodeChar) = some chars :=
    decodeChars_eq_some_iff.mpr rfl
  cases hmore : decodeChars more with
  | some back => exact decodeChars_append hfront hmore
  | none =>
    rw [decodeChars_eq_none_iff] at hmore
    exact decodeChars_eq_none_iff.mpr fun h ↦ hmore (h.of_append ⟨chars, rfl⟩)

/-- A character of one byte between bytes. -/
theorem decodeChars_append_cons {c : Char} (hc : String.utf8EncodeChar c = [b])
    (hb : b.IsUTF8FirstByte) (bytes more : List UInt8) : decodeChars (bytes ++ b :: more) =
      (decodeChars bytes).bind fun front ↦ (decodeChars more).map fun back ↦
        front ++ c :: back := by
  have hback : decodeChars (b :: more) = (decodeChars more).map (c :: ·) := by
    have hcons := decodeChars_encode_append [c] more
    rwa [List.flatMap_singleton, hc] at hcons
  cases hfront : decodeChars bytes with
  | none =>
    rw [decodeChars_eq_none_iff] at hfront
    exact decodeChars_eq_none_iff.mpr fun h ↦ hfront (h.of_append_first hb)
  | some front =>
    cases hmore : decodeChars more with
    | some back =>
      rw [hmore] at hback
      exact decodeChars_append hfront hback
    | none =>
      rw [hmore, Option.map_none, decodeChars_eq_none_iff] at hback
      exact decodeChars_eq_none_iff.mpr fun h ↦
        hback (h.of_append (isUtf8_of_decodeChars hfront))

end Chars

end PacketDial.Lib
