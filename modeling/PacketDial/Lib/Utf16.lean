import Mathlib.Data.List.Basic

/-!
# UTF-16

The code units of characters. A list of code units encodes characters unless one of them is a
surrogate without its other half; up to the first such unit it encodes characters.
-/

namespace PacketDial.Lib

/-- A unit that begins a pair. -/
def IsHigh (u : UInt16) : Prop := 0xD800 ≤ u.toNat ∧ u.toNat ≤ 0xDBFF

/-- A unit that ends a pair. -/
def IsLow (u : UInt16) : Prop := 0xDC00 ≤ u.toNat ∧ u.toNat ≤ 0xDFFF

instance (u : UInt16) : Decidable (IsHigh u) := instDecidableAnd

instance (u : UInt16) : Decidable (IsLow u) := instDecidableAnd

/-- The code units of a character. -/
def utf16Char (c : Char) : List UInt16 :=
  if c.toNat < 0x10000 then [UInt16.ofNat c.toNat]
  else [UInt16.ofNat (0xD800 + (c.toNat - 0x10000) / 0x400),
    UInt16.ofNat (0xDC00 + (c.toNat - 0x10000) % 0x400)]

/-- The code units of a text. -/
def utf16Encode (chars : List Char) : List UInt16 := chars.flatMap utf16Char

/-- The unit at a place is half of a pair whose other half is not next to it. -/
def LoneAt (units : List UInt16) (i : Nat) : Prop :=
  ∃ u, units[i]? = some u ∧
    (IsHigh u ∧ (∀ v, units[i + 1]? = some v → ¬IsLow v) ∨
      IsLow u ∧ ∀ j v, i = j + 1 → units[j]? = some v → ¬IsHigh v)

variable {units rest : List UInt16} {u v : UInt16} {i : Nat}

/-- A unit does not both begin and end a pair. -/
theorem IsHigh.not_isLow (h : IsHigh u) : ¬IsLow u := by
  unfold IsHigh at h
  unfold IsLow
  omega

/-- What comes before a unit that is alone does not matter. -/
theorem LoneAt.tail (h : LoneAt (u :: rest) (i + 1)) : LoneAt rest i := by
  obtain ⟨w, hw, hlone⟩ := h
  refine ⟨w, hw, hlone.imp id ?_⟩
  rintro ⟨hlow, hbefore⟩
  exact ⟨hlow, fun j v hj hv ↦ hbefore (j + 1) v (by omega) hv⟩

/-- The code point of a character is none of a surrogate, and below `0x110000`. -/
theorem toNat_char (c : Char) : c.toNat < 0xD800 ∨ 0xDFFF < c.toNat ∧ c.toNat < 0x110000 := c.valid

/-- A character is the one with its code point. -/
theorem exists_char {n : Nat} (h : n < 0xD800 ∨ 0xDFFF < n ∧ n < 0x110000) :
    ∃ c : Char, c.toNat = n := ⟨Char.ofNatAux n h, rfl⟩

/-- The code units of a character: one that is no surrogate, or a pair. -/
theorem utf16Char_cases (c : Char) :
    (∃ u, utf16Char c = [u] ∧ u.toNat = c.toNat ∧ ¬IsHigh u ∧ ¬IsLow u) ∨
      ∃ u v, utf16Char c = [u, v] ∧ IsHigh u ∧ IsLow v ∧
        c.toNat = 0x10000 + (u.toNat - 0xD800) * 0x400 + (v.toNat - 0xDC00) := by
  have hc := toNat_char c
  unfold utf16Char
  by_cases h : c.toNat < 0x10000
  · left
    have hu : (UInt16.ofNat c.toNat).toNat = c.toNat := by
      rw [UInt16.toNat_ofNat']
      omega
    refine ⟨_, if_pos h, hu, ?_, ?_⟩
    · unfold IsHigh
      omega
    · unfold IsLow
      omega
  · right
    have hu : (UInt16.ofNat (0xD800 + (c.toNat - 0x10000) / 0x400)).toNat =
        0xD800 + (c.toNat - 0x10000) / 0x400 := by
      rw [UInt16.toNat_ofNat']
      omega
    have hv : (UInt16.ofNat (0xDC00 + (c.toNat - 0x10000) % 0x400)).toNat =
        0xDC00 + (c.toNat - 0x10000) % 0x400 := by
      rw [UInt16.toNat_ofNat']
      omega
    refine ⟨_, _, if_neg h, ?_, ?_, ?_⟩
    · unfold IsHigh
      omega
    · unfold IsLow
      omega
    · omega

/-- A unit that is no surrogate is a character. -/
theorem exists_utf16Char (hhigh : ¬IsHigh u) (hlow : ¬IsLow u) : ∃ c, utf16Char c = [u] := by
  have hu := u.toNat_lt
  unfold IsHigh at hhigh
  unfold IsLow at hlow
  obtain ⟨c, hc⟩ := exists_char (n := u.toNat) (by omega)
  refine ⟨c, ?_⟩
  rw [utf16Char, if_pos (by omega), hc, UInt16.ofNat_toNat]

/-- A pair is a character. -/
theorem exists_utf16Char_pair (hu : IsHigh u) (hv : IsLow v) : ∃ c, utf16Char c = [u, v] := by
  unfold IsHigh at hu
  unfold IsLow at hv
  obtain ⟨c, hc⟩ := exists_char
    (n := 0x10000 + (u.toNat - 0xD800) * 0x400 + (v.toNat - 0xDC00)) (by omega)
  refine ⟨c, ?_⟩
  have hfirst : 0xD800 + (c.toNat - 0x10000) / 0x400 = u.toNat := by omega
  have hsecond : 0xDC00 + (c.toNat - 0x10000) % 0x400 = v.toNat := by omega
  rw [utf16Char, if_neg (by omega), hfirst, hsecond, UInt16.ofNat_toNat, UInt16.ofNat_toNat]

/-- A unit stays alone behind one that begins no pair. -/
theorem LoneAt.cons (h : LoneAt rest i) (hu : i = 0 → ¬IsHigh u) : LoneAt (u :: rest) (i + 1) := by
  obtain ⟨w, hw, hlone⟩ := h
  refine ⟨w, hw, hlone.imp id ?_⟩
  rintro ⟨hlow, hbefore⟩
  refine ⟨hlow, fun j v hj hv ↦ ?_⟩
  cases j with
  | zero =>
    cases hv
    exact hu (by omega)
  | succ j => exact hbefore j v (by omega) hv

/-- A unit stays alone behind an encoded text. -/
theorem LoneAt.encode_append (h : LoneAt rest i) (chars : List Char) :
    ∃ j, LoneAt (utf16Encode chars ++ rest) j := by
  induction chars with
  | nil => exact ⟨i, h⟩
  | cons c chars ih =>
    obtain ⟨j, hj⟩ := ih
    rw [utf16Encode, List.flatMap_cons, List.append_assoc]
    rcases utf16Char_cases c with ⟨u, hu, -, hhigh, -⟩ | ⟨u, v, huv, -, hlow, -⟩
    · rw [hu]
      exact ⟨j + 1, hj.cons fun _ ↦ hhigh⟩
    · rw [huv]
      exact ⟨j + 2, (hj.cons fun _ hv ↦ hv.not_isLow hlow).cons (by simp)⟩

/-- No unit of an encoded text is alone. -/
theorem not_loneAt_utf16Encode (chars : List Char) (i : Nat) : ¬LoneAt (utf16Encode chars) i := by
  induction chars generalizing i with
  | nil =>
    rintro ⟨w, hw, -⟩
    cases hw
  | cons c chars ih =>
    intro h
    rw [utf16Encode, List.flatMap_cons] at h
    rcases utf16Char_cases c with ⟨u, hu, -, hhigh, hlow⟩ | ⟨u, v, huv, hhigh, hlow, -⟩
    · rw [hu, List.singleton_append] at h
      cases i with
      | zero =>
        obtain ⟨w, hw, hlone⟩ := h
        cases hw
        exact hlone.elim (fun hl ↦ hhigh hl.1) fun hl ↦ hlow hl.1
      | succ i => exact ih i h.tail
    · rw [huv, List.cons_append, List.singleton_append] at h
      match i, h with
      | 0, ⟨w, hw, hlone⟩ =>
        cases hw
        exact hlone.elim (fun hl ↦ hl.2 v rfl hlow) fun hl ↦ hhigh.not_isLow hl.1
      | 1, ⟨w, hw, hlone⟩ =>
        cases hw
        exact hlone.elim (fun hl ↦ hl.1.not_isLow hlow) fun hl ↦ hl.2 0 u rfl rfl hhigh
      | i + 2, h => exact ih i h.tail.tail

/-- A list of code units is an encoded text, or an encoded text up to a unit that is alone. -/
theorem utf16_cases (units : List UInt16) :
    (∃ chars, units = utf16Encode chars) ∨
      ∃ chars rest, units = utf16Encode chars ++ rest ∧ LoneAt rest 0 := by
  -- Behind a character, what is said of the rest holds of the whole.
  have behind (c : Char) (rest : List UInt16) (h : (∃ chars, rest = utf16Encode chars) ∨
      ∃ chars rest', rest = utf16Encode chars ++ rest' ∧ LoneAt rest' 0) :
      (∃ chars, utf16Char c ++ rest = utf16Encode chars) ∨
        ∃ chars rest', utf16Char c ++ rest = utf16Encode chars ++ rest' ∧ LoneAt rest' 0 := by
    rcases h with ⟨chars, rfl⟩ | ⟨chars, rest', rfl, hlone⟩
    · exact .inl ⟨c :: chars, rfl⟩
    · refine .inr ⟨c :: chars, rest', ?_, hlone⟩
      rw [utf16Encode, utf16Encode, List.flatMap_cons, List.append_assoc]
  match units with
  | [] => exact .inl ⟨[], rfl⟩
  | [u] =>
    by_cases hhigh : IsHigh u
    · exact .inr ⟨[], [u], rfl, u, rfl, .inl ⟨hhigh, fun v hv ↦ by cases hv⟩⟩
    · by_cases hlow : IsLow u
      · exact .inr ⟨[], [u], rfl, u, rfl, .inr ⟨hlow, fun j v hj ↦ by cases hj⟩⟩
      · obtain ⟨c, hc⟩ := exists_utf16Char hhigh hlow
        have h := behind c [] (utf16_cases [])
        rwa [hc] at h
  | u :: v :: rest =>
    by_cases hhigh : IsHigh u
    · by_cases hpair : IsLow v
      · obtain ⟨c, hc⟩ := exists_utf16Char_pair hhigh hpair
        have h := behind c rest (utf16_cases rest)
        rwa [hc] at h
      · refine .inr ⟨[], u :: v :: rest, rfl, u, rfl, .inl ⟨hhigh, ?_⟩⟩
        intro w hw
        cases hw
        exact hpair
    · by_cases hlow : IsLow u
      · exact .inr ⟨[], u :: v :: rest, rfl, u, rfl, .inr ⟨hlow, fun j v hj ↦ by cases hj⟩⟩
      · obtain ⟨c, hc⟩ := exists_utf16Char hhigh hlow
        have h := behind c (v :: rest) (utf16_cases (v :: rest))
        rwa [hc] at h

/-- A list of code units is an encoded text if and only if none of them is alone. -/
theorem exists_utf16Encode_iff : (∃ chars, units = utf16Encode chars) ↔ ∀ i, ¬LoneAt units i := by
  constructor
  · rintro ⟨chars, rfl⟩
    exact not_loneAt_utf16Encode chars
  · intro h
    rcases utf16_cases units with hchars | ⟨chars, rest, rfl, hlone⟩
    · exact hchars
    · obtain ⟨j, hj⟩ := hlone.encode_append chars
      exact absurd hj (h j)

end PacketDial.Lib
