import Mathlib.Data.List.Basic
import Mathlib.Data.UInt

/-!
# Base64

The encoding of bytes as text, three bytes to four characters, with padding, and a decoder that
refuses bits which no encoding sets.
-/

namespace PacketDial.Lib

/-- The alphabet, in the order of the values. -/
def base64Alphabet : List Char :=
  "ABCDEFGHIJKLMNOPQRSTUVWXYZabcdefghijklmnopqrstuvwxyz0123456789+/".toList

/-- The character of a value below 64. -/
def base64Char (n : Nat) : Char := base64Alphabet.getD n '='

/-- The value of a character. -/
def base64Value (c : Char) : Option Nat := base64Alphabet.idxOf? c

/-- Encode three bytes at a time. -/
def base64Encode : List UInt8 → List Char
  | [] => []
  | [a] => [base64Char (a.toNat / 4), base64Char (a.toNat % 4 * 16), '=', '=']
  | [a, b] =>
    [base64Char (a.toNat / 4), base64Char (a.toNat % 4 * 16 + b.toNat / 16),
      base64Char (b.toNat % 16 * 4), '=']
  | a :: b :: c :: rest =>
    base64Char (a.toNat / 4) :: base64Char (a.toNat % 4 * 16 + b.toNat / 16) ::
      base64Char (b.toNat % 16 * 4 + c.toNat / 64) :: base64Char (c.toNat % 64) ::
      base64Encode rest

/-- The bytes of the last four characters, the last of which is padding. -/
def base64Padded (a b c : Char) : Option (List UInt8) := do
  let x ← base64Value a
  let y ← base64Value b
  if c = '=' then
    if y % 16 = 0 then some [UInt8.ofNat (x * 4 + y / 16)] else none
  else
    let z ← base64Value c
    if z % 4 = 0 then
      some [UInt8.ofNat (x * 4 + y / 16), UInt8.ofNat (y % 16 * 16 + z / 4)]
    else none

/-- Decode four characters at a time. -/
def base64Decode : List Char → Option (List UInt8)
  | [] => some []
  | a :: b :: c :: d :: rest =>
    if d = '=' ∧ rest = [] then base64Padded a b c
    else do
      let x ← base64Value a
      let y ← base64Value b
      let z ← base64Value c
      let w ← base64Value d
      let bytes ← base64Decode rest
      return UInt8.ofNat (x * 4 + y / 16) :: UInt8.ofNat (y % 16 * 16 + z / 4) ::
        UInt8.ofNat (z % 4 * 64 + w) :: bytes
  | _ => none

section Laws

/-- The alphabet, character by character. -/
theorem base64Alphabet_values :
    base64Alphabet.length = 64 ∧ '=' ∉ base64Alphabet ∧
      ∀ n < 64, base64Alphabet.idxOf? (base64Alphabet.getD n '=') = some n := by
  unfold base64Alphabet
  rw [String.toList_ofList]
  decide +kernel

variable {n : Nat}

/-- A character is read as the value it was written for. -/
theorem base64Value_char (h : n < 64) : base64Value (base64Char n) = some n :=
  base64Alphabet_values.2.2 n h

/-- A value is written as a character of the alphabet. -/
theorem base64Char_mem (h : n < 64) : base64Char n ∈ base64Alphabet := by
  have hlen : n < base64Alphabet.length := by
    rw [base64Alphabet_values.1]
    exact h
  rw [base64Char, List.getD_eq_getElem?_getD, List.getElem?_eq_getElem hlen]
  exact List.getElem_mem hlen

/-- No value is written as padding. -/
theorem base64Char_ne (h : n < 64) : base64Char n ≠ '=' := by
  intro heq
  have hmem := base64Char_mem h
  rw [heq] at hmem
  exact base64Alphabet_values.2.1 hmem

/-- A byte is put together from its bits. -/
theorem uint8_eq {b : UInt8} (h : n = b.toNat) : UInt8.ofNat n = b := by
  rw [h, UInt8.ofNat_toNat]

/-- What is encoded is decoded. -/
theorem base64Decode_encode (bytes : List UInt8) :
    base64Decode (base64Encode bytes) = some bytes := by
  fun_induction base64Encode bytes with
  | case1 => rfl
  | case2 a =>
    have ha := a.toNat_lt
    have hx : a.toNat / 4 < 64 := by omega
    have hy : a.toNat % 4 * 16 < 64 := by omega
    have hbits : a.toNat % 4 * 16 % 16 = 0 := by omega
    have heq : UInt8.ofNat (a.toNat / 4 * 4 + a.toNat % 4 * 16 / 16) = a := uint8_eq (by omega)
    rw [base64Decode, if_pos ⟨rfl, rfl⟩, base64Padded, base64Value_char hx, base64Value_char hy]
    simp only [Option.bind_eq_bind, Option.bind_some]
    rw [if_pos trivial, if_pos hbits, heq]
  | case3 a b =>
    have ha := a.toNat_lt
    have hb := b.toNat_lt
    have hx : a.toNat / 4 < 64 := by omega
    have hy : a.toNat % 4 * 16 + b.toNat / 16 < 64 := by omega
    have hz : b.toNat % 16 * 4 < 64 := by omega
    have hbits : b.toNat % 16 * 4 % 4 = 0 := by omega
    have hfirst : UInt8.ofNat (a.toNat / 4 * 4 + (a.toNat % 4 * 16 + b.toNat / 16) / 16) = a :=
      uint8_eq (by omega)
    have hsecond : UInt8.ofNat ((a.toNat % 4 * 16 + b.toNat / 16) % 16 * 16 +
        b.toNat % 16 * 4 / 4) = b := uint8_eq (by omega)
    rw [base64Decode, if_pos ⟨rfl, rfl⟩, base64Padded, base64Value_char hx, base64Value_char hy,
      base64Value_char hz]
    simp only [Option.bind_eq_bind, Option.bind_some]
    rw [if_neg (base64Char_ne hz), if_pos hbits, hfirst, hsecond]
  | case4 a b c rest ih =>
    have ha := a.toNat_lt
    have hb := b.toNat_lt
    have hc := c.toNat_lt
    have hx : a.toNat / 4 < 64 := by omega
    have hy : a.toNat % 4 * 16 + b.toNat / 16 < 64 := by omega
    have hz : b.toNat % 16 * 4 + c.toNat / 64 < 64 := by omega
    have hw : c.toNat % 64 < 64 := by omega
    have hfirst : UInt8.ofNat (a.toNat / 4 * 4 + (a.toNat % 4 * 16 + b.toNat / 16) / 16) = a :=
      uint8_eq (by omega)
    have hsecond : UInt8.ofNat ((a.toNat % 4 * 16 + b.toNat / 16) % 16 * 16 +
        (b.toNat % 16 * 4 + c.toNat / 64) / 4) = b := uint8_eq (by omega)
    have hthird : UInt8.ofNat ((b.toNat % 16 * 4 + c.toNat / 64) % 4 * 64 + c.toNat % 64) = c :=
      uint8_eq (by omega)
    rw [base64Decode, if_neg fun h ↦ base64Char_ne hw h.1, base64Value_char hx,
      base64Value_char hy, base64Value_char hz, base64Value_char hw, ih]
    simp only [Option.bind_eq_bind, Option.bind_some, Option.pure_def]
    rw [hfirst, hsecond, hthird]

/-- An encoding has four characters for every three bytes that are begun. -/
theorem length_base64Encode (bytes : List UInt8) :
    (base64Encode bytes).length = 4 * ((bytes.length + 2) / 3) := by
  fun_induction base64Encode bytes with
  | case4 a b c rest ih =>
    simp only [List.length_cons, ih]
    omega
  | _ => simp

/-- An encoding has only characters of the alphabet and padding. -/
theorem base64Encode_subset (bytes : List UInt8) :
    ∀ c ∈ base64Encode bytes, c ∈ '=' :: base64Alphabet := by
  have hchar {n : Nat} (h : n < 64) : base64Char n ∈ '=' :: base64Alphabet :=
    List.mem_cons_of_mem _ (base64Char_mem h)
  have hpad : '=' ∈ '=' :: base64Alphabet := List.mem_cons_self
  fun_induction base64Encode bytes with
  | case1 => exact List.forall_mem_nil _
  | case2 a =>
    have ha := a.toNat_lt
    simp only [List.forall_mem_cons]
    exact ⟨hchar (by omega), hchar (by omega), hpad, hpad, List.forall_mem_nil _⟩
  | case3 a b =>
    have ha := a.toNat_lt
    have hb := b.toNat_lt
    simp only [List.forall_mem_cons]
    exact ⟨hchar (by omega), hchar (by omega), hchar (by omega), hpad, List.forall_mem_nil _⟩
  | case4 a b c rest ih =>
    have ha := a.toNat_lt
    have hb := b.toNat_lt
    have hc := c.toNat_lt
    simp only [List.forall_mem_cons]
    exact ⟨hchar (by omega), hchar (by omega), hchar (by omega), hchar (by omega), ih⟩

end Laws

end PacketDial.Lib
