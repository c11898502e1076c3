import PacketDial.Core.Exports
import PacketDial.Lib.Utf16
import PacketDial.Lib.Utf8

/-!
# Texts on their way to the engine

How the app hands a text to the engine, `app_flutter/lib/ffi/engine.dart:455–513`: the UTF-16 code
units of a Dart string become UTF-8 bytes with a NUL behind them, written to native memory, from
which the engine reads a C string.
-/

namespace PacketDial.Ffi

open PacketDial.Core PacketDial.Lib

/-- The value of a pair of surrogates (`engine.dart:473`). -/
def pairValue (high low : UInt16) : Nat :=
  0x10000 + (high.toNat - 0xD800) * 0x400 + (low.toNat - 0xDC00)

/-- The bytes that are added for a code point (`engine.dart:482–497`). -/
def codePointBytes (codePoint : Nat) : List Nat :=
  if codePoint < 0x80 then [codePoint]
  else if codePoint < 0x800 then [0xC0 ||| codePoint >>> 6, 0x80 ||| codePoint &&& 0x3F]
  else if codePoint < 0x10000 then
    [0xE0 ||| codePoint >>> 12, 0x80 ||| codePoint >>> 6 &&& 0x3F, 0x80 ||| codePoint &&& 0x3F]
  else
    [0xF0 ||| codePoint >>> 18, 0x80 ||| codePoint >>> 12 &&& 0x3F,
      0x80 ||| codePoint >>> 6 &&& 0x3F, 0x80 ||| codePoint &&& 0x3F]

/-- The loop of `_stringToBytes` (`engine.dart:466–498`). -/
def encodeUnits : List UInt16 → List Nat
  | [] => []
  | [unit] => codePointBytes unit.toNat
  | unit :: next :: rest =>
    if IsHigh unit ∧ IsLow next then codePointBytes (pairValue unit next) ++ encodeUnits rest
    else codePointBytes unit.toNat ++ encodeUnits (next :: rest)

/-- `_stringToBytes` (`engine.dart:462–501`). -/
def stringToBytes (units : List UInt16) : List Nat := encodeUnits units ++ [0]

/-- `_allocBytes`: an `Int8` keeps the low eight bits (`engine.dart:504–511`). -/
def allocBytes (bytes : List Nat) : List UInt8 := bytes.map UInt8.ofNat

/-- `_allocCString` (`engine.dart:443–445`). -/
def allocCString (units : List UInt16) : List UInt8 := allocBytes (stringToBytes units)

/-- The C string at the start of native memory. -/
def cStr (memory : List UInt8) : CPtr :=
  (decodeUtf8 (memory.takeWhile (· ≠ 0))).elim .invalidUtf8 .text

/-- `sendCommand` (`engine.dart:418–427`). -/
def sendCommand (type payloadJson : List UInt16) : Eng Int :=
  engineSendCommand (cStr (allocCString type)) (cStr (allocCString payloadJson))

/-- Bytes are written one after the other. -/
theorem allocBytes_append (bytes more : List Nat) :
    allocBytes (bytes ++ more) = allocBytes bytes ++ allocBytes more := List.map_append

section Bytes

variable {n : Nat}

/-- The first byte of two. -/
theorem lead_two (h : n < 32) : 0xC0 ||| n = n + 0xC0 := by
  have hor : 0xC0 + n = 0xC0 ||| n := Nat.two_pow_add_eq_or_of_lt (i := 5) h 6
  omega

/-- The first byte of three. -/
theorem lead_three (h : n < 16) : 0xE0 ||| n = n + 0xE0 := by
  have hor : 0xE0 + n = 0xE0 ||| n := Nat.two_pow_add_eq_or_of_lt (i := 4) h 14
  omega

/-- The first byte of four. -/
theorem lead_four (h : n < 8) : 0xF0 ||| n = n + 0xF0 := by
  have hor : 0xF0 + n = 0xF0 ||| n := Nat.two_pow_add_eq_or_of_lt (i := 3) h 30
  omega

/-- A byte that is not the first. -/
theorem trail (n : Nat) : 0x80 ||| n &&& 0x3F = n % 0x40 + 0x80 := by
  have hand : n &&& 0x3F = n % 0x40 := Nat.and_two_pow_sub_one_eq_mod n 6
  have hlt : n % 0x40 < 2 ^ 6 := Nat.mod_lt n (by decide)
  have hor : 0x80 + n % 0x40 = 0x80 ||| n % 0x40 := Nat.two_pow_add_eq_or_of_lt hlt 2
  rw [hand]
  omega

/-- The bytes of a code point, in arithmetic. -/
theorem codePointBytes_eq (n : Nat) (h : n < 0x110000) :
    codePointBytes n =
      if n < 0x80 then [n]
      else if n < 0x800 then [n / 64 + 0xC0, n % 0x40 + 0x80]
      else if n < 0x10000 then [n / 4096 + 0xE0, n / 64 % 0x40 + 0x80, n % 0x40 + 0x80]
      else [n / 262144 + 0xF0, n / 4096 % 0x40 + 0x80, n / 64 % 0x40 + 0x80, n % 0x40 + 0x80] := by
  unfold codePointBytes
  simp only [trail, Nat.shiftRight_eq_div_pow, Nat.reducePow]
  split
  · rfl
  · split
    · rw [lead_two (by omega)]
    · split
      · rw [lead_three (by omega)]
      · rw [lead_four (by omega)]

/-- A character gets the bytes of UTF-8. -/
theorem allocBytes_codePointBytes (c : Char) :
    allocBytes (codePointBytes c.toNat) = String.utf8EncodeChar c := by
  have hc := toNat_char c
  have hval : c.val.toNat = c.toNat := rfl
  have htwo : c.toNat < 0x800 → c.toNat / 64 % 0x20 = c.toNat / 64 := by omega
  have hthree : c.toNat < 0x10000 → c.toNat / 4096 % 0x10 = c.toNat / 4096 := by omega
  have hfour : c.toNat / 262144 % 0x08 = c.toNat / 262144 := by omega
  rw [codePointBytes_eq _ (by omega), String.utf8EncodeChar, allocBytes]
  simp only [hval, hfour, Nat.le_iff_lt_add_one, Nat.reduceAdd]
  by_cases h1 : c.toNat < 0x80
  · rw [if_pos h1, if_pos h1]
    rfl
  · rw [if_neg h1, if_neg h1]
    by_cases h2 : c.toNat < 0x800
    · rw [if_pos h2, if_pos h2, htwo h2]
      rfl
    · rw [if_neg h2, if_neg h2]
      by_cases h3 : c.toNat < 0x10000
      · rw [if_pos h3, if_pos h3, hthree h3]
        rfl
      · rw [if_neg h3, if_neg h3]
        rfl

/-- A byte is the one number below 256 that it stands for. -/
theorem ofNat_inj {m n : Nat} (hm : m < 256) (hn : n < 256)
    (h : UInt8.ofNat m = UInt8.ofNat n) : m = n := by
  have hnat := congrArg UInt8.toNat h
  rwa [UInt8.toNat_ofNat_of_lt' hm, UInt8.toNat_ofNat_of_lt' hn] at hnat

/-- Bytes that begin with those of a surrogate are not UTF-8. -/
theorem not_isUtf8_surrogate {n : Nat} (hlow : 0xD800 ≤ n) (hhigh : n ≤ 0xDFFF)
    (more : List UInt8) : ¬IsUtf8 (allocBytes (codePointBytes n) ++ more) := by
  rintro ⟨chars, hchars⟩
  have hbytes : allocBytes (codePointBytes n) =
      [UInt8.ofNat (n / 4096 + 0xE0), UInt8.ofNat (n / 64 % 0x40 + 0x80),
        UInt8.ofNat (n % 0x40 + 0x80)] := by
    rw [codePointBytes_eq _ (by omega), if_neg (by omega), if_neg (by omega), if_pos (by omega)]
    rfl
  have hlist : allocBytes (codePointBytes n) ++ more = chars.flatMap String.utf8EncodeChar :=
    List.toByteArray_inj.mp hchars
  cases chars with
  | nil =>
    rw [hbytes] at hlist
    cases hlist
  | cons c chars =>
    have hc := toNat_char c
    rw [hbytes, List.flatMap_cons, ← allocBytes_codePointBytes,
      codePointBytes_eq _ (by omega)] at hlist
    by_cases h1 : c.toNat < 0x80
    · rw [if_pos h1] at hlist
      have hfirst := ofNat_inj (by omega) (by omega) (List.cons.inj hlist).1
      omega
    · rw [if_neg h1] at hlist
      by_cases h2 : c.toNat < 0x800
      · rw [if_pos h2] at hlist
        have hfirst := ofNat_inj (by omega) (by omega) (List.cons.inj hlist).1
        omega
      · rw [if_neg h2] at hlist
        by_cases h3 : c.toNat < 0x10000
        · rw [if_pos h3] at hlist
          -- The second byte of a surrogate is one that no character has behind `0xED`.
          have hfirst := ofNat_inj (by omega) (by omega) (List.cons.inj hlist).1
          have hsecond := ofNat_inj (by omega) (by omega)
            (List.cons.inj (List.cons.inj hlist).2).1
          omega
        · rw [if_neg h3] at hlist
          have hfirst := ofNat_inj (by omega) (by omega) (List.cons.inj hlist).1
          omega

end Bytes

section Units

variable {units rest : List UInt16}

/-- The units of a character are encoded together. -/
theorem encodeUnits_utf16Char (c : Char) (rest : List UInt16) :
    encodeUnits (utf16Char c ++ rest) = codePointBytes c.toNat ++ encodeUnits rest := by
  rcases utf16Char_cases c with ⟨u, hu, hc, hhigh, -⟩ | ⟨u, v, huv, hhigh, hlow, hc⟩
  · rw [hu, ← hc, List.singleton_append]
    cases rest with
    | nil => simp [encodeUnits]
    | cons v rest => rw [encodeUnits, if_neg fun h ↦ hhigh h.1]
  · rw [huv, hc, List.cons_append, List.singleton_append, encodeUnits, if_pos ⟨hhigh, hlow⟩]
    rfl

/-- An encoded text is written as UTF-8, whatever follows it. -/
theorem allocBytes_utf16Encode (chars : List Char) (rest : List UInt16) :
    allocBytes (encodeUnits (utf16Encode chars ++ rest)) =
      chars.flatMap String.utf8EncodeChar ++ allocBytes (encodeUnits rest) := by
  induction chars with
  | nil => rfl
  | cons c chars ih =>
    have hcons : utf16Encode (c :: chars) ++ rest = utf16Char c ++ (utf16Encode chars ++ rest) := by
      rw [utf16Encode, utf16Encode, List.flatMap_cons, List.append_assoc]
    rw [hcons, encodeUnits_utf16Char, List.flatMap_cons, ← allocBytes_codePointBytes,
      List.append_assoc, ← ih, allocBytes_append]

/-- A unit that is alone is written as if it were a character. -/
theorem encodeUnits_lone (h : LoneAt units 0) :
    ∃ u rest, (IsHigh u ∨ IsLow u) ∧ encodeUnits units = codePointBytes u.toNat ++ rest := by
  obtain ⟨u, hu, hlone⟩ := h
  match units, hu, hlone with
  | [u], rfl, hlone => exact ⟨u, [], hlone.imp And.left And.left, (List.append_nil _).symm⟩
  | u :: v :: rest, rfl, hlone =>
    refine ⟨u, encodeUnits (v :: rest), hlone.imp And.left And.left, ?_⟩
    rw [encodeUnits, if_neg]
    rintro ⟨hhigh, hlow⟩
    exact hlone.elim (fun hl ↦ hl.2 v rfl hlow) fun hl ↦ hhigh.not_isLow hl.1

/-- The bytes of a text with a NUL behind them. -/
theorem allocCString_utf16Encode (chars : List Char) :
    allocCString (utf16Encode chars) = chars.flatMap String.utf8EncodeChar ++ [0] := by
  have h := allocBytes_utf16Encode chars []
  rw [List.append_nil] at h
  unfold allocCString stringToBytes
  rw [allocBytes_append, h]
  exact congrArg (· ++ [0]) (List.append_nil _)

/-- With a unit that is alone, the bytes are not UTF-8. -/
theorem not_isUtf8_of_loneAt {i : Nat} (h : LoneAt units i) :
    ¬IsUtf8 (allocBytes (encodeUnits units)) := by
  rcases utf16_cases units with ⟨chars, rfl⟩ | ⟨chars, rest, rfl, hlone⟩
  · exact absurd h (not_loneAt_utf16Encode chars i)
  · obtain ⟨u, more, hu, hrest⟩ := encodeUnits_lone hlone
    rw [allocBytes_utf16Encode, hrest]
    intro hutf8
    have hchars : IsUtf8 (chars.flatMap String.utf8EncodeChar) := ⟨chars, rfl⟩
    have hmore := hutf8.of_append hchars
    rw [allocBytes_append] at hmore
    unfold IsHigh IsLow at hu
    exact not_isUtf8_surrogate (by omega) (by omega) _ hmore

/-- A code point other than 0 has no NUL among its bytes. -/
theorem zero_notMem_codePointBytes {n : Nat} (hpos : 0 < n) (h : n < 0x110000) :
    0 ∉ allocBytes (codePointBytes n) := by
  intro hmem
  obtain ⟨b, hb, hzero⟩ := List.mem_map.mp hmem
  have hrange : 0 < b ∧ b < 256 := by
    rw [codePointBytes_eq n h] at hb
    split at hb
    · simp only [List.mem_singleton] at hb
      omega
    · split at hb
      · simp only [List.mem_cons, List.not_mem_nil, or_false] at hb
        omega
      · split at hb <;>
        · simp only [List.mem_cons, List.not_mem_nil, or_false] at hb
          omega
  have hb0 : b = 0 := ofNat_inj hrange.2 (by decide) hzero
  omega

/-- Without `U+0000` there is no NUL among the bytes. -/
theorem zero_notMem_encodeUnits (h : 0 ∉ units) : 0 ∉ allocBytes (encodeUnits units) := by
  have hpos {u : UInt16} (hu : u ≠ 0) : 0 < u.toNat :=
    Nat.pos_of_ne_zero fun hzero ↦ hu (UInt16.toNat.inj hzero)
  induction units using encodeUnits.induct with
  | case1 => exact List.not_mem_nil
  | case2 u =>
    have hu : u ≠ 0 := fun heq ↦ h (heq ▸ List.mem_cons_self)
    have hlt := u.toNat_lt
    rw [encodeUnits]
    exact zero_notMem_codePointBytes (hpos hu) (by omega)
  | case3 u v rest hpair ih =>
    have hrest : 0 ∉ rest := fun hm ↦ h (List.mem_cons_of_mem u (List.mem_cons_of_mem v hm))
    have hrange : 0 < pairValue u v ∧ pairValue u v < 0x110000 := by
      have hu : IsHigh u := hpair.1
      have hv : IsLow v := hpair.2
      unfold IsHigh at hu
      unfold IsLow at hv
      unfold pairValue
      omega
    rw [encodeUnits, if_pos hpair, allocBytes_append, List.mem_append, not_or]
    exact ⟨zero_notMem_codePointBytes hrange.1 hrange.2, ih hrest⟩
  | case4 u v rest hpair ih =>
    have hrest : 0 ∉ v :: rest := fun hm ↦ h (List.mem_cons_of_mem u hm)
    have hu : u ≠ 0 := fun heq ↦ h (heq ▸ List.mem_cons_self)
    have hlt := u.toNat_lt
    rw [encodeUnits, if_neg hpair, allocBytes_append, List.mem_append, not_or]
    exact ⟨zero_notMem_codePointBytes (hpos hu) (by omega), ih hrest⟩

/-- Without `U+0000`, what the engine reads is what was written in front of the NUL. -/
theorem cStr_allocCString (h : 0 ∉ units) :
    cStr (allocCString units) =
      (decodeUtf8 (allocBytes (encodeUnits units))).elim .invalidUtf8 .text := by
  have hbytes : (allocCString units).takeWhile (· ≠ 0) = allocBytes (encodeUnits units) := by
    have hall : ∀ b ∈ allocBytes (encodeUnits units), decide (b ≠ 0) = true := fun b hb ↦
      decide_eq_true fun hzero ↦ zero_notMem_encodeUnits h (hzero ▸ hb)
    unfold allocCString stringToBytes
    rw [allocBytes_append, List.takeWhile_append_of_pos hall]
    exact List.append_nil _
  unfold cStr
  rw [hbytes]

/-- Up to the first entry that does not satisfy `p`, each entry adds what satisfies `q`. -/
theorem takeWhile_flatMap {α β : Type} {f : α → List β} {p : α → Bool} {q : β → Bool}
    (hin : ∀ a, p a = true → ∀ b ∈ f a, q b = true)
    (hout : ∀ a, p a = false → ∃ b rest, f a = b :: rest ∧ q b = false) (l : List α) :
    (l.flatMap f).takeWhile q = (l.takeWhile p).flatMap f := by
  induction l with
  | nil => rfl
  | cons a l ih =>
    rw [List.flatMap_cons]
    cases ha : p a with
    | true =>
      rw [List.takeWhile_append_of_pos (hin a ha), List.takeWhile_cons_of_pos ha,
        List.flatMap_cons, ih]
    | false =>
      obtain ⟨b, rest, hb, hq⟩ := hout a ha
      rw [hb, List.cons_append, List.takeWhile_cons_of_neg (by simp [hq]),
        List.takeWhile_cons_of_neg (by simp [ha]), List.flatMap_nil]

/-- The engine reads an encoded text up to its first `U+0000`. -/
theorem cStr_utf16Encode (chars : List Char) :
    cStr (allocCString (utf16Encode chars)) =
      .text (String.ofList (chars.takeWhile (· ≠ '\x00'))) := by
  have hzero : (chars.flatMap String.utf8EncodeChar ++ [0]).takeWhile (· ≠ 0) =
      (chars.flatMap String.utf8EncodeChar).takeWhile (· ≠ 0) := by
    rw [List.takeWhile_append]
    split
    · next hlen =>
      rw [(List.takeWhile_prefix _).eq_of_length hlen]
      exact List.append_nil _
    · rfl
  have hbytes : (chars.flatMap String.utf8EncodeChar).takeWhile (· ≠ 0) =
      (chars.takeWhile (· ≠ '\x00')).flatMap String.utf8EncodeChar := by
    apply takeWhile_flatMap
    · intro c hc b hb
      have hc : c ≠ '\x00' := of_decide_eq_true hc
      have hpos : 0 < c.toNat := Nat.pos_of_ne_zero fun h ↦ hc (Char.toNat_inj.mp h)
      have hrange := toNat_char c
      rw [← allocBytes_codePointBytes] at hb
      exact decide_eq_true fun heq ↦ zero_notMem_codePointBytes hpos (by omega) (heq ▸ hb)
    · intro c hc
      have hc : c = '\x00' := not_not.mp (of_decide_eq_false hc)
      exact ⟨0, [], by rw [hc]; decide, rfl⟩
  unfold cStr
  rw [allocCString_utf16Encode, hzero, hbytes, decodeUtf8_flatMap]
  rfl

/-- The engine refuses a text with a unit that is alone. -/
theorem cStr_of_loneAt {i : Nat} (h : 0 ∉ units) (hlone : LoneAt units i) :
    cStr (allocCString units) = .invalidUtf8 := by
  have hnone : decodeUtf8 (allocBytes (encodeUnits units)) = none :=
    dif_neg (not_isUtf8_of_loneAt hlone)
  rw [cStr_allocCString h, hnone]
  rfl

end Units

/-- `_stringToBytes` marshals exactly. Code units without `U+0000` and without lone surrogates,
which encode some characters, become a single NUL behind the UTF-8 of these characters. With a lone
surrogate the bytes are not UTF-8, and unless a `U+0000` ends the C string, the engine answers
`InvalidUtf8` to a command with that type or payload. -/
theorem marshalling_exact (units : List UInt16) :
    (0 ∉ units → (∀ i, ¬LoneAt units i) →
      ∃ chars bytes, units = utf16Encode chars ∧ allocCString units = bytes ++ [0] ∧ 0 ∉ bytes ∧
        decodeUtf8 bytes = some (String.ofList chars)) ∧
    ((∃ i, LoneAt units i) →
      ¬IsUtf8 (allocCString units) ∧
      (0 ∉ units → ∀ other e s,
        ((sendCommand units other).run e s).value = EngineErrorCode.invalidUtf8.code ∧
        ((sendCommand other units).run e s).value = EngineErrorCode.invalidUtf8.code)) := by
  constructor
  · intro hnul hpaired
    obtain ⟨chars, rfl⟩ := exists_utf16Encode_iff.mpr hpaired
    have hzero := zero_notMem_encodeUnits hnul
    have hbytes := allocBytes_utf16Encode chars []
    rw [List.append_nil] at hbytes
    rw [hbytes] at hzero
    refine ⟨chars, _, rfl, allocCString_utf16Encode chars, ?_, decodeUtf8_flatMap chars⟩
    exact fun hm ↦ hzero (List.mem_append_left _ hm)
  · rintro ⟨i, hlone⟩
    constructor
    · intro hutf8
      unfold allocCString stringToBytes at hutf8
      rw [allocBytes_append] at hutf8
      exact not_isUtf8_of_loneAt hlone (hutf8.of_append_first (by decide))
    · intro hnul other e s
      have hptr := cStr_of_loneAt hnul hlone
      unfold sendCommand engineSendCommand
      rw [hptr]
      refine ⟨rfl, ?_⟩
      cases cStr (allocCString other) <;> rfl

example : allocCString [0xD83D, 0xDE00] = [0xF0, 0x9F, 0x98, 0x80, 0] := by decide

end PacketDial.Ffi
