import Mathlib.Algebra.Group.Int.Defs
import Mathlib.Data.List.Basic
import Mathlib.Data.List.TakeWhile
import Mathlib.Tactic.SplitIfs
import PacketDial.Core.JsonText
import PacketDial.Lib.Decimal

/-!
# Writing JSON

A text of JSON for a value: nothing but the value, the members of an object in the order of their
keys, quotes, backslashes and control characters escaped. It is read back as the value that was
written, whatever stands behind it.
-/

namespace PacketDial.Core

open PacketDial.Lib

/-- How a character stands in a string. -/
def escapeJson (c : Char) : List Char :=
  if c = '"' then ['\\', '"']
  else if c = '\\' then ['\\', '\\']
  else if c = '\x08' then ['\\', 'b']
  else if c = '\x0C' then ['\\', 'f']
  else if c = '\n' then ['\\', 'n']
  else if c = '\r' then ['\\', 'r']
  else if c = '\t' then ['\\', 't']
  else if isControl c then
    ['\\', 'u', '0', '0', Nat.digitChar (c.toNat / 16), Nat.digitChar (c.toNat % 16)]
  else [c]

/-- A string. -/
def writeString (text : List Char) : List Char := '"' :: (text.flatMap escapeJson ++ ['"'])

/-- A character that a number can hold. -/
def isNumberChar (c : Char) : Bool := c.isDigit || ['+', '-', '.', 'e', 'E'].contains c

/-- The text ends a number: it does not go on with what could be part of one. -/
def EndsNumber (rest : List Char) : Prop := ∀ c ∈ rest.head?, isNumberChar c = false

/-- How floating-point numbers are written, which is the concern of another crate: as numbers of
JSON, each of which is read as some floating-point number again. -/
structure FloatText where
  write : Float → List Char
  reread : Float → Float
  plain : ∀ x, ∀ c ∈ write x, isNumberChar c = true
  readNumber_write : ∀ x rest, EndsNumber rest →
    readNumber (write x ++ rest) = some (.float (reread x), rest)

variable (W : FloatText)

/-- A number. -/
def writeNumber : JsonNumber → List Char
  | .posInt n => Nat.toDigits 10 n
  | .negInt n => (toString n).toList
  | .float x => W.write x

mutual

/-- A value, with the members of its objects in the order in which they come. -/
def writeValue : Json → List Char
  | .null => "null".toList
  | .bool true => "true".toList
  | .bool false => "false".toList
  | .num n => writeNumber W n
  | .str s => writeString s.toList
  | .arr items => '[' :: (writeItems items ++ [']'])
  | .obj members => '\x7b' :: (writeMembers members ++ ['\x7d'])

/-- The elements of an array, with commas between them. -/
def writeItems : List Json → List Char
  | [] => []
  | [item] => writeValue item
  | item :: next :: rest => writeValue item ++ ',' :: writeItems (next :: rest)

/-- The members of an object, with commas between them. -/
def writeMembers : List (String × Json) → List Char
  | [] => []
  | [(key, value)] => writeString key.toList ++ ':' :: writeValue value
  | (key, value) :: next :: rest =>
    writeString key.toList ++ ':' :: (writeValue value ++ ',' :: writeMembers (next :: rest))

end

mutual

/-- A value with the members of its objects in the order of their keys. -/
def byKey : Json → Json
  | .arr items => .arr (byKeyItems items)
  | .obj members => .obj ((byKeyMembers members).mergeSort fun a b ↦ decide (a.1 ≤ b.1))
  | .null => .null
  | .bool b => .bool b
  | .num n => .num n
  | .str s => .str s

/-- The same for the elements of an array. -/
def byKeyItems : List Json → List Json
  | [] => []
  | item :: rest => byKey item :: byKeyItems rest

/-- The same for the values of members. -/
def byKeyMembers : List (String × Json) → List (String × Json)
  | [] => []
  | (key, value) :: rest => (key, byKey value) :: byKeyMembers rest

end

/-- The text of a value. -/
def writeJson (value : Json) : String := String.ofList (writeValue W (byKey value))

mutual

/-- What `serde_json` holds: integers of 64 bits, and objects without two members of one key. -/
def IsValue : Json → Prop
  | .num (.posInt n) => n < 2 ^ 64
  | .num (.negInt n) => -2 ^ 63 ≤ n ∧ n < 0
  | .arr items => AreValues items
  | .obj members => (members.map Prod.fst).Nodup ∧ HaveValues members
  | _ => True

/-- The same of the elements of an array. -/
def AreValues : List Json → Prop
  | [] => True
  | item :: rest => IsValue item ∧ AreValues rest

/-- The same of the values of members. -/
def HaveValues : List (String × Json) → Prop
  | [] => True
  | (_, value) :: rest => IsValue value ∧ HaveValues rest

end

section Floats

-- What becomes of a floating-point number that is written and read.
variable (float : Float → Float)

mutual

/-- The value that is read back: another one only where floating-point numbers are. -/
def rereadValue : Json → Json
  | .num (.float x) => .num (.float (float x))
  | .num n => .num n
  | .arr items => .arr (rereadItems items)
  | .obj members => .obj (rereadMembers members)
  | .null => .null
  | .bool b => .bool b
  | .str s => .str s

/-- The same for the elements of an array. -/
def rereadItems : List Json → List Json
  | [] => []
  | item :: rest => rereadValue item :: rereadItems rest

/-- The same for the values of members. -/
def rereadMembers : List (String × Json) → List (String × Json)
  | [] => []
  | (key, value) :: rest => (key, rereadValue value) :: rereadMembers rest

end

end Floats

section Strings

variable {fuel : Nat} {text rest : List Char}

/-- A hexadecimal digit has its value. -/
theorem hexValue_digitChar {k : Nat} (hk : k < 16) : hexValue (Nat.digitChar k) = some k := by
  have hall : ∀ k < 16, hexValue (Nat.digitChar k) = some k := by decide
  exact hall k hk

/-- A control character is read from its number. -/
theorem readUnicode_control {c : Char} (hc : isControl c = true) (rest : List Char) :
    readUnicode ('0' :: '0' :: Nat.digitChar (c.toNat / 16) :: Nat.digitChar (c.toNat % 16) ::
      rest) = some (c, rest) := by
  have hlt : c.toNat < 0x20 := by simpa [isControl] using hc
  have hzero : hexValue '0' = some 0 := by decide
  have hhex : readHex ('0' :: '0' :: Nat.digitChar (c.toNat / 16) ::
      Nat.digitChar (c.toNat % 16) :: rest) = some (c.toNat, rest) := by
    have hsum : c.toNat / 16 * 16 + c.toNat % 16 = c.toNat := by omega
    simp [readHex, hzero, hexValue_digitChar (show c.toNat / 16 < 16 by omega),
      hexValue_digitChar (show c.toNat % 16 < 16 by omega), hsum]
  have hplain : c.toNat < 0xD800 ∨ 0xDFFF < c.toNat := by omega
  simp [readUnicode, hhex, hplain]

/-- A character is read back from how it stands in a string. -/
theorem readChars_escapeJson (c : Char) (rest : List Char) (fuel : Nat) :
    readChars (fuel + 1) (escapeJson c ++ rest) =
      (readChars fuel rest).map fun read ↦ (c :: read.1, read.2) := by
  have named {d e : Char} (hd : readEscape (d :: rest) = some (e, rest)) :
      readChars (fuel + 1) ('\\' :: d :: rest) =
        (readChars fuel rest).map fun read ↦ (e :: read.1, read.2) := by
    cases h : readChars fuel rest <;> simp [readChars, hd, h]
  unfold escapeJson
  split_ifs with hquote hslash hb hf hn hr ht hcontrol
  · subst hquote
    exact named rfl
  · subst hslash
    exact named rfl
  · subst hb
    exact named rfl
  · subst hf
    exact named rfl
  · subst hn
    exact named rfl
  · subst hr
    exact named rfl
  · subst ht
    exact named rfl
  · have hread : readEscape ('u' :: '0' :: '0' :: Nat.digitChar (c.toNat / 16) ::
        Nat.digitChar (c.toNat % 16) :: rest) = some (c, rest) := readUnicode_control hcontrol rest
    cases h : readChars fuel rest <;> simp [readChars, hread, h]
  · cases h : readChars fuel rest <;> simp [readChars, hquote, hslash, hcontrol, h]

/-- How a character stands takes some room. -/
theorem escapeJson_pos (c : Char) : 0 < (escapeJson c).length := by
  unfold escapeJson
  split_ifs <;> simp

/-- A string is read back, up to its closing quote. -/
theorem readChars_flatMap (h : text.length < fuel) (rest : List Char) :
    readChars fuel (text.flatMap escapeJson ++ '"' :: rest) = some (text, rest) := by
  induction text generalizing fuel with
  | nil =>
    obtain ⟨fuel, rfl⟩ : ∃ k, fuel = k + 1 := ⟨fuel - 1, by simp at h; omega⟩
    rfl
  | cons c text ih =>
    obtain ⟨fuel, rfl⟩ : ∃ k, fuel = k + 1 := ⟨fuel - 1, by simp at h; omega⟩
    rw [List.flatMap_cons, List.append_assoc, readChars_escapeJson, ih (by simpa using h)]
    rfl

/-- A text is no longer than how it stands in a string. -/
theorem length_le_flatMap (text : List Char) :
    text.length ≤ (text.flatMap escapeJson).length := by
  induction text with
  | nil => simp
  | cons c text ih =>
    have hc := escapeJson_pos c
    simp only [List.flatMap_cons, List.length_append, List.length_cons]
    omega

/-- A string is read back behind its opening quote. -/
theorem readString_flatMap (text rest : List Char) :
    readString (text.flatMap escapeJson ++ '"' :: rest) = some (text, rest) := by
  apply readChars_flatMap
  have hlen := length_le_flatMap text
  simp only [List.length_append, List.length_cons]
  omega

end Strings

section Numbers

variable {rest : List Char}

/-- Only 0 is written with a leading zero. -/
theorem head?_toDigits {n : Nat} (h : (Nat.toDigits 10 n).head? = some '0') : n = 0 := by
  induction n using Nat.strongRecOn with
  | ind n ih =>
    rw [Nat.toDigits_eq_if (by decide)] at h
    split at h
    · next hlt =>
      have hall : ∀ m < 10, Nat.digitChar m = '0' → m = 0 := by decide
      exact hall n hlt (Option.some.inj h)
    · next hle =>
      rw [List.head?_append_of_ne_nil _ Nat.toDigits_ne_nil] at h
      have hzero := ih (n / 10) (by omega) h
      omega

/-- What ends a number goes on neither with a digit, nor with a fraction or an exponent. -/
theorem EndsNumber.cons {c : Char} (h : EndsNumber (c :: rest)) :
    c.isDigit = false ∧ c ∉ ['.', 'e', 'E'] := by
  have hc : isNumberChar c = false := h c rfl
  simp only [isNumberChar, Bool.or_eq_false_iff] at hc
  refine ⟨hc.1, fun hmem ↦ ?_⟩
  have hall : ∀ d ∈ ['.', 'e', 'E'], ['+', '-', '.', 'e', 'E'].contains d = true :=
    List.all_eq_true.mp (by decide)
  rw [hall c hmem] at hc
  exact absurd hc.2 Bool.false_ne_true.symm

/-- Nothing ends a number, and so do the marks between values. -/
theorem endsNumber_nil : EndsNumber [] := fun _ hc ↦ by cases hc

theorem endsNumber_cons {c : Char} (hc : isNumberChar c = false) : EndsNumber (c :: rest) := by
  rintro d hd
  cases hd
  exact hc

/-- So does white space at the end of a text. -/
theorem endsNumber_of_space (h : skipSpace rest = []) : EndsNumber rest := by
  cases rest with
  | nil => exact endsNumber_nil
  | cons c rest =>
    have hc : isJsonSpace c = true := List.dropWhile_eq_nil_iff.mp h c List.mem_cons_self
    apply endsNumber_cons
    simp only [isJsonSpace, Bool.or_eq_true, beq_iff_eq] at hc
    rcases hc with ((rfl | rfl) | rfl) | rfl <;> decide

/-- The digits of a number are read up to what ends it. -/
theorem readUnsigned_toDigits (negative : Bool) (n : Nat) (hrest : EndsNumber rest) :
    readUnsigned negative (Nat.toDigits 10 n ++ rest) = some (integerNumber negative n, rest) := by
  have hdigit : ∀ c ∈ Nat.toDigits 10 n, c.isDigit = true := fun c ↦ isDigit_of_mem_toDigits
  have htake : digits (Nat.toDigits 10 n ++ rest) = Nat.toDigits 10 n := by
    unfold digits
    rw [List.takeWhile_append_of_pos hdigit]
    cases rest with
    | nil => simp
    | cons c rest => simp [(hrest.cons).1]
  have hdrop : (Nat.toDigits 10 n ++ rest).dropWhile Char.isDigit = rest := by
    rw [List.dropWhile_append_of_pos hdigit]
    cases rest with
    | nil => rfl
    | cons c rest => simp [(hrest.cons).1]
  have hzero : ¬((Nat.toDigits 10 n).head? = some '0' ∧ 1 < (Nat.toDigits 10 n).length) := by
    rintro ⟨hhead, hlen⟩
    rw [head?_toDigits hhead] at hlen
    exact absurd hlen (by decide)
  unfold readUnsigned
  simp only [htake, hdrop]
  rw [if_neg (not_or.mpr ⟨Nat.toDigits_ne_nil, hzero⟩)]
  cases rest with
  | nil => simp [readFraction, readExponent]
  | cons c rest =>
    have hc := hrest.cons.2
    simp only [List.mem_cons, List.not_mem_nil, or_false, not_or] at hc
    have hfraction : readFraction (c :: rest) = some ([], c :: rest) := by
      unfold readFraction
      split
      · next heq => exact absurd (List.cons.inj heq).1 hc.1
      · rfl
    simp [hfraction, readExponent, hc]

/-- The digits of a number begin no sign. -/
theorem readNumber_toDigits (n : Nat) (rest : List Char) :
    readNumber (Nat.toDigits 10 n ++ rest) = readUnsigned false (Nat.toDigits 10 n ++ rest) := by
  obtain ⟨d, ds, hds⟩ := List.exists_cons_of_ne_nil (Nat.toDigits_ne_nil (n := n) (b := 10))
  have hd : d.isDigit = true := isDigit_of_mem_toDigits (hds ▸ List.mem_cons_self)
  rw [hds, List.cons_append, readNumber.eq_2]
  rintro rest' heq
  rw [(List.cons.inj heq).1] at hd
  exact absurd hd (by decide)

/-- A number is read back. -/
theorem readNumber_writeNumber {n : JsonNumber} (hn : IsValue (.num n)) (hrest : EndsNumber rest) :
    (readNumber (writeNumber W n ++ rest)).map (fun read ↦ (Json.num read.1, read.2)) =
      some (rereadValue W.reread (.num n), rest) := by
  cases n with
  | posInt n =>
    have hnumber : integerNumber false n = .posInt n := if_pos hn
    rw [writeNumber, readNumber_toDigits, readUnsigned_toDigits false n hrest, hnumber]
    rfl
  | negInt n =>
    obtain ⟨hlow, hneg⟩ := hn
    have hnumber : integerNumber true (-n).toNat = .negInt n := by
      unfold integerNumber
      rw [if_pos rfl, if_neg (by omega), Int.toNat_of_nonneg (by omega), Int.neg_neg]
    rw [writeNumber, toList_toString, if_neg (by omega), List.cons_append, readNumber,
      readUnsigned_toDigits true _ hrest, hnumber]
    rfl
  | float x =>
    rw [writeNumber, W.readNumber_write x rest hrest]
    rfl

/-- A number holds the characters of numbers only. -/
theorem isNumberChar_of_mem {n : JsonNumber} {c : Char} (hc : c ∈ writeNumber W n) :
    isNumberChar c = true := by
  have digit {k : Nat} (h : c ∈ Nat.toDigits 10 k) : isNumberChar c = true := by
    simp [isNumberChar, isDigit_of_mem_toDigits h]
  cases n with
  | posInt n => exact digit hc
  | negInt n =>
    rw [writeNumber, toList_toString] at hc
    split_ifs at hc
    · exact digit hc
    · rcases List.mem_cons.mp hc with rfl | hc
      · decide
      · exact digit hc
  | float x => exact W.plain x c hc

/-- A number has a first character. -/
theorem writeNumber_ne_nil (n : JsonNumber) : writeNumber W n ≠ [] := by
  cases n with
  | posInt n => exact Nat.toDigits_ne_nil
  | negInt n =>
    rw [writeNumber, toList_toString]
    split_ifs
    · exact Nat.toDigits_ne_nil
    · exact List.cons_ne_nil _ _
  | float x =>
    intro hnil
    have hread := W.readNumber_write x [] endsNumber_nil
    rw [show W.write x = [] from hnil] at hread
    simp [readNumber, readUnsigned, digits] at hread

/-- The literal of one half is read. -/
theorem readNumber_half (h : EndsNumber rest) : readNumber ('0' :: '.' :: '5' :: rest) =
    some (.float (Float.ofScientific (Nat.ofDigitChars 10 ['0', '5'] 0) true 1), rest) := by
  have hfive : digits ('5' :: rest) = ['5'] := by
    unfold digits
    rw [List.takeWhile_cons_of_pos (by decide)]
    cases rest with
    | nil => rfl
    | cons c rest => rw [List.takeWhile_cons_of_neg (by simp [h.cons.1])]
  have hdrop : ('5' :: rest).dropWhile Char.isDigit = rest := by
    rw [List.dropWhile_cons_of_pos (by decide)]
    cases rest with
    | nil => rfl
    | cons c rest => rw [List.dropWhile_cons_of_neg (by simp [h.cons.1])]
  have hexponent : readExponent rest = some (none, rest) := by
    cases rest with
    | nil => rfl
    | cons c rest =>
      have hc := h.cons.2
      simp only [List.mem_cons, List.not_mem_nil, or_false, not_or] at hc
      simp [readExponent, hc]
  have hread : readUnsigned false ('0' :: '.' :: '5' :: rest) =
      some (floatNumber false ['0'] ['5'] 0, rest) := by
    have hzero : digits ('0' :: '.' :: '5' :: rest) = ['0'] := rfl
    have htail : ('0' :: '.' :: '5' :: rest).dropWhile Char.isDigit = '.' :: '5' :: rest := rfl
    unfold readUnsigned
    simp [hzero, htail, readFraction, hfive, hdrop, hexponent]
  exact hread

/-- Floating-point numbers of which each is one half. -/
def halfText : FloatText where
  write _ := ['0', '.', '5']
  reread _ := Float.ofScientific (Nat.ofDigitChars 10 ['0', '5'] 0) true 1
  plain _ := List.all_eq_true.mp (by decide)
  readNumber_write _ _ hrest := readNumber_half hrest

end Numbers

section Values

variable {value : Json} {fuel : Nat} {c : Char} {text rest : List Char}

/-- A value that starts like a number is one. -/
theorem readValue_numberChar (hc : isNumberChar c = true) (fuel : Nat) (rest : List Char) :
    readValue (fuel + 1) (c :: rest) =
      (readNumber (c :: rest)).map fun read ↦ (.num read.1, read.2) := by
  have other (d : Char) (hd : isNumberChar d = false) : c ≠ d := by
    rintro rfl
    rw [hd] at hc
    cases hc
  have hspace : isJsonSpace c = false := by
    simp [isJsonSpace, other _ (show isNumberChar ' ' = false by decide),
      other _ (show isNumberChar '\t' = false by decide),
      other _ (show isNumberChar '\n' = false by decide),
      other _ (show isNumberChar '\r' = false by decide)]
  rw [readValue, skipSpace_cons hspace]
  simp only [other _ (show isNumberChar '"' = false by decide),
    other _ (show isNumberChar '\x7b' = false by decide),
    other _ (show isNumberChar '[' = false by decide),
    other _ (show isNumberChar 't' = false by decide),
    other _ (show isNumberChar 'f' = false by decide),
    other _ (show isNumberChar 'n' = false by decide), if_false]

/-- What is written for a value starts with no white space and ends no array. -/
theorem head_writeValue (value : Json) :
    ∃ c cs, writeValue W value = c :: cs ∧ isJsonSpace c = false ∧ c ≠ ']' := by
  have number (n : JsonNumber) : ∃ c cs, writeNumber W n = c :: cs ∧ isJsonSpace c = false ∧
      c ≠ ']' := by
    obtain ⟨c, cs, heq⟩ := List.exists_cons_of_ne_nil (writeNumber_ne_nil W n)
    have hc : isNumberChar c = true := isNumberChar_of_mem W (heq ▸ List.mem_cons_self)
    refine ⟨c, cs, heq, ?_, ?_⟩
    · by_contra hspace
      simp only [isJsonSpace, Bool.not_eq_false, Bool.or_eq_true, beq_iff_eq] at hspace
      rcases hspace with ((rfl | rfl) | rfl) | rfl <;> exact absurd hc (by decide)
    · rintro rfl
      exact absurd hc (by decide)
  cases value with
  | null => exact ⟨_, _, rfl, by decide, by decide⟩
  | bool b => cases b <;> exact ⟨_, _, rfl, by decide, by decide⟩
  | num n => exact number n
  | str s => exact ⟨_, _, rfl, by decide, by decide⟩
  | arr items => exact ⟨_, _, rfl, by decide, by decide⟩
  | obj members => exact ⟨_, _, rfl, by decide, by decide⟩

/-- So do the elements of an array. -/
theorem head_writeItems (item : Json) (more : List Json) :
    ∃ c cs, writeItems W (item :: more) = c :: cs ∧ isJsonSpace c = false ∧ c ≠ ']' := by
  obtain ⟨c, cs, heq, hc⟩ := head_writeValue W item
  cases more with
  | nil => exact ⟨c, cs, heq, hc⟩
  | cons next more =>
    refine ⟨c, cs ++ ',' :: writeItems W (next :: more), ?_, hc⟩
    rw [writeItems, heq, List.cons_append]

/-- The members of an object start with a quote. -/
theorem head_writeMembers (member : String × Json) (more : List (String × Json)) :
    ∃ cs, writeMembers W (member :: more) = '"' :: cs := by
  cases more with
  | nil => exact ⟨_, rfl⟩
  | cons next more => exact ⟨_, rfl⟩

/-- A name is read whatever comes behind it. -/
theorem readName_append (name rest : List Char) (value : Json) :
    readName name value (name ++ rest) = some (value, rest) := by
  have hprefix : name.isPrefixOf (name ++ rest) = true :=
    List.isPrefixOf_iff_prefix.mpr (List.prefix_append name rest)
  rw [readName, if_pos hprefix, List.drop_left]

/-- An array with an element. -/
theorem readValue_bracket (hspace : isJsonSpace c = false) (hc : c ≠ ']') (fuel : Nat)
    (rest : List Char) :
    readValue (fuel + 1) ('[' :: c :: rest) = readElements fuel [] (c :: rest) := by
  rw [readValue, skipSpace_cons (by decide)]
  simp only [skipSpace_cons hspace, List.head?_cons, Option.some.injEq, hc, if_false]
  rfl

/-- An element with a comma behind it. -/
theorem readElements_comma {items : List Json} {more : List Char}
    (hvalue : readValue fuel text = some (value, ',' :: more)) :
    readElements (fuel + 1) items text = readElements fuel (items ++ [value]) more := by
  rw [readElements, hvalue]
  simp only [Option.bind_eq_bind, Option.bind_some,
    skipSpace_cons (show isJsonSpace ',' = false by decide)]

/-- The last element. -/
theorem readElements_bracket {items : List Json} {more : List Char}
    (hvalue : readValue fuel text = some (value, ']' :: more)) :
    readElements (fuel + 1) items text = some (.arr (items ++ [value]), more) := by
  rw [readElements, hvalue]
  simp only [Option.bind_eq_bind, Option.bind_some,
    skipSpace_cons (show isJsonSpace ']' = false by decide)]
  rfl

/-- A member with a key of its own is added at the end. -/
theorem setMember_of_notMem {members : List (String × Json)} {key : String}
    (h : key ∉ members.map Prod.fst) (value : Json) :
    setMember members key value = members ++ [(key, value)] := by
  unfold setMember
  rw [List.filter_eq_self.mpr]
  intro member hmem
  have hne : member.1 ≠ key := fun heq ↦ h (heq ▸ List.mem_map_of_mem hmem)
  simpa using hne

end Values

section RoundTrip

mutual

/-- What is written for a value is read back, whatever stands behind it. -/
theorem readValue_writeValue : ∀ (value : Json), IsValue value →
    ∀ (fuel : Nat) (rest : List Char), (writeValue W value).length ≤ fuel → EndsNumber rest →
      readValue fuel (writeValue W value ++ rest) = some (rereadValue W.reread value, rest)
  | .null, _, fuel, rest, hfuel, _ => by
    obtain ⟨fuel, rfl⟩ : ∃ k, fuel = k + 1 := ⟨fuel - 1, by simp [writeValue] at hfuel; omega⟩
    exact readName_append "ull".toList rest .null
  | .bool true, _, fuel, rest, hfuel, _ => by
    obtain ⟨fuel, rfl⟩ : ∃ k, fuel = k + 1 := ⟨fuel - 1, by simp [writeValue] at hfuel; omega⟩
    exact readName_append "rue".toList rest (.bool true)
  | .bool false, _, fuel, rest, hfuel, _ => by
    obtain ⟨fuel, rfl⟩ : ∃ k, fuel = k + 1 := ⟨fuel - 1, by simp [writeValue] at hfuel; omega⟩
    exact readName_append "alse".toList rest (.bool false)
  | .num n, hvalue, fuel, rest, hfuel, hrest => by
    obtain ⟨c, cs, heq⟩ := List.exists_cons_of_ne_nil (writeNumber_ne_nil W n)
    have hc : isNumberChar c = true := isNumberChar_of_mem W (heq ▸ List.mem_cons_self)
    have hread := readNumber_writeNumber W hvalue hrest
    rw [writeValue, heq] at hfuel ⊢
    obtain ⟨fuel, rfl⟩ : ∃ k, fuel = k + 1 := ⟨fuel - 1, by simp at hfuel; omega⟩
    rw [heq] at hread
    rw [List.cons_append] at hread ⊢
    rw [readValue_numberChar hc, hread]
  | .str s, _, fuel, rest, hfuel, _ => by
    obtain ⟨fuel, rfl⟩ : ∃ k, fuel = k + 1 :=
      ⟨fuel - 1, by simp [writeValue, writeString] at hfuel; omega⟩
    rw [writeValue, writeString, List.cons_append, List.append_assoc, readValue_quote,
      List.singleton_append, readString_flatMap]
    simp [rereadValue]
  | .arr [], _, fuel, rest, hfuel, _ => by
    obtain ⟨fuel, rfl⟩ : ∃ k, fuel = k + 1 := ⟨fuel - 1, by simp [writeValue] at hfuel; omega⟩
    rfl
  | .arr (item :: items), hvalue, fuel, rest, hfuel, _ => by
    obtain ⟨c, cs, heq, hspace, hc⟩ := head_writeItems W item items
    simp only [writeValue, List.length_cons, List.length_append] at hfuel
    obtain ⟨fuel, rfl⟩ : ∃ k, fuel = k + 1 := ⟨fuel - 1, by omega⟩
    have hread := readElements_writeItems item items hvalue [] fuel rest (by omega)
    rw [heq] at hread
    rw [writeValue, heq]
    simp only [List.cons_append, List.append_assoc, List.nil_append] at hread ⊢
    rw [readValue_bracket hspace hc, hread]
    rfl
  | .obj [], _, fuel, rest, hfuel, _ => by
    obtain ⟨fuel, rfl⟩ : ∃ k, fuel = k + 1 := ⟨fuel - 1, by simp [writeValue] at hfuel; omega⟩
    rfl
  | .obj ((key, value) :: members), hvalue, fuel, rest, hfuel, _ => by
    obtain ⟨cs, heq⟩ := head_writeMembers W (key, value) members
    simp only [writeValue, List.length_cons, List.length_append] at hfuel
    obtain ⟨fuel, rfl⟩ : ∃ k, fuel = k + 1 := ⟨fuel - 1, by omega⟩
    have hread := readMembers_writeMembers key value members hvalue.2 [] fuel rest hvalue.1
      (by omega)
    rw [heq] at hread
    rw [writeValue, heq]
    simp only [List.cons_append, List.append_assoc, List.nil_append] at hread ⊢
    rw [readValue_brace, hread]
    rfl
termination_by _ _ fuel => fuel

/-- The elements of an array are read back behind those that were read before. -/
theorem readElements_writeItems : ∀ (item : Json) (more : List Json), AreValues (item :: more) →
    ∀ (items : List Json) (fuel : Nat) (rest : List Char),
      (writeItems W (item :: more)).length < fuel →
      readElements fuel items (writeItems W (item :: more) ++ ']' :: rest) =
        some (.arr (items ++ rereadItems W.reread (item :: more)), rest)
  | item, [], hvalues, items, fuel, rest, hfuel => by
    rw [writeItems] at hfuel ⊢
    obtain ⟨fuel, rfl⟩ : ∃ k, fuel = k + 1 := ⟨fuel - 1, by omega⟩
    have hvalue := readValue_writeValue item hvalues.1 fuel (']' :: rest) (by omega)
      (endsNumber_cons (by decide))
    rw [readElements_bracket hvalue]
    rfl
  | item, next :: more, hvalues, items, fuel, rest, hfuel => by
    rw [writeItems] at hfuel ⊢
    simp only [List.length_append, List.length_cons] at hfuel
    obtain ⟨fuel, rfl⟩ : ∃ k, fuel = k + 1 := ⟨fuel - 1, by omega⟩
    have hvalue := readValue_writeValue item hvalues.1 fuel
      (',' :: (writeItems W (next :: more) ++ ']' :: rest)) (by omega)
      (endsNumber_cons (by decide))
    rw [List.append_assoc, List.cons_append, readElements_comma hvalue,
      readElements_writeItems next more hvalues.2 _ _ _ (by omega), List.append_assoc]
    rfl
termination_by _ _ _ _ fuel => fuel

/-- The members of an object are read back behind those that were read before. -/
theorem readMembers_writeMembers : ∀ (key : String) (value : Json) (more : List (String × Json)),
    HaveValues ((key, value) :: more) →
    ∀ (members : List (String × Json)) (fuel : Nat) (rest : List Char),
      (members.map Prod.fst ++ key :: more.map Prod.fst).Nodup →
      (writeMembers W ((key, value) :: more)).length < fuel →
      readMembers fuel members (writeMembers W ((key, value) :: more) ++ '\x7d' :: rest) =
        some (.obj (members ++ rereadMembers W.reread ((key, value) :: more)), rest)
  | key, value, [], hvalues, members, fuel, rest, hnodup, hfuel => by
    rw [writeMembers, writeString] at hfuel ⊢
    simp only [List.length_append, List.length_cons] at hfuel
    obtain ⟨fuel, rfl⟩ : ∃ k, fuel = k + 1 := ⟨fuel - 1, by omega⟩
    have hvalue := readValue_writeValue value hvalues.1 fuel ('\x7d' :: rest) (by omega)
      (endsNumber_cons (by decide))
    have hkey := readString_flatMap key.toList (':' :: (writeValue W value ++ '\x7d' :: rest))
    have hnew : key ∉ members.map Prod.fst := fun hmem ↦
      (List.nodup_append.mp hnodup).2.2 key hmem key List.mem_cons_self rfl
    simp only [List.cons_append, List.append_assoc, List.nil_append]
    rw [readMembers_brace hkey hvalue, String.ofList_toList, setMember_of_notMem hnew]
    rfl
  | key, value, (next, nextValue) :: more, hvalues, members, fuel, rest, hnodup, hfuel => by
    rw [writeMembers, writeString] at hfuel ⊢
    simp only [List.length_append, List.length_cons] at hfuel
    obtain ⟨fuel, rfl⟩ : ∃ k, fuel = k + 1 := ⟨fuel - 1, by omega⟩
    have hvalue := readValue_writeValue value hvalues.1 fuel
      (',' :: (writeMembers W ((next, nextValue) :: more) ++ '\x7d' :: rest)) (by omega)
      (endsNumber_cons (by decide))
    have hkey := readString_flatMap key.toList (':' :: (writeValue W value ++
      ',' :: (writeMembers W ((next, nextValue) :: more) ++ '\x7d' :: rest)))
    have hnew : key ∉ members.map Prod.fst := fun hmem ↦
      (List.nodup_append.mp hnodup).2.2 key hmem key List.mem_cons_self rfl
    simp only [List.cons_append, List.append_assoc, List.nil_append]
    rw [readMembers_comma hkey hvalue, String.ofList_toList, setMember_of_notMem hnew,
      readMembers_writeMembers next nextValue more hvalues.2 _ _ _ (by simpa using hnodup)
        (by omega)]
    simp [rereadMembers]
termination_by _ _ _ _ _ fuel => fuel

end

variable {value : Json}

/-- Values of members, member by member. -/
theorem haveValues_iff {members : List (String × Json)} :
    HaveValues members ↔ ∀ member ∈ members, IsValue member.2 := by
  induction members with
  | nil => simp [HaveValues]
  | cons member rest ih => simp [HaveValues, ih]

/-- Sorting changes no key. -/
theorem keys_byKeyMembers (members : List (String × Json)) :
    (byKeyMembers members).map Prod.fst = members.map Prod.fst := by
  induction members with
  | nil => rfl
  | cons member rest ih => simp [byKeyMembers, ih]

mutual

/-- A value whose members are sorted is still one. -/
theorem isValue_byKey : ∀ {value : Json}, IsValue value → IsValue (byKey value)
  | .null, h => h
  | .bool _, h => h
  | .num _, h => h
  | .str _, h => h
  | .arr _, h => areValues_byKeyItems h
  | .obj members, h => by
    have hperm := List.mergeSort_perm (byKeyMembers members) fun a b ↦ decide (a.1 ≤ b.1)
    refine ⟨?_, haveValues_iff.mpr fun member hmember ↦ ?_⟩
    · rw [(hperm.map Prod.fst).nodup_iff, keys_byKeyMembers]
      exact h.1
    · exact haveValues_iff.mp (haveValues_byKeyMembers h.2) member (hperm.mem_iff.mp hmember)

/-- The same for the elements of an array. -/
theorem areValues_byKeyItems : ∀ {items : List Json}, AreValues items →
    AreValues (byKeyItems items)
  | [], h => h
  | _ :: _, h => ⟨isValue_byKey h.1, areValues_byKeyItems h.2⟩

/-- The same for the values of members. -/
theorem haveValues_byKeyMembers : ∀ {members : List (String × Json)}, HaveValues members →
    HaveValues (byKeyMembers members)
  | [], h => h
  | (_, _) :: _, h => ⟨isValue_byKey h.1, haveValues_byKeyMembers h.2⟩

end

/-- What is written for a value is read back, with or without white space behind it. -/
theorem readJson_writeValue (h : IsValue value) (space : List Char)
    (hspace : skipSpace space = []) :
    readJson (String.ofList (writeValue W value ++ space)) = some (rereadValue W.reread value) := by
  have hread := readValue_writeValue W value h ((writeValue W value ++ space).length + 1) space
    (by rw [List.length_append]; omega) (endsNumber_of_space hspace)
  unfold readJson
  rw [String.toList_ofList, hread]
  simp [hspace]

/-- What is written for a value is read as the value with the members of its objects in the
order of their keys. -/
theorem readJson_writeJson (h : IsValue value) (space : List Char)
    (hspace : skipSpace space = []) :
    readJson (writeJson W value ++ String.ofList space) =
      some (rereadValue W.reread (byKey value)) := by
  rw [writeJson, ← String.ofList_append]
  exact readJson_writeValue W (isValue_byKey h) space hspace

end RoundTrip

section Members

variable {float : Float → Float} {value : Json} {members : List (String × Json)} {key : String}

/-- What a look-up of a key finds in members whose keys differ. -/
theorem find?_key_iff (h : (members.map Prod.fst).Nodup) {member : String × Json} :
    (members.find? fun m ↦ m.1 == key) = some member ↔ member.1 = key ∧ member ∈ members := by
  induction members with
  | nil => simp
  | cons first rest ih =>
    obtain ⟨hnew, hrest⟩ := List.nodup_cons.mp h
    rw [List.find?_cons]
    by_cases hkey : first.1 = key
    · have hnone (hm : member.1 = key) : member ∉ rest := fun hmem ↦
        hnew (hkey.trans hm.symm ▸ List.mem_map_of_mem hmem)
      simp only [hkey, beq_self_eq_true, Option.some.injEq, List.mem_cons]
      constructor
      · rintro rfl
        exact ⟨hkey, Or.inl rfl⟩
      · rintro ⟨hm, rfl | hmem⟩
        · rfl
        · exact absurd hmem (hnone hm)
    · have hne : (first.1 == key) = false := by simpa using hkey
      have hother (hm : member.1 = key) : member ≠ first := fun heq ↦ hkey (heq ▸ hm)
      rw [hne, ih hrest, List.mem_cons]
      constructor
      · exact fun ⟨hm, hmem⟩ ↦ ⟨hm, Or.inr hmem⟩
      · exact fun ⟨hm, hmem⟩ ↦ ⟨hm, hmem.resolve_left (hother hm)⟩

/-- The order of the members does not matter to a look-up. -/
theorem find?_key_perm {more : List (String × Json)} (hperm : members.Perm more)
    (h : (members.map Prod.fst).Nodup) (key : String) :
    (members.find? fun m ↦ m.1 == key) = more.find? fun m ↦ m.1 == key := by
  ext member
  rw [find?_key_iff h, find?_key_iff ((hperm.map Prod.fst).nodup_iff.mp h), hperm.mem_iff]

/-- Sorting the values of members. -/
theorem byKeyMembers_eq_map (members : List (String × Json)) :
    byKeyMembers members = members.map fun m ↦ (m.1, byKey m.2) := by
  induction members with
  | nil => rfl
  | cons member rest ih => simp [byKeyMembers, ih]

/-- Reading the values of members back. -/
theorem rereadMembers_eq_map (members : List (String × Json)) :
    rereadMembers float members = members.map fun m ↦ (m.1, rereadValue float m.2) := by
  induction members with
  | nil => rfl
  | cons member rest ih => simp [rereadMembers, ih]

/-- A field of a value whose members are sorted. -/
theorem get_byKey (h : IsValue value) (key : String) :
    (byKey value).get key = byKey (value.get key) := by
  cases value with
  | obj members =>
    have hnodup : ((byKeyMembers members).map Prod.fst).Nodup := by
      rw [keys_byKeyMembers]
      exact h.1
    have hperm := List.mergeSort_perm (byKeyMembers members) fun a b ↦ decide (a.1 ≤ b.1)
    have hsorted := find?_key_perm hperm.symm hnodup key
    simp only [byKey, Json.get]
    rw [← hsorted, byKeyMembers_eq_map, List.find?_map]
    cases hfind : members.find? ((fun m ↦ m.1 == key) ∘ fun m ↦ (m.1, byKey m.2)) with
    | none =>
      have hnone : (members.find? fun m ↦ m.1 == key) = none := hfind
      simp [hnone, byKey]
    | some member =>
      have hsome : (members.find? fun m ↦ m.1 == key) = some member := hfind
      simp [hsome]
  | _ => rfl

/-- A field of a value that was read back. -/
theorem get_rereadValue (value : Json) (key : String) :
    (rereadValue float value).get key = rereadValue float (value.get key) := by
  cases value with
  | obj members =>
    simp only [rereadValue, Json.get]
    rw [rereadMembers_eq_map, List.find?_map]
    cases hfind : members.find? ((fun m ↦ m.1 == key) ∘ fun m ↦ (m.1, rereadValue float m.2)) with
    | none =>
      have hnone : (members.find? fun m ↦ m.1 == key) = none := hfind
      simp [hnone, rereadValue]
    | some member =>
      have hsome : (members.find? fun m ↦ m.1 == key) = some member := hfind
      simp [hsome]
  | num n => cases n <;> rfl
  | _ => rfl

end Members

section Characters

variable {c : Char} {text : List Char}

/-- The text holds no control characters. -/
def NoControls (text : List Char) : Prop := ∀ c ∈ text, isControl c = false

/-- The characters of a given text are looked through. -/
theorem noControls_of_all (h : (text.all fun c ↦ !isControl c) = true) : NoControls text := by
  intro c hc
  simpa using List.all_eq_true.mp h c hc

/-- A string is written without control characters. -/
theorem isControl_escapeJson {d : Char} (h : d ∈ escapeJson c) : isControl d = false := by
  have digit {k : Nat} (hk : k < 16) : isControl (Nat.digitChar k) = false := by
    have hall : ∀ k < 16, isControl (Nat.digitChar k) = false := by decide
    exact hall k hk
  unfold escapeJson at h
  split_ifs at h with _ _ _ _ _ _ _ hcontrol
  · exact noControls_of_all (by decide) d h
  · exact noControls_of_all (by decide) d h
  · exact noControls_of_all (by decide) d h
  · exact noControls_of_all (by decide) d h
  · exact noControls_of_all (by decide) d h
  · exact noControls_of_all (by decide) d h
  · exact noControls_of_all (by decide) d h
  · have hlt : c.toNat < 0x20 := by simpa [isControl] using hcontrol
    simp only [List.mem_cons, List.not_mem_nil, or_false] at h
    rcases h with rfl | rfl | rfl | rfl | rfl | rfl
    · decide
    · decide
    · decide
    · decide
    · exact digit (by omega)
    · exact digit (by omega)
  · rw [List.mem_singleton.mp h]
    simpa using hcontrol

theorem NoControls.append {more : List Char} (h : NoControls text) (h' : NoControls more) :
    NoControls (text ++ more) :=
  List.forall_mem_append.mpr ⟨h, h'⟩

theorem NoControls.cons (hc : isControl c = false) (h : NoControls text) :
    NoControls (c :: text) :=
  List.forall_mem_cons.mpr ⟨hc, h⟩

theorem noControls_writeString (text : List Char) : NoControls (writeString text) := by
  have escaped : NoControls (text.flatMap escapeJson) := by
    intro d hd
    obtain ⟨c, -, hd⟩ := List.mem_flatMap.mp hd
    exact isControl_escapeJson hd
  exact .cons (by decide) (escaped.append (.cons (by decide) (List.forall_mem_nil _)))

theorem noControls_writeNumber (n : JsonNumber) : NoControls (writeNumber W n) := by
  intro c hc
  have hnumber := isNumberChar_of_mem W hc
  by_contra hcontrol
  have hlt : c.toNat < 0x20 := by simpa [isControl] using hcontrol
  have hall : ∀ k < 0x20, isNumberChar (Char.ofNat k) = false := by decide
  rw [← Char.ofNat_toNat c, hall _ hlt] at hnumber
  cases hnumber

mutual

/-- A value is written without control characters. -/
theorem noControls_writeValue : ∀ value : Json, NoControls (writeValue W value)
  | .null => noControls_of_all (by unfold writeValue; decide)
  | .bool true => noControls_of_all (by unfold writeValue; decide)
  | .bool false => noControls_of_all (by unfold writeValue; decide)
  | .num n => noControls_writeNumber W n
  | .str s => noControls_writeString s.toList
  | .arr items =>
    .cons (by decide) ((noControls_writeItems items).append
      (.cons (by decide) (List.forall_mem_nil _)))
  | .obj members =>
    .cons (by decide) ((noControls_writeMembers members).append
      (.cons (by decide) (List.forall_mem_nil _)))

theorem noControls_writeItems : ∀ items : List Json, NoControls (writeItems W items)
  | [] => List.forall_mem_nil _
  | [item] => noControls_writeValue item
  | item :: next :: rest =>
    (noControls_writeValue item).append (.cons (by decide) (noControls_writeItems (next :: rest)))

theorem noControls_writeMembers : ∀ members : List (String × Json),
    NoControls (writeMembers W members)
  | [] => List.forall_mem_nil _
  | [(key, value)] =>
    (noControls_writeString key.toList).append
      (.cons (by decide) (noControls_writeValue value))
  | (key, value) :: next :: rest =>
    (noControls_writeString key.toList).append (.cons (by decide)
      ((noControls_writeValue value).append
        (.cons (by decide) (noControls_writeMembers (next :: rest)))))

end

end Characters

end PacketDial.Core
