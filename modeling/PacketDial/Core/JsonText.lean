import PacketDial.Core.Json

/-!
# JSON texts

The grammar of RFC 8259, as `serde_json::from_str` reads it: control characters stand in no string,
an integer that fits 64 bits stays one, and of two members with one key the later counts. What
follows a bracket takes fuel; one unit for each character, and one more, always suffices.
-/

namespace PacketDial.Core

/-- White space of JSON. -/
def isJsonSpace (c : Char) : Bool := c == ' ' || c == '\t' || c == '\n' || c == '\r'

/-- The text behind white space. -/
def skipSpace (text : List Char) : List Char := text.dropWhile isJsonSpace

/-- The value of a hexadecimal digit. -/
def hexValue (c : Char) : Option Nat :=
  if '0' ≤ c ∧ c ≤ '9' then some (c.toNat - '0'.toNat)
  else if 'a' ≤ c ∧ c ≤ 'f' then some (c.toNat - 'a'.toNat + 10)
  else if 'A' ≤ c ∧ c ≤ 'F' then some (c.toNat - 'A'.toNat + 10)
  else none

/-- Four hexadecimal digits. -/
def readHex : List Char → Option (Nat × List Char)
  | a :: b :: c :: d :: rest => do
    let high := (← hexValue a) * 16 + (← hexValue b)
    let low := (← hexValue c) * 16 + (← hexValue d)
    return (high * 256 + low, rest)
  | _ => none

/-- The character of `\u`, where surrogates come in pairs. -/
def readUnicode (text : List Char) : Option (Char × List Char) := do
  let (n, rest) ← readHex text
  if n < 0xD800 ∨ 0xDFFF < n then return (Char.ofNat n, rest)
  else if n ≤ 0xDBFF then
    match rest with
    | '\\' :: 'u' :: rest => do
      let (m, rest) ← readHex rest
      if 0xDC00 ≤ m ∧ m ≤ 0xDFFF then
        return (Char.ofNat (0x10000 + (n - 0xD800) * 0x400 + (m - 0xDC00)), rest)
      else none
    | _ => none
  else none

/-- What stands behind a backslash. -/
def readEscape : List Char → Option (Char × List Char)
  | [] => none
  | c :: rest =>
    if c = '"' ∨ c = '\\' ∨ c = '/' then some (c, rest)
    else if c = 'b' then some ('\x08', rest)
    else if c = 'f' then some ('\x0C', rest)
    else if c = 'n' then some ('\n', rest)
    else if c = 'r' then some ('\r', rest)
    else if c = 't' then some ('\t', rest)
    else if c = 'u' then readUnicode rest
    else none

/-- A character that a string may not hold as it is. -/
def isControl (c : Char) : Bool := decide (c.toNat < 0x20)

/-- A string up to its closing quote. -/
def readChars : Nat → List Char → Option (List Char × List Char)
  | 0, _ => none
  | _, [] => none
  | fuel + 1, c :: rest =>
    if c = '"' then some ([], rest)
    else if c = '\\' then do
      let (d, rest) ← readEscape rest
      let (chars, rest) ← readChars fuel rest
      return (d :: chars, rest)
    else if isControl c then none
    else do
      let (chars, rest) ← readChars fuel rest
      return (c :: chars, rest)

/-- A string behind its opening quote. -/
def readString (text : List Char) : Option (List Char × List Char) :=
  readChars (text.length + 1) text

/-- The digits at the start of a text. -/
def digits (text : List Char) : List Char := text.takeWhile Char.isDigit

/-- A sign in front of an exponent. -/
def readSign : List Char → Bool × List Char
  | '-' :: rest => (true, rest)
  | '+' :: rest => (false, rest)
  | rest => (false, rest)

/-- The digits behind a decimal point, if there is one. -/
def readFraction : List Char → Option (List Char × List Char)
  | '.' :: rest =>
    if digits rest = [] then none else some (digits rest, rest.dropWhile Char.isDigit)
  | rest => some ([], rest)

/-- The exponent, if there is one. -/
def readExponent : List Char → Option (Option Int × List Char)
  | [] => some (none, [])
  | c :: rest =>
    if c = 'e' ∨ c = 'E' then
      let (negative, rest) := readSign rest
      let exponent : Int := Nat.ofDigitChars 10 (digits rest) 0
      if digits rest = [] then none
      else some (some (if negative then -exponent else exponent), rest.dropWhile Char.isDigit)
    else some (none, c :: rest)

/-- A number of an integer literal: one that has no room in 64 bits is read as a float. -/
def integerNumber (negative : Bool) (n : Nat) : JsonNumber :=
  if negative then
    if n = 0 ∨ 2 ^ 63 < n then .float (-Float.ofNat n) else .negInt (-n)
  else if n < 2 ^ 64 then .posInt n
  else .float (Float.ofNat n)

/-- The number of a literal with a fraction or an exponent. -/
def floatNumber (negative : Bool) (whole fraction : List Char) (exponent : Int) : JsonNumber :=
  let scale := exponent - fraction.length
  let x := Float.ofScientific (Nat.ofDigitChars 10 (whole ++ fraction) 0) (scale < 0) scale.natAbs
  .float (if negative then -x else x)

/-- A number without its sign. -/
def readUnsigned (negative : Bool) (text : List Char) : Option (JsonNumber × List Char) := do
  let whole := digits text
  if whole = [] ∨ (whole.head? = some '0' ∧ 1 < whole.length) then none
  else
    let (fraction, rest) ← readFraction (text.dropWhile Char.isDigit)
    let (exponent, rest) ← readExponent rest
    if fraction = [] ∧ exponent = none then
      return (integerNumber negative (Nat.ofDigitChars 10 whole 0), rest)
    else return (floatNumber negative whole fraction (exponent.getD 0), rest)

/-- A number. -/
def readNumber : List Char → Option (JsonNumber × List Char)
  | '-' :: rest => readUnsigned true rest
  | text => readUnsigned false text

/-- A literal name, given the rest of it. -/
def readName (name : List Char) (value : Json) (text : List Char) : Option (Json × List Char) :=
  if name.isPrefixOf text then some (value, text.drop name.length) else none

/-- The members with a further one; an earlier one of the same key goes. -/
def setMember (members : List (String × Json)) (key : String) (value : Json) :
    List (String × Json) :=
  members.filter (·.1 ≠ key) ++ [(key, value)]

mutual

/-- A value. -/
def readValue : Nat → List Char → Option (Json × List Char)
  | 0, _ => none
  | fuel + 1, text =>
    match skipSpace text with
    | [] => none
    | c :: rest =>
      if c = '"' then (readString rest).map fun read ↦ (.str (String.ofList read.1), read.2)
      else if c = '{' then
        if (skipSpace rest).head? = some '}' then some (.obj [], (skipSpace rest).tail)
        else readMembers fuel [] rest
      else if c = '[' then
        if (skipSpace rest).head? = some ']' then some (.arr [], (skipSpace rest).tail)
        else readElements fuel [] rest
      else if c = 't' then readName "rue".toList (.bool true) rest
      else if c = 'f' then readName "alse".toList (.bool false) rest
      else if c = 'n' then readName "ull".toList .null rest
      else (readNumber (c :: rest)).map fun read ↦ (.num read.1, read.2)

/-- The members of an object up to its closing brace. -/
def readMembers : Nat → List (String × Json) → List Char → Option (Json × List Char)
  | 0, _, _ => none
  | fuel + 1, members, text =>
    match skipSpace text with
    | '"' :: rest => do
      let (key, rest) ← readString rest
      match skipSpace rest with
      | ':' :: rest => do
        let (value, rest) ← readValue fuel rest
        let members := setMember members (String.ofList key) value
        match skipSpace rest with
        | ',' :: rest => readMembers fuel members rest
        | '}' :: rest => return (.obj members, rest)
        | _ => none
      | _ => none
    | _ => none

/-- The elements of an array up to its closing bracket. -/
def readElements : Nat → List Json → List Char → Option (Json × List Char)
  | 0, _, _ => none
  | fuel + 1, items, text => do
    let (value, rest) ← readValue fuel text
    match skipSpace rest with
    | ',' :: rest => readElements fuel (items ++ [value]) rest
    | ']' :: rest => return (.arr (items ++ [value]), rest)
    | _ => none

end

/-- `serde_json::from_str`: one value, with nothing but white space behind it. -/
def readJson (text : String) : Option Json := do
  let (value, rest) ← readValue (text.toList.length + 1) text.toList
  if skipSpace rest = [] then some value else none

section Rules

variable {c : Char} {text rest more : List Char} {key : List Char} {value : Json} {fuel : Nat}
  {members : List (String × Json)}

/-- A text that does not start with white space. -/
@[simp] theorem skipSpace_cons (h : isJsonSpace c = false) (rest : List Char) :
    skipSpace (c :: rest) = c :: rest :=
  List.dropWhile_cons_of_neg (by simp [h])

/-- A value that starts with a quote is a string. -/
theorem readValue_quote (fuel : Nat) (rest : List Char) :
    readValue (fuel + 1) ('"' :: rest) =
      (readString rest).map fun read ↦ (.str (String.ofList read.1), read.2) := by
  rw [readValue, skipSpace_cons (by decide)]
  rfl

/-- A brace with a quote behind it starts an object with members. -/
theorem readValue_brace (fuel : Nat) (rest : List Char) :
    readValue (fuel + 1) ('\x7b' :: '"' :: rest) = readMembers fuel [] ('"' :: rest) := by
  rw [readValue, skipSpace_cons (by decide)]
  simp only [skipSpace_cons (show isJsonSpace '"' = false by decide)]
  rfl

/-- A member with a comma behind it. -/
theorem readMembers_comma (hkey : readString text = some (key, ':' :: rest))
    (hvalue : readValue fuel rest = some (value, ',' :: more)) :
    readMembers (fuel + 1) members ('"' :: text) =
      readMembers fuel (setMember members (String.ofList key) value) more := by
  rw [readMembers, skipSpace_cons (by decide)]
  simp only [hkey, hvalue, skipSpace_cons (show isJsonSpace ':' = false by decide),
    skipSpace_cons (show isJsonSpace ',' = false by decide), Option.bind_eq_bind, Option.bind_some]

/-- The last member. -/
theorem readMembers_brace (hkey : readString text = some (key, ':' :: rest))
    (hvalue : readValue fuel rest = some (value, '\x7d' :: more)) :
    readMembers (fuel + 1) members ('"' :: text) =
      some (.obj (setMember members (String.ofList key) value), more) := by
  rw [readMembers, skipSpace_cons (by decide)]
  simp only [hkey, hvalue, skipSpace_cons (show isJsonSpace ':' = false by decide),
    skipSpace_cons (show isJsonSpace '\x7d' = false by decide), Option.bind_eq_bind,
    Option.bind_some]
  rfl

/-- A member without a value. -/
theorem readMembers_none (hkey : readString text = some (key, ':' :: rest))
    (hvalue : readValue fuel rest = none) :
    readMembers (fuel + 1) members ('"' :: text) = none := by
  rw [readMembers, skipSpace_cons (by decide)]
  simp only [hkey, hvalue, skipSpace_cons (show isJsonSpace ':' = false by decide),
    Option.bind_eq_bind, Option.bind_some, Option.bind_none]

end Rules

end PacketDial.Core
