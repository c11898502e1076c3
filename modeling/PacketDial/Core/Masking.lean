import PacketDial.Core.Lowercase
import PacketDial.Lib.Slices

/-!
# Masking of captured SIP text

`core_rust/src/lib.rs:891–964`. Every `&s[..n]` and `&s[n..]` of the source is a cut at a
byte offset that panics inside a character or out of range. The scanning loop takes fuel;
one unit for each character, and one more, always suffices.
-/

namespace PacketDial.Core

open PacketDial.Lib
open String (utf8Len)

/-- Why a masking computation gives no text. -/
inductive Halt where
  | panic
  | outOfFuel
  deriving DecidableEq, Repr

/-- `&s[..n]`. -/
def sliceTo (s : List Char) (n : Nat) : Except Halt (List Char) :=
  match splitAtByte s n with
  | some (a, _) => .ok a
  | none => .error .panic

/-- `&s[n..]`. -/
def sliceFrom (s : List Char) (n : Nat) : Except Halt (List Char) :=
  match splitAtByte s n with
  | some (_, b) => .ok b
  | none => .error .panic

/-- `str::lines`: split at `\n`, dropping a `\r` in front of it. The accumulator holds the
current line reversed. -/
def linesFrom (acc : List Char) : List Char → List (List Char)
  | [] => if acc = [] then [] else [acc.reverse]
  | c :: rest =>
    if c = '\n' then
      (match acc with
        | '\r' :: acc' => acc'.reverse
        | _ => acc.reverse) :: linesFrom [] rest
    else linesFrom (c :: acc) rest

/-- `str::lines`. -/
def lines (s : List Char) : List (List Char) := linesFrom [] s

/-- `lib.rs:940`: mask the password of one URI. -/
def maskSingleUri (uri : List Char) : Except Halt (List Char) := do
  let body ←
    if "sip:".toList.isPrefixOf (toLowercase uri) then sliceFrom uri 4
    else if "sips:".toList.isPrefixOf (toLowercase uri) then sliceFrom uri 5
    else return uri
  let scheme ← sliceTo uri (utf8Len uri - utf8Len body)
  -- body is user[:password]@host[:port][;params]
  match findChar (· == '@') body with
  | some atPos =>
    let userinfo ← sliceTo body atPos
    let hostinfo ← sliceFrom body atPos
    match findChar (· == ':') userinfo with
    | some colonPos =>
      let user ← sliceTo userinfo colonPos
      return scheme ++ user ++ ":***".toList ++ hostinfo
    | none => return uri
  | none => return uri

/-- The characters that end a URI in the scan. -/
def endsUri (c : Char) : Bool := isWhitespace c || c == '>' || c == '<' || c == '"'

/-- The loop of `mask_sip_uri_passwords`, `lib.rs:925–935`, over the remaining text. -/
def maskRemaining : Nat → List Char → Except Halt (List Char)
  | 0, _ => .error .outOfFuel
  | fuel + 1, remaining =>
    match findStr "sip:".toList (toLowercase remaining) with
    | none => .ok remaining
    | some start => do
      -- `start` is an offset into the lowered copy, used on the text itself.
      let before ← sliceTo remaining start
      let uriStart ← sliceFrom remaining start
      let uriEnd := (findChar endsUri uriStart).getD (utf8Len uriStart)
      let uri ← sliceTo uriStart uriEnd
      let masked ← maskSingleUri uri
      let rest ← sliceFrom uriStart uriEnd
      let out ← maskRemaining fuel rest
      return before ++ masked ++ out

/-- `lib.rs:922`: mask the passwords of the `sip:` URIs in a line. -/
def maskSipUriPasswords (s : List Char) : Except Halt (List Char) :=
  maskRemaining (s.length + 1) s

/-- The body of the loop of `mask_sip_log`, `lib.rs:896–913`, for one line. -/
def maskLine (line : List Char) : Except Halt (List Char) :=
  let lower := toLowercase line
  if "authorization:".toList.isPrefixOf lower ||
      "proxy-authorization:".toList.isPrefixOf lower then
    match findChar (· == ':') line with
    | some colon => do
      let name ← sliceTo line (colon + 1)
      return name ++ " ***MASKED***".toList
    | none => .ok line
  else if (findStr "sip:".toList lower).isSome && line.contains '@' && line.contains ':' then
    maskSipUriPasswords line
  else .ok line

/-- Drop the newline the loop added when the input does not end with one, `lib.rs:914–917`. -/
def dropAddedNewline (input out : List Char) : List Char :=
  if input.getLast? ≠ some '\n' ∧ out.getLast? = some '\n' then out.dropLast else out

/-- `lib.rs:894`: mask credentials in a SIP message. -/
def maskSipLog (input : List Char) : Except Halt (List Char) := do
  let masked ← (lines input).mapM maskLine
  return dropAddedNewline input (masked.flatMap (· ++ ['\n']))

end PacketDial.Core
