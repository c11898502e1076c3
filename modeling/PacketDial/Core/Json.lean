import Mathlib.Algebra.Group.Nat.Defs

/-!
# JSON values and C strings at the engine boundary

The values that `serde_json` hands to `core_rust/src/lib.rs`, with the accessors the command
handlers use, and the `CString`/`CStr` conversions at the shim boundary. The text parser
itself is a third-party crate and enters the model as a function.
-/

namespace PacketDial.Core

/-- `serde_json::Number`: an unsigned, a negative or a floating-point literal. Counts and
timestamps are natural numbers here; `asU64` checks the 64-bit range. -/
inductive JsonNumber where
  | posInt (n : Nat)
  | negInt (n : Int)
  | float (x : Float)

/-- `serde_json::Value`. Objects are association lists; the handlers only look keys up. -/
inductive Json where
  | null
  | bool (b : Bool)
  | num (n : JsonNumber)
  | str (s : String)
  | arr (items : List Json)
  | obj (fields : List (String × Json))

namespace Json

/-- `p["key"]`: indexing with a missing key, or into a non-object, gives `Null`. -/
def get (p : Json) (key : String) : Json :=
  match p with
  | .obj fields => ((fields.find? fun f ↦ f.1 == key).map Prod.snd).getD .null
  | _ => .null

/-- `Value::as_str`. -/
def asStr : Json → Option String
  | .str s => some s
  | _ => none

/-- `Value::as_bool`. -/
def asBool : Json → Option Bool
  | .bool b => some b
  | _ => none

/-- `Value::as_u64`: non-negative integer literals only. -/
def asU64 : Json → Option UInt64
  | .num (.posInt n) => if n < 2 ^ 64 then some (UInt64.ofNat n) else none
  | _ => none

/-- `Value::as_i64`: integer literals that fit a signed 64-bit integer. -/
def asI64 : Json → Option Int
  | .num (.posInt n) => if n < 2 ^ 63 then some n else none
  | .num (.negInt n) => some n
  | _ => none

/-- `Value::as_f64`: every number literal. -/
def asF64 : Json → Option Float
  | .num (.posInt n) => some (Float.ofNat n)
  | .num (.negInt n) => some (Float.ofInt n)
  | .num (.float x) => some x
  | _ => none

/-- `Value::as_array`. -/
def asArray : Json → Option (List Json)
  | .arr items => some items
  | _ => none

/-- `json!` of a `u32`. -/
def ofU32 (n : UInt32) : Json := .num (.posInt n.toNat)

/-- `json!` of a non-negative count or timestamp. -/
def ofNat (n : Nat) : Json := .num (.posInt n)

/-- `json!` of an `i32`. -/
def ofI32 (n : Int) : Json :=
  if 0 ≤ n then .num (.posInt n.toNat) else .num (.negInt n)

/-- `json!` of an `f32`; a value that is not finite becomes `Null`. -/
def ofF32 (x : Float32) : Json :=
  if x.isFinite then .num (.float x.toFloat) else .null

/-- Reading back the `u32` that `json!` wrote. -/
theorem asU64_ofU32 (n : UInt32) : (ofU32 n).asU64 = some n.toUInt64 := by
  have h : n.toNat < 2 ^ 64 := Nat.lt_trans n.toNat_lt (by decide)
  have he : UInt64.ofNat n.toNat = n.toUInt64 := by simp [UInt64.ofNat_uInt32ToNat]
  simp only [ofU32, asU64, if_pos h, he]

end Json

/-- A Rust `as u32` of a `u64`. -/
def truncU32 (n : UInt64) : UInt32 := n.toUInt32

/-- Widening and truncating again loses nothing. -/
theorem truncU32_toUInt64 (n : UInt32) : truncU32 n.toUInt64 = n := by
  simp [truncU32]

/-- A Rust `as u32` of an `i32`. -/
def i32AsU32 (n : Int) : UInt32 := UInt32.ofBitVec (BitVec.ofInt 32 n)

/-- A Rust `as i32` of an `i64` or `u32`. -/
def asI32 (n : Int) : Int := (BitVec.ofInt 32 n).toInt

/-- `CString::new`: fails on an interior NUL. -/
def cString (s : String) : Option String :=
  if '\x00' ∈ s.toList then none else some s

/-- A `*const c_char` argument: null, bytes that are not UTF-8, or text. -/
inductive CPtr where
  | null
  | invalidUtf8
  | text (s : String)
  deriving DecidableEq, Repr

/-- `CStr::from_ptr(..).to_str()` with the null check that precedes it. -/
def CPtr.toStr : CPtr → Option String
  | .text s => some s
  | _ => none

/-- `char::is_whitespace`: the Unicode `White_Space` property. -/
def isWhitespace (c : Char) : Bool :=
  let n := c.toNat
  (9 ≤ n && n ≤ 13) || n == 0x20 || n == 0x85 || n == 0xA0 || n == 0x1680 ||
    (0x2000 ≤ n && n ≤ 0x200A) || n == 0x2028 || n == 0x2029 || n == 0x202F || n == 0x205F ||
    n == 0x3000

/-- `str::trim`. -/
def trim (s : String) : String :=
  String.ofList ((s.toList.dropWhile isWhitespace).reverse.dropWhile isWhitespace).reverse

/-- `char::to_ascii_lowercase`. -/
def asciiLower (c : Char) : Char :=
  if 'A' ≤ c ∧ c ≤ 'Z' then Char.ofNat (c.toNat + 32) else c

/-- `str::eq_ignore_ascii_case`. -/
def eqIgnoreAsciiCase (s t : String) : Bool :=
  s.toList.map asciiLower == t.toList.map asciiLower

end PacketDial.Core
