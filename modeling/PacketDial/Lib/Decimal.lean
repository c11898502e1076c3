import Mathlib.Algebra.Group.Int.Defs

/-!
# Numbers in base ten

How an integer is written, alone and padded with zeros to a width, and what its digits are worth.
-/

namespace PacketDial.Lib

/-- How an integer is written. -/
theorem toList_toString (n : Int) : (toString n).toList =
    if 0 ≤ n then Nat.toDigits 10 n.toNat else '-' :: Nat.toDigits 10 (-n).toNat := by
  rw [Int.toString_eq_repr, Int.repr_eq_if]
  split
  · exact Nat.toList_repr
  · simp

theorem isDigit_of_mem_toDigits {n : Nat} {c : Char} (h : c ∈ Nat.toDigits 10 n) :
    c.isDigit = true :=
  Nat.isDigit_of_mem_toDigits (by decide) (by decide) h

/-- An integer with zeros in front, up to a width (`padLeft`). -/
def padded (width : Nat) (n : Int) : List Char := (toString n).toList.leftpad width '0'

section Padded

variable {width : Nat} {n : Int}

theorem padded_eq (width : Nat) (hn : 0 ≤ n) :
    padded width n = List.replicate (width - (Nat.toDigits 10 n.toNat).length) '0' ++
      Nat.toDigits 10 n.toNat := by
  rw [padded, toList_toString, if_pos hn, List.leftpad]

theorem isDigit_of_mem_padded (hn : 0 ≤ n) {c : Char} (h : c ∈ padded width n) :
    c.isDigit = true := by
  rw [padded_eq width hn, List.mem_append] at h
  cases h with
  | inl hzero =>
    rw [List.eq_of_mem_replicate hzero]
    decide
  | inr hdigit => exact isDigit_of_mem_toDigits hdigit

/-- Zeros in front are worth nothing. -/
theorem ofDigitChars_padded (width : Nat) (hn : 0 ≤ n) :
    Nat.ofDigitChars 10 (padded width n) 0 = n.toNat := by
  rw [padded_eq width hn, Nat.ofDigitChars_append, Nat.ofDigitChars_replicate_zero, Nat.mul_zero,
    Nat.ofDigitChars_ten_toDigits]

/-- A number below a power of ten has the width padded to. -/
theorem length_padded (hwidth : 0 < width) (hn : 0 ≤ n) (hlt : n < 10 ^ width) :
    (padded width n).length = width := by
  have hpow : n.toNat < 10 ^ width := by
    rw [Int.toNat_lt hn]
    push_cast
    exact hlt
  have hle := (Nat.length_toDigits_le_iff (b := 10) (by decide) hwidth).mpr hpow
  rw [padded_eq width hn, List.length_append, List.length_replicate]
  omega

end Padded

end PacketDial.Lib
