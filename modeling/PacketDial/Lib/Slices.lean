import Mathlib.Data.String.Basic

/-!
# Byte offsets into UTF-8 text

Texts are lists of characters and offsets count the bytes of their UTF-8 encodings, as
`&str` slicing does. `splitAtByte` cuts at an offset and fails inside a character or past the
end; `findStr` and `findChar` return the offset of a first match.
-/

namespace PacketDial.Lib

open String (utf8Len)

/-- Cut a text at a byte offset; `none` inside a character or past the end. -/
def splitAtByte : List Char → Nat → Option (List Char × List Char)
  | s, 0 => some ([], s)
  | [], _ + 1 => none
  | c :: rest, n + 1 =>
    if c.utf8Size ≤ n + 1 then
      (splitAtByte rest (n + 1 - c.utf8Size)).map fun p ↦ (c :: p.1, p.2)
    else none

/-- Byte offset of the first occurrence of a pattern. -/
def findStr (pat : List Char) : List Char → Option Nat
  | [] => if pat = [] then some 0 else none
  | c :: rest =>
    if pat.isPrefixOf (c :: rest) then some 0 else (findStr pat rest).map (· + c.utf8Size)

/-- Byte offset of the first character that satisfies a predicate. -/
def findChar (p : Char → Bool) : List Char → Option Nat
  | [] => none
  | c :: rest => if p c then some 0 else (findChar p rest).map (· + c.utf8Size)

/-- Cutting at offset zero cuts in front. -/
theorem splitAtByte_zero (s : List Char) : splitAtByte s 0 = some ([], s) := by
  cases s <;> rfl

/-- Cutting between two texts gives them back. -/
theorem splitAtByte_append (a b : List Char) :
    splitAtByte (a ++ b) (utf8Len a) = some (a, b) := by
  induction a with
  | nil => exact splitAtByte_zero b
  | cons c a ih =>
    have hc := c.utf8Size_pos
    obtain ⟨n, hn⟩ : ∃ n, utf8Len a + c.utf8Size = n + 1 :=
      ⟨utf8Len a + c.utf8Size - 1, by omega⟩
    have hs : n + 1 - c.utf8Size = utf8Len a := by omega
    simp only [List.cons_append, String.utf8Len_cons, hn, splitAtByte]
    rw [if_pos (by omega), hs, ih]
    rfl

/-- A successful cut lies between two characters at the offset asked for. -/
theorem splitAtByte_eq_some_iff {s a b : List Char} {n : Nat} :
    splitAtByte s n = some (a, b) ↔ s = a ++ b ∧ utf8Len a = n := by
  constructor
  · intro h
    induction s generalizing n a with
    | nil =>
      cases n with
      | zero =>
        cases h
        exact ⟨rfl, rfl⟩
      | succ n => cases h
    | cons c s ih =>
      cases n with
      | zero =>
        cases h
        exact ⟨rfl, rfl⟩
      | succ n =>
        simp only [splitAtByte] at h
        split at h
        · next hc =>
          obtain ⟨⟨x, y⟩, hxy, he⟩ := Option.map_eq_some_iff.mp h
          obtain ⟨rfl, rfl⟩ := Prod.mk.inj he
          obtain ⟨hs, hn⟩ := ih hxy
          exact ⟨by rw [hs]; rfl, by rw [String.utf8Len_cons, hn]; omega⟩
        · cases h
  · rintro ⟨rfl, rfl⟩
    exact splitAtByte_append a b

/-- A first match of a character splits the text where the predicate stops failing. -/
theorem findChar_eq (p : Char → Bool) (s : List Char) :
    findChar p s =
      if s.any p then some (utf8Len (s.takeWhile fun c ↦ !p c)) else none := by
  induction s with
  | nil => rfl
  | cons c s ih =>
    by_cases hc : p c
    · simp [findChar, hc]
    · simp only [findChar, hc, ih, List.any_cons]
      by_cases hs : s.any p
      · simp [hs, hc]
      · simp [hs]

/-- Without a match there is nothing to find. -/
theorem findChar_eq_none_iff {p : Char → Bool} {s : List Char} :
    findChar p s = none ↔ ∀ c ∈ s, p c = false := by
  rw [findChar_eq]
  by_cases hs : s.any p
  · simp only [hs, if_true, reduceCtorEq, false_iff]
    intro h
    obtain ⟨c, hc, hp⟩ := List.any_eq_true.mp hs
    simp [h c hc] at hp
  · simp only [hs, Bool.false_eq_true, if_false, true_iff]
    simpa using hs

/-- The offset of a first character, when the text in front of it does not match. -/
theorem findChar_append {p : Char → Bool} {a : List Char} {c : Char} (b : List Char)
    (ha : ∀ x ∈ a, p x = false) (hc : p c = true) :
    findChar p (a ++ c :: b) = some (utf8Len a) := by
  induction a with
  | nil => simp [findChar, hc]
  | cons x a ih =>
    have hx : p x = false := ha x List.mem_cons_self
    simp only [List.cons_append, findChar, hx, Bool.false_eq_true, if_false,
      ih fun y hy ↦ ha y (List.mem_cons_of_mem _ hy), Option.map_some, String.utf8Len_cons]

/-- The text in front of the first position whose remaining text satisfies a predicate. -/
def beforeFirst (p : List Char → Bool) : List Char → Option (List Char)
  | [] => if p [] then some [] else none
  | c :: rest => if p (c :: rest) then some [] else (beforeFirst p rest).map (c :: ·)

/-- The text found is in front of a match. -/
theorem beforeFirst_eq_some {p : List Char → Bool} {s pre : List Char}
    (h : beforeFirst p s = some pre) : ∃ post, s = pre ++ post ∧ p post = true := by
  induction s generalizing pre with
  | nil =>
    simp only [beforeFirst] at h
    split at h
    · next hp =>
      cases h
      exact ⟨[], rfl, hp⟩
    · cases h
  | cons c s ih =>
    simp only [beforeFirst] at h
    split at h
    · next hp =>
      cases h
      exact ⟨c :: s, rfl, hp⟩
    · obtain ⟨pre', hpre, rfl⟩ := Option.map_eq_some_iff.mp h
      obtain ⟨post, hs, hp⟩ := ih hpre
      exact ⟨post, by rw [hs]; rfl, hp⟩

end PacketDial.Lib
