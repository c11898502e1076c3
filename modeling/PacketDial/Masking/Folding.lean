import PacketDial.Core.Masking

/-!
# Searching a lowered text

The masking code searches `to_lowercase` of a text for ASCII patterns. A match there is a
match of the text itself in either letter case, except that its byte offset counts the lowered
characters.
-/

namespace PacketDial.Masking

open PacketDial.Core PacketDial.Lib
open String (utf8Len)

/-- The text starts with the pattern, in either letter case. -/
def startsFolded : List Char → List Char → Bool
  | [], _ => true
  | _ :: _, [] => false
  | p :: pat, c :: s => lowerChar c == [p] && startsFolded pat s

/-- The pattern cannot match a part of what a capital dotted I lowers to. -/
def Undotted (pat : List Char) : Prop := '\u0307' ∉ pat ∧ pat.getLast? ≠ some 'i'

instance (pat : List Char) : Decidable (Undotted pat) :=
  inferInstanceAs (Decidable (_ ∧ _))

/-- The lowered code points of a range are valid, and outside ASCII they stay outside, but for
the Kelvin sign. -/
def apart (r : LowerRange) : Bool :=
  (decide (r.target + (r.hi - r.lo) < 0xD800) ||
    decide (0xDFFF < r.target ∧ r.target + (r.hi - r.lo) < 0x110000)) &&
  (decide (r.hi < 0x80) || decide (0x80 ≤ r.target) || decide (r = ⟨0x212A, 0x212A, 1, 0x6B⟩))

theorem lowerRanges_apart : lowerRanges.all apart = true := by decide +kernel

/-- The code point of a character made from a valid one. -/
theorem toNat_ofNat {n : Nat} (h : n.isValidChar) : (Char.ofNat n).toNat = n := by
  unfold Char.ofNat
  rw [dif_pos h]
  rfl

/-- A character lowers to one character, but for the capital dotted I. -/
theorem lowerChar_cases (c : Char) :
    lowerChar c = ['i', '\u0307'] ∨ ∃ x, lowerChar c = [x] := by
  unfold lowerChar
  split
  · exact .inl rfl
  · split
    · exact .inr ⟨_, rfl⟩
    · exact .inr ⟨_, rfl⟩

/-- What lowers to an ASCII character other than `k` is ASCII. -/
theorem ascii_of_lowerChar {c x : Char} (h : lowerChar c = [x]) (hx : x.toNat < 0x80)
    (hk : x ≠ 'k') : c.toNat < 0x80 := by
  unfold lowerChar at h
  split at h
  · cases h
  · split at h
    · next r hr =>
      have hmem : r ∈ lowerRanges := List.mem_of_find?_eq_some hr
      have hcov := List.find?_some hr
      have hap : apart r = true := List.all_eq_true.mp lowerRanges_apart r hmem
      simp only [LowerRange.covers, Bool.and_eq_true, decide_eq_true_eq] at hcov
      simp only [apart, Bool.and_eq_true, Bool.or_eq_true, decide_eq_true_eq] at hap
      obtain ⟨hvalid, hside⟩ := hap
      have hv : (r.target + (c.toNat - r.lo)).isValidChar := by
        unfold Nat.isValidChar
        omega
      have hxe : x.toNat = r.target + (c.toNat - r.lo) := by
        rw [← List.singleton_inj.mp h, toNat_ofNat hv]
      rcases hside with (hside | hside) | hside
      · omega
      · omega
      · subst hside
        have hke : x = Char.ofNat 107 := by
          have h107 : x.toNat = 107 := by
            simp only at hxe hcov
            omega
          rw [← h107, Char.ofNat_toNat]
        exact absurd hke hk
    · have hc : c = x := List.singleton_inj.mp h
      rw [hc]
      exact hx

/-- Behind the first range, which is that of the capital letters, none begins in ASCII. -/
theorem lowerRanges_ascii : lowerRanges.tail.all (0x80 ≤ ·.lo) = true := by decide +kernel

/-- An ASCII character lowers to its small letter. -/
theorem lowerChar_ascii {c : Char} (h : c.toNat < 0x80) : lowerChar c = [c.toLower] := by
  have hdotted : c ≠ '\u0130' := by
    rintro rfl
    exact absurd h (by decide)
  have htail : lowerRanges.tail.find? (·.covers c.toNat) = none := by
    rw [List.find?_eq_none]
    intro r hr hcov
    have hlo := List.all_eq_true.mp lowerRanges_ascii r hr
    simp only [LowerRange.covers, Bool.and_eq_true, decide_eq_true_eq] at hcov hlo
    omega
  have hletter : ∀ n < 0x80, (if (0x41 ≤ n ∧ n ≤ 0x5A) then Char.ofNat (0x61 + (n - 0x41))
      else Char.ofNat n) = (Char.ofNat n).toLower := by decide +kernel
  have hc := hletter c.toNat h
  rw [Char.ofNat_toNat] at hc
  have hranges : lowerRanges = ⟨0x41, 0x5A, 1, 0x61⟩ :: lowerRanges.tail := rfl
  rw [lowerChar, if_neg hdotted, hranges, List.find?_cons, htail, ← hc]
  by_cases hcapital : 0x41 ≤ c.toNat ∧ c.toNat ≤ 0x5A
  · have hcov : LowerRange.covers ⟨0x41, 0x5A, 1, 0x61⟩ c.toNat = true := by
      simpa [LowerRange.covers, Nat.mod_one] using hcapital
    rw [hcov, if_pos hcapital]
  · have hcov : LowerRange.covers ⟨0x41, 0x5A, 1, 0x61⟩ c.toNat = false := by
      simpa [LowerRange.covers, Nat.mod_one] using hcapital
    rw [hcov, if_neg hcapital]

/-- An ASCII character takes one byte. -/
theorem utf8Size_of_ascii {c : Char} (h : c.toNat < 0x80) : c.utf8Size = 1 := by
  apply Char.utf8Size_eq_one_iff.mpr
  apply UInt32.le_iff_toNat_le.mpr
  exact Nat.le_of_lt_succ h

/-- Lowering goes character by character. -/
theorem toLowercase_cons (c : Char) (s : List Char) :
    toLowercase (c :: s) = lowerChar c ++ toLowercase s := List.flatMap_cons

/-- A lowered text starts with a pattern when the text does, in either letter case. -/
theorem isPrefixOf_toLowercase {pat : List Char} (hpat : Undotted pat) (s : List Char) :
    pat.isPrefixOf (toLowercase s) = startsFolded pat s := by
  induction pat generalizing s with
  | nil => rfl
  | cons p pat ih =>
    have htail : Undotted pat := by
      refine ⟨fun h ↦ hpat.1 (List.mem_cons_of_mem p h), fun h ↦ hpat.2 ?_⟩
      rw [List.getLast?_cons, h]
      rfl
    cases s with
    | nil => rfl
    | cons c s =>
      rw [toLowercase_cons]
      rcases lowerChar_cases c with hc | ⟨x, hc⟩
      · have hlast : pat = [] → p ≠ 'i' := by
          rintro rfl rfl
          exact hpat.2 rfl
        have hdot : ∀ q t, pat = q :: t → q ≠ '\u0307' := by
          rintro q t rfl rfl
          exact hpat.1 (by simp)
        have hfold : startsFolded (p :: pat) (c :: s) = false := by
          have hne : (lowerChar c == [p]) = false := by
            rw [hc]
            exact Bool.and_false _
          simp only [startsFolded, hne, Bool.false_and]
        rw [hfold, hc]
        cases pat with
        | nil =>
          have hp : (p == 'i') = false := beq_eq_false_iff_ne.mpr (hlast rfl)
          simp only [List.cons_append, List.isPrefixOf, hp, Bool.false_and]
        | cons q t =>
          have hq : (q == '\u0307') = false := beq_eq_false_iff_ne.mpr (hdot q t rfl)
          simp only [List.cons_append, List.isPrefixOf, hq, Bool.false_and, Bool.and_false]
      · have hx : ([x] == [p]) = (p == x) := by
          apply Bool.eq_iff_iff.mpr
          rw [beq_iff_eq, beq_iff_eq, List.singleton_inj]
          exact eq_comm
        simp only [hc, startsFolded, List.singleton_append, List.isPrefixOf, ih htail s, hx]

/-- A pattern at the front is found at offset zero. -/
theorem findStr_of_isPrefixOf {pat s : List Char} (h : pat.isPrefixOf s = true) :
    findStr pat s = some 0 := by
  cases s with
  | nil =>
    have hp : pat = [] := by simpa using h
    simp [findStr, hp]
  | cons c s => simp [findStr, h]

/-- Searching on after a character that starts no match. -/
theorem findStr_cons {pat : List Char} {c : Char} {s : List Char}
    (h : pat.isPrefixOf (c :: s) = false) :
    findStr pat (c :: s) = (findStr pat s).map (· + c.utf8Size) := by
  simp [findStr, h]

/-- The offset found in a lowered text is the length of the lowered text in front of the
first match. -/
theorem findStr_toLowercase {pat : List Char} (hpat : Undotted pat) (hne : pat ≠ [])
    (s : List Char) :
    findStr pat (toLowercase s) =
      (beforeFirst (startsFolded pat) s).map fun pre ↦ utf8Len (toLowercase pre) := by
  induction s with
  | nil =>
    cases pat with
    | nil => exact absurd rfl hne
    | cons p pat => rfl
  | cons c s ih =>
    have hpre := isPrefixOf_toLowercase hpat (c :: s)
    by_cases hs : startsFolded pat (c :: s) = true
    · rw [findStr_of_isPrefixOf (by rw [hpre, hs])]
      simp [beforeFirst, hs, toLowercase]
    · have hf : startsFolded pat (c :: s) = false := by simpa using hs
      have hmap : ∀ n, n = utf8Len (lowerChar c) →
          (findStr pat (toLowercase s)).map (· + n) =
            (beforeFirst (startsFolded pat) (c :: s)).map fun pre ↦ utf8Len (toLowercase pre) := by
        rintro n rfl
        simp only [ih, beforeFirst, hf, Bool.false_eq_true, if_false, Option.map_map]
        congr 1
        funext pre
        simp only [Function.comp_apply, toLowercase_cons, String.utf8Len_append]
        omega
      rw [hf] at hpre
      rw [toLowercase_cons] at hpre ⊢
      rcases lowerChar_cases c with hc | ⟨x, hc⟩
      · rw [hc] at hpre ⊢
        have hd : pat.isPrefixOf ('\u0307' :: toLowercase s) = false := by
          cases pat with
          | nil => exact absurd rfl hne
          | cons p pat =>
            have hp : p ≠ '\u0307' := by
              rintro rfl
              exact hpat.1 List.mem_cons_self
            simp [List.isPrefixOf, hp]
        rw [← hmap _ rfl, hc]
        simp only [List.cons_append, List.nil_append] at hpre ⊢
        rw [findStr_cons hpre, findStr_cons hd, Option.map_map]
        congr 1
      · rw [← hmap _ rfl, hc]
        rw [hc] at hpre
        have hlen : utf8Len [x] = x.utf8Size := by simp
        rw [hlen]
        exact findStr_cons hpre

/-! ### Matches in a longer text -/

/-- A match needs as many characters as the pattern has. -/
theorem length_of_startsFolded {pat s : List Char} (h : startsFolded pat s = true) :
    pat.length ≤ s.length := by
  induction pat generalizing s with
  | nil => exact Nat.zero_le _
  | cons p pat ih =>
    cases s with
    | nil => cases h
    | cons c s => exact Nat.succ_le_succ (ih (Bool.and_eq_true_iff.mp h).2)

/-- What follows a text that is long enough does not matter to a match in front. -/
theorem startsFolded_append {pat s : List Char} (x : List Char) (h : pat.length ≤ s.length) :
    startsFolded pat (s ++ x) = startsFolded pat s := by
  induction pat generalizing s with
  | nil => rfl
  | cons p pat ih =>
    cases s with
    | nil => exact absurd h (Nat.not_succ_le_zero _)
    | cons c s =>
      simp only [List.cons_append, startsFolded, ih (Nat.le_of_succ_le_succ h)]

/-- A character that no character of the pattern folds to ends every match. -/
theorem startsFolded_barrier {pat : List Char} {c : Char} (s z : List Char)
    (hc : ∀ p ∈ pat, (lowerChar c == [p]) = false) :
    startsFolded pat (s ++ c :: z) = startsFolded pat s := by
  induction pat generalizing s with
  | nil => rfl
  | cons p pat ih =>
    cases s with
    | nil => simp only [List.nil_append, startsFolded, hc p List.mem_cons_self, Bool.false_and]
    | cons d s =>
      simp only [List.cons_append, startsFolded, ih s fun q hq ↦ hc q (List.mem_cons_of_mem p hq)]

/-- A first match stays the first one in a longer text. -/
theorem beforeFirst_append {pat s pre : List Char} (x : List Char)
    (h : beforeFirst (startsFolded pat) s = some pre) :
    beforeFirst (startsFolded pat) (s ++ x) = some pre := by
  induction s generalizing pre with
  | nil =>
    simp only [beforeFirst] at h
    split at h
    · next hp =>
      have hpat : pat = [] :=
        List.length_eq_zero_iff.mp (Nat.le_zero.mp (length_of_startsFolded hp))
      cases h
      subst hpat
      cases x <;> rfl
    · cases h
  | cons c s ih =>
    simp only [beforeFirst] at h
    split at h
    · next hp =>
      have hlong : startsFolded pat (c :: (s ++ x)) = true := by
        rw [← hp]
        exact startsFolded_append x (length_of_startsFolded hp)
      simp only [List.cons_append, beforeFirst, hlong, if_true]
      exact h
    · next hp =>
      obtain ⟨pre', hpre, rfl⟩ := Option.map_eq_some_iff.mp h
      obtain ⟨post, rfl, hpost⟩ := beforeFirst_eq_some hpre
      have hlen : pat.length ≤ (c :: (pre' ++ post)).length := by
        have hle := length_of_startsFolded hpost
        simp only [List.length_cons, List.length_append]
        omega
      have hshort : startsFolded pat (c :: (pre' ++ post ++ x)) = false := by
        have heq := startsFolded_append x hlen
        rw [List.cons_append] at heq
        rw [heq]
        simpa using hp
      simp only [List.cons_append, beforeFirst, hshort, Bool.false_eq_true, if_false]
      rw [ih hpre]
      rfl

/-- Past a text without a match and a character that ends every match, the search starts
again. -/
theorem beforeFirst_barrier {pat : List Char} {c : Char} {s : List Char} (z : List Char)
    (hne : pat ≠ []) (hc : ∀ p ∈ pat, (lowerChar c == [p]) = false)
    (h : beforeFirst (startsFolded pat) s = none) :
    beforeFirst (startsFolded pat) (s ++ c :: z) =
      (beforeFirst (startsFolded pat) z).map fun pre ↦ s ++ c :: pre := by
  induction s with
  | nil =>
    have hnil : startsFolded pat [] = false := by
      cases pat with
      | nil => exact absurd rfl hne
      | cons p pat => rfl
    have hs : startsFolded pat (c :: z) = false := by
      rw [← hnil]
      exact startsFolded_barrier [] z hc
    simp only [List.nil_append, beforeFirst, hs, Bool.false_eq_true, if_false]
  | cons d s ih =>
    simp only [beforeFirst] at h
    split at h
    · cases h
    · next hp =>
      have hs : startsFolded pat (d :: (s ++ c :: z)) = false := by
        have heq := startsFolded_barrier (d :: s) z hc
        rw [List.cons_append] at heq
        rw [heq]
        simpa using hp
      simp only [List.cons_append, beforeFirst, hs, Bool.false_eq_true, if_false]
      rw [ih (Option.map_eq_none_iff.mp h), Option.map_map]
      rfl

end PacketDial.Masking
