import Mathlib.Data.List.DropRight
import Mathlib.Data.List.Nodup

/-!
# Rolling windows

The last `n` entries of a growing list, as a buffer that drops its oldest entries keeps them. A
reader that takes the entries in order finds one in the window just if it is not further behind
than the window is long.
-/

namespace PacketDial.Lib

variable {α : Type} {n : Nat} {a : α} {l s : List α}

/-- Drop entries at the front while there are more than `n`. -/
def trimFront (n : Nat) : List α → List α
  | [] => []
  | a :: l => if n < (a :: l).length then trimFront n l else a :: l

/-- What is left are the last `n` entries. -/
theorem trimFront_eq_rtake (n : Nat) (l : List α) : trimFront n l = l.rtake n := by
  induction l with
  | nil => rw [trimFront, List.rtake_nil]
  | cons a l ih =>
    rw [trimFront, List.rtake]
    by_cases h : n < (a :: l).length
    · rw [if_pos h, ih, List.rtake]
      have hsub : (a :: l).length - n = (l.length - n) + 1 := by
        rw [List.length_cons] at h ⊢
        omega
      rw [hsub, List.drop_succ_cons]
    · rw [if_neg h, Nat.sub_eq_zero_of_le (Nat.le_of_not_lt h), List.drop_zero]

/-- The last entries are a suffix. -/
theorem rtake_suffix (n : Nat) (l : List α) : l.rtake n <:+ l := List.drop_suffix _ _

/-- How many there are. -/
theorem length_rtake (n : Nat) (l : List α) : (l.rtake n).length = min n l.length := by
  rw [List.rtake, List.length_drop]
  omega

/-- A trimmed list is a suffix. -/
theorem trimFront_suffix (n : Nat) (l : List α) : trimFront n l <:+ l := by
  rw [trimFront_eq_rtake]
  exact rtake_suffix n l

/-- The window moves on with a new entry. -/
theorem rtake_concat (n : Nat) (l : List α) (a : α) :
    (l.rtake n ++ [a]).rtake n = (l ++ [a]).rtake n := by
  have hleft : (l.rtake n ++ [a]).rtake n <:+ l ++ [a] := by
    refine (rtake_suffix n _).trans ?_
    obtain ⟨p, hp⟩ := rtake_suffix n l
    exact ⟨p, by rw [← List.append_assoc, hp]⟩
  refine (List.suffix_of_suffix_length_le hleft (rtake_suffix n _) ?_).eq_of_length ?_
  · simp only [length_rtake, List.length_append, List.length_singleton]
    omega
  · simp only [length_rtake, List.length_append, List.length_singleton]
    omega

/-- The first unread entry is in the window just if no more than `n` are unread. -/
theorem mem_rtake_iff (hs : a :: s <:+ l) (hl : l.Nodup) :
    a ∈ l.rtake n ↔ (a :: s).length ≤ n := by
  have hlength := hs.length_le
  constructor
  · intro ha
    by_contra hlong
    have hlt : (l.rtake n).length ≤ s.length := by
      rw [length_rtake]
      rw [List.length_cons] at hlong
      omega
    have hrtake : l.rtake n <:+ s :=
      List.suffix_of_suffix_length_le (rtake_suffix n l) ((List.suffix_cons a s).trans hs) hlt
    have hnodup : (a :: s).Nodup := hl.sublist hs.sublist
    exact (List.nodup_cons.mp hnodup).1 (hrtake.subset ha)
  · intro hshort
    have hsub : a :: s <:+ l.rtake n := by
      refine List.suffix_of_suffix_length_le hs (rtake_suffix n l) ?_
      rw [length_rtake]
      omega
    exact hsub.subset List.mem_cons_self

end PacketDial.Lib
