import Mathlib.Data.List.Basic
import Mathlib.Data.List.TakeWhile
import Mathlib.Order.Nat

/-!
# Patterns with repeated classes

A pattern is a row of pieces, each of which takes some characters of one class, such as `\d{8}` or
`[^>]+`. A piece takes as many as it may and gives back until the rest of the pattern matches;
`search` finds the first place where the pattern matches.
-/

namespace PacketDial.Lib

variable {α : Type}

/-- A piece takes at least `least` and at most `most` entries that it accepts. -/
structure Piece (α : Type) where
  accepts : α → Bool
  least : Nat
  most : Option Nat

namespace Piece

/-- Exactly `n` entries of a class. -/
def exactly (n : Nat) (accepts : α → Bool) : Piece α := ⟨accepts, n, some n⟩

/-- One or more entries of a class. -/
def many (accepts : α → Bool) : Piece α := ⟨accepts, 1, none⟩

/-- One given entry. -/
def only [DecidableEq α] (a : α) : Piece α := exactly 1 (· = a)

/-- What a piece may take. -/
structure Fits (p : Piece α) (t : List α) : Prop where
  accepts : ∀ a ∈ t, p.accepts a = true
  least_le : p.least ≤ t.length
  le_most : ∀ n ∈ p.most, t.length ≤ n

/-- The most that a piece can take of a list. -/
def longest (p : Piece α) (s : List α) : Nat :=
  let run := (s.takeWhile p.accepts).length
  p.most.elim run (min run)

/-- The numbers of entries that a piece tries to take, the greatest first. -/
def lengths (p : Piece α) (s : List α) : List Nat :=
  ((List.range (p.longest s + 1)).filter (p.least ≤ ·)).reverse

theorem mem_lengths {p : Piece α} {s : List α} {n : Nat} :
    n ∈ p.lengths s ↔ p.least ≤ n ∧ n ≤ p.longest s := by
  simp only [lengths, List.mem_reverse, List.mem_filter, List.mem_range, decide_eq_true_eq]
  omega

theorem longest_le_run (p : Piece α) (s : List α) :
    p.longest s ≤ (s.takeWhile p.accepts).length := by
  unfold longest
  cases p.most with
  | none => exact Nat.le_refl _
  | some n => exact Nat.min_le_left _ _

/-- A piece takes what fits, all of it in front. -/
theorem fits_iff (p : Piece α) (t rest : List α) :
    p.Fits t ↔ t.length ∈ p.lengths (t ++ rest) := by
  rw [mem_lengths]
  constructor
  · intro h
    refine ⟨h.least_le, ?_⟩
    have hrun : t.length ≤ ((t ++ rest).takeWhile p.accepts).length := by
      rw [List.takeWhile_append_of_pos h.accepts, List.length_append]
      omega
    unfold longest
    cases hmost : p.most with
    | none => exact hrun
    | some n => exact Nat.le_min.mpr ⟨hrun, h.le_most n hmost⟩
  · rintro ⟨hleast, hlongest⟩
    refine ⟨?_, hleast, ?_⟩
    · have hle := hlongest.trans (p.longest_le_run (t ++ rest))
      have hfront : t <+: (t ++ rest).takeWhile p.accepts :=
        List.prefix_of_prefix_length_le (List.prefix_append t rest) (List.takeWhile_prefix _) hle
      intro a ha
      exact List.mem_takeWhile_imp (hfront.mem ha)
    · intro n hn
      refine hlongest.trans ?_
      unfold longest
      rw [hn]
      exact Nat.min_le_right _ _

end Piece

/-- The texts that the pieces take at the front of a list, and what is left of it. -/
def matchAt : List (Piece α) → List α → Option (List (List α) × List α)
  | [], s => some ([], s)
  | p :: ps, s =>
    (p.lengths s).findSome? fun n ↦
      (matchAt ps (s.drop n)).map fun found ↦ (s.take n :: found.1, found.2)

/-- What is in front of the first match, the texts taken, and what is left (`firstMatch`). -/
def search (ps : List (Piece α)) : List α → Option (List α × List (List α) × List α)
  | [] => (matchAt ps []).map fun found ↦ ([], found)
  | a :: s =>
    match matchAt ps (a :: s) with
    | some found => some ([], found)
    | none => (search ps s).map fun found ↦ (a :: found.1, found.2)

/-- A piece takes all it can where the rest of the pattern then matches. -/
theorem matchAt_cons {p : Piece α} {ps : List (Piece α)} {t rest : List α} (hfits : p.Fits t)
    (hlongest : p.longest (t ++ rest) ≤ t.length) {found : List (List α) × List α}
    (hrest : matchAt ps rest = some found) :
    matchAt (p :: ps) (t ++ rest) = some (t :: found.1, found.2) := by
  have hmem := Piece.mem_lengths.mp ((p.fits_iff t rest).mp hfits)
  have heq : p.longest (t ++ rest) = t.length := Nat.le_antisymm hlongest hmem.2
  obtain ⟨tail, hlengths⟩ : ∃ tail, p.lengths (t ++ rest) = t.length :: tail := by
    rw [Piece.lengths, heq, List.range_succ, List.filter_append, List.reverse_append]
    exact ⟨_, by rw [List.filter_cons_of_pos (by simpa using hfits.least_le)]; rfl⟩
  rw [matchAt, hlengths, List.findSome?_cons, List.drop_left, List.take_left, hrest]
  rfl

/-- A piece of a fixed number of entries takes that many. -/
theorem matchAt_exactly {accepts : α → Bool} {ps : List (Piece α)} {t rest : List α}
    (haccepts : ∀ a ∈ t, accepts a = true) {found : List (List α) × List α}
    (hrest : matchAt ps rest = some found) :
    matchAt (Piece.exactly t.length accepts :: ps) (t ++ rest) = some (t :: found.1, found.2) :=
  matchAt_cons ⟨haccepts, Nat.le_refl _, fun _ hn ↦ (Option.some.inj hn).le⟩
    (Nat.min_le_right _ _) hrest

/-- A piece without a bound takes all that is accepted. -/
theorem matchAt_many {accepts : α → Bool} {ps : List (Piece α)} {t rest : List α}
    (hne : t ≠ []) (haccepts : ∀ a ∈ t, accepts a = true)
    (hend : ∀ a ∈ rest.head?, accepts a = false) {found : List (List α) × List α}
    (hrest : matchAt ps rest = some found) :
    matchAt (Piece.many accepts :: ps) (t ++ rest) = some (t :: found.1, found.2) := by
  have hfits : (Piece.many accepts).Fits t :=
    ⟨haccepts, List.length_pos_of_ne_nil hne, fun n hn ↦ by cases hn⟩
  refine matchAt_cons hfits ?_ hrest
  have hstop : rest.takeWhile accepts = [] := by
    cases rest with
    | nil => rfl
    | cons a rest => rw [List.takeWhile_cons_of_neg (by rw [hend a rfl]; decide)]
  have hrun : (t ++ rest).takeWhile accepts = t := by
    rw [List.takeWhile_append_of_pos haccepts, hstop, List.append_nil]
  exact (congrArg List.length hrun).le

/-- A given entry takes itself. -/
theorem matchAt_only [DecidableEq α] {a : α} {ps : List (Piece α)} {rest : List α}
    {found : List (List α) × List α} (hrest : matchAt ps rest = some found) :
    matchAt (Piece.only a :: ps) (a :: rest) = some ([a] :: found.1, found.2) :=
  matchAt_exactly (t := [a]) (by simp) hrest

/-- A given entry takes nothing but itself. -/
theorem matchAt_only_eq_none [DecidableEq α] {a : α} {ps : List (Piece α)} {rest : List α}
    (hrest : matchAt ps rest = none) : matchAt (Piece.only a :: ps) (a :: rest) = none := by
  rw [matchAt, List.findSome?_eq_none_iff]
  intro n hn
  obtain ⟨hleast, hlongest⟩ := Piece.mem_lengths.mp hn
  have hone : n = 1 :=
    Nat.le_antisymm (hlongest.trans (Nat.min_le_right _ _)) hleast
  rw [hone, List.drop_one, List.tail_cons, hrest]
  rfl

/-- A piece that has to take something cannot pass by an entry that it does not accept. -/
theorem matchAt_eq_none {p : Piece α} {a : α} (hleast : 0 < p.least) (ha : p.accepts a = false)
    (ps : List (Piece α)) (s : List α) : matchAt (p :: ps) (a :: s) = none := by
  have hrun : p.longest (a :: s) = 0 := by
    have hle := p.longest_le_run (a :: s)
    rw [List.takeWhile_cons_of_neg (by rw [ha]; decide)] at hle
    exact Nat.le_zero.mp hle
  have hlengths : p.lengths (a :: s) = [] := by
    rw [List.eq_nil_iff_forall_not_mem]
    intro n hn
    have hmem := Piece.mem_lengths.mp hn
    omega
  rw [matchAt, hlengths, List.findSome?_nil]

/-- The text of a group, of some pieces in a row. -/
def group (first count : Nat) (ts : List (List α)) : List α := ((ts.drop first).take count).flatten

/-- A match at the front is the first. -/
theorem search_of_matchAt {ps : List (Piece α)} {s : List α} {found : List (List α) × List α}
    (h : matchAt ps s = some found) : search ps s = some ([], found) := by
  cases s with
  | nil => rw [search, h]; rfl
  | cons a s => rw [search, h]

/-- Where nothing matches at the front, the search goes on. -/
theorem search_cons {ps : List (Piece α)} {a : α} {s : List α} (h : matchAt ps (a :: s) = none) :
    search ps (a :: s) = (search ps s).map fun found ↦ (a :: found.1, found.2) := by
  rw [search, h]

end PacketDial.Lib
