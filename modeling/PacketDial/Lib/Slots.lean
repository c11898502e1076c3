import Mathlib.Data.List.Basic
import Mathlib.Data.List.Perm.Basic

/-!
# Arrays of slots

An array whose entries are free or hold a value. A value is added in the first free slot, the
slots in use are enumerated from the front into an array of some capacity, and a slot is freed by
its index. Freeing what was enumerated leaves the values beyond the capacity.
-/

namespace PacketDial.Lib.Slots

variable {α : Type}

/-- The values in the slots, from the front. -/
def values (slots : List (Option α)) : List α := slots.filterMap id

/-- A value is added in the first free slot. -/
def add (a : α) : List (Option α) → List (Option α)
  | [] => [some a]
  | none :: slots => some a :: slots
  | some b :: slots => some b :: add a slots

/-- A slot is freed. -/
def del (slots : List (Option α)) (i : Nat) : List (Option α) := slots.set i none

/-- The indices of the first `capacity` slots in use, where the first slot has the index `i`. -/
def enumerate (i : Nat) : Nat → List (Option α) → List Nat
  | _, [] => []
  | capacity, none :: slots => enumerate (i + 1) capacity slots
  | 0, some _ :: _ => []
  | capacity + 1, some _ :: slots => i :: enumerate (i + 1) capacity slots

/-- The first `capacity` slots in use are freed. -/
def free : Nat → List (Option α) → List (Option α)
  | _, [] => []
  | capacity, none :: slots => none :: free capacity slots
  | 0, some a :: slots => some a :: slots
  | capacity + 1, some _ :: slots => none :: free capacity slots

/-- A value that is added is there once more. -/
theorem values_add (a : α) (slots : List (Option α)) :
    (values (add a slots)).Perm (a :: values slots) := by
  induction slots with
  | nil => exact .refl _
  | cons slot slots ih =>
    cases slot with
    | none => exact .refl _
    | some b =>
      have hswap : (b :: a :: values slots).Perm (a :: b :: values slots) := .swap a b _
      exact (ih.cons b).trans hswap

/-- Values that are added one after another. -/
theorem values_foldl_add (as : List α) (slots : List (Option α)) :
    (values (as.foldl (fun slots a ↦ add a slots) slots)).Perm (as ++ values slots) := by
  induction as generalizing slots with
  | nil => exact .refl _
  | cons a as ih =>
    have hrest : (as ++ values (add a slots)).Perm (as ++ a :: values slots) :=
      (values_add a slots).append_left as
    exact (ih (add a slots)).trans (hrest.trans List.perm_middle)

/-- Freeing the indices that were enumerated, behind other slots. -/
theorem foldl_del_append (capacity : Nat) (before slots : List (Option α)) :
    (enumerate before.length capacity slots).foldl del (before ++ slots) =
      before ++ free capacity slots := by
  induction capacity, slots using free.induct generalizing before with
  | case1 capacity => rfl
  | case2 capacity slots ih =>
    have h := ih (before ++ [none])
    rw [List.length_append, List.length_singleton, List.append_assoc, List.append_assoc] at h
    exact h
  | case3 a slots => rfl
  | case4 capacity a slots ih =>
    have h := ih (before ++ [none])
    rw [List.length_append, List.length_singleton, List.append_assoc, List.append_assoc] at h
    have hset : del (before ++ some a :: slots) before.length = before ++ none :: slots := by
      simp [del]
    rw [enumerate, List.foldl_cons, hset]
    exact h

/-- Freeing what was enumerated frees the first slots in use. -/
theorem foldl_del_enumerate (capacity : Nat) (slots : List (Option α)) :
    (enumerate 0 capacity slots).foldl del slots = free capacity slots :=
  foldl_del_append capacity [] slots

/-- The values beyond the capacity stay. -/
theorem values_free (capacity : Nat) (slots : List (Option α)) :
    values (free capacity slots) = (values slots).drop capacity := by
  induction capacity, slots using free.induct with
  | case1 capacity => exact List.drop_nil.symm
  | case2 capacity slots ih => exact ih
  | case3 a slots => rfl
  | case4 capacity a slots ih => exact ih

end PacketDial.Lib.Slots
