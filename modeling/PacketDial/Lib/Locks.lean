import Mathlib.Data.List.Basic

/-!
# Lock traces

A thread's acquisitions and releases of locks, as a list. `replay` goes through such a list from
the locks already held and stops with `none` at the first acquisition that a policy refuses.
Traces that `GivesBack` never stop there and release what they took; they are `Disciplined` when no
lock is acquired that is held.
-/

namespace PacketDial.Lib

/-- One acquisition or release of a lock. -/
inductive LockAct (μ : Type) where
  | acquire (m : μ)
  | release (m : μ)
  deriving DecidableEq, Repr

variable {μ : Type} [DecidableEq μ]

section Replay

variable (ok : List μ → μ → Prop) [∀ held m, Decidable (ok held m)]

/-- The locks held after a trace, or `none` when it acquires a lock that `ok` refuses. -/
def replay : List μ → List (LockAct μ) → Option (List μ)
  | held, [] => some held
  | held, .acquire m :: rest => if ok held m then replay (m :: held) rest else none
  | held, .release m :: rest => replay (held.erase m) rest

/-- Replaying a concatenation replays its parts in turn. -/
theorem replay_append (held : List μ) (t u : List (LockAct μ)) :
    replay ok held (t ++ u) = (replay ok held t).bind (replay ok · u) := by
  induction t generalizing held with
  | nil => rfl
  | cons a t ih =>
    cases a with
    | acquire m =>
      simp only [List.cons_append, replay]
      split
      · exact ih _
      · rfl
    | release m => exact ih _

/-- A trace that the policy admits and that gives back every lock it took. -/
def GivesBack (held : List μ) (t : List (LockAct μ)) : Prop := replay ok held t = some held

variable {ok}

/-- Taking no lock gives back all. -/
theorem givesBack_nil (held : List μ) : GivesBack ok held [] := rfl

/-- Traces that give back what they took concatenate. -/
theorem GivesBack.append {held : List μ} {t u : List (LockAct μ)} (ht : GivesBack ok held t)
    (hu : GivesBack ok held u) : GivesBack ok held (t ++ u) := by
  rw [GivesBack, replay_append, ht]
  exact hu

/-- A critical section of a lock that the policy admits, around a balanced body. -/
theorem GivesBack.guarded {held : List μ} {m : μ} {t : List (LockAct μ)} (hm : ok held m)
    (ht : GivesBack ok (m :: held) t) : GivesBack ok held (.acquire m :: (t ++ [.release m])) := by
  simp only [GivesBack, replay, hm, if_true, replay_append]
  rw [show replay ok (m :: held) t = some (m :: held) from ht]
  simp

/-- After a balanced prefix the rest of a trace starts from the same locks. -/
theorem GivesBack.replay_append {held : List μ} {t : List (LockAct μ)} (ht : GivesBack ok held t)
    (u : List (LockAct μ)) : replay ok held (t ++ u) = replay ok held u := by
  rw [Lib.replay_append, ht]
  rfl

/-- A policy that admits more admits what a stricter one does. -/
theorem replay_mono {ok' : List μ → μ → Prop} [∀ held m, Decidable (ok' held m)]
    (hok : ∀ held m, ok held m → ok' held m) {held held' : List μ} {t : List (LockAct μ)}
    (h : replay ok held t = some held') : replay ok' held t = some held' := by
  induction t generalizing held with
  | nil => exact h
  | cons a t ih =>
    cases a with
    | acquire m =>
      rw [replay] at h ⊢
      split_ifs at h with hm
      rw [if_pos (hok held m hm)]
      exact ih h
    | release m => exact ih h

end Replay

/-- The locks held after a trace, or `none` when it acquires a lock that is held. -/
abbrev heldAfter : List μ → List (LockAct μ) → Option (List μ) := replay fun held m ↦ m ∉ held

/-- A trace that never acquires a held lock and gives back every lock it took. -/
abbrev Disciplined (held : List μ) (t : List (LockAct μ)) : Prop :=
  GivesBack (fun held m ↦ m ∉ held) held t

end PacketDial.Lib
