import Mathlib.Logic.Relation

/-!
# Loops

A loop whose body fails, leaves the loop or goes on with another state. If each iteration lowers a
measure there is no infinite run, and a run without failures comes to the exit.
-/

namespace PacketDial.Lib

open Relation

variable {σ ε : Type} {body : σ → Except ε (Option σ)} {s t u : σ}

/-- An iteration of the loop leads from a state to the next. -/
def Iterates (body : σ → Except ε (Option σ)) (s t : σ) : Prop := body s = .ok (some t)

/-- No iteration of the run from a state fails. -/
def Unfailing (body : σ → Except ε (Option σ)) (s : σ) : Prop :=
  ∀ t, ReflTransGen (Iterates body) s t → ∃ next, body t = .ok next

/-- A state has one successor at most. -/
theorem Iterates.unique (ht : Iterates body s t) (hu : Iterates body s u) : t = u := by
  unfold Iterates at ht hu
  rw [ht] at hu
  cases hu
  rfl

/-- The run goes on without failures. -/
theorem Unfailing.next (h : Unfailing body s) (ht : Iterates body s t) : Unfailing body t :=
  fun u hu ↦ h u (.head ht hu)

/-- A loop that lowers a measure has no infinite run. -/
theorem acc_of_measure (μ : σ → Nat) (hμ : ∀ s t, Iterates body s t → μ t < μ s) (s : σ) :
    Acc (fun t u ↦ Iterates body u t) s :=
  Subrelation.accessible (fun h ↦ hμ _ _ h) (InvImage.accessible μ (Nat.lt_wfRel.wf.apply (μ s)))

/-- A run that is finite and does not fail comes to the exit. -/
theorem exists_exit (hacc : Acc (fun t u ↦ Iterates body u t) s) (h : Unfailing body s) :
    ∃ t, ReflTransGen (Iterates body) s t ∧ body t = .ok none := by
  induction hacc with
  | intro s _ ih =>
    obtain ⟨next, hnext⟩ := h s .refl
    cases next with
    | none => exact ⟨s, .refl, hnext⟩
    | some t =>
      obtain ⟨u, hu, hexit⟩ := ih t hnext (h.next hnext)
      exact ⟨u, .head hnext hu, hexit⟩

/-- A run that comes to the exit does not fail. -/
theorem unfailing_of_exit (hrun : ReflTransGen (Iterates body) s t) (hexit : body t = .ok none) :
    Unfailing body s := by
  induction hrun using ReflTransGen.head_induction_on with
  | refl =>
    intro u hu
    rcases hu.cases_head with rfl | ⟨v, hv, -⟩
    · exact ⟨none, hexit⟩
    · rw [Iterates, hexit] at hv
      cases hv
  | head hnext _ ih =>
    intro u hu
    rcases hu.cases_head with rfl | ⟨v, hv, hu⟩
    · exact ⟨_, hnext⟩
    · rw [hv.unique hnext] at hu
      exact ih u hu

end PacketDial.Lib
