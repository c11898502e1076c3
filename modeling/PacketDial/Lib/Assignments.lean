import Mathlib.Data.List.Basic
import Mathlib.Data.List.Forall2
import Mathlib.Data.List.Pairwise
import Mathlib.Data.List.ReduceOption

/-!
# Assignments that can fail

A sequence of assignments to a state, each of which may fail before it changes anything. The first
that fails ends the sequence, and what was assigned before it stays.
-/

namespace PacketDial.Lib

universe u

variable {σ : Type u}

/-- Carry assignments out in order, up to the first that fails; tell whether none did. -/
def assignAll : List (Option (σ → σ)) → σ → Bool × σ
  | [], s => (true, s)
  | none :: _, s => (false, s)
  | some f :: steps, s => assignAll steps (f s)

/-- The state after assignments that do not fail. -/
def assigned (fs : List (σ → σ)) (s : σ) : σ := fs.foldl (fun s f ↦ f s) s

/-- Assignments of different things: one that was carried out has nothing left to do, and what has
nothing to do has nothing to do after the others either. -/
structure Independent (fs : List (σ → σ)) : Prop where
  idempotent : ∀ f ∈ fs, ∀ s, f (f s) = f s
  stable : fs.Pairwise fun f g ↦ ∀ s, f s = s → f (g s) = g s

/-- A part of a state that can be read and set. -/
structure Field (σ α : Type u) where
  get : σ → α
  set : α → σ → σ
  get_set : ∀ a s, get (set a s) = a
  set_eq_self_iff : ∀ a s, set a s = s ↔ a = get s

/-- The function sets the field to some value, or does nothing. -/
def Field.Assigns {α : Type u} (F : Field σ α) (f : σ → σ) : Prop := f = id ∨ ∃ a, f = F.set a

/-- The function leaves the field alone. -/
def Field.Spares {α : Type u} (F : Field σ α) (f : σ → σ) : Prop := ∀ s, F.get (f s) = F.get s

section Fields

variable {α : Type u} {F : Field σ α} {f g : σ → σ} {s : σ}

/-- Setting a field twice is setting it once. -/
theorem Field.Assigns.idempotent (h : F.Assigns f) (s : σ) : f (f s) = f s := by
  rcases h with rfl | ⟨a, rfl⟩
  · rfl
  · rw [F.set_eq_self_iff, F.get_set]

/-- A field that has its value keeps it when others are set. -/
theorem Field.Assigns.stable (h : F.Assigns f) (hg : F.Spares g) (s : σ) (hs : f s = s) :
    f (g s) = g s := by
  rcases h with rfl | ⟨a, rfl⟩
  · rfl
  · rw [F.set_eq_self_iff] at hs ⊢
    rw [hs, hg s]

end Fields

section Rules

variable {fs : List (σ → σ)} {steps : List (Option (σ → σ))} {s : σ}

/-- Assignments that do not fail are carried out before the rest. -/
theorem assignAll_append (fs : List (σ → σ)) (steps : List (Option (σ → σ))) (s : σ) :
    assignAll (fs.map some ++ steps) s = assignAll steps (assigned fs s) := by
  induction fs generalizing s with
  | nil => rfl
  | cons f fs ih => exact ih (f s)

/-- Assignments that do not fail are all carried out. -/
theorem assignAll_map_some (fs : List (σ → σ)) (s : σ) :
    assignAll (fs.map some) s = (true, assigned fs s) := by
  have h := assignAll_append fs [] s
  rwa [List.append_nil] at h

/-- What every assignment keeps holds after them, wherever they end. -/
theorem assignAll_invariant {I : σ → Prop} (hkeeps : ∀ step ∈ steps, ∀ f ∈ step, ∀ s, I s → I (f s))
    (h : I s) : I (assignAll steps s).2 := by
  induction steps generalizing s with
  | nil => exact h
  | cons step steps ih =>
    obtain ⟨hstep, hrest⟩ := List.forall_mem_cons.mp hkeeps
    cases step with
    | none => exact h
    | some f => exact ih hrest (hstep f rfl s h)

/-- Either none fails, or there is a first that does. -/
theorem exists_first_none (steps : List (Option (σ → σ))) :
    (∃ fs : List (σ → σ), steps = fs.map some) ∨
      ∃ (fs : List (σ → σ)) (rest : List (Option (σ → σ))),
        steps = fs.map some ++ none :: rest := by
  induction steps with
  | nil => exact .inl ⟨[], rfl⟩
  | cons step steps ih =>
    cases step with
    | none => exact .inr ⟨[], steps, rfl⟩
    | some f =>
      rcases ih with ⟨fs, rfl⟩ | ⟨fs, rest, rfl⟩
      · exact .inl ⟨f :: fs, rfl⟩
      · exact .inr ⟨f :: fs, rest, rfl⟩

/-- What has nothing to do has nothing to do after the others. -/
theorem assigned_stable {f : σ → σ} (h : ∀ g ∈ fs, ∀ s, f s = s → f (g s) = g s) (hs : f s = s) :
    f (assigned fs s) = assigned fs s := by
  induction fs generalizing s with
  | nil => exact hs
  | cons g fs ih =>
    obtain ⟨hg, hrest⟩ := List.forall_mem_cons.mp h
    exact ih hrest (hg s hs)

/-- Independent assignments change nothing together just if each of them changes nothing. -/
theorem assigned_eq_self_iff (h : Independent fs) : assigned fs s = s ↔ ∀ f ∈ fs, f s = s := by
  induction fs generalizing s with
  | nil => exact iff_of_true rfl (List.forall_mem_nil _)
  | cons f fs ih =>
    obtain ⟨hf, hrest⟩ := List.forall_mem_cons.mp h.idempotent
    obtain ⟨hstable, hpairs⟩ := List.pairwise_cons.mp h.stable
    have ih := ih (s := s) ⟨hrest, hpairs⟩
    rw [List.forall_mem_cons]
    constructor
    · intro heq
      have hfirst : f s = s := by
        have hkept : f (assigned fs (f s)) = assigned fs (f s) := assigned_stable hstable (hf s)
        change assigned fs (f s) = s at heq
        rwa [heq] at hkept
      refine ⟨hfirst, ih.mp ?_⟩
      change assigned fs (f s) = s at heq
      rwa [hfirst] at heq
    · rintro ⟨hfirst, hothers⟩
      change assigned fs (f s) = s
      rw [hfirst]
      exact ih.mpr hothers

/-- A part of independent assignments is independent. -/
theorem Independent.sublist {gs : List (σ → σ)} (h : Independent fs) (hsub : gs.Sublist fs) :
    Independent gs :=
  ⟨fun f hf ↦ h.idempotent f (hsub.subset hf), h.stable.sublist hsub⟩

/-- None of the assignments that do not fail fails. -/
theorem findIdx?_map_some (fs : List (σ → σ)) :
    (fs.map some).findIdx? (fun f : Option (σ → σ) ↦ f.isNone) = none := by
  simp [List.findIdx?_eq_none_iff]

/-- Assignments that do not fail change nothing just if they are all settled. -/
theorem forall_settled_iff {settled : List Prop}
    (h : List.Forall₂ (fun step p ↦ ∀ f, step = some f → (f s = s ↔ p)) (fs.map some) settled) :
    (∀ f ∈ fs, f s = s) ↔ ∀ p ∈ settled, p := by
  induction fs generalizing settled with
  | nil =>
    cases h
    exact iff_of_true (List.forall_mem_nil _) (List.forall_mem_nil _)
  | cons f fs ih =>
    cases h with
    | cons hfirst hrest => rw [List.forall_mem_cons, List.forall_mem_cons, hfirst f rfl, ih hrest]

/-- Assignments are independent if those that do not fail are. -/
theorem independent_reduceOption (hidem : ∀ step ∈ steps, ∀ f ∈ step, ∀ s, f (f s) = f s)
    (hstable : steps.Pairwise fun a b ↦ ∀ f ∈ a, ∀ g ∈ b, ∀ s, f s = s → f (g s) = g s) :
    Independent steps.reduceOption where
  idempotent f hf := hidem (some f) (List.reduceOption_mem_iff.mp hf) f rfl
  stable := by
    rw [List.reduceOption, List.pairwise_filterMap]
    exact hstable.imp fun h f hf g hg ↦ h f hf g hg

/-- The assignments leave the state as it was where one fails, just if each one before the first
that fails has nothing to change. Here `settled` tells of each assignment whether it does not. -/
theorem assignAll_atomic_iff {settled : List Prop} (h : Independent steps.reduceOption)
    (hsettled : List.Forall₂ (fun step p ↦ ∀ f, step = some f → (f s = s ↔ p)) steps settled) :
    ((assignAll steps s).1 = false → (assignAll steps s).2 = s) ↔
      ∀ n, steps.findIdx? (·.isNone) = some n → ∀ p ∈ settled.take n, p := by
  rcases exists_first_none steps with ⟨fs, rfl⟩ | ⟨fs, rest, rfl⟩
  · rw [assignAll_map_some]
    apply iff_of_true
    · intro hfails
      cases hfails
    · intro n hn
      rw [findIdx?_map_some] at hn
      cases hn
  · have hfirst : (fs.map some ++ none :: rest).findIdx? (fun f : Option (σ → σ) ↦ f.isNone) =
        some fs.length := by
      rw [List.findIdx?_append, findIdx?_map_some, Option.none_or, List.findIdx?_cons]
      simp
    have htake : List.Forall₂ (fun step p ↦ ∀ f, step = some f → (f s = s ↔ p)) (fs.map some)
        (settled.take fs.length) := by
      have htaken := List.forall₂_take fs.length hsettled
      rwa [List.take_append_of_le_length (by simp), List.take_of_length_le (by simp)] at htaken
    have hind : Independent fs := by
      apply h.sublist
      have hsome : (fs.map some).reduceOption = fs := by simp [List.reduceOption]
      rw [List.reduceOption_append, hsome]
      exact List.sublist_append_left fs _
    rw [assignAll_append, hfirst]
    constructor
    · intro hsame n hn
      cases hn
      exact (forall_settled_iff htake).mp ((assigned_eq_self_iff hind).mp (hsame rfl))
    · intro hall _
      exact (assigned_eq_self_iff hind).mpr ((forall_settled_iff htake).mpr (hall fs.length rfl))

end Rules

end PacketDial.Lib
