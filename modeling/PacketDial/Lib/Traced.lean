import Mathlib.Logic.Basic
import Mathlib.Data.List.Basic

/-!
# Traced computations

A computation reads an environment, threads a state and logs, in order, the actions it
performs on the outside world. It is a tree of primitives, so that others can run in between:
`run` is the run of a computation on its own, `Exec` are its executions among others.
`Admits R x` says that every execution of `x` relates the state before, the actions and the state
after by `R`, as long as the others make silent moves of `R` only; a relation that `Composable`
holds of no action at all and survives sequencing, so it is proved of a program one primitive at
a time.
-/

namespace PacketDial.Lib

/-- What one run of a computation leaves behind. -/
structure Outcome (σ τ α : Type) where
  value : α
  state : σ
  trace : List τ

/-- Computations reading `ε`, threading `σ` and logging actions `τ`, one primitive at a time. -/
inductive Traced (ε σ τ α : Type) : Type where
  | done (a : α)
  | asking (k : ε → Traced ε σ τ α)
  | getting (k : σ → Traced ε σ τ α)
  | modifying (f : σ → σ) (k : Traced ε σ τ α)
  | emitting (a : τ) (k : Traced ε σ τ α)

namespace Traced

variable {ε σ τ α β : Type}

/-- Go on with what a computation returns. -/
def andThen : Traced ε σ τ α → (α → Traced ε σ τ β) → Traced ε σ τ β
  | done a, f => f a
  | asking k, f => asking fun e ↦ (k e).andThen f
  | getting k, f => getting fun s ↦ (k s).andThen f
  | modifying g k, f => modifying g (k.andThen f)
  | emitting a k, f => emitting a (k.andThen f)

/-- Returning performs no action; sequencing puts the second part after the first. -/
instance : Monad (Traced ε σ τ) where
  pure := done
  bind := andThen

/-- Going on with a return changes nothing. -/
theorem andThen_done (x : Traced ε σ τ α) : x.andThen done = x := by
  induction x with
  | done a => rfl
  | asking k ih => exact congrArg asking (funext ih)
  | getting k ih => exact congrArg getting (funext ih)
  | modifying f k ih => exact congrArg (modifying f) ih
  | emitting a k ih => exact congrArg (emitting a) ih

/-- Sequencing is associative. -/
theorem andThen_assoc {γ : Type} (x : Traced ε σ τ α) (f : α → Traced ε σ τ β)
    (g : β → Traced ε σ τ γ) : (x.andThen f).andThen g = x.andThen fun a ↦ (f a).andThen g := by
  induction x with
  | done a => rfl
  | asking k ih => exact congrArg asking (funext ih)
  | getting k ih => exact congrArg getting (funext ih)
  | modifying f k ih => exact congrArg (modifying f) ih
  | emitting a k ih => exact congrArg (emitting a) ih

instance : LawfulMonad (Traced ε σ τ) :=
  LawfulMonad.mk' _ andThen_done (fun _ _ ↦ rfl) andThen_assoc

/-- The run of a computation on its own. -/
def run : Traced ε σ τ α → ε → σ → Outcome σ τ α
  | done a, _, s => ⟨a, s, []⟩
  | asking k, e, s => (k e).run e s
  | getting k, e, s => (k s).run e s
  | modifying f k, e, s => k.run e (f s)
  | emitting a k, e, s =>
    let out := k.run e s
    ⟨out.value, out.state, a :: out.trace⟩

/-- Read the environment. -/
def ask : Traced ε σ τ ε := asking done

/-- Read the state. -/
def get : Traced ε σ τ σ := getting done

/-- Update the state. -/
def modify (f : σ → σ) : Traced ε σ τ Unit := modifying f (done ())

/-- Log one action. -/
def emit (a : τ) : Traced ε σ τ Unit := emitting a (done ())

/-- Run a body for each element of a list, in order. -/
def each (f : α → Traced ε σ τ Unit) : List α → Traced ε σ τ Unit
  | [] => pure ()
  | a :: as => do f a; each f as

@[simp] theorem run_pure (a : α) (e : ε) (s : σ) :
    (pure a : Traced ε σ τ α).run e s = ⟨a, s, []⟩ := rfl

@[simp] theorem run_ask (e : ε) (s : σ) : (ask : Traced ε σ τ ε).run e s = ⟨e, s, []⟩ := rfl

@[simp] theorem run_get (e : ε) (s : σ) : (get : Traced ε σ τ σ).run e s = ⟨s, s, []⟩ := rfl

@[simp] theorem run_modify (f : σ → σ) (e : ε) (s : σ) :
    (modify f : Traced ε σ τ Unit).run e s = ⟨(), f s, []⟩ := rfl

@[simp] theorem run_emit (a : τ) (e : ε) (s : σ) :
    (emit a : Traced ε σ τ Unit).run e s = ⟨(), s, [a]⟩ := rfl

/-- Sequencing appends the second trace to the first. -/
@[simp] theorem run_bind (x : Traced ε σ τ α) (f : α → Traced ε σ τ β) (e : ε) (s : σ) :
    (x >>= f).run e s =
      ⟨((f (x.run e s).value).run e (x.run e s).state).value,
        ((f (x.run e s).value).run e (x.run e s).state).state,
        (x.run e s).trace ++ ((f (x.run e s).value).run e (x.run e s).state).trace⟩ := by
  change (x.andThen f).run e s = _
  induction x generalizing s with
  | done a => rfl
  | asking k ih => exact ih e s
  | getting k ih => exact ih s s
  | modifying g k ih => exact ih (g s)
  | emitting a k ih =>
    rw [andThen, run, ih]
    rfl

/-- Mapping a result changes neither the state nor the trace. -/
@[simp] theorem run_map (g : α → β) (x : Traced ε σ τ α) (e : ε) (s : σ) :
    (g <$> x).run e s = ⟨g (x.run e s).value, (x.run e s).state, (x.run e s).trace⟩ := by
  change (x >>= fun a ↦ pure (g a)).run e s = _
  rw [run_bind, run_pure, List.append_nil]

/-- Discarding a result changes neither the state nor the trace. -/
@[simp] theorem run_discard (x : Traced ε σ τ α) (e : ε) (s : σ) :
    (discard x : Traced ε σ τ Unit).run e s = ⟨(), (x.run e s).state, (x.run e s).trace⟩ :=
  run_map (Function.const α ()) x e s

/-- The executions of a computation among others, who move the state by `I` in between. -/
def Exec (I : σ → σ → Prop) : Traced ε σ τ α → σ → List τ → α → σ → Prop
  | done a, s, t, b, s' => t = [] ∧ b = a ∧ I s s'
  | asking k, s, t, a, s' => ∃ e, (k e).Exec I s t a s'
  | getting k, s, t, a, s' => ∃ s₁, I s s₁ ∧ (k s₁).Exec I s₁ t a s'
  | modifying f k, s, t, a, s' => ∃ s₁, I s s₁ ∧ k.Exec I (f s₁) t a s'
  | emitting b k, s, t, a, s' => ∃ t', t = b :: t' ∧ k.Exec I s t' a s'

section Executions

variable {I J : σ → σ → Prop}

/-- The run of a computation on its own is an execution. -/
theorem exec_run (hI : ∀ s, I s s) (x : Traced ε σ τ α) (e : ε) (s : σ) :
    x.Exec I s (x.run e s).trace (x.run e s).value (x.run e s).state := by
  induction x generalizing s with
  | done a => exact ⟨rfl, rfl, hI s⟩
  | asking k ih => exact ⟨e, ih e s⟩
  | getting k ih => exact ⟨s, hI s, ih s s⟩
  | modifying f k ih => exact ⟨s, hI s, ih (f s)⟩
  | emitting b k ih => exact ⟨_, rfl, ih s⟩

/-- The others may move more. -/
theorem Exec.mono {x : Traced ε σ τ α} {s s' : σ} {t : List τ} {a : α}
    (h : x.Exec I s t a s') (hIJ : ∀ s s', I s s' → J s s') : x.Exec J s t a s' := by
  induction x generalizing s t with
  | done b => exact ⟨h.1, h.2.1, hIJ _ _ h.2.2⟩
  | asking k ih =>
    obtain ⟨e, h⟩ := h
    exact ⟨e, ih e h⟩
  | getting k ih =>
    obtain ⟨s₁, hI, h⟩ := h
    exact ⟨s₁, hIJ _ _ hI, ih s₁ h⟩
  | modifying f k ih =>
    obtain ⟨s₁, hI, h⟩ := h
    exact ⟨s₁, hIJ _ _ hI, ih h⟩
  | emitting b k ih =>
    obtain ⟨t', rfl, h⟩ := h
    exact ⟨t', rfl, ih h⟩

/-- Where the others may move freely, it does not matter where an execution starts. -/
theorem Exec.start {x : Traced ε σ τ α} {s s' : σ} {t : List τ} {a : α}
    (h : x.Exec (fun _ _ ↦ True) s t a s') (u : σ) : x.Exec (fun _ _ ↦ True) u t a s' := by
  induction x generalizing s t u with
  | done b => exact h
  | asking k ih =>
    obtain ⟨e, h⟩ := h
    exact ⟨e, ih e h u⟩
  | getting k ih => exact h
  | modifying f k ih => exact h
  | emitting b k ih =>
    obtain ⟨t', rfl, h⟩ := h
    exact ⟨t', rfl, ih h u⟩

/-- An execution of a sequence is one of its first part and one of its second. -/
theorem exec_bind (hI : ∀ s, I s s) {x : Traced ε σ τ α} {f : α → Traced ε σ τ β} {s s' : σ}
    {t : List τ} {b : β} (h : (x >>= f).Exec I s t b s') :
    ∃ t₁ a s₁ t₂, x.Exec I s t₁ a s₁ ∧ (f a).Exec I s₁ t₂ b s' ∧ t = t₁ ++ t₂ := by
  induction x generalizing s t with
  | done a => exact ⟨[], a, s, t, ⟨rfl, rfl, hI s⟩, h, rfl⟩
  | asking k ih =>
    obtain ⟨e, h⟩ := h
    obtain ⟨t₁, a, s₁, t₂, h₁, h₂, rfl⟩ := ih e h
    exact ⟨t₁, a, s₁, t₂, ⟨e, h₁⟩, h₂, rfl⟩
  | getting k ih =>
    obtain ⟨s₀, hI, h⟩ := h
    obtain ⟨t₁, a, s₁, t₂, h₁, h₂, rfl⟩ := ih s₀ h
    exact ⟨t₁, a, s₁, t₂, ⟨s₀, hI, h₁⟩, h₂, rfl⟩
  | modifying g k ih =>
    obtain ⟨s₀, hI, h⟩ := h
    obtain ⟨t₁, a, s₁, t₂, h₁, h₂, rfl⟩ := ih h
    exact ⟨t₁, a, s₁, t₂, ⟨s₀, hI, h₁⟩, h₂, rfl⟩
  | emitting c k ih =>
    obtain ⟨t', rfl, h⟩ := h
    obtain ⟨t₁, a, s₁, t₂, h₁, h₂, rfl⟩ := ih h
    exact ⟨c :: t₁, a, s₁, t₂, ⟨t₁, rfl, h₁⟩, h₂, rfl⟩

end Executions

/-- A relation between the state before, the actions and the state after that holds when
nothing happens and survives sequencing. -/
class Composable (R : σ → List τ → σ → Prop) : Prop where
  nil : ∀ s, R s [] s
  append : ∀ {s t s' t' s''}, R s t s' → R s' t' s'' → R s (t ++ t') s''

/-- The moves of a relation that show no action. -/
def Silent (R : σ → List τ → σ → Prop) (s s' : σ) : Prop := R s [] s'

/-- Every execution of the computation among silent moves stays within the relation. -/
def Admits (R : σ → List τ → σ → Prop) (x : Traced ε σ τ α) : Prop :=
  ∀ s t a s', x.Exec (Silent R) s t a s' → R s t s'

section Rules

variable {R : σ → List τ → σ → Prop}

/-- Returning admits every relation. -/
theorem admits_pure (a : α) : Admits R (pure a : Traced ε σ τ α) := by
  rintro s t b s' ⟨rfl, rfl, h⟩
  exact h

/-- Reading the environment admits every relation. -/
theorem admits_ask : Admits R (ask : Traced ε σ τ ε) := by
  rintro s t b s' ⟨e, rfl, rfl, h⟩
  exact h

/-- The rule for a decision. -/
theorem admits_ite {c : Prop} [Decidable c] {x y : Traced ε σ τ α} (hx : Admits R x)
    (hy : Admits R y) : Admits R (if c then x else y) := by
  split
  · exact hx
  · exact hy

variable [Composable R]

/-- The others may do nothing. -/
theorem silent_refl (s : σ) : Silent R s s := Composable.nil s

/-- A computation on its own stays within a relation that it admits. -/
theorem Admits.run {x : Traced ε σ τ α} (h : Admits R x) (e : ε) (s : σ) :
    R s (x.run e s).trace (x.run e s).state :=
  h _ _ _ _ (exec_run silent_refl x e s)

/-- Reading the state admits every composable relation. -/
theorem admits_get : Admits R (get : Traced ε σ τ σ) := by
  rintro s t b s' ⟨s₁, h, rfl, rfl, h'⟩
  exact Composable.append h h'

/-- The sequencing rule. -/
theorem Admits.bind {x : Traced ε σ τ α} {f : α → Traced ε σ τ β}
    (hx : Admits R x) (hf : ∀ a, Admits R (f a)) : Admits R (x >>= f) := by
  intro s t b s' h
  obtain ⟨t₁, a, s₁, t₂, h₁, h₂, rfl⟩ := exec_bind silent_refl h
  exact Composable.append (hx _ _ _ _ h₁) (hf _ _ _ _ _ h₂)

/-- The rule for an update that the relation allows. -/
theorem admits_modify {f : σ → σ} (h : ∀ s, R s [] (f s)) :
    Admits R (modify f : Traced ε σ τ Unit) := by
  rintro s t b s' ⟨s₁, hI, rfl, rfl, hI'⟩
  exact Composable.append hI (Composable.append (h s₁) hI')

/-- The rule for an action that the relation allows. -/
theorem admits_emit {a : τ} (h : ∀ s, R s [a] s) : Admits R (emit a : Traced ε σ τ Unit) := by
  rintro s t b s' ⟨_, rfl, rfl, rfl, hI⟩
  exact Composable.append (h s) hI

/-- Mapping a result changes nothing else. -/
theorem Admits.map {x : Traced ε σ τ α} (hx : Admits R x) (g : α → β) :
    Admits R (g <$> x) :=
  hx.bind fun _ ↦ admits_pure _

/-- The rule for a loop over a list, by induction on the list. -/
theorem admits_each {f : α → Traced ε σ τ Unit} (h : ∀ a, Admits R (f a))
    (as : List α) : Admits R (each f as) := by
  induction as with
  | nil => exact admits_pure ()
  | cons a as ih => exact (h a).bind fun _ ↦ ih

end Rules

/-- Two composable relations compose together. -/
instance instComposableAnd {R S : σ → List τ → σ → Prop} [Composable R] [Composable S] :
    Composable fun s t s' ↦ R s t s' ∧ S s t s' where
  nil s := ⟨Composable.nil s, Composable.nil s⟩
  append h h' := ⟨Composable.append h.1 h'.1, Composable.append h.2 h'.2⟩

/-- The frame relation: a projection of the state is left as it was. -/
def Keeps {γ : Type} (π : σ → γ) (s : σ) (_ : List τ) (s' : σ) : Prop := π s' = π s

instance {γ : Type} (π : σ → γ) : Composable (@Keeps σ τ γ π) where
  nil _ := rfl
  append h h' := h'.trans h

/-- The relation of runs whose actions all satisfy a predicate. -/
def Performs (P : τ → Prop) (_ : σ) (t : List τ) (_ : σ) : Prop := ∀ a ∈ t, P a

instance (P : τ → Prop) : Composable (@Performs σ τ P) where
  nil _ := List.forall_mem_nil P
  append h h' := List.forall_mem_append.mpr ⟨h, h'⟩

end Traced
end PacketDial.Lib
