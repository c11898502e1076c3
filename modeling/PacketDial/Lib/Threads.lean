import PacketDial.Lib.Traced

/-!
# Traced computations primitive by primitive

The finest interleaving of computations: `next` performs one primitive and leaves the rest. `Only P`
says of the tree of a computation that all its actions satisfy `P`, whatever the environment
answers and whatever the others make of the state, so it passes to what is left.
-/

namespace PacketDial.Lib.Traced

variable {ε σ τ α : Type} {P Q : τ → Prop}

/-- One primitive of a computation: what is left, the state and the action if it is one. -/
def next : Traced ε σ τ α → ε → σ → Option (Traced ε σ τ α × σ × Option τ)
  | done _, _, _ => none
  | asking k, e, s => some (k e, s, none)
  | getting k, _, s => some (k s, s, none)
  | modifying f k, _, s => some (k, f s, none)
  | emitting a k, _, s => some (k, s, some a)

/-- A run on its own is a primitive and the run of what is left. -/
theorem run_of_next {x y : Traced ε σ τ α} {e : ε} {s s' : σ} {a : Option τ}
    (h : x.next e s = some (y, s', a)) : x.run e s =
      ⟨(y.run e s').value, (y.run e s').state, a.toList ++ (y.run e s').trace⟩ := by
  cases x with
  | done b => cases h
  | _ =>
    cases h
    rfl

/-- All actions satisfy `P`, on every branch. -/
def Only (P : τ → Prop) : Traced ε σ τ α → Prop
  | done _ => True
  | asking k => ∀ e, (k e).Only P
  | getting k => ∀ s, (k s).Only P
  | modifying _ k => k.Only P
  | emitting a k => P a ∧ k.Only P

/-- What comes after an action that satisfies `P` performs only actions that satisfy `Q`. -/
def Ends (P Q : τ → Prop) : Traced ε σ τ α → Prop
  | done _ => True
  | asking k => ∀ e, (k e).Ends P Q
  | getting k => ∀ s, (k s).Ends P Q
  | modifying _ k => k.Ends P Q
  | emitting a k => (P a → k.Only Q) ∧ k.Ends P Q

/-- A primitive and what is left keep to `P`. -/
theorem Only.next {x y : Traced ε σ τ α} {e : ε} {s s' : σ} {a : Option τ} (h : x.Only P)
    (hnext : x.next e s = some (y, s', a)) : y.Only P ∧ ∀ b ∈ a, P b := by
  cases x with
  | done b => cases hnext
  | asking k =>
    cases hnext
    exact ⟨h e, by simp⟩
  | getting k =>
    cases hnext
    exact ⟨h s, by simp⟩
  | modifying f k =>
    cases hnext
    exact ⟨h, by simp⟩
  | emitting b k =>
    cases hnext
    exact ⟨h.2, by simpa using h.1⟩

/-- A primitive that satisfies `P` leaves only actions that satisfy `Q`. -/
theorem Ends.next {x y : Traced ε σ τ α} {e : ε} {s s' : σ} {a : Option τ} (h : x.Ends P Q)
    (hnext : x.next e s = some (y, s', a)) : y.Ends P Q ∧ ∀ b ∈ a, P b → y.Only Q := by
  cases x with
  | done b => cases hnext
  | asking k =>
    cases hnext
    exact ⟨h e, by simp⟩
  | getting k =>
    cases hnext
    exact ⟨h s, by simp⟩
  | modifying f k =>
    cases hnext
    exact ⟨h, by simp⟩
  | emitting b k =>
    cases hnext
    exact ⟨h.2, by simpa using h.1⟩

/-- The rule for sequences. -/
theorem Only.bind {β : Type} {x : Traced ε σ τ α} {f : α → Traced ε σ τ β} (hx : x.Only P)
    (hf : ∀ a, (f a).Only P) : (x >>= f).Only P := by
  change (x.andThen f).Only P
  induction x with
  | done b => exact hf b
  | asking k ih => exact fun e ↦ ih e (hx e)
  | getting k ih => exact fun s ↦ ih s (hx s)
  | modifying g k ih => exact ih hx
  | emitting a k ih => exact ⟨hx.1, ih hx.2⟩

/-- The rule for a sequence whose first part has no action that satisfies `P`. -/
theorem Only.ends_bind {β : Type} {x : Traced ε σ τ α} {f : α → Traced ε σ τ β}
    (hx : x.Only fun a ↦ ¬ P a) (hf : ∀ a, (f a).Ends P Q) : (x >>= f).Ends P Q := by
  change (x.andThen f).Ends P Q
  induction x with
  | done b => exact hf b
  | asking k ih => exact fun e ↦ ih e (hx e)
  | getting k ih => exact fun s ↦ ih s (hx s)
  | modifying g k ih => exact ih hx
  | emitting a k ih => exact ⟨fun ha ↦ absurd ha hx.1, ih hx.2⟩

/-- Mapping a result changes nothing. -/
theorem Ends.map {β : Type} {x : Traced ε σ τ α} (hx : x.Ends P Q) (g : α → β) :
    (g <$> x).Ends P Q := by
  change (x.andThen fun a ↦ pure (g a)).Ends P Q
  induction x with
  | done b => trivial
  | asking k ih => exact fun e ↦ ih e (hx e)
  | getting k ih => exact fun s ↦ ih s (hx s)
  | modifying f k ih => exact ih hx
  | emitting a k ih => exact ⟨fun ha ↦ (hx.1 ha).bind fun _ ↦ trivial, ih hx.2⟩

/-- Where no action satisfies `P`, nothing comes after one that does. -/
theorem Only.ends {x : Traced ε σ τ α} (h : x.Only fun a ↦ ¬ P a) : x.Ends P Q := by
  rw [← bind_pure x]
  exact h.ends_bind fun _ ↦ trivial

/-- The silent moves of a relation that speaks of the actions only are free. -/
theorem silent_performs (s s' : σ) : Silent (Performs P) s s' := List.forall_mem_nil P

/-- An execution within free moves starts anywhere. -/
theorem Exec.start_performs {x : Traced ε σ τ α} {s s' : σ} {t : List τ} {a : α}
    (h : x.Exec (Silent (Performs P)) s t a s') (u : σ) :
    x.Exec (Silent (Performs P)) u t a s' :=
  ((h.mono fun _ _ _ ↦ trivial).start u).mono fun _ _ _ ↦ silent_performs _ _

/-- A computation that performs only actions that satisfy `P` has them on every branch. -/
theorem Admits.only [Nonempty ε] [Nonempty σ] {x : Traced ε σ τ α}
    (h : Admits (Performs P) x) : x.Only P := by
  induction x with
  | done b => trivial
  | asking k ih => exact fun e ↦ ih e fun s t a s' hexec ↦ h s t a s' ⟨e, hexec⟩
  | getting k ih =>
    intro s₀
    exact ih s₀ fun s t a s' hexec ↦
      h s t a s' ⟨s₀, silent_performs _ _, hexec.start_performs s₀⟩
  | modifying f k ih =>
    exact ih fun s t a s' hexec ↦
      h s t a s' ⟨s, silent_performs _ _, hexec.start_performs (f s)⟩
  | emitting a k ih =>
    have hcons {s s' : σ} {t : List τ} {b : α} (hk : k.Exec (Silent (Performs P)) s t b s') :
        ∀ c ∈ a :: t, P c := h s (a :: t) b s' ⟨t, rfl, hk⟩
    obtain ⟨e⟩ := ‹Nonempty ε›
    obtain ⟨s⟩ := ‹Nonempty σ›
    -- The run of the rest on its own is an execution.
    have hrun := hcons (exec_run (fun s ↦ silent_performs s s) k e s)
    exact ⟨hrun a List.mem_cons_self,
      ih fun s t b s' hk c hc ↦ hcons hk c (List.mem_cons_of_mem a hc)⟩

/-- A computation that performs fewer kinds of actions. -/
theorem Admits.performs {x : Traced ε σ τ α} (h : Admits (Performs P) x)
    (hPQ : ∀ a, P a → Q a) : Admits (Performs Q) x := by
  intro s t a s' hexec b hb
  exact hPQ b (h s t a s' (hexec.mono fun _ _ _ ↦ silent_performs _ _) b hb)

end PacketDial.Lib.Traced
