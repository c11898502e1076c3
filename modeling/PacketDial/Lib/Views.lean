import PacketDial.Lib.Traced

/-!
# Views of traced computations

A view projects the state to the part of interest and keeps, of each action, what is visible
through it. `Yields` is the weakest precondition of a computation seen through a view; a
`Still` computation shows nothing there, so it drops out of the reasoning wherever it occurs.
-/

namespace PacketDial.Lib

/-- A projection of the state and of the actions of a computation. -/
structure View (σ τ γ δ : Type) where
  state : σ → γ
  act : τ → Option δ

namespace View

variable {ε σ τ γ δ α β : Type} (v : View σ τ γ δ)

/-- The visible part of a trace. -/
def trace (t : List τ) : List δ := t.filterMap v.act

@[simp] theorem trace_nil : v.trace [] = [] := rfl

@[simp] theorem trace_append (t u : List τ) : v.trace (t ++ u) = v.trace t ++ v.trace u :=
  List.filterMap_append

/-- Nothing of the run is visible. -/
def Still (s : σ) (t : List τ) (s' : σ) : Prop := v.state s' = v.state s ∧ v.trace t = []

instance : Traced.Composable v.Still where
  nil _ := ⟨rfl, rfl⟩
  append h h' := ⟨h'.1.trans h.1, by rw [trace_append, h.2, h'.2]; rfl⟩

/-- The result, the visible actions and the visible state after a run satisfy `Q`. -/
def Yields (x : Traced ε σ τ α) (e : ε) (s : σ) (Q : α → List δ → γ → Prop) : Prop :=
  Q (x.run e s).value (v.trace (x.run e s).trace) (v.state (x.run e s).state)

/-- Two views side by side: an action shows what either of them shows. -/
def both {γ' δ' : Type} (w : View σ τ γ' δ') : View σ τ (γ × γ') (Option δ × Option δ') where
  state s := (v.state s, w.state s)
  act a := if (v.act a).isNone ∧ (w.act a).isNone then none else some (v.act a, w.act a)

/-- What two views do not show, neither shows. -/
theorem both_act_eq_none {γ' δ' : Type} {w : View σ τ γ' δ'} {a : τ} :
    (v.both w).act a = none ↔ v.act a = none ∧ w.act a = none := by
  simp [both]

section Rules

variable {v} {e : ε} {s : σ} {Q : α → List δ → γ → Prop} {R : β → List δ → γ → Prop}

/-- The consequence rule. -/
theorem Yields.imp {x : Traced ε σ τ α} (h : v.Yields x e s Q) {Q' : α → List δ → γ → Prop}
    (hQ : ∀ a acts c, Q a acts c → Q' a acts c) : v.Yields x e s Q' :=
  hQ _ _ _ h

/-- Returning shows nothing. -/
theorem yields_pure {a : α} (h : Q a [] (v.state s)) : v.Yields (pure a) e s Q := h

/-- The sequencing rule: what the first part shows comes first. -/
theorem yields_bind {x : Traced ε σ τ α} {f : α → Traced ε σ τ β} {s₁ : σ} {a : α}
    {acts : List δ} (hs : (x.run e s).state = s₁) (ha : (x.run e s).value = a)
    (ht : v.trace (x.run e s).trace = acts)
    (h : v.Yields (f a) e s₁ fun b acts' c ↦ R b (acts ++ acts') c) :
    v.Yields (x >>= f) e s R := by
  subst hs ha ht
  unfold Yields at h ⊢
  rw [Traced.run_bind, trace_append]
  exact h

/-- A still computation that comes first leaves only what is known of its result. -/
theorem yields_read_bind {x : Traced ε σ τ α} (hx : Traced.Admits v.Still x) {P : α → Prop}
    (hP : P (x.run e s).value) {f : α → Traced ε σ τ β}
    (h : ∀ a s₁, P a → v.state s₁ = v.state s → v.Yields (f a) e s₁ R) :
    v.Yields (x >>= f) e s R := by
  have hs := hx.run e s
  exact yields_bind rfl rfl hs.2 (h _ _ hP hs.1)

/-- A still computation that comes first drops out. -/
theorem yields_still_bind {x : Traced ε σ τ α} (hx : Traced.Admits v.Still x)
    {f : α → Traced ε σ τ β}
    (h : ∀ a s₁, v.state s₁ = v.state s → v.Yields (f a) e s₁ R) :
    v.Yields (x >>= f) e s R :=
  yields_read_bind hx (P := fun _ ↦ True) trivial fun a s₁ _ ↦ h a s₁

/-- A still computation shows the visible state it started from. -/
theorem yields_still {x : Traced ε σ τ α} (hx : Traced.Admits v.Still x)
    (h : ∀ a, Q a [] (v.state s)) : v.Yields x e s Q := by
  unfold Yields
  rw [(hx.run e s).1, (hx.run e s).2]
  exact h _

/-- Sequencing after a computation whose visible effect is known. -/
theorem Yields.bind {x : Traced ε σ τ α} {f : α → Traced ε σ τ β} (hx : v.Yields x e s Q)
    (h : ∀ a acts s₁, Q a acts (v.state s₁) →
      v.Yields (f a) e s₁ fun b acts' c ↦ R b (acts ++ acts') c) :
    v.Yields (x >>= f) e s R :=
  yields_bind rfl rfl rfl (h _ _ _ hx)

/-- Reading the state. -/
theorem yields_get_bind {f : σ → Traced ε σ τ β} (h : v.Yields (f s) e s R) :
    v.Yields (Traced.get >>= f) e s R := h

/-- Reading the environment. -/
theorem yields_ask_bind {f : ε → Traced ε σ τ β} (h : v.Yields (f e) e s R) :
    v.Yields (Traced.ask >>= f) e s R := h

/-- Updating the state. -/
theorem yields_modify_bind {g : σ → σ} {f : Unit → Traced ε σ τ β}
    (h : v.Yields (f ()) e (g s) R) : v.Yields (Traced.modify g >>= f) e s R := h

/-- Mapping the result. -/
theorem yields_map {x : Traced ε σ τ α} {g : α → β}
    (h : v.Yields x e s fun a acts c ↦ R (g a) acts c) : v.Yields (g <$> x) e s R := by
  unfold Yields at h ⊢
  rw [Traced.run_map]
  exact h

/-- Discarding the result. -/
theorem yields_discard {x : Traced ε σ τ α} {S : Unit → List δ → γ → Prop}
    (h : v.Yields x e s fun _ acts c ↦ S () acts c) : v.Yields (discard x) e s S := by
  unfold Yields at h ⊢
  rw [Traced.run_discard]
  exact h

end Rules

end View
end PacketDial.Lib
