import PacketDial.Lib.Locks
import PacketDial.Lib.Paths
import PacketDial.Lib.Traced

/-!
# Two threads and their locks

Two computations over one state, one primitive at a time in any order. Each action of a program
acquires and releases locks, and a thread waits where it acquires a lock that the other holds.
Where both threads acquire their locks in the order of one rank, they never wait for each other.
-/

namespace PacketDial.Lib

/-- How the actions of a program act on locks, and which locks a thread may take twice. -/
structure LockModel (τ μ : Type) where
  acts : τ → List (LockAct μ)
  reentrant : μ → Bool

/-- A thread: the lock actions it makes next, the rest of its program, the lock actions after the
program, and the locks it holds. -/
structure Thread (ε σ τ μ : Type) where
  env : ε
  pending : List (LockAct μ)
  prog : Traced ε σ τ Unit
  closing : List (LockAct μ)
  held : List μ

/-- Two threads and the state they share. -/
structure Pair (ε σ τ μ : Type) where
  state : σ
  threads : Bool → Thread ε σ τ μ

variable {ε σ τ μ : Type} [DecidableEq μ] (M : LockModel τ μ)

/-- The lock actions of a trace. -/
def LockModel.trace (t : List τ) : List (LockAct μ) := t.flatMap M.acts

/-- A thread that holds `held` can acquire a lock, where the other holds `taken`. -/
def LockModel.Free (taken held : List μ) (m : μ) : Prop :=
  m ∉ taken ∧ (m ∈ held → M.reentrant m = true)

instance (taken held : List μ) (m : μ) : Decidable (M.Free taken held m) :=
  inferInstanceAs (Decidable (_ ∧ _))

/-- One step of a thread, where the other holds the locks `taken`. -/
def Thread.step (taken : List μ) (s : σ) (t : Thread ε σ τ μ) : Option (σ × Thread ε σ τ μ) :=
  match t.pending with
  | .acquire m :: rest =>
    if M.Free taken t.held m then
      some (s, { t with pending := rest, held := m :: t.held })
    else none
  | .release m :: rest => some (s, { t with pending := rest, held := t.held.erase m })
  | [] =>
    match t.prog with
    | .done _ =>
      if t.closing = [] then none else some (s, { t with pending := t.closing, closing := [] })
    | .asking k => some (s, { t with prog := k t.env })
    | .getting k => some (s, { t with prog := k s })
    | .modifying f k => some (f s, { t with prog := k })
    | .emitting a k => some (s, { t with pending := M.acts a, prog := k })

/-- The pair after a step of the thread `i`. -/
def Pair.set (c : Pair ε σ τ μ) (i : Bool) (s : σ) (t : Thread ε σ τ μ) : Pair ε σ τ μ :=
  ⟨s, Function.update c.threads i t⟩

/-- One step of the thread `i`. -/
def Pair.step (c : Pair ε σ τ μ) (i : Bool) : Option (Pair ε σ τ μ) :=
  ((c.threads i).step M (c.threads !i).held c.state).map fun next ↦ c.set i next.1 next.2

omit [DecidableEq μ] in
/-- The lock that a thread is about to acquire. -/
def Thread.waitsFor (t : Thread ε σ τ μ) : Option μ :=
  match t.pending with
  | .acquire m :: _ => some m
  | _ => none

/-- Each thread waits for a lock that the other holds. -/
def Pair.Deadlocked (c : Pair ε σ τ μ) : Prop :=
  ∀ i, ∃ m ∈ (c.threads i).waitsFor, m ∈ (c.threads !i).held

instance (c : Pair ε σ τ μ) : Decidable c.Deadlocked :=
  inferInstanceAs (Decidable (∀ i : Bool, ∃ m ∈ (c.threads i).waitsFor, _))

section Moves

variable {M} {c c' c'' : Pair ε σ τ μ} {i : Bool} {s : σ} {t u : Thread ε σ τ μ}

omit [DecidableEq μ] in
@[simp] theorem Pair.set_self (c : Pair ε σ τ μ) (i : Bool) (s : σ) (t : Thread ε σ τ μ) :
    (c.set i s t).threads i = t :=
  Function.update_self _ _ _

omit [DecidableEq μ] in
theorem Pair.set_of_ne (c : Pair ε σ τ μ) {i j : Bool} (h : j ≠ i) {s : σ}
    {t : Thread ε σ τ μ} : (c.set i s t).threads j = c.threads j :=
  Function.update_of_ne h _ _

omit [DecidableEq μ] in
@[simp] theorem Pair.set_other (c : Pair ε σ τ μ) (i : Bool) (s : σ) (t : Thread ε σ τ μ) :
    (c.set i s t).threads (!i) = c.threads (!i) :=
  c.set_of_ne (by simp)

omit [DecidableEq μ] in
@[simp] theorem Pair.set_set (c : Pair ε σ τ μ) (i : Bool) (s s' : σ) (t u : Thread ε σ τ μ) :
    (c.set i s t).set i s' u = c.set i s' u := by
  unfold set
  rw [Function.update_idem]

omit [DecidableEq μ] in
/-- Nothing changes where a thread stays as it is. -/
theorem Pair.set_eq_self (c : Pair ε σ τ μ) (i : Bool) : c.set i c.state (c.threads i) = c := by
  unfold set
  rw [Function.update_eq_self]

/-- Some schedule leads from one pair to another. -/
def Pair.Reaches (M : LockModel τ μ) (c c' : Pair ε σ τ μ) : Prop :=
  ∃ is : List Bool, is.foldlM (Pair.step M) c = some c'

/-- The empty schedule leads nowhere else. -/
theorem Pair.Reaches.refl (c : Pair ε σ τ μ) : c.Reaches M c := ⟨[], rfl⟩

/-- Schedules compose. -/
theorem Pair.Reaches.trans (h : c.Reaches M c') (h' : c'.Reaches M c'') : c.Reaches M c'' := by
  obtain ⟨is, h⟩ := h
  obtain ⟨js, h'⟩ := h'
  refine ⟨is ++ js, ?_⟩
  rw [List.foldlM_append, h]
  exact h'

/-- A step of a thread is a schedule. -/
theorem Pair.reaches_set {s' : σ} (h : t.step M (c.threads !i).held s = some (s', u)) :
    (c.set i s t).Reaches M (c.set i s' u) := by
  refine ⟨[i], ?_⟩
  have hstep : (c.set i s t).step M i = some (c.set i s' u) := by
    unfold Pair.step
    rw [Pair.set_self, Pair.set_other, show (c.set i s t).state = s from rfl, h]
    simp
  rw [List.foldlM_cons, hstep]
  rfl

/-- A thread makes its lock actions where the other leaves the locks free. -/
theorem Pair.reaches_pending {acts rest : List (LockAct μ)} {held : List μ}
    (h : replay (M.Free (c.threads !i).held) t.held acts = some held) :
    (c.set i s { t with pending := acts ++ rest }).Reaches M
      (c.set i s { t with pending := rest, held := held }) := by
  induction acts generalizing t with
  | nil =>
    cases h
    exact .refl _
  | cons a acts ih =>
    cases a with
    | acquire m =>
      rw [replay] at h
      split_ifs at h with hfree
      have hstep : Thread.step M (c.threads !i).held s
          { t with pending := .acquire m :: (acts ++ rest) } =
            some (s, { t with pending := acts ++ rest, held := m :: t.held }) := if_pos hfree
      exact (reaches_set hstep).trans (ih (t := { t with held := m :: t.held }) h)
    | release m =>
      have hstep : Thread.step M (c.threads !i).held s
          { t with pending := .release m :: (acts ++ rest) } =
            some (s, { t with pending := acts ++ rest, held := t.held.erase m }) := rfl
      exact (reaches_set hstep).trans (ih (t := { t with held := t.held.erase m }) h)

/-- A thread runs the first part of its program where the other leaves the locks free. -/
theorem Pair.reaches_run {α : Type} {x : Traced ε σ τ α} {f : α → Traced ε σ τ Unit}
    {held : List μ} (h : replay (M.Free (c.threads !i).held) t.held
      (M.trace (x.run t.env s).trace) = some held) :
    (c.set i s { t with pending := [], prog := x >>= f }).Reaches M
      (c.set i (x.run t.env s).state
        { t with pending := [], prog := f (x.run t.env s).value, held := held }) := by
  induction x generalizing s t with
  | done a =>
    cases h
    exact .refl _
  | asking k ih => exact (reaches_set rfl).trans (ih t.env h)
  | getting k ih => exact (reaches_set rfl).trans (ih s h)
  | modifying g k ih => exact (reaches_set rfl).trans (ih h)
  | emitting b k ih =>
    have htrace : M.trace ((Traced.emitting b k).run t.env s).trace =
        M.acts b ++ M.trace (k.run t.env s).trace := rfl
    rw [htrace, replay_append] at h
    obtain ⟨held₁, hacts, hrest⟩ := Option.bind_eq_some_iff.mp h
    have acts : (c.set i s { t with pending := M.acts b ++ [], prog := k >>= f }).Reaches M
        (c.set i s { t with pending := [], prog := k >>= f, held := held₁ }) :=
      reaches_pending (t := { t with prog := k >>= f }) hacts
    rw [List.append_nil] at acts
    exact (reaches_set rfl).trans (acts.trans (ih (t := { t with held := held₁ }) hrest))

end Moves

section Order

variable (ρ : μ → Nat)

/-- The lock actions of a thread that holds `held` keep to the rank, up to where the thread waits
for itself. -/
def Ordered : List μ → List (LockAct μ) → Prop
  | _, [] => True
  | held, .acquire m :: rest =>
    (m ∈ held ∧ M.reentrant m = false) ∨
      ((m ∈ held ∨ ∀ h ∈ held, ρ h < ρ m) ∧ Ordered (m :: held) rest)
  | held, .release m :: rest => Ordered (held.erase m) rest

/-- The policy of a thread that keeps to the rank and never waits for itself. -/
def InOrder (held : List μ) (m : μ) : Prop :=
  (m ∈ held ∧ M.reentrant m = true) ∨ ∀ h ∈ held, ρ h < ρ m

instance (held : List μ) (m : μ) : Decidable (InOrder M ρ held m) :=
  inferInstanceAs (Decidable (_ ∨ _))

variable {M ρ}

/-- A thread keeps to the rank if it does so first with the policy and then goes on in order. -/
theorem Ordered.of_replay {held held' : List μ} {t u : List (LockAct μ)}
    (h : replay (InOrder M ρ) held t = some held') (hu : Ordered M ρ held' u) :
    Ordered M ρ held (t ++ u) := by
  induction t generalizing held with
  | nil =>
    cases h
    exact hu
  | cons a t ih =>
    cases a with
    | acquire m =>
      rw [replay] at h
      split_ifs at h with hm
      exact Or.inr ⟨hm.imp_left And.left, ih h⟩
    | release m => exact ih h

/-- What is said of the locks held and the lock actions to come stays true when a thread makes the
first of them. -/
structure Enduring (M : LockModel τ μ) (Φ : List μ → List (LockAct μ) → Prop) : Prop where
  acquire : ∀ {held : List μ} {m : μ} {rest : List (LockAct μ)}, Φ held (.acquire m :: rest) →
    (m ∈ held → M.reentrant m = true) → Φ (m :: held) rest
  release : ∀ {held : List μ} {m : μ} {rest : List (LockAct μ)}, Φ held (.release m :: rest) →
    Φ (held.erase m) rest

/-- Whatever the other threads do, `Φ` says this of the thread: of the locks that it holds and of
its lock actions to come. -/
def Thread.Ahead (M : LockModel τ μ) (Φ : List μ → List (LockAct μ) → Prop)
    (t : Thread ε σ τ μ) : Prop :=
  ∀ s trace a s', t.prog.Exec (fun _ _ ↦ True) s trace a s' →
    Φ t.held (t.pending ++ M.trace trace ++ t.closing)

/-- Keeping to the rank endures. -/
theorem enduring_ordered : Enduring M (Ordered M ρ) where
  acquire h hfree := by
    rcases h with ⟨hheld, hre⟩ | ⟨-, hrest⟩
    · rw [hfree hheld] at hre
      cases hre
    · exact hrest
  release h := h

/-- Whatever the other thread does, the lock actions of the thread keep to the rank. -/
def Thread.Orderly (M : LockModel τ μ) (ρ : μ → Nat) (t : Thread ε σ τ μ) : Prop :=
  ∀ s trace a s', t.prog.Exec (fun _ _ ↦ True) s trace a s' →
    Ordered M ρ t.held (t.pending ++ M.trace trace ++ t.closing)

omit [DecidableEq μ] in
/-- A thread that waits for a lock acquires it next. -/
theorem Thread.pending_of_waitsFor {t : Thread ε σ τ μ} {m : μ} (hm : t.waitsFor = some m) :
    ∃ rest, t.pending = .acquire m :: rest := by
  unfold waitsFor at hm
  split at hm
  · next m' rest heq =>
    cases hm
    exact ⟨rest, heq⟩
  · cases hm

/-- A thread that is about to acquire a lock holds it already or acquires it in order. -/
theorem Thread.Orderly.acquires {t : Thread ε σ τ μ} (h : t.Orderly M ρ) {m : μ}
    (hm : t.waitsFor = some m) (s : σ) : m ∈ t.held ∨ ∀ n ∈ t.held, ρ n < ρ m := by
  obtain ⟨rest, hpending⟩ := t.pending_of_waitsFor hm
  have hexec := Traced.exec_run (I := fun _ _ ↦ True) (fun _ ↦ trivial) t.prog t.env s
  have hordered := h _ _ _ _ hexec
  rw [hpending] at hordered
  rcases hordered with ⟨hheld, -⟩ | ⟨h, -⟩
  · exact Or.inl hheld
  · exact h

/-- What endures of the actions ahead of a thread is true after a step. -/
theorem Thread.Ahead.step {Φ : List μ → List (LockAct μ) → Prop} {t t' : Thread ε σ τ μ}
    (h : t.Ahead M Φ) (hΦ : Enduring M Φ) {taken : List μ} {s s' : σ}
    (hstep : t.step M taken s = some (s', t')) : t'.Ahead M Φ := by
  unfold Thread.step at hstep
  split at hstep
  · next m rest hpending =>
    split_ifs at hstep with hfree
    cases hstep
    intro u trace a u' hexec
    have hahead := h u trace a u' hexec
    rw [hpending] at hahead
    exact hΦ.acquire hahead hfree.2
  · next m rest hpending =>
    cases hstep
    intro u trace a u' hexec
    have hahead := h u trace a u' hexec
    rw [hpending] at hahead
    exact hΦ.release hahead
  · next hpending =>
    split at hstep
    · next x hprog =>
      split_ifs at hstep with hclosing
      cases hstep
      rintro u trace a u' hexec
      have hahead := h u trace a u' hexec
      dsimp only at hexec
      rw [hprog] at hexec
      obtain ⟨rfl, -, -⟩ := hexec
      rw [hpending] at hahead
      simpa [LockModel.trace] using hahead
    · next k hprog =>
      cases hstep
      intro u trace a u' hexec
      exact h u trace a u' (by rw [hprog]; exact ⟨_, hexec⟩)
    · next k hprog =>
      cases hstep
      intro u trace a u' hexec
      exact h u trace a u' (by rw [hprog]; exact ⟨_, trivial, hexec.start _⟩)
    · next f k hprog =>
      cases hstep
      intro u trace a u' hexec
      exact h u trace a u' (by rw [hprog]; exact ⟨s, trivial, hexec.start _⟩)
    · next b k hprog =>
      cases hstep
      intro u trace a u' hexec
      have hahead := h u (b :: trace) a u' (by rw [hprog]; exact ⟨_, rfl, hexec⟩)
      rw [hpending] at hahead
      simpa [LockModel.trace] using hahead

/-- A step of a thread leaves it orderly. -/
theorem Thread.Orderly.step {t t' : Thread ε σ τ μ} (h : t.Orderly M ρ) {taken : List μ} {s s' : σ}
    (hstep : t.step M taken s = some (s', t')) : t'.Orderly M ρ :=
  Thread.Ahead.step h enduring_ordered hstep

/-- The threads keep to the rank and hold no lock together. -/
structure Pair.Orderly (M : LockModel τ μ) (ρ : μ → Nat) (c : Pair ε σ τ μ) : Prop where
  threads : ∀ i, (c.threads i).Orderly M ρ
  apart : ∀ m ∈ (c.threads true).held, m ∉ (c.threads false).held

/-- No lock is held on both sides, whichever comes first. -/
theorem Pair.Orderly.apart' {c : Pair ε σ τ μ} (h : c.Orderly M ρ) (i : Bool) :
    ∀ m ∈ (c.threads i).held, m ∉ (c.threads !i).held := by
  intro m hm hm'
  cases i with
  | true => exact h.apart m hm hm'
  | false => exact h.apart m hm' hm

/-- A thread that steps holds what it held, and perhaps one lock that the other does not hold. -/
theorem Thread.held_step {t t' : Thread ε σ τ μ} {taken : List μ} {s s' : σ}
    (hstep : t.step M taken s = some (s', t')) :
    ∀ m ∈ t'.held, m ∈ t.held ∨ m ∉ taken := by
  unfold Thread.step at hstep
  split at hstep
  · split_ifs at hstep with hfree
    cases hstep
    intro m hm
    rcases List.mem_cons.mp hm with rfl | hm
    · exact Or.inr hfree.1
    · exact Or.inl hm
  · cases hstep
    exact fun m hm ↦ Or.inl (List.mem_of_mem_erase hm)
  · split at hstep
    · split_ifs at hstep
      cases hstep
      exact fun m hm ↦ Or.inl hm
    all_goals
      cases hstep
      exact fun m hm ↦ Or.inl hm

/-- Steps keep a pair orderly. -/
theorem Pair.Orderly.step {c c' : Pair ε σ τ μ} (h : c.Orderly M ρ) {i : Bool}
    (hstep : c.step M i = some c') : c'.Orderly M ρ := by
  obtain ⟨⟨s, t⟩, hthread, rfl⟩ := Option.map_eq_some_iff.mp hstep
  have horderly := (h.threads i).step hthread
  have hheld : ∀ m ∈ t.held, m ∉ (c.threads !i).held := by
    intro m hm
    rcases Thread.held_step hthread m hm with hm | hm
    · exact h.apart' i m hm
    · exact hm
  constructor
  · intro j
    by_cases hj : j = i
    · rw [hj, Pair.set_self]
      exact horderly
    · rw [Pair.set_of_ne _ hj]
      exact h.threads j
  · intro m hm hm'
    cases i with
    | true => exact hheld m hm hm'
    | false => exact hheld m hm' hm

/-- An orderly pair is not deadlocked: each of two waiting threads would hold a lock of lower rank
than the other. -/
theorem Pair.Orderly.not_deadlocked {c : Pair ε σ τ μ} (h : c.Orderly M ρ) : ¬ c.Deadlocked := by
  intro hdead
  have below (i : Bool) : ∃ m ∈ (c.threads i).waitsFor, m ∈ (c.threads !i).held ∧
      ∀ n ∈ (c.threads i).held, ρ n < ρ m := by
    obtain ⟨m, hm, hother⟩ := hdead i
    refine ⟨m, hm, hother, ?_⟩
    rcases (h.threads i).acquires hm c.state with hheld | hbelow
    · exact absurd hother (h.apart' i m hheld)
    · exact hbelow
  obtain ⟨m, -, hm, hbelow⟩ := below true
  obtain ⟨n, -, hn, hbelow'⟩ := below false
  have hlt := hbelow n hn
  have hlt' := hbelow' m hm
  omega

/-- Two threads that keep to the rank never reach a deadlock. -/
theorem Pair.Orderly.never_deadlocked {c c' : Pair ε σ τ μ} (h : c.Orderly M ρ) {is : List Bool}
    (run : is.foldlM (Pair.step M) c = some c') : ¬ c'.Deadlocked := by
  have horderly : c'.Orderly M ρ :=
    (Path.of_foldlM run).invariant h fun _ _ _ h _ hs ↦ h.step hs
  exact horderly.not_deadlocked

end Order

end PacketDial.Lib
