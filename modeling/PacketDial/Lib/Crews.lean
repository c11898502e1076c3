import Mathlib.Data.Fintype.Basic
import Mathlib.Data.Finset.Max
import Mathlib.Logic.Hydra
import Mathlib.Order.OrderIsoNat
import PacketDial.Lib.Deadlock

/-!
# Crews

Any number of workers over one state. A worker runs one thread after another, one primitive at a
time and in any order with the others, and waits where it acquires a lock that another worker
holds. No schedule runs on for ever. Where all threads acquire their locks in the order of one rank
and give back what they took, a crew that cannot go on has finished, unless some worker waits for a
lock that it holds itself.
-/

namespace PacketDial.Lib

/-- A worker: the thread that it runs, and the threads that it runs next. -/
structure Worker (ε σ τ μ : Type) where
  current : Thread ε σ τ μ
  queue : List (Thread ε σ τ μ)

/-- Workers and the state that they share. -/
structure Crew (n : Nat) (ε σ τ μ : Type) where
  state : σ
  workers : Fin n → Worker ε σ τ μ

section Definitions

variable {n : Nat} {ε σ τ μ : Type} [DecidableEq μ] (M : LockModel τ μ)

omit [DecidableEq μ] in
/-- The thread has nothing left to do. -/
def Thread.finished (t : Thread ε σ τ μ) : Bool :=
  match t.pending, t.prog, t.closing with
  | [], .done _, [] => true
  | _, _, _ => false

/-- One step of a worker, where the others hold the locks `taken`: a step of its thread, or from
a thread that has finished to the next. The locks belong to the worker. -/
def Worker.step (taken : List μ) (s : σ) (w : Worker ε σ τ μ) : Option (σ × Worker ε σ τ μ) :=
  if w.current.finished then
    match w.queue with
    | [] => none
    | t :: rest => some (s, ⟨{ t with held := w.current.held }, rest⟩)
  else (w.current.step M taken s).map fun next ↦ (next.1, ⟨next.2, w.queue⟩)

omit [DecidableEq μ] in
/-- The locks that the other workers hold. -/
def Crew.taken (c : Crew n ε σ τ μ) (i : Fin n) : List μ :=
  (List.finRange n).flatMap fun j ↦ if j = i then [] else (c.workers j).current.held

omit [DecidableEq μ] in
/-- The crew after a step of the worker `i`. -/
def Crew.set (c : Crew n ε σ τ μ) (i : Fin n) (s : σ) (w : Worker ε σ τ μ) : Crew n ε σ τ μ :=
  ⟨s, Function.update c.workers i w⟩

/-- One step of the worker `i`. -/
def Crew.step (c : Crew n ε σ τ μ) (i : Fin n) : Option (Crew n ε σ τ μ) :=
  ((c.workers i).step M (c.taken i) c.state).map fun next ↦ c.set i next.1 next.2

omit [DecidableEq μ] in
/-- The worker has finished its last thread. -/
def Worker.Done (w : Worker ε σ τ μ) : Prop := w.current.finished = true ∧ w.queue = []

/-- The worker waits for a lock that it holds itself. -/
def Worker.WaitsForItself (w : Worker ε σ τ μ) : Prop :=
  ∃ m ∈ w.current.waitsFor, m ∈ w.current.held ∧ M.reentrant m = false

/-- No worker can make a step. -/
def Crew.Stuck (c : Crew n ε σ τ μ) : Prop := ∀ i, c.step M i = none

end Definitions

section Termination

variable {n : Nat} {ε σ τ μ : Type} [DecidableEq μ] (M : LockModel τ μ)

/-- Some step leads from the thread `u` to `t`. -/
def Thread.Follows (t u : Thread ε σ τ μ) : Prop :=
  ∃ taken s s', u.step M taken s = some (s', t)

/-- Some step leads from the worker `v` to `w`. -/
def Worker.Follows (w v : Worker ε σ τ μ) : Prop :=
  ∃ taken s s', v.step M taken s = some (s', w)

/-- Some step leads from the crew `d` to `c`. -/
def Crew.Follows (c d : Crew n ε σ τ μ) : Prop := ∃ i, d.step M i = some c

variable {M}

/-- Lock actions come to an end, whatever comes after them. -/
theorem Thread.acc_pending {t : Thread ε σ τ μ}
    (h : ∀ held, Acc (Follows M) { t with pending := [], held := held })
    (pending : List (LockAct μ)) (held : List μ) :
    Acc (Follows M) { t with pending := pending, held := held } := by
  induction pending generalizing held with
  | nil => exact h held
  | cons a pending ih =>
    constructor
    rintro u ⟨taken, s, s', hstep⟩
    cases a with
    | acquire m =>
      simp only [Thread.step] at hstep
      split_ifs at hstep
      cases hstep
      exact ih _
    | release m =>
      cases hstep
      exact ih _

/-- The lock actions after a program come to an end. -/
theorem Thread.acc_done (env : ε) (x : Unit) (closing : List (LockAct μ)) (held : List μ) :
    Acc (Follows M) (⟨env, [], .done x, closing, held⟩ : Thread ε σ τ μ) := by
  have finished (held : List μ) :
      Acc (Follows M) (⟨env, [], .done x, [], held⟩ : Thread ε σ τ μ) := by
    constructor
    rintro u ⟨taken, s, s', hstep⟩
    cases hstep
  constructor
  rintro u ⟨taken, s, s', hstep⟩
  simp only [Thread.step] at hstep
  split_ifs at hstep
  cases hstep
  exact acc_pending (t := ⟨env, [], .done x, [], held⟩) finished closing held

/-- A thread between its lock actions comes to an end, by induction on its program. -/
theorem Thread.acc_prog (env : ε) (prog : Traced ε σ τ Unit) (closing : List (LockAct μ))
    (held : List μ) : Acc (Follows M) ⟨env, [], prog, closing, held⟩ := by
  induction prog generalizing held with
  | done x => exact acc_done env x closing held
  | asking k ih =>
    constructor
    rintro u ⟨taken, s, s', hstep⟩
    cases hstep
    exact ih _ held
  | getting k ih =>
    constructor
    rintro u ⟨taken, s, s', hstep⟩
    cases hstep
    exact ih _ held
  | modifying f k ih =>
    constructor
    rintro u ⟨taken, s, s', hstep⟩
    cases hstep
    exact ih held
  | emitting a k ih =>
    constructor
    rintro u ⟨taken, s, s', hstep⟩
    cases hstep
    exact acc_pending (t := ⟨env, [], k, closing, held⟩) ih (M.acts a) held

/-- No thread runs on for ever. -/
theorem Thread.acc (t : Thread ε σ τ μ) : Acc (Follows M) t :=
  acc_pending (acc_prog t.env t.prog t.closing) t.pending t.held

/-- No worker runs on for ever, by induction on its queue. -/
theorem Worker.acc (w : Worker ε σ τ μ) : Acc (Follows M) w := by
  obtain ⟨t, queue⟩ := w
  induction queue generalizing t with
  | nil =>
    induction Thread.acc (M := M) t with
    | intro t _ ih =>
      constructor
      rintro w ⟨taken, s, s', hstep⟩
      unfold Worker.step at hstep
      split_ifs at hstep
      obtain ⟨⟨_, u⟩, hthread, heq⟩ := Option.map_eq_some_iff.mp hstep
      cases heq
      exact ih u ⟨taken, s, _, hthread⟩
  | cons next rest ihq =>
    induction Thread.acc (M := M) t with
    | intro t _ ih =>
      constructor
      rintro w ⟨taken, s, s', hstep⟩
      unfold Worker.step at hstep
      split_ifs at hstep
      · cases hstep
        exact ihq _
      · obtain ⟨⟨_, u⟩, hthread, heq⟩ := Option.map_eq_some_iff.mp hstep
        cases heq
        exact ih u ⟨taken, s, _, hthread⟩

/-- Of a finite family one member goes down. -/
theorem cutExpand_update {α : Type} {r : α → α → Prop} {f : Fin n → α} {i : Fin n} {a : α}
    (h : r a (f i)) : Relation.CutExpand r (Finset.univ.val.map (Function.update f i a))
      (Finset.univ.val.map f) := by
  have hmem : i ∈ (Finset.univ : Finset (Fin n)).val := Finset.mem_univ_val i
  rw [← Multiset.cons_erase hmem, Multiset.map_cons, Multiset.map_cons, Function.update_self]
  have others : (Finset.univ.val.erase i).map (Function.update f i a) =
      (Finset.univ.val.erase i).map f := by
    refine Multiset.map_congr rfl fun j hj ↦ Function.update_of_ne ?_ _ _
    exact ((Multiset.Nodup.mem_erase_iff Finset.univ.nodup).mp hj).1
  rw [others, ← Multiset.singleton_add, ← Multiset.singleton_add]
  exact Relation.cutExpand_single_add h _

/-- No crew runs on for ever. -/
theorem Crew.wf_follows : WellFounded (Crew.Follows (n := n) (ε := ε) (σ := σ) M) := by
  have workers : WellFounded (Worker.Follows (ε := ε) (σ := σ) M) := ⟨Worker.acc⟩
  refine Subrelation.wf ?_
    (InvImage.wf (fun c : Crew n ε σ τ μ ↦ Finset.univ.val.map c.workers) workers.cutExpand)
  rintro c d ⟨i, hstep⟩
  obtain ⟨⟨s, w⟩, hworker, rfl⟩ := Option.map_eq_some_iff.mp hstep
  exact cutExpand_update ⟨d.taken i, d.state, s, hworker⟩

/-- A sequence of steps comes to an end. -/
theorem Crew.exists_last (run : Nat → Crew n ε σ τ μ) :
    ∃ k, ∀ i, (run k).step M i ≠ some (run (k + 1)) := by
  by_contra h
  push Not at h
  have descending := wellFounded_iff_isEmpty_descending_chain.mp
    (Crew.wf_follows (n := n) (ε := ε) (σ := σ) (M := M))
  exact descending.false ⟨run, h⟩

/-- From every crew some schedule leads to one that is stuck. -/
theorem Crew.exists_stuck (c : Crew n ε σ τ μ) :
    ∃ is : List (Fin n), ∃ d, is.foldlM (Crew.step M) c = some d ∧ d.Stuck M := by
  induction c using (wf_follows (M := M)).induction with
  | _ c ih =>
    by_cases hstuck : c.Stuck M
    · exact ⟨[], c, rfl, hstuck⟩
    · obtain ⟨i, hi⟩ := not_forall.mp hstuck
      obtain ⟨c', hc'⟩ := Option.ne_none_iff_exists'.mp hi
      obtain ⟨is, d, hrun, hd⟩ := ih c' ⟨i, hc'⟩
      refine ⟨i :: is, d, ?_, hd⟩
      rw [List.foldlM_cons, hc']
      exact hrun

end Termination

section Progress

variable {n : Nat} {ε σ τ μ : Type} [DecidableEq μ] {M : LockModel τ μ} {ρ : μ → Nat}
  {Φ Ψ : List μ → List (LockAct μ) → Prop}

/-- The lock actions of a thread that holds `held` keep to the rank, up to where the thread waits
for itself, and give back all locks. -/
def InTurn (M : LockModel τ μ) (ρ : μ → Nat) (held : List μ) (acts : List (LockAct μ)) : Prop :=
  Ordered M ρ held acts ∧ replay (fun _ _ ↦ True) held acts = some []

/-- The lock actions of a thread that holds `held` keep to the rank, the thread never waits for
itself, and they give back all locks. -/
def Settles (M : LockModel τ μ) (ρ : μ → Nat) (held : List μ) (acts : List (LockAct μ)) : Prop :=
  replay (InOrder M ρ) held acts = some []

/-- Giving back all locks in order endures. -/
theorem enduring_inTurn : Enduring M (InTurn M ρ) where
  acquire h hfree := ⟨enduring_ordered.acquire h.1 hfree, by simpa [replay] using h.2⟩
  release h := h

/-- Giving back all locks without ever waiting for itself endures. -/
theorem enduring_settles : Enduring M (Settles M ρ) where
  acquire h _ := by
    rw [Settles, replay] at h
    split_ifs at h
    exact h
  release h := h

/-- A thread that never waits for itself gives back all locks in order. -/
theorem Settles.inTurn {held : List μ} {acts : List (LockAct μ)} (h : Settles M ρ held acts) :
    InTurn M ρ held acts := by
  constructor
  · have ordered := Ordered.of_replay h (u := []) trivial
    rwa [List.append_nil] at ordered
  · exact replay_mono (fun _ _ _ ↦ trivial) h

/-- A thread that never waits for itself takes no lock that it holds. -/
theorem Settles.reentrant {held : List μ} {m : μ} {rest : List (LockAct μ)}
    (h : Settles M ρ held (.acquire m :: rest)) (hm : m ∈ held) : M.reentrant m = true := by
  rw [Settles, replay] at h
  split_ifs at h with hok
  rcases hok with hre | habove
  · exact hre.2
  · exact absurd (habove m hm) (lt_irrefl _)

omit [DecidableEq μ] in
/-- What a thread that has finished looks like. -/
theorem Thread.finished_iff {t : Thread ε σ τ μ} :
    t.finished = true ↔ t.pending = [] ∧ t.closing = [] ∧ ∃ x, t.prog = .done x := by
  obtain ⟨env, pending, prog, closing, held⟩ := t
  cases pending <;> cases prog <;> cases closing <;> simp [finished]

omit [DecidableEq μ] in
/-- What `Φ` says of the actions ahead of a thread, `Ψ` says too. -/
theorem Thread.Ahead.imp {t : Thread ε σ τ μ} (h : t.Ahead M Φ)
    (hΦ : ∀ held acts, Φ held acts → Ψ held acts) : t.Ahead M Ψ :=
  fun s trace a s' hexec ↦ hΦ _ _ (h s trace a s' hexec)

omit [DecidableEq μ] in
/-- What is said of the actions ahead of a thread is said of some actions that start with the
pending ones. -/
theorem Thread.Ahead.exists {t : Thread ε σ τ μ} (h : t.Ahead M Φ) (s : σ) :
    ∃ rest, Φ t.held (t.pending ++ rest) := by
  have hexec := Traced.exec_run (I := fun _ _ ↦ True) (fun _ ↦ trivial) t.prog t.env s
  have hahead := h _ _ _ _ hexec
  rw [List.append_assoc] at hahead
  exact ⟨_, hahead⟩

omit [DecidableEq μ] in
/-- What is said of the actions ahead of a thread that has finished. -/
theorem Thread.Ahead.of_finished {t : Thread ε σ τ μ} (h : t.Ahead M Φ) (s : σ)
    (ht : t.finished = true) : Φ t.held [] := by
  obtain ⟨hpending, hclosing, x, hprog⟩ := finished_iff.mp ht
  have hahead := h s [] x s (by rw [hprog]; exact ⟨rfl, rfl, trivial⟩)
  rw [hpending, hclosing] at hahead
  exact hahead

/-- `Φ` says this of the thread that the worker runs and of those that it runs next. -/
structure Worker.Ahead (M : LockModel τ μ) (Φ : List μ → List (LockAct μ) → Prop)
    (w : Worker ε σ τ μ) : Prop where
  current : w.current.Ahead M Φ
  queue : ∀ t ∈ w.queue, t.held = [] ∧ t.Ahead M Φ

omit [DecidableEq μ] in
/-- What `Φ` says of a worker, `Ψ` says too. -/
theorem Worker.Ahead.imp {w : Worker ε σ τ μ} (h : w.Ahead M Φ)
    (hΦ : ∀ held acts, Φ held acts → Ψ held acts) : w.Ahead M Ψ where
  current := h.current.imp hΦ
  queue t ht := ⟨(h.queue t ht).1, (h.queue t ht).2.imp hΦ⟩

/-- What endures is true of a worker after a step, where a thread that has nothing left to do holds
no locks. -/
theorem Worker.Ahead.step {w w' : Worker ε σ τ μ} (h : w.Ahead M Φ) (hΦ : Enduring M Φ)
    (hnil : ∀ held, Φ held [] → held = []) {taken : List μ} {s s' : σ}
    (hstep : w.step M taken s = some (s', w')) : w'.Ahead M Φ := by
  obtain ⟨current, queue⟩ := w
  unfold Worker.step at hstep
  split_ifs at hstep with hfinished
  · cases queue with
    | nil => cases hstep
    | cons t rest =>
      cases hstep
      obtain ⟨⟨ht, hahead⟩, hrest⟩ := List.forall_mem_cons.mp h.queue
      have hheld : current.held = [] := hnil _ (h.current.of_finished s hfinished)
      refine ⟨?_, hrest⟩
      change Thread.Ahead M Φ { t with held := current.held }
      rw [hheld, ← ht]
      exact hahead
  · obtain ⟨⟨_, u⟩, hthread, heq⟩ := Option.map_eq_some_iff.mp hstep
    cases heq
    exact ⟨h.current.step hΦ hthread, h.queue⟩

/-- A worker that makes a step holds what it held, and perhaps one lock that the others do not
hold. -/
theorem Worker.held_step {w w' : Worker ε σ τ μ} {taken : List μ} {s s' : σ}
    (hstep : w.step M taken s = some (s', w')) :
    ∀ m ∈ w'.current.held, m ∈ w.current.held ∨ m ∉ taken := by
  obtain ⟨current, queue⟩ := w
  unfold Worker.step at hstep
  split_ifs at hstep with hfinished
  · cases queue with
    | nil => cases hstep
    | cons t rest =>
      cases hstep
      exact fun m hm ↦ Or.inl hm
  · obtain ⟨⟨_, u⟩, hthread, heq⟩ := Option.map_eq_some_iff.mp hstep
    cases heq
    exact Thread.held_step hthread

/-- A worker that makes no step is done, or waits for a lock that it cannot acquire. -/
theorem Worker.done_or_waits {w : Worker ε σ τ μ} {taken : List μ} {s : σ}
    (h : w.step M taken s = none) :
    w.Done ∨ ∃ m ∈ w.current.waitsFor, ¬ M.Free taken w.current.held m := by
  obtain ⟨⟨env, pending, prog, closing, held⟩, queue⟩ := w
  unfold Worker.step at h
  split_ifs at h with hfinished
  · cases queue with
    | nil => exact Or.inl ⟨hfinished, rfl⟩
    | cons t rest => cases h
  · rw [Option.map_eq_none_iff] at h
    cases pending with
    | nil =>
      cases prog with
      | done x =>
        cases closing with
        | nil => exact absurd rfl hfinished
        | cons a closing => simp [Thread.step] at h
      | _ => cases h
    | cons a pending =>
      cases a with
      | acquire m =>
        simp only [Thread.step] at h
        split_ifs at h with hfree
        exact Or.inr ⟨m, rfl, hfree⟩
      | release m => cases h

omit [DecidableEq μ] in
/-- The locks that the others hold. -/
theorem Crew.mem_taken {c : Crew n ε σ τ μ} {i : Fin n} {m : μ} :
    m ∈ c.taken i ↔ ∃ j, j ≠ i ∧ m ∈ (c.workers j).current.held := by
  unfold taken
  simp only [List.mem_flatMap, List.mem_finRange, true_and]
  refine exists_congr fun j ↦ ?_
  by_cases hj : j = i <;> simp [hj]

/-- The threads keep to the rank and give back their locks, and no two workers hold one lock. -/
structure Crew.Orderly (M : LockModel τ μ) (ρ : μ → Nat) (c : Crew n ε σ τ μ) : Prop where
  workers : ∀ i, (c.workers i).Ahead M (InTurn M ρ)
  apart : ∀ i j, i ≠ j → ∀ m ∈ (c.workers i).current.held, m ∉ (c.workers j).current.held

/-- Steps of one worker leave the others as they were. -/
theorem Crew.worker_step {c c' : Crew n ε σ τ μ} {i : Fin n} (hstep : c.step M i = some c') :
    (∃ s, (c.workers i).step M (c.taken i) c.state = some (s, c'.workers i)) ∧
      ∀ j, j ≠ i → c'.workers j = c.workers j := by
  obtain ⟨⟨s, w⟩, hworker, rfl⟩ := Option.map_eq_some_iff.mp hstep
  constructor
  · refine ⟨s, ?_⟩
    rw [hworker]
    simp [set]
  · exact fun j hj ↦ Function.update_of_ne hj _ _

/-- What endures is true of each worker after a step of the crew. -/
theorem Crew.ahead_step {c c' : Crew n ε σ τ μ} {i j : Fin n} (h : (c.workers j).Ahead M Φ)
    (hΦ : Enduring M Φ) (hnil : ∀ held, Φ held [] → held = []) (hstep : c.step M i = some c') :
    (c'.workers j).Ahead M Φ := by
  obtain ⟨⟨s, hworker⟩, hothers⟩ := worker_step hstep
  by_cases hj : j = i
  · subst hj
    exact h.step hΦ hnil hworker
  · rw [hothers j hj]
    exact h

/-- Who has nothing left to do and gives back all locks holds none. -/
theorem InTurn.eq_nil {held : List μ} (h : InTurn M ρ held []) : held = [] := by
  simpa [replay] using h.2

/-- Steps keep a crew orderly. -/
theorem Crew.Orderly.step {c c' : Crew n ε σ τ μ} (h : c.Orderly M ρ) {i : Fin n}
    (hstep : c.step M i = some c') : c'.Orderly M ρ where
  workers j := ahead_step (h.workers j) enduring_inTurn (fun _ ↦ InTurn.eq_nil) hstep
  apart := by
    obtain ⟨⟨s, hworker⟩, hothers⟩ := worker_step hstep
    have hheld : ∀ m ∈ (c'.workers i).current.held, ∀ j, j ≠ i →
        m ∉ (c'.workers j).current.held := by
      intro m hm j hj hm'
      rw [hothers j hj] at hm'
      rcases Worker.held_step hworker m hm with hm | hm
      · exact h.apart j i hj m hm' hm
      · exact hm (mem_taken.mpr ⟨j, hj, hm'⟩)
    intro j k hjk m hm hm'
    by_cases hj : j = i
    · rw [hj] at hm
      exact hheld m hm k (hj ▸ hjk.symm) hm'
    · by_cases hk : k = i
      · rw [hk] at hm'
        exact hheld m hm' j hj hm
      · rw [hothers j hj] at hm
        rw [hothers k hk] at hm'
        exact h.apart j k hjk m hm hm'

/-- In an orderly crew a worker that waits for a lock of another waits for one that ranks above
those it holds. -/
theorem Crew.Orderly.below {c : Crew n ε σ τ μ} (h : c.Orderly M ρ) {i : Fin n} {m : μ}
    (hm : m ∈ (c.workers i).current.waitsFor) (htaken : m ∈ c.taken i) :
    ∀ l ∈ (c.workers i).current.held, ρ l < ρ m := by
  have orderly : (c.workers i).current.Orderly M ρ :=
    (h.workers i).current.imp fun _ _ hturn ↦ hturn.1
  rcases orderly.acquires hm c.state with hheld | hbelow
  · obtain ⟨j, hj, hother⟩ := mem_taken.mp htaken
    exact absurd hother (h.apart i j hj.symm m hheld)
  · exact hbelow

/-- An orderly crew that is stuck has finished, or one of its workers waits for itself: otherwise
consider the worker that waits for the lock of the highest rank. -/
theorem Crew.Orderly.of_stuck {c : Crew n ε σ τ μ} (h : c.Orderly M ρ) (hstuck : c.Stuck M) :
    (∀ i, (c.workers i).Done) ∨ ∃ i, (c.workers i).WaitsForItself M := by
  classical
  by_cases hself : ∃ i, (c.workers i).WaitsForItself M
  · exact Or.inr hself
  · left
    -- a worker that is not done waits for a lock of another
    have waits (i : Fin n) (hi : ¬ (c.workers i).Done) :
        ∃ m ∈ (c.workers i).current.waitsFor, m ∈ c.taken i := by
      obtain ⟨m, hm, hfree⟩ := (Worker.done_or_waits
        (Option.map_eq_none_iff.mp (hstuck i))).resolve_left hi
      refine ⟨m, hm, ?_⟩
      by_contra htaken
      refine hfree ⟨htaken, fun hheld ↦ ?_⟩
      by_contra hre
      exact hself ⟨i, m, hm, hheld, by simpa using hre⟩
    by_contra hdone
    obtain ⟨i, hi⟩ := not_forall.mp hdone
    let rankOf (i : Fin n) : Nat := ((c.workers i).current.waitsFor.map ρ).getD 0
    obtain ⟨j, hj, hmax⟩ := Finset.exists_max_image
      (Finset.univ.filter fun i ↦ ¬ (c.workers i).Done) rankOf ⟨i, by simpa using hi⟩
    obtain ⟨m, hm, htaken⟩ := waits j (Finset.mem_filter.mp hj).2
    obtain ⟨k, hkj, hheld⟩ := mem_taken.mp htaken
    have hk : ¬ (c.workers k).Done := by
      intro hdone
      have hnone := ((h.workers k).current.of_finished c.state hdone.1).eq_nil
      rw [hnone] at hheld
      cases hheld
    obtain ⟨l, hl, htaken'⟩ := waits k hk
    have hlt : ρ m < ρ l := h.below hl htaken' m hheld
    have hle : rankOf k ≤ rankOf j := hmax k (by simpa using hk)
    have hrank : rankOf j = ρ m ∧ rankOf k = ρ l := by
      constructor
      · simp [rankOf, Option.mem_def.mp hm]
      · simp [rankOf, Option.mem_def.mp hl]
    omega

/-- A worker whose threads never wait for themselves does not wait for itself. -/
theorem Worker.Ahead.not_waitsForItself {w : Worker ε σ τ μ} (h : w.Ahead M (Settles M ρ))
    (s : σ) : ¬ w.WaitsForItself M := by
  rintro ⟨m, hm, hheld, hre⟩
  obtain ⟨rest, hsettles⟩ := h.current.exists s
  obtain ⟨rest', hpending⟩ := Thread.pending_of_waitsFor hm
  rw [hpending] at hsettles
  rw [hsettles.reentrant hheld] at hre
  cases hre

end Progress

end PacketDial.Lib
