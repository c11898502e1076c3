import PacketDial.Lib.Paths
import PacketDial.Lib.Traced

/-!
# Strands

Any number of computations over one state, each cut into steps: a step runs undisturbed, and
between two steps of one strand the others take theirs. `flatten` forgets the cuts, so a strand is
tied to the computation it cuts. Marks of the steps that matter are logged in the order of the run.
-/

namespace PacketDial.Lib

section Logs

variable {α : Type}

/-- The log has the entry `a`, and the entry `b` after it. -/
def Before (a b : α) (log : List α) : Prop := List.Sublist [a, b] log

/-- What a new entry comes after. -/
theorem before_concat {a b x : α} {log : List α} :
    Before a b (log ++ [x]) ↔ Before a b log ∨ (b = x ∧ a ∈ log) := by
  unfold Before
  rw [List.sublist_append_iff]
  constructor
  · rintro ⟨l, l', heq, hl, hl'⟩
    cases l' with
    | nil =>
      rw [List.append_nil] at heq
      rw [heq]
      exact Or.inl hl
    | cons y ys =>
      rw [List.sublist_singleton] at hl'
      simp only [reduceCtorEq, List.cons.injEq, false_or] at hl'
      obtain ⟨rfl, rfl⟩ := hl'
      have heq' : [a] ++ [b] = l ++ [y] := heq
      obtain ⟨rfl, hb⟩ := List.append_inj' heq' rfl
      exact Or.inr ⟨List.singleton_inj.mp hb, List.singleton_sublist.mp hl⟩
  · rintro (h | ⟨rfl, ha⟩)
    · exact ⟨[a, b], [], rfl, h, List.nil_sublist _⟩
    · exact ⟨[a], [b], rfl, List.singleton_sublist.mpr ha, List.Sublist.refl _⟩

/-- Other entries at the end change nothing. -/
theorem before_append_of_not_mem {a b : α} {log log' : List α} (h : b ∉ log') :
    Before a b (log ++ log') ↔ Before a b log := by
  induction log' using List.reverseRecOn with
  | nil => rw [List.append_nil]
  | append_singleton log' x ih =>
    rw [List.mem_append, not_or, List.mem_singleton] at h
    rw [← List.append_assoc, before_concat, ih h.1]
    simp [h.2]

/-- What is in a log, but neither an entry of it nor after that, comes before it. -/
theorem before_of_mem {a b : α} {l l' : List α} (h : a ∈ l ++ b :: l') (hab : a ≠ b)
    (hl' : a ∉ l') : Before a b (l ++ b :: l') := by
  have hl : a ∈ l := by
    rcases List.mem_append.mp h with h | h
    · exact h
    · rcases List.mem_cons.mp h with h | h
      · exact absurd h hab
      · exact absurd h hl'
  exact (List.singleton_sublist.mpr hl).append (List.cons_sublist_cons.mpr (List.nil_sublist l'))

/-- The log has the entry `a` where it did not have `b` yet. -/
def Without (a b : α) (log : List α) : Prop := ∃ l, b ∉ l ∧ l ++ [a] <+: log

/-- A new entry where another is missing. -/
theorem without_concat {a b x : α} {log : List α} :
    Without a b (log ++ [x]) ↔ Without a b log ∨ (a = x ∧ b ∉ log) := by
  unfold Without
  constructor
  · rintro ⟨l, hb, hl⟩
    rcases List.prefix_concat_iff.mp hl with heq | hl
    · obtain ⟨rfl, ha⟩ := List.append_inj' heq rfl
      exact Or.inr ⟨List.singleton_inj.mp ha, hb⟩
    · exact Or.inl ⟨l, hb, hl⟩
  · rintro (⟨l, hb, hl⟩ | ⟨rfl, hb⟩)
    · exact ⟨l, hb, hl.trans (List.prefix_append _ _)⟩
    · exact ⟨log, hb, List.prefix_rfl⟩

/-- An empty log has no entries. -/
theorem not_without_nil {a b : α} : ¬ Without a b [] := by
  rintro ⟨l, -, hl⟩
  exact List.append_ne_nil_of_right_ne_nil l (List.cons_ne_nil a []) (List.prefix_nil.mp hl)

/-- The first entry of a log. -/
theorem without_cons {a b x : α} {log : List α} :
    Without a b (x :: log) ↔ a = x ∨ (b ≠ x ∧ Without a b log) := by
  unfold Without
  constructor
  · rintro ⟨l, hb, hl⟩
    cases l with
    | nil => exact Or.inl (List.cons_prefix_cons.mp hl).1
    | cons y l =>
      obtain ⟨rfl, hrest⟩ := List.cons_prefix_cons.mp hl
      rw [List.mem_cons, not_or] at hb
      exact Or.inr ⟨hb.1, l, hb.2, hrest⟩
  · rintro (rfl | ⟨hb, l, hb', hl⟩)
    · exact ⟨[], List.not_mem_nil, List.cons_prefix_cons.mpr ⟨rfl, List.nil_prefix⟩⟩
    · refine ⟨x :: l, ?_, List.cons_prefix_cons.mpr ⟨rfl, hl⟩⟩
      rw [List.mem_cons, not_or]
      exact ⟨hb, hb'⟩

/-- The last value that an entry of the log carries. -/
def latest {β : Type} (value : α → Option β) (log : List α) : Option β :=
  (log.filterMap value).getLast?

section Latest

variable {β : Type} {value : α → Option β} {log : List α}

/-- The newer part of a log comes first. -/
theorem latest_append (log log' : List α) :
    latest value (log ++ log') = (latest value log').or (latest value log) := by
  unfold latest
  rw [List.filterMap_append, List.getLast?_append]

/-- A new entry that carries a value carries the last one. -/
theorem latest_concat (log : List α) (x : α) :
    latest value (log ++ [x]) = (value x).or (latest value log) := by
  rw [latest_append]
  congr 1
  unfold latest
  cases hx : value x with
  | none => rw [List.filterMap_cons_none hx, List.filterMap_nil, List.getLast?_nil]
  | some b => rw [List.filterMap_cons_some hx, List.filterMap_nil, List.getLast?_singleton]

/-- There is no last value just if no entry carries one. -/
theorem latest_eq_none : latest value log = none ↔ ∀ x ∈ log, value x = none := by
  rw [latest, List.getLast?_eq_none_iff, List.filterMap_eq_nil_iff]

/-- The entry with the last value, and nothing but entries without one after it. -/
theorem exists_of_latest {b : β} (h : latest value log = some b) :
    ∃ l x l', log = l ++ x :: l' ∧ value x = some b ∧ ∀ y ∈ l', value y = none := by
  induction log using List.reverseRecOn with
  | nil => cases h
  | append_singleton log x ih =>
    rw [latest_concat] at h
    cases hx : value x with
    | some b' =>
      rw [hx, Option.some_or] at h
      exact ⟨log, x, [], rfl, hx.trans h, List.forall_mem_nil _⟩
    | none =>
      rw [hx, Option.none_or] at h
      obtain ⟨l, y, l', rfl, hy, hl'⟩ := ih h
      refine ⟨l, y, l' ++ [x], by simp, hy, fun z hz ↦ ?_⟩
      rcases List.mem_append.mp hz with hz | hz
      · exact hl' z hz
      · rw [List.mem_singleton.mp hz, hx]

end Latest

end Logs

/-- A computation cut into steps. The result of a step decides whether it leaves a mark. -/
inductive Strand (ε σ τ ℓ α : Type) : Type 1 where
  | done (a : α)
  | step {β : Type} (mark : β → Option ℓ) (x : Traced ε σ τ β) (k : β → Strand ε σ τ ℓ α)

namespace Strand

variable {ε σ τ ℓ α β γ : Type}

/-- Go on with what a strand returns. -/
def andThen : Strand ε σ τ ℓ α → (α → Strand ε σ τ ℓ β) → Strand ε σ τ ℓ β
  | done a, f => f a
  | step mark x k, f => step mark x fun b ↦ (k b).andThen f

/-- Returning takes no step; sequencing puts the steps of the second part after the first. -/
instance : Monad (Strand ε σ τ ℓ) where
  pure := done
  bind := andThen

/-- A step that leaves no mark. -/
def plain (x : Traced ε σ τ α) : Strand ε σ τ ℓ α := step (fun _ ↦ none) x done

/-- A step that leaves a mark. -/
def marked (mark : ℓ) (x : Traced ε σ τ α) : Strand ε σ τ ℓ α := step (fun _ ↦ some mark) x done

/-- A step whose result decides about its mark. -/
def noting (mark : α → Option ℓ) (x : Traced ε σ τ α) : Strand ε σ τ ℓ α := step mark x done

/-- The strand has no step left. -/
def isDone : Strand ε σ τ ℓ α → Bool
  | done _ => true
  | step .. => false

/-- A strand without a result that has no step left. -/
theorem eq_done {u : Strand ε σ τ ℓ Unit} (h : u.isDone = true) : u = .done () := by
  cases u with
  | done a => rfl
  | step mark x k => cases h

/-- The computation that a strand cuts. -/
def flatten : Strand ε σ τ ℓ α → Traced ε σ τ α
  | done a => pure a
  | step _ x k => x >>= fun b ↦ (k b).flatten

@[simp] theorem flatten_pure (a : α) : (pure a : Strand ε σ τ ℓ α).flatten = pure a := rfl

@[simp] theorem flatten_plain (x : Traced ε σ τ α) :
    (plain x : Strand ε σ τ ℓ α).flatten = x :=
  bind_pure x

@[simp] theorem flatten_marked (mark : ℓ) (x : Traced ε σ τ α) : (marked mark x).flatten = x :=
  bind_pure x

@[simp] theorem flatten_noting (mark : α → Option ℓ) (x : Traced ε σ τ α) :
    (noting mark x).flatten = x :=
  bind_pure x

/-- A sequence of strands cuts the sequence of the computations. -/
@[simp] theorem flatten_bind (x : Strand ε σ τ ℓ α) (f : α → Strand ε σ τ ℓ β) :
    (x >>= f).flatten = x.flatten >>= fun a ↦ (f a).flatten := by
  change (x.andThen f).flatten = _
  induction x with
  | done a => rfl
  | step mark x k ih =>
    change (x >>= fun b ↦ ((k b).andThen f).flatten) =
      (x >>= fun b ↦ (k b).flatten) >>= fun a ↦ (f a).flatten
    rw [bind_assoc]
    exact congrArg (x >>= ·) (funext ih)

/-- Discarding the result of a strand. -/
@[simp] theorem flatten_discard (x : Strand ε σ τ ℓ α) :
    (discard x : Strand ε σ τ ℓ Unit).flatten = discard x.flatten :=
  flatten_bind x _

/-- The strand takes unmarked steps within `R` only, until it is one of `T`. Of the result of a
step, what holds of every run of it may be used. -/
inductive Until (R : σ → List τ → σ → Prop) (T : Strand ε σ τ ℓ α → Prop) :
    Strand ε σ τ ℓ α → Prop
  | here {u : Strand ε σ τ ℓ α} (h : T u) : Until R T u
  | plain {β : Type} {x : Traced ε σ τ β} {k : β → Strand ε σ τ ℓ α} {P : β → Prop}
      (hx : Traced.Admits R x) (hP : ∀ e s, P (x.run e s).value) (hk : ∀ b, P b → Until R T (k b)) :
      Until R T (step (fun _ ↦ none) x k)

section Until

variable {R : σ → List τ → σ → Prop} {T U : Strand ε σ τ ℓ α → Prop}

/-- What a strand comes to may be weakened. -/
theorem Until.imp {u : Strand ε σ τ ℓ α} (h : Until R T u) (hTU : ∀ u, T u → U u) :
    Until R U u := by
  induction h with
  | here h => exact .here (hTU _ h)
  | plain hx hP _ ih => exact .plain hx hP ih

/-- A plain step comes first. -/
theorem until_plain_bind {x : Traced ε σ τ β} {f : β → Strand ε σ τ ℓ α} (hx : Traced.Admits R x)
    (hf : ∀ b, Until R T (f b)) : Until R T (Strand.plain x >>= f) :=
  .plain (P := fun _ ↦ True) hx (fun _ _ ↦ trivial) fun b _ ↦ hf b

/-- A plain step with a known result comes first. -/
theorem until_plain_eq_bind {x : Traced ε σ τ β} {f : β → Strand ε σ τ ℓ α} {b : β}
    (hx : Traced.Admits R x) (hb : ∀ e s, (x.run e s).value = b) (hf : Until R T (f b)) :
    Until R T (Strand.plain x >>= f) :=
  .plain (P := (· = b)) hx hb fun _ h ↦ h ▸ hf

end Until

/-- The strand takes steps whose runs are within `R` and whose marks satisfy `M` only, until it is
one of `T`. -/
inductive Within (R : σ → List τ → σ → Prop) (M : ℓ → Prop) (T : Strand ε σ τ ℓ α → Prop) :
    Strand ε σ τ ℓ α → Prop
  | here {u : Strand ε σ τ ℓ α} (h : T u) : Within R M T u
  | step {β : Type} {mark : β → Option ℓ} {x : Traced ε σ τ β} {k : β → Strand ε σ τ ℓ α}
      (hx : ∀ e s, R s (x.run e s).trace (x.run e s).state) (hmark : ∀ b, ∀ l ∈ mark b, M l)
      (hk : ∀ b, Within R M T (k b)) : Within R M T (step mark x k)

section Within

variable {R : σ → List τ → σ → Prop} {M : ℓ → Prop} {T : Strand ε σ τ ℓ α → Prop}
  {U : Strand ε σ τ ℓ β → Prop}

/-- A strand comes to `T`, and what is left of a sequence from there on comes to `U`. -/
theorem Within.seq {u : Strand ε σ τ ℓ α} {f : α → Strand ε σ τ ℓ β} (h : Within R M T u)
    (hf : ∀ v, T v → Within R M U (v >>= f)) : Within R M U (u >>= f) := by
  induction h with
  | here h => exact hf _ h
  | step hx hmark _ ih => exact .step hx hmark ih

/-- What a strand comes to may be weakened. -/
theorem Within.imp {T' : Strand ε σ τ ℓ α → Prop} {u : Strand ε σ τ ℓ α} (h : Within R M T u)
    (hT : ∀ v, T v → T' v) : Within R M T' u := by
  induction h with
  | here h => exact .here (hT _ h)
  | step hx hmark _ ih => exact .step hx hmark ih

/-- The rule for sequences. -/
theorem Within.bind {u : Strand ε σ τ ℓ α} {f : α → Strand ε σ τ ℓ β}
    (h : Within R M (fun v ↦ ∃ a, v = .done a) u) (hf : ∀ a, Within R M U (f a)) :
    Within R M U (u >>= f) :=
  h.seq fun _ ⟨a, ha⟩ ↦ ha ▸ hf a

/-- Steps may be allowed more. -/
theorem Within.mono {R' : σ → List τ → σ → Prop} {M' : ℓ → Prop} {u : Strand ε σ τ ℓ α}
    (h : Within R M T u) (hR : ∀ s t s', R s t s' → R' s t s') (hM : ∀ l, M l → M' l) :
    Within R' M' T u := by
  induction h with
  | here h => exact .here h
  | step hx hmark _ ih =>
    exact .step (fun e s ↦ hR _ _ _ (hx e s)) (fun b l hl ↦ hM l (hmark b l hl)) ih

/-- A step without a mark comes first. -/
theorem within_plain_bind {x : Traced ε σ τ α} {f : α → Strand ε σ τ ℓ β}
    (hx : ∀ e s, R s (x.run e s).trace (x.run e s).state) (hf : ∀ a, Within R M U (f a)) :
    Within R M U (Strand.plain x >>= f) :=
  .step hx (fun _ _ hl ↦ nomatch hl) hf

/-- A step without a mark. -/
theorem within_plain {x : Traced ε σ τ α} (hx : ∀ e s, R s (x.run e s).trace (x.run e s).state) :
    Within R M (fun v ↦ ∃ a, v = .done a) (Strand.plain (ℓ := ℓ) x) :=
  .step hx (fun _ _ hl ↦ nomatch hl) fun a ↦ .here ⟨a, rfl⟩

/-- A step whose marks satisfy `M` comes first. -/
theorem within_noting_bind {mark : α → Option ℓ} {x : Traced ε σ τ α}
    {f : α → Strand ε σ τ ℓ β} (hx : ∀ e s, R s (x.run e s).trace (x.run e s).state)
    (hmark : ∀ a, ∀ l ∈ mark a, M l) (hf : ∀ a, Within R M U (f a)) :
    Within R M U (Strand.noting mark x >>= f) :=
  .step hx hmark hf

/-- A step whose mark satisfies `M` comes first. -/
theorem within_marked_bind {mark : ℓ} {x : Traced ε σ τ α} {f : α → Strand ε σ τ ℓ β}
    (hx : ∀ e s, R s (x.run e s).trace (x.run e s).state) (hmark : M mark)
    (hf : ∀ a, Within R M U (f a)) : Within R M U (Strand.marked mark x >>= f) :=
  .step hx (fun _ _ hl ↦ Option.some.inj hl ▸ hmark) hf

/-- Nothing is left to do. -/
theorem within_pure (a : α) :
    Within R M (fun v : Strand ε σ τ ℓ α ↦ ∃ a, v = .done a) (pure a) :=
  .here ⟨a, rfl⟩

/-- The result does not matter. -/
theorem Within.discard {u : Strand ε σ τ ℓ α} (h : Within R M (fun v ↦ ∃ a, v = .done a) u) :
    Within R M (fun v ↦ ∃ a, v = .done a) (Functor.discard u) :=
  h.bind fun _ ↦ within_pure _

end Within

end Strand

/-- Strands over a shared state, the marks they left and the actions they performed. -/
structure Pool (ι ε σ τ ℓ : Type) : Type 1 where
  state : σ
  strands : ι → Strand ε σ τ ℓ Unit
  log : List (ι × ℓ)
  trace : List τ

namespace Pool

variable {ι ε σ τ ℓ : Type} [DecidableEq ι]

/-- The pool after a step of the strand `i` that leads it to `u`. -/
def advance (c : Pool ι ε σ τ ℓ) (i : ι) (mark : Option ℓ) (s : σ) (t : List τ)
    (u : Strand ε σ τ ℓ Unit) : Pool ι ε σ τ ℓ where
  state := s
  strands := Function.update c.strands i u
  log := c.log ++ (mark.map fun l ↦ (i, l)).toList
  trace := c.trace ++ t

/-- The strand `m.1` takes a step, and the environment answers `m.2`. -/
def step (c : Pool ι ε σ τ ℓ) (m : ι × ε) : Option (Pool ι ε σ τ ℓ) :=
  match c.strands m.1 with
  | .done _ => none
  | .step mark x k =>
    let out := x.run m.2 c.state
    some (c.advance m.1 (mark out.value) out.state out.trace (k out.value))

omit [DecidableEq ι] in
/-- No strand has a step left. -/
def Finished (c : Pool ι ε σ τ ℓ) : Prop := ∀ i, (c.strands i).isDone = true

section Steps

variable {c c' : Pool ι ε σ τ ℓ} {m : ι × ε} {i j : ι} {mark : Option ℓ} {s : σ} {t : List τ}
  {u : Strand ε σ τ ℓ Unit}

@[simp] theorem advance_self : (c.advance i mark s t u).strands i = u := Function.update_self _ _ _

theorem advance_other (h : j ≠ i) : (c.advance i mark s t u).strands j = c.strands j :=
  Function.update_of_ne h _ _

@[simp] theorem advance_state : (c.advance i mark s t u).state = s := rfl

@[simp] theorem advance_trace : (c.advance i mark s t u).trace = c.trace ++ t := rfl

@[simp] theorem advance_log_none : (c.advance i none s t u).log = c.log := List.append_nil _

@[simp] theorem advance_log_some {l : ℓ} : (c.advance i (some l) s t u).log = c.log ++ [(i, l)] :=
  rfl

/-- What a step leads to. -/
theorem step_eq {β : Type} {mark : β → Option ℓ} {x : Traced ε σ τ β}
    {k : β → Strand ε σ τ ℓ Unit} (hstrand : c.strands m.1 = .step mark x k)
    (h : c.step m = some c') : c' = c.advance m.1 (mark (x.run m.2 c.state).value)
      (x.run m.2 c.state).state (x.run m.2 c.state).trace (k (x.run m.2 c.state).value) := by
  unfold step at h
  rw [hstrand] at h
  exact (Option.some.inj h).symm

/-- A strand that is done takes no step. -/
theorem step_done (hstrand : c.strands m.1 = .done ()) : c.step m = none := by
  unfold step
  rw [hstrand]

/-- A step of a strand leaves the others where they are. -/
theorem step_other (h : c.step m = some c') (hj : j ≠ m.1) : c'.strands j = c.strands j := by
  cases hstrand : c.strands m.1 with
  | done a =>
    rw [step_done hstrand] at h
    cases h
  | step mark x k =>
    rw [step_eq hstrand h]
    exact advance_other hj

/-- A step towards `T`: it is silent and within `R`. -/
theorem step_until {R : σ → List τ → σ → Prop} [Traced.Composable R]
    {T : Strand ε σ τ ℓ Unit → Prop} (hstrand : Strand.Until R T (c.strands m.1))
    (h : c.step m = some c') (hT : ¬ T (c.strands m.1)) :
    Strand.Until R T (c'.strands m.1) ∧ c'.log = c.log ∧
      ∃ t, R c.state t c'.state ∧ c'.trace = c.trace ++ t := by
  generalize hu : c.strands m.1 = u at hstrand hT
  cases hstrand with
  | here h => exact absurd h hT
  | plain hx hP hk =>
    rw [step_eq hu h, advance_self, advance_log_none]
    exact ⟨hk _ (hP m.2 c.state), rfl, _, hx.run m.2 c.state, rfl⟩

/-- A step within `R` whose marks satisfy `M`, towards `T`. -/
theorem step_within {R : σ → List τ → σ → Prop} {M : ℓ → Prop}
    {T : Strand ε σ τ ℓ Unit → Prop} (hstrand : Strand.Within R M T (c.strands m.1))
    (h : c.step m = some c') (hT : ¬ T (c.strands m.1)) :
    Strand.Within R M T (c'.strands m.1) ∧ (∃ t, R c.state t c'.state) ∧
      ∃ marks, c'.log = c.log ++ marks ∧ ∀ x ∈ marks, x.1 = m.1 ∧ M x.2 := by
  generalize hu : c.strands m.1 = u at hstrand hT
  cases hstrand with
  | here h => exact absurd h hT
  | step hx hmark hk =>
    rw [step_eq hu h, advance_self]
    refine ⟨hk _, ⟨_, hx m.2 c.state⟩, _, rfl, fun x hx ↦ ?_⟩
    obtain ⟨l, hl, rfl⟩ := Option.map_eq_some_iff.mp (Option.mem_toList.mp hx)
    exact ⟨rfl, hmark _ l hl⟩

/-- A step adds at most one entry to the log. -/
theorem step_log (h : c.step m = some c') :
    c'.log = c.log ∨ ∃ l : ℓ, c'.log = c.log ++ [(m.1, l)] := by
  cases hstrand : c.strands m.1 with
  | done a =>
    rw [step_done hstrand] at h
    cases h
  | step mark x k =>
    rw [step_eq hstrand h]
    cases mark (x.run m.2 c.state).value with
    | none => exact Or.inl advance_log_none
    | some l => exact Or.inr ⟨l, rfl⟩

/-- Every entry of the log was the last one when it was made. -/
theorem exists_last {ms : List (ι × ε)} (run : ms.foldlM step c = some c') {x : ι × ℓ}
    (hx : x ∈ c'.log) (hc : x ∉ c.log) : ∃ js u, js <+: ms ∧ js.foldlM step c = some u ∧
      u.log.getLast? = some x := by
  have path := Path.of_foldlM run
  clear run
  induction path with
  | nil => exact absurd hx hc
  | @snoc ms u v m first _ hs ih =>
    by_cases hu : x ∈ u.log
    · obtain ⟨js, w, hjs, hw, hlast⟩ := ih hu
      exact ⟨js, w, hjs.trans (List.prefix_append _ _), hw, hlast⟩
    · refine ⟨ms ++ [m], v, List.prefix_rfl, (first.snoc trivial hs).foldlM_eq, ?_⟩
      rcases step_log hs with hlog | ⟨l, hlog⟩
      · rw [hlog] at hx
        exact absurd hx hu
      · rw [hlog] at hx ⊢
        rcases List.mem_append.mp hx with hx | hx
        · exact absurd hx hu
        · rw [List.getLast?_concat, List.mem_singleton.mp hx]

/-- The log only grows. -/
theorem log_prefix {ms : List (ι × ε)} (run : ms.foldlM step c = some c') : c.log <+: c'.log := by
  refine (Path.of_foldlM run).invariant (I := fun u ↦ c.log <+: u.log) List.prefix_rfl ?_
  intro u m v hu _ hs
  rcases step_log hs with hlog | ⟨l, hlog⟩
  · rwa [hlog]
  · rw [hlog]
    exact hu.trans (List.prefix_append _ _)

end Steps

end Pool
end PacketDial.Lib
