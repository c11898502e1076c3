import Mathlib.Data.List.Induction

/-!
# Paths of a partial transition function

`Path step C s is t`: from `s` the inputs `is`, taken in order, lead to `t`, and every input
met `C` in the state it was applied to. Invariants are proved of one step and transported
along paths here, once.
-/

namespace PacketDial.Lib

universe u v

variable {σ : Type u} {ι : Type v}

/-- A run of `step` whose inputs all meet `C` where they are applied. -/
inductive Path (step : σ → ι → Option σ) (C : σ → ι → Prop) (s : σ) : List ι → σ → Prop where
  | nil : Path step C s [] s
  | snoc {is : List ι} {t u : σ} {i : ι} : Path step C s is t → C t i → step t i = some u →
      Path step C s (is ++ [i]) u

namespace Path

variable {step : σ → ι → Option σ} {C D : σ → ι → Prop} {s t : σ} {is : List ι}

/-- The run lemma: an invariant of the steps that meet `C` holds wherever a path leads. -/
theorem invariant {I : σ → Prop} (path : Path step C s is t) (h0 : I s)
    (hstep : ∀ u i v, I u → C u i → step u i = some v → I v) : I t := by
  induction path with
  | nil => exact h0
  | snoc _ hC hs ih => exact hstep _ _ _ ih hC hs

/-- A path goes on with one more input. -/
theorem next {u : σ} (path : Path step C s is t) (i : ι) (hC : C t i) (hs : step t i = some u) :
    Path step C s (is ++ [i]) u := path.snoc hC hs

/-- A path may forget part of what its steps meet. -/
theorem imp (path : Path step C s is t) (h : ∀ u i, C u i → D u i) : Path step D s is t := by
  induction path with
  | nil => exact nil
  | snoc _ hC hs ih => exact ih.snoc (h _ _ hC) hs

/-- Paths compose. -/
theorem trans {u : σ} {js : List ι} (first : Path step C s is t) (second : Path step C t js u) :
    Path step C s (is ++ js) u := by
  induction second with
  | nil => simpa using first
  | snoc _ hC hs ih =>
    rw [← List.append_assoc]
    exact ih.snoc hC hs

/-- Running the step function, each input checked first, is a path. -/
theorem of_guarded [∀ u i, Decidable (C u i)]
    (h : is.foldlM (fun u i ↦ if C u i then step u i else none) s = some t) :
    Path step C s is t := by
  induction is using List.reverseRecOn generalizing t with
  | nil =>
    cases h
    exact nil
  | append_singleton is i ih =>
    rw [List.foldlM_append] at h
    cases hm : is.foldlM (fun u i ↦ if C u i then step u i else none) s with
    | none => simp [hm] at h
    | some u =>
      have hu : (if C u i then step u i else none) = some t := by simpa [hm] using h
      split at hu
      · next hC => exact (ih hm).snoc hC hu
      · cases hu

/-- Running the step function over a list of inputs is a path. -/
theorem of_foldlM (h : is.foldlM step s = some t) : Path step (fun _ _ ↦ True) s is t := by
  apply of_guarded
  simpa using h

/-- Running the step function over inputs that all meet a condition is a path. -/
theorem of_forall {P : ι → Prop} (h : is.foldlM step s = some t) (hP : ∀ i ∈ is, P i) :
    Path step (fun _ i ↦ P i) s is t := by
  have path := of_foldlM h
  clear h
  induction path with
  | nil => exact nil
  | snoc _ _ hs ih =>
    obtain ⟨his, hi⟩ := List.forall_mem_append.mp hP
    exact (ih his).snoc (hi _ (List.mem_singleton_self _)) hs

/-- A path leads where its step function does. -/
theorem foldlM_eq (path : Path step C s is t) : is.foldlM step s = some t := by
  induction path with
  | nil => rfl
  | snoc _ _ hs ih => simp [List.foldlM_append, ih, hs]

/-- A path runs through the states of its prefixes. -/
theorem of_prefix {js : List ι} {u : σ} (path : Path step C s is t) (hjs : js <+: is)
    (run : js.foldlM step s = some u) : Path step C s js u := by
  induction path with
  | nil =>
    rw [List.prefix_nil.mp hjs] at run ⊢
    cases run
    exact nil
  | snoc first hC hs ih =>
    rcases List.prefix_concat_iff.mp hjs with rfl | hjs
    · have path := first.snoc hC hs
      have heq := path.foldlM_eq
      rw [run] at heq
      cases heq
      exact path
    · exact ih hjs

/-- A run is a path just if each of its inputs meets `C` where it is applied. -/
theorem iff_forall (run : is.foldlM step s = some t) : Path step C s is t ↔
    ∀ js i u, js ++ [i] <+: is → js.foldlM step s = some u → C u i := by
  constructor
  · intro path
    induction path with
    | nil =>
      intro js i u hjs
      simp at hjs
    | @snoc is t v j first hC hs ih =>
      intro js i u hjs hrun
      rcases List.prefix_concat_iff.mp hjs with heq | hjs
      · obtain ⟨rfl, hij⟩ := List.append_inj' heq rfl
        cases hij
        cases first.foldlM_eq.symm.trans hrun
        exact hC
      · exact ih first.foldlM_eq js i u hjs hrun
  · intro h
    have path := of_foldlM run
    clear run
    induction path with
    | nil => exact nil
    | @snoc is t v i first _ hs ih =>
      have hpre : is <+: is ++ [i] := List.prefix_append is [i]
      refine (ih fun js j u hjs ↦ h js j u (hjs.trans hpre)).snoc ?_ hs
      exact h is i t List.prefix_rfl first.foldlM_eq

/-- Where a step keeps an invariant just if it meets `C`, the runs that never leave the
invariant are the paths. -/
theorem iff_always {I : σ → Prop} (h0 : I s)
    (hiff : ∀ u i v, I u → step u i = some v → (I v ↔ C u i)) (run : is.foldlM step s = some t) :
    Path step C s is t ↔ ∀ js u, js <+: is → js.foldlM step s = some u → I u := by
  constructor
  · intro path js u hjs run
    exact (path.of_prefix hjs run).invariant h0 fun u i v hu hC hs ↦ (hiff u i v hu hs).mpr hC
  · intro always
    have path := of_foldlM run
    clear run
    induction path with
    | nil => exact nil
    | @snoc is t u i first _ hs ih =>
      have hpre : is <+: is ++ [i] := List.prefix_append is [i]
      have ht := always is t hpre first.foldlM_eq
      have hu := always (is ++ [i]) u List.prefix_rfl (first.snoc trivial hs).foldlM_eq
      refine (ih fun js u hjs ↦ always js u (hjs.trans hpre)).snoc ?_ hs
      exact (hiff t i u ht hs).mp hu

/-- The same with an invariant `K` of all steps, under which a step keeps `I` just if it meets
`C`. -/
theorem iff_always_kept {K I : σ → Prop} (hK0 : K s) (h0 : I s)
    (hK : ∀ u i v, K u → step u i = some v → K v)
    (hiff : ∀ u i v, K u → I u → step u i = some v → (I v ↔ C u i))
    (run : is.foldlM step s = some t) :
    Path step C s is t ↔ ∀ js u, js <+: is → js.foldlM step s = some u → I u := by
  have hboth (u : σ) (i : ι) (v : σ) (h : K u ∧ I u) (hs : step u i = some v) :
      K v ∧ I v ↔ C u i := (and_iff_right (hK u i v h.1 hs)).trans (hiff u i v h.1 h.2 hs)
  rw [iff_always (I := fun u ↦ K u ∧ I u) ⟨hK0, h0⟩ hboth run]
  constructor
  · exact fun always js u hjs hrun ↦ (always js u hjs hrun).2
  · intro always js u hjs hrun
    have kept : K u := (of_foldlM hrun).invariant hK0 fun u i v h _ hs ↦ hK u i v h hs
    exact ⟨kept, always js u hjs hrun⟩

end Path

/-- Where a step that never fails keeps an invariant just if its input meets `C`, the runs that
never leave the invariant are those whose inputs all meet `C`. -/
theorem foldl_always_iff {step : σ → ι → σ} {I : σ → Prop} {C : ι → Prop}
    (hiff : ∀ s i, I s → (I (step s i) ↔ C i)) (is : List ι) {s : σ} (h0 : I s) :
    (∀ js, js <+: is → I (js.foldl step s)) ↔ ∀ i ∈ is, C i := by
  induction is generalizing s with
  | nil =>
    apply iff_of_true
    · intro js hjs
      rw [List.prefix_nil.mp hjs]
      exact h0
    · exact List.forall_mem_nil C
  | cons i is ih =>
    rw [List.forall_mem_cons]
    constructor
    · intro always
      have hi : I (step s i) := always [i] (List.prefix_append [i] is)
      refine ⟨(hiff s i h0).mp hi, (ih hi).mp fun js hjs ↦ ?_⟩
      exact always (i :: js) (List.cons_prefix_cons.mpr ⟨rfl, hjs⟩)
    · rintro ⟨hi, his⟩ js hjs
      cases js with
      | nil => exact h0
      | cons j js =>
        obtain ⟨rfl, hrest⟩ := List.cons_prefix_cons.mp hjs
        exact (ih ((hiff s j h0).mpr hi)).mpr his js hrest

section Somewhere

variable {σ : Type u} {ι : Type v} {step : σ → ι → Option σ} {C P : σ → ι → Prop} {s t : σ}
  {is : List ι} {i : ι}

/-- Some input of a run from `s` meets `P` where it is applied. -/
def Somewhere (step : σ → ι → Option σ) (P : σ → ι → Prop) (s : σ) (is : List ι) : Prop :=
  ∃ js i t, js ++ [i] <+: is ∧ js.foldlM step s = some t ∧ P t i

/-- Nothing is met in no steps. -/
theorem not_somewhere_nil : ¬Somewhere step P s [] := by
  rintro ⟨js, i, t, hpre, -, -⟩
  simp at hpre

/-- What is met with one step more is met before or in that step. -/
theorem somewhere_snoc (path : Path step C s is t) :
    Somewhere step P s (is ++ [i]) ↔ Somewhere step P s is ∨ P t i := by
  constructor
  · rintro ⟨js, j, u, hpre, hrun, hP⟩
    rcases List.prefix_concat_iff.mp hpre with heq | hpre
    · obtain ⟨rfl, hji⟩ := List.append_inj' heq rfl
      cases hji
      cases path.foldlM_eq.symm.trans hrun
      exact Or.inr hP
    · exact Or.inl ⟨js, j, u, hpre, hrun, hP⟩
  · rintro (⟨js, j, u, hpre, hrun, hP⟩ | hP)
    · exact ⟨js, j, u, hpre.trans (List.prefix_append is [i]), hrun, hP⟩
    · exact ⟨is, i, t, List.prefix_rfl, path.foldlM_eq, hP⟩

end Somewhere

end PacketDial.Lib
