import Mathlib.Data.List.Basic
import Mathlib.Data.List.Induction
import Mathlib.Data.List.Nodup

/-!
# Saves that overlap

A list in memory is saved to a file by every addition: some time after it a snapshot of the list
is encoded, and some time after that the write of the snapshot is complete. Saves do not wait for
each other, so the writes can complete in any order, and the file keeps what was written last.
-/

namespace PacketDial.Lib

variable {α φ : Type}

/-- How far a save has come. -/
inductive SaveStage (φ : Type) where
  | waiting
  | writing (content : φ)
  | done
  deriving DecidableEq

/-- The list in memory, the file, and the saves in the order in which they began. -/
structure Saver (α φ : Type) where
  memory : List α
  file : φ
  saves : List (SaveStage φ)
  deriving DecidableEq

/-- What happens: an entry is added and its save begins, the save numbered `i` takes its snapshot,
or its write is complete. -/
inductive SaveAct (α : Type) where
  | save (entry : α)
  | encode (i : Nat)
  | complete (i : Nat)

/-- The file is what is in memory, and nothing is being saved. -/
def Saver.initial (encode : List α → φ) (memory : List α) : Saver α φ := ⟨memory, encode memory, []⟩

/-- One step. -/
def Saver.step (encode : List α → φ) (t : Saver α φ) : SaveAct α → Option (Saver α φ)
  | .save entry =>
    some { t with memory := t.memory ++ [entry], saves := t.saves ++ [.waiting] }
  | .encode i =>
    match t.saves[i]? with
    | some .waiting => some { t with saves := t.saves.set i (.writing (encode t.memory)) }
    | _ => none
  | .complete i =>
    match t.saves[i]? with
    | some (.writing content) => some { t with file := content, saves := t.saves.set i .done }
    | _ => none

/-- Every save has completed. -/
def Saver.Settled (t : Saver α φ) : Prop := ∀ stage ∈ t.saves, stage = .done

instance [DecidableEq φ] (t : Saver α φ) : Decidable t.Settled :=
  inferInstanceAs (Decidable (∀ stage ∈ t.saves, _))

/-- The entries that were added. -/
def saved (acts : List (SaveAct α)) : List α :=
  acts.filterMap fun
    | .save entry => some entry
    | _ => none

/-- The saves that took their snapshot. -/
def encoded (acts : List (SaveAct α)) : List Nat :=
  acts.filterMap fun
    | .encode i => some i
    | _ => none

/-- The saves whose writes are complete, in the order of completion. -/
def completed (acts : List (SaveAct α)) : List Nat :=
  acts.filterMap fun
    | .complete i => some i
    | _ => none

/-- Nothing is added after the snapshot of the save that completed last. -/
def LastIsFresh (acts : List (SaveAct α)) : Prop :=
  ∃ i before after, (completed acts).getLast? = some i ∧ acts = before ++ .encode i :: after ∧
    saved after = []

section Histories

variable (acts : List (SaveAct α))

@[simp] theorem saved_append (acts' : List (SaveAct α)) :
    saved (acts ++ acts') = saved acts ++ saved acts' := List.filterMap_append

@[simp] theorem encoded_append (acts' : List (SaveAct α)) :
    encoded (acts ++ acts') = encoded acts ++ encoded acts' := List.filterMap_append

@[simp] theorem completed_append (acts' : List (SaveAct α)) :
    completed (acts ++ acts') = completed acts ++ completed acts' := List.filterMap_append

@[simp] theorem saved_save (entry : α) : saved [.save entry] = [entry] := rfl
@[simp] theorem saved_encode (i : Nat) : saved ([.encode i] : List (SaveAct α)) = [] := rfl
@[simp] theorem saved_complete (i : Nat) : saved ([.complete i] : List (SaveAct α)) = [] := rfl
@[simp] theorem encoded_save (entry : α) : encoded [.save entry] = [] := rfl
@[simp] theorem encoded_encode (i : Nat) : encoded ([.encode i] : List (SaveAct α)) = [i] := rfl
@[simp] theorem encoded_complete (i : Nat) : encoded ([.complete i] : List (SaveAct α)) = [] := rfl
@[simp] theorem completed_save (entry : α) : completed [.save entry] = [] := rfl
@[simp] theorem completed_encode (i : Nat) : completed ([.encode i] : List (SaveAct α)) = [] := rfl
@[simp] theorem completed_complete (i : Nat) :
    completed ([.complete i] : List (SaveAct α)) = [i] := rfl

variable {acts}

/-- A snapshot is counted where it was taken. -/
theorem mem_encoded {i : Nat} : i ∈ encoded acts ↔ .encode i ∈ acts := by
  unfold encoded
  rw [List.mem_filterMap]
  constructor
  · rintro ⟨act, hmem, hact⟩
    cases act with
    | encode j =>
      cases hact
      exact hmem
    | _ => cases hact
  · exact fun h ↦ ⟨_, h, rfl⟩

/-- Where no save takes two snapshots, the history splits at a snapshot in one way. -/
theorem before_unique (hnodup : (encoded acts).Nodup) {i : Nat}
    {before after before' after' : List (SaveAct α)} (h : acts = before ++ .encode i :: after)
    (h' : acts = before' ++ .encode i :: after') : before = before' ∧ after = after' := by
  have hsplit : encoded acts = encoded before ++ i :: encoded after := by
    rw [h, ← List.singleton_append, encoded_append, encoded_append]
    rfl
  rw [hsplit, List.nodup_middle, List.nodup_cons, List.mem_append, not_or] at hnodup
  obtain ⟨⟨hbefore, hafter⟩, -⟩ := hnodup
  rw [mem_encoded] at hbefore hafter
  have heq := h.symm.trans h'
  rw [List.append_cons_inj_of_notMem hbefore hafter] at heq
  exact ⟨heq.1, heq.2.2⟩

end Histories

/-- What the history `acts` says about the state `t` it led to from `memory`. -/
structure Saver.Follows (encode : List α → φ) (memory : List α) (acts : List (SaveAct α))
    (t : Saver α φ) : Prop where
  memory_eq : t.memory = memory ++ saved acts
  length_eq : t.saves.length = (saved acts).length
  nodup : (encoded acts).Nodup
  begun : ∀ i ∈ encoded acts, ∃ stage, t.saves[i]? = some stage ∧ stage ≠ .waiting
  taken : ∀ i content, t.saves[i]? = some (.writing content) →
    ∃ before after, acts = before ++ .encode i :: after ∧ content = encode (memory ++ saved before)
  completed_of_done : ∀ i, t.saves[i]? = some .done → i ∈ completed acts
  written : (completed acts = [] ∧ t.file = encode memory) ∨
    ∃ i before after, (completed acts).getLast? = some i ∧ acts = before ++ .encode i :: after ∧
      t.file = encode (memory ++ saved before)

namespace Saver.Follows

variable {encode : List α → φ} {memory : List α} {acts : List (SaveAct α)} {t t' : Saver α φ}

/-- A snapshot stays in the history. -/
theorem earlier {i : Nat} {content : φ} (h : ∃ before after, acts = before ++ .encode i :: after ∧
    content = encode (memory ++ saved before)) (act : SaveAct α) :
    ∃ before after, acts ++ [act] = before ++ .encode i :: after ∧
      content = encode (memory ++ saved before) := by
  obtain ⟨before, after, rfl, hcontent⟩ := h
  exact ⟨before, after ++ [act], by simp, hcontent⟩

/-- An act that completes no write leaves the file as it is. -/
theorem still_written (h : Follows encode memory acts t) {act : SaveAct α}
    (hact : completed [act] = []) :
    (completed (acts ++ [act]) = [] ∧ t.file = encode memory) ∨
      ∃ i before after, (completed (acts ++ [act])).getLast? = some i ∧
        acts ++ [act] = before ++ .encode i :: after ∧
        t.file = encode (memory ++ saved before) := by
  rw [completed_append, hact, List.append_nil]
  rcases h.written with h | ⟨i, before, after, hlast, hsplit, hfile⟩
  · exact Or.inl h
  · obtain ⟨before', after', hsplit', hfile'⟩ := earlier ⟨before, after, hsplit, hfile⟩ act
    exact Or.inr ⟨i, before', after', hlast, hsplit', hfile'⟩

/-- An entry is added. -/
theorem of_save (h : Follows encode memory acts t) (entry : α) :
    Follows encode memory (acts ++ [.save entry])
      { t with memory := t.memory ++ [entry], saves := t.saves ++ [.waiting] } := by
  have old {i : Nat} {stage : SaveStage φ} (hne : stage ≠ .waiting)
      (hi : (t.saves ++ [.waiting])[i]? = some stage) : t.saves[i]? = some stage := by
    rw [List.getElem?_append] at hi
    split_ifs at hi with hlt
    · exact hi
    · have hmem := List.mem_of_getElem? hi
      exact absurd (List.mem_singleton.mp hmem) hne
  constructor
  · rw [h.memory_eq, saved_append, saved_save, List.append_assoc]
  · simp [h.length_eq]
  · simpa using h.nodup
  · intro i hi
    rw [encoded_append, encoded_save, List.append_nil] at hi
    obtain ⟨stage, hstage, hne⟩ := h.begun i hi
    have hlt : i < t.saves.length := (List.getElem?_eq_some_iff.mp hstage).1
    exact ⟨stage, (List.getElem?_append_left hlt).trans hstage, hne⟩
  · intro i content hi
    exact earlier (h.taken i content (old (by simp) hi)) _
  · intro i hi
    rw [completed_append]
    exact List.mem_append_left _ (h.completed_of_done i (old (by simp) hi))
  · exact h.still_written rfl

/-- A snapshot is taken. -/
theorem of_encode (h : Follows encode memory acts t) {i : Nat} (hi : t.saves[i]? = some .waiting) :
    Follows encode memory (acts ++ [.encode i])
      { t with saves := t.saves.set i (.writing (encode t.memory)) } := by
  have hlt : i < t.saves.length := (List.getElem?_eq_some_iff.mp hi).1
  have hnot : i ∉ encoded acts := by
    intro hmem
    obtain ⟨stage, hstage, hne⟩ := h.begun i hmem
    exact hne (Option.some.inj (hstage.symm.trans hi))
  constructor
  · rw [saved_append, saved_encode, List.append_nil]
    exact h.memory_eq
  · rw [List.length_set, saved_append, saved_encode, List.append_nil]
    exact h.length_eq
  · rw [encoded_append, encoded_encode, List.nodup_append]
    refine ⟨h.nodup, List.nodup_singleton i, fun j hj k hk hjk ↦ hnot ?_⟩
    rwa [← List.mem_singleton.mp hk, ← hjk]
  · intro j hj
    by_cases hji : i = j
    · exact ⟨_, by rw [hji, List.getElem?_set_self (hji ▸ hlt)], by simp⟩
    · rw [encoded_append, encoded_encode, List.mem_append, List.mem_singleton] at hj
      obtain ⟨stage, hstage, hne⟩ := h.begun j (hj.resolve_right fun heq ↦ hji heq.symm)
      exact ⟨stage, by rw [List.getElem?_set_ne hji, hstage], hne⟩
  · intro j content hj
    by_cases hji : i = j
    · rw [hji, List.getElem?_set_self (hji ▸ hlt)] at hj
      cases hj
      exact ⟨acts, [], by rw [hji], by rw [h.memory_eq]⟩
    · rw [List.getElem?_set_ne hji] at hj
      exact earlier (h.taken j content hj) _
  · intro j hj
    by_cases hji : i = j
    · rw [hji, List.getElem?_set_self (hji ▸ hlt)] at hj
      cases hj
    · rw [List.getElem?_set_ne hji] at hj
      rw [completed_append]
      exact List.mem_append_left _ (h.completed_of_done j hj)
  · exact h.still_written rfl

/-- A write is complete. -/
theorem of_complete (h : Follows encode memory acts t) {i : Nat} {content : φ}
    (hi : t.saves[i]? = some (.writing content)) :
    Follows encode memory (acts ++ [.complete i])
      { t with file := content, saves := t.saves.set i .done } := by
  have hlt : i < t.saves.length := (List.getElem?_eq_some_iff.mp hi).1
  constructor
  · rw [saved_append, saved_complete, List.append_nil]
    exact h.memory_eq
  · rw [List.length_set, saved_append, saved_complete, List.append_nil]
    exact h.length_eq
  · simpa using h.nodup
  · intro j hj
    by_cases hji : i = j
    · exact ⟨_, by rw [hji, List.getElem?_set_self (hji ▸ hlt)], by simp⟩
    · rw [encoded_append, encoded_complete, List.append_nil] at hj
      obtain ⟨stage, hstage, hne⟩ := h.begun j hj
      exact ⟨stage, by rw [List.getElem?_set_ne hji, hstage], hne⟩
  · intro j content' hj
    by_cases hji : i = j
    · rw [hji, List.getElem?_set_self (hji ▸ hlt)] at hj
      cases hj
    · rw [List.getElem?_set_ne hji] at hj
      exact earlier (h.taken j content' hj) _
  · intro j hj
    rw [completed_append, completed_complete, List.mem_append, List.mem_singleton]
    by_cases hji : i = j
    · exact Or.inr hji.symm
    · rw [List.getElem?_set_ne hji] at hj
      exact Or.inl (h.completed_of_done j hj)
  · obtain ⟨before, after, hsplit, hcontent⟩ := earlier (h.taken i content hi) (.complete i)
    refine Or.inr ⟨i, before, after, ?_, hsplit, hcontent⟩
    rw [completed_append, completed_complete, List.getLast?_concat]

/-- The step lemma. -/
theorem step {act : SaveAct α} (h : Follows encode memory acts t)
    (hs : Saver.step encode t act = some t') : Follows encode memory (acts ++ [act]) t' := by
  cases act with
  | save entry =>
    cases hs
    exact h.of_save entry
  | encode i =>
    unfold Saver.step at hs
    dsimp only at hs
    split at hs
    · next hi =>
      cases hs
      exact h.of_encode hi
    · cases hs
  | complete i =>
    unfold Saver.step at hs
    dsimp only at hs
    split at hs
    · next content hi =>
      cases hs
      exact h.of_complete hi
    · cases hs

end Saver.Follows

section Runs

variable {encode : List α → φ} {memory : List α} {acts : List (SaveAct α)} {t : Saver α φ}

/-- The run lemma. -/
theorem Saver.follows_of_run
    (run : acts.foldlM (Saver.step encode) (Saver.initial encode memory) = some t) :
    Saver.Follows encode memory acts t := by
  induction acts using List.reverseRecOn generalizing t with
  | nil =>
    cases run
    exact
      { memory_eq := (List.append_nil _).symm
        length_eq := rfl
        nodup := List.nodup_nil
        begun := fun _ hi ↦ by cases hi
        taken := fun _ _ hi ↦ by cases hi
        completed_of_done := fun _ hi ↦ by cases hi
        written := Or.inl ⟨rfl, rfl⟩ }
  | append_singleton acts act ih =>
    rw [List.foldlM_append] at run
    obtain ⟨u, hu, hs⟩ := Option.bind_eq_some_iff.mp run
    have hstep : Saver.step encode u act = some t := by simpa using hs
    exact (ih hu).step hstep

/-- The file is always a snapshot. -/
theorem Saver.file_of_run
    (run : acts.foldlM (Saver.step encode) (Saver.initial encode memory) = some t) :
    ∃ snapshot, t.file = encode snapshot := by
  rcases (Saver.follows_of_run run).written with ⟨-, hfile⟩ | ⟨_, before, _, -, -, hfile⟩
  · exact ⟨memory, hfile⟩
  · exact ⟨memory ++ saved before, hfile⟩

/-- Once every save has completed, the file is what is in memory if and only if nothing was saved,
or nothing was added after the snapshot of the save that completed last. -/
theorem Saver.file_eq_iff (hinj : Function.Injective encode)
    (run : acts.foldlM (Saver.step encode) (Saver.initial encode memory) = some t)
    (hdone : t.Settled) :
    t.file = encode t.memory ↔ saved acts = [] ∨ LastIsFresh acts := by
  have h := Saver.follows_of_run run
  rcases h.written with ⟨hnone, hfile⟩ | ⟨i, before, after, hlast, hsplit, hfile⟩
  · have hsaves : t.saves = [] := by
      by_contra hne
      have hstage : t.saves[0]? = some .done := by
        obtain ⟨stage, saves, hcons⟩ := List.exists_cons_of_ne_nil hne
        have hdone := hdone stage (by simp [hcons])
        rw [hcons, hdone]
        rfl
      have hmem := h.completed_of_done 0 hstage
      rw [hnone] at hmem
      cases hmem
    have hsaved : saved acts = [] := by
      rw [← List.length_eq_zero_iff, ← h.length_eq, hsaves]
      rfl
    rw [hfile, h.memory_eq, hsaved, List.append_nil]
    simp
  · have hsaved : saved acts = saved before ++ saved after := by
      rw [hsplit, ← List.singleton_append, saved_append, saved_append]
      rfl
    rw [hfile, h.memory_eq, hinj.eq_iff, List.append_cancel_left_eq, hsaved,
      List.self_eq_append_right]
    constructor
    · exact fun hafter ↦ Or.inr ⟨i, before, after, hlast, hsplit, hafter⟩
    · rintro (hnil | ⟨j, before', after', hlast', hsplit', hafter⟩)
      · exact (List.append_eq_nil_iff.mp hnil).2
      · rw [hlast] at hlast'
        cases hlast'
        rw [(before_unique h.nodup hsplit hsplit').2]
        exact hafter

end Runs

end PacketDial.Lib
