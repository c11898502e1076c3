import PacketDial.System.Hold

/-!
# Call timers

`last_resumed_at` is meant to be there just while a call is in the state `InCall`. A late ringing
report takes a call out of that state past its timer, and an active media callback can take one
in or out; without these two a record is `Timed` in every run.
-/

namespace PacketDial.System

open PacketDial.Core PacketDial.Lib

/-- The timer of a record runs just while its call is in the state `InCall`. -/
def Timed (call : Call) : Prop := call.lastResumedAt.isSome = true ↔ call.state = .inCall

/-- The record that a PJSIP id is routed to. -/
def routedCall (s : Engine) (pjCallId : Int) : Option Call :=
  (s.pjsipCallMap.lookup pjCallId).bind s.calls.lookup

/-- The record that an input reports as ringing. -/
def ringingCall (i : Input) (s : Engine) : Option Call :=
  match i.op with
  | .onCallState pjCallId invState =>
    if invCallState invState = some .ringing then routedCall s pjCallId else none
  | _ => none

/-- The record whose media an input reports as active. -/
def activeCall (i : Input) (s : Engine) : Option Call :=
  match i.op with
  | .onCallMedia pjCallId active => if active ≠ 0 then routedCall s pjCallId else none
  | _ => none

/-- No call in the state `InCall` is reported as ringing, and the calls whose media is reported
as active are in that state just if they are off hold. -/
def KeepsTimers (s : Engine) (i : Input) : Prop :=
  (∀ call ∈ ringingCall i s, call.state ≠ .inCall) ∧
    ∀ call ∈ activeCall i s, call.onHold = false ↔ call.state = .inCall

instance (s : Engine) (i : Input) : Decidable (KeepsTimers s i) :=
  inferInstanceAs (Decidable (_ ∧ _))

section Records

variable {old new : Call}

/-- Closing the talk time stops the timer. -/
@[simp] theorem settled_lastResumedAt (now : Nat) (call : Call) :
    (settled now call).lastResumedAt = none := by
  unfold settled
  cases h : call.lastResumedAt <;> simp [h]

/-- A new call has no timer. -/
theorem timed_newCall (id : UInt32) (accountId uri : String) (direction : CallDirection)
    (pjCallId : Int) : Timed (newCall id accountId uri direction pjCallId) := by
  simp [Timed, newCall]

/-- A record that was amended keeps its timer and its state. -/
theorem Amended.timed_iff (h : Amended old new) : Timed new ↔ Timed old := by
  rw [h]
  rfl

/-- A hold command sets the state and the timer together. -/
theorem timed_heldRecord (hold : Bool) (now : Nat) (call : Call) :
    Timed (heldRecord hold now call) := by
  cases hold with
  | true => simp [Timed, heldRecord]
  | false => simp [Timed, heldRecord]

/-- A state callback keeps the timer in step unless it takes a running call back to ringing. -/
theorem timed_stateRecord_iff {newState : CallState} (h : Timed old) (now : Nat)
    (hstate : newState ≠ .onHold) :
    Timed (stateRecord newState now old) ↔ (newState = .ringing → old.state ≠ .inCall) := by
  unfold Timed at h ⊢
  unfold stateRecord
  by_cases hold : old.state = .inCall
  · cases newState <;> simp_all
  · cases newState <;> simp_all

/-- A media callback keeps the timer in step if it takes a call into `InCall` that was there and
out of it one that was not. -/
theorem timed_mediaRecord_iff {active : Int} (h : Timed old) (now : Nat) :
    Timed (mediaRecord active now old) ↔
      (active ≠ 0 → (old.onHold = false ↔ old.state = .inCall)) := by
  unfold Timed at h ⊢
  unfold mediaRecord
  by_cases hactive : active = 0
  · simp [hactive]
  · cases honHold : old.onHold <;> simp [hactive, h]

/-- The recording functions find every record again. -/
theorem lookup_after_recording {T T' : CallTables} {id id' : UInt32} {call : Call}
    (h : RecordingChange id' T T') (hl : T.calls.lookup id = some call) :
    ∃ new, T'.calls.lookup id = some new ∧ SameCall call new := by
  rcases h with rfl | ⟨old, new, hold, hsame, rfl⟩
  · exact ⟨call, hl, rfl⟩
  · by_cases heq : id = id'
    · subst heq
      rw [hold] at hl
      cases hl
      exact ⟨new, lookup_setCall _ _ _, hsame⟩
    · exact ⟨call, by rw [lookup_setCall_ne _ heq, hl], rfl⟩

end Records

section Runs

variable {s s' : Engine} {i : Input}

/-- The invariant: every record is filed under its id and has a timer just while it is in call. -/
def Timers (s : Engine) : Prop :=
  (tables s).Keyed ∧ ∀ id call, s.calls.lookup id = some call → Timed call

/-- No state of PJSIP means a call on hold. -/
theorem invCallState_ne_onHold {invState : Int} {newState : CallState}
    (h : invCallState invState = some newState) : newState ≠ .onHold := by
  rintro rfl
  unfold invCallState at h
  split at h
  · cases h
  · split at h
    · cases h
    · split at h <;> cases h

/-- The record that a callback is routed to. -/
theorem routedCall_eq {pjCallId : Int} {id : UInt32} {call : Call}
    (hmap : s.pjsipCallMap.lookup pjCallId = some id) (hl : s.calls.lookup id = some call) :
    routedCall s pjCallId = some call := by
  rw [routedCall, hmap, Option.bind_some, hl]

/-- A step that meets the condition changes a record together with its timer. -/
theorem timed_of_effect {acts : List CallAct} {id : UInt32} {call : Call} (h : Timers s)
    (hC : KeepsTimers s i) (he : RecordEffect i s acts id call) : Timed call := by
  obtain ⟨-, htimed⟩ := h
  obtain ⟨hringing, hactive⟩ := hC
  cases he with
  | started => exact timed_newCall _ _ _ _ _
  | @kept old _ _ hl hc =>
    have hold := htimed id old hl
    cases hc with
    | amend _ _ hamend => exact hamend.timed_iff.mpr hold
    | hold => exact timed_heldRecord _ _ _
    | state hop hstate hmap hsame =>
      rw [hsame.amended.timed_iff, timed_stateRecord_iff hold _ (invCallState_ne_onHold hstate)]
      rintro rfl
      apply hringing
      simp [ringingCall, hop, hstate, routedCall_eq hmap hl]
    | media hop hmap =>
      rw [timed_mediaRecord_iff hold]
      intro hne
      apply hactive
      simp [activeCall, hop, hne, routedCall_eq hmap hl]

/-- The step lemma: a step that meets the condition keeps the timers. -/
theorem timers_step (h : Timers s) (hC : KeepsTimers s i) (hs : engineStep s i = some s') :
    Timers s' :=
  ⟨keyed_step h.1 hs, fun _ _ hl ↦ timed_of_effect h hC (effect_of_step h.1 hs hl)⟩

/-- A step that keeps the timers met the condition. -/
theorem keepsTimers_of_step (h : Timers s) (hs : engineStep s i = some s') (h' : Timers s') :
    KeepsTimers s i := by
  have hT : tables (i.outcome s).state = tables s' := by rw [engineStep_eq hs]
  constructor
  · intro call hcall
    unfold ringingCall at hcall
    cases hop : i.op with
    | onCallState pjCallId invState =>
      simp only [hop, Option.mem_def, Option.ite_none_right_eq_some, routedCall,
        Option.bind_eq_some_iff] at hcall
      obtain ⟨hstate, id, hmap, hl⟩ := hcall
      have hrec := tables_after_state hop hstate hmap hl
      rw [hT] at hrec
      obtain ⟨new, hnew, hsame⟩ := lookup_after_recording hrec (lookup_setCall _ _ _)
      have htimed := h'.2 id new hnew
      rw [hsame.amended.timed_iff,
        timed_stateRecord_iff (h.2 id call hl) _ (invCallState_ne_onHold hstate)] at htimed
      exact htimed rfl
    | _ => simp [hop] at hcall
  · intro call hcall
    unfold activeCall at hcall
    cases hop : i.op with
    | onCallMedia pjCallId active =>
      simp only [hop, Option.mem_def, Option.ite_none_right_eq_some, routedCall,
        Option.bind_eq_some_iff] at hcall
      obtain ⟨hne, id, hmap, hl⟩ := hcall
      have hcalls : s'.calls = (tables s').calls := rfl
      have htimed := h'.2 id (mediaRecord active (secsAt i.env s) call)
      rw [hcalls, ← hT, tables_after_media hop hmap hl, lookup_setCall] at htimed
      exact (timed_mediaRecord_iff (h.2 id call hl) _).mp (htimed rfl) hne
    | _ => simp [hop] at hcall

/-- Before the first operation there are no records. -/
theorem timers_initial : Timers Engine.initial :=
  ⟨keyed_initial, fun _ _ h ↦ by cases h⟩

/-- In every state of a run each record has a timer just while its call is in the state `InCall`,
if and only if every step of the run met the condition. -/
theorem timer_invariant_iff {is : List Input} (run : is.foldlM engineStep Engine.initial = some s) :
    Path engineStep KeepsTimers Engine.initial is s ↔
      ∀ js t, js <+: is → js.foldlM engineStep Engine.initial = some t →
        ∀ id call, t.calls.lookup id = some call →
          (call.lastResumedAt.isSome = true ↔ call.state = .inCall) := by
  rw [Path.iff_always timers_initial (fun _ _ _ h hs ↦
    ⟨fun h' ↦ keepsTimers_of_step h hs h', fun hC ↦ timers_step h hC hs⟩) run]
  constructor
  · intro always js t hjs hrun id call hl
    exact (always js t hjs hrun).2 id call hl
  · intro always js t hjs hrun
    have hkeyed : (tables t).Keyed :=
      (Path.of_foldlM hrun).invariant keyed_initial fun _ _ _ h _ hs ↦ keyed_step h hs
    exact ⟨hkeyed, always js t hjs hrun⟩

/-- A call that is confirmed, as an instance. -/
theorem timer_invariant_iff_confirmed :
    ∃ s call, (signIn ++ [dial, confirm]).foldlM engineStep Engine.initial = some s ∧
      s.calls.lookup 1 = some call ∧ call.state = .inCall ∧ call.lastResumedAt.isSome = true := by
  have h : ((signIn ++ [dial, confirm]).foldlM (fun u i ↦
      if KeepsTimers u i then engineStep u i else none) Engine.initial).map (fun s ↦
        (s.calls.lookup 1).map (·.state)) = some (some .inCall) := by decide
  obtain ⟨s, hs, hcall⟩ := Option.map_eq_some_iff.mp h
  obtain ⟨call, hl, hstate⟩ := Option.map_eq_some_iff.mp hcall
  have path : Path engineStep KeepsTimers Engine.initial _ s := Path.of_guarded hs
  have run := path.foldlM_eq
  have timed := (timer_invariant_iff run).mp path _ s List.prefix_rfl run 1 call hl
  exact ⟨s, call, run, hl, hstate, timed.mpr hstate⟩

/-- Early media: the call is in the state `InCall` without a timer. -/
theorem early_media_untimed :
    ∃ s, (signIn ++ [dial, media 1]).foldlM engineStep Engine.initial = some s ∧
      (s.calls.lookup 1).map (fun call ↦ (call.state, call.lastResumedAt)) =
        some (.inCall, none) := by
  have h : ((signIn ++ [dial, media 1]).foldlM engineStep Engine.initial).map (fun s ↦
      (s.calls.lookup 1).map fun call ↦ (call.state, call.lastResumedAt)) =
      some (some (.inCall, none)) := by decide
  exact Option.map_eq_some_iff.mp h

end Runs

end PacketDial.System
