import Mathlib.Algebra.Order.Ring.Int
import PacketDial.System.Timers

/-!
# Talk time

`accumulated_active_secs` is meant to add up the seconds that a call spent in the state `InCall`.
`Observed` keeps, next to the engine, the stretches a call was seen in that state. The counter is
their sum while the timers are kept and no call is resumed that is in call already.
-/

namespace PacketDial.System

open PacketDial.Core PacketDial.Lib

/-- What an observer of the states of a call writes down: the finished stretches in the state
`InCall`, each from its first to its last second, and the start of the last stretch. -/
structure TalkLog where
  stretches : List (Nat × Nat)
  entered : Nat

namespace TalkLog

/-- The log of a call that was never in the state `InCall`. -/
def blank : TalkLog := ⟨[], 0⟩

/-- The length of the finished stretches. -/
def secs (log : TalkLog) : Int := (log.stretches.map fun (enter, leave) ↦ (leave : Int) - enter).sum

/-- The log after a step at `now` that took the call from one state to another. -/
def note (now : Nat) (before after : CallState) (log : TalkLog) : TalkLog :=
  if before ≠ .inCall ∧ after = .inCall then { log with entered := now }
  else if before = .inCall ∧ after ≠ .inCall then
    { log with stretches := log.stretches ++ [(log.entered, now)] }
  else log

/-- A call that stays as it is adds nothing to its log. -/
theorem note_same (now : Nat) (state : CallState) (log : TalkLog) :
    log.note now state state = log := by
  unfold note
  rw [if_neg fun h ↦ h.1 h.2, if_neg fun h ↦ h.2 h.1]

/-- Entering the state `InCall`. -/
theorem note_enter {now : Nat} {before : CallState} (h : before ≠ .inCall) (log : TalkLog) :
    log.note now before .inCall = { log with entered := now } := by
  unfold note
  rw [if_pos ⟨h, rfl⟩]

/-- Leaving the state `InCall`. -/
theorem note_leave {now : Nat} {after : CallState} (h : after ≠ .inCall) (log : TalkLog) :
    log.note now .inCall after =
      { log with stretches := log.stretches ++ [(log.entered, now)] } := by
  unfold note
  rw [if_neg fun hand ↦ hand.1 rfl, if_pos ⟨rfl, h⟩]

/-- Changes outside the state `InCall` are not written down. -/
theorem note_outside {now : Nat} {before after : CallState} (hb : before ≠ .inCall)
    (ha : after ≠ .inCall) (log : TalkLog) : log.note now before after = log := by
  unfold note
  rw [if_neg fun h ↦ ha h.2, if_neg fun h ↦ hb h.1]

/-- A finished stretch adds its length. -/
theorem secs_leave (log : TalkLog) (now : Nat) :
    secs { log with stretches := log.stretches ++ [(log.entered, now)] } =
      log.secs + ((now : Int) - log.entered) := by
  simp [secs]

end TalkLog

/-- The engine with the logs of its calls and the last reading of the clock. -/
structure Observed where
  engine : Engine
  log : UInt32 → TalkLog
  time : Nat

/-- Before the first operation there is nothing to write down. -/
def Observed.initial : Observed := ⟨Engine.initial, fun _ ↦ .blank, 0⟩

/-- The log of a call after a step on `i` from `s` to `s'`. -/
def nextLog (i : Input) (s s' : Engine) (log : UInt32 → TalkLog) (id : UInt32) : TalkLog :=
  if startedCall i s (i.acts s) = some id then .blank
  else match s.calls.lookup id, s'.calls.lookup id with
    | some before, some after => (log id).note (secsAt i.env s) before.state after.state
    | _, _ => log id

/-- One step of the engine, observed. -/
def observeStep (t : Observed) (i : Input) : Option Observed :=
  (engineStep t.engine i).map fun s ↦
    ⟨s, nextLog i t.engine s t.log, secsAt i.env t.engine⟩

/-- The clock did not go back. -/
def Later (t : Observed) (i : Input) : Prop := t.time ≤ secsAt i.env t.engine

instance (t : Observed) (i : Input) : Decidable (Later t i) :=
  inferInstanceAs (Decidable (_ ≤ _))

/-- The record that an input takes off hold. -/
def resumedCall (i : Input) (s : Engine) : Option Call :=
  if holdWanted i s = false then (holdTarget i s).bind s.calls.lookup else none

/-- No call is taken off hold that is in the state `InCall`. -/
def ResumesHeld (s : Engine) (i : Input) : Prop :=
  ∀ call ∈ resumedCall i s, call.state ≠ .inCall

instance (s : Engine) (i : Input) : Decidable (ResumesHeld s i) :=
  inferInstanceAs (Decidable (∀ call ∈ _, _))

/-- The condition on the steps of a run. -/
def KeepsTime (t : Observed) (i : Input) : Prop :=
  Later t i ∧ KeepsTimers t.engine i ∧ ResumesHeld t.engine i

instance (t : Observed) (i : Input) : Decidable (KeepsTime t i) :=
  inferInstanceAs (Decidable (_ ∧ _))

/-- The counter of a record is what was written down, and its timer started with the stretch
that is still open. -/
structure Accounted (time : Nat) (log : TalkLog) (call : Call) : Prop where
  secs : (call.accumulatedActiveSecs : Int) = log.secs
  entered : log.entered ≤ time
  timer : call.lastResumedAt = if call.state = .inCall then some log.entered else none

section Records

variable {time now : Nat} {log : TalkLog} {old new : Call}

/-- A new call was never in the state `InCall`. -/
theorem accounted_newCall (time : Nat) (id : UInt32) (accountId uri : String)
    (direction : CallDirection) (pjCallId : Int) :
    Accounted time .blank (newCall id accountId uri direction pjCallId) where
  secs := rfl
  entered := Nat.zero_le time
  timer := rfl

/-- Only the clock moved on. -/
theorem Accounted.later (h : Accounted time log old) (hle : time ≤ now) : Accounted now log old :=
  { h with entered := h.entered.trans hle }

/-- Amending a record changes nothing of its account. -/
theorem Accounted.amend (h : Accounted time log old) (ha : Amended old new) :
    Accounted time (log.note now old.state new.state) new := by
  rw [ha]
  dsimp only
  rw [TalkLog.note_same]
  exact ⟨h.secs, h.entered, h.timer⟩

/-- Leaving a state with the timer closed finishes the open stretch, if there is one. -/
theorem Accounted.settle (h : Accounted time log old) (hle : time ≤ now) {state : CallState}
    (hstate : state ≠ .inCall) {onHold : Bool} :
    Accounted now (log.note now old.state state)
      (settled now { old with onHold := onHold, state := state }) := by
  have hentered := h.entered.trans hle
  have htimer := h.timer
  unfold settled
  by_cases hin : old.state = .inCall
  · rw [if_pos hin] at htimer
    rw [hin, TalkLog.note_leave hstate]
    simp only [htimer]
    refine ⟨?_, hentered, by simp [hstate]⟩
    rw [TalkLog.secs_leave, ← h.secs]
    dsimp only
    omega
  · rw [if_neg hin] at htimer
    rw [TalkLog.note_outside hin hstate]
    simp only [htimer]
    exact ⟨h.secs, hentered, by simp [hstate]⟩

/-- Entering the state `InCall` with a fresh timer opens a stretch. -/
theorem Accounted.enter (h : Accounted time log old) (hin : old.state ≠ .inCall)
    {onHold : Bool} :
    Accounted now (log.note now old.state .inCall)
      { old with onHold := onHold, state := .inCall, lastResumedAt := some now } := by
  rw [TalkLog.note_enter hin]
  exact ⟨h.secs, le_refl now, rfl⟩

/-- A change of state that neither enters nor leaves the state `InCall`. -/
theorem Accounted.stay (h : Accounted time log old) (hle : time ≤ now) {state : CallState}
    (hiff : old.state = .inCall ↔ state = .inCall) :
    Accounted now (log.note now old.state state) { old with state := state } := by
  have hnote : log.note now old.state state = log := by
    by_cases hin : old.state = .inCall
    · rw [hin, hiff.mp hin, TalkLog.note_same]
    · exact TalkLog.note_outside hin (fun h ↦ hin (hiff.mpr h)) log
  rw [hnote]
  refine ⟨h.secs, h.entered.trans hle, ?_⟩
  simp only [← hiff]
  exact h.timer

/-- A hold command keeps the account unless it resumes a call that is in call. -/
theorem Accounted.hold (h : Accounted time log old) (hle : time ≤ now) {hold : Bool}
    (hresume : hold = false → old.state ≠ .inCall) :
    Accounted now (log.note now old.state (heldRecord hold now old).state)
      (heldRecord hold now old) := by
  rw [heldRecord_state]
  unfold heldRecord
  cases hold with
  | true => exact h.settle hle (by decide)
  | false => exact h.enter (hresume rfl)

/-- A state callback keeps the account unless it takes a running call back to ringing. -/
theorem Accounted.state (h : Accounted time log old) (hle : time ≤ now) {newState : CallState}
    (hhold : newState ≠ .onHold) (hringing : newState = .ringing → old.state ≠ .inCall) :
    Accounted now (log.note now old.state newState) (stateRecord newState now old) := by
  unfold stateRecord
  by_cases henter : newState = .inCall ∧ old.state ≠ .inCall
  · rw [if_pos henter, henter.1]
    exact h.enter henter.2
  · rw [if_neg henter]
    by_cases hleave : newState = .ended ∧ old.state = .inCall
    · rw [if_pos hleave]
      exact h.settle hle (by rw [hleave.1]; decide)
    · rw [if_neg hleave]
      apply h.stay hle
      cases newState <;> simp_all

/-- A media callback keeps the account unless it takes a call into or out of the state `InCall`
past the timer. -/
theorem Accounted.media (h : Accounted time log old) (hle : time ≤ now) {active : Int}
    (hactive : active ≠ 0 → (old.onHold = false ↔ old.state = .inCall)) :
    Accounted now (log.note now old.state (mediaRecord active now old).state)
      (mediaRecord active now old) := by
  unfold mediaRecord
  by_cases hne : active ≠ 0
  · rw [if_pos hne]
    apply h.stay hle
    rw [← hactive hne]
    cases old.onHold <;> simp
  · have hstate : CallState.onHold ≠ .inCall := by decide
    rw [if_neg hne, settled_state]
    exact h.settle hle hstate

end Records

section Runs

variable {t u : Observed} {i : Input}

/-- The invariant: every record is filed under its id and accounted for. -/
def AllAccounted (t : Observed) : Prop :=
  (tables t.engine).Keyed ∧ ∀ id call, t.engine.calls.lookup id = some call →
    Accounted t.time (t.log id) call

/-- What a step makes of a record and its log. -/
theorem accounted_of_change {s : Engine} {id : UInt32} {old new : Call} {log : TalkLog}
    {time : Nat} (h : Accounted time log old) (hle : time ≤ secsAt i.env s)
    (hkeeps : KeepsTimers s i) (hresume : ResumesHeld s i) (hl : s.calls.lookup id = some old)
    (hc : RecordChange i s id old new) :
    Accounted (secsAt i.env s) (log.note (secsAt i.env s) old.state new.state) new := by
  obtain ⟨hringing, hactive⟩ := hkeeps
  cases hc with
  | amend _ _ hamend => exact (h.amend hamend).later hle
  | hold htarget =>
    apply h.hold hle
    intro hwanted
    apply hresume
    simp [resumedCall, hwanted, htarget, hl]
  | state hop hstate hmap hsame =>
    have haccount := h.state hle (invCallState_ne_onHold hstate) (by
      rintro rfl
      apply hringing
      simp [ringingCall, hop, hstate, routedCall_eq hmap hl])
    rw [hsame.state_eq, stateRecord_state]
    have hlog : Accounted (secsAt i.env s) (TalkLog.note (secsAt i.env s) _ _ _) _ :=
      haccount.amend hsame.amended
    rwa [hsame.state_eq, TalkLog.note_same] at hlog
  | media hop hmap =>
    apply h.media hle
    intro hne
    apply hactive
    simp [activeCall, hop, hne, routedCall_eq hmap hl]

/-- The step lemma: a step that meets the condition keeps the accounts. -/
theorem allAccounted_step (h : AllAccounted t) (hC : KeepsTime t i)
    (hs : observeStep t i = some u) : AllAccounted u := by
  obtain ⟨hk, hall⟩ := h
  obtain ⟨hle, hkeeps, hresume⟩ := hC
  obtain ⟨s, hstep, rfl⟩ := Option.map_eq_some_iff.mp hs
  refine ⟨keyed_step hk hstep, fun id call hl ↦ ?_⟩
  change Accounted (secsAt i.env t.engine) (nextLog i t.engine s t.log id) call
  unfold nextLog
  cases effect_of_step hk hstep hl with
  | started hstart =>
    rw [if_pos hstart]
    exact accounted_newCall _ _ _ _ _ _
  | @kept old _ hstart hold hc =>
    have haccount := accounted_of_change (hall id old hold) hle hkeeps hresume hold hc
    rw [if_neg hstart]
    simpa only [hold, show s.calls.lookup id = some call from hl] using haccount

/-- In every run without a late ringing report, media reported as active past the timer or a
resume of a call in the state `InCall`, and with a clock that never goes back, the counter of a
call is the sum of its finished stretches in the state `InCall`: for a call that ended, of all. -/
theorem talk_time {is : List Input} (run : Path observeStep KeepsTime Observed.initial is t)
    {id : UInt32} {call : Call} (hl : t.engine.calls.lookup id = some call) :
    (call.accumulatedActiveSecs : Int) = (t.log id).secs := by
  have hall : AllAccounted t :=
    run.invariant ⟨keyed_initial, fun _ _ h ↦ by cases h⟩ fun _ _ _ h hC hs ↦
      allAccounted_step h hC hs
  exact (hall.2 id call hl).secs

end Runs

/-- The input at a time of the host clock. -/
def Input.atSecs (secs : Nat) (i : Input) : Input :=
  { i with env := { i.env with clock := fun _ ↦ secs * 1000 } }

/-- A call of seven seconds, as an instance. -/
theorem talk_time_seven :
    ∃ (t : Observed) (call : Call), t.engine.calls.lookup 1 = some call ∧ call.state = .ended ∧
      call.accumulatedActiveSecs = 7 ∧ (call.accumulatedActiveSecs : Int) = (t.log 1).secs := by
  have h : ((signIn ++ [dial, confirm.atSecs 5, hangUp.atSecs 12]).foldlM (fun u i ↦
      if KeepsTime u i then observeStep u i else none) Observed.initial).map (fun t ↦
        (t.engine.calls.lookup 1).map fun call ↦ (call.state, call.accumulatedActiveSecs)) =
      some (some (.ended, 7)) := by decide
  obtain ⟨t, ht, hcall⟩ := Option.map_eq_some_iff.mp h
  obtain ⟨call, hl, heq⟩ := Option.map_eq_some_iff.mp hcall
  obtain ⟨hstate, hsecs⟩ := Prod.mk.inj heq
  exact ⟨t, call, hl, hstate, hsecs, talk_time (Path.of_guarded ht) hl⟩

/-- A call of ten seconds that is resumed after five, without having been held: the counter has
lost the first half. -/
theorem repeated_resume_loses :
    ∃ t, (signIn ++ [dial, confirm, (holdFirst false).atSecs 5, hangUp.atSecs 10]).foldlM
        (fun u i ↦ if Later u i then observeStep u i else none) Observed.initial = some t ∧
      (t.engine.calls.lookup 1).map (fun call ↦ (call.state, call.accumulatedActiveSecs)) =
        some (.ended, 5) ∧ (t.log 1).secs = 10 := by
  have h : ((signIn ++ [dial, confirm, (holdFirst false).atSecs 5, hangUp.atSecs 10]).foldlM
      (fun u i ↦ if Later u i then observeStep u i else none) Observed.initial).map (fun t ↦
        ((t.engine.calls.lookup 1).map fun call ↦ (call.state, call.accumulatedActiveSecs),
          (t.log 1).secs)) = some (some (.ended, 5), 10) := by decide
  obtain ⟨t, ht, heq⟩ := Option.map_eq_some_iff.mp h
  obtain ⟨hcall, hsecs⟩ := Prod.mk.inj heq
  exact ⟨t, ht, hcall, hsecs⟩

end PacketDial.System
