import PacketDial.Shim.Bridge
import PacketDial.System.Edits
import PacketDial.System.Merges
import PacketDial.Ui.ActiveCalls

/-!
# Adding a call to a conference

`DialerUiNotifier` asks for a merge when a call that was added to a conference is answered, and
waits for an event `ConferenceMerged` to show the conference
(`app_flutter/lib/providers/dialer_ui_provider.dart`). The request goes through
`engine_merge_conference` to `pd_call_merge_conference`. The engine, `EngineChannel` and the
notifier run one after another, with events on the way between them.
-/

namespace PacketDial.Ui

open PacketDial.Core PacketDial.Lib PacketDial.System PacketDial.Shim

/-- The type and the payload of an event. -/
abbrev AppEvent := String × Json

/-- `DialerUiState` (`dialer_ui_provider.dart:8–24`). -/
structure DialerUiState where
  consultationCallId : Option Int := none
  consultationUri : Option String := none
  isConference : Bool := false
  conferenceParticipantCount : Int := 0
  pendingConferenceAdd : Bool := false
  deriving DecidableEq

/-- `copyWith(clearConsultation: true)` (`dialer_ui_provider.dart:38–43`). -/
def DialerUiState.clearConsultation (state : DialerUiState) : DialerUiState where
  isConference := state.isConference
  conferenceParticipantCount := state.conferenceParticipantCount

/-- What the notifier reads of a `CallStateChanged` event. -/
structure CallChange where
  callId : Option Int
  callState : Option String
  direction : Option String
  uri : Option String
  deriving DecidableEq

/-- The casts of `_onEvent` (`dialer_ui_provider.dart:81–85`). -/
def CallChange.decode (payload : Json) : Option CallChange := do
  let callId ← asNumToInt (payload.get "call_id")
  let callState ← asString (payload.get "state")
  let direction ← asString (payload.get "direction")
  let uri ← asString (payload.get "uri")
  return { callId, callState, direction, uri }

/-- The call to merge with (`dialer_ui_provider.dart:107–112`): the first one on hold, or else the
first one, other than `callId`, or else the first one of all. -/
def heldCall (calls : List ActiveCall) (callId : Int) : Option ActiveCall :=
  ((calls.find? fun c ↦ c.onHold && c.callId != callId).or
    (calls.find? fun c ↦ c.callId != callId)).or calls.head?

section Notifier

variable (calls : List ActiveCall) (state : DialerUiState)

/-- An outgoing call that rings while another is on hold is taken for a consultation
(`dialer_ui_provider.dart:87–98`). -/
def trackConsultation (change : CallChange) : DialerUiState :=
  if change.callId.isSome ∧ change.callState = some "Ringing" ∧
      change.direction = some "Outgoing" ∧
      calls.any (fun c ↦ c.onHold && some c.callId != change.callId) then
    { state with
      consultationCallId := change.callId
      consultationUri := change.uri.or state.consultationUri }
  else state

/-- The consultation is answered (`dialer_ui_provider.dart:100–119`): the state, and the merge that
is asked for. Without any call, `first` throws. -/
def answerConsultation (change : CallChange) : Option (DialerUiState × Option (Int × Int)) :=
  match change.callId with
  | some callId =>
    if change.callState = some "InCall" ∧ state.consultationCallId = some callId ∧
        state.pendingConferenceAdd then
      (heldCall calls callId).map fun held ↦
        ({ state with pendingConferenceAdd := false }, some (held.callId, callId))
    else some (state, none)
  | none => some (state, none)

/-- A call ends (`dialer_ui_provider.dart:121–131`). -/
def endConsultation (change : CallChange) : DialerUiState :=
  if change.callState = some "Ended" then
    let state := if change.callId = state.consultationCallId then state.clearConsultation else state
    if state.isConference ∧ calls.isEmpty then {} else state
  else state

/-- `_onEvent` (`dialer_ui_provider.dart:61–132`) with the calls of `EngineChannel`: the state
afterwards, and the merge that is asked for. Nothing happens when a cast throws. -/
def onEvent (event : AppEvent) : Option (DialerUiState × Option (Int × Int)) := do
  if event.1 = "ConferenceMerged" then
    let callAId ← asNumToInt (event.2.get "call_a_id")
    let callBId ← asNumToInt (event.2.get "call_b_id")
    let count : Int := (if callAId.isSome then 1 else 0) + (if callBId.isSome then 1 else 0)
    return ({ state.clearConsultation with
      isConference := true, conferenceParticipantCount := count + 1 }, none)
  else if event.1 ≠ "CallStateChanged" then return (state, none)
  else
    let change ← CallChange.decode event.2
    let (state, merge) ← answerConsultation calls (trackConsultation calls state change) change
    return (endConsultation calls state change, merge)

end Notifier

/-- The engine, the app and the events on their way: those the engine has pushed, and those that
`EngineChannel` has handled but the notifier has not heard. -/
structure Dialer where
  engine : Engine
  pushed : List AppEvent
  activeCalls : ActiveCalls
  handled : List AppEvent
  ui : DialerUiState

/-- Nothing has happened yet. -/
def Dialer.initial : Dialer := ⟨Engine.initial, [], ∅, [], {}⟩

/-- The calls of `EngineChannel`, in some order. -/
def Dialer.calls (s : Dialer) : List ActiveCall := s.activeCalls.entries.map Sigma.snd

/-- The events of a run. -/
def eventsOf (trace : List Action) : List AppEvent :=
  trace.filterMap fun
    | .event type payload => some (type, payload)
    | _ => none

/-- The answers of the shim, where a merge is what `pd_call_merge_conference` makes of the calls
`native` and the answers `pjsip`. -/
def bridgeEnv (env : Env) (pjsip : PjsuaAnswers) (native : Native) : Env :=
  { env with
    rc := fun
      | .pdCallMergeConference callA callB =>
        ((pdCallMergeConference callA callB).run pjsip native).value
      | call => env.rc call }

/-- The steps: an operation of the engine, the next event handled by `EngineChannel` or heard by the
notifier, and what the dialer tells the notifier (`dialer_ui_provider.dart:134–149`). -/
inductive DialerAct where
  | engine (i : Input)
  | handle (now : Int)
  | listen (order : IterOrder ActiveCall) (env : Env) (pjsip : PjsuaAnswers) (native : Native)
  | setConsultationCallId (callId : Int)
  | startConferenceAdd (callId : Int) (uri : String)
  | clearConsultation

/-- An operation of the engine, which pushes events. -/
def Dialer.operate (s : Dialer) (i : Input) : Option Dialer :=
  (engineStep s.engine i).map fun engine ↦
    { s with engine := engine, pushed := s.pushed ++ eventsOf (i.outcome s.engine).trace }

/-- `_processEvent` (`core/engine_channel.dart:230–242`): an event is passed on unless handling it
throws. -/
def Dialer.processEvent (s : Dialer) (now : Int) (event : AppEvent) : Dialer :=
  if event.1 = "CallStateChanged" then
    match handleCallStateChanged now event.2 s.activeCalls with
    | some activeCalls =>
      { s with activeCalls := activeCalls, handled := s.handled ++ [event] }
    | none => s
  else { s with handled := s.handled ++ [event] }

/-- `startConferenceAdd` (`dialer_ui_provider.dart:138–145`). -/
def Dialer.startConferenceAdd (s : Dialer) (callId : Int) (uri : String) : Dialer :=
  { s with ui := { s.ui with
    consultationCallId := some callId
    consultationUri := some uri
    pendingConferenceAdd := true } }

/-- One step. A merge is asked for in the middle of `_onEvent`. -/
def dialerStep (s : Dialer) : DialerAct → Option Dialer
  | .engine i => s.operate i
  | .handle now =>
    match s.pushed with
    | [] => none
    | event :: pushed => some ({ s with pushed := pushed }.processEvent now event)
  | .listen order env pjsip native =>
    match s.handled with
    | [] => none
    | event :: handled =>
      match onEvent (order.shuffle s.calls) s.ui event with
      | none => some { s with handled := handled }
      | some (ui, none) => some { s with handled := handled, ui := ui }
      | some (ui, some (callA, callB)) =>
        { s with handled := handled, ui := ui }.operate
          ⟨.mergeConference callA callB, bridgeEnv env pjsip native⟩
  | .setConsultationCallId callId =>
    some { s with ui := { s.ui with consultationCallId := some callId } }
  | .startConferenceAdd callId uri => some (s.startConferenceAdd callId uri)
  | .clearConsultation => some { s with ui := s.ui.clearConsultation }

/-- The merge that the notifier asks for in a step. -/
def askedMerge (s : Dialer) : DialerAct → Option (Int × Int)
  | .listen order _ _ _ =>
    s.handled.head?.bind fun event ↦ (onEvent (order.shuffle s.calls) s.ui event).bind (·.2)
  | _ => none

/-- What `mergeConference` returns in a step that asks for it. -/
def mergeResult (s : Dialer) (callA callB : Int) : DialerAct → Int
  | .listen _ env pjsip native =>
    ((engineMergeConference callA callB).run (bridgeEnv env pjsip native) s.engine).value
  | _ => 0

/-- The app shows a call that has not ended. -/
def Dialer.Up (s : Dialer) (callId : Int) : Prop := ∃ c ∈ s.calls, c.callId = callId

/-- The change of a call that the notifier hears of next. -/
def Dialer.heardChange (s : Dialer) : Option CallChange :=
  s.handled.head?.bind fun event ↦
    if event.1 = "CallStateChanged" then CallChange.decode event.2 else none

/-- The notifier hears that `callId` was answered. -/
def HearsAnswer (callId : Int) (s : Dialer) : DialerAct → Prop
  | .listen .. => ∃ change ∈ s.heardChange, change.callId = some callId ∧
      change.callState = some "InCall"
  | _ => False

instance (callId : Int) (s : Dialer) (act : DialerAct) : Decidable (HearsAnswer callId s act) :=
  match act with
  | .listen .. => inferInstanceAs (Decidable (∃ change ∈ s.heardChange, _ ∧ _))
  | .engine _ | .handle _ | .setConsultationCallId _ | .startConferenceAdd .. |
    .clearConsultation => inferInstanceAs (Decidable False)

instance (s : Dialer) (callId : Int) : Decidable (s.Up callId) :=
  inferInstanceAs (Decidable (∃ c ∈ s.calls, c.callId = callId))

/-- Some run from here on leads to a conference without a consultation. -/
def Dialer.ReachesConference (s : Dialer) : Prop :=
  ∃ (acts : List DialerAct) (t : Dialer), acts.foldlM dialerStep s = some t ∧
    t.ui.isConference = true ∧ t.ui.consultationCallId = none ∧
    t.ui.pendingConferenceAdd = false

/-- On the answer of `callId` the notifier asks for a merge of it with another call that is up, and
if that returns 0 there is a conference in the end. -/
def CompletesAdd (callId : Int) (s : Dialer) (act : DialerAct) : Prop :=
  HearsAnswer callId s act ∧ ∃ other, askedMerge s act = some (other, callId) ∧
    other ≠ callId ∧ s.Up other ∧ s.Up callId ∧
    (mergeResult s other callId act = 0 →
      ∀ t, dialerStep s act = some t → t.ReachesConference)

/-- PJSIP grants a merge: it knows the two calls, each has an active audio stream, and the bridge
makes both connections. -/
def Grants (pjsip : PjsuaAnswers) (native : Native) (pjA pjB : Int) : Prop :=
  (∀ n < 4, pjsip.status (native.answers + n) = 0) ∧
    (native.calls pjA).port ≠ noPort ∧ (native.calls pjB).port ≠ noPort

/-- The engine is initialised, it has PJSIP ids for the two calls, and PJSIP grants their merge. -/
def Mergeable (s : Dialer) (pjsip : PjsuaAnswers) (native : Native) (callA callB : Int) : Prop :=
  s.engine.initialized = true ∧ ∃ pjA pjB,
    pjsipIdOf (tables s.engine) (i32AsU32 callA) = some pjA ∧
    pjsipIdOf (tables s.engine) (i32AsU32 callB) = some pjB ∧ Grants pjsip native pjA pjB

/-- The notifier still waits for `callId` when it hears the answer, and the merge is not granted. -/
def RefusedAdd (callId : Int) (s : Dialer) (act : DialerAct) : Prop :=
  HearsAnswer callId s act ∧ s.ui.consultationCallId = some callId ∧
    s.ui.pendingConferenceAdd = true ∧
    match act with
    | .listen order _ pjsip native => ∀ held ∈ heldCall (order.shuffle s.calls) callId,
        ¬Mergeable s pjsip native held.callId callId
    | _ => False

section Shim

variable {pjsip : PjsuaAnswers} {native : Native} {pjA pjB portA portB : Int}

/-- A merge of two ports succeeds just if there are two and both connections are made. -/
theorem mergePorts_eq_zero : ((mergePorts portA portB).run pjsip native).value = 0 ↔
    portA ≠ noPort ∧ portB ≠ noPort ∧ pjsip.status native.answers = 0 ∧
      pjsip.status (native.answers + 1) = 0 := by
  unfold mergePorts
  by_cases hports : portA = noPort ∨ portB = noPort
  · rw [if_pos hports]
    refine iff_of_false (fun h : (-1 : Int) = 0 ↦ absurd h (by decide)) ?_
    rintro ⟨hA, hB, -⟩
    exact hports.elim hA hB
  · rw [if_neg hports]
    rw [not_or] at hports
    by_cases h0 : pjsip.status native.answers = 0
    · rw [run_granted h0]
      by_cases h1 : pjsip.status (native.answers + 1) = 0
      · simp [run_pjsua, h0, h1, hports, monitor]
      · simp [run_pjsua, h1]
    · rw [run_refused h0]
      simp [h0]

/-- `pd_call_merge_conference` returns 0 just if PJSIP grants the merge. -/
theorem pdCallMergeConference_eq_zero :
    ((pdCallMergeConference pjA pjB).run pjsip native).value = 0 ↔
      Grants pjsip native pjA pjB := by
  have hfour : (∀ n < 4, pjsip.status (native.answers + n) = 0) ↔
      pjsip.status native.answers = 0 ∧ pjsip.status (native.answers + 1) = 0 ∧
        pjsip.status (native.answers + 1 + 1) = 0 ∧
        pjsip.status (native.answers + 1 + 1 + 1) = 0 := by
    constructor
    · intro h
      exact ⟨h 0 (by omega), h 1 (by omega), h 2 (by omega), h 3 (by omega)⟩
    · rintro ⟨h0, h1, h2, h3⟩ n hn
      match n with
      | 0 => exact h0
      | 1 => exact h1
      | 2 => exact h2
      | 3 => exact h3
      | n + 4 => omega
  unfold Grants pdCallMergeConference
  rw [hfour]
  by_cases h0 : pjsip.status native.answers = 0
  · rw [run_granted h0]
    by_cases h1 : pjsip.status (native.answers + 1) = 0
    · rw [run_granted h1]
      refine mergePorts_eq_zero.trans ?_
      simp only [PjsuaCall.effect, h0, h1, true_and]
      tauto
    · rw [run_refused h1]
      simp [h1]
  · rw [run_refused h0]
    simp [h0]

end Shim

section Engine

variable {e : Env} {engine : Engine} {callA callB : Int}

/-- The PJSIP ids that `engine_merge_conference` finds. -/
theorem callPair_value (hk : (tables engine).Keyed) :
    ((callPair callA callB).run e engine).value =
      (pjsipIdOf (tables engine) (i32AsU32 callA)).bind fun a ↦
        (pjsipIdOf (tables engine) (i32AsU32 callB)).map fun b ↦ (a, b) := by
  obtain ⟨hfound, -, -⟩ := yields_callPair (e := e) hk callA callB
  exact hfound

/-- `engine_merge_conference` returns 0 just if the shim does for the PJSIP ids of the calls. -/
theorem engineMergeConference_eq_zero (hk : (tables engine).Keyed) :
    ((engineMergeConference callA callB).run e engine).value = 0 ↔
      engine.initialized = true ∧ ∃ pjA pjB,
        pjsipIdOf (tables engine) (i32AsU32 callA) = some pjA ∧
        pjsipIdOf (tables engine) (i32AsU32 callB) = some pjB ∧
        e.rc (.pdCallMergeConference pjA pjB) = 0 := by
  unfold engineMergeConference whenInitialized
  rw [Traced.run_bind, Traced.run_get]
  cases hinit : engine.initialized with
  | false => simp [EngineErrorCode.code]
  | true =>
    simp only [↓reduceIte, Traced.run_bind, callPair_value hk]
    cases hA : pjsipIdOf (tables engine) (i32AsU32 callA) with
    | none => simp [EngineErrorCode.code]
    | some pjA =>
      cases hB : pjsipIdOf (tables engine) (i32AsU32 callB) with
      | none => simp [EngineErrorCode.code]
      | some pjB =>
        simp [shim]

end Engine

section Notifier

variable {calls : List ActiveCall} {state : DialerUiState} {callId : Int}

/-- Another call is picked, if there is one. -/
theorem heldCall_of_other (h : ∃ c ∈ calls, c.callId ≠ callId) :
    ∃ held ∈ calls, heldCall calls callId = some held ∧ held.callId ≠ callId := by
  unfold heldCall
  cases hheld : calls.find? fun c ↦ c.onHold && c.callId != callId with
  | some held =>
    have hmem := List.mem_of_find?_eq_some hheld
    have hother : held.onHold = true ∧ held.callId ≠ callId := by
      simpa using List.find?_some hheld
    exact ⟨held, hmem, rfl, hother.2⟩
  | none =>
    cases hany : calls.find? fun c ↦ c.callId != callId with
    | some held =>
      have hmem := List.mem_of_find?_eq_some hany
      have hother : held.callId ≠ callId := by simpa using List.find?_some hany
      exact ⟨held, hmem, rfl, hother⟩
    | none =>
      obtain ⟨c, hc, hne⟩ := h
      have hnot := List.find?_eq_none.mp hany c hc
      simp [hne] at hnot

/-- What the notifier does with an answer. -/
theorem onEvent_answer {payload : Json} {change : CallChange}
    (hdecode : CallChange.decode payload = some change) (hid : change.callId = some callId)
    (hstate : change.callState = some "InCall") :
    onEvent calls state ("CallStateChanged", payload) =
      if state.consultationCallId = some callId ∧ state.pendingConferenceAdd = true then
        (heldCall calls callId).map fun held ↦
          ({ state with pendingConferenceAdd := false }, some (held.callId, callId))
      else some (state, none) := by
  have htrack : trackConsultation calls state change = state := by
    simp [trackConsultation, hstate]
  have hend (state : DialerUiState) : endConsultation calls state change = state := by
    simp [endConsultation, hstate]
  have hanswer : answerConsultation calls state change =
      if state.consultationCallId = some callId ∧ state.pendingConferenceAdd = true then
        (heldCall calls callId).map fun held ↦
          ({ state with pendingConferenceAdd := false }, some (held.callId, callId))
      else some (state, none) := by simp [answerConsultation, hid, hstate]
  unfold onEvent
  rw [if_neg (show ¬"CallStateChanged" = "ConferenceMerged" by decide),
    if_neg (not_not_intro rfl)]
  simp only [hdecode, Option.bind_eq_bind, Option.bind_some, htrack, hanswer, hend]
  split
  · cases heldCall calls callId with
    | none => rfl
    | some held => rfl
  · rfl

/-- Only the event of a merge makes a conference. -/
theorem isConference_of_onEvent {event : AppEvent} {ui : DialerUiState}
    {merge : Option (Int × Int)} (hevent : event.1 ≠ "ConferenceMerged")
    (hstate : state.isConference = false) (h : onEvent calls state event = some (ui, merge)) :
    ui.isConference = false := by
  unfold onEvent at h
  rw [if_neg hevent] at h
  split at h
  · cases h
    exact hstate
  · obtain ⟨change, -, h⟩ := Option.bind_eq_some_iff.mp h
    obtain ⟨⟨after, merge'⟩, hanswer, h⟩ := Option.bind_eq_some_iff.mp h
    cases h
    have htracked : (trackConsultation calls state change).isConference = false := by
      unfold trackConsultation
      split
      · exact hstate
      · exact hstate
    have hafter : after.isConference = false := by
      unfold answerConsultation at hanswer
      split at hanswer
      · split at hanswer
        · obtain ⟨held, -, heq⟩ := Option.map_eq_some_iff.mp hanswer
          cases heq
          exact htracked
        · cases hanswer
          exact htracked
      · cases hanswer
        exact htracked
    unfold endConsultation
    dsimp only
    split
    · split
      · split
        · rfl
        · exact hafter
      · split
        · rfl
        · exact hafter
    · exact hafter

end Notifier

section Runs

variable {s t : Dialer} {act : DialerAct} {callId : Int} {acts : List DialerAct}

/-- The invariant: the table of calls is keyed, and there is no conference, nor an event that would
make one. -/
structure Unconferred (s : Dialer) : Prop where
  keyed : (tables s.engine).Keyed
  pushed : ∀ event ∈ s.pushed, event.1 ≠ "ConferenceMerged"
  handled : ∀ event ∈ s.handled, event.1 ≠ "ConferenceMerged"
  ui : s.ui.isConference = false

/-- There is none at the start. -/
theorem unconferred_initial : Unconferred .initial where
  keyed := keyed_initial
  pushed := List.forall_mem_nil _
  handled := List.forall_mem_nil _
  ui := rfl

/-- The engine pushes no event of a merge. -/
theorem eventsOf_ne {i : Input} {engine : Engine} {event : AppEvent}
    (h : event ∈ eventsOf (i.outcome engine).trace) : event.1 ≠ "ConferenceMerged" := by
  obtain ⟨action, haction, heq⟩ := List.mem_filterMap.mp h
  cases action with
  | event type payload =>
    cases heq
    rintro rfl
    exact merged_not_mem i engine payload haction
  | _ => cases heq

/-- An operation of the engine keeps the invariant. -/
theorem Unconferred.operate (h : Unconferred s) {i : Input} (hop : s.operate i = some t) :
    Unconferred t := by
  obtain ⟨engine, hstep, rfl⟩ := Option.map_eq_some_iff.mp hop
  refine ⟨keyed_step h.keyed hstep, ?_, h.handled, h.ui⟩
  exact List.forall_mem_append.mpr ⟨h.pushed, fun event hevent ↦ eventsOf_ne hevent⟩

/-- Handling an event keeps the invariant. -/
theorem Unconferred.processEvent (h : Unconferred s) {now : Int} {event : AppEvent}
    (hevent : event.1 ≠ "ConferenceMerged") : Unconferred (s.processEvent now event) := by
  have hhandled : ∀ e ∈ s.handled ++ [event], e.1 ≠ "ConferenceMerged" :=
    List.forall_mem_append.mpr ⟨h.handled, List.forall_mem_singleton.mpr hevent⟩
  unfold Dialer.processEvent
  split
  · split
    · exact ⟨h.keyed, h.pushed, hhandled, h.ui⟩
    · exact h
  · exact ⟨h.keyed, h.pushed, hhandled, h.ui⟩

/-- The step lemma: every step keeps the invariant. -/
theorem unconferred_step (h : Unconferred s) (hstep : dialerStep s act = some t) :
    Unconferred t := by
  cases act with
  | engine i => exact h.operate hstep
  | handle now =>
    unfold dialerStep at hstep
    dsimp only at hstep
    split at hstep
    · cases hstep
    · next event pushed hpushed =>
      cases hstep
      obtain ⟨hevent, hrest⟩ := List.forall_mem_cons.mp (hpushed ▸ h.pushed)
      have hquiet : Unconferred { s with pushed := pushed } := ⟨h.keyed, hrest, h.handled, h.ui⟩
      exact hquiet.processEvent hevent
  | listen order env pjsip native =>
    unfold dialerStep at hstep
    dsimp only at hstep
    split at hstep
    · cases hstep
    · next event handled hhandled =>
      obtain ⟨hevent, hrest⟩ := List.forall_mem_cons.mp (hhandled ▸ h.handled)
      split at hstep
      · cases hstep
        exact ⟨h.keyed, h.pushed, hrest, h.ui⟩
      · next ui hui =>
        cases hstep
        exact ⟨h.keyed, h.pushed, hrest, isConference_of_onEvent hevent h.ui hui⟩
      · next ui callA callB hui =>
        have hquiet : Unconferred { s with handled := handled, ui := ui } :=
          ⟨h.keyed, h.pushed, hrest, isConference_of_onEvent hevent h.ui hui⟩
        exact hquiet.operate hstep
  | setConsultationCallId callId =>
    cases hstep
    exact ⟨h.keyed, h.pushed, h.handled, h.ui⟩
  | startConferenceAdd callId uri =>
    cases hstep
    exact ⟨h.keyed, h.pushed, h.handled, h.ui⟩
  | clearConsultation =>
    cases hstep
    exact ⟨h.keyed, h.pushed, h.handled, h.ui⟩

/-- Every run keeps the invariant. -/
theorem unconferred_run (h : Unconferred s) (run : acts.foldlM dialerStep s = some t) :
    Unconferred t :=
  (Path.of_foldlM run).invariant h fun _ _ _ hu _ hs ↦ unconferred_step hu hs

/-- No run leads to a conference. -/
theorem Unconferred.not_reachesConference (h : Unconferred s) : ¬s.ReachesConference := by
  rintro ⟨acts, t, run, hconference, -⟩
  rw [(unconferred_run h run).ui] at hconference
  cases hconference

/-- Adding a call leaves the events alone. -/
theorem Unconferred.startConferenceAdd (h : Unconferred s) (callId : Int) (uri : String) :
    Unconferred (s.startConferenceAdd callId uri) :=
  ⟨h.keyed, h.pushed, h.handled, h.ui⟩

/-- The calls in another order are the same. -/
theorem up_iff (order : IterOrder ActiveCall) :
    s.Up callId ↔ ∃ c ∈ order.shuffle s.calls, c.callId = callId := by
  unfold Dialer.Up
  simp only [order.mem_shuffle]

/-- What `mergeConference` returns. -/
theorem mergeResult_eq_zero (h : Unconferred s) {order : IterOrder ActiveCall} {env : Env}
    {pjsip : PjsuaAnswers} {native : Native} {callA callB : Int} :
    mergeResult s callA callB (.listen order env pjsip native) = 0 ↔
      Mergeable s pjsip native callA callB := by
  unfold mergeResult Mergeable
  rw [engineMergeConference_eq_zero h.keyed]
  simp only [bridgeEnv, pdCallMergeConference_eq_zero]

/-- What the notifier asks for on an answer. -/
theorem askedMerge_answer {order : IterOrder ActiveCall} {env : Env} {pjsip : PjsuaAnswers}
    {native : Native} (h : HearsAnswer callId s (.listen order env pjsip native)) :
    askedMerge s (.listen order env pjsip native) =
      if s.ui.consultationCallId = some callId ∧ s.ui.pendingConferenceAdd = true then
        (heldCall (order.shuffle s.calls) callId).map fun held ↦ (held.callId, callId)
      else none := by
  obtain ⟨change, hchange, hid, hstate⟩ := h
  obtain ⟨⟨type, payload⟩, hhead, hevent⟩ := Option.bind_eq_some_iff.mp hchange
  obtain ⟨htype, hdecode⟩ := Option.ite_none_right_eq_some.mp hevent
  cases htype
  unfold askedMerge
  simp only [hhead, Option.bind_some, onEvent_answer hdecode hid hstate]
  split
  · cases heldCall (order.shuffle s.calls) callId with
    | none => rfl
    | some held => rfl
  · rfl

/-- The step lemma: with both calls up, an answer completes the conference just if the merge is
asked for and refused. -/
theorem completesAdd_iff (h : Unconferred s) (hstep : dialerStep s act = some t) {other : Int}
    (hne : other ≠ callId) (hother : s.Up other) (hup : s.Up callId) :
    CompletesAdd callId s act ↔ RefusedAdd callId s act := by
  cases act with
  | listen order env pjsip native =>
    unfold CompletesAdd RefusedAdd
    refine and_congr_right fun hhears ↦ ?_
    rw [askedMerge_answer hhears]
    constructor
    · rintro ⟨held, hasked, -, -, -, hcompletes⟩
      split at hasked
      · next hwaits =>
        refine ⟨hwaits.1, hwaits.2, fun call hcall hmergeable ↦ ?_⟩
        obtain ⟨call', hcall', heq⟩ := Option.map_eq_some_iff.mp hasked
        cases heq
        cases Option.some.inj (Eq.trans (Eq.symm hcall') hcall)
        have hreaches := hcompletes ((mergeResult_eq_zero h).mpr hmergeable) t hstep
        exact (unconferred_step h hstep).not_reachesConference hreaches
      · cases hasked
    · rintro ⟨hconsultation, hpending, hrefused⟩
      obtain ⟨c, hc, hid⟩ := (up_iff order).mp hother
      obtain ⟨held, hmem, hheld, hheldNe⟩ := heldCall_of_other ⟨c, hc, hid ▸ hne⟩
      refine ⟨held.callId, ?_, hheldNe, (up_iff order).mpr ⟨held, hmem, rfl⟩, hup, fun hzero ↦ ?_⟩
      · rw [if_pos ⟨hconsultation, hpending⟩, hheld]
        rfl
      · exact absurd ((mergeResult_eq_zero h).mp hzero) (hrefused held hheld)
  | engine | handle | setConsultationCallId | startConferenceAdd | clearConsultation =>
    exact iff_of_false (fun h ↦ h.1) (fun h ↦ h.1)

/-- Whenever the notifier hears that `callB` was answered, both calls are up. -/
def StayUp (callA callB : Int) (s : Dialer) (acts : List DialerAct) : Prop :=
  ∀ js act t, js ++ [act] <+: acts → js.foldlM dialerStep s = some t →
    HearsAnswer callB t act → t.Up callA ∧ t.Up callB

/-- For every run in which a call is added to a conference while another is up, and both stay up,
some answer completes the conference if and only if the notifier still waits for the call on some
answer, and the merge that it then asks for is refused. -/
theorem conference_add_iff {before : List DialerAct} {callA callB : Int} {uri : String}
    (reach : before.foldlM dialerStep .initial = some s) (hne : callA ≠ callB)
    (run : acts.foldlM dialerStep (s.startConferenceAdd callB uri) = some t)
    (up : StayUp callA callB (s.startConferenceAdd callB uri) acts) :
    Somewhere dialerStep (CompletesAdd callB) (s.startConferenceAdd callB uri) acts ↔
      Somewhere dialerStep (RefusedAdd callB) (s.startConferenceAdd callB uri) acts := by
  have hstart : Unconferred (s.startConferenceAdd callB uri) :=
    (unconferred_run unconferred_initial reach).startConferenceAdd callB uri
  refine exists_congr fun js ↦ exists_congr fun act ↦ exists_congr fun u ↦ ?_
  refine and_congr_right fun hpre ↦ and_congr_right fun hrun ↦ ?_
  by_cases hhears : HearsAnswer callB u act
  · obtain ⟨hA, hB⟩ := up js act u hpre hrun hhears
    obtain ⟨rest, rfl⟩ := hpre
    have hrest : (act :: rest).foldlM dialerStep u = some t := by
      simpa [List.foldlM_append, hrun] using run
    obtain ⟨v, hstep, -⟩ := Option.bind_eq_some_iff.mp hrest
    exact completesAdd_iff (unconferred_run hstart hrun) hstep hne hA hB
  · exact iff_of_false (fun h ↦ hhears h.1) (fun h ↦ hhears h.1)

end Runs

section Examples

/-- The shim calls the consultation call 1. -/
def consultEnv : Env :=
  { quietEnv with
    rc := fun
      | .pdCallStartAttendedXfer .. => 1
      | _ => 0 }

/-- The notifier hears an event, with all PJSIP calls granted. -/
def listenWith (native : Native) : DialerAct :=
  .listen ⟨id, fun _ ↦ .refl _⟩ quietEnv (refusing []) native

/-- A call is answered and shown, and a second call is made from it. -/
def consult : List DialerAct :=
  (signIn ++ [dial, ⟨.onCallState 0 5, quietEnv⟩]).map .engine ++
    List.replicate 9 (.handle 0) ++ List.replicate 9 (listenWith twoCalls) ++
    [.engine ⟨.startAttendedXfer 1 (.text "sip:z@y"), consultEnv⟩]

/-- The second call rings and is answered. -/
def answered : List DialerAct :=
  .engine ⟨.onCallState 1 5, quietEnv⟩ ::
    (List.replicate 3 (.handle 0) ++ List.replicate 2 (listenWith twoCalls))

/-- The two calls, with the first on hold: it has no active audio. -/
def firstHeld : Native :=
  twoCalls.setCall 0 fun call ↦ { call with held := true, media := [⟨true, false, 1⟩] }

/-- The second call is answered while the notifier waits for it, with the first call up. -/
structure Answering (s : Dialer) : Prop where
  hears : HearsAnswer 2 s (listenWith twoCalls)
  waits : s.ui.consultationCallId = some 2 ∧ s.ui.pendingConferenceAdd = true
  held : (heldCall s.calls 2).map (·.callId) = some 1
  up : s.Up 1 ∧ s.Up 2
  known : s.engine.initialized = true ∧ pjsipIdOf (tables s.engine) (i32AsU32 1) = some 0 ∧
    pjsipIdOf (tables s.engine) (i32AsU32 2) = some 1
  steps : (dialerStep s (listenWith twoCalls)).isSome = true

instance (s : Dialer) : Decidable (Answering s) :=
  decidable_of_iff (HearsAnswer 2 s (listenWith twoCalls) ∧
      (s.ui.consultationCallId = some 2 ∧ s.ui.pendingConferenceAdd = true) ∧
      (heldCall s.calls 2).map (·.callId) = some 1 ∧ (s.Up 1 ∧ s.Up 2) ∧
      (s.engine.initialized = true ∧ pjsipIdOf (tables s.engine) (i32AsU32 1) = some 0 ∧
        pjsipIdOf (tables s.engine) (i32AsU32 2) = some 1) ∧
      (dialerStep s (listenWith twoCalls)).isSome = true)
    ⟨fun ⟨hears, waits, held, up, known, steps⟩ ↦ ⟨hears, waits, held, up, known, steps⟩,
      fun h ↦ ⟨h.hears, h.waits, h.held, h.up, h.known, h.steps⟩⟩

/-- The run up to the answer. -/
theorem exists_answering : ∃ s t, consult.foldlM dialerStep .initial = some s ∧
    answered.foldlM dialerStep (s.startConferenceAdd 2 "sip:z@y") = some t ∧ Answering t := by
  have h : (consult.foldlM dialerStep .initial).map (fun s ↦
      (answered.foldlM dialerStep (s.startConferenceAdd 2 "sip:z@y")).map fun t ↦
        decide (Answering t)) = some (some true) := by decide +kernel
  obtain ⟨s, hs, h⟩ := Option.map_eq_some_iff.mp h
  obtain ⟨t, ht, h⟩ := Option.map_eq_some_iff.mp h
  exact ⟨s, t, hs, ht, of_decide_eq_true h⟩

/-- The run with the merge, in which both calls stay up. -/
theorem exists_stayUp : ∃ s t, consult.foldlM dialerStep .initial = some s ∧
    (answered ++ [listenWith firstHeld]).foldlM dialerStep
      (s.startConferenceAdd 2 "sip:z@y") = some t ∧
    StayUp 1 2 (s.startConferenceAdd 2 "sip:z@y") (answered ++ [listenWith firstHeld]) := by
  have h : (consult.foldlM dialerStep .initial).map (fun s ↦
      ((answered ++ [listenWith firstHeld]).foldlM (fun u act ↦
        if HearsAnswer 2 u act → u.Up 1 ∧ u.Up 2 then dialerStep u act else none)
        (s.startConferenceAdd 2 "sip:z@y")).isSome) = some true := by decide +kernel
  obtain ⟨s, hs, h⟩ := Option.map_eq_some_iff.mp h
  obtain ⟨t, ht⟩ := Option.isSome_iff_exists.mp h
  have path := Path.of_guarded ht
  refine ⟨s, t, hs, path.foldlM_eq, fun js act u hpre hrun ↦ ?_⟩
  exact (Path.iff_forall path.foldlM_eq).mp path js act u hpre hrun

/-- A call that is added while the first is on hold, as an instance: the merge is refused. -/
theorem conference_add_iff_held : ∃ s t, consult.foldlM dialerStep .initial = some s ∧
    (answered ++ [listenWith firstHeld]).foldlM dialerStep
      (s.startConferenceAdd 2 "sip:z@y") = some t ∧
    Somewhere dialerStep (CompletesAdd 2) (s.startConferenceAdd 2 "sip:z@y")
      (answered ++ [listenWith firstHeld]) := by
  obtain ⟨s, t, hs, ht, up⟩ := exists_stayUp
  obtain ⟨s', u, hs', hu, hanswering⟩ := exists_answering
  cases hs.symm.trans hs'
  refine ⟨s, t, hs, ht, (conference_add_iff hs (by decide) ht up).mpr ?_⟩
  refine ⟨answered, listenWith firstHeld, u, List.prefix_rfl, hu, hanswering.hears,
    hanswering.waits.1, hanswering.waits.2, fun held hheld hmergeable ↦ ?_⟩
  have hid : held.callId = 1 := by
    have hmap := hanswering.held
    rw [show heldCall u.calls 2 = some held from hheld] at hmap
    exact Option.some.inj hmap
  obtain ⟨-, pjA, pjB, hA, -, -, hport, -⟩ := hmergeable
  rw [hid, hanswering.known.2.1] at hA
  cases hA
  exact hport (by decide)

/-- Both calls have active audio, and are merged; no run from there on shows a conference. -/
theorem merged_without_conference : ∃ s t u, consult.foldlM dialerStep .initial = some s ∧
    answered.foldlM dialerStep (s.startConferenceAdd 2 "sip:z@y") = some t ∧
    HearsAnswer 2 t (listenWith twoCalls) ∧ t.Up 1 ∧ t.Up 2 ∧
    askedMerge t (listenWith twoCalls) = some (1, 2) ∧
    mergeResult t 1 2 (listenWith twoCalls) = 0 ∧
    dialerStep t (listenWith twoCalls) = some u ∧ ¬u.ReachesConference := by
  obtain ⟨s, t, hs, ht, hanswering⟩ := exists_answering
  have hquiet : Unconferred t :=
    unconferred_run ((unconferred_run unconferred_initial hs).startConferenceAdd _ _) ht
  have hgrants : Grants (refusing []) twoCalls 0 1 := ⟨fun _ _ ↦ rfl, by decide, by decide⟩
  have hmergeable : Mergeable t (refusing []) twoCalls 1 2 :=
    ⟨hanswering.known.1, 0, 1, hanswering.known.2.1, hanswering.known.2.2, hgrants⟩
  have hasked : askedMerge t (listenWith twoCalls) = some (1, 2) := by
    rw [listenWith, askedMerge_answer hanswering.hears, if_pos hanswering.waits]
    obtain ⟨held, hheld, hid⟩ := Option.map_eq_some_iff.mp hanswering.held
    rw [show heldCall (id t.calls) 2 = some held from hheld, Option.map_some, hid]
  obtain ⟨u, hu⟩ := Option.isSome_iff_exists.mp hanswering.steps
  exact ⟨s, t, u, hs, ht, hanswering.hears, hanswering.up.1, hanswering.up.2, hasked,
    (mergeResult_eq_zero hquiet).mpr hmergeable, hu,
    (unconferred_step hquiet hu).not_reachesConference⟩

end Examples

end PacketDial.Ui
