import PacketDial.System.RecordingNews
import PacketDial.Ui.Conference
import PacketDial.Ui.Recordings
import PacketDial.Ui.Sightings

/-!
# Events about recordings

How `RecordingService` moves its sessions on the events of the engine
(`app_flutter/lib/core/recording_service.dart:265–370`), which `EngineChannel` hands on
(`core/engine_channel.dart:495–557`, `685–702`). Whether the session of a call is unsettled after
some events depends only on whether it was before, and on what they tell of the call.
-/

namespace PacketDial.Ui

open PacketDial.Core PacketDial.Lib PacketDial.System

/-- What an event about a recording makes of the session of its call. -/
abbrev SessionUpdate := Int → Option RecordingSession → RecordingSession

/-- What the handlers of events about recordings share: without a call id they do nothing, and
otherwise they write the session of the call. A cast that throws is `none`. -/
def handleNotice (payload : Json) (read : Option SessionUpdate) (sessions : RecordingSessions) :
    Option RecordingSessions :=
  (asNumToInt (payload.get "call_id")).bind fun
    | none => some sessions
    | some callId => read.map fun update ↦
      sessions.insert callId (update callId (sessions.lookup callId))

/-- The session of a recording that started (`recording_service.dart:268–279`). -/
def readStarted (payload : Json) : Option SessionUpdate := do
  let startedAtMs ← asNumToInt (payload.get "started_at")
  let filePath ← asString (payload.get "file_path")
  return fun callId existing ↦
    { callId
      filePath := filePath.or (existing.bind (·.filePath))
      phase := .recording
      startedAt := startedAtMs.or (existing.bind (·.startedAt))
      autoRequested := existing.any (·.autoRequested) }

/-- The session of a recording that stopped (`recording_service.dart:286–299`). -/
def readStopped (now : Int) (payload : Json) : Option SessionUpdate := do
  let filePath ← asString (payload.get "file_path")
  return fun callId existing ↦
    let session := existing.getD { callId, filePath, phase := .stopped }
    { session with
      filePath := filePath.or session.filePath
      phase := .stopped
      endedAt := some now
      errorCode := none
      errorMessage := none }

/-- The session of a recording that was saved (`recording_service.dart:306–326`). -/
def readSaved (payload : Json) : Option SessionUpdate := do
  let startedAtMs ← asNumToInt (payload.get "started_at")
  let endedAtMs ← asNumToInt (payload.get "ended_at")
  let filePath ← asString (payload.get "absolute_file_path")
  let durationMs ← asNumToInt (payload.get "duration_ms")
  return fun callId existing ↦
    let session := existing.getD { callId, filePath, phase := .stopped }
    { session with
      filePath := filePath.or session.filePath
      phase := .stopped
      startedAt := startedAtMs.or session.startedAt
      endedAt := endedAtMs.or session.endedAt
      durationMs := durationMs.or session.durationMs
      errorCode := none
      errorMessage := none }

/-- The session of a recording with an error (`recording_service.dart:333–344`). -/
def readError (payload : Json) : Option SessionUpdate := do
  let errorCode ← asString (payload.get "code")
  let errorMessage ← asString (payload.get "message")
  return fun callId existing ↦
    let session := existing.getD { callId, filePath := none, phase := .failed }
    { session with
      phase := .failed
      errorCode := errorCode.or session.errorCode
      errorMessage := errorMessage.or session.errorMessage }

/-- `handleRecordingStarted` (`recording_service.dart:265–281`). -/
def handleRecordingStarted (payload : Json) :
    RecordingSessions → Option RecordingSessions :=
  handleNotice payload (readStarted payload)

/-- `handleRecordingStopped` (`recording_service.dart:283–301`). -/
def handleRecordingStopped (now : Int) (payload : Json) :
    RecordingSessions → Option RecordingSessions :=
  handleNotice payload (readStopped now payload)

/-- `handleRecordingSaved` (`recording_service.dart:303–328`). -/
def handleRecordingSaved (payload : Json) :
    RecordingSessions → Option RecordingSessions :=
  handleNotice payload (readSaved payload)

/-- `handleRecordingError` (`recording_service.dart:330–346`). -/
def handleRecordingError (payload : Json) :
    RecordingSessions → Option RecordingSessions :=
  handleNotice payload (readError payload)

/-- `handleCallEnded` (`recording_service.dart:348–370`). -/
def handleCallEnded (now callId : Int) (finalRecordingPath : Option String)
    (sessions : RecordingSessions) : RecordingSessions :=
  match sessions.lookup callId with
  | none =>
    if finalRecordingPath.any (· ≠ "") then
      sessions.insert callId
        { callId, filePath := finalRecordingPath, phase := .stopped, endedAt := some now }
    else sessions
  | some existing =>
    sessions.insert callId
      { existing with
        filePath := finalRecordingPath.or existing.filePath
        phase := if existing.phase = .recording then .stopping else existing.phase }

/-- The casts between the call and its end (`engine_channel.dart:533–544`). -/
def castCallEvent (payload : Json) : Option Unit := do
  let _ ← asString (payload.get "account_name")
  let _ ← asString (payload.get "account_user")
  let _ ← asString (payload.get "extid")
  match payload.get "customer_data" with
  | .null | .obj _ => return
  | _ => none

/-- The end of a call in the case `CallStateChanged` (`engine_channel.dart:495–557`): what comes
after it throws too late for the sessions. -/
def handleCallEnd (now : Int) (payload : Json) (sessions : RecordingSessions) :
    Option RecordingSessions := do
  let call ← eventCall now payload none
  castCallEvent payload
  if call.state = .ended then
    let recordingPath ← asString (payload.get "recording_path")
    let endedRecordingPath :=
      recordingPath.or ((sessions.lookup call.callId).bind (·.filePath))
    return handleCallEnded now call.callId endedRecordingPath sessions
  else return sessions

/-- The cases of `_handleEvent` that move sessions (`engine_channel.dart:495`, `685–702`). -/
def handleEvent (now : Int) (event : AppEvent) (sessions : RecordingSessions) :
    Option RecordingSessions :=
  if event.1 = "CallStateChanged" then handleCallEnd now event.2 sessions
  else if event.1 = "RecordingStarted" then handleRecordingStarted event.2 sessions
  else if event.1 = "RecordingStopped" then handleRecordingStopped now event.2 sessions
  else if event.1 = "RecordingSaved" then handleRecordingSaved event.2 sessions
  else if event.1 = "RecordingError" then handleRecordingError event.2 sessions
  else some sessions

/-- The session is starting, recorded or stopping. -/
def RecordingSession.isUnsettled (session : RecordingSession) : Bool :=
  session.phase = .starting || session.phase = .recording || session.phase = .stopping

/-- The session of a call is. -/
def unsettled (sessions : RecordingSessions) (callId : Int) : Bool :=
  (sessions.lookup callId).any (·.isUnsettled)

/-- The sessions after some events, where one whose handler throws is passed over. -/
def afterEvents (now : Int) (sessions : RecordingSessions) (events : List AppEvent) :
    RecordingSessions :=
  events.foldl (fun sessions event ↦ (handleEvent now event sessions).getD sessions) sessions

/-- Whether an event that can be read tells that its call is recorded. -/
def noticeOf (event : AppEvent) : Option Bool :=
  if event.1 = "RecordingStarted" then (readStarted event.2).map fun _ ↦ true
  else if event.1 = "RecordingStopped" then (readStopped 0 event.2).map fun _ ↦ false
  else if event.1 = "RecordingSaved" then (readSaved event.2).map fun _ ↦ false
  else if event.1 = "RecordingError" then (readError event.2).map fun _ ↦ false
  else none

/-- Whether the session of a call is unsettled after an event, if it was `b` before. -/
def toldBy (callId : Int) (b : Bool) (event : AppEvent) : Bool :=
  if asNumToInt (event.2.get "call_id") = some (some callId) then (noticeOf event).getD b else b

section Handlers

variable {callId : Int} {sessions : RecordingSessions} {payload : Json} {update : SessionUpdate}

/-- A recording that started is recorded. -/
theorem unsettled_of_readStarted (h : update ∈ readStarted payload) (id : Int)
    (existing : Option RecordingSession) : (update id existing).isUnsettled = true := by
  simp only [readStarted, Option.mem_def, Option.bind_eq_bind, Option.bind_eq_some_iff,
    Option.pure_def, Option.some.injEq] at h
  obtain ⟨_, -, _, -, rfl⟩ := h
  rfl

/-- One that stopped is not. -/
theorem settled_of_readStopped {now : Int} (h : update ∈ readStopped now payload) (id : Int)
    (existing : Option RecordingSession) : (update id existing).isUnsettled = false := by
  simp only [readStopped, Option.mem_def, Option.bind_eq_bind, Option.bind_eq_some_iff,
    Option.pure_def, Option.some.injEq] at h
  obtain ⟨_, -, rfl⟩ := h
  rfl

/-- Nor is one that was saved. -/
theorem settled_of_readSaved (h : update ∈ readSaved payload) (id : Int)
    (existing : Option RecordingSession) : (update id existing).isUnsettled = false := by
  simp only [readSaved, Option.mem_def, Option.bind_eq_bind, Option.bind_eq_some_iff,
    Option.pure_def, Option.some.injEq] at h
  obtain ⟨_, -, _, -, _, -, _, -, rfl⟩ := h
  rfl

/-- Nor is one with an error. -/
theorem settled_of_readError (h : update ∈ readError payload) (id : Int)
    (existing : Option RecordingSession) : (update id existing).isUnsettled = false := by
  simp only [readError, Option.mem_def, Option.bind_eq_bind, Option.bind_eq_some_iff,
    Option.pure_def, Option.some.injEq] at h
  obtain ⟨_, -, _, -, rfl⟩ := h
  rfl

/-- The time of an event is not read. -/
theorem map_readStopped (now : Int) (payload : Json) (b : Bool) :
    ((readStopped now payload).map fun _ ↦ b) = (readStopped 0 payload).map fun _ ↦ b := by
  unfold readStopped
  cases asString (payload.get "file_path") <;> rfl

/-- Writing a session. -/
theorem unsettled_insert (id : Int) (session : RecordingSession) :
    unsettled (sessions.insert id session) callId =
      if id = callId then session.isUnsettled else unsettled sessions callId := by
  unfold unsettled
  split
  · next heq =>
    subst heq
    rw [AList.lookup_insert]
    rfl
  · next hne => rw [AList.lookup_insert_ne (Ne.symm hne)]

/-- An event about a recording settles what all its updates settle. -/
theorem unsettled_handleNotice {read : Option SessionUpdate} {b : Bool}
    (hread : ∀ update ∈ read, ∀ id existing, (update id existing).isUnsettled = b) :
    unsettled ((handleNotice payload read sessions).getD sessions) callId =
      if asNumToInt (payload.get "call_id") = some (some callId) then
        (read.map fun _ ↦ b).getD (unsettled sessions callId)
      else unsettled sessions callId := by
  unfold handleNotice
  cases asNumToInt (payload.get "call_id") with
  | none => rfl
  | some id =>
    cases id with
    | none => simp
    | some id =>
      cases read with
      | none => simp
      | some update =>
        simp only [Option.bind_some, Option.map_some, Option.getD_some, Option.some.injEq]
        rw [unsettled_insert, hread update rfl]

/-- The end of a call settles nothing. -/
theorem unsettled_handleCallEnded (now id : Int) (path : Option String) :
    unsettled (handleCallEnded now id path sessions) callId = unsettled sessions callId := by
  have same {session : RecordingSession} (h : session.isUnsettled =
      ((sessions.lookup id).any (·.isUnsettled))) :
      unsettled (sessions.insert id session) callId = unsettled sessions callId := by
    rw [unsettled_insert]
    split
    · next heq =>
      rw [h, ← heq]
      rfl
    · rfl
  unfold handleCallEnded
  cases hl : sessions.lookup id with
  | none =>
    dsimp only
    split
    · refine same ?_
      rw [hl]
      rfl
    · rfl
  | some existing =>
    refine same ?_
    rw [hl]
    rcases existing with ⟨_, _, phase, _⟩
    cases phase <;> rfl

/-- Neither does its event. -/
theorem unsettled_handleCallEnd (now : Int) (payload : Json) :
    unsettled ((handleCallEnd now payload sessions).getD sessions) callId =
      unsettled sessions callId := by
  unfold handleCallEnd
  cases eventCall now payload none with
  | none => rfl
  | some call =>
    cases castCallEvent payload with
    | none => rfl
    | some _ =>
      by_cases hended : call.state = .ended
      · cases asString (payload.get "recording_path") with
        | none => simp [hended]
        | some path =>
          simp only [hended, if_true, Option.bind_eq_bind, Option.bind_some,
            Option.pure_def, Option.getD_some]
          exact unsettled_handleCallEnded now call.callId _
      · simp [hended]

/-- How an event moves the session of a call. -/
theorem unsettled_handleEvent (now : Int) (event : AppEvent) :
    unsettled ((handleEvent now event sessions).getD sessions) callId =
      toldBy callId (unsettled sessions callId) event := by
  obtain ⟨type, payload⟩ := event
  unfold handleEvent toldBy noticeOf
  by_cases hcall : type = "CallStateChanged"
  · subst hcall
    simpa using unsettled_handleCallEnd now payload
  by_cases hstarted : type = "RecordingStarted"
  · subst hstarted
    exact unsettled_handleNotice fun _ h ↦ unsettled_of_readStarted h
  by_cases hstopped : type = "RecordingStopped"
  · subst hstopped
    refine (unsettled_handleNotice fun _ h ↦ settled_of_readStopped h).trans ?_
    rw [map_readStopped]
    rfl
  by_cases hsaved : type = "RecordingSaved"
  · subst hsaved
    exact unsettled_handleNotice fun _ h ↦ settled_of_readSaved h
  by_cases herror : type = "RecordingError"
  · subst herror
    exact unsettled_handleNotice fun _ h ↦ settled_of_readError h
  simp [hcall, hstarted, hstopped, hsaved, herror]

/-- How some events move the session of a call. -/
theorem unsettled_afterEvents (now : Int) (events : List AppEvent) :
    unsettled (afterEvents now sessions events) callId =
      events.foldl (toldBy callId) (unsettled sessions callId) := by
  induction events generalizing sessions with
  | nil => rfl
  | cons event events ih =>
    rw [afterEvents, List.foldl_cons, List.foldl_cons, ← unsettled_handleEvent now event]
    exact ih

end Handlers

section Told

variable {callId : Int} {b c : Bool}

/-- A session that is unsettled after an event would be, had it been unsettled before. -/
theorem toldBy_mono (h : b = true → c = true) {event : AppEvent}
    (hb : toldBy callId b event = true) : toldBy callId c event = true := by
  unfold toldBy at *
  split at hb
  · next heq =>
    rw [if_pos heq]
    cases hnotice : noticeOf event with
    | none =>
      rw [hnotice] at hb
      exact h hb
    | some told =>
      rw [hnotice] at hb
      exact hb
  · next hne =>
    rw [if_neg hne]
    exact h hb

/-- So it is with some events. -/
theorem foldl_toldBy_mono (h : b = true → c = true) {events : List AppEvent}
    (hb : events.foldl (toldBy callId) b = true) : events.foldl (toldBy callId) c = true := by
  induction events generalizing b c with
  | nil => exact h hb
  | cons event events ih => exact ih (fun hevent ↦ toldBy_mono h hevent) hb

/-- Other events tell nothing of recordings. -/
theorem toldBy_other {event : AppEvent} (h : event.1 ∉ recordingTypes) :
    toldBy callId b event = b := by
  have hnone : noticeOf event = none := by
    simp only [recordingTypes, List.mem_cons, List.not_mem_nil, or_false, not_or] at h
    simp [noticeOf, h]
  simp [toldBy, hnone]

/-- What the events of a run tell is what those about recordings tell. -/
theorem foldl_toldBy_eventsOf (trace : List Action) :
    (eventsOf trace).foldl (toldBy callId) b =
      (recordingView.trace trace).foldl (toldBy callId) b := by
  induction trace generalizing b with
  | nil => rfl
  | cons action trace ih =>
    cases action with
    | event type payload =>
      have hact := announceView_event recordingTypes type payload
      by_cases hmem : type ∈ recordingTypes
      · have hlog : type ≠ "EngineLog" := by
          rintro rfl
          exact absurd hmem (by decide)
        rw [if_pos ⟨hmem, hlog⟩] at hact
        simp only [eventsOf, View.trace, List.filterMap_cons, hact, List.foldl_cons]
        exact ih
      · rw [if_neg fun hand ↦ hmem hand.1] at hact
        simp only [eventsOf, View.trace, List.filterMap_cons, hact, List.foldl_cons]
        rw [toldBy_other hmem]
        exact ih
    | _ => exact ih

variable {id id' : UInt32} {T T' : CallTables} {rc : EngineErrorCode} {news : List AppEvent}

/-- What a notice of the engine tells, it tells of its call only. -/
theorem toldBy_notice {event : AppEvent} (hcall : event.2.get "call_id" = .ofU32 id')
    (hnotice : noticeOf event = some c) :
    toldBy id.toNat b event = if id' = id then c else b := by
  have hnum : asNumToInt (event.2.get "call_id") = some (some (id'.toNat : Int)) := by
    rw [hcall]
    rfl
  unfold toldBy
  rw [hnum, hnotice]
  by_cases heq : id' = id
  · rw [if_pos (by rw [heq]), if_pos heq]
    rfl
  · have hne : (id'.toNat : Int) ≠ id.toNat := key_ne heq
    rw [if_neg (by simpa using hne), if_neg heq]

/-- What the four notices tell. -/
theorem toldBy_started (filePath : String) (startedAt : Nat) :
    toldBy id.toNat b (startedNews id' filePath startedAt) = if id' = id then true else b :=
  toldBy_notice rfl rfl

theorem toldBy_stopped (filePath : String) :
    toldBy id.toNat b (stoppedNews id' filePath) = if id' = id then false else b :=
  toldBy_notice rfl rfl

theorem toldBy_saved (filePath : String)
    (startedAt endedAt durationMs fileSizeBytes : Nat) (format : String) :
    toldBy id.toNat b
        (savedNews id' filePath startedAt endedAt durationMs fileSizeBytes format) =
      if id' = id then false else b :=
  toldBy_notice rfl rfl

theorem toldBy_error (code message : String) :
    toldBy id.toNat b (errorNews id' code message) = if id' = id then false else b :=
  toldBy_notice rfl rfl

/-- A call whose recording begins is up. -/
theorem not_endedIn_begun {call new : Call} (hstate : call.state = .inCall)
    (hnew : new.state = call.state) : ¬EndedIn (T.setCall id new) id := by
  rintro ⟨found, hfound, hended⟩
  rw [lookup_setCall] at hfound
  cases hfound
  rw [hnew, hstate] at hended
  cases hended

/-- A recording function that leaves a session unsettled found it so, or the call is up. -/
theorem live_of_outcome (h : RecordingOutcome id' T rc news T')
    (hb : news.foldl (toldBy id.toNat) b = true) : b = true ∨ ¬EndedIn T' id := by
  cases h with
  | refused => exact Or.inl hb
  | failed =>
    rw [List.foldl_cons, toldBy_error] at hb
    split at hb
    · cases hb
    · exact Or.inl hb
  | begun hl hstate =>
    rw [List.foldl_cons, toldBy_started] at hb
    split at hb
    · next heq =>
      subst heq
      exact Or.inr (not_endedIn_begun hstate rfl)
    · exact Or.inl hb
  | finished =>
    rw [List.foldl_cons, List.foldl_cons, toldBy_stopped, toldBy_saved] at hb
    split at hb
    · cases hb
    · exact Or.inl hb

/-- At the end of a call it settles the session, if it tells anything. -/
theorem settled_of_outcome (h : RecordingOutcome id T rc news T') (hended : EndedIn T id)
    (hne : news ≠ []) : news.foldl (toldBy id.toNat) b = false := by
  cases h with
  | refused => exact absurd rfl hne
  | failed => rw [List.foldl_cons, toldBy_error, if_pos rfl, List.foldl_nil]
  | begun hl hstate =>
    obtain ⟨found, hfound, hstate'⟩ := hended
    cases hl.symm.trans hfound
    cases hstate.symm.trans hstate'
  | finished =>
    rw [List.foldl_cons, List.foldl_cons, toldBy_stopped, toldBy_saved, if_pos rfl, List.foldl_nil]

/-- A request that leaves the session starting or stopping leaves it unsettled only if the call is
up. -/
theorem live_of_accepted (h : RecordingOutcome id T rc news T')
    (hrc : rc = .ok ∨ rc = .mediaNotReady) (hb : news.foldl (toldBy id.toNat) b = true) :
    ¬EndedIn T' id := by
  cases h with
  | refused hne hready =>
    obtain ⟨call, hl, hlive, -⟩ := hready (hrc.resolve_left hne)
    rintro ⟨found, hfound, hended⟩
    cases hl.symm.trans hfound
    exact hlive hended
  | failed => rcases hrc with hrc | hrc <;> cases hrc
  | begun hl hstate => exact not_endedIn_begun hstate rfl
  | finished =>
    rw [List.foldl_cons, List.foldl_cons, toldBy_stopped, toldBy_saved, if_pos rfl] at hb
    cases hb

end Told

end PacketDial.Ui
