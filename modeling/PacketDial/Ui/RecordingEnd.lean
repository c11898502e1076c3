import PacketDial.Ui.RecordingEvents

/-!
# Recordings at the end of a call

`RecordingService` with the engine it asks and the events on their way to it. The end of a call
turns the phase `recording` into `stopping` and leaves `starting` as it is, so the session is
settled only by what the engine tells when it stops the recording of the call.
-/

namespace PacketDial.Ui

open PacketDial.Core PacketDial.Lib PacketDial.System

/-- An invocation of `startRecordingForCall` that waits. -/
structure StartCall where
  callId : Int
  autoRequested : Bool
  retryCount : Nat
  await : StartAwait
  deriving DecidableEq

/-- How a request to the engine goes: it throws, or the engine runs it. -/
inductive Request where
  | throws (text : String)
  | runs (env : Env)

/-- The engine, the events that it has pushed and that are handled, the sessions, and the
invocations that wait. -/
structure Recorder where
  engine : Engine
  pushed : List AppEvent
  handled : List AppEvent
  sessions : RecordingSessions
  starts : List StartCall

/-- Nothing has happened yet. -/
def Recorder.initial : Recorder := ⟨Engine.initial, [], [], ∅, []⟩

/-- The steps: an operation of the engine, the next event handled, `startRecordingForCall` entered
and the `k`th invocation that waits taken up again, with the path if one can be made, and
`stopRecordingForCall`. `toggleRecordingForCall` and `maybeAutoStartForCall` enter these. -/
inductive RecorderAct where
  | engine (i : Input)
  | handle (now : Int)
  | start (callId : Int) (autoRequested : Bool)
  | resume (k : Nat) (path : Option String) (request : Request)
  | stop (callId : Int) (request : Request)

/-- The command that `VoipEngine` sends (`ffi/engine.dart:403–425`), which the engine parses. -/
def requestInput (cmd : String) (fields : List (String × Json)) (env : Env) : Input where
  op := .sendCommand (.text cmd) (.text "")
  env := { env with parseJson := fun _ ↦ some (.obj fields) }

/-- What it returns. -/
def requestResult (engine : Engine) (cmd : String) (fields : List (String × Json)) (env : Env) :
    Int :=
  ((engineSendCommand (.text cmd) (.text "")).run (requestInput cmd fields env).env engine).value

namespace Recorder

/-- An operation of the engine, which pushes events. -/
def operate (s : Recorder) (i : Input) : Option Recorder :=
  (engineStep s.engine i).map fun engine ↦
    { s with engine := engine, pushed := s.pushed ++ eventsOf (i.outcome s.engine).trace }

/-- A session is written. -/
def setSession (s : Recorder) (callId : Int) (session : RecordingSession) : Recorder :=
  { s with sessions := s.sessions.insert callId session }

/-- A request to the engine, while the session of the call is `session`. -/
def ask (s : Recorder) (cmd : String) (fields : List (String × Json)) :
    Request → Option (Recorder × EngineReply)
  | .throws text => some (s, .exception text)
  | .runs env => (s.operate (requestInput cmd fields env)).map fun t ↦
    (t, .code (requestResult s.engine cmd fields env))

/-- An event is passed on unless handling it throws (`core/engine_channel.dart:230–242`). -/
def handle (s : Recorder) (now : Int) (event : AppEvent) : Recorder :=
  match handleEvent now event s.sessions with
  | some sessions => { s with sessions := sessions, handled := s.handled ++ [event] }
  | none => s

/-- An invocation gets on until it waits or returns. -/
def proceed (s : Recorder) (start : StartCall) : StartProgress → Recorder
  | .waits await => { s with starts := s.starts ++ [{ start with await }] }
  | .returns _ => s

/-- `startRecordingForCall` with its path (`recording_service.dart:155–196`). -/
def requestStart (s : Recorder) (start : StartCall) (existing : Option RecordingSession)
    (path : String) (request : Request) : Option Recorder :=
  let session := startingSession start.callId start.autoRequested existing path
  let fields := [("call_id", .ofI32 start.callId), ("file_path", .str (startPath existing path))]
  ((s.setSession start.callId session).ask "CallStartRecording" fields request).map
    fun (t, reply) ↦
      let concluded := concludeStart start.retryCount session reply
      (t.setSession start.callId concluded.1).proceed
        { start with retryCount := start.retryCount + 1 } concluded.2

/-- `startRecordingForCall` taken up again. -/
def resume (s : Recorder) (start : StartCall) (path : Option String) (request : Request) :
    Option Recorder :=
  match start.await, path with
  | .delay, _ => some (s.proceed start (enterStart (s.sessions.lookup start.callId)))
  | .path _, none => some s
  | .path existing, some path => s.requestStart start existing path request

end Recorder

/-- `stopRecordingForCall` once the engine has answered (`recording_service.dart:208–228`). -/
def concludeStop (session : RecordingSession) : EngineReply → RecordingSession
  | .code result =>
    if result = 0 then session
    else session.fail "EngineError" s!"Failed to stop recording (code {result})"
  | .exception text => session.fail "Exception" text

/-- `stopRecordingForCall` (`recording_service.dart:199–229`). -/
def Recorder.stop (s : Recorder) (callId : Int) (request : Request) : Option Recorder :=
  match s.sessions.lookup callId with
  | none => some s
  | some existing =>
    if existing.isActive then
      let session := { existing with phase := .stopping }
      ((s.setSession callId session).ask "CallStopRecording" [("call_id", .ofI32 callId)]
        request).map fun (t, reply) ↦ t.setSession callId (concludeStop session reply)
    else some s

/-- One step. -/
def recorderStep (s : Recorder) : RecorderAct → Option Recorder
  | .engine i => s.operate i
  | .handle now =>
    match s.pushed with
    | [] => none
    | event :: pushed => some ({ s with pushed := pushed }.handle now event)
  | .start callId autoRequested =>
    some (s.proceed ⟨callId, autoRequested, 0, .delay⟩ (enterStart (s.sessions.lookup callId)))
  | .resume k path request =>
    (s.starts[k]?).bind fun start ↦
      { s with starts := s.starts.eraseIdx k }.resume start path request
  | .stop callId request => s.stop callId request

/-- The session of a call is unsettled once the events on their way are handled. -/
def Recorder.unsettledWhenTold (s : Recorder) (callId : Int) : Bool :=
  unsettled (afterEvents 0 s.sessions s.pushed) callId

/-- PJSIP records the call, and the engine knows of it. -/
def recordedIn (env : Env) (engine : Engine) (id : UInt32) : Bool :=
  (engine.calls.lookup id).any fun call ↦ call.recordingPath.isSome &&
    call.pjsipCallId.any fun pjId ↦ env.rc (.pdCallIsRecording pjId) ≠ 0

/-- A callback that ends a call whose session would stay unsettled finds it recorded. -/
def StopsRecording (s : Recorder) (i : Input) : Prop :=
  ∀ id ∈ stateTarget i s.engine .ended, s.unsettledWhenTold id.toNat = true →
    recordedIn i.env s.engine id = true

/-- The operations of the engine overwrite no record and hold no ended call, and callbacks that end
a call stop its recording. -/
def Settling (s : Recorder) : RecorderAct → Prop
  | .engine i => LeavesEnded s.engine i ∧ StopsRecording s i
  | _ => True

instance (s : Recorder) (i : Input) : Decidable (StopsRecording s i) :=
  Option.decidableForallMem (stateTarget i s.engine .ended)

instance (s : Recorder) (act : RecorderAct) : Decidable (Settling s act) :=
  match act with
  | .engine _ => inferInstanceAs (Decidable (_ ∧ _))
  | .handle _ | .start .. | .resume .. | .stop .. => inferInstanceAs (Decidable True)

/-- The event tells that a call has ended. -/
def EndsCall (callId : Int) (event : AppEvent) : Prop :=
  event.1 = "CallStateChanged" ∧ asNumToInt (event.2.get "call_id") = some (some callId) ∧
    asString (event.2.get "state") = some (some "Ended")

/-- The event is about the recording of a call. -/
def IsNotice (callId : Int) (event : AppEvent) : Prop :=
  event.1 ∈ recordingTypes ∧ asNumToInt (event.2.get "call_id") = some (some callId)

instance (callId : Int) (event : AppEvent) : Decidable (EndsCall callId event) :=
  inferInstanceAs (Decidable (_ ∧ _ ∧ _))

instance (callId : Int) (event : AppEvent) : Decidable (IsNotice callId event) :=
  inferInstanceAs (Decidable (_ ∧ _))

/-- What holds in every state that is reached: an end that was told has happened, and the session of
a call that has ended will be settled. -/
structure Tracks (id : UInt32) (s : Recorder) : Prop where
  routed : Routed s.engine
  ended : ∀ event ∈ s.handled ++ s.pushed, EndsCall id.toNat event → EndedIn (tables s.engine) id
  settles : s.unsettledWhenTold id.toNat = true → ¬EndedIn (tables s.engine) id

section Engine

variable {i : Input} {engine : Engine} {id : UInt32} {T : CallTables} {payloads : List Json}

/-- A record has ended if its state is that. -/
theorem endedIn_iff : EndedIn T id ↔ stateOf T id = some .ended := by
  unfold EndedIn stateOf
  rw [Option.map_eq_some_iff]

/-- A call that has ended after a step had ended before, or the step ends it. -/
theorem endedIn_before (h : Sighting i engine payloads T) (hended : EndedIn T id) :
    EndedIn (tables engine) id ∨ stateTarget i engine .ended = some id := by
  rw [endedIn_iff] at hended ⊢
  cases h with
  | silent hstate =>
    rw [hstate] at hended
    exact Or.inl hended
  | @live call _ _ _ hlive hstate =>
    rw [hstate] at hended
    by_cases heq : id = call.id
    · rw [heq, Function.update_self] at hended
      exact absurd (Option.some.inj hended) hlive
    · rw [Function.update_of_ne heq] at hended
      exact Or.inl hended
  | @opened accountId uri direction pjCallId _ _ _ =>
    have hstate : stateOf ((tables engine).track _ pjCallId) = Function.update
        (stateOf (tables engine)) (tables engine).nextCallId (some .ringing) :=
      stateOf_setCall (tables engine) _
        (newCall (tables engine).nextCallId accountId uri direction pjCallId)
    rw [hstate] at hended
    by_cases heq : id = (tables engine).nextCallId
    · rw [heq, Function.update_self] at hended
      cases hended
    · rw [Function.update_of_ne heq] at hended
      exact Or.inl hended
  | @ended call _ _ _ htarget _ _ _ hstate =>
    rw [hstate] at hended
    by_cases heq : id = call.id
    · rw [heq]
      exact Or.inr htarget
    · rw [Function.update_of_ne heq] at hended
      exact Or.inl hended
  | again _ _ _ _ hstate =>
    rw [hstate] at hended
    exact Or.inl hended

/-- The report of a record tells its id and its state. -/
theorem endsCall_callPayload {accountName displayName username : String} {call : Call}
    (h : EndsCall id.toNat
      ("CallStateChanged", callPayload accountName displayName username call)) :
    call.id = id ∧ call.state = .ended := by
  obtain ⟨-, hid, hstate⟩ := h
  constructor
  · by_contra hne
    refine key_ne hne ?_
    have hnum : asNumToInt ((callPayload accountName displayName username call).get "call_id") =
        some (some (call.id.toNat : Int)) := rfl
    rw [hnum] at hid
    exact Option.some.inj (Option.some.inj hid)
  · have htext : asString ((callPayload accountName displayName username call).get "state") =
        some (some call.state.variantName) := rfl
    rw [htext] at hstate
    revert hstate
    cases call.state <;> decide

/-- An end that is told has happened. -/
theorem endedIn_of_told (h : Sighting i engine payloads T) {payload : Json}
    (hmem : payload ∈ payloads) (hend : EndsCall id.toNat ("CallStateChanged", payload)) :
    EndedIn T id := by
  have told {call : Call} {report : CallAct} (hr : IsReport call report)
      (hmem : payload ∈ reports [report]) : call.id = id ∧ call.state = .ended := by
    obtain ⟨accountName, displayName, username, rfl⟩ := hr
    obtain rfl := List.mem_singleton.mp hmem
    exact endsCall_callPayload hend
  rw [endedIn_iff]
  cases h with
  | silent => cases hmem
  | live hr hlive => exact absurd (told hr hmem).2 hlive
  | opened _ hr => cases (told hr hmem).2
  | ended _ hr _ _ hstate =>
    rw [hstate, (told hr hmem).1, Function.update_self]
  | again _ hr _ hwas hstate =>
    rw [hstate, ← (told hr hmem).1]
    exact hwas

/-- The reports of a step are among its events. -/
theorem mem_reports {event : AppEvent} (hmem : event ∈ eventsOf (i.outcome engine).trace)
    (htype : event.1 = "CallStateChanged") : event.2 ∈ reports (i.acts engine) := by
  obtain ⟨action, haction, heq⟩ := List.mem_filterMap.mp hmem
  cases action with
  | event type payload =>
    cases heq
    obtain rfl : type = "CallStateChanged" := htype
    refine List.mem_filterMap.mpr ⟨.changed payload, ?_, rfl⟩
    exact List.mem_filterMap.mpr ⟨_, haction, rfl⟩
  | _ => cases heq

/-- The end of a call that is recorded settles its session. -/
theorem settled_of_end (htarget : stateTarget i engine .ended = some id)
    (hrec : recordedIn i.env engine id = true) (b : Bool) :
    (recordingView.trace (i.outcome engine).trace).foldl (toldBy id.toNat) b = false := by
  unfold stateTarget at htarget
  split at htarget
  · next pjCallId invState hop =>
    rw [Option.ite_none_right_eq_some] at htarget
    obtain ⟨hinv, hmap⟩ := htarget
    unfold recordedIn at hrec
    rw [Option.any_eq_true] at hrec
    obtain ⟨call, hl, hcall⟩ := hrec
    rw [Bool.and_eq_true, Option.any_eq_true] at hcall
    obtain ⟨hpath, pjId, hpj, hpjRec⟩ := hcall
    have hold : recordingView.Yields (pjsipOnCallState pjCallId invState) i.env engine _ :=
      outcome_of_disconnect hinv hmap hl hpj hpath (of_decide_eq_true hpjRec)
    have hrun : i.outcome engine = (pjsipOnCallState pjCallId invState).run i.env engine := by
      rw [Input.outcome, hop]
      rfl
    obtain ⟨hne, T, rc, hended, houtcome⟩ := hold
    rw [hrun]
    exact settled_of_outcome houtcome hended hne
  · cases htarget

end Engine

section Steps

variable {s t u : Recorder} {i : Input} {id : UInt32} {callId : Int}

/-- Whether a session will be unsettled, by what the events on their way tell. -/
theorem unsettledWhenTold_eq (s : Recorder) (callId : Int) : s.unsettledWhenTold callId =
    s.pushed.foldl (toldBy callId) (unsettled s.sessions callId) :=
  unsettled_afterEvents 0 s.pushed

/-- What an operation of the engine adds to that. -/
theorem unsettledWhenTold_operate (ht : s.operate i = some t) (callId : Int) :
    t.unsettledWhenTold callId =
      (recordingView.trace (i.outcome s.engine).trace).foldl (toldBy callId)
        (s.unsettledWhenTold callId) := by
  obtain ⟨engine, -, rfl⟩ := Option.map_eq_some_iff.mp ht
  rw [unsettledWhenTold_eq, List.foldl_append, foldl_toldBy_eventsOf, unsettledWhenTold_eq]

/-- An operation of the engine keeps the invariant. -/
theorem Tracks.operate (h : Tracks id s) (hi : LeavesEnded s.engine i) (hstops : StopsRecording s i)
    (ht : s.operate i = some t) : Tracks id t := by
  have htold := unsettledWhenTold_operate ht id.toNat
  obtain ⟨engine, hs, rfl⟩ := Option.map_eq_some_iff.mp ht
  have sighting := sighting_of_change h.routed.1 (step_change h.routed.1 hs)
  refine ⟨routed_step h.routed hi hs, ?_, ?_⟩
  · intro event hevent hend
    rw [← List.append_assoc, List.mem_append] at hevent
    rcases hevent with hevent | hevent
    · exact endedIn_step h.routed hi hs (h.ended event hevent hend)
    · obtain ⟨type, payload⟩ := event
      obtain rfl : type = "CallStateChanged" := hend.1
      exact endedIn_of_told sighting (mem_reports hevent rfl) hend
  · intro hunsettled hended
    rw [hunsettled] at htold
    obtain ⟨id', T, rc, houtcome⟩ := step_recording hs
    rcases live_of_outcome houtcome htold.symm with hbefore | hlive
    · rcases endedIn_before sighting hended with hended | htarget
      · exact h.settles hbefore hended
      · rw [settled_of_end htarget (hstops id htarget hbefore)] at htold
        cases htold
    · exact hlive hended

/-- Sessions that are settled if they were keep it too. -/
theorem Tracks.of_sessions (h : Tracks id s) (hengine : t.engine = s.engine)
    (hpushed : t.pushed = s.pushed) (hhandled : t.handled = s.handled)
    (hsessions : unsettled t.sessions id.toNat = true → unsettled s.sessions id.toNat = true) :
    Tracks id t := by
  obtain ⟨routed, ended, settles⟩ := h
  rw [unsettledWhenTold_eq] at settles
  refine ⟨?_, ?_, ?_⟩
  · rw [hengine]
    exact routed
  · rw [hhandled, hpushed, hengine]
    exact ended
  · rw [unsettledWhenTold_eq, hpushed, hengine]
    exact fun hunsettled ↦ settles (foldl_toldBy_mono hsessions hunsettled)

/-- So does handling the next event. -/
theorem Tracks.handle {event : AppEvent} {pushed : List AppEvent} (h : Tracks id s)
    (hpushed : s.pushed = event :: pushed) (now : Int) :
    Tracks id ({ s with pushed := pushed }.handle now event) := by
  obtain ⟨routed, ended, settles⟩ := h
  rw [hpushed] at ended
  rw [unsettledWhenTold_eq, hpushed, List.foldl_cons, ← unsettled_handleEvent now event] at settles
  unfold Recorder.handle
  cases hevent : handleEvent now event s.sessions with
  | none =>
    rw [hevent] at settles
    refine ⟨routed, fun e he ↦ ended e ?_, ?_⟩
    · rw [List.mem_append, List.mem_cons]
      exact (List.mem_append.mp he).imp_right Or.inr
    · rw [unsettledWhenTold_eq]
      exact settles
  | some sessions =>
    rw [hevent] at settles
    refine ⟨routed, fun e he ↦ ended e ?_, ?_⟩
    · rw [← List.singleton_append, ← List.append_assoc]
      exact he
    · rw [unsettledWhenTold_eq]
      exact settles

/-- Writing the session of a call. -/
theorem unsettled_setSession (session : RecordingSession) :
    unsettled (s.setSession callId session).sessions id.toNat =
      if callId = id.toNat then session.isUnsettled else unsettled s.sessions id.toNat :=
  unsettled_insert callId session

section Requests

variable {cmd : String} {fields : List (String × Json)} {env : Env}

/-- A request neither holds nor opens a call. -/
theorem leavesEnded_request (hcmd : cmd ∈ recordingCommands) (engine : Engine) :
    LeavesEnded engine (requestInput cmd fields env) := by
  have hof : ∀ c ∈ commandOf (requestInput cmd fields env) engine, c.1 = cmd := by
    intro c hc
    have hc : (if engine.initialized then some (cmd, Json.obj fields) else none) = some c := hc
    rw [Option.ite_none_right_eq_some] at hc
    obtain rfl := Option.some.inj hc.2
    rfl
  constructor
  · intro id hid
    rw [holdTarget, Option.mem_def, Option.bind_eq_some_iff] at hid
    obtain ⟨c, hc, hid⟩ := hid
    rw [hof c hc, if_neg] at hid
    · cases hid
    · rintro rfl
      exact absurd hcmd (by decide)
  · rintro (hstart | hopen)
    · obtain ⟨c, hc, hname⟩ := Option.map_eq_some_iff.mp hstart
      rw [hof c hc] at hname
      subst hname
      exact absurd hcmd (by decide)
    · cases hopen

/-- What a request tells, with the code it returns. -/
theorem outcome_request (env : Env) (hcmd : cmd ∈ recordingCommands)
    (hcall : (Json.obj fields).get "call_id" = .ofU32 id) (engine : Engine) :
    ∃ rc : EngineErrorCode, requestResult engine cmd fields env = rc.code ∧
      RecordingOutcome id (tables engine) rc
        (recordingView.trace ((requestInput cmd fields env).outcome engine).trace)
        (tables ((requestInput cmd fields env).outcome engine).state) := by
  have houtcome : recordingView.Yields (engineSendCommand (.text cmd) (.text ""))
      (requestInput cmd fields env).env engine _ :=
    outcome_engineSendCommand rfl rfl rfl hcmd
  obtain ⟨rc, hvalue, h⟩ := houtcome
  rw [callIdField_of_get hcall] at h
  refine ⟨rc, hvalue, ?_⟩
  have hrun : (requestInput cmd fields env).outcome engine =
      (discard (engineSendCommand (.text cmd) (.text ""))).run
        (requestInput cmd fields env).env engine := rfl
  rw [hrun, Traced.run_discard]
  exact h

/-- A request keeps the invariant if the session is left unsettled only where the engine accepts it
or the media is not ready. -/
theorem Tracks.request (h : Tracks id s) (hcmd : cmd ∈ recordingCommands)
    (hcall : (Json.obj fields).get "call_id" = .ofI32 callId)
    (ht : s.operate (requestInput cmd fields env) = some t) {session : RecordingSession}
    (hsession : session.isUnsettled = true → requestResult s.engine cmd fields env = 0 ∨
      requestResult s.engine cmd fields env = mediaNotReady) :
    Tracks id (t.setSession callId session) := by
  have told : Tracks id t :=
    h.operate (leavesEnded_request hcmd s.engine) (fun _ hid ↦ by cases hid) ht
  obtain ⟨engine, hs, rfl⟩ := Option.map_eq_some_iff.mp ht
  by_cases hid : callId = id.toNat
  · by_cases hunsettled : session.isUnsettled = true
    · refine ⟨told.routed, told.ended, fun hafter ↦ ?_⟩
      subst hid
      have hu32 : (Json.obj fields).get "call_id" = .ofU32 id := by
        rw [hcall, Json.ofI32, if_pos (Int.natCast_nonneg _)]
        rfl
      have hoperate := engineStep_eq hs
      obtain ⟨rc, hvalue, houtcome⟩ := outcome_request env hcmd hu32 s.engine
      rw [← hoperate] at houtcome
      have hrc : rc = .ok ∨ rc = .mediaNotReady := by
        have haccepted := hsession hunsettled
        rw [hvalue] at haccepted
        revert haccepted
        cases rc <;> decide
      rw [unsettledWhenTold_eq] at hafter
      change (s.pushed ++ eventsOf _).foldl _ _ = true at hafter
      rw [List.foldl_append, foldl_toldBy_eventsOf] at hafter
      exact live_of_accepted houtcome hrc hafter
    · refine told.of_sessions rfl rfl rfl fun hafter ↦ ?_
      rw [unsettled_setSession, if_pos hid] at hafter
      exact absurd hafter hunsettled
  · refine told.of_sessions rfl rfl rfl fun hafter ↦ ?_
    rw [unsettled_setSession, if_neg hid] at hafter
    exact hafter

/-- So does a request that may throw. -/
theorem Tracks.ask (h : Tracks id s) (hcmd : cmd ∈ recordingCommands)
    (hcall : (Json.obj fields).get "call_id" = .ofI32 callId) {asking session : RecordingSession}
    {request : Request} {reply : EngineReply}
    (ht : (s.setSession callId asking).ask cmd fields request = some (t, reply))
    (hsession : session.isUnsettled = true → reply = .code 0 ∨ reply = .code mediaNotReady) :
    Tracks id (t.setSession callId session) := by
  cases request with
  | throws text =>
    cases ht
    refine h.of_sessions rfl rfl rfl fun hafter ↦ ?_
    rw [unsettled_setSession] at hafter
    split at hafter
    · rcases hsession hafter with hreply | hreply <;> cases hreply
    · next hne =>
      rw [unsettled_setSession, if_neg hne] at hafter
      exact hafter
  | runs env =>
    obtain ⟨u, hu, heq⟩ := Option.map_eq_some_iff.mp ht
    cases heq
    obtain ⟨engine, hs, rfl⟩ := Option.map_eq_some_iff.mp hu
    have hoperate : s.operate (requestInput cmd fields env) = some _ :=
      Option.map_eq_some_iff.mpr ⟨engine, hs, rfl⟩
    have tracks : Tracks id (Recorder.setSession _ callId session) :=
      h.request hcmd hcall hoperate fun hunsettled ↦
        (hsession hunsettled).imp EngineReply.code.inj EngineReply.code.inj
    refine tracks.of_sessions rfl rfl rfl fun hafter ↦ ?_
    rw [unsettled_setSession] at hafter ⊢
    split at hafter
    · next heq =>
      rw [if_pos heq]
      exact hafter
    · next hne =>
      change unsettled (s.setSession callId asking).sessions id.toNat = true at hafter
      rw [unsettled_setSession, if_neg hne] at hafter
      rw [if_neg hne]
      exact hafter

end Requests

/-- A start leaves the session unsettled only where the engine accepts it or the media is not
ready. -/
theorem accepted_of_concludeStart {retryCount : Nat} {session : RecordingSession}
    {reply : EngineReply} (h : (concludeStart retryCount session reply).1.isUnsettled = true) :
    reply = .code 0 ∨ reply = .code mediaNotReady := by
  cases reply with
  | exception text => cases h
  | code result =>
    dsimp only [concludeStart] at h
    split at h
    · next hzero => exact Or.inl (congrArg EngineReply.code hzero)
    · split at h
      · next hready => exact Or.inr (congrArg EngineReply.code hready.1)
      · cases h

/-- A stop leaves it so only where the engine accepts it. -/
theorem accepted_of_concludeStop {session : RecordingSession} {reply : EngineReply}
    (h : (concludeStop session reply).isUnsettled = true) : reply = .code 0 := by
  cases reply with
  | exception text => cases h
  | code result =>
    dsimp only [concludeStop] at h
    split at h
    · next hzero => exact congrArg EngineReply.code hzero
    · cases h

/-- Getting on keeps the invariant. -/
theorem Tracks.proceed (h : Tracks id s) (start : StartCall) (progress : StartProgress) :
    Tracks id (s.proceed start progress) := by
  cases progress with
  | waits await => exact h.of_sessions rfl rfl rfl fun hafter ↦ hafter
  | returns value => exact h

/-- So does a start. -/
theorem Tracks.resume (h : Tracks id s) {start : StartCall} {path : Option String}
    {request : Request} (ht : s.resume start path request = some t) : Tracks id t := by
  unfold Recorder.resume at ht
  split at ht
  · cases ht
    exact h.proceed _ _
  · cases ht
    exact h
  · obtain ⟨⟨u, reply⟩, hask, rfl⟩ := Option.map_eq_some_iff.mp ht
    exact (h.ask (by decide) rfl hask accepted_of_concludeStart).proceed _ _

/-- So does a stop. -/
theorem Tracks.stop (h : Tracks id s) {request : Request} (ht : s.stop callId request = some t) :
    Tracks id t := by
  unfold Recorder.stop at ht
  split at ht
  · cases ht
    exact h
  · split at ht
    · obtain ⟨⟨u, reply⟩, hask, rfl⟩ := Option.map_eq_some_iff.mp ht
      refine h.ask (by decide) rfl hask fun hunsettled ↦ ?_
      exact Or.inl (accepted_of_concludeStop hunsettled)
    · cases ht
      exact h

/-- The step lemma: every step that meets the condition keeps the invariant. -/
theorem tracks_step {act : RecorderAct} (h : Tracks id s) (hact : Settling s act)
    (hs : recorderStep s act = some t) : Tracks id t := by
  cases act with
  | engine i => exact h.operate hact.1 hact.2 hs
  | handle now =>
    unfold recorderStep at hs
    dsimp only at hs
    split at hs
    · cases hs
    · next event pushed hpushed =>
      cases hs
      exact h.handle hpushed now
  | start callId autoRequested =>
    cases hs
    exact h.proceed _ _
  | resume k path request =>
    obtain ⟨start, -, hs⟩ := Option.bind_eq_some_iff.mp hs
    exact (h.of_sessions (t := { s with starts := s.starts.eraseIdx k }) rfl rfl rfl
      fun hafter ↦ hafter).resume hs
  | stop callId request => exact h.stop hs

/-- The invariant holds at first. -/
theorem tracks_initial (id : UInt32) : Tracks id .initial where
  routed := ⟨keyed_initial, fun _ _ h ↦ by cases h⟩
  ended _ h := by cases h
  settles h := by cases h

end Steps

/-- Events that are not about the recording of a call leave its session. -/
theorem foldl_toldBy_eq {callId : Int} {events : List AppEvent}
    (h : ∀ event ∈ events, ¬IsNotice callId event) (b : Bool) :
    events.foldl (toldBy callId) b = b := by
  induction events with
  | nil => rfl
  | cons event events ih =>
    have hevent : toldBy callId b event = b := by
      by_cases htype : event.1 ∈ recordingTypes
      · rw [toldBy, if_neg fun hcall ↦ h event List.mem_cons_self ⟨htype, hcall⟩]
      · exact toldBy_other htype
    rw [List.foldl_cons, hevent]
    exact ih fun e he ↦ h e (List.mem_cons_of_mem _ he)

/-- Once the end of a call and all events about its recording have been handled its session is not
starting, recorded or stopping, in every run where each callback that ends a call whose session
would stay so finds the call recorded. -/
theorem settled_after_end {acts : List RecorderAct} {t : Recorder}
    (path : Path recorderStep Settling Recorder.initial acts t) (id : UInt32)
    (hended : ∃ event ∈ t.handled, EndsCall id.toNat event)
    (hnews : ∀ event ∈ t.pushed, ¬IsNotice id.toNat event) :
    ∀ session ∈ t.sessions.lookup (id.toNat : Int), session.phase ≠ .starting ∧
      session.phase ≠ .recording ∧ session.phase ≠ .stopping := by
  have tracks : Tracks id t :=
    path.invariant (tracks_initial id) fun _ _ _ h hact hs ↦ tracks_step h hact hs
  obtain ⟨event, hevent, hend⟩ := hended
  have hover := tracks.ended event (List.mem_append_left _ hevent) hend
  have hsettled : unsettled t.sessions id.toNat ≠ true := by
    intro hunsettled
    refine tracks.settles ?_ hover
    rw [unsettledWhenTold_eq, foldl_toldBy_eq hnews]
    exact hunsettled
  intro session hsession
  rw [unsettled, hsession] at hsettled
  simpa [RecordingSession.isUnsettled, not_or, and_assoc] using hsettled

/-- A call is dialled. -/
def dialActs : List RecorderAct := (signIn ++ [dial]).map .engine

/-- Its recording is asked for. -/
def askActs : List RecorderAct := [.start 1 false, .resume 0 (some "1.wav") (.runs quietEnv)]

/-- The call is answered and recorded, and ends. -/
def recordedActs : List RecorderAct :=
  dialActs ++ [.engine ⟨.onCallState 0 5, quietEnv⟩] ++ askActs ++
    [.engine ⟨.onCallState 0 6, recordingEnv⟩] ++ List.replicate 13 (.handle 0)

/-- The call ends while it rings, and the invocation that waits is taken up again. -/
def ringingActs : List RecorderAct :=
  dialActs ++ askActs ++ [.engine hangUp] ++ List.replicate 9 (.handle 0) ++
    [.resume 0 none (.runs quietEnv)]

/-- A call that is recorded and hung up, as an instance. -/
theorem settled_after_end_hangup :
    ∃ t, Path recorderStep Settling Recorder.initial recordedActs t ∧
      ∀ session ∈ t.sessions.lookup (UInt32.toNat 1 : Int), session.phase ≠ .starting ∧
        session.phase ≠ .recording ∧ session.phase ≠ .stopping := by
  have h : (recordedActs.foldlM (fun s act ↦ if Settling s act then recorderStep s act else none)
      Recorder.initial).map (fun t ↦
        (t.handled.any (fun event ↦ EndsCall (UInt32.toNat 1) event), t.pushed.length)) =
      some (true, 0) := by decide
  obtain ⟨t, ht, hv⟩ := Option.map_eq_some_iff.mp h
  obtain ⟨hany, hlength⟩ := Prod.mk.inj hv
  obtain ⟨event, hevent, hend⟩ := List.any_eq_true.mp hany
  have path := Path.of_guarded ht
  refine ⟨t, path, settled_after_end path 1 ⟨event, hevent, of_decide_eq_true hend⟩ ?_⟩
  rw [List.length_eq_zero_iff.mp hlength]
  exact List.forall_mem_nil _

/-- The media of a call that rings is not ready. The retry takes the phase that the first attempt
set for a recording under way, the call ends, and its session stays in the phase `starting`. -/
theorem starting_after_end :
    ∃ t, ringingActs.foldlM recorderStep Recorder.initial = some t ∧
      (∃ event ∈ t.handled, EndsCall 1 event) ∧ t.pushed = [] ∧ t.starts = [] ∧
      (t.sessions.lookup 1).map (·.phase) = some .starting := by
  have h : (ringingActs.foldlM recorderStep Recorder.initial).map (fun t ↦
      (t.handled.any (fun event ↦ EndsCall 1 event), t.pushed.length, t.starts.length,
        (t.sessions.lookup 1).map (·.phase))) = some (true, 0, 0, some .starting) := by decide
  obtain ⟨t, ht, hv⟩ := Option.map_eq_some_iff.mp h
  simp only [Prod.mk.injEq] at hv
  obtain ⟨hany, hpushed, hstarts, hphase⟩ := hv
  obtain ⟨event, hevent, hend⟩ := List.any_eq_true.mp hany
  exact ⟨t, ht, ⟨event, hevent, of_decide_eq_true hend⟩, List.length_eq_zero_iff.mp hpushed,
    List.length_eq_zero_iff.mp hstarts, hphase⟩

end PacketDial.Ui
