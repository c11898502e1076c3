import PacketDial.Lib.Strands
import PacketDial.System.MildCommands

/-!
# Call operations cut into steps

The operations that create a call, `CallMute` and `CallHold`, the recording operations and the
call-state callback as strands: a critical section, a call into the shim, an event or a log entry
is one step.
-/

namespace PacketDial.System

open PacketDial.Core PacketDial.Lib

/-- The steps of the call operations that matter. -/
inductive CallMark where
  /-- A callback looked its call up, and removed the route if the call ended. -/
  | looked (state : CallState)
  /-- A callback wrote the state of its call. -/
  | recorded (state : CallState)
  /-- A new call was entered in `PJSIP_CALL_MAP`. -/
  | mapped (pjCallId : Int) (id : UInt32)
  /-- A command wrote the record. -/
  | updated
  /-- A command issued its operation on the PJSIP call. -/
  | applied
  /-- A command found that the call can be recorded. -/
  | checked
  /-- `pd_call_start_recording` succeeded. -/
  | began
  /-- The path of the recording was stored in the record. -/
  | stored
  /-- The end of the call found the record with or without a path. -/
  | ended (recorded : Bool)
  /-- `pd_call_is_recording` was called before a stop. -/
  | asked
  deriving DecidableEq

/-- Call operations cut into steps. -/
abbrev CallStrand (α : Type) := Strand Env Engine Action CallMark α

section Recording

/-- `stop_recording_for_call` from the call of the shim on. -/
def finishStrand (callId : UInt32) (pjsipCallId : Int) (filePath : String)
    (recordingStartedAt : Option Nat) : CallStrand EngineErrorCode := do
  let rc ← Strand.plain (shim (.pdCallStopRecording pjsipCallId))
  if rc ≠ 0 then
    Strand.plain (logEngine .error s!"Failed to stop recording for call {callId}: {rc}")
    Strand.plain (emitRecordingError callId "RecorderFinalizeFailed" "Failed to stop recording")
    return .internalError
  else
    let endedAt ← Strand.plain nowMillis
    let startedAt := recordingStartedAt.getD endedAt
    let env ← Strand.plain Traced.ask
    let fileSizeBytes := env.fileSize filePath
    Strand.plain (amendCall callId fun call ↦ { call with recordingStartedAtMs := none })
    Strand.plain (emitRecordingStopped callId filePath)
    Strand.plain (emitRecordingSaved callId filePath startedAt endedAt (endedAt - startedAt)
      fileSizeBytes)
    return .ok

/-- `stop_recording_for_call` where the record is read. -/
def stopFoundStrand (callId : UInt32) (call : Call) : CallStrand EngineErrorCode :=
  match call.pjsipCallId, call.recordingPath with
  | some pjsipCallId, some filePath => do
    let wasRecording ← Strand.marked .asked (shim (.pdCallIsRecording pjsipCallId))
    if wasRecording = 0 then return .notFound
    else finishStrand callId pjsipCallId filePath call.recordingStartedAtMs
  | _, _ => return .notFound

/-- `stop_recording_for_call`. -/
def stopStrand (callId : UInt32) : CallStrand EngineErrorCode := do
  match ← Strand.plain (snapshotCall callId) with
  | none => return .notFound
  | some call => stopFoundStrand callId call

/-- `start_recording_for_call` from the call of the shim on. -/
def beginRecordingStrand (callId : UInt32) (pjsipCallId : Int) (filePath : String) :
    CallStrand EngineErrorCode := do
  let rc ← Strand.noting (fun rc ↦ if rc = 0 then some .began else none)
    (shim (.pdCallStartRecording pjsipCallId filePath))
  if rc ≠ 0 then
    Strand.plain (logEngine .error s!"Failed to start recording for call {callId}: {rc}")
    Strand.plain (emitRecordingError callId "RecorderCreateFailed" "Failed to start recording")
    return .internalError
  else
    let startedAt ← Strand.plain nowMillis
    Strand.marked .stored (amendCall callId fun call ↦ { call with
      recordingPath := some filePath
      recordingStartedAtMs := some startedAt })
    Strand.plain (emitRecordingStarted callId filePath startedAt)
    return .ok

/-- `start_recording_for_call` where the record is read. -/
def startFoundStrand (callId : UInt32) (filePath : String) (call : Call) :
    CallStrand EngineErrorCode :=
  if call.state = .ended then return .notFound
  else if call.state ≠ .inCall then return .mediaNotReady
  else match call.pjsipCallId with
    | none => return .notFound
    | some pjsipCallId => match cString filePath with
      | none => return .invalidUtf8
      | some path => do
        let alreadyRecording ← Strand.plain (shim (.pdCallIsRecording pjsipCallId))
        if alreadyRecording ≠ 0 then return .internalError
        else beginRecordingStrand callId pjsipCallId path

/-- `start_recording_for_call`. -/
def startRecordingStrand (callId : UInt32) (filePath : String) : CallStrand EngineErrorCode := do
  match ← Strand.marked .checked (snapshotCall callId) with
  | none => return .notFound
  | some call => startFoundStrand callId filePath call

/-- It cuts the end of a recording. -/
theorem flatten_finishStrand (callId : UInt32) (pjsipCallId : Int) (filePath : String)
    (recordingStartedAt : Option Nat) :
    (finishStrand callId pjsipCallId filePath recordingStartedAt).flatten =
      finishRecording callId pjsipCallId filePath recordingStartedAt := by
  unfold finishStrand finishRecording
  rw [Strand.flatten_bind, Strand.flatten_plain]
  congr
  funext rc
  split
  · simp only [Strand.flatten_bind, Strand.flatten_plain]
    rfl
  · simp only [Strand.flatten_bind, Strand.flatten_plain]
    rfl

/-- It cuts the function. -/
theorem flatten_stopStrand (callId : UInt32) :
    (stopStrand callId).flatten = stopRecordingForCall callId := by
  unfold stopStrand stopRecordingForCall
  rw [Strand.flatten_bind, Strand.flatten_plain]
  congr
  funext found
  cases found with
  | none => rfl
  | some call =>
    dsimp only
    unfold stopFoundStrand
    cases call.pjsipCallId with
    | none => rfl
    | some pjsipCallId =>
      cases call.recordingPath with
      | none => rfl
      | some filePath =>
        dsimp only
        rw [Strand.flatten_bind, Strand.flatten_marked]
        congr
        funext wasRecording
        split
        · rfl
        · exact flatten_finishStrand _ _ _ _

/-- It cuts the start of a recording. -/
theorem flatten_beginRecordingStrand (callId : UInt32) (pjsipCallId : Int) (filePath : String) :
    (beginRecordingStrand callId pjsipCallId filePath).flatten =
      beginRecording callId pjsipCallId filePath := by
  unfold beginRecordingStrand beginRecording
  rw [Strand.flatten_bind, Strand.flatten_noting]
  congr
  funext rc
  split
  · simp only [Strand.flatten_bind, Strand.flatten_plain]
    rfl
  · simp only [Strand.flatten_bind, Strand.flatten_plain, Strand.flatten_marked]
    rfl

/-- It cuts the function. -/
theorem flatten_startRecordingStrand (callId : UInt32) (filePath : String) :
    (startRecordingStrand callId filePath).flatten = startRecordingForCall callId filePath := by
  unfold startRecordingStrand startRecordingForCall
  rw [Strand.flatten_bind, Strand.flatten_marked]
  congr
  funext found
  cases found with
  | none => rfl
  | some call =>
    dsimp only
    unfold startFoundStrand
    split
    · rfl
    · split
      · rfl
      · cases call.pjsipCallId with
        | none => rfl
        | some pjsipCallId =>
          cases cString filePath with
          | none => rfl
          | some path =>
            dsimp only
            rw [Strand.flatten_bind, Strand.flatten_plain]
            congr
            funext alreadyRecording
            split
            · rfl
            · exact flatten_beginRecordingStrand _ _ _

end Recording

section Callback

/-- The recording of a call that ended is stopped. -/
def stopAfterEndStrand (callId : UInt32) : CallStrand Unit := do
  let call ← Strand.noting
    (fun call ↦ some (.ended ((call.map (·.recordingPath.isSome)).getD false)))
    (snapshotCall callId)
  if (call.map (·.recordingPath.isSome)).getD false then
    discard (stopStrand callId)

/-- `pjsip_on_call_state` where the call is known. -/
def recordStateStrand (newState : CallState) (callId : UInt32) : CallStrand Unit := do
  Strand.marked (.recorded newState) (stateSection newState callId)
  if newState = .ended then
    stopAfterEndStrand callId

/-- `pjsip_on_call_state` after the look-up. -/
def answerStateStrand (pjCallId : Int) (newState : CallState) : Option UInt32 → CallStrand Unit
  | none =>
    Strand.plain (logEngine .debug s!"pjsip_on_call_state: unknown pj_call_id={pjCallId}")
  | some callId => recordStateStrand newState callId

/-- `pjsip_on_call_state` from the look-up on. -/
def lookStateStrand (pjCallId : Int) (newState : CallState) : CallStrand Unit := do
  answerStateStrand pjCallId newState
    (← Strand.marked (.looked newState) (routeState newState pjCallId))

/-- `pjsip_on_call_state`. -/
def callStateStrand (pjCallId invState : Int) : CallStrand Unit :=
  match invCallState invState with
  | none => pure ()
  | some newState => lookStateStrand pjCallId newState

/-- PJSIP's worker thread: call-state callbacks for one call, one after the other. -/
def stateWorkerStrand (pjCallId : Int) : List Int → CallStrand Unit
  | [] => pure ()
  | invState :: rest => do
    callStateStrand pjCallId invState
    stateWorkerStrand pjCallId rest

/-- It cuts the stop. -/
theorem flatten_stopAfterEndStrand (callId : UInt32) :
    (stopAfterEndStrand callId).flatten = stopAfterEnd callId := by
  unfold stopAfterEndStrand stopAfterEnd
  rw [Strand.flatten_bind, Strand.flatten_noting]
  congr
  funext call
  split
  · rw [Strand.flatten_discard, flatten_stopStrand]
  · rfl

/-- It cuts the callback. -/
theorem flatten_callStateStrand (pjCallId invState : Int) :
    (callStateStrand pjCallId invState).flatten = pjsipOnCallState pjCallId invState := by
  unfold callStateStrand pjsipOnCallState
  cases invCallState invState with
  | none => rfl
  | some newState =>
    dsimp only
    unfold lookStateStrand
    rw [Strand.flatten_bind, Strand.flatten_marked]
    congr
    funext found
    cases found with
    | none => exact Strand.flatten_plain _
    | some callId =>
      dsimp only [answerStateStrand]
      unfold recordStateStrand
      rw [Strand.flatten_bind, Strand.flatten_marked]
      congr
      funext _
      split
      · exact flatten_stopAfterEndStrand callId
      · rfl

end Callback

section Creation

/-- Enter a new call in both tables. -/
def trackStrand (call : Call) (pjCallId : Int) : CallStrand Unit := do
  Strand.plain (pushCallState call)
  Strand.plain (withLock .calls (insertCall call.id call))
  Strand.marked (.mapped pjCallId call.id)
    (withLock .pjsipCallMap (insertPjsipCall pjCallId call.id))

/-- `pjsip_on_incoming_call` where the account is known. -/
def incomingFoundStrand (pjCallId : Int) (fromUri accountId : String) : CallStrand Unit := do
  let ourCallId ← Strand.plain fetchNextCallId
  trackStrand (newCall ourCallId accountId fromUri .incoming pjCallId) pjCallId
  Strand.plain <| logEngine .info <| s!"Incoming call id={ourCallId} pj_call={pjCallId} " ++
    s!"from={fromUri} account={accountId}"

/-- `pjsip_on_incoming_call`. -/
def incomingCallStrand (pjAccId pjCallId : Int) (fromUriPtr : CPtr) : CallStrand Unit := do
  let fromUri := fromUriPtr.toStr.getD "sip:unknown"
  let found ← Strand.plain <| withLock .pjsipAccMap do
    return (← Traced.get).pjsipAccMap.lookup pjAccId
  match found with
  | none => Strand.plain (logEngine .warn s!"pjsip_on_incoming_call: unknown pj_acc_id={pjAccId}")
  | some accountId => incomingFoundStrand pjCallId fromUri accountId

/-- `CallStart` where the shim has answered. -/
def placedStrand (callId : UInt32) (accountId uri : String) (pjCallId : Int) :
    CallStrand EngineErrorCode :=
  if pjCallId < 0 then do
    let status := asI32 (-pjCallId)
    Strand.plain (logEngine .debug s!"CallStart: pd_call_make returned status={status}")
    let (code, text) := callMakeError uri status
    Strand.plain (logEngine .error text)
    return code
  else do
    trackStrand (newCall callId accountId uri .outgoing pjCallId) pjCallId
    Strand.plain (logEngine .info s!"Outgoing call id={callId} pj_call={pjCallId} uri={uri}")
    return .ok

/-- `CallStart` once the id is taken. -/
def placeCallStrand (callId : UInt32) (accountId uri : String) (pjAccId : Int) :
    CallStrand EngineErrorCode := do
  Strand.plain (logEngine .debug s!"CallStart: call_id={callId} uri={uri} account={accountId}")
  Strand.plain audioPreflight
  match cString uri with
  | none =>
    Strand.plain (logEngine .error s!"CallStart: destination URI contains NUL byte: {uri}")
    return .internalError
  | some dst =>
    placedStrand callId accountId uri (← Strand.plain (shim (.pdCallMake pjAccId dst)))

/-- `CallStart` from the normalisation of the target on. -/
def startCallStrand (accountId rawUri : String) (hint : Option String) (pjAccId : Int) :
    CallStrand EngineErrorCode := do
  let uri := normalizeCallTargetUri rawUri hint
  if uri ≠ rawUri then
    Strand.plain (logEngine .debug s!"CallStart: normalized target from '{rawUri}' to '{uri}'")
  placeCallStrand (← Strand.plain fetchNextCallId) accountId uri pjAccId

/-- `CallStart` where the account is chosen. -/
def callFromStrand (p : Json) (accountId : String) : CallStrand EngineErrorCode :=
  match (p.get "uri").asStr with
  | none => return .invalidJson
  | some target =>
    let rawUri := trim target
    if rawUri = "" then do
      Strand.plain (logEngine .warn "CallStart: empty URI payload")
      return .invalidJson
    else do
      let (pjAccId, hint) ← Strand.plain (callStartAccount accountId)
      match pjAccId with
      | none =>
        Strand.plain
          (logEngine .error s!"CallStart: account '{accountId}' not registered with PJSIP")
        return .notFound
      | some pjAccId => startCallStrand accountId rawUri hint pjAccId

/-- `CallStart`. -/
def callStartStrand (p : Json) : CallStrand EngineErrorCode := do
  match ← Strand.plain (callAccount p) with
  | none => return .notFound
  | some accountId => callFromStrand p accountId

/-- `engine_start_attended_xfer` where the shim has answered. -/
def consultedStrand (accountId destUri : String) (newPjId : Int) : CallStrand Int :=
  if newPjId < 0 then return EngineErrorCode.internalError.code
  else do
    let consultationCallId ← Strand.plain fetchNextCallId
    trackStrand (newCall consultationCallId accountId destUri .outgoing newPjId) newPjId
    Strand.plain <| logEngine .info <| s!"Consultation call start: id={consultationCallId} " ++
      s!"pj_call={newPjId} uri={destUri}"
    return asI32 consultationCallId.toNat

/-- `engine_start_attended_xfer` past the checks of its arguments. -/
def consultStrand (callId : Int) (destUri : String) : CallStrand Int := do
  let call ← Strand.plain (callById callId)
  let accountId := (call.map (·.accountId)).getD ""
  match call.bind (·.pjsipCallId) with
  | none => return EngineErrorCode.notFound.code
  | some pjId => match cString destUri with
    | none => return EngineErrorCode.invalidUtf8.code
    | some dest =>
      consultedStrand accountId destUri (← Strand.plain (shim (.pdCallStartAttendedXfer pjId dest)))

/-- `engine_start_attended_xfer`. -/
def attendedXferStrand (callId : Int) (destUri : CPtr) : CallStrand Int :=
  match destUri.toStr with
  | none => return EngineErrorCode.invalidUtf8.code
  | some destUri => do
    let s ← Strand.plain Traced.get
    if s.initialized then consultStrand callId destUri
    else return EngineErrorCode.notInitialized.code

/-- It cuts the tracking of a call. -/
theorem flatten_trackStrand (call : Call) (pjCallId : Int) :
    (trackStrand call pjCallId).flatten = trackCall call pjCallId := by
  simp only [trackStrand, Strand.flatten_bind, Strand.flatten_plain, Strand.flatten_marked]
  rfl

/-- It cuts the callback. -/
theorem flatten_incomingCallStrand (pjAccId pjCallId : Int) (fromUriPtr : CPtr) :
    (incomingCallStrand pjAccId pjCallId fromUriPtr).flatten =
      pjsipOnIncomingCall pjAccId pjCallId fromUriPtr := by
  unfold incomingCallStrand pjsipOnIncomingCall
  dsimp only
  rw [Strand.flatten_bind, Strand.flatten_plain]
  congr
  funext found
  cases found with
  | none => exact Strand.flatten_plain _
  | some accountId =>
    simp only [incomingFoundStrand, Strand.flatten_bind, Strand.flatten_plain, flatten_trackStrand]

/-- It cuts the end of the command. -/
theorem flatten_placedStrand (callId : UInt32) (accountId uri : String) (pjCallId : Int) :
    (placedStrand callId accountId uri pjCallId).flatten =
      if pjCallId < 0 then do
        let status := asI32 (-pjCallId)
        logEngine .debug s!"CallStart: pd_call_make returned status={status}"
        logEngine .error (callMakeError uri status).2
        return (callMakeError uri status).1
      else do
        trackCall (newCall callId accountId uri .outgoing pjCallId) pjCallId
        logEngine .info s!"Outgoing call id={callId} pj_call={pjCallId} uri={uri}"
        return .ok := by
  unfold placedStrand
  split
  · simp only [Strand.flatten_bind, Strand.flatten_plain]
    rfl
  · simp only [Strand.flatten_bind, Strand.flatten_plain, flatten_trackStrand]
    rfl

/-- It cuts the placing of a call. -/
theorem flatten_placeCallStrand (callId : UInt32) (accountId uri : String) (pjAccId : Int) :
    (placeCallStrand callId accountId uri pjAccId).flatten =
      placeCall callId accountId uri pjAccId := by
  unfold placeCallStrand placeCall
  rw [Strand.flatten_bind, Strand.flatten_plain]
  congr
  funext _
  rw [Strand.flatten_bind, Strand.flatten_plain]
  congr
  funext _
  cases cString uri with
  | none =>
    dsimp only
    rw [Strand.flatten_bind, Strand.flatten_plain]
    rfl
  | some dst =>
    dsimp only
    rw [Strand.flatten_bind, Strand.flatten_plain]
    congr
    funext pjCallId
    exact flatten_placedStrand callId accountId uri pjCallId

/-- It cuts the command. -/
theorem flatten_callStartStrand (p : Json) : (callStartStrand p).flatten = cmdCallStart p := by
  unfold callStartStrand cmdCallStart
  rw [Strand.flatten_bind, Strand.flatten_plain]
  congr
  funext found
  cases found with
  | none => rfl
  | some accountId =>
    dsimp only
    unfold callFromStrand
    cases (p.get "uri").asStr with
    | none => rfl
    | some target =>
      dsimp only
      split
      · rw [Strand.flatten_bind, Strand.flatten_plain]
        rfl
      · rw [Strand.flatten_bind, Strand.flatten_plain]
        congr
        funext account
        obtain ⟨pjAccId, hint⟩ := account
        cases pjAccId with
        | none =>
          dsimp only
          rw [Strand.flatten_bind, Strand.flatten_plain]
          rfl
        | some pjAccId =>
          dsimp only
          unfold startCallStrand startCall
          dsimp only
          split
          · simp only [Strand.flatten_bind, Strand.flatten_plain, flatten_placeCallStrand]
          · simp only [Strand.flatten_bind, Strand.flatten_plain, flatten_placeCallStrand]

/-- It cuts the entry point. -/
theorem flatten_attendedXferStrand (callId : Int) (destUri : CPtr) :
    (attendedXferStrand callId destUri).flatten = engineStartAttendedXfer callId destUri := by
  unfold attendedXferStrand engineStartAttendedXfer withText
  cases destUri.toStr with
  | none => rfl
  | some destUri =>
    dsimp only
    unfold whenInitialized
    rw [Strand.flatten_bind, Strand.flatten_plain]
    congr
    funext s
    split
    · unfold consultStrand
      rw [Strand.flatten_bind, Strand.flatten_plain]
      congr
      funext call
      dsimp only
      cases call.bind (·.pjsipCallId) with
      | none => rfl
      | some pjId =>
        cases cString destUri with
        | none => rfl
        | some dest =>
          dsimp only
          rw [Strand.flatten_bind, Strand.flatten_plain]
          congr
          funext newPjId
          unfold consultedStrand
          split
          · rfl
          · simp only [Strand.flatten_bind, Strand.flatten_plain, flatten_trackStrand]
            rfl
    · rfl

end Creation

section Updates

/-- `CallMute` and `CallHold` where the record is written. -/
def applyStrand (op : Int → ShimCall) : Option (Option Int) → CallStrand EngineErrorCode
  | none => return .notFound
  | some none => return .ok
  | some (some pjId) => do
    Strand.marked .applied (discard <| shim (op pjId))
    return .ok

/-- The critical section of `CallMute` and `CallHold`. -/
def updateSection (p : Json) (update : Call → Eng Call) : Eng (Option (Option Int)) :=
  withLock .calls do
    let callId ← targetOrLive p
    match (← Traced.get).calls.lookup callId with
    | none => return none
    | some old =>
      let call ← update old
      insertCall callId call
      pushCallState call
      return some call.pjsipCallId

/-- The shape shared by `CallMute` and `CallHold`. -/
def updateStrand (p : Json) (update : Call → Eng Call) (op : Int → ShimCall) :
    CallStrand EngineErrorCode := do
  applyStrand op (← Strand.marked .updated (updateSection p update))

/-- `CallMute`. -/
def callMuteStrand (p : Json) : CallStrand EngineErrorCode :=
  let muted := (p.get "muted").asBool.getD true
  updateStrand p (fun call ↦ return { call with muted := muted }) (.pdCallSetMute · muted)

/-- `CallHold`. -/
def callHoldStrand (p : Json) : CallStrand EngineErrorCode :=
  let hold := (p.get "hold").asBool.getD true
  updateStrand p (holdRecord hold) (.pdCallHold · hold)

/-- It cuts the shared shape. -/
theorem flatten_updateStrand (p : Json) (update : Call → Eng Call) (op : Int → ShimCall) :
    (updateStrand p update op).flatten = updateTarget p update op := by
  unfold updateStrand updateTarget
  rw [Strand.flatten_bind, Strand.flatten_marked]
  congr
  funext found
  cases found with
  | none => rfl
  | some pjId =>
    cases pjId with
    | none => rfl
    | some pjId =>
      dsimp only [applyStrand]
      rw [Strand.flatten_bind, Strand.flatten_marked]
      rfl

/-- It cuts the command. -/
theorem flatten_callMuteStrand (p : Json) : (callMuteStrand p).flatten = cmdCallMute p :=
  flatten_updateStrand _ _ _

/-- It cuts the command. -/
theorem flatten_callHoldStrand (p : Json) : (callHoldStrand p).flatten = cmdCallHold p :=
  flatten_updateStrand _ _ _

end Updates

end PacketDial.System
