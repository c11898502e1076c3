import PacketDial.Core.Events

/-!
# Call recording

`start_recording_for_call` and `stop_recording_for_call`, `core_rust/src/lib.rs:2257–2375`,
shared by the commands, the C entry points and the disconnect path.
-/

namespace PacketDial.Core

open PacketDial.Lib

/-- A copy of a record, taken in a critical section of its own. -/
def snapshotCall (callId : UInt32) : Eng (Option Call) :=
  withLock .calls do
    return (← Traced.get).calls.lookup callId

/-- An update of a record that is still there, in a critical section of its own. -/
def amendCall (callId : UInt32) (f : Call → Call) : Eng Unit :=
  withLock .calls do
    match (← Traced.get).calls.lookup callId with
    | some call => insertCall callId (f call)
    | none => pure ()

/-- `start_recording_for_call` from the call of the shim on (`lib.rs:2287–2308`). -/
def beginRecording (callId : UInt32) (pjsipCallId : Int) (filePath : String) :
    Eng EngineErrorCode := do
  let rc ← shim (.pdCallStartRecording pjsipCallId filePath)
  if rc ≠ 0 then
    logEngine .error s!"Failed to start recording for call {callId}: {rc}"
    emitRecordingError callId "RecorderCreateFailed" "Failed to start recording"
    return .internalError
  else
    let startedAt ← nowMillis
    amendCall callId fun call ↦ { call with
      recordingPath := some filePath
      recordingStartedAtMs := some startedAt }
    emitRecordingStarted callId filePath startedAt
    return .ok

/-- `start_recording_for_call` (`lib.rs:2257–2309`). -/
def startRecordingForCall (callId : UInt32) (filePath : String) : Eng EngineErrorCode := do
  match ← snapshotCall callId with
  | none => return .notFound
  | some call =>
    if call.state = .ended then return .notFound
    else if call.state ≠ .inCall then return .mediaNotReady
    else match call.pjsipCallId with
      | none => return .notFound
      | some pjsipCallId => match cString filePath with
        | none => return .invalidUtf8
        | some path =>
          let alreadyRecording ← shim (.pdCallIsRecording pjsipCallId)
          if alreadyRecording ≠ 0 then return .internalError
          else beginRecording callId pjsipCallId path

/-- `stop_recording_for_call` from the call of the shim on (`lib.rs:2338–2374`). -/
def finishRecording (callId : UInt32) (pjsipCallId : Int) (filePath : String)
    (recordingStartedAt : Option Nat) : Eng EngineErrorCode := do
  let rc ← shim (.pdCallStopRecording pjsipCallId)
  if rc ≠ 0 then
    logEngine .error s!"Failed to stop recording for call {callId}: {rc}"
    emitRecordingError callId "RecorderFinalizeFailed" "Failed to stop recording"
    return .internalError
  else
    let endedAt ← nowMillis
    let startedAt := recordingStartedAt.getD endedAt
    let env ← Traced.ask
    let fileSizeBytes := env.fileSize filePath
    amendCall callId fun call ↦ { call with recordingStartedAtMs := none }
    emitRecordingStopped callId filePath
    emitRecordingSaved callId filePath startedAt endedAt (endedAt - startedAt) fileSizeBytes
    return .ok

/-- `stop_recording_for_call` (`lib.rs:2311–2375`): no check of the call's state, and the
path of a finished recording stays in the record. -/
def stopRecordingForCall (callId : UInt32) : Eng EngineErrorCode := do
  match ← snapshotCall callId with
  | none => return .notFound
  | some call => match call.pjsipCallId, call.recordingPath with
    | some pjsipCallId, some filePath =>
      let wasRecording ← shim (.pdCallIsRecording pjsipCallId)
      if wasRecording = 0 then return .notFound
      else finishRecording callId pjsipCallId filePath call.recordingStartedAtMs
    | _, _ => return .notFound

end PacketDial.Core
