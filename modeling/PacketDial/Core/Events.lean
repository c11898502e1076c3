import PacketDial.Core.Engine

/-!
# Events and logging

`push_event` with its two deliveries, `log_engine`, and the event helpers of
`core_rust/src/lib.rs:860–889` and `972–1209`. Payloads stay JSON values: the text that
`serde_json` makes of them escapes control characters, so the `CString` of
`invoke_event_callback` never fails on it.
-/

namespace PacketDial.Core

open PacketDial.Lib

/-- The `EngineEventId` of an event type (`lib.rs:973–1021`, `3461–3509`). -/
def eventIdOf : String → Option Nat
  | "EngineReady" => some 1
  | "RegistrationStateChanged" => some 2
  | "CallStateChanged" => some 3
  | "MediaStatsUpdated" => some 4
  | "AudioDeviceList" => some 5
  | "AudioDevicesSet" => some 6
  | "CallHistoryResult" => some 7
  | "SipMessageCaptured" => some 8
  | "DiagBundleReady" => some 9
  | "AccountSecurityUpdated" => some 10
  | "CredStored" => some 11
  | "CredRetrieved" => some 12
  | "EnginePong" => some 13
  | "LogLevelSet" => some 14
  | "LogBufferResult" => some 15
  | "EngineLog" => some 16
  | "CallTransferInitiated" => some 17
  | "CallTransferStatus" => some 18
  | "CallTransferCompleted" => some 19
  | "ConferenceMerged" => some 20
  | "ForwardingUpdated" => some 21
  | "ForwardingResult" => some 22
  | "GlobalDndUpdated" => some 23
  | "BlfSubscribed" => some 24
  | "BlfUnsubscribed" => some 25
  | "BlfStatusChanged" => some 26
  | "LookupUrlUpdated" => some 27
  | "LookupUrlResult" => some 28
  | "CodecPriorityUpdated" => some 29
  | "CodecPriorityResult" => some 30
  | "CodecUpdated" => some 31
  | "AutoAnswerUpdated" => some 32
  | "AutoAnswerResult" => some 33
  | "DtmfMethodUpdated" => some 34
  | "DtmfMethodResult" => some 35
  | "AccountProfileDeleted" => some 38
  | "GlobalCodecPriorityUpdated" => some 39
  | "GlobalCodecPriorityResult" => some 40
  | "GlobalDtmfMethodUpdated" => some 41
  | "GlobalDtmfMethodResult" => some 42
  | "GlobalAutoAnswerUpdated" => some 43
  | "GlobalAutoAnswerResult" => some 44
  | "RecordingStarted" => some 45
  | "RecordingStopped" => some 46
  | "RecordingSaved" => some 47
  | "RecordingError" => some 48
  | _ => none

/-- `invoke_event_callback` (`lib.rs:3519–3548`). The ring of retained payloads only keeps
the text alive for Dart; it is locked here, its contents are not modelled. -/
def invokeEventCallback (id : Nat) (payload : Json) : Eng Unit :=
  withLock .eventCallback do
    let s ← Traced.get
    if s.eventCallback then
      withLock .retainedPayloads (pure ())
      Traced.emit (.callback id payload)

/-- `broadcast_ipc` (`lib.rs:1038–1041`): clients whose receiver is gone are dropped. -/
def broadcastIpc (type : String) (payload : Json) : Eng Unit :=
  withLock .clientSenders do
    let env ← Traced.ask
    let s ← Traced.get
    let kept := s.clientSenders.filter env.alive
    Traced.each (fun client ↦ Traced.emit (.ipcSend client type payload)) kept
    Traced.modify fun s ↦ { s with clientSenders := kept }

/-- The two deliveries of an event: to the callback, if its type has an id, and to the IPC
clients. -/
def deliverEvent (type : String) (payload : Json) : Eng Unit := do
  match eventIdOf type with
  | some id => invokeEventCallback id payload
  | none => pure ()
  broadcastIpc type payload

/-- `push_event` (`lib.rs:972–1036`). -/
def pushEvent (type : String) (payload : Json) : Eng Unit := do
  Traced.emit (.event type payload)
  deliverEvent type payload

/-- `LOG_BUFFER.push_back` with the `pop_front` that keeps the buffer at its cap. -/
def bufferEntry (entry : LogEntry) (buf : List LogEntry) : List LogEntry :=
  (if logBufferMax ≤ buf.length then buf.drop 1 else buf) ++ [entry]

/-- `log_engine` (`lib.rs:860–889`): every entry is buffered, and pushed when its level is
within the active filter. -/
def logEngine (level : LogLevel) (message : String) : Eng Unit := do
  let ts ← nowSecs
  let active := (← Traced.get).activeLogLevel
  withLock .logBuffer <|
    Traced.modify fun s ↦ { s with logBuffer := bufferEntry ⟨level, message, ts⟩ s.logBuffer }
  if level.toNat ≤ active.toNat then
    pushEvent "EngineLog" (.obj
      [("level", .str level.asStr), ("message", .str message), ("ts", .ofNat ts)])

/-- `push_reg_state` (`lib.rs:1043–1075`). -/
def pushRegState (accountId : String) (state : RegistrationState) : Eng Unit := do
  let account ← withLock .accounts do
    return (← Traced.get).accounts.lookup accountId
  let (accountName, displayName, server, username) :=
    match account with
    | some a => (a.accountName, a.displayName, a.server, a.username)
    | none => ("", "", "", "")
  let reason := match state with
    | .failed r => r
    | _ => ""
  pushEvent "RegistrationStateChanged" (.obj
    [("account_id", .str accountId), ("account_name", .str accountName),
      ("display_name", .str displayName), ("server", .str server), ("username", .str username),
      ("state", .str state.variantName), ("reason", .str reason)])

/-- The payload that `push_call_state` builds (`lib.rs:1094–1130`). -/
def callPayload (accountName displayName username : String) (call : Call) : Json :=
  .obj <|
    [("call_id", .ofU32 call.id), ("account_id", .str call.accountId),
      ("account_name", .str accountName), ("display_name", .str displayName),
      ("account_user", .str username), ("uri", .str call.uri),
      ("direction", .str call.direction.variantName), ("state", .str call.state.variantName),
      ("muted", .bool call.muted), ("on_hold", .bool call.onHold),
      ("accumulated_active_secs", .ofNat call.accumulatedActiveSecs),
      ("last_resumed_at", match call.lastResumedAt with
        | some v => .ofNat v
        | none => .null)] ++
    if call.state = .ended then
      [("recording_path", match call.recordingPath with
        | some path => .str path
        | none => .null)]
    else []

/-- `push_call_state` (`lib.rs:1077–1133`). -/
def pushCallState (call : Call) : Eng Unit := do
  let account ← withLock .accounts do
    return (← Traced.get).accounts.lookup call.accountId
  let (accountName, displayName, username) :=
    match account with
    | some a => (a.accountName, a.displayName, a.username)
    | none => ("", "", "")
  pushEvent "CallStateChanged" (callPayload accountName displayName username call)

/-- One decimal place: `(x * 10.0).round() / 10.0`. -/
def roundTenth (x : Float32) : Float32 := (x * 10).round / 10

/-- `push_media_stats` (`lib.rs:1135–1146`). -/
def pushMediaStats (stats : MediaStats) : Eng Unit :=
  pushEvent "MediaStatsUpdated" (.obj
    [("call_id", .ofU32 stats.callId), ("jitter_ms", .ofF32 (roundTenth stats.jitterMs)),
      ("packet_loss_pct", .ofF32 (roundTenth stats.packetLossPct)), ("codec", .str stats.codec),
      ("bitrate_kbps", .ofU32 stats.bitrateKbps)])

/-- `emit_recording_started` (`lib.rs:1148–1158`). -/
def emitRecordingStarted (callId : UInt32) (filePath : String) (startedAt : Nat) : Eng Unit :=
  pushEvent "RecordingStarted" (.obj
    [("call_id", .ofU32 callId), ("file_path", .str filePath), ("started_at", .ofNat startedAt),
      ("state", .str "Recording")])

/-- `emit_recording_stopped` (`lib.rs:1160–1169`). -/
def emitRecordingStopped (callId : UInt32) (filePath : String) : Eng Unit :=
  pushEvent "RecordingStopped" (.obj
    [("call_id", .ofU32 callId), ("file_path", .str filePath), ("state", .str "Stopped")])

/-- `emit_recording_saved` (`lib.rs:1171–1198`). -/
def emitRecordingSaved (callId : UInt32) (filePath : String)
    (startedAt endedAt durationMs fileSizeBytes : Nat) : Eng Unit := do
  let env ← Traced.ask
  let format := String.ofList
    (((env.pathExtension filePath).getD "wav").toList.map asciiLower)
  pushEvent "RecordingSaved" (.obj
    [("recording_id", .str s!"{callId}-{startedAt}"), ("call_id", .ofU32 callId),
      ("absolute_file_path", .str filePath), ("started_at", .ofNat startedAt),
      ("ended_at", .ofNat endedAt), ("duration_ms", .ofNat durationMs),
      ("file_size_bytes", .ofNat fileSizeBytes), ("format", .str format),
      ("status", .str "completed")])

/-- `emit_recording_error` (`lib.rs:1200–1209`). -/
def emitRecordingError (callId : UInt32) (code message : String) : Eng Unit :=
  pushEvent "RecordingError" (.obj
    [("call_id", .ofU32 callId), ("code", .str code), ("message", .str message)])

end PacketDial.Core
