import PacketDial.Core.Dispatch

/-!
# The C ABI and the IPC server

`engine_init`, `engine_shutdown`, the IPC client loop and the direct C entry points of
`core_rust/src/lib.rs:3296–4283`. An entry point returns an `i32`: an error code, a shim
status or, for a consultation call, the new call id. `catch_unwind` turns the panic of a
command into `InternalError`.
-/

namespace PacketDial.Core

open PacketDial.Lib

/-- What `catch_unwind` makes of a dispatched command. -/
def caught : Except Halt EngineErrorCode → Int
  | .ok rc => rc.code
  | .error _ => EngineErrorCode.internalError.code

/-- Run a command for a C caller. -/
def dispatchCode (cmdType : String) (p : Json) : Eng Int :=
  caught <$> dispatchCommand cmdType p

/-- The gate of every entry point: nothing happens before `engine_init`. -/
def whenInitialized (body : Eng Int) : Eng Int := do
  if (← Traced.get).initialized then body
  else return EngineErrorCode.notInitialized.code

/-- A text argument of an entry point; null and invalid UTF-8 are refused alike. -/
def withText (ptr : CPtr) (body : String → Eng Int) : Eng Int :=
  match ptr.toStr with
  | some s => body s
  | none => return EngineErrorCode.invalidUtf8.code

/-- `engine_init` (`lib.rs:3304–3345`); the API server thread it starts enters the model as
the connections and lines of its clients. -/
def engineInit (userAgent : CPtr) : Eng Int := do
  let already := (← Traced.get).initialized
  Traced.modify fun s ↦ { s with initialized := true }
  if already then
    logEngine .warn "engine_init called while already initialized"
    return EngineErrorCode.alreadyInitialized.code
  else
    let rc ← shim (.pdInit userAgent)
    if rc ≠ 0 then
      Traced.modify fun s ↦ { s with initialized := false }
      logEngine .error s!"Engine init failed: pd_init returned {rc}"
      return rc
    else
      pushEvent "EngineReady" (.obj [])
      logEngine .info "Engine initialized (PJSIP active)"
      return EngineErrorCode.ok.code

/-- `engine_shutdown` (`lib.rs:3349–3367`): the two PJSIP maps are cleared, the tables of
accounts and calls are not. -/
def engineShutdown : Eng Int := do
  let running := (← Traced.get).initialized
  Traced.modify fun s ↦ { s with initialized := false }
  if !running then
    logEngine .warn "engine_shutdown called while not initialized"
    return EngineErrorCode.notInitialized.code
  else
    logEngine .info "Engine shutting down"
    withLock .pjsipAccMap <| Traced.modify fun s ↦ { s with pjsipAccMap := ∅ }
    withLock .pjsipCallMap <| Traced.modify fun s ↦ { s with pjsipCallMap := ∅ }
    discard <| shim .pdShutdown
    return EngineErrorCode.ok.code

/-- A client connects: `handle_api_client` registers its sender (`lib.rs:3403–3405`). -/
def ipcConnect (client : Nat) : Eng Unit :=
  withLock .clientSenders <|
    Traced.modify fun s ↦ { s with clientSenders := s.clientSenders ++ [client] }

/-- One line from a client (`lib.rs:3420–3437`), whether or not the engine is initialised. A
panic ends the client's thread without an answer. -/
def ipcLine (client : Nat) (line : String) : Eng Unit := do
  match (← Traced.ask).parseJson line with
  | none => pure ()
  | some v =>
    let cmdType := (v.get "type").asStr.getD ""
    match ← dispatchCommand cmdType (v.get "payload") with
    | .ok rc => Traced.emit (.ipcRespond client rc.code)
    | .error _ => pure ()

/-- `engine_set_event_callback` (`lib.rs:3570–3580`). -/
def engineSetEventCallback (present : Bool) : Eng Unit :=
  withLock .eventCallback <| Traced.modify fun s ↦ { s with eventCallback := present }

/-- `engine_send_command` (`lib.rs:3590–3616`). -/
def engineSendCommand (cmdType jsonPayload : CPtr) : Eng Int :=
  withText cmdType fun cmd ↦ withText jsonPayload fun payload ↦ whenInitialized do
    match (← Traced.ask).parseJson payload with
    | none => return EngineErrorCode.invalidJson.code
    | some payload => dispatchCode cmd payload

/-- `engine_register` (`lib.rs:3629–3678`). -/
def engineRegister (accountId user pass domain : CPtr) : Eng Int :=
  withText accountId fun accountId ↦ withText user fun user ↦ withText pass fun pass ↦
  withText domain fun domain ↦ whenInitialized do
    let rc ← dispatchCode "AccountUpsert" (.obj
      [("uuid", .str accountId), ("display_name", .str user), ("server", .str domain),
        ("username", .str user), ("password", .str pass)])
    if rc ≠ 0 then return rc
    else dispatchCode "AccountRegister" (.obj [("uuid", .str accountId)])

/-- `engine_make_call` (`lib.rs:3688–3716`). -/
def engineMakeCall (accountId number : CPtr) : Eng Int :=
  withText accountId fun accountId ↦ withText number fun number ↦ whenInitialized <|
    dispatchCode "CallStart" (.obj [("account_id", .str accountId), ("uri", .str number)])

/-- `engine_unregister` (`lib.rs:3755–3773`). -/
def engineUnregister (accountId : CPtr) : Eng Int :=
  withText accountId fun id ↦ whenInitialized <|
    dispatchCode "AccountUnregister" (.obj [("uuid", .str id)])

/-- The first call that satisfies `p`, in hash-map order. -/
def firstCall (p : Call → Bool) : Eng (Option Call) :=
  withLock .calls do
    return (← callValues).find? p

/-- An entry point on the first live call. -/
def onLiveCall (body : Call → Eng Int) : Eng Int := do
  match ← firstCall (·.isLive) with
  | some call => body call
  | none => return EngineErrorCode.notFound.code

/-- `engine_hangup` (`lib.rs:3722–3747`). -/
def engineHangup : Eng Int := whenInitialized <| onLiveCall fun call ↦
  dispatchCode "CallHangup" (.obj [("call_id", .ofU32 call.id)])

/-- `engine_answer_call` (`lib.rs:3780–3826`). -/
def engineAnswerCall : Eng Int := whenInitialized do
  match ← firstCall (·.isRingingIncoming) with
  | none =>
    logEngine .error "engine_answer_call: No ringing call found"
    return EngineErrorCode.notFound.code
  | some call =>
    let id := call.id
    logEngine .info s!"engine_answer_call: Found call_id={id}"
    logEngine .info s!"engine_answer_call: Dispatching CallAnswer for call_id={id}"
    match ← dispatchCommand "CallAnswer" (.obj [("call_id", .ofU32 id)]) with
    | .error _ => return EngineErrorCode.internalError.code
    | .ok rc =>
      let name := rc.debug
      logEngine .info s!"engine_answer_call: CallAnswer completed rc={name}"
      return rc.code

/-- `engine_set_mute` (`lib.rs:3833–3856`). -/
def engineSetMute (muted : Int) : Eng Int := whenInitialized <| onLiveCall fun call ↦
  dispatchCode "CallMute" (.obj [("call_id", .ofU32 call.id), ("muted", .bool (muted ≠ 0))])

/-- `engine_set_hold` (`lib.rs:3863–3886`). -/
def engineSetHold (onHold : Int) : Eng Int := whenInitialized <| onLiveCall fun call ↦
  dispatchCode "CallHold" (.obj [("call_id", .ofU32 call.id), ("hold", .bool (onHold ≠ 0))])

/-- `engine_send_dtmf` (`lib.rs:3894–3925`). -/
def engineSendDtmf (digits : CPtr) : Eng Int :=
  withText digits fun digits ↦ whenInitialized <| onLiveCall fun call ↦
    dispatchCode "CallSendDtmf" (.obj [("call_id", .ofU32 call.id), ("digits", .str digits)])

/-- `engine_play_dtmf` (`lib.rs:3933–3945`): the pointer goes to the shim as it is. -/
def enginePlayDtmf (digits : CPtr) : Eng Int :=
  if digits = .null then return EngineErrorCode.invalidUtf8.code
  else whenInitialized <| shim (.pdAudPlayDtmf digits)

/-- `engine_start_recording` (`lib.rs:3953–3978`): the gate comes before the text. -/
def engineStartRecording (filePath : CPtr) : Eng Int :=
  if filePath = .null then return EngineErrorCode.invalidUtf8.code
  else whenInitialized <| withText filePath fun path ↦ onLiveCall fun call ↦
    EngineErrorCode.code <$> startRecordingForCall call.id path

/-- `engine_stop_recording` (`lib.rs:3985–4002`). -/
def engineStopRecording : Eng Int := whenInitialized <| onLiveCall fun call ↦
  EngineErrorCode.code <$> stopRecordingForCall call.id

/-- `engine_is_recording` (`lib.rs:4009–4032`): 0 without a call. -/
def engineIsRecording : Eng Int := do
  if (← Traced.get).initialized then
    match (← firstCall (·.isLive)).bind (·.pjsipCallId) with
    | some pjId => shim (.pdCallIsRecording pjId)
    | none => return 0
  else return 0

/-- The call an `i32` names, `c.id == call_id as u32` (`lib.rs:4051–4057`). -/
def callById (callId : Int) : Eng (Option Call) := firstCall (·.id == i32AsU32 callId)

/-- `engine_transfer_call` (`lib.rs:4038–4070`). -/
def engineTransferCall (callId : Int) (destUri : CPtr) : Eng Int :=
  withText destUri fun destUri ↦ whenInitialized do
    match (← callById callId).bind (·.pjsipCallId) with
    | some pjId => shim (.pdCallTransfer pjId destUri)
    | none => return EngineErrorCode.notFound.code

/-- `engine_start_attended_xfer` (`lib.rs:4076–4147`). -/
def engineStartAttendedXfer (callId : Int) (destUri : CPtr) : Eng Int :=
  withText destUri fun destUri ↦ whenInitialized do
    let call ← callById callId
    let accountId := (call.map (·.accountId)).getD ""
    match call.bind (·.pjsipCallId) with
    | none => return EngineErrorCode.notFound.code
    | some pjId => match cString destUri with
      | none => return EngineErrorCode.invalidUtf8.code
      | some dest =>
        let newPjId ← shim (.pdCallStartAttendedXfer pjId dest)
        if newPjId < 0 then return EngineErrorCode.internalError.code
        else
          let consultationCallId ← fetchNextCallId
          trackCall (newCall consultationCallId accountId destUri .outgoing newPjId) newPjId
          logEngine .info <| s!"Consultation call start: id={consultationCallId} " ++
            s!"pj_call={newPjId} uri={destUri}"
          return asI32 consultationCallId.toNat

/-- The PJSIP ids of two calls, read in one critical section. -/
def callPair (callA callB : Int) : Eng (Option (Int × Int)) :=
  withLock .calls do
    let values ← callValues
    let pjId (id : Int) := (values.find? (·.id == i32AsU32 id)).bind (·.pjsipCallId)
    match pjId callA, pjId callB with
    | some a, some b => return some (a, b)
    | _, _ => return none

/-- `engine_complete_xfer` (`lib.rs:4152–4174`). -/
def engineCompleteXfer (callA callB : Int) : Eng Int := whenInitialized do
  match ← callPair callA callB with
  | some (a, b) => shim (.pdCallCompleteXfer a b)
  | none => return EngineErrorCode.notFound.code

/-- `engine_merge_conference` (`lib.rs:4179–4201`). -/
def engineMergeConference (callA callB : Int) : Eng Int := whenInitialized do
  match ← callPair callA callB with
  | some (a, b) => shim (.pdCallMergeConference a b)
  | none => return EngineErrorCode.notFound.code

/-- `engine_list_audio_devices` (`lib.rs:4208–4218`). -/
def engineListAudioDevices : Eng Int :=
  whenInitialized <| dispatchCode "AudioListDevices" (.obj [])

/-- `engine_set_audio_devices` (`lib.rs:4225–4235`). -/
def engineSetAudioDevices (inputId outputId : Int) : Eng Int :=
  whenInitialized <| dispatchCode "AudioSetDevices" (.obj
    [("input_id", .ofI32 inputId), ("output_id", .ofI32 outputId)])

/-- `engine_set_log_level` (`lib.rs:4248–4266`). -/
def engineSetLogLevel (level : CPtr) : Eng Int :=
  withText level fun level ↦ whenInitialized <|
    dispatchCode "SetLogLevel" (.obj [("level", .str level)])

/-- `engine_get_log_buffer` (`lib.rs:4273–4283`). -/
def engineGetLogBuffer : Eng Int :=
  whenInitialized <| dispatchCode "GetLogBuffer" (.obj [])

end PacketDial.Core
