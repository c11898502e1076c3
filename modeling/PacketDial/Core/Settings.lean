import PacketDial.Core.Events

/-!
# Settings commands

The `Set`/`Get` commands of one account and of the whole engine, the credential store, the
log filter and the diagnostics: `core_rust/src/lib.rs:2397–2942`, `2989–3171`, `3206–3286`.
Setters issue one shim call and report it; getters read the shim's out-parameters.
-/

namespace PacketDial.Core

open PacketDial.Lib

/-- Issue a shim call that must return 0, then push the event. -/
def runSetter (call : ShimCall) (failLog : Option String) (failure : EngineErrorCode)
    (type : String) (payload : List (String × Json)) : Eng EngineErrorCode := do
  let rc ← shim call
  if rc ≠ 0 then
    match failLog with
    | some what => logEngine .error s!"{what} failed: {rc}"
    | none => pure ()
    return failure
  else
    pushEvent type (.obj payload)
    return .ok

/-- The PJSIP id of an account, if it is known and registered. -/
def accountPjsipId (accountId : String) : Eng (Option Int) :=
  withLock .accounts do
    return ((← Traced.get).accounts.lookup accountId).bind (·.pjsipAccId)

/-- A setter of one account: without a PJSIP id only the event is pushed; a text argument
with a NUL gives no shim call and `InvalidUtf8`. -/
def accountSetter (accountId : String) (call : Int → Option ShimCall) (failLog : Option String)
    (failure : EngineErrorCode) (type : String) (payload : List (String × Json)) :
    Eng EngineErrorCode := do
  let payload := ("account_id", .str accountId) :: payload
  match ← accountPjsipId accountId with
  | none =>
    pushEvent type (.obj payload)
    return .ok
  | some pjId => match call pjId with
    | none => return .invalidUtf8
    | some call => runSetter call failLog failure type payload

/-- A getter: the fields read from the shim's out-parameters, or the fallback when it does
not return 0. -/
def runGetter (call : ShimCall) (read : Env → List (String × Json))
    (fallback : Env → List (String × Json)) : Eng (List (String × Json)) := do
  let rc ← shim call
  let env ← Traced.ask
  return if rc = 0 then read env else fallback env

/-- The fields a getter of one account reports: without a PJSIP id, the fallback. -/
def accountFields (accountId : String) (call : Int → ShimCall)
    (read : ShimCall → Env → List (String × Json)) (fallback : Env → List (String × Json)) :
    Eng (List (String × Json)) := do
  match ← accountPjsipId accountId with
  | some pjId => runGetter (call pjId) (read (call pjId)) fallback
  | none => return fallback (← Traced.ask)

/-- A getter of one account. -/
def accountGetter (p : Json) (call : Int → ShimCall) (read : ShimCall → Env → List (String × Json))
    (fallback : Env → List (String × Json)) (type : String) : Eng EngineErrorCode :=
  match (p.get "account_id").asStr with
  | none => return .invalidJson
  | some accountId => do
    let fields ← accountFields accountId call read fallback
    pushEvent type (.obj (("account_id", .str accountId) :: fields))
    return .ok

/-- A getter of an engine-wide setting. -/
def globalGetter (call : ShimCall) (read fallback : Env → List (String × Json))
    (type : String) : Eng EngineErrorCode := do
  let fields ← runGetter call read fallback
  pushEvent type (.obj fields)
  return .ok

/-- `String::from_utf8_lossy(..).trim_end_matches('\0')` of an out-buffer. -/
def bufferText (text : String) : String :=
  String.ofList (text.toList.reverse.dropWhile (· == '\x00')).reverse

/-- An integer field `as i32`. -/
def i32Field (p : Json) (key : String) : Option Int := (p.get key).asI64.map asI32

/-- The text of an out-parameter, as the codec list it encodes. -/
def codecFields (env : Env) (text : String) : List (String × Json) :=
  [("codec_priorities", (env.parseJson text).getD (.arr []))]

/-- The fields of an auto-answer report. -/
def autoAnswerFields (enabled : Bool) (delayMs : Int) : List (String × Json) :=
  [("enabled", .bool enabled), ("delay_ms", .ofI32 delayMs)]

/-- `cmd_account_set_forwarding` (`lib.rs:2397–2445`). -/
def cmdAccountSetForwarding (p : Json) : Eng EngineErrorCode :=
  match (p.get "account_id").asStr with
  | none => return .invalidJson
  | some accountId => do
    let fwdUri := (p.get "fwd_uri").asStr.getD ""
    let fwdFlags := (i32Field p "fwd_flags").getD 0
    logEngine .info s!"Setting forwarding for {accountId}: {fwdUri} (flags={fwdFlags})"
    accountSetter accountId
      (fun pjId ↦ (cString fwdUri).map fun uri ↦ .pdAccSetForward pjId uri fwdFlags)
      (some "Set forwarding") .internalError "ForwardingUpdated"
      [("fwd_uri", .str fwdUri), ("fwd_flags", .ofI32 fwdFlags)]

/-- `cmd_account_get_forwarding` (`lib.rs:2447–2491`). -/
def cmdAccountGetForwarding (p : Json) : Eng EngineErrorCode :=
  accountGetter p .pdAccGetForward
    (fun call env ↦ [("fwd_uri", .str (bufferText (env.outText call))),
      ("fwd_flags", .ofI32 (env.outInts call).1)])
    (fun _ ↦ [("fwd_uri", .str ""), ("fwd_flags", .ofI32 0)]) "ForwardingResult"

/-- `cmd_set_global_dnd` (`lib.rs:2493–2517`). -/
def cmdSetGlobalDnd (p : Json) : Eng EngineErrorCode :=
  match (p.get "enabled").asBool with
  | none => return .invalidJson
  | some enabled => do
    let onOff := if enabled then "ON" else "OFF"
    logEngine .info s!"Setting global DND: {onOff}"
    runSetter (.pdSetGlobalDnd enabled) (some "Set global DND") .internalError
      "GlobalDndUpdated" [("enabled", .bool enabled)]

/-- `cmd_blf_subscribe` (`lib.rs:2519–2573`): items that are not strings are skipped, and so
are, for the shim alone, strings with a NUL. -/
def cmdBlfSubscribe (p : Json) : Eng EngineErrorCode :=
  match (p.get "account_id").asStr, (p.get "uris").asArray with
  | some accountId, some items => do
    let uris := items.filterMap Json.asStr
    if uris = [] then return .invalidJson
    else
      let count := uris.length
      logEngine .info s!"Subscribing to BLF for {count} URIs on account {accountId}"
      accountSetter accountId
        (fun pjId ↦ some (.pdBlfSubscribe pjId (uris.filterMap cString)))
        (some "BLF subscribe") .internalError "BlfSubscribed"
        [("uris", .arr (uris.map .str))]
  | _, _ => return .invalidJson

/-- `cmd_blf_unsubscribe` (`lib.rs:2575–2606`). -/
def cmdBlfUnsubscribe (p : Json) : Eng EngineErrorCode :=
  match (p.get "account_id").asStr with
  | none => return .invalidJson
  | some accountId => do
    logEngine .info s!"Unsubscribing from BLF for account {accountId}"
    accountSetter accountId (fun pjId ↦ some (.pdBlfUnsubscribe pjId))
      (some "BLF unsubscribe") .internalError "BlfUnsubscribed" []

/-- `cmd_account_set_lookup_url` (`lib.rs:2608–2648`). -/
def cmdAccountSetLookupUrl (p : Json) : Eng EngineErrorCode :=
  match (p.get "account_id").asStr with
  | none => return .invalidJson
  | some accountId => do
    let lookupUrl := (p.get "lookup_url").asStr.getD ""
    logEngine .info s!"Setting lookup URL for {accountId}: {lookupUrl}"
    accountSetter accountId
      (fun pjId ↦ (cString lookupUrl).map (.pdAccSetLookupUrl pjId))
      (some "Set lookup URL") .internalError "LookupUrlUpdated"
      [("lookup_url", .str lookupUrl)]

/-- `cmd_account_get_lookup_url` (`lib.rs:2650–2688`). -/
def cmdAccountGetLookupUrl (p : Json) : Eng EngineErrorCode :=
  accountGetter p .pdAccGetLookupUrl
    (fun call env ↦ [("lookup_url", .str (bufferText (env.outText call)))])
    (fun _ ↦ [("lookup_url", .str "")]) "LookupUrlResult"

/-- `cmd_account_set_codec_priority` (`lib.rs:2690–2723`). -/
def cmdAccountSetCodecPriority (p : Json) : Eng EngineErrorCode :=
  match (p.get "account_id").asStr, (p.get "codec_priorities").asStr with
  | some accountId, some priorities =>
    accountSetter accountId
      (fun pjId ↦ (cString priorities).map (.pdAccSetCodecPriority pjId))
      none .internalError "CodecPriorityUpdated" []
  | _, _ => return .invalidJson

/-- `cmd_account_get_codec_priority` (`lib.rs:2725–2765`). -/
def cmdAccountGetCodecPriority (p : Json) : Eng EngineErrorCode :=
  accountGetter p .pdAccGetCodecPriority
    (fun call env ↦ codecFields env (bufferText (env.outText call)))
    (fun env ↦ codecFields env "") "CodecPriorityResult"

/-- `cmd_account_set_codec` (`lib.rs:2767–2807`). -/
def cmdAccountSetCodec (p : Json) : Eng EngineErrorCode :=
  match (p.get "account_id").asStr, (p.get "codec_id").asStr, (p.get "enabled").asBool with
  | some accountId, some codecId, some enabled =>
    accountSetter accountId
      (fun pjId ↦ (cString codecId).map fun codec ↦ .pdAccSetCodec pjId codec enabled)
      none .notFound "CodecUpdated"
      [("codec_id", .str codecId), ("enabled", .bool enabled)]
  | _, _, _ => return .invalidJson

/-- `cmd_account_set_auto_answer` (`lib.rs:2809–2844`). -/
def cmdAccountSetAutoAnswer (p : Json) : Eng EngineErrorCode :=
  match (p.get "account_id").asStr, (p.get "enabled").asBool with
  | some accountId, some enabled =>
    let delayMs := (i32Field p "delay_ms").getD 0
    accountSetter accountId (fun pjId ↦ some (.pdAccSetAutoAnswer pjId enabled delayMs))
      none .internalError "AutoAnswerUpdated" (autoAnswerFields enabled delayMs)
  | _, _ => return .invalidJson

/-- `cmd_account_get_auto_answer` (`lib.rs:2846–2878`). -/
def cmdAccountGetAutoAnswer (p : Json) : Eng EngineErrorCode :=
  accountGetter p .pdAccGetAutoAnswer
    (fun call env ↦ autoAnswerFields ((env.outInts call).1 ≠ 0) (env.outInts call).2)
    (fun _ ↦ autoAnswerFields false 0) "AutoAnswerResult"

/-- `cmd_account_set_dtmf_method` (`lib.rs:2880–2910`). -/
def cmdAccountSetDtmfMethod (p : Json) : Eng EngineErrorCode :=
  match (p.get "account_id").asStr, i32Field p "dtmf_method" with
  | some accountId, some dtmfMethod =>
    accountSetter accountId (fun pjId ↦ some (.pdAccSetDtmfMethod pjId dtmfMethod))
      none .internalError "DtmfMethodUpdated" [("dtmf_method", .ofI32 dtmfMethod)]
  | _, _ => return .invalidJson

/-- `cmd_account_get_dtmf_method` (`lib.rs:2912–2942`): the fallback is 1, RFC 2833. -/
def cmdAccountGetDtmfMethod (p : Json) : Eng EngineErrorCode :=
  accountGetter p .pdAccGetDtmfMethod
    (fun call env ↦ [("dtmf_method", .ofI32 (env.outInts call).1)])
    (fun _ ↦ [("dtmf_method", .ofI32 1)]) "DtmfMethodResult"

/-- `cmd_set_global_codec_priority` (`lib.rs:2989–3007`). -/
def cmdSetGlobalCodecPriority (p : Json) : Eng EngineErrorCode :=
  match (p.get "codec_priorities").asStr with
  | none => return .invalidJson
  | some priorities => match cString priorities with
    | none => return .invalidUtf8
    | some priorities =>
      runSetter (.pdSetGlobalCodecPriority priorities) none .internalError
        "GlobalCodecPriorityUpdated" []

/-- `cmd_get_global_codec_priority` (`lib.rs:3009–3032`). -/
def cmdGetGlobalCodecPriority : Eng EngineErrorCode :=
  globalGetter .pdGetGlobalCodecPriority
    (fun env ↦ codecFields env (bufferText (env.outText .pdGetGlobalCodecPriority)))
    (fun env ↦ codecFields env "") "GlobalCodecPriorityResult"

/-- `cmd_set_global_dtmf_method` (`lib.rs:3034–3052`). -/
def cmdSetGlobalDtmfMethod (p : Json) : Eng EngineErrorCode :=
  match i32Field p "dtmf_method" with
  | none => return .invalidJson
  | some dtmfMethod =>
    runSetter (.pdSetGlobalDtmfMethod dtmfMethod) none .internalError
      "GlobalDtmfMethodUpdated" [("dtmf_method", .ofI32 dtmfMethod)]

/-- `cmd_get_global_dtmf_method` (`lib.rs:3054–3069`). -/
def cmdGetGlobalDtmfMethod : Eng EngineErrorCode :=
  globalGetter .pdGetGlobalDtmfMethod
    (fun env ↦ [("dtmf_method", .ofI32 (env.outInts .pdGetGlobalDtmfMethod).1)])
    (fun _ ↦ [("dtmf_method", .ofI32 1)]) "GlobalDtmfMethodResult"

/-- `cmd_set_global_auto_answer` (`lib.rs:3071–3094`). -/
def cmdSetGlobalAutoAnswer (p : Json) : Eng EngineErrorCode :=
  match (p.get "enabled").asBool with
  | none => return .invalidJson
  | some enabled =>
    let delayMs := (i32Field p "delay_ms").getD 0
    runSetter (.pdSetGlobalAutoAnswer enabled delayMs) none .internalError
      "GlobalAutoAnswerUpdated" (autoAnswerFields enabled delayMs)

/-- `cmd_get_global_auto_answer` (`lib.rs:3096–3113`). -/
def cmdGetGlobalAutoAnswer : Eng EngineErrorCode :=
  globalGetter .pdGetGlobalAutoAnswer
    (fun env ↦ autoAnswerFields ((env.outInts .pdGetGlobalAutoAnswer).1 ≠ 0)
      (env.outInts .pdGetGlobalAutoAnswer).2)
    (fun _ ↦ autoAnswerFields false 0) "GlobalAutoAnswerResult"

/-- `cmd_set_ec_enabled` (`lib.rs:3115–3126`). -/
def cmdSetEcEnabled (p : Json) : Eng EngineErrorCode :=
  match (p.get "enabled").asBool with
  | none => return .invalidJson
  | some enabled =>
    runSetter (.pdSetEcEnabled enabled) none .internalError "EcUpdated"
      [("enabled", .bool enabled)]

/-- `cmd_set_mic_amplification` (`lib.rs:3128–3142`). -/
def cmdSetMicAmplification (p : Json) : Eng EngineErrorCode :=
  match (p.get "level").asF64 with
  | none => return .invalidJson
  | some level =>
    runSetter (.pdSetMicAmplification level.toFloat32) none .internalError
      "MicAmplificationUpdated" [("level", .ofF32 level.toFloat32)]

/-- `cmd_sip_capture` (`lib.rs:3144–3156`), with the panic its masking can end in. -/
def cmdSipCapture (p : Json) : Eng (Except Halt EngineErrorCode) :=
  let direction := (p.get "direction").asStr.getD "?"
  let raw := (p.get "raw").asStr.getD ""
  match maskSipLog raw.toList with
  | .error halt => return .error halt
  | .ok masked => do
    pushEvent "SipMessageCaptured" (.obj
      [("direction", .str direction), ("raw", .str (String.ofList masked))])
    return .ok .ok

/-- `cmd_diag_export` (`lib.rs:3158–3171`). -/
def cmdDiagExport (p : Json) : Eng EngineErrorCode := do
  let anonymize := (p.get "anonymize").asBool.getD true
  let accountCount ← withLock .accounts do
    return (← Traced.get).accounts.entries.length
  pushEvent "DiagBundleReady" (.obj
    [("anonymize", .bool anonymize), ("call_history_count", .ofNat 0),
      ("account_count", .ofNat accountCount), ("note", .str "TODO: real export")])
  return .ok

/-- `cmd_cred_store` (`lib.rs:3206–3223`). -/
def cmdCredStore (p : Json) : Eng EngineErrorCode :=
  match (p.get "key").asStr, (p.get "value").asStr with
  | some key, some value => do
    withLock .credStore <|
      Traced.modify fun s ↦ { s with credStore := s.credStore.insert key value }
    pushEvent "CredStored" (.obj [("key", .str key)])
    return .ok
  | _, _ => return .invalidJson

/-- `cmd_cred_retrieve` (`lib.rs:3225–3244`): the event is pushed under the lock. -/
def cmdCredRetrieve (p : Json) : Eng EngineErrorCode :=
  match (p.get "key").asStr with
  | none => return .invalidJson
  | some key =>
    withLock .credStore do
      match (← Traced.get).credStore.lookup key with
      | none => return .notFound
      | some value =>
        pushEvent "CredRetrieved" (.obj [("key", .str key), ("value", .str value)])
        return .ok

/-- `cmd_engine_ping` (`lib.rs:3246–3249`). -/
def cmdEnginePing : Eng EngineErrorCode := do
  pushEvent "EnginePong" (.obj [])
  return .ok

/-- `cmd_set_log_level` (`lib.rs:3251–3269`). -/
def cmdSetLogLevel (p : Json) : Eng EngineErrorCode :=
  match (p.get "level").asStr.bind LogLevel.fromStr with
  | none => return .invalidJson
  | some level => do
    Traced.modify fun s ↦ { s with activeLogLevel := level }
    pushEvent "LogLevelSet" (.obj [("level", .str level.asStr)])
    return .ok

/-- One entry of a `LogBufferResult`. -/
def logEntryJson (e : LogEntry) : Json :=
  .obj [("level", .str e.level.asStr), ("message", .str e.message), ("ts", .ofNat e.ts)]

/-- `cmd_get_log_buffer` (`lib.rs:3271–3286`). -/
def cmdGetLogBuffer : Eng EngineErrorCode := do
  let items ← withLock .logBuffer do
    return (← Traced.get).logBuffer.map logEntryJson
  pushEvent "LogBufferResult" (.obj [("entries", .arr items)])
  return .ok

end PacketDial.Core
