import PacketDial.Core.Callbacks

/-!
# Call commands

The commands on calls: `core_rust/src/lib.rs:1567–2020`, `2231–2255` and `2377–2395`. A
command names its call by `call_id`, a `u64` cut to 32 bits, and most fall back to some call
of the table when the field is missing.
-/

namespace PacketDial.Core

open PacketDial.Lib

/-- The `n as u32` of a `call_id` field. -/
def callIdField (p : Json) : Option UInt32 := (p.get "call_id").asU64.map truncU32

/-- A `call_id` that was written as one is read back. -/
theorem callIdField_of_get {p : Json} {id : UInt32} (h : p.get "call_id" = .ofU32 id) :
    callIdField p = some id := by
  rw [callIdField, h, Json.asU64_ofU32, Option.map_some, truncU32_toUInt64]

/-- The field that an entry point writes is read back. -/
theorem callIdField_ofU32 (id : UInt32) (rest : List (String × Json)) :
    callIdField (.obj (("call_id", .ofU32 id) :: rest)) = some id := callIdField_of_get rfl

/-- `normalize_call_target_uri` (`lib.rs:1567–1589`). -/
def normalizeCallTargetUri (raw : String) (fallbackDomain : Option String) : String :=
  let trimmed := trim raw
  let domain := (fallbackDomain.map trim).filter (· ≠ "")
  let chars := trimmed.toList
  if "sip:".toList.isPrefixOf chars || "sips:".toList.isPrefixOf chars then
    if chars.contains '@' then trimmed
    else match domain with
      | some d => s!"{trimmed}@{d}"
      | none => trimmed
  else if chars.contains ':' then s!"sip:{trimmed}"
  else match domain with
    | some d => s!"sip:{trimmed}@{d}"
    | none => s!"sip:{trimmed}"

/-- The domain an account lends to a bare number (`lib.rs:1623–1629`). -/
def domainHint (a : Account) : Option String :=
  if trim a.domain ≠ "" then some (trim a.domain)
  else if trim a.server ≠ "" then some (trim a.server)
  else none

/-- The account of a `CallStart` without `account_id`: the first that is registered with
PJSIP (`lib.rs:1594–1610`). -/
def defaultCallAccount : Eng (Option String) :=
  withLock .accounts do
    match (← accountValues).find? (·.pjsipAccId.isSome) with
    | some a => return some a.uuid
    | none =>
      logEngine .warn "CallStart: No account specified and no registered accounts found"
      return none

/-- The audio report of `cmd_call_start` (`lib.rs:1663–1699`). -/
def audioPreflight : Eng Unit :=
  withLock .audioDevices do
    let s ← Traced.get
    let device (id : UInt32) (kind : AudioDeviceKind) :=
      s.audioDevices.find? fun d ↦ d.id == id && d.kind == kind
    let input := device s.selectedInput .input
    let output := device s.selectedOutput .output
    let inputName := (input.map (·.name)).getD "<missing>"
    let outputName := (output.map (·.name)).getD "<missing>"
    let inputValid := input.isSome
    let outputValid := output.isSome
    let selectedIn := s.selectedInput
    let selectedOut := s.selectedOutput
    let entries := s.audioDevices.length
    logEngine .info <| s!"CallStart: audio preflight selected_input={selectedIn} " ++
      s!"('{inputName}', valid={inputValid}) selected_output={selectedOut} " ++
      s!"('{outputName}', valid={outputValid}) enumerated_entries={entries}"

/-- The code and the log text for a status of `pd_call_make` (`lib.rs:1725–1785`). -/
def callMakeError (uri : String) (status : Int) : EngineErrorCode × String :=
  if 450002 ≤ status ∧ status ≤ 450007 then
    (.mediaNotReady, s!"CallStart: audio device not available for uri={uri}. " ++
      s!"Please check audio device settings (status={status}).")
  else if 220000 ≤ status ∧ status ≤ 220999 then
    (.mediaNotReady, s!"CallStart: PJMEDIA error for uri={uri} (status={status}). " ++
      "Check audio devices.")
  else if 420000 ≤ status ∧ status ≤ 420999 then
    (.mediaNotReady, s!"CallStart: audio device error for uri={uri} (status={status}). " ++
      "Check microphone and speaker.")
  else if 450000 ≤ status ∧ status ≤ 459999 then
    (.mediaNotReady, s!"CallStart: media subsystem error for uri={uri} (status={status}). " ++
      "Check audio devices.")
  else if (171000 ≤ status ∧ status ≤ 171999) ∨ (100000 ≤ status ∧ status ≤ 159999) then
    (.internalError, s!"CallStart: network/transport error for uri={uri} (status={status})")
  else if 190000 ≤ status ∧ status ≤ 199999 then
    (.internalError, s!"CallStart: system error for uri={uri} (status={status})")
  else
    (.mediaNotReady, s!"CallStart: pd_call_make failed for uri={uri} (status={status}).")

/-- The PJSIP account and the domain hint of a `CallStart` (`lib.rs:1620–1637`). -/
def callStartAccount (accountId : String) : Eng (Option Int × Option String) :=
  withLock .accounts do
    match (← Traced.get).accounts.lookup accountId with
    | some a => return (a.pjsipAccId, domainHint a)
    | none => return (none, none)

/-- `cmd_call_start` once the id is taken (`lib.rs:1656–1809`). -/
def placeCall (callId : UInt32) (accountId uri : String) (pjAccId : Int) :
    Eng EngineErrorCode := do
  logEngine .debug s!"CallStart: call_id={callId} uri={uri} account={accountId}"
  audioPreflight
  match cString uri with
  | none =>
    logEngine .error s!"CallStart: destination URI contains NUL byte: {uri}"
    return .internalError
  | some dst =>
    let pjCallId ← shim (.pdCallMake pjAccId dst)
    if pjCallId < 0 then
      let status := asI32 (-pjCallId)
      logEngine .debug s!"CallStart: pd_call_make returned status={status}"
      let (code, text) := callMakeError uri status
      logEngine .error text
      return code
    else
      trackCall (newCall callId accountId uri .outgoing pjCallId) pjCallId
      logEngine .info s!"Outgoing call id={callId} pj_call={pjCallId} uri={uri}"
      return .ok

/-- The account a `CallStart` names, or the default one. -/
def callAccount (p : Json) : Eng (Option String) :=
  match (p.get "account_id").asStr with
  | some accountId => return some accountId
  | none => defaultCallAccount

/-- `cmd_call_start` from the normalisation of the target on (`lib.rs:1647–1809`). -/
def startCall (accountId rawUri : String) (hint : Option String) (pjAccId : Int) :
    Eng EngineErrorCode := do
  let uri := normalizeCallTargetUri rawUri hint
  if uri ≠ rawUri then
    logEngine .debug s!"CallStart: normalized target from '{rawUri}' to '{uri}'"
  let callId ← fetchNextCallId
  placeCall callId accountId uri pjAccId

/-- `cmd_call_start` (`lib.rs:1591–1810`). -/
def cmdCallStart (p : Json) : Eng EngineErrorCode := do
  match ← callAccount p with
  | none => return .notFound
  | some accountId => match (p.get "uri").asStr with
    | none => return .invalidJson
    | some target =>
      let rawUri := trim target
      if rawUri = "" then
        logEngine .warn "CallStart: empty URI payload"
        return .invalidJson
      else
        let (pjAccId, hint) ← callStartAccount accountId
        match pjAccId with
        | none =>
          logEngine .error s!"CallStart: account '{accountId}' not registered with PJSIP"
          return .notFound
        | some pjAccId => startCall accountId rawUri hint pjAccId

/-- An incoming call that still rings. -/
def Call.isRingingIncoming (call : Call) : Bool :=
  call.state == .ringing && call.direction == .incoming

/-- A call whose record is not `Ended`. -/
def Call.isLive (call : Call) : Bool := call.state != .ended

/-- The `{:?}` of an optional PJSIP id. -/
def debugId : Option Int → String
  | some id => s!"Some({id})"
  | none => "None"

/-- The critical section of `cmd_call_answer` (`lib.rs:1816–1863`). -/
def answerTarget (p : Json) : Eng (Except EngineErrorCode (Option Int)) :=
  withLock .calls do
    logEngine .debug "cmd_call_answer: Got CALLS lock"
    let values ← callValues
    let callId := (callIdField p).or ((values.find? (·.isRingingIncoming)).map (·.id))
    match callId with
    | none =>
      logEngine .error "cmd_call_answer: No ringing call found"
      return .error .notFound
    | some callId =>
      logEngine .debug s!"cmd_call_answer: Found call_id={callId}"
      match values.find? (·.id == callId) with
      | none =>
        logEngine .error "cmd_call_answer: Call not found in guard"
        return .error .notFound
      | some call =>
        let pjId := debugId call.pjsipCallId
        logEngine .debug s!"cmd_call_answer: call.pjsip_call_id={pjId}"
        return .ok call.pjsipCallId

/-- What `cmd_call_answer` logs about the outcome (`lib.rs:1873–1886`). -/
def logAnswered (pjId rc : Int) : Eng Unit := do
  logEngine .info s!"cmd_call_answer: pd_call_answer({pjId}) returned rc={rc}"
  if rc ≠ 0 then
    logEngine .warn s!"CallAnswer: pd_call_answer({pjId}) rc={rc}"
  logEngine .debug "cmd_call_answer: Returning Ok"

/-- `cmd_call_answer` (`lib.rs:1812–1893`). -/
def cmdCallAnswer (p : Json) : Eng EngineErrorCode := do
  logEngine .debug "cmd_call_answer: START"
  match ← answerTarget p with
  | .error rc => return rc
  | .ok none =>
    logEngine .error "CallAnswer: call has no PJSIP call id"
    return .notFound
  | .ok (some pjId) =>
    logEngine .info s!"cmd_call_answer: Calling pd_call_answer({pjId})..."
    let rc ← shim (.pdCallAnswer pjId)
    logAnswered pjId rc
    return .ok

/-- The critical section of `cmd_call_hangup` (`lib.rs:1896–1913`). -/
def hangupTarget (p : Json) : Eng (Option Int) :=
  withLock .calls do
    let values ← callValues
    match (callIdField p).or ((values.find? (·.isLive)).map (·.id)) with
    | some id => return (values.find? (·.id == id)).bind (·.pjsipCallId)
    | none => return none

/-- `cmd_call_hangup` (`lib.rs:1895–1931`). -/
def cmdCallHangup (p : Json) : Eng EngineErrorCode := do
  match ← hangupTarget p with
  | some pjId =>
    let rc ← shim (.pdCallHangup pjId)
    if rc ≠ 0 then
      logEngine .warn s!"CallHangup: pd_call_hangup({pjId}) rc={rc}"
    return .ok
  | none => return .notFound

/-- The id that `cmd_call_mute` and `cmd_call_hold` resolve: the field, else some live call,
else 0 (`lib.rs:1937–1944`, `1968–1975`). -/
def targetOrLive (p : Json) : Eng UInt32 := do
  let values ← callValues
  return ((callIdField p).or ((values.find? (·.isLive)).map (·.id))).getD 0

/-- The shape shared by `cmd_call_mute` and `cmd_call_hold`: under the `CALLS` lock the record
is updated and reported, then the shim operation is issued without the lock. -/
def updateTarget (p : Json) (update : Call → Eng Call) (op : Int → ShimCall) :
    Eng EngineErrorCode := do
  let found ← withLock .calls do
    let callId ← targetOrLive p
    match (← Traced.get).calls.lookup callId with
    | none => return none
    | some old =>
      let call ← update old
      insertCall callId call
      pushCallState call
      return some call.pjsipCallId
  match found with
  | none => return .notFound
  | some none => return .ok
  | some (some pjId) =>
    discard <| shim (op pjId)
    return .ok

/-- `cmd_call_mute` (`lib.rs:1933–1962`). -/
def cmdCallMute (p : Json) : Eng EngineErrorCode :=
  let muted := (p.get "muted").asBool.getD true
  updateTarget p (fun call ↦ return { call with muted := muted }) (.pdCallSetMute · muted)

/-- The record after a hold command (`lib.rs:1980–1993`): no check of the state it is in. -/
def holdRecord (hold : Bool) (call : Call) : Eng Call :=
  if hold then settleActive { call with onHold := true, state := .onHold }
  else do
    let now ← nowSecs
    return { call with onHold := false, state := .inCall, lastResumedAt := some now }

/-- `cmd_call_hold` (`lib.rs:1964–2003`). -/
def cmdCallHold (p : Json) : Eng EngineErrorCode :=
  let hold := (p.get "hold").asBool.getD true
  updateTarget p (holdRecord hold) (.pdCallHold · hold)

/-- `cmd_media_stats_update` (`lib.rs:2005–2020`). -/
def cmdMediaStatsUpdate (p : Json) : Eng EngineErrorCode :=
  match callIdField p with
  | none => return .invalidJson
  | some callId => do
    let float (key : String) := ((p.get key).asF64.getD 0.0).toFloat32
    let stats : MediaStats :=
      { callId := callId
        jitterMs := float "jitter_ms"
        packetLossPct := float "packet_loss_pct"
        codec := (p.get "codec").asStr.getD "PCMU"
        bitrateKbps := truncU32 ((p.get "bitrate_kbps").asU64.getD 64) }
    pushMediaStats stats
    withLock .mediaStats (insertMediaStats callId stats)
    return .ok

/-- `cmd_call_send_dtmf` (`lib.rs:2231–2255`): the shim is called under the `CALLS` lock. -/
def cmdCallSendDtmf (p : Json) : Eng EngineErrorCode :=
  match callIdField p, (p.get "digits").asStr with
  | some callId, some digits => do
    logEngine .info s!"Sending DTMF: {digits}"
    withLock .calls do
      match ((← Traced.get).calls.lookup callId).bind (·.pjsipCallId), cString digits with
      | some pjId, some digits => discard <| shim (.pdCallSendDtmf pjId digits)
      | _, _ => pure ()
    return .ok
  | _, _ => return .invalidJson

/-- `cmd_call_start_recording` (`lib.rs:2377–2387`). -/
def cmdCallStartRecording (p : Json) : Eng EngineErrorCode :=
  match callIdField p, (p.get "file_path").asStr with
  | some callId, some path =>
    if trim path = "" then return .invalidJson else startRecordingForCall callId (trim path)
  | _, _ => return .invalidJson

/-- `cmd_call_stop_recording` (`lib.rs:2389–2395`). -/
def cmdCallStopRecording (p : Json) : Eng EngineErrorCode :=
  match callIdField p with
  | some callId => stopRecordingForCall callId
  | none => return .invalidJson

end PacketDial.Core
