import PacketDial.Core.Recording

/-!
# PJSIP callbacks

The functions the engine registers with `pd_init`, `core_rust/src/lib.rs:385–852`. PJSIP
calls them from its worker threads; each runs to its end between two commands here.
-/

namespace PacketDial.Core

open PacketDial.Lib

/-- `pj_level_to_log_level` (`lib.rs:390–397`). -/
def pjLevelToLogLevel (pjLevel : Int) : LogLevel :=
  if pjLevel = 1 then .error
  else if pjLevel = 2 then .warn
  else if pjLevel = 3 then .info
  else .debug

/-- `pjsip_on_log` (`lib.rs:400–411`). -/
def pjsipOnLog (pjLevel : Int) (msg : CPtr) : Eng Unit :=
  match msg.toStr with
  | none => pure ()
  | some msg => logEngine (pjLevelToLogLevel pjLevel) msg

/-- The reason text of a status callback: a null pointer is empty, bytes that are not UTF-8
are reported and replaced (`lib.rs:421–435`, `697–711`). -/
def reasonText (callback : String) (reason : CPtr) : Eng String :=
  match reason with
  | .null => return ""
  | .text s => return s
  | .invalidUtf8 => do
    logEngine .warn s!"{callback}: reason contains invalid UTF-8"
    return "<invalid UTF-8>"

/-- The registration state that a status report means (`lib.rs:454–460`). -/
def reportedRegState (expires statusCode : Int) (reason : String) : RegistrationState :=
  if expires > 0 ∧ (statusCode = 200 ∨ statusCode = 0) then .registered
  else if statusCode ≥ 400 ∨ (expires = 0 ∧ statusCode ≠ 0) then
    .failed s!"{statusCode} {reason}"
  else .unregistered

/-- `pjsip_on_reg_state` (`lib.rs:415–476`). -/
def pjsipOnRegState (pjAccId expires statusCode : Int) (reasonPtr : CPtr) : Eng Unit := do
  let reason ← reasonText "pjsip_on_reg_state" reasonPtr
  let found ← withLock .pjsipAccMap do
    return (← Traced.get).pjsipAccMap.lookup pjAccId
  match found with
  | none => logEngine .warn s!"pjsip_on_reg_state: unknown pj_acc_id={pjAccId}"
  | some accountId =>
    let newState := reportedRegState expires statusCode reason
    withLock .accounts do
      match (← Traced.get).accounts.lookup accountId with
      | some a => insertAccount accountId { a with regState := newState }
      | none => pure ()
    pushRegState accountId newState
    let name := newState.variantName
    logEngine .info <| s!"Account '{accountId}' registration: {name} " ++
      s!"(expires={expires}, code={statusCode})"

/-- A call as both creation paths make it (`lib.rs:512–525`, `1787–1800`, `4119–4132`). -/
def newCall (id : UInt32) (accountId uri : String) (direction : CallDirection)
    (pjCallId : Int) : Call where
  id := id
  accountId := accountId
  uri := uri
  direction := direction
  state := .ringing
  muted := false
  onHold := false
  accumulatedActiveSecs := 0
  lastResumedAt := none
  pjsipCallId := some pjCallId
  recordingPath := none
  recordingStartedAtMs := none

/-- Push a new call, then enter it in both tables (`lib.rs:527–533`, `1801–1803`,
`4134–4136`). -/
def trackCall (call : Call) (pjCallId : Int) : Eng Unit := do
  pushCallState call
  withLock .calls (insertCall call.id call)
  withLock .pjsipCallMap (insertPjsipCall pjCallId call.id)

/-- `pjsip_on_incoming_call` (`lib.rs:480–537`). -/
def pjsipOnIncomingCall (pjAccId pjCallId : Int) (fromUriPtr : CPtr) : Eng Unit := do
  let fromUri := fromUriPtr.toStr.getD "sip:unknown"
  let found ← withLock .pjsipAccMap do
    return (← Traced.get).pjsipAccMap.lookup pjAccId
  match found with
  | none => logEngine .warn s!"pjsip_on_incoming_call: unknown pj_acc_id={pjAccId}"
  | some accountId =>
    let ourCallId ← fetchNextCallId
    trackCall (newCall ourCallId accountId fromUri .incoming pjCallId) pjCallId
    logEngine .info <| s!"Incoming call id={ourCallId} pj_call={pjCallId} " ++
      s!"from={fromUri} account={accountId}"

/-- The call state of a `pjsip_inv_state`; other values are ignored (`lib.rs:543–548`). -/
def invCallState (invState : Int) : Option CallState :=
  if 0 ≤ invState ∧ invState ≤ 3 then some .ringing
  else if invState = 4 ∨ invState = 5 then some .inCall
  else if invState = 6 then some .ended
  else none

/-- Close the running stretch of talk time: `last_resumed_at.take()` and the addition of the
seconds since (`lib.rs:582–584`, `647–649`, `1985–1987`). -/
def settleActive (call : Call) : Eng Call :=
  match call.lastResumedAt with
  | some resumedAt => do
    let now ← nowSecs
    return { call with
      lastResumedAt := none
      accumulatedActiveSecs := call.accumulatedActiveSecs + (now - resumedAt) }
  | none => return call

/-- The record after a call-state callback (`lib.rs:574–588`). `OnHold` is no state that
`pjsip_inv_state` maps to. -/
def applyState (newState : CallState) (old : Call) : Eng Call :=
  if newState = .inCall ∧ old.state ≠ .inCall then do
    let now ← nowSecs
    return { old with state := newState, lastResumedAt := some now }
  else if newState = .ended ∧ old.state = .inCall then
    settleActive { old with state := newState }
  else return { old with state := newState }

/-- The critical section of `pjsip_on_call_state` (`lib.rs:571–595`). -/
def stateSection (newState : CallState) (callId : UInt32) : Eng Unit :=
  withLock .calls do
    match (← Traced.get).calls.lookup callId with
    | none => pure ()
    | some old =>
      let call ← applyState newState old
      insertCall callId call
      pushCallState call
      if newState = .ended then
        withLock .mediaStats <|
          Traced.modify fun s ↦ { s with mediaStats := s.mediaStats.erase callId }

/-- The call a state callback is about; `DISCONNECTED` removes the PJSIP id
(`lib.rs:550–557`). -/
def routeState (newState : CallState) (pjCallId : Int) : Eng (Option UInt32) :=
  withLock .pjsipCallMap do
    let callId := (← Traced.get).pjsipCallMap.lookup pjCallId
    if newState = .ended then
      Traced.modify fun s ↦ { s with pjsipCallMap := s.pjsipCallMap.erase pjCallId }
    return callId

/-- The recording of a call that ended is stopped (`lib.rs:597–607`). -/
def stopAfterEnd (callId : UInt32) : Eng Unit := do
  let call ← snapshotCall callId
  if (call.map (·.recordingPath.isSome)).getD false then
    discard <| stopRecordingForCall callId

/-- `pjsip_on_call_state` (`lib.rs:541–608`). -/
def pjsipOnCallState (pjCallId invState : Int) : Eng Unit := do
  match invCallState invState with
  | none => pure ()
  | some newState =>
    match ← routeState newState pjCallId with
    | none => logEngine .debug s!"pjsip_on_call_state: unknown pj_call_id={pjCallId}"
    | some callId =>
      stateSection newState callId
      if newState = .ended then
        stopAfterEnd callId

/-- `pjsip_poll_media_stats` (`lib.rs:808–852`). -/
def pjsipPollMediaStats (pjCallId : Int) : Eng Unit := do
  let found ← withLock .pjsipCallMap do
    return (← Traced.get).pjsipCallMap.lookup pjCallId
  match found with
  | none => pure ()
  | some ourCallId =>
    let rc ← shim (.pdCallGetStreamStat pjCallId)
    if rc = 0 then
      let env ← Traced.ask
      let out := env.outStream (.pdCallGetStreamStat pjCallId)
      let stats : MediaStats :=
        { callId := ourCallId
          jitterMs := out.jitterMs
          packetLossPct := out.lossPct
          codec := out.codec.toStr.getD "unknown"
          bitrateKbps := i32AsU32 out.bitrateKbps }
      pushMediaStats stats
      withLock .mediaStats (insertMediaStats ourCallId stats)

/-- The hold part of an active media callback: an `on_hold` call is held again
(`lib.rs:630–640`). -/
def holdAgain (pjCallId : Int) (call : Call) : Eng Call := do
  if call.onHold then
    discard <| shim (.pdCallHold pjCallId true)
    return { call with state := .onHold }
  else
    -- The source resets `last_resumed_at` here only if the call was on hold, which it is not.
    return { call with state := .inCall }

/-- The record after media became active; mute is applied again (`lib.rs:623–641`). -/
def mediaActive (pjCallId : Int) (call : Call) : Eng Call := do
  if call.muted then
    discard <| shim (.pdCallSetMute pjCallId true)
  holdAgain pjCallId call

/-- The record after media became inactive (`lib.rs:642–650`). -/
def mediaInactive (call : Call) : Eng Call :=
  settleActive { call with onHold := true, state := .onHold }

/-- The record after a media callback. -/
def applyMedia (pjCallId active : Int) (old : Call) : Eng Call :=
  if active ≠ 0 then mediaActive pjCallId old else mediaInactive old

/-- The critical section of `pjsip_on_call_media` (`lib.rs:619–652`): the shim is called under
the `CALLS` lock. -/
def mediaSection (pjCallId active : Int) (callId : UInt32) : Eng Unit :=
  withLock .calls do
    match (← Traced.get).calls.lookup callId with
    | none => pure ()
    | some old =>
      let call ← applyMedia pjCallId active old
      insertCall callId call
      pushCallState call

/-- The call a media callback is about. -/
def routeMedia (pjCallId : Int) : Eng (Option UInt32) :=
  withLock .pjsipCallMap do
    return (← Traced.get).pjsipCallMap.lookup pjCallId

/-- `pjsip_on_call_media` (`lib.rs:613–657`). -/
def pjsipOnCallMedia (pjCallId active : Int) : Eng Unit := do
  match ← routeMedia pjCallId with
  | none => pure ()
  | some callId => mediaSection pjCallId active callId
  if active ≠ 0 then
    pjsipPollMediaStats pjCallId

/-- `pjsip_on_sip_msg` (`lib.rs:660–687`). A panic of the masking unwinds out of an
`extern "C"` function, which aborts the process. -/
def pjsipOnSipMsg (pjCallId isTx : Int) (msg : CPtr) : Eng Unit :=
  match msg.toStr with
  | none => pure ()
  | some raw => match maskSipLog raw.toList with
    | .error _ => Traced.emit .abort
    | .ok masked =>
      pushEvent "SipMessageCaptured" (.obj
        [("call_id", .ofI32 pjCallId), ("direction", .str (if isTx ≠ 0 then "send" else "recv")),
          ("raw", .str (String.ofList masked))])

/-- `pjsip_on_transfer_status` (`lib.rs:691–747`). -/
def pjsipOnTransferStatus (pjCallId statusCode : Int) (reasonPtr : CPtr) (isFinal : Int) :
    Eng Unit := do
  let reason ← reasonText "pjsip_on_transfer_status" reasonPtr
  let found ← withLock .pjsipCallMap do
    return (← Traced.get).pjsipCallMap.lookup pjCallId
  let callId := found.getD (i32AsU32 pjCallId)
  let final := decide (isFinal ≠ 0)
  pushEvent "CallTransferStatus" (.obj
    [("call_id", .ofU32 callId), ("status_code", .ofI32 statusCode),
      ("status_text", .str reason), ("final", .bool final)])
  logEngine .info s!"Call {callId} transfer status: {statusCode} {reason} (final={final})"

/-- The text of a BLF state (`lib.rs:782–790`). -/
def blfState (state : Int) : String :=
  if state = 1 then "Available"
  else if state = 2 then "Busy"
  else if state = 3 then "Ringing"
  else if state = 4 then "Away"
  else if state = 5 then "Offline"
  else if state = 6 then "Error"
  else "Unknown"

/-- `pjsip_on_blf_status` (`lib.rs:751–805`). -/
def pjsipOnBlfStatus (uriPtr : CPtr) (state : Int) (activityPtr : CPtr) : Eng Unit :=
  match uriPtr with
  | .invalidUtf8 => logEngine .warn "pjsip_on_blf_status: URI contains invalid UTF-8"
  | uriPtr =>
    let uri := uriPtr.toStr.getD ""
    let activity := activityPtr.toStr.getD "Unknown"
    pushEvent "BlfStatusChanged" (.obj
      [("uri", .str uri), ("state", .str (blfState state)), ("state_code", .ofI32 state),
        ("activity", .str activity)])

end PacketDial.Core
