import PacketDial.System.CallbackSpec
import PacketDial.System.TameOps

/-!
# Mild programs

The commands and callbacks on calls leave the accounts alone: each is admitted by every family of
relations that is blind to what the accounts hide. Two of them call the shim under `CALLS`, the
media callback and `CallSendDtmf`; these need a family that allows it.
-/

namespace PacketDial.System

open PacketDial.Core PacketDial.Lib

section Primitives

variable {R : Family} {held : List Mutex} [∀ held, Traced.Composable (R held)]

/-- An update that leaves the accounts and the media statistics alone is mild. -/
theorem mild_modify [Sparing accountView R] {f : Engine → Engine}
    (h : ∀ s, accountView.state (f s) = accountView.state s)
    (hm : ∀ s, (f s).mediaStats = s.mediaStats) :
    Traced.Admits (R held) (Traced.modify f : Eng Unit) := sparing_modify h hm

/-- A shim call that neither adds nor removes an account is mild. -/
theorem mild_shim [Sparing accountView R] {call : ShimCall}
    (h : accountView.act (.shim call) = none) : Traced.Admits (R []) (shim call) := blind_shim h

/-- Under locks it is mild where the family allows it. -/
theorem mild_shim_locked [Lenient accountView R] {call : ShimCall}
    (h : accountView.act (.shim call) = none) : Traced.Admits (R held) (shim call) :=
  lenient_shim h

/-- So is holding a call again. -/
theorem mild_holdAgain [Lenient accountView R] (pjCallId : Int) (call : Call) :
    Traced.Admits (R held) (holdAgain pjCallId call) := by
  unfold holdAgain
  split
  · exact ((mild_shim_locked rfl).map _).bind fun _ ↦ tame_pure _
  · exact tame_pure _

variable [Sparing accountView R]

/-- Pushing an event that does not report a merge is mild where the family allows it. -/
theorem mild_pushEvent (h : CanPush held) {type : String} (ht : type ≠ "ConferenceMerged")
    (payload : Json) (hr : type ∈ recordingTypes → Vocal R) :
    Traced.Admits (R held) (pushEvent type payload) := by
  have hmerged : isMerged (.event type payload) = false := by simp [isMerged, ht]
  refine Traced.Admits.bind ?_ fun _ ↦ tame_deliverEvent h type payload
  by_cases hnews : type ∈ recordingTypes
  · have := hr hnews
    exact Traced.admits_emit fun s ↦ Vocal.emit s payload hnews
  · exact discreet_emit (v := accountView) rfl rfl rfl hmerged (decide_eq_false hnews)

/-- Reporting a call is mild where `ACCOUNTS` may be locked. -/
theorem mild_pushCallState (h : CanPush held) (hm : Above held .accounts) (call : Call) :
    Traced.Admits (R held) (pushCallState call) := by
  unfold pushCallState
  refine Traced.Admits.bind ?_ fun account ↦
    mild_pushEvent h (by decide) _ fun h ↦ absurd h (by decide)
  exact tame_withLock hm (tame_get.bind fun _ ↦ tame_pure _)

end Primitives

section Recording

variable {R : Family} [∀ held, Traced.Composable (R held)] [Sparing accountView R]

/-- A snapshot of a record is mild. -/
theorem mild_snapshotCall (id : UInt32) :
    Traced.Admits (R []) (snapshotCall id) :=
  tame_withLock (by decide) (tame_get.bind fun _ ↦ tame_pure _)

/-- An amendment of a record is mild. -/
theorem mild_amendCall (id : UInt32) (f : Call → Call) :
    Traced.Admits (R []) (amendCall id f) := by
  unfold amendCall
  refine tame_withLock (by decide) (tame_get.bind fun _ ↦ ?_)
  split
  · exact mild_modify (by intro; rfl) (by intro; rfl)
  · exact tame_pure _

/-- Starting a recording is mild where the family allows the events about it. -/
theorem mild_startRecordingForCall [Vocal R] (id : UInt32) (path : String) :
    Traced.Admits (R []) (startRecordingForCall id path) := by
  unfold startRecordingForCall
  refine (mild_snapshotCall id).bind fun found ↦ ?_
  split
  · exact tame_pure _
  · refine Traced.admits_ite (tame_pure _) ?_
    refine Traced.admits_ite (tame_pure _) ?_
    split
    · exact tame_pure _
    · split
      · exact tame_pure _
      · refine (mild_shim rfl).bind fun _ ↦ Traced.admits_ite (tame_pure _) ?_
        unfold beginRecording
        refine (mild_shim rfl).bind fun _ ↦ Traced.admits_ite ?_ ?_
        · refine (tame_logEngine canLog_nil _ _).bind fun _ ↦ ?_
          exact (mild_pushEvent canLog_nil.2 (by decide) _ fun _ ↦ inferInstance).bind fun _ ↦ tame_pure _
        · refine Traced.Admits.bind tame_nowMillis fun _ ↦ ?_
          refine (mild_amendCall _ _).bind fun _ ↦ ?_
          exact (mild_pushEvent canLog_nil.2 (by decide) _ fun _ ↦ inferInstance).bind fun _ ↦ tame_pure _

/-- So is stopping one. -/
theorem mild_stopRecordingForCall [Vocal R] (id : UInt32) :
    Traced.Admits (R []) (stopRecordingForCall id) := by
  unfold stopRecordingForCall
  refine (mild_snapshotCall id).bind fun found ↦ ?_
  split
  · exact tame_pure _
  · split
    · refine (mild_shim rfl).bind fun _ ↦ Traced.admits_ite (tame_pure _) ?_
      unfold finishRecording
      refine (mild_shim rfl).bind fun _ ↦ Traced.admits_ite ?_ ?_
      · refine (tame_logEngine canLog_nil _ _).bind fun _ ↦ ?_
        exact (mild_pushEvent canLog_nil.2 (by decide) _ fun _ ↦ inferInstance).bind fun _ ↦ tame_pure _
      · refine Traced.Admits.bind tame_nowMillis fun _ ↦ ?_
        refine tame_ask.bind fun _ ↦ (mild_amendCall _ _).bind fun _ ↦ ?_
        refine (mild_pushEvent canLog_nil.2 (by decide) _ fun _ ↦ inferInstance).bind fun _ ↦ ?_
        refine Traced.Admits.bind ?_ fun _ ↦ tame_pure _
        exact tame_ask.bind fun _ ↦ mild_pushEvent canLog_nil.2 (by decide) _ fun _ ↦ inferInstance
    · exact tame_pure _

end Recording

section Commands

variable {R : Family} [∀ held, Traced.Composable (R held)] [Sparing accountView R]

/-- Entering a new call is mild. -/
theorem mild_trackCall (call : Call) (pjCallId : Int) :
    Traced.Admits (R []) (trackCall call pjCallId) := by
  unfold trackCall
  refine (mild_pushCallState canLog_nil.2 (by decide) call).bind fun _ ↦ ?_
  refine (tame_withLock (by decide) (mild_modify (by intro; rfl) (by intro; rfl))).bind fun _ ↦ ?_
  exact tame_withLock (by decide) (mild_modify (by intro; rfl) (by intro; rfl))

/-- Taking the next call id is mild. -/
theorem mild_fetchNextCallId {held : List Mutex} : Traced.Admits (R held) fetchNextCallId :=
  tame_get.bind fun _ ↦ (mild_modify (by intro; rfl) (by intro; rfl)).bind fun _ ↦ tame_pure _

/-- Placing a call is mild. -/
theorem mild_placeCall (callId : UInt32) (accountId uri : String) (pjAccId : Int) :
    Traced.Admits (R []) (placeCall callId accountId uri pjAccId) := by
  unfold placeCall
  refine (tame_logEngine canLog_nil _ _).bind fun _ ↦ ?_
  refine (tame_audioPreflight).bind fun _ ↦ ?_
  split
  · exact (tame_logEngine canLog_nil _ _).bind fun _ ↦ tame_pure _
  · refine (mild_shim rfl).bind fun _ ↦ Traced.admits_ite ?_ ?_
    · refine (tame_logEngine canLog_nil _ _).bind fun _ ↦ ?_
      exact (tame_logEngine canLog_nil _ _).bind fun _ ↦ tame_pure _
    · refine (mild_trackCall _ _).bind fun _ ↦ ?_
      exact (tame_logEngine canLog_nil _ _).bind fun _ ↦ tame_pure _

/-- `cmd_call_start` is mild. -/
theorem mild_cmdCallStart (p : Json) : Traced.Admits (R []) (cmdCallStart p) := by
  have place (accountId uri : String) (pjAccId : Int) :
      Traced.Admits (R []) (do placeCall (← fetchNextCallId) accountId uri pjAccId) :=
    mild_fetchNextCallId.bind fun _ ↦ mild_placeCall _ _ _ _
  unfold cmdCallStart
  refine ((tame_callAccount p)).bind fun account ↦ ?_
  split
  · exact tame_pure _
  · split
    · exact tame_pure _
    · dsimp only
      refine Traced.admits_ite ?_ ?_
      · exact (tame_logEngine canLog_nil _ _).bind fun _ ↦ tame_pure _
      · refine ((tame_callStartAccount _)).bind fun found ↦ ?_
        split
        · exact (tame_logEngine canLog_nil _ _).bind fun _ ↦ tame_pure _
        · unfold startCall
          dsimp only
          split
          · exact (tame_logEngine canLog_nil _ _).bind fun _ ↦ place _ _ _
          · exact place _ _ _

/-- `cmd_call_answer` is mild: the shim is called after the lock is given back. -/
theorem mild_cmdCallAnswer (p : Json) : Traced.Admits (R []) (cmdCallAnswer p) := by
  have canLog : CanLog [.calls] := by decide
  have target : Traced.Admits (R []) (answerTarget p) := by
    unfold answerTarget
    refine tame_withLock (by decide) ?_
    refine (tame_logEngine canLog _ _).bind fun _ ↦ tame_callValues.bind fun values ↦ ?_
    dsimp only
    split
    · exact (tame_logEngine canLog _ _).bind fun _ ↦ tame_pure _
    · refine (tame_logEngine canLog _ _).bind fun _ ↦ ?_
      split
      · exact (tame_logEngine canLog _ _).bind fun _ ↦ tame_pure _
      · exact (tame_logEngine canLog _ _).bind fun _ ↦ tame_pure _
  unfold cmdCallAnswer
  refine (tame_logEngine canLog_nil _ _).bind fun _ ↦ target.bind fun found ↦ ?_
  split
  · exact tame_pure _
  · exact (tame_logEngine canLog_nil _ _).bind fun _ ↦ tame_pure _
  · refine (tame_logEngine canLog_nil _ _).bind fun _ ↦ (mild_shim rfl).bind fun _ ↦ ?_
    exact ((tame_logAnswered _ _)).bind fun _ ↦ tame_pure _

/-- `cmd_call_hangup` is mild. -/
theorem mild_cmdCallHangup (p : Json) : Traced.Admits (R []) (cmdCallHangup p) := by
  have target : Traced.Admits (R []) (hangupTarget p) := by
    unfold hangupTarget
    refine tame_withLock (by decide) (tame_callValues.bind fun values ↦ ?_)
    split <;> exact tame_pure _
  unfold cmdCallHangup
  refine target.bind fun found ↦ ?_
  split
  · refine (mild_shim rfl).bind fun _ ↦ ?_
    split
    · exact (tame_logEngine canLog_nil _ _).bind fun _ ↦ tame_pure _
    · exact tame_pure _
  · exact tame_pure _

/-- The shape of the mute and hold commands is mild. -/
theorem mild_updateTarget (p : Json) {update : Call → Eng Call} {op : Int → ShimCall}
    (hupdate : ∀ call, Traced.Admits (R [.calls]) (update call))
    (hop : ∀ pjId, accountView.act (.shim (op pjId)) = none) :
    Traced.Admits (R []) (updateTarget p update op) := by
  unfold updateTarget
  refine Traced.Admits.bind (tame_withLock (by decide) ?_) fun found ↦ ?_
  · refine Traced.Admits.bind ?_ fun callId ↦ tame_get.bind fun s ↦ ?_
    · exact tame_callValues.bind fun _ ↦ tame_pure _
    · split
      · exact tame_pure _
      · refine (hupdate _).bind fun call ↦ (mild_modify (by intro; rfl) (by intro; rfl)).bind fun _ ↦ ?_
        refine (mild_pushCallState (by decide) (by decide) call).bind fun _ ↦ ?_
        exact tame_pure _
  · split
    · exact tame_pure _
    · exact tame_pure _
    · exact ((mild_shim (hop _)).map _).bind fun _ ↦ tame_pure _

/-- `cmd_call_hold` is mild. -/
theorem mild_cmdCallHold (p : Json) : Traced.Admits (R []) (cmdCallHold p) :=
  mild_updateTarget p (fun call ↦ tame_holdRecord _ call) fun _ ↦ rfl

/-- `cmd_call_mute` is mild. -/
theorem mild_cmdCallMute (p : Json) : Traced.Admits (R []) (cmdCallMute p) :=
  mild_updateTarget p (fun _ ↦ tame_pure _) fun _ ↦ rfl

/-- `cmd_call_send_dtmf` is mild: it calls the shim under `CALLS`. -/
theorem mild_cmdCallSendDtmf [Lenient accountView R] (p : Json) :
    Traced.Admits (R []) (cmdCallSendDtmf p) := by
  unfold cmdCallSendDtmf
  split
  · refine (tame_logEngine canLog_nil _ _).bind fun _ ↦ ?_
    refine Traced.Admits.bind (tame_withLock (by decide) ?_) fun _ ↦ tame_pure _
    refine tame_get.bind fun s ↦ ?_
    split
    · exact (mild_shim_locked rfl).map _
    · exact tame_pure _
  · exact tame_pure _

/-- The recording commands are mild. -/
theorem mild_cmdCallStartRecording [Vocal R] (p : Json) :
    Traced.Admits (R []) (cmdCallStartRecording p) := by
  unfold cmdCallStartRecording
  split
  · exact Traced.admits_ite (tame_pure _) (mild_startRecordingForCall _ _)
  · exact tame_pure _

/-- `cmd_call_stop_recording` is mild. -/
theorem mild_cmdCallStopRecording [Vocal R] (p : Json) :
    Traced.Admits (R []) (cmdCallStopRecording p) := by
  unfold cmdCallStopRecording
  split
  · exact mild_stopRecordingForCall _
  · exact tame_pure _

end Commands

section Callbacks

variable {R : Family} [∀ held, Traced.Composable (R held)] [Sparing accountView R]

/-- `pjsip_on_incoming_call` is mild. -/
theorem mild_pjsipOnIncomingCall (pjAccId pjCallId : Int) (fromUri : CPtr) :
    Traced.Admits (R []) (pjsipOnIncomingCall pjAccId pjCallId fromUri) := by
  unfold pjsipOnIncomingCall
  dsimp only
  refine Traced.Admits.bind (tame_withLock (by decide) ?_) fun found ↦ ?_
  · exact tame_get.bind fun _ ↦ tame_pure _
  · split
    · exact tame_logEngine canLog_nil _ _
    · refine mild_fetchNextCallId.bind fun _ ↦ (mild_trackCall _ _).bind fun _ ↦ ?_
      exact tame_logEngine canLog_nil _ _

/-- Routing a state callback is mild. -/
theorem mild_routeState {held : List Mutex} (h : Above held .pjsipCallMap) (newState : CallState)
    (pjCallId : Int) : Traced.Admits (R held) (routeState newState pjCallId) := by
  unfold routeState
  refine tame_withLock h (tame_get.bind fun s ↦ ?_)
  dsimp only
  split
  · exact (mild_modify (by intro; rfl) (by intro; rfl)).bind fun _ ↦ tame_pure _
  · exact tame_pure _

/-- Computing the record of a media callback is mild. -/
theorem mild_applyMedia [Lenient accountView R] (pjCallId active : Int) (old : Call) :
    Traced.Admits (R [.calls]) (applyMedia pjCallId active old) := by
  unfold applyMedia mediaActive mediaInactive
  split
  · split
    · exact ((mild_shim_locked rfl).map _).bind fun _ ↦ mild_holdAgain pjCallId old
    · exact mild_holdAgain pjCallId old
  · exact tame_settleActive _

/-- The critical section of a media callback is mild. -/
theorem mild_mediaSection [Lenient accountView R] (pjCallId active : Int) (id : UInt32) :
    Traced.Admits (R []) (mediaSection pjCallId active id) := by
  unfold mediaSection
  refine tame_withLock (by decide) (tame_get.bind fun s ↦ ?_)
  split
  · exact tame_pure _
  · refine (mild_applyMedia pjCallId active _).bind fun call ↦ ?_
    refine (mild_modify (by intro; rfl) (by intro; rfl)).bind fun _ ↦ ?_
    exact mild_pushCallState (by decide) (by decide) call

end Callbacks

section StatisticsCallbacks

variable {R : Family} [∀ held, Traced.Composable (R held)] [Sparing accountView R] [Lossy R]

/-- The critical section of a state callback is mild: `MEDIA_STATS` is locked under `CALLS`, never
the other way round. -/
theorem mild_stateSection (newState : CallState) (id : UInt32) :
    Traced.Admits (R []) (stateSection newState id) := by
  unfold stateSection
  refine tame_withLock (by decide) (tame_get.bind fun s ↦ ?_)
  split
  · exact tame_pure _
  · refine ((tame_applyState _ _)).bind fun call ↦ ?_
    refine (mild_modify (by intro; rfl) (by intro; rfl)).bind fun _ ↦ ?_
    refine (mild_pushCallState (by decide) (by decide) call).bind fun _ ↦ ?_
    exact Traced.admits_ite (tame_withLock (by decide) (tame_eraseMediaStats id)) (tame_pure _)

/-- `pjsip_on_call_state` is mild: the recording is stopped after `CALLS` is given back. -/
theorem mild_pjsipOnCallState [Vocal R] (pjCallId invState : Int) :
    Traced.Admits (R []) (pjsipOnCallState pjCallId invState) := by
  unfold pjsipOnCallState
  split
  · exact tame_pure _
  · next newState _ =>
    refine (mild_routeState (by decide) newState pjCallId).bind fun id ↦ ?_
    split
    · exact tame_logEngine canLog_nil _ _
    · next id =>
      refine (mild_stateSection newState id).bind fun _ ↦ Traced.admits_ite ?_ (tame_pure _)
      unfold stopAfterEnd
      refine (mild_snapshotCall id).bind fun call ↦ Traced.admits_ite ?_ (tame_pure _)
      exact (mild_stopRecordingForCall id).map _

/-- `pjsip_on_call_media` is mild: it calls the shim under `CALLS`. -/
theorem mild_pjsipOnCallMedia [Lenient accountView R] (pjCallId active : Int) :
    Traced.Admits (R []) (pjsipOnCallMedia pjCallId active) := by
  have poll : Traced.Admits (R [])
      (if active ≠ 0 then pjsipPollMediaStats pjCallId else pure ()) :=
    Traced.admits_ite (tame_pjsipPollMediaStats pjCallId) (tame_pure _)
  unfold pjsipOnCallMedia routeMedia
  refine Traced.Admits.bind (tame_withLock (by decide) ?_) fun id ↦ ?_
  · exact tame_get.bind fun _ ↦ tame_pure _
  · dsimp only
    split
    · exact poll
    · exact (mild_mediaSection _ _ _).bind fun _ ↦ poll

end StatisticsCallbacks

section Dispatch

variable {R : Family} [∀ held, Traced.Composable (R held)] [Sparing accountView R]

/-- The commands that operate on calls are mild: all but `CallSendDtmf`, which calls the shim under
`CALLS`, without further ado. -/
theorem mild_callCommand {cmd : String} (p : Json) (hcmd : cmd ∈ callCommands)
    (hdtmf : cmd = "CallSendDtmf" → Lenient accountView R)
    (hnews : cmd ∈ recordingCommands → Vocal R) :
    Traced.Admits (R []) (dispatchCommand cmd p) := by
  simp only [callCommands, List.mem_cons, List.not_mem_nil, or_false] at hcmd
  rcases hcmd with rfl | rfl | rfl | rfl | rfl | rfl | rfl | rfl
  · exact (mild_cmdCallStart p).map _
  · exact (mild_cmdCallAnswer p).map _
  · exact (mild_cmdCallHangup p).map _
  · exact (mild_cmdCallMute p).map _
  · exact (mild_cmdCallHold p).map _
  · have := hdtmf rfl
    exact (mild_cmdCallSendDtmf p).map _
  · have := hnews (by decide)
    exact (mild_cmdCallStartRecording p).map _
  · have := hnews (by decide)
    exact (mild_cmdCallStopRecording p).map _

/-- Every command that is not on accounts is mild. -/
theorem mild_dispatchCommand [Lenient accountView R] {cmd : String} (p : Json)
    (hcmd : cmd ∉ accountCommands)
    (hstats : cmd = "MediaStatsUpdate" → Lossy R)
    (hnews : cmd ∈ recordingCommands → Vocal R) :
    Traced.Admits (R []) (dispatchCommand cmd p) := by
  by_cases hcall : cmd ∈ callCommands
  · exact mild_callCommand p hcall (fun _ ↦ inferInstance) hnews
  · exact quiet_dispatchCommand p hcall hcmd hstats

end Dispatch

section Operations

variable {R : Family} [∀ held, Traced.Composable (R held)] [Sparing accountView R]

/-- An entry point on the first live call is mild when its body is. -/
theorem mild_onLiveCall {body : Call → Eng Int}
    (h : ∀ call, Traced.Admits (R []) (body call)) :
    Traced.Admits (R []) (onLiveCall body) := by
  unfold onLiveCall
  refine (tame_firstCall _).bind fun found ↦ ?_
  split
  · exact h _
  · exact tame_pure _

/-- Reading two calls is mild. -/
theorem mild_callPair (callA callB : Int) : Traced.Admits (R []) (callPair callA callB) := by
  unfold callPair
  refine tame_withLock (by decide) (tame_callValues.bind fun values ↦ ?_)
  dsimp only
  split <;> exact tame_pure _

/-- Transferring a call is mild. -/
theorem mild_engineTransferCall (callId : Int) (destUri : CPtr) :
    Traced.Admits (R []) (engineTransferCall callId destUri) := by
  unfold engineTransferCall
  refine admits_withText _ fun destUri ↦ admits_whenInitialized ?_
  refine Traced.Admits.bind (tame_firstCall _) fun found ↦ ?_
  split
  · exact mild_shim rfl
  · exact tame_pure _

/-- Starting a consultation is mild. -/
theorem mild_engineStartAttendedXfer (callId : Int) (destUri : CPtr) :
    Traced.Admits (R []) (engineStartAttendedXfer callId destUri) := by
  unfold engineStartAttendedXfer
  refine admits_withText _ fun destUri ↦ admits_whenInitialized ?_
  refine Traced.Admits.bind (tame_firstCall _) fun found ↦ ?_
  dsimp only
  split
  · exact tame_pure _
  · split
    · exact tame_pure _
    · refine (mild_shim rfl).bind fun newPjId ↦ Traced.admits_ite (tame_pure _) ?_
      refine mild_fetchNextCallId.bind fun _ ↦ (mild_trackCall _ _).bind fun _ ↦ ?_
      exact (tame_logEngine canLog_nil _ _).bind fun _ ↦ tame_pure _

variable [Lenient accountView R]

/-- Dispatching a command that is none on accounts, statistics or recordings is mild. -/
theorem mild_dispatchCode {cmd : String} (p : Json) (hcmd : cmd ∉ accountCommands)
    (hstats : cmd ≠ "MediaStatsUpdate") (hnews : cmd ∉ recordingCommands) :
    Traced.Admits (R []) (dispatchCode cmd p) :=
  (mild_dispatchCommand p hcmd (fun h ↦ absurd h hstats) fun h ↦ absurd h hnews).map _

/-- Answering through the direct entry point is mild. -/
theorem mild_engineAnswerCall : Traced.Admits (R []) engineAnswerCall := by
  unfold engineAnswerCall
  refine admits_whenInitialized ((tame_firstCall _).bind fun found ↦ ?_)
  split
  · exact (tame_logEngine canLog_nil _ _).bind fun _ ↦ tame_pure _
  · dsimp only
    refine (tame_logEngine canLog_nil _ _).bind fun _ ↦ ?_
    refine (tame_logEngine canLog_nil _ _).bind fun _ ↦ ?_
    refine Traced.Admits.bind ?_ fun result ↦ ?_
    · exact mild_dispatchCommand _ (by decide) (fun h ↦ absurd h (by decide))
        fun h ↦ absurd h (by decide)
    split
    · exact tame_pure _
    · exact (tame_logEngine canLog_nil _ _).bind fun _ ↦ tame_pure _

/-- The operations that leave the accounts alone: all but those that dispatch a command on accounts
or any command, the shutdown and the registration callback. -/
def mildOp : Op → Bool
  | .shutdown | .sendCommand .. | .ipcLine .. | .register .. | .unregister _
  | .onRegState .. => false
  | _ => true

/-- The operations that can change the media statistics: a state callback that ends a call, a media
callback, and those that dispatch any command. -/
def statsOp : Op → Bool
  | .sendCommand .. | .ipcLine .. | .onCallState .. | .onCallMedia .. => true
  | _ => false

/-- The operations that can push an event about a recording. -/
def recordingOp : Op → Bool
  | .sendCommand .. | .ipcLine .. | .onCallState .. | .startRecording _ | .stopRecording => true
  | _ => false

/-- The former are mild, those on statistics and recordings where the family allows it. -/
theorem mild_op {op : Op} (h : mildOp op = true)
    (hstats : statsOp op = true → Lossy R)
    (hnews : recordingOp op = true → Vocal R) :
    Traced.Admits (R []) op.run := by
  cases op with
  | makeCall accountId number =>
    refine Traced.Admits.map (admits_withText _ fun accountId ↦ ?_) _
    refine admits_withText _ fun number ↦ admits_whenInitialized ?_
    exact mild_dispatchCode _ (by decide) (by decide) (by decide)
  | hangup =>
    refine Traced.Admits.map (admits_whenInitialized (mild_onLiveCall fun call ↦ ?_)) _
    exact mild_dispatchCode _ (by decide) (by decide) (by decide)
  | answerCall => exact mild_engineAnswerCall.map _
  | setMute muted =>
    refine Traced.Admits.map (admits_whenInitialized (mild_onLiveCall fun call ↦ ?_)) _
    exact mild_dispatchCode _ (by decide) (by decide) (by decide)
  | setHold onHold =>
    refine Traced.Admits.map (admits_whenInitialized (mild_onLiveCall fun call ↦ ?_)) _
    exact mild_dispatchCode _ (by decide) (by decide) (by decide)
  | sendDtmf digits =>
    refine Traced.Admits.map (admits_withText _ fun digits ↦ admits_whenInitialized ?_) _
    exact mild_onLiveCall fun call ↦ mild_dispatchCode _ (by decide) (by decide) (by decide)
  | startRecording filePath =>
    refine Traced.Admits.map (Traced.admits_ite (tame_pure _) ?_) _
    have := hnews rfl
    refine admits_whenInitialized (admits_withText _ fun path ↦ mild_onLiveCall fun call ↦ ?_)
    exact (mild_startRecordingForCall _ _).map _
  | stopRecording =>
    have := hnews rfl
    refine Traced.Admits.map (admits_whenInitialized (mild_onLiveCall fun call ↦ ?_)) _
    exact (mild_stopRecordingForCall _).map _
  | transferCall callId destUri => exact (mild_engineTransferCall _ _).map _
  | startAttendedXfer callId destUri => exact (mild_engineStartAttendedXfer _ _).map _
  | completeXfer callA callB =>
    refine Traced.Admits.map (admits_whenInitialized ((mild_callPair _ _).bind fun found ↦ ?_)) _
    split
    · exact mild_shim rfl
    · exact tame_pure _
  | mergeConference callA callB =>
    refine Traced.Admits.map (admits_whenInitialized ((mild_callPair _ _).bind fun found ↦ ?_)) _
    split
    · exact mild_shim rfl
    · exact tame_pure _
  | onIncomingCall pjAccId pjCallId fromUri => exact mild_pjsipOnIncomingCall _ _ _
  | onCallState pjCallId invState =>
    have := hstats rfl
    have := hnews rfl
    exact mild_pjsipOnCallState _ _
  | onCallMedia pjCallId active =>
    have := hstats rfl
    exact mild_pjsipOnCallMedia _ _
  | _ => first | exact quiet_op rfl | cases h

end Operations

section Programs

variable {R : Family} [∀ held, Traced.Composable (R held)] [Sparing callView R]
  [Sparing accountView R]

/-- `cmd_account_register` is admitted when its failure path is. -/
theorem admits_cmdAccountRegister (hfailed : ∀ id, Traced.Admits (R []) (registerFailed id))
    (p : Json) : Traced.Admits (R []) (cmdAccountRegister p) := by
  unfold cmdAccountRegister
  split
  · exact tame_pure _
  · next id _ =>
    refine (tame_lookupForRegister id).bind fun found ↦ ?_
    split
    · exact tame_pure _
    · refine (tame_beginRegistration id _).bind fun _ ↦ ?_
      split
      · exact (tame_logEngine canLog_nil _ _).bind fun _ ↦ tame_pure _
      · refine Traced.Admits.bind (blind_shim (v := callView) rfl) fun pjAccId ↦ ?_
        exact Traced.admits_ite (hfailed id) (tame_registerStarted id _)

/-- The failure path of a registration, which breaks the order of the locks, is admitted where the
actions on locks are. -/
theorem admits_registerFailed (hlock : ∀ act : LockAct Mutex,
    Traced.Admits (R []) (Traced.emit (.lock act) : Eng Unit)) (id : String) :
    Traced.Admits (R []) (registerFailed id) := by
  have state : Traced.Admits (R []) (setRegState id (.failed "pd_acc_add failed")) :=
    tame_setRegState id _
  have push : Traced.Admits (R []) (pushRegState id (.failed "pd_acc_add failed")) :=
    tame_pushRegState (by decide) (by decide) id _
  have log : Traced.Admits (R [])
      (logEngine .error s!"Account '{id}': pd_acc_add returned error") :=
    tame_logEngine canLog_nil _ _
  unfold registerFailed withLock
  refine Traced.Admits.bind ((hlock _).bind fun _ ↦ ?_) fun _ ↦ tame_pure _
  refine Traced.Admits.bind ?_ fun _ ↦ (hlock _).bind fun _ ↦ tame_pure _
  exact state.bind fun _ ↦ push.bind fun _ ↦ log

/-- The shutdown changes the tables of both views, each under its own lock. -/
theorem admits_engineShutdown [Lenient newsView R] : Traced.Admits (R []) engineShutdown := by
  have log (level : LogLevel) (message : String) :
      Traced.Admits (R []) (logEngine level message) := tame_logEngine canLog_nil _ _
  have off : Traced.Admits (R [])
      (Traced.modify fun s ↦ { s with initialized := false } : Eng Unit) :=
    tame_modify (by intro; rfl) (by intro; rfl)
  have accounts : Traced.Admits (R [])
      (withLock .pjsipAccMap <| Traced.modify fun s ↦ { s with pjsipAccMap := ∅ }) :=
    tame_withLock (by decide) (sparing_modify (v := callView) (by intro; rfl) (by intro; rfl))
  have calls : Traced.Admits (R [])
      (withLock .pjsipCallMap <| Traced.modify fun s ↦ { s with pjsipCallMap := ∅ }) :=
    tame_withLock (by decide) (mild_modify (by intro; rfl) (by intro; rfl))
  have stop : Traced.Admits (R []) (shim .pdShutdown) := lenient_shim (v := newsView) rfl
  unfold engineShutdown
  refine tame_get.bind fun s ↦ off.bind fun _ ↦ Traced.admits_ite ?_ ?_
  · exact (log _ _).bind fun _ ↦ tame_pure _
  · refine (log _ _).bind fun _ ↦ accounts.bind fun _ ↦ calls.bind fun _ ↦ ?_
    exact (stop.map _).bind fun _ ↦ tame_pure _

variable [Lenient accountView R]

/-- So is then every command. -/
theorem admits_dispatchCommand (hfailed : ∀ id, Traced.Admits (R []) (registerFailed id))
    (cmd : String) (p : Json)
    (hstats : cmd = "MediaStatsUpdate" → Lossy R)
    (hnews : cmd ∈ recordingCommands → Vocal R) :
    Traced.Admits (R []) (dispatchCommand cmd p) := by
  by_cases hcmd : cmd ∈ callCommands
  · exact mild_callCommand p hcmd (fun _ ↦ inferInstance) hnews
  · by_cases hreg : cmd = "AccountRegister"
    · subst hreg
      exact (admits_cmdAccountRegister hfailed p).map _
    · exact tame_dispatchCommand p hcmd hreg hstats

/-- And every operation but the shutdown, those on statistics and recordings where the family allows
it. -/
theorem admits_op (hfailed : ∀ id, Traced.Admits (R []) (registerFailed id)) {op : Op}
    (hop : op ≠ .shutdown)
    (hstats : statsOp op = true → Lossy R)
    (hnews : recordingOp op = true → Vocal R) :
    Traced.Admits (R []) op.run := by
  have code {cmd : String} (p : Json) (hcmd : cmd ≠ "MediaStatsUpdate")
      (hrec : cmd ∉ recordingCommands) : Traced.Admits (R []) (dispatchCode cmd p) :=
    (admits_dispatchCommand hfailed cmd p (fun h ↦ absurd h hcmd) fun h ↦ absurd h hrec).map _
  cases op with
  | shutdown => exact absurd rfl hop
  | sendCommand cmdType payload =>
    refine Traced.Admits.map (admits_withText _ fun cmd ↦ admits_withText _ fun text ↦ ?_) _
    refine admits_whenInitialized (tame_ask.bind fun e ↦ ?_)
    split
    · exact tame_pure _
    · exact (admits_dispatchCommand hfailed _ _ (fun _ ↦ hstats rfl) fun _ ↦ hnews rfl).map _
  | ipcLine client line =>
    refine Traced.Admits.bind tame_ask fun e ↦ ?_
    split
    · exact tame_pure _
    · refine (admits_dispatchCommand hfailed _ _ (fun _ ↦ hstats rfl) fun _ ↦ hnews rfl).bind fun result ↦ ?_
      split
      · exact discreet_emit (v := accountView) rfl rfl rfl rfl rfl
      · exact tame_pure _
  | register accountId user pass domain =>
    refine Traced.Admits.map (admits_withText _ fun id ↦ admits_withText _ fun name ↦ ?_) _
    refine admits_withText _ fun pass ↦ admits_withText _ fun domain ↦ admits_whenInitialized ?_
    refine (code _ (by decide) (by decide)).bind fun rc ↦ ?_
    split
    · exact tame_pure _
    · exact code _ (by decide) (by decide)
  | unregister accountId =>
    refine Traced.Admits.map (admits_withText _ fun id ↦ admits_whenInitialized ?_) _
    exact code _ (by decide) (by decide)
  | onRegState pjAccId expires statusCode reason => exact tame_op rfl
  | _ => exact mild_op rfl hstats hnews

/-- With the actions on locks, and the shim called under them, every operation is admitted. -/
theorem admits_every_op [Lenient newsView R] (hlock : ∀ act : LockAct Mutex,
    Traced.Admits (R []) (Traced.emit (.lock act) : Eng Unit)) {op : Op}
    (hstats : statsOp op = true → Lossy R)
    (hnews : recordingOp op = true → Vocal R) :
    Traced.Admits (R []) op.run := by
  by_cases hop : op = .shutdown
  · subst hop
    exact admits_engineShutdown.map _
  · exact admits_op (admits_registerFailed hlock) hop hstats hnews

end Programs

end PacketDial.System
