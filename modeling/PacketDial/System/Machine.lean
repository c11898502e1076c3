import PacketDial.Lib.Paths
import PacketDial.System.Tables

/-!
# The engine as a state machine

One step is one operation from outside, run to its end: a call through the C ABI, a line of
an IPC client or a PJSIP callback. A step that would wait for a lock its own thread holds,
or that aborts the process, has no successor. `World` adds what PJSIP promises about the
identifiers it hands out.
-/

namespace PacketDial.System

open PacketDial.Core PacketDial.Lib

/-- The operations the engine offers to its callers and to PJSIP. -/
inductive Op where
  | init (userAgent : CPtr)
  | shutdown
  | setEventCallback (present : Bool)
  | sendCommand (cmdType jsonPayload : CPtr)
  | register (accountId user pass domain : CPtr)
  | makeCall (accountId number : CPtr)
  | unregister (accountId : CPtr)
  | hangup
  | answerCall
  | setMute (muted : Int)
  | setHold (onHold : Int)
  | sendDtmf (digits : CPtr)
  | playDtmf (digits : CPtr)
  | startRecording (filePath : CPtr)
  | stopRecording
  | isRecording
  | transferCall (callId : Int) (destUri : CPtr)
  | startAttendedXfer (callId : Int) (destUri : CPtr)
  | completeXfer (callA callB : Int)
  | mergeConference (callA callB : Int)
  | listAudioDevices
  | setAudioDevices (inputId outputId : Int)
  | setLogLevel (level : CPtr)
  | getLogBuffer
  | ipcConnect (client : Nat)
  | ipcLine (client : Nat) (line : String)
  | onLog (level : Int) (msg : CPtr)
  | onRegState (pjAccId expires statusCode : Int) (reason : CPtr)
  | onIncomingCall (pjAccId pjCallId : Int) (fromUri : CPtr)
  | onCallState (pjCallId invState : Int)
  | onCallMedia (pjCallId active : Int)
  | onSipMsg (pjCallId isTx : Int) (msg : CPtr)
  | onTransferStatus (pjCallId statusCode : Int) (reason : CPtr) (isFinal : Int)
  | onBlfStatus (uri : CPtr) (state : Int) (activity : CPtr)

/-- The code an operation runs. -/
def Op.run : Op → Eng Unit
  | .init userAgent => discard <| engineInit userAgent
  | .shutdown => discard engineShutdown
  | .setEventCallback present => engineSetEventCallback present
  | .sendCommand cmdType payload => discard <| engineSendCommand cmdType payload
  | .register accountId user pass domain => discard <| engineRegister accountId user pass domain
  | .makeCall accountId number => discard <| engineMakeCall accountId number
  | .unregister accountId => discard <| engineUnregister accountId
  | .hangup => discard engineHangup
  | .answerCall => discard engineAnswerCall
  | .setMute muted => discard <| engineSetMute muted
  | .setHold onHold => discard <| engineSetHold onHold
  | .sendDtmf digits => discard <| engineSendDtmf digits
  | .playDtmf digits => discard <| enginePlayDtmf digits
  | .startRecording filePath => discard <| engineStartRecording filePath
  | .stopRecording => discard engineStopRecording
  | .isRecording => discard engineIsRecording
  | .transferCall callId destUri => discard <| engineTransferCall callId destUri
  | .startAttendedXfer callId destUri => discard <| engineStartAttendedXfer callId destUri
  | .completeXfer callA callB => discard <| engineCompleteXfer callA callB
  | .mergeConference callA callB => discard <| engineMergeConference callA callB
  | .listAudioDevices => discard engineListAudioDevices
  | .setAudioDevices inputId outputId => discard <| engineSetAudioDevices inputId outputId
  | .setLogLevel level => discard <| engineSetLogLevel level
  | .getLogBuffer => discard engineGetLogBuffer
  | .ipcConnect client => Core.ipcConnect client
  | .ipcLine client line => Core.ipcLine client line
  | .onLog level msg => pjsipOnLog level msg
  | .onRegState pjAccId expires statusCode reason =>
    pjsipOnRegState pjAccId expires statusCode reason
  | .onIncomingCall pjAccId pjCallId fromUri => pjsipOnIncomingCall pjAccId pjCallId fromUri
  | .onCallState pjCallId invState => pjsipOnCallState pjCallId invState
  | .onCallMedia pjCallId active => pjsipOnCallMedia pjCallId active
  | .onSipMsg pjCallId isTx msg => pjsipOnSipMsg pjCallId isTx msg
  | .onTransferStatus pjCallId statusCode reason isFinal =>
    pjsipOnTransferStatus pjCallId statusCode reason isFinal
  | .onBlfStatus uri state activity => pjsipOnBlfStatus uri state activity

/-- An operation with what its run gets from outside. -/
structure Input where
  op : Op
  env : Env

/-- The run of an input from a state of the engine. -/
def Input.outcome (i : Input) (s : Engine) : Outcome Engine Action Unit := i.op.run.run i.env s

/-- The call actions of the run of an input. -/
def Input.acts (i : Input) (s : Engine) : List CallAct := callTrace (i.outcome s).trace

/-- An abort of the process. -/
def isAbort : Action → Bool
  | .abort => true
  | _ => false

/-- The run comes to an end: it neither waits for a lock of its own nor aborts. -/
def completes (t : List Action) : Bool := (heldAfter [] (lockActs t)).isSome && !t.any isAbort

/-- One step of the engine. -/
def engineStep (s : Engine) (i : Input) : Option Engine :=
  let out := i.outcome s
  if completes out.trace then some out.state else none

/-- A step is the run of its input. -/
theorem engineStep_eq {s s' : Engine} {i : Input} (h : engineStep s i = some s') :
    s' = (i.outcome s).state := by
  unfold engineStep at h
  dsimp only at h
  split at h
  · exact (Option.some.inj h).symm
  · cases h

/-- The PJSIP ids that the shim hands out in a sequence of call actions. -/
def newPjIds (env : Env) (acts : List CallAct) : List Int :=
  acts.filterMap fun
    | .op (.pdCallMake accId uri) =>
      let pjId := env.rc (.pdCallMake accId uri)
      if 0 ≤ pjId then some pjId else none
    | .op (.pdCallStartAttendedXfer callId uri) =>
      let pjId := env.rc (.pdCallStartAttendedXfer callId uri)
      if 0 ≤ pjId then some pjId else none
    | _ => none

/-- The PJSIP ids that an input brings in: of an incoming call, or handed out by the shim. -/
def broughtIds (i : Input) (acts : List CallAct) : List Int :=
  (match i.op with
    | .onIncomingCall _ pjCallId _ => [pjCallId]
    | _ => []) ++ newPjIds i.env acts

/-- The engine, and the PJSIP call ids in use: handed out, and neither disconnected nor ended
by a shutdown since. -/
structure World where
  engine : Engine
  inUse : List Int

/-- A shutdown of PJSIP. -/
def isShutdownAct : CallAct → Bool
  | .op .pdShutdown => true
  | _ => false

/-- The PJSIP ids that stay in use: a `DISCONNECTED` callback frees one, `pd_shutdown` all. -/
def keptIds (op : Op) (acts : List CallAct) (used : List Int) : List Int :=
  if acts.any isShutdownAct then []
  else match op with
    | .onCallState pjCallId invState => if invState = 6 then used.filter (· ≠ pjCallId) else used
    | _ => used

/-- One step of the engine under PJSIP's promise: an id is handed out again only after its
`DISCONNECTED` callback or a shutdown. -/
def worldStep (w : World) (i : Input) : Option World :=
  let acts := i.acts w.engine
  if (broughtIds i acts).all (· ∉ w.inUse) then
    (engineStep w.engine i).map fun s ↦
      { engine := s, inUse := broughtIds i acts ++ keptIds i.op acts w.inUse }
  else none

/-- The world before the first operation. -/
def World.initial : World := ⟨Engine.initial, []⟩

/-- Surroundings in which every shim call returns 0 and no time passes. -/
def quietEnv : Env where
  clock _ := 0
  rc _ := 0
  outText _ := ""
  outInts _ := (0, 0)
  outStream _ := ⟨0, 0, .null, 0⟩
  outDevices _ := ⟨0, .null, 0⟩
  fileSize _ := 0
  pathExtension _ := none
  parseJson _ := none
  alive _ := true
  callOrder := ⟨id, fun _ ↦ .refl _⟩
  accountOrder := ⟨id, fun _ ↦ .refl _⟩

/-- A command of a C caller, whose payload parses to an object. -/
def commandInput (cmd : String) (fields : List (String × Json)) : Input where
  op := .sendCommand (.text cmd) (.text "")
  env := { quietEnv with parseJson := fun _ ↦ some (.obj fields) }

/-- The engine is initialised and an account registered with PJSIP. -/
def signIn : List Input :=
  [⟨.init .null, quietEnv⟩, ⟨.register (.text "a") (.text "u") (.text "p") (.text "d"), quietEnv⟩]

/-- A call from that account, which PJSIP calls 0. -/
def dial : Input :=
  commandInput "CallStart" [("account_id", .str "a"), ("uri", .str "sip:x@y")]

/-- PJSIP reports the call 0 as disconnected. -/
def hangUp : Input := ⟨.onCallState 0 6, quietEnv⟩

end PacketDial.System
