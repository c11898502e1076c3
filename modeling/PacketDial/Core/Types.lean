import Mathlib.Data.List.AList
import PacketDial.Core.Json

/-!
# Engine data

The domain types of `core_rust/src/lib.rs:66–271` and the calls of its C shim
(`src/shim/pjsip_shim.h`). PJSIP identifiers and return codes are `i32` values and times are
`u64` values of the host clock; both are unbounded integers here, as the code only compares,
subtracts with saturation and prints them. Call identifiers keep their 32 bits.
-/

namespace PacketDial.Core

/-- `EngineErrorCode` (`lib.rs:72–82`). -/
inductive EngineErrorCode where
  | ok
  | alreadyInitialized
  | notInitialized
  | invalidUtf8
  | invalidJson
  | unknownCommand
  | notFound
  | mediaNotReady
  | internalError
  deriving DecidableEq, Repr

/-- The `as i32` value of an error code. -/
def EngineErrorCode.code : EngineErrorCode → Int
  | .ok => 0
  | .alreadyInitialized => 1
  | .notInitialized => 2
  | .invalidUtf8 => 3
  | .invalidJson => 4
  | .unknownCommand => 5
  | .notFound => 6
  | .mediaNotReady => 7
  | .internalError => 100

/-- The derived `Debug` text of an error code. -/
def EngineErrorCode.debug : EngineErrorCode → String
  | .ok => "Ok"
  | .alreadyInitialized => "AlreadyInitialized"
  | .notInitialized => "NotInitialized"
  | .invalidUtf8 => "InvalidUtf8"
  | .invalidJson => "InvalidJson"
  | .unknownCommand => "UnknownCommand"
  | .notFound => "NotFound"
  | .mediaNotReady => "MediaNotReady"
  | .internalError => "InternalError"

/-- `LogLevel` (`lib.rs:92–97`). -/
inductive LogLevel where
  | error
  | warn
  | info
  | debug
  deriving DecidableEq, Repr

namespace LogLevel

/-- The discriminant of a level: the more severe, the lower. -/
def toNat : LogLevel → Nat
  | .error => 0
  | .warn => 1
  | .info => 2
  | .debug => 3

/-- `LogLevel::as_str`. -/
def asStr : LogLevel → String
  | .error => "Error"
  | .warn => "Warn"
  | .info => "Info"
  | .debug => "Debug"

/-- `LogLevel::from_str`. -/
def fromStr : String → Option LogLevel
  | "Error" => some .error
  | "Warn" => some .warn
  | "Info" => some .info
  | "Debug" => some .debug
  | _ => none

end LogLevel

/-- `LogEntry` (`lib.rs:130–134`). -/
structure LogEntry where
  level : LogLevel
  message : String
  ts : Nat
  deriving DecidableEq, Repr

/-- `RegistrationState` (`lib.rs:166–172`). -/
inductive RegistrationState where
  | unregistered
  | registering
  | registered
  | failed (reason : String)
  deriving DecidableEq, Repr

/-- `RegistrationState::variant_name`. -/
def RegistrationState.variantName : RegistrationState → String
  | .unregistered => "Unregistered"
  | .registering => "Registering"
  | .registered => "Registered"
  | .failed _ => "Failed"

/-- `Account` (`lib.rs:141–163`). -/
structure Account where
  uuid : String
  accountName : String
  displayName : String
  server : String
  sipProxy : String
  username : String
  authUsername : String
  domain : String
  password : String
  transport : String
  stunServer : String
  turnServer : String
  tlsEnabled : Bool
  srtpEnabled : Bool
  publishPresence : Bool
  regState : RegistrationState
  pjsipAccId : Option Int
  deriving DecidableEq, Repr

/-- `CallDirection` (`lib.rs:208–212`). -/
inductive CallDirection where
  | outgoing
  | incoming
  deriving DecidableEq, Repr

/-- `CallDirection::variant_name`. -/
def CallDirection.variantName : CallDirection → String
  | .outgoing => "Outgoing"
  | .incoming => "Incoming"

/-- `CallState` (`lib.rs:224–229`). -/
inductive CallState where
  | ringing
  | inCall
  | onHold
  | ended
  deriving DecidableEq, Repr

/-- `CallState::variant_name`. -/
def CallState.variantName : CallState → String
  | .ringing => "Ringing"
  | .inCall => "InCall"
  | .onHold => "OnHold"
  | .ended => "Ended"

/-- `Call` (`lib.rs:186–205`). -/
structure Call where
  id : UInt32
  accountId : String
  uri : String
  direction : CallDirection
  state : CallState
  muted : Bool
  onHold : Bool
  accumulatedActiveSecs : Nat
  lastResumedAt : Option Nat
  pjsipCallId : Option Int
  recordingPath : Option String
  recordingStartedAtMs : Option Nat
  deriving DecidableEq, Repr

/-- The call has ended; nothing in the engine removes its record. -/
abbrev Call.Ended (call : Call) : Prop := call.state = .ended

/-- `MediaStats` (`lib.rs:243–249`). -/
structure MediaStats where
  callId : UInt32
  jitterMs : Float32
  packetLossPct : Float32
  codec : String
  bitrateKbps : UInt32

/-- `AudioDeviceKind` (`lib.rs:259–262`). -/
inductive AudioDeviceKind where
  | input
  | output
  deriving DecidableEq, Repr

/-- `AudioDeviceKind::as_str`. -/
def AudioDeviceKind.asStr : AudioDeviceKind → String
  | .input => "Input"
  | .output => "Output"

/-- `AudioDevice` (`lib.rs:252–256`). -/
structure AudioDevice where
  id : UInt32
  name : String
  kind : AudioDeviceKind
  deriving DecidableEq, Repr

/-- The engine's mutexes: the global tables and the list of retained event payloads. -/
inductive Mutex where
  | accounts
  | calls
  | pjsipAccMap
  | pjsipCallMap
  | mediaStats
  | audioDevices
  | credStore
  | logBuffer
  | eventCallback
  | clientSenders
  | retainedPayloads
  deriving DecidableEq, Repr

/-- The arguments of `pd_acc_add`. -/
structure AccAddArgs where
  sipUri : String
  registrar : String
  username : String
  password : String
  authUsername : String
  sipProxy : String
  useTcp : Int
  stunServer : String
  publishPresence : Int
  displayName : String
  deriving DecidableEq, Repr

/-- Calls into the shim, with the arguments the engine passes. -/
inductive ShimCall where
  | pdInit (userAgent : CPtr)
  | pdShutdown
  | pdAccAdd (args : AccAddArgs)
  | pdAccRemove (accId : Int)
  | pdCallMake (accId : Int) (dstUri : String)
  | pdCallAnswer (callId : Int)
  | pdCallHangup (callId : Int)
  | pdCallHold (callId : Int) (hold : Bool)
  | pdCallSetMute (callId : Int) (mute : Bool)
  | pdAudDevList
  | pdAudSetDevs (captureId playbackId : Int)
  | pdAudGetDevs
  | pdCallGetStreamStat (callId : Int)
  | pdCallSendDtmf (callId : Int) (digits : String)
  | pdCallTransfer (callId : Int) (destUri : String)
  | pdCallStartAttendedXfer (callId : Int) (destUri : String)
  | pdCallCompleteXfer (callA callB : Int)
  | pdCallMergeConference (callA callB : Int)
  | pdAccSetForward (accId : Int) (fwdUri : String) (fwdFlags : Int)
  | pdAccGetForward (accId : Int)
  | pdSetGlobalDnd (enabled : Bool)
  | pdBlfSubscribe (accId : Int) (uris : List String)
  | pdBlfUnsubscribe (accId : Int)
  | pdAccSetLookupUrl (accId : Int) (lookupUrl : String)
  | pdAccGetLookupUrl (accId : Int)
  | pdAccSetCodecPriority (accId : Int) (codecPriorities : String)
  | pdAccGetCodecPriority (accId : Int)
  | pdAccSetCodec (accId : Int) (codecId : String) (enabled : Bool)
  | pdAccSetAutoAnswer (accId : Int) (enabled : Bool) (delayMs : Int)
  | pdAccGetAutoAnswer (accId : Int)
  | pdAccSetDtmfMethod (accId dtmfMethod : Int)
  | pdAccGetDtmfMethod (accId : Int)
  | pdAccDeleteProfile (uuid : String)
  | pdSetGlobalCodecPriority (codecPriorities : String)
  | pdGetGlobalCodecPriority
  | pdSetGlobalDtmfMethod (dtmfMethod : Int)
  | pdGetGlobalDtmfMethod
  | pdSetGlobalAutoAnswer (enabled : Bool) (delayMs : Int)
  | pdGetGlobalAutoAnswer
  | pdSetEcEnabled (enabled : Bool)
  | pdSetMicAmplification (level : Float32)
  | pdAudPlayDtmf (digits : CPtr)
  | pdCallStartRecording (callId : Int) (filePath : String)
  | pdCallStopRecording (callId : Int)
  | pdCallIsRecording (callId : Int)

/-- The out-parameters of `pd_call_get_stream_stat`. -/
structure StreamStat where
  jitterMs : Float32
  lossPct : Float32
  codec : CPtr
  bitrateKbps : Int

/-- One entry of the arrays that `pd_aud_dev_list` fills. -/
structure DeviceEntry where
  id : Int
  name : CPtr
  kind : Int

/-- The order in which a hash map hands out its values: some permutation of them. -/
structure IterOrder (α : Type) where
  shuffle : List α → List α
  perm : ∀ l, (shuffle l).Perm l

/-- A shuffled list has the same members. -/
theorem IterOrder.mem_shuffle {α : Type} (order : IterOrder α) {l : List α} {a : α} :
    a ∈ order.shuffle l ↔ a ∈ l :=
  (order.perm l).mem_iff

end PacketDial.Core
