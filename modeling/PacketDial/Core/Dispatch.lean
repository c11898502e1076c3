import PacketDial.Core.Accounts
import PacketDial.Core.Calls
import PacketDial.Core.Devices
import PacketDial.Core.Settings

/-!
# Command dispatch

`dispatch_command`, `core_rust/src/lib.rs:1215–1264`. Two commands can panic; their result
says so, and each caller of the dispatcher decides what becomes of the panic.
-/

namespace PacketDial.Core

open PacketDial.Lib

/-- `dispatch_command` (`lib.rs:1215–1264`). -/
def dispatchCommand (cmdType : String) (p : Json) : Eng (Except Halt EngineErrorCode) :=
  match cmdType with
  | "AccountUpsert" => .ok <$> cmdAccountUpsert p
  | "AccountRegister" => .ok <$> cmdAccountRegister p
  | "AccountUnregister" => .ok <$> cmdAccountUnregister p
  | "AccountSetSecurity" => .ok <$> cmdAccountSetSecurity p
  | "CallStart" => .ok <$> cmdCallStart p
  | "CallAnswer" => .ok <$> cmdCallAnswer p
  | "CallHangup" => .ok <$> cmdCallHangup p
  | "CallMute" => .ok <$> cmdCallMute p
  | "CallHold" => .ok <$> cmdCallHold p
  | "CallSendDtmf" => .ok <$> cmdCallSendDtmf p
  | "CallStartRecording" => .ok <$> cmdCallStartRecording p
  | "CallStopRecording" => .ok <$> cmdCallStopRecording p
  | "MediaStatsUpdate" => .ok <$> cmdMediaStatsUpdate p
  | "AccountSetForwarding" => .ok <$> cmdAccountSetForwarding p
  | "AccountGetForwarding" => .ok <$> cmdAccountGetForwarding p
  | "SetGlobalDnd" => .ok <$> cmdSetGlobalDnd p
  | "AccountSetLookupUrl" => .ok <$> cmdAccountSetLookupUrl p
  | "AccountGetLookupUrl" => .ok <$> cmdAccountGetLookupUrl p
  | "AccountSetCodecPriority" => .ok <$> cmdAccountSetCodecPriority p
  | "AccountGetCodecPriority" => .ok <$> cmdAccountGetCodecPriority p
  | "AccountSetCodec" => .ok <$> cmdAccountSetCodec p
  | "AccountSetAutoAnswer" => .ok <$> cmdAccountSetAutoAnswer p
  | "AccountGetAutoAnswer" => .ok <$> cmdAccountGetAutoAnswer p
  | "AccountSetDtmfMethod" => .ok <$> cmdAccountSetDtmfMethod p
  | "AccountGetDtmfMethod" => .ok <$> cmdAccountGetDtmfMethod p
  | "AccountDeleteProfile" => .ok <$> cmdAccountDeleteProfile p
  | "SetGlobalCodecPriority" => .ok <$> cmdSetGlobalCodecPriority p
  | "GetGlobalCodecPriority" => .ok <$> cmdGetGlobalCodecPriority
  | "SetGlobalDtmfMethod" => .ok <$> cmdSetGlobalDtmfMethod p
  | "GetGlobalDtmfMethod" => .ok <$> cmdGetGlobalDtmfMethod
  | "SetGlobalAutoAnswer" => .ok <$> cmdSetGlobalAutoAnswer p
  | "GetGlobalAutoAnswer" => .ok <$> cmdGetGlobalAutoAnswer
  | "SetEcEnabled" => .ok <$> cmdSetEcEnabled p
  | "SetMicAmplification" => .ok <$> cmdSetMicAmplification p
  | "BlfSubscribe" => .ok <$> cmdBlfSubscribe p
  | "BlfUnsubscribe" => .ok <$> cmdBlfUnsubscribe p
  | "AudioListDevices" => cmdAudioListDevices
  | "AudioSetDevices" => .ok <$> cmdAudioSetDevices p
  | "SipCaptureMessage" => cmdSipCapture p
  | "DiagExportBundle" => .ok <$> cmdDiagExport p
  | "CredStore" => .ok <$> cmdCredStore p
  | "CredRetrieve" => .ok <$> cmdCredRetrieve p
  | "EnginePing" => .ok <$> cmdEnginePing
  | "SetLogLevel" => .ok <$> cmdSetLogLevel p
  | "GetLogBuffer" => .ok <$> cmdGetLogBuffer
  | _ => return .ok .unknownCommand

end PacketDial.Core
