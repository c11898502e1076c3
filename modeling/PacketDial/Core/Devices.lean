import PacketDial.Core.Events

/-!
# Audio device commands

`AudioListDevices` and `AudioSetDevices`: `core_rust/src/lib.rs:2022–2229`.
-/

namespace PacketDial.Core

open PacketDial.Lib

/-- The size of the arrays handed to `pd_aud_dev_list`. -/
def maxDeviceCount : Nat := 64

/-- The list entries of one enumerated device; kind 2 is both (`lib.rs:2070–2084`). -/
def deviceEntries (id : Int) (name : String) (kind : Int) : List AudioDevice :=
  (if kind = 0 ∨ kind = 2 then [⟨i32AsU32 id, name, .input⟩] else []) ++
    (if kind = 1 ∨ kind = 2 then [⟨i32AsU32 id, name, .output⟩] else [])

/-- The loop over the reported entries (`lib.rs:2054–2085`). -/
def readDevices : List DeviceEntry → Eng (List AudioDevice)
  | [] => return []
  | entry :: rest => do
    let name := entry.name.toStr.getD "Unknown"
    let id := entry.id
    let kind := entry.kind
    logEngine .debug s!"Found audio device: {name} (id={id}, kind={kind})"
    let others ← readDevices rest
    return deviceEntries id name kind ++ others

/-- Add a fallback device of a kind that is missing (`lib.rs:2111–2135`). -/
def ensureDevice (kind : AudioDeviceKind) (what name : String) : Eng Unit := do
  if !((← Traced.get).audioDevices.any (·.kind == kind)) then
    logEngine .warn s!"No {what} devices found, adding fallback device"
    Traced.modify fun s ↦ { s with audioDevices := s.audioDevices ++ [⟨0, name, kind⟩] }

/-- The selection, the fallback devices and the event of `cmd_audio_list_devices`
(`lib.rs:2087–2154`). -/
def publishDevices (realDevices : List AudioDevice) : Eng EngineErrorCode := do
  discard <| shim .pdAudGetDevs
  let (cap, play) := (← Traced.ask).outInts .pdAudGetDevs
  let selectedIn : UInt32 := if 0 ≤ cap then i32AsU32 cap else 0
  let selectedOut : UInt32 := if 0 ≤ play then i32AsU32 play else 0
  let count := realDevices.length
  logEngine .info <| s!"Audio devices: {count} real devices found, " ++
    s!"selected input={selectedIn}, output={selectedOut}"
  withLock .audioDevices <| Traced.modify fun s ↦ { s with audioDevices := realDevices }
  Traced.modify fun s ↦ { s with selectedInput := selectedIn, selectedOutput := selectedOut }
  withLock .audioDevices do
    ensureDevice .input "input" "System Default Input"
    ensureDevice .output "output" "System Default Output"
  let entries ← withLock .audioDevices do
    return (← Traced.get).audioDevices.map fun d ↦
      Json.obj [("id", .ofU32 d.id), ("name", .str d.name), ("kind", .str d.kind.asStr)]
  let s ← Traced.get
  pushEvent "AudioDeviceList" (.obj
    [("devices", .arr entries), ("selected_input", .ofU32 s.selectedInput),
      ("selected_output", .ofU32 s.selectedOutput)])
  return .ok

/-- `cmd_audio_list_devices` (`lib.rs:2022–2155`). A count beyond the arrays panics on the
first entry outside them. -/
def cmdAudioListDevices : Eng (Except Halt EngineErrorCode) := do
  let count ← shim .pdAudDevList
  if count < 0 then
    logEngine .error "Audio enumeration: pd_aud_dev_list failed"
    .ok <$> publishDevices []
  else
    logEngine .info s!"Audio enumeration: PJSIP reported {count} devices"
    let entries := (List.range (min count.toNat maxDeviceCount)).map (← Traced.ask).outDevices
    let realDevices ← readDevices entries
    if maxDeviceCount < count then return .error .panic
    else .ok <$> publishDevices realDevices

/-- `cmd_audio_set_devices` (`lib.rs:2157–2229`). -/
def cmdAudioSetDevices (p : Json) : Eng EngineErrorCode :=
  match (p.get "input_id").asU64.map truncU32, (p.get "output_id").asU64.map truncU32 with
  | some inputId, some outputId => do
    let (input, output) ← withLock .audioDevices do
      let devices := (← Traced.get).audioDevices
      return (devices.find? fun d ↦ d.id == inputId && d.kind == .input,
        devices.find? fun d ↦ d.id == outputId && d.kind == .output)
    let inputName := (input.map (·.name)).getD "<missing>"
    let outputName := (output.map (·.name)).getD "<missing>"
    logEngine .info <| s!"AudioSetDevices: requested input={inputId} ('{inputName}') " ++
      s!"output={outputId} ('{outputName}')"
    let hasInput := input.isSome
    let hasOutput := output.isSome
    if !hasInput || !hasOutput then
      logEngine .warn <| s!"AudioSetDevices: validation failed has_input={hasInput} " ++
        s!"has_output={hasOutput}"
      return .notFound
    else
      let rc ← shim (.pdAudSetDevs (asI32 inputId.toNat) (asI32 outputId.toNat))
      if rc ≠ 0 then
        logEngine .warn s!"AudioSetDevices: pd_aud_set_devs({inputId}, {outputId}) rc={rc}"
      else
        logEngine .info s!"AudioSetDevices: applied input={inputId} output={outputId}"
      Traced.modify fun s ↦ { s with selectedInput := inputId, selectedOutput := outputId }
      pushEvent "AudioDevicesSet" (.obj
        [("input_id", .ofU32 inputId), ("output_id", .ofU32 outputId)])
      return .ok
  | _, _ => return .invalidJson

end PacketDial.Core
