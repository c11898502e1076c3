import PacketDial.Core.Accounts
import PacketDial.Core.Callbacks
import PacketDial.Core.Calls
import PacketDial.Core.Devices
import PacketDial.Core.Dispatch
import PacketDial.Core.Engine
import PacketDial.Core.Events
import PacketDial.Core.Exports
import PacketDial.Core.Json
import PacketDial.Core.JsonText
import PacketDial.Core.JsonWriting
import PacketDial.Core.Lowercase
import PacketDial.Core.Masking
import PacketDial.Core.Recording
import PacketDial.Core.Serde
import PacketDial.Core.Settings
import PacketDial.Core.Types
import PacketDial.Dialling.Targets
import PacketDial.Dialling.Transfers
import PacketDial.Ffi.JsonStrings
import PacketDial.Ffi.Marshalling
import PacketDial.Ipc.Clients
import PacketDial.Ipc.Framing
import PacketDial.Ipc.Lines
import PacketDial.Ipc.Reply
import PacketDial.Lib.Assignments
import PacketDial.Lib.Base64
import PacketDial.Lib.Calendar
import PacketDial.Lib.Crews
import PacketDial.Lib.Deadlock
import PacketDial.Lib.Decimal
import PacketDial.Lib.Ledger
import PacketDial.Lib.Locks
import PacketDial.Lib.Loops
import PacketDial.Lib.Paths
import PacketDial.Lib.Patterns
import PacketDial.Lib.Replacements
import PacketDial.Lib.Routes
import PacketDial.Lib.SipUri
import PacketDial.Lib.Slices
import PacketDial.Lib.Slots
import PacketDial.Lib.Snapshots
import PacketDial.Lib.Strands
import PacketDial.Lib.Threads
import PacketDial.Lib.Traced
import PacketDial.Lib.Trim
import PacketDial.Lib.Utf16
import PacketDial.Lib.Utf8
import PacketDial.Lib.Views
import PacketDial.Lib.Windows
import PacketDial.Masking.Covered
import PacketDial.Masking.Cuts
import PacketDial.Masking.Exposed
import PacketDial.Masking.Folding
import PacketDial.Masking.Forms
import PacketDial.Masking.Idempotence
import PacketDial.Masking.Noninterference
import PacketDial.Masking.Termination
import PacketDial.Shim.Bridge
import PacketDial.Shim.Buddies
import PacketDial.Shim.DtmfMethods
import PacketDial.Shim.Identity
import PacketDial.Shim.Incoming
import PacketDial.Shim.Microphone
import PacketDial.Shim.Recorders
import PacketDial.Shim.Settings
import PacketDial.Shim.Takes
import PacketDial.Shim.Transports
import PacketDial.System.AccountMap
import PacketDial.System.AccountNews
import PacketDial.System.AccountPool
import PacketDial.System.AccountSpec
import PacketDial.System.AccountSteps
import PacketDial.System.AccountStrands
import PacketDial.System.Blind
import PacketDial.System.CallIds
import PacketDial.System.CallStrands
import PacketDial.System.CallbackSpec
import PacketDial.System.Changes
import PacketDial.System.CommandSpec
import PacketDial.System.Consistency
import PacketDial.System.Consultation
import PacketDial.System.CreationRace
import PacketDial.System.Crews
import PacketDial.System.Deadlock
import PacketDial.System.DefaultAccount
import PacketDial.System.Devices
import PacketDial.System.DispatchSpec
import PacketDial.System.Edits
import PacketDial.System.Finalisation
import PacketDial.System.Gate
import PacketDial.System.Hold
import PacketDial.System.Isolation
import PacketDial.System.Lifecycle
import PacketDial.System.LockDiscipline
import PacketDial.System.LogPaths
import PacketDial.System.Machine
import PacketDial.System.MediaStats
import PacketDial.System.Merges
import PacketDial.System.MildCommands
import PacketDial.System.MutePrivacy
import PacketDial.System.News
import PacketDial.System.RecordingNews
import PacketDial.System.RecordingRace
import PacketDial.System.RecordingSteps
import PacketDial.System.Records
import PacketDial.System.Refusals
import PacketDial.System.Registration
import PacketDial.System.RegistrationRace
import PacketDial.System.SettingSpec
import PacketDial.System.ShimFree
import PacketDial.System.StepSpec
import PacketDial.System.Tables
import PacketDial.System.TalkTime
import PacketDial.System.Tame
import PacketDial.System.TameCommands
import PacketDial.System.TameOps
import PacketDial.System.Timers
import PacketDial.System.UnregisterRace
import PacketDial.System.UpdateRace
import PacketDial.Ui.AccountMirror
import PacketDial.Ui.AccountSchema
import PacketDial.Ui.AccountService
import PacketDial.Ui.Accounts
import PacketDial.Ui.ActiveCalls
import PacketDial.Ui.Answered
import PacketDial.Ui.AppSettings
import PacketDial.Ui.Audio
import PacketDial.Ui.CallMirror
import PacketDial.Ui.CommandLine
import PacketDial.Ui.Conference
import PacketDial.Ui.CurrentCall
import PacketDial.Ui.CustomerData
import PacketDial.Ui.Deliveries
import PacketDial.Ui.Encryption
import PacketDial.Ui.History
import PacketDial.Ui.HistoryFile
import PacketDial.Ui.HistoryLedger
import PacketDial.Ui.Hooks
import PacketDial.Ui.Integration
import PacketDial.Ui.Payloads
import PacketDial.Ui.Placeholders
import PacketDial.Ui.Presence
import PacketDial.Ui.Recording
import PacketDial.Ui.RecordingEnd
import PacketDial.Ui.RecordingEvents
import PacketDial.Ui.Recordings
import PacketDial.Ui.Sightings
import PacketDial.Ui.SipUri
import PacketDial.Ui.Stores
import PacketDial.Ui.Text
