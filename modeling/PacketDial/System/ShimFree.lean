import PacketDial.Lib.Threads
import PacketDial.System.TameOps

/-!
# Programs that leave the shim alone

Logging, events and a dozen commands call no shim operation, on no branch. Under a lock this holds
of every tame program, since a blind family lets the shim be called under no lock only; the
commands are gone through one by one.
-/

namespace PacketDial.System

open PacketDial.Core PacketDial.Lib

/-- The action is no call of the shim. -/
def NotShim (a : Action) : Prop := isShim a = false

/-- The program calls no shim operation. -/
abbrev ShimFree {α : Type} (x : Eng α) : Prop := Traced.Admits (Traced.Performs NotShim) x

/-- Under a lock the shim is not called. -/
def Hushed (held : List Mutex) (_ : Engine) (t : List Action) (_ : Engine) : Prop :=
  held ≠ [] → ∀ a ∈ t, NotShim a

instance (held : List Mutex) : Traced.Composable (Hushed held) where
  nil _ _ := List.forall_mem_nil NotShim
  append h h' hheld := List.forall_mem_append.mpr ⟨h hheld, h' hheld⟩

/-- Blind families do not let the shim be called under locks. -/
instance {γ δ : Type} {v : View Engine Action γ δ} : Blind v Hushed where
  update _ _ := List.forall_mem_nil NotShim
  emit _ _ _ hs _ := List.forall_mem_singleton.mpr hs
  shim _ _ hheld := absurd rfl hheld
  guard _ h _ := by
    rw [List.forall_mem_cons, List.forall_mem_append, List.forall_mem_singleton]
    exact ⟨rfl, h (List.cons_ne_nil _ _), rfl⟩
  inner _ _ := List.forall_mem_nil NotShim

section Primitives

variable {α : Type}

/-- A program that is hushed under some lock calls no shim operation. -/
theorem shimFree_of_hushed {held : List Mutex} {x : Eng α} (hheld : held ≠ [])
    (h : Traced.Admits (Hushed held) x) : ShimFree x :=
  fun s t a s' hx ↦ h s t a s' (hx.mono fun _ _ _ _ ↦ List.forall_mem_nil NotShim) hheld

/-- A critical section performs what its body does, besides the lock. -/
theorem performs_withLock {P : Action → Prop} (hlock : ∀ act, P (.lock act)) {m : Mutex} {x : Eng α}
    (h : Traced.Admits (Traced.Performs P) x) :
    Traced.Admits (Traced.Performs P) (withLock m x) := by
  unfold withLock
  refine Traced.Admits.bind (Traced.admits_emit fun _ ↦ ?_) fun _ ↦ h.bind fun _ ↦ ?_
  · exact List.forall_mem_singleton.mpr (hlock _)
  · refine Traced.Admits.bind (Traced.admits_emit fun _ ↦ ?_) fun _ ↦ Traced.admits_pure _
    exact List.forall_mem_singleton.mpr (hlock _)

/-- A critical section calls the shim just if its body does. -/
theorem shimFree_withLock {m : Mutex} {x : Eng α} (h : ShimFree x) : ShimFree (withLock m x) :=
  performs_withLock (fun _ ↦ rfl) h

/-- An update is no call of the shim. -/
theorem shimFree_modify (f : Engine → Engine) : ShimFree (Traced.modify f : Eng Unit) :=
  Traced.admits_modify fun _ ↦ List.forall_mem_nil NotShim

/-- Returning is none. -/
theorem shimFree_pure (a : α) : ShimFree (pure a : Eng α) := Traced.admits_pure a

/-- Logging calls no shim operation. -/
theorem shimFree_logEngine (level : LogLevel) (message : String) :
    ShimFree (logEngine level message) :=
  have hushed : Traced.Admits (Hushed [.calls]) (logEngine level message) :=
    tame_logEngine (by decide) level message
  shimFree_of_hushed (by decide) hushed

/-- Pushing an event does not either. -/
theorem shimFree_pushEvent (type : String) (payload : Json) :
    ShimFree (pushEvent type payload) := by
  have hushed : Traced.Admits (Hushed [.calls]) (deliverEvent type payload) :=
    tame_deliverEvent (by decide) type payload
  refine Traced.Admits.bind (Traced.admits_emit fun _ ↦ ?_) fun _ ↦ ?_
  · exact List.forall_mem_singleton.mpr rfl
  · exact shimFree_of_hushed (by decide) hushed

/-- Neither does the report of a call. -/
theorem shimFree_pushCallState (call : Call) : ShimFree (pushCallState call) := by
  unfold pushCallState
  refine Traced.Admits.bind ?_ fun account ↦ shimFree_pushEvent _ _
  exact shimFree_withLock (Traced.admits_get.bind fun _ ↦ shimFree_pure _)

/-- Nor that of a registration. -/
theorem shimFree_pushRegState (id : String) (state : RegistrationState) :
    ShimFree (pushRegState id state) :=
  have hushed : Traced.Admits (Hushed [.calls]) (pushRegState id state) :=
    tame_pushRegState (by decide) (by decide) id state
  shimFree_of_hushed (by decide) hushed

/-- The record of a hold command is computed without the shim. -/
theorem shimFree_holdRecord (hold : Bool) (call : Call) : ShimFree (holdRecord hold call) :=
  have hushed : Traced.Admits (Hushed [.calls]) (holdRecord hold call) :=
    tame_holdRecord hold call
  shimFree_of_hushed (by decide) hushed

end Primitives

section Commands

/-- The commands that may call a shim operation. -/
def shimCommands : List String :=
  ["AccountRegister", "AccountUnregister", "CallStart", "CallAnswer", "CallHangup", "CallMute",
    "CallHold", "CallSendDtmf", "CallStartRecording", "CallStopRecording",
    "AccountSetForwarding", "AccountGetForwarding", "SetGlobalDnd", "AccountSetLookupUrl",
    "AccountGetLookupUrl", "AccountSetCodecPriority", "AccountGetCodecPriority",
    "AccountSetCodec", "AccountSetAutoAnswer", "AccountGetAutoAnswer", "AccountSetDtmfMethod",
    "AccountGetDtmfMethod", "AccountDeleteProfile", "SetGlobalCodecPriority",
    "GetGlobalCodecPriority", "SetGlobalDtmfMethod", "GetGlobalDtmfMethod",
    "SetGlobalAutoAnswer", "GetGlobalAutoAnswer", "SetEcEnabled", "SetMicAmplification",
    "BlfSubscribe", "BlfUnsubscribe", "AudioListDevices", "AudioSetDevices"]

variable (p : Json)

/-- `cmd_account_upsert` calls no shim operation. -/
theorem shimFree_cmdAccountUpsert : ShimFree (cmdAccountUpsert p) := by
  unfold cmdAccountUpsert
  split
  · exact shimFree_pure _
  · refine (shimFree_withLock (Traced.admits_get.bind fun s ↦ ?_)).bind fun known ↦ ?_
    · exact (shimFree_modify _).bind fun _ ↦ shimFree_pure _
    · dsimp only
      split
      · exact (shimFree_pushRegState _ _).bind fun _ ↦ shimFree_pure _
      · exact shimFree_pure _

/-- Nor does `cmd_account_set_security`. -/
theorem shimFree_cmdAccountSetSecurity : ShimFree (cmdAccountSetSecurity p) := by
  unfold cmdAccountSetSecurity
  split
  · exact shimFree_pure _
  · refine (shimFree_withLock (Traced.admits_get.bind fun s ↦ ?_)).bind fun found ↦ ?_
    · split
      · exact shimFree_pure _
      · exact (shimFree_modify _).bind fun _ ↦ shimFree_pure _
    · split
      · exact shimFree_pure _
      · exact (shimFree_pushEvent _ _).bind fun _ ↦ shimFree_pure _

/-- Nor does `cmd_media_stats_update`. -/
theorem shimFree_cmdMediaStatsUpdate : ShimFree (cmdMediaStatsUpdate p) := by
  unfold cmdMediaStatsUpdate
  split
  · exact shimFree_pure _
  · refine (shimFree_pushEvent _ _).bind fun _ ↦ ?_
    exact (shimFree_withLock (shimFree_modify _)).bind fun _ ↦ shimFree_pure _

/-- Nor does `cmd_sip_capture`. -/
theorem shimFree_cmdSipCapture : ShimFree (cmdSipCapture p) := by
  unfold cmdSipCapture
  dsimp only
  split
  · exact shimFree_pure _
  · exact (shimFree_pushEvent _ _).bind fun _ ↦ shimFree_pure _

/-- Nor does `cmd_diag_export`. -/
theorem shimFree_cmdDiagExport : ShimFree (cmdDiagExport p) := by
  unfold cmdDiagExport
  refine (shimFree_withLock (Traced.admits_get.bind fun s ↦ shimFree_pure _)).bind fun n ↦ ?_
  exact (shimFree_pushEvent _ _).bind fun _ ↦ shimFree_pure _

/-- Nor does `cmd_cred_store`. -/
theorem shimFree_cmdCredStore : ShimFree (cmdCredStore p) := by
  unfold cmdCredStore
  split
  · refine (shimFree_withLock (shimFree_modify _)).bind fun _ ↦ ?_
    exact (shimFree_pushEvent _ _).bind fun _ ↦ shimFree_pure _
  · exact shimFree_pure _

/-- Nor does `cmd_cred_retrieve`. -/
theorem shimFree_cmdCredRetrieve : ShimFree (cmdCredRetrieve p) := by
  unfold cmdCredRetrieve
  split
  · exact shimFree_pure _
  · refine shimFree_withLock (Traced.admits_get.bind fun s ↦ ?_)
    split
    · exact shimFree_pure _
    · exact (shimFree_pushEvent _ _).bind fun _ ↦ shimFree_pure _

/-- Nor does `cmd_engine_ping`. -/
theorem shimFree_cmdEnginePing : ShimFree cmdEnginePing :=
  (shimFree_pushEvent _ _).bind fun _ ↦ shimFree_pure _

/-- Nor does `cmd_set_log_level`. -/
theorem shimFree_cmdSetLogLevel : ShimFree (cmdSetLogLevel p) := by
  unfold cmdSetLogLevel
  split
  · exact shimFree_pure _
  · refine (shimFree_modify _).bind fun _ ↦ ?_
    exact (shimFree_pushEvent _ _).bind fun _ ↦ shimFree_pure _

/-- Nor does `cmd_get_log_buffer`. -/
theorem shimFree_cmdGetLogBuffer : ShimFree cmdGetLogBuffer := by
  unfold cmdGetLogBuffer
  refine (shimFree_withLock (Traced.admits_get.bind fun s ↦ shimFree_pure _)).bind fun items ↦ ?_
  exact (shimFree_pushEvent _ _).bind fun _ ↦ shimFree_pure _

/-- The commands that are not on the list call no shim operation. -/
theorem shimFree_dispatchCommand {cmd : String} (h : cmd ∉ shimCommands) :
    ShimFree (dispatchCommand cmd p) := by
  unfold dispatchCommand
  split
  case h_1 => exact (shimFree_cmdAccountUpsert p).map _
  case h_4 => exact (shimFree_cmdAccountSetSecurity p).map _
  case h_13 => exact (shimFree_cmdMediaStatsUpdate p).map _
  case h_39 => exact shimFree_cmdSipCapture p
  case h_40 => exact (shimFree_cmdDiagExport p).map _
  case h_41 => exact (shimFree_cmdCredStore p).map _
  case h_42 => exact (shimFree_cmdCredRetrieve p).map _
  case h_43 => exact shimFree_cmdEnginePing.map _
  case h_44 => exact (shimFree_cmdSetLogLevel p).map _
  case h_45 => exact shimFree_cmdGetLogBuffer.map _
  case h_46 => exact shimFree_pure _
  all_goals exact absurd (by decide) h

end Commands

end PacketDial.System
