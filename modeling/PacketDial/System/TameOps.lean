import PacketDial.System.DispatchSpec
import PacketDial.System.Machine

/-!
# Tame operations

The entry points and callbacks that have nothing to do with calls, as operations.
-/

namespace PacketDial.System

open PacketDial.Core PacketDial.Lib

section Gates

variable {R : Engine → List Action → Engine → Prop}

/-- The gate of an entry point admits what its body admits. -/
theorem admits_whenInitialized [Traced.Composable R] {body : Eng Int} (h : Traced.Admits R body) :
    Traced.Admits R (whenInitialized body) := by
  unfold whenInitialized
  refine Traced.admits_get.bind fun s ↦ ?_
  split
  · exact h
  · exact Traced.admits_pure _

/-- A text argument admits what its body admits. -/
theorem admits_withText (ptr : CPtr) {body : String → Eng Int}
    (h : ∀ text, Traced.Admits R (body text)) : Traced.Admits R (withText ptr body) := by
  unfold withText
  split
  · exact h _
  · exact Traced.admits_pure _

end Gates

section Programs

variable {R : Family} [∀ held, Traced.Composable (R held)]

/-- Dispatching a command that is not on calls is tame. -/
theorem tame_dispatchCode [Sparing callView R] {cmd : String} (p : Json)
    (hcmd : cmd ∉ callCommands) (hreg : cmd ≠ "AccountRegister")
    (hstats : cmd = "MediaStatsUpdate" → Lossy R) :
    Traced.Admits (R []) (dispatchCode cmd p) :=
  (tame_dispatchCommand p hcmd hreg hstats).map _

/-- Dispatching a command that is neither on calls nor on accounts is tame. -/
theorem quiet_dispatchCode [Sparing tableView R] {cmd : String} (p : Json)
    (hcmd : cmd ∉ callCommands) (hacc : cmd ∉ accountCommands)
    (hstats : cmd ≠ "MediaStatsUpdate") : Traced.Admits (R []) (dispatchCode cmd p) :=
  (quiet_dispatchCommand p hcmd hacc fun h ↦ absurd h hstats).map _

/-- Searching the calls is tame. -/
theorem tame_firstCall [Sparing fullView R] (q : Call → Bool) :
    Traced.Admits (R []) (firstCall q) := by
  unfold firstCall
  exact tame_withLock (by decide) (tame_callValues.bind fun _ ↦ tame_pure _)

/-- `engine_init` is tame. -/
theorem tame_engineInit [Sparing tableView R] (userAgent : CPtr) :
    Traced.Admits (R []) (engineInit userAgent) := by
  unfold engineInit
  refine tame_get.bind fun s ↦ ?_
  dsimp only
  refine (tame_modify (by intro; rfl) (by intro; rfl)).bind fun _ ↦ Traced.admits_ite ?_ ?_
  · exact (tame_logEngine canLog_nil _ _).bind fun _ ↦ tame_pure _
  · refine (tame_shim rfl).bind fun rc ↦ Traced.admits_ite ?_ ?_
    · refine (tame_modify (by intro; rfl) (by intro; rfl)).bind fun _ ↦ ?_
      exact (tame_logEngine canLog_nil _ _).bind fun _ ↦ tame_pure _
    · refine (tame_pushEvent canLog_nil.2 (by decide) _).bind fun _ ↦ ?_
      exact (tame_logEngine canLog_nil _ _).bind fun _ ↦ tame_pure _

/-- `engine_is_recording` only asks. -/
theorem tame_engineIsRecording [Sparing tableView R] :
    Traced.Admits (R []) engineIsRecording := by
  unfold engineIsRecording
  refine tame_get.bind fun s ↦ Traced.admits_ite ?_ (tame_pure _)
  refine (tame_firstCall _).bind fun found ↦ ?_
  split
  · exact tame_shim rfl
  · exact tame_pure _

/-- The operations that have nothing to do with calls and keep the lock discipline. -/
def tameOp : Op → Bool
  | .init _ | .setEventCallback _ | .unregister _ | .playDtmf _ | .isRecording
  | .listAudioDevices | .setAudioDevices .. | .setLogLevel _ | .getLogBuffer | .ipcConnect _
  | .onLog .. | .onRegState .. | .onSipMsg .. | .onTransferStatus .. | .onBlfStatus .. => true
  | _ => false

/-- Those of them that have nothing to do with accounts either. -/
def quietOp : Op → Bool
  | .unregister _ | .onRegState .. => false
  | op => tameOp op

/-- The latter are tame. -/
theorem quiet_op [Sparing tableView R] {op : Op} (h : quietOp op = true) :
    Traced.Admits (R []) op.run := by
  cases op with
  | init userAgent => exact (tame_engineInit userAgent).map _
  | setEventCallback present => exact tame_withLock (by decide) (tame_modify (by intro; rfl) (by intro; rfl))
  | playDtmf digits =>
    have play : Traced.Admits (R []) (whenInitialized (shim (.pdAudPlayDtmf digits))) :=
      admits_whenInitialized (tame_shim rfl)
    exact Traced.Admits.map (Traced.admits_ite (tame_pure _) play) _
  | isRecording => exact tame_engineIsRecording.map _
  | listAudioDevices =>
    refine Traced.Admits.map (admits_whenInitialized ?_) _
    exact quiet_dispatchCode _ (by decide) (by decide) (by decide)
  | setAudioDevices inputId outputId =>
    refine Traced.Admits.map (admits_whenInitialized ?_) _
    exact quiet_dispatchCode _ (by decide) (by decide) (by decide)
  | setLogLevel level =>
    refine Traced.Admits.map (admits_withText _ fun level ↦ admits_whenInitialized ?_) _
    exact quiet_dispatchCode _ (by decide) (by decide) (by decide)
  | getLogBuffer =>
    refine Traced.Admits.map (admits_whenInitialized ?_) _
    exact quiet_dispatchCode _ (by decide) (by decide) (by decide)
  | ipcConnect client => exact tame_withLock (by decide) (tame_modify (by intro; rfl) (by intro; rfl))
  | onLog level msg => exact tame_pjsipOnLog (by decide) level msg
  | onSipMsg pjCallId isTx msg => exact tame_pjsipOnSipMsg (by decide) _ _ _
  | onTransferStatus pjCallId statusCode reason isFinal =>
    exact tame_pjsipOnTransferStatus (by decide) _ _ _ _
  | onBlfStatus uri state activity => exact tame_pjsipOnBlfStatus (by decide) _ _ _
  | _ => simp [quietOp, tameOp] at h

/-- The former are tame for the calls. -/
theorem tame_op [Sparing callView R] {op : Op} (h : tameOp op = true) :
    Traced.Admits (R []) op.run := by
  cases op with
  | unregister accountId =>
    refine Traced.Admits.map (admits_withText _ fun id ↦ admits_whenInitialized ?_) _
    exact tame_dispatchCode _ (by decide) (by decide) fun h ↦ absurd h (by decide)
  | onRegState pjAccId expires statusCode reason => exact tame_pjsipOnRegState (by decide) _ _ _ _
  | _ => first | exact quiet_op rfl | cases h

end Programs

/-- Dispatching a command that is not on calls is calm. -/
theorem calm_dispatchCode {cmd : String} (p : Json) (hcmd : cmd ∉ callCommands) :
    Traced.Admits Calm (dispatchCode cmd p) := by
  by_cases hreg : cmd = "AccountRegister"
  · subst hreg
    exact ((calm_cmdAccountRegister p).map _).map _
  · exact calm_of_tame (tame_dispatchCode p hcmd hreg fun _ ↦ inferInstance)

/-- Registering through the direct entry point is calm. -/
theorem calm_engineRegister (accountId user pass domain : CPtr) :
    Traced.Admits Calm (engineRegister accountId user pass domain) := by
  unfold engineRegister
  refine admits_withText _ fun accountId ↦ admits_withText _ fun user ↦ ?_
  refine admits_withText _ fun pass ↦ admits_withText _ fun domain ↦ admits_whenInitialized ?_
  refine (calm_dispatchCode _ (by decide)).bind fun rc ↦ ?_
  split
  · exact Traced.admits_pure _
  · exact calm_dispatchCode _ (by decide)

end PacketDial.System
