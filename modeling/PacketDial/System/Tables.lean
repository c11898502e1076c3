import PacketDial.Core.Exports
import PacketDial.Lib.Views

/-!
# Call tables and projections of a trace

The part of the engine that tracks calls, `CALLS`, `PJSIP_CALL_MAP` and `NEXT_CALL_ID`, and
two views of what a run does: its call actions, which are the shim operations on calls and
the reported call states, and its lock actions. `Calm` runs leave the tables alone and show
no call action; `Lawful` runs keep the lock discipline.
-/

namespace PacketDial.System

open PacketDial.Core PacketDial.Lib

/-- The tables that track calls. -/
structure CallTables where
  calls : AList fun _ : UInt32 ↦ Call
  callMap : AList fun _ : Int ↦ UInt32
  nextCallId : UInt32

/-- The call tables of an engine. -/
def tables (s : Engine) : CallTables := ⟨s.calls, s.pjsipCallMap, s.nextCallId⟩

/-- What a run does to calls, seen from outside. -/
inductive CallAct where
  | op (call : ShimCall)
  | changed (payload : Json)

/-- The shim calls that act on PJSIP calls, as opposed to queries and settings. -/
def isCallOp : ShimCall → Bool
  | .pdShutdown | .pdCallMake .. | .pdCallAnswer _ | .pdCallHangup _ | .pdCallHold ..
  | .pdCallSetMute .. | .pdCallSendDtmf .. | .pdCallTransfer .. | .pdCallStartAttendedXfer ..
  | .pdCallCompleteXfer .. | .pdCallMergeConference .. | .pdCallStartRecording ..
  | .pdCallStopRecording _ => true
  | _ => false

/-- The call action in an action. -/
def callAct : Action → Option CallAct
  | .shim call => if isCallOp call then some (.op call) else none
  | .event type payload => if type = "CallStateChanged" then some (.changed payload) else none
  | _ => none

/-- The view of a run that shows its effect on calls. -/
def callView : View Engine Action CallTables CallAct := ⟨tables, callAct⟩

/-- The call actions of a trace. -/
def callTrace (t : List Action) : List CallAct := callView.trace t

/-- The lock action in an action. -/
def lockAct : Action → Option (LockAct Mutex)
  | .lock act => some act
  | _ => none

/-- The lock actions of a trace. -/
def lockActs (t : List Action) : List (LockAct Mutex) := t.filterMap lockAct

@[simp] theorem lockActs_nil : lockActs [] = [] := rfl

@[simp] theorem lockActs_append (t u : List Action) :
    lockActs (t ++ u) = lockActs t ++ lockActs u := List.filterMap_append

/-- The run leaves the call tables as they are and shows no call action. -/
abbrev Calm : Engine → List Action → Engine → Prop := callView.Still

/-- The run keeps the lock discipline, the locks in `held` being held. -/
def Lawful (held : List Mutex) (_ : Engine) (t : List Action) (_ : Engine) : Prop :=
  Disciplined held (lockActs t)

instance (held : List Mutex) : Traced.Composable (Lawful held) where
  nil _ := givesBack_nil held
  append h h' := by
    rw [Lawful, lockActs_append]
    exact GivesBack.append h h'

/-- Calm and lawful at once. -/
def Tame (held : List Mutex) (s : Engine) (t : List Action) (s' : Engine) : Prop :=
  Calm s t s' ∧ Lawful held s t s'

instance (held : List Mutex) : Traced.Composable (Tame held) := Traced.instComposableAnd

section Rules

variable {held : List Mutex} {α β : Type}

/-- A tame computation is calm. -/
theorem calm_of_tame {x : Eng α} (h : Traced.Admits (Tame held) x) : Traced.Admits Calm x := by
  intro s t a s' hx
  exact (h s t a s' (hx.mono fun _ _ hcalm ↦ ⟨hcalm, givesBack_nil held⟩)).1

/-- A critical section is calm when its body is. -/
theorem calm_withLock {m : Mutex} {x : Eng α} (h : Traced.Admits Calm x) :
    Traced.Admits Calm (withLock m x) := by
  unfold withLock
  refine Traced.Admits.bind (Traced.admits_emit fun _ ↦ ⟨rfl, rfl⟩) fun _ ↦ h.bind fun _ ↦ ?_
  exact Traced.Admits.bind (Traced.admits_emit fun _ ↦ ⟨rfl, rfl⟩) fun _ ↦ Traced.admits_pure _

/-- What the trace of a critical section is made of. -/
theorem lockActs_withLock (m : Mutex) (x : Eng α) (e : Env) (s : Engine) :
    lockActs ((withLock m x).run e s).trace =
      .acquire m :: (lockActs (x.run e s).trace ++ [.release m]) := by
  simp [withLock, lockActs, lockAct]

end Rules

end PacketDial.System
