import PacketDial.System.TameCommands

/-!
# Changes of the call tables

What the commands and callbacks can do to the call tables, as data: the record a command
resolves its `call_id` to, the shim operation it issues on it, and the tables and reports
that result. The reasoning rules for the call view close the module.
-/

namespace PacketDial.System

open PacketDial.Core PacketDial.Lib

namespace CallTables

/-- Write one record. -/
def setCall (T : CallTables) (id : UInt32) (call : Call) : CallTables :=
  { T with calls := T.calls.insert id call }

/-- Use up a call id. -/
def burn (T : CallTables) : CallTables := { T with nextCallId := T.nextCallId + 1 }

/-- Enter a new call, whose id was the next one, with its PJSIP id. -/
def track (T : CallTables) (call : Call) (pjCallId : Int) : CallTables where
  calls := T.calls.insert call.id call
  callMap := T.callMap.insert pjCallId call.id
  nextCallId := T.nextCallId + 1

/-- Every record is filed under its own id. -/
def Keyed (T : CallTables) : Prop := ∀ id call, T.calls.lookup id = some call → call.id = id

/-- The records in the order a run sees them. -/
def values (T : CallTables) (e : Env) : List Call :=
  e.callOrder.shuffle (T.calls.entries.map Sigma.snd)

/-- The id of the first record that satisfies `p`. -/
def firstId (T : CallTables) (e : Env) (p : Call → Bool) : Option UInt32 :=
  ((T.values e).find? p).map (·.id)

/-- The values are the records of the table. -/
theorem mem_values {T : CallTables} {e : Env} {call : Call} :
    call ∈ T.values e ↔ ∃ id, T.calls.lookup id = some call := by
  unfold values
  rw [IterOrder.mem_shuffle, List.mem_map]
  constructor
  · rintro ⟨⟨id, c⟩, hmem, rfl⟩
    exact ⟨id, AList.mem_lookup_iff.mpr hmem⟩
  · rintro ⟨id, h⟩
    exact ⟨⟨id, call⟩, AList.mem_lookup_iff.mp h, rfl⟩

/-- Searching the values for an id is looking the id up. -/
theorem Keyed.find_id {T : CallTables} (h : T.Keyed) (e : Env) (id : UInt32) :
    (T.values e).find? (·.id == id) = T.calls.lookup id := by
  cases hf : (T.values e).find? (·.id == id) with
  | some call =>
    have hid : call.id = id := by simpa using List.find?_some hf
    obtain ⟨k, hk⟩ := mem_values.mp (List.mem_of_find?_eq_some hf)
    rw [← hid, h k call hk]
    exact hk.symm
  | none =>
    rw [List.find?_eq_none] at hf
    cases hl : T.calls.lookup id with
    | none => rfl
    | some call =>
      exact absurd (beq_iff_eq.mpr (h id call hl)) (hf call (mem_values.mpr ⟨id, hl⟩))

/-- The first record that satisfies `p` is in the table and satisfies it. -/
theorem Keyed.firstId_eq_some {T : CallTables} (h : T.Keyed) {e : Env} {p : Call → Bool}
    {id : UInt32} (hid : T.firstId e p = some id) :
    ∃ call, T.calls.lookup id = some call ∧ p call := by
  obtain ⟨call, hf, rfl⟩ := Option.map_eq_some_iff.mp hid
  obtain ⟨k, hk⟩ := mem_values.mp (List.mem_of_find?_eq_some hf)
  refine ⟨call, ?_, List.find?_some hf⟩
  rw [h k call hk]
  exact hk

end CallTables

/-- The id that a command resolves: its `call_id`, or what it falls back to. -/
def commandTarget (e : Env) (T : CallTables) (cmd : String) (p : Json) : Option UInt32 :=
  match cmd with
  | "CallAnswer" => (callIdField p).or (T.firstId e (·.isRingingIncoming))
  | "CallHangup" => (callIdField p).or (T.firstId e (·.isLive))
  | "CallMute" => some (((callIdField p).or (T.firstId e (·.isLive))).getD 0)
  | "CallHold" => some (((callIdField p).or (T.firstId e (·.isLive))).getD 0)
  | "CallSendDtmf" => callIdField p
  | "CallStartRecording" => callIdField p
  | "CallStopRecording" => callIdField p
  | _ => none

/-- The operation of `start_recording_for_call` on a record, when its guards let it through. -/
def startRecordingOp (e : Env) (call : Call) (pjId : Int) (path : String) : Option ShimCall :=
  if call.state = .inCall ∧ e.rc (.pdCallIsRecording pjId) = 0 then
    (cString path).map (.pdCallStartRecording pjId)
  else none

/-- The operation of `stop_recording_for_call` on a record. -/
def stopRecordingOp (e : Env) (call : Call) (pjId : Int) : Option ShimCall :=
  if call.recordingPath.isSome ∧ e.rc (.pdCallIsRecording pjId) ≠ 0 then
    some (.pdCallStopRecording pjId)
  else none

/-- The operation that a command issues on the record it resolves to, with PJSIP id `pjId`. -/
def commandOp (e : Env) (cmd : String) (p : Json) (call : Call) (pjId : Int) : Option ShimCall :=
  match cmd with
  | "CallAnswer" => some (.pdCallAnswer pjId)
  | "CallHangup" => some (.pdCallHangup pjId)
  | "CallMute" => some (.pdCallSetMute pjId ((p.get "muted").asBool.getD true))
  | "CallHold" => some (.pdCallHold pjId ((p.get "hold").asBool.getD true))
  | "CallSendDtmf" =>
    ((p.get "digits").asStr.bind cString).map (.pdCallSendDtmf pjId)
  | "CallStartRecording" =>
    ((p.get "file_path").asStr.filter (trim · ≠ "")).bind fun path ↦
      startRecordingOp e call pjId (trim path)
  | "CallStopRecording" => stopRecordingOp e call pjId
  | _ => none

/-- The operations of a command, at most one. -/
def commandOps (e : Env) (T : CallTables) (cmd : String) (p : Json) : List ShimCall :=
  (((commandTarget e T cmd p).bind T.calls.lookup).bind fun call ↦
    call.pjsipCallId.bind (commandOp e cmd p call)).toList

/-- The reading in seconds that `now_secs` takes next. -/
def secsAt (e : Env) (s : Engine) : Nat := e.clock s.clockReads / 1000

/-- The running stretch of talk time is closed at `now`. -/
def settled (now : Nat) (call : Call) : Call :=
  match call.lastResumedAt with
  | some resumedAt =>
    { call with
      lastResumedAt := none
      accumulatedActiveSecs := call.accumulatedActiveSecs + (now - resumedAt) }
  | none => call

/-- The record that a hold command makes of `call` at `now`. -/
def heldRecord (hold : Bool) (now : Nat) (call : Call) : Call :=
  if hold then settled now { call with onHold := true, state := .onHold }
  else { call with onHold := false, state := .inCall, lastResumedAt := some now }

/-- Closing the talk time leaves `on_hold`. -/
@[simp] theorem settled_onHold (now : Nat) (call : Call) :
    (settled now call).onHold = call.onHold := by
  unfold settled
  split <;> rfl

/-- A hold command sets `on_hold` as asked. -/
@[simp] theorem heldRecord_onHold (hold : Bool) (now : Nat) (call : Call) :
    (heldRecord hold now call).onHold = hold := by
  unfold heldRecord
  cases hold with
  | true => exact settled_onHold _ _
  | false => rfl

/-- Closing the talk time leaves `muted`. -/
@[simp] theorem settled_muted (now : Nat) (call : Call) :
    (settled now call).muted = call.muted := by
  unfold settled
  split <;> rfl

/-- A hold command leaves `muted`. -/
@[simp] theorem heldRecord_muted (hold : Bool) (now : Nat) (call : Call) :
    (heldRecord hold now call).muted = call.muted := by
  unfold heldRecord
  cases hold with
  | true => exact settled_muted _ _
  | false => rfl

/-- Only the recording fields of a record changed. -/
def SameCall (old new : Call) : Prop :=
  new = { old with
    recordingPath := new.recordingPath
    recordingStartedAtMs := new.recordingStartedAtMs }

/-- The action reports `call` in the state it has in the record. -/
def IsReport (call : Call) (act : CallAct) : Prop :=
  ∃ accountName displayName username,
    act = .changed (callPayload accountName displayName username call)

/-- The commands that write the record they resolve to, whatever its state. -/
def isUpdate (cmd : String) : Bool := cmd = "CallMute" || cmd = "CallHold"

/-- What a dispatched command can do to the call tables `T`. -/
inductive CommandChange (e : Env) (cmd : String) (p : Json) (T : CallTables) :
    List CallAct → CallTables → Prop where
  | idle (hmissing : isUpdate cmd = true → (commandTarget e T cmd p).bind T.calls.lookup = none) :
      CommandChange e cmd p T ((commandOps e T cmd p).map .op) T
  | burn {acts : List CallAct} (hcmd : cmd = "CallStart")
      (hacts : acts = [] ∨ ∃ accId uri, acts = [.op (.pdCallMake accId uri)] ∧
        e.rc (.pdCallMake accId uri) < 0) :
      CommandChange e cmd p T acts T.burn
  | track {accId : Int} {dst accountId uri : String} {report : CallAct}
      (hcmd : cmd = "CallStart") (hpj : 0 ≤ e.rc (.pdCallMake accId dst))
      (hreport : IsReport (newCall T.nextCallId accountId uri .outgoing
        (e.rc (.pdCallMake accId dst))) report) :
      CommandChange e cmd p T [.op (.pdCallMake accId dst), report]
        (T.track (newCall T.nextCallId accountId uri .outgoing (e.rc (.pdCallMake accId dst)))
          (e.rc (.pdCallMake accId dst)))
  | mute {id : UInt32} {old : Call} {report : CallAct} (hcmd : cmd = "CallMute")
      (hid : commandTarget e T cmd p = some id) (hold : T.calls.lookup id = some old)
      (hreport : IsReport { old with muted := (p.get "muted").asBool.getD true } report) :
      CommandChange e cmd p T (report :: (commandOps e T cmd p).map .op)
        (T.setCall id { old with muted := (p.get "muted").asBool.getD true })
  | hold {id : UInt32} {old : Call} {now : Nat} {report : CallAct} (hcmd : cmd = "CallHold")
      (hid : commandTarget e T cmd p = some id) (hold : T.calls.lookup id = some old)
      (hreport : IsReport (heldRecord ((p.get "hold").asBool.getD true) now old) report) :
      CommandChange e cmd p T (report :: (commandOps e T cmd p).map .op)
        (T.setCall id (heldRecord ((p.get "hold").asBool.getD true) now old))
  | record {id : UInt32} {old new : Call}
      (hcmd : cmd = "CallStartRecording" ∨ cmd = "CallStopRecording")
      (hid : commandTarget e T cmd p = some id) (hold : T.calls.lookup id = some old)
      (hsame : SameCall old new) :
      CommandChange e cmd p T ((commandOps e T cmd p).map .op) (T.setCall id new)

section Rules

variable {α β : Type} {e : Env} {s : Engine} {Q : α → List CallAct → CallTables → Prop}
  {R : β → List CallAct → CallTables → Prop}

/-- A tame computation that comes first drops out. -/
theorem yields_tame_bind {held : List Mutex} {x : Eng α} (hx : Traced.Admits (Tame held) x)
    {f : α → Eng β} (h : ∀ a s₁, tables s₁ = tables s → callView.Yields (f a) e s₁ R) :
    callView.Yields (x >>= f) e s R :=
  View.yields_still_bind (calm_of_tame hx) h

/-- A tame computation that comes first leaves what is known of its result. -/
theorem yields_read_bind {held : List Mutex} {x : Eng α} (hx : Traced.Admits (Tame held) x)
    {P : α → Prop} (hP : P (x.run e s).value) {f : α → Eng β}
    (h : ∀ a s₁, P a → tables s₁ = tables s → callView.Yields (f a) e s₁ R) :
    callView.Yields (x >>= f) e s R :=
  View.yields_read_bind (calm_of_tame hx) hP h

/-- A tame computation shows the tables it started from. -/
theorem yields_tame {held : List Mutex} {x : Eng α} (hx : Traced.Admits (Tame held) x)
    (h : ∀ a, Q a [] (tables s)) : callView.Yields x e s Q :=
  View.yields_still (calm_of_tame hx) h

/-- Sequencing after a computation whose visible effect is known. -/
theorem yields_seq {x : Eng α} {f : α → Eng β} (hx : callView.Yields x e s Q)
    (h : ∀ a acts s₁, Q a acts (tables s₁) →
      callView.Yields (f a) e s₁ fun b acts' T ↦ R b (acts ++ acts') T) :
    callView.Yields (x >>= f) e s R :=
  View.Yields.bind hx h

/-- Writing a record. -/
theorem yields_insertCall_bind {id : UInt32} {call : Call} {f : Unit → Eng β}
    (h : ∀ s₁, tables s₁ = (tables s).setCall id call → callView.Yields (f ()) e s₁ R) :
    callView.Yields (insertCall id call >>= f) e s R :=
  View.yields_modify_bind (h _ rfl)

/-- Taking the next call id. -/
theorem yields_fetchNextCallId_bind {f : UInt32 → Eng β}
    (h : ∀ s₁, tables s₁ = (tables s).burn →
      callView.Yields (f (tables s).nextCallId) e s₁ R) :
    callView.Yields (fetchNextCallId >>= f) e s R := h _ rfl

/-- Reading the values of the call table. -/
theorem yields_callValues_bind {f : List Call → Eng β}
    (h : callView.Yields (f ((tables s).values e)) e s R) :
    callView.Yields (callValues >>= f) e s R := h

/-- A critical section shows what its body shows. -/
theorem yields_withLock {m : Mutex} {x : Eng α} (h : callView.Yields x e s Q) :
    callView.Yields (withLock m x) e s Q := by
  have ht : callView.trace ((withLock m x).run e s).trace = callView.trace (x.run e s).trace := by
    simp [run_withLock, View.trace, callView, callAct, List.filterMap_cons]
  unfold View.Yields at h ⊢
  rw [ht, run_withLock]
  exact h

private theorem trace_shim {call : ShimCall} (hc : isCallOp call = true) :
    callView.trace ((shim call).run e s).trace = [.op call] := by
  simp [shim, View.trace, callView, callAct, hc]

/-- An operation on a call is shown. -/
theorem yields_shim {call : ShimCall} (hc : isCallOp call = true)
    {S : Int → List CallAct → CallTables → Prop} (h : S (e.rc call) [.op call] (tables s)) :
    callView.Yields (shim call) e s S := by
  unfold View.Yields
  rw [trace_shim hc]
  exact h

/-- Sequencing after an operation on a call. -/
theorem yields_shim_bind {call : ShimCall} (hc : isCallOp call = true) {f : Int → Eng β}
    (h : callView.Yields (f (e.rc call)) e s fun b acts T ↦ R b (.op call :: acts) T) :
    callView.Yields (shim call >>= f) e s R :=
  View.yields_bind rfl rfl (trace_shim hc) h

/-- An operation whose return value is ignored is shown. -/
theorem yields_discard_shim {call : ShimCall} (hc : isCallOp call = true)
    {S : Unit → List CallAct → CallTables → Prop} (h : S () [.op call] (tables s)) :
    callView.Yields (discard (shim call)) e s S :=
  View.yields_discard (yields_shim hc h)

/-- Sequencing after an operation whose return value is ignored. -/
theorem yields_discard_shim_bind {call : ShimCall} (hc : isCallOp call = true)
    {f : Unit → Eng β}
    (h : callView.Yields (f ()) e s fun b acts T ↦ R b (.op call :: acts) T) :
    callView.Yields (discard (shim call) >>= f) e s R := by
  have ht : callView.trace ((discard (shim call)).run e s).trace = [.op call] := by
    rw [Traced.run_discard]
    exact trace_shim hc
  exact View.yields_bind rfl rfl ht h

/-- The run of a report: its action, and nothing else that is visible. -/
theorem run_pushCallState (call : Call) (e : Env) (s : Engine) :
    ∃ report, IsReport call report ∧
      tables ((pushCallState call).run e s).state = tables s ∧
      callView.trace ((pushCallState call).run e s).trace = [report] := by
  have push (payload : Json) (s : Engine) :
      tables ((pushEvent "CallStateChanged" payload).run e s).state = tables s ∧
        callView.trace ((pushEvent "CallStateChanged" payload).run e s).trace =
          [.changed payload] := by
    have still := (calm_of_tame
      (tame_deliverEvent (by decide : CanPush []) "CallStateChanged" payload)).run e s
    refine ⟨still.1, ?_⟩
    unfold pushEvent
    rw [Traced.run_bind, View.trace_append, Traced.run_emit, still.2]
    rfl
  have names : Traced.Admits (Tame []) (withLock .accounts do
      return (← Traced.get).accounts.lookup call.accountId) :=
    tame_withLock (by decide) (tame_get.bind fun _ ↦ tame_pure _)
  have still := (calm_of_tame names).run e s
  unfold pushCallState
  rw [Traced.run_bind, View.trace_append, still.2]
  dsimp only
  obtain ⟨hs, ht⟩ := push _ _
  exact ⟨_, ⟨_, _, _, rfl⟩, hs.trans still.1, ht⟩

/-- Reporting a call shows one report and changes nothing. -/
theorem yields_pushCallState_bind {call : Call} {f : Unit → Eng β}
    (h : ∀ report s₁, IsReport call report → tables s₁ = tables s →
      callView.Yields (f ()) e s₁ fun b acts T ↦ R b (report :: acts) T) :
    callView.Yields (pushCallState call >>= f) e s R := by
  obtain ⟨payload, hp, hs, ht⟩ := run_pushCallState call e s
  exact View.yields_bind rfl rfl ht (h _ _ hp hs)

end Rules

end PacketDial.System
