import PacketDial.System.CallStrands
import PacketDial.System.Edits

/-!
# Call-state callbacks next to the creation of a call

`CallStart`, `engine_start_attended_xfer` and `pjsip_on_incoming_call` enter a call in `CALLS` and
then in `PJSIP_CALL_MAP`, while PJSIP's worker thread delivers call-state callbacks for the new
PJSIP call. A callback that looks the call up before it is in `PJSIP_CALL_MAP` is lost.
-/

namespace PacketDial.System

open PacketDial.Core PacketDial.Lib

/-- An operation that creates a call. -/
inductive Creation where
  | callStart (p : Json)
  | attendedXfer (callId : Int) (destUri : CPtr)
  | incomingCall (pjAccId pjCallId : Int) (fromUri : CPtr)

/-- The steps of the operation. -/
def Creation.strand : Creation → CallStrand Unit
  | .callStart p => discard (callStartStrand p)
  | .attendedXfer callId destUri => discard (attendedXferStrand callId destUri)
  | .incomingCall pjAccId pjCallId fromUri => incomingCallStrand pjAccId pjCallId fromUri

/-- An operation, under `true`, and PJSIP's worker thread. -/
abbrev CreationPool := Pool Bool Env Engine Action CallMark

/-- An operation that creates a call, next to callbacks for a PJSIP call. -/
def creationRace (s : Engine) (operation : Creation) (pjCallId : Int) (invStates : List Int) :
    CreationPool where
  state := s
  strands i := if i then operation.strand else stateWorkerStrand pjCallId invStates
  log := []
  trace := []

/-- The state of a call that is there. -/
def callStateOf (id : UInt32) (s : Engine) : Option CallState :=
  (s.calls.lookup id).map (·.state)

/-- A callback with the state `state` looked its call up after the new call was entered in
`PJSIP_CALL_MAP`. -/
def FoundIt (pjCallId : Int) (id : UInt32) (state : CallState) (log : List (Bool × CallMark)) :
    Prop :=
  Before (true, .mapped pjCallId id) (false, .looked state) log

/-- Some callback looked the call up once it was there, and if `DISCONNECTED` did then the last
callback is a `DISCONNECTED`; or no callback did, and the last one has the state of a new call. -/
def UpToDate (pjCallId : Int) (id : UInt32) (last : CallState) (log : List (Bool × CallMark)) :
    Prop :=
  ((∃ state, FoundIt pjCallId id state log) ∧ (FoundIt pjCallId id .ended log → last = .ended)) ∨
    (∀ state, ¬ FoundIt pjCallId id state log) ∧ last = .ringing

section Relations

variable {α : Type} {id id' : UInt32} {pjCallId : Int} {e : Env} {s s' : Engine} {t : List Action}

/-- The run leaves `CALLS` and `PJSIP_CALL_MAP` as they are. -/
def SameCalls (s : Engine) (_ : List Action) (s' : Engine) : Prop :=
  s'.calls = s.calls ∧ s'.pjsipCallMap = s.pjsipCallMap

/-- The run leaves the state of the call and the route of the PJSIP call as they are. -/
def Bypasses (id : UInt32) (pjCallId : Int) (s : Engine) (_ : List Action) (s' : Engine) : Prop :=
  callStateOf id s' = callStateOf id s ∧
    s'.pjsipCallMap.lookup pjCallId = s.pjsipCallMap.lookup pjCallId

/-- What leaves the tables alone leaves each entry alone. -/
theorem SameCalls.bypasses (h : SameCalls s t s') (id : UInt32) (pjCallId : Int) :
    Bypasses id pjCallId s t s' := by
  unfold Bypasses callStateOf
  rw [h.1, h.2]
  exact ⟨rfl, rfl⟩

/-- Equal call tables. -/
theorem sameCalls_of_tables (h : tables s' = tables s) : SameCalls s t s' :=
  ⟨congrArg CallTables.calls h, congrArg CallTables.callMap h⟩

/-- A tame run leaves the tables alone. -/
theorem sameCalls_of_tame {x : Eng α} (h : Traced.Admits (Tame []) x) (e : Env) (s : Engine) :
    SameCalls s (x.run e s).trace (x.run e s).state :=
  sameCalls_of_tables ((calm_of_tame h).run e s).1

/-- A tame run leaves each entry alone. -/
theorem bypasses_of_tame {x : Eng α} (h : Traced.Admits (Tame []) x) (id : UInt32)
    (pjCallId : Int) (e : Env) (s : Engine) :
    Bypasses id pjCallId s (x.run e s).trace (x.run e s).state :=
  (sameCalls_of_tame h e s).bypasses id pjCallId

/-- Reporting a call leaves the tables alone. -/
theorem sameCalls_pushCallState (call : Call) (e : Env) (s : Engine) :
    SameCalls s ((pushCallState call).run e s).trace ((pushCallState call).run e s).state := by
  obtain ⟨_, -, htables, -⟩ := run_pushCallState call e s
  exact sameCalls_of_tables htables

/-- An amendment that keeps the state of its call. -/
theorem bypasses_amendCall {f : Call → Call} (hf : ∀ call, (f call).state = call.state)
    (id' id : UInt32) (pjCallId : Int) (e : Env) (s : Engine) :
    Bypasses id pjCallId s ((amendCall id' f).run e s).trace ((amendCall id' f).run e s).state := by
  unfold amendCall
  rw [run_withLock, Traced.run_bind, Traced.run_get]
  dsimp only
  cases hl : s.calls.lookup id' with
  | none => exact ⟨rfl, rfl⟩
  | some call =>
    refine ⟨?_, rfl⟩
    change ((s.calls.insert id' (f call)).lookup id).map (·.state) = callStateOf id s
    unfold callStateOf
    by_cases hid : id = id'
    · rw [hid, AList.lookup_insert, hl]
      exact congrArg some (hf call)
    · rw [AList.lookup_insert_ne hid]

/-- Recording a state in a call that is there. -/
theorem callStateOf_stateSection (state : CallState) (id : UInt32) (e : Env) (s : Engine) :
    callStateOf id ((stateSection state id).run e s).state =
      (callStateOf id s).map fun _ ↦ state := by
  have hchange : callView.Yields (stateSection state id) e s _ := yields_stateSection _ _
  unfold callStateOf
  rcases hchange with ⟨-, htables, hl⟩ | ⟨old, -, hl, -, -, htables⟩
  · have hcalls : ((stateSection state id).run e s).state.calls = s.calls :=
      congrArg CallTables.calls htables
    have hnone : s.calls.lookup id = none := hl
    rw [hcalls, hnone]
    rfl
  · have hcalls : ((stateSection state id).run e s).state.calls = _ :=
      congrArg CallTables.calls htables
    have hold : s.calls.lookup id = some old := hl
    rw [hcalls, lookup_setCall, hold]
    exact congrArg some (stateRecord_state state (secsAt e s) old)

/-- Recording a state changes no route. -/
theorem route_stateSection (state : CallState) (id : UInt32) (e : Env) (s : Engine) :
    ((stateSection state id).run e s).state.pjsipCallMap = s.pjsipCallMap := by
  have hchange : callView.Yields (stateSection state id) e s _ := yields_stateSection _ _
  rcases hchange with ⟨-, htables, -⟩ | ⟨_, -, -, -, -, htables⟩
  · exact congrArg CallTables.callMap htables
  · exact congrArg CallTables.callMap htables

/-- Recording a state in another call. -/
theorem bypasses_stateSection (h : id ≠ id') (state : CallState) (pjCallId : Int) (e : Env)
    (s : Engine) : Bypasses id pjCallId s ((stateSection state id').run e s).trace
      ((stateSection state id').run e s).state := by
  refine ⟨?_, by rw [route_stateSection]⟩
  have hchange : callView.Yields (stateSection state id') e s _ := yields_stateSection _ _
  unfold callStateOf
  rcases hchange with ⟨-, htables, -⟩ | ⟨_, -, -, -, -, htables⟩
  · have hcalls : ((stateSection state id').run e s).state.calls = s.calls :=
      congrArg CallTables.calls htables
    rw [hcalls]
  · have hcalls : ((stateSection state id').run e s).state.calls = _ :=
      congrArg CallTables.calls htables
    rw [hcalls, lookup_setCall_ne _ h]
    rfl

end Relations

section Operation

variable {α β : Type} {call : Call} {pjCallId : Int} {u : CallStrand α}

/-- The strand leaves calls alone and marks nothing. -/
abbrev LeavesCalls (u : CallStrand α) : Prop :=
  Strand.Within SameCalls (fun _ ↦ False) (fun v ↦ ∃ a, v = .done a) u

/-- Enter the PJSIP id, then go on. -/
def mapCallStrand (pjCallId : Int) (id : UInt32) (rest : Unit → CallStrand α) : CallStrand α :=
  Strand.marked (.mapped pjCallId id)
    (withLock .pjsipCallMap (insertPjsipCall pjCallId id)) >>= rest

/-- Enter the call in both tables, then go on. -/
def enterStrand (call : Call) (pjCallId : Int) (rest : Unit → CallStrand α) : CallStrand α :=
  Strand.plain (withLock .calls (insertCall call.id call)) >>= fun _ ↦
    mapCallStrand pjCallId call.id rest

/-- The strand enters a new call next, or has ended without one. -/
inductive Enters : CallStrand α → Prop
  | ended (a : α) : Enters (.done a)
  | enters (call : Call) (pjCallId : Int) {rest : Unit → CallStrand α}
      (hcall : call.state = .ringing) (hrest : ∀ b, LeavesCalls (rest b)) :
      Enters (enterStrand call pjCallId rest)

/-- The strand leaves calls alone until it enters a new one. -/
abbrev Approaches (u : CallStrand α) : Prop := Strand.Within SameCalls (fun _ ↦ False) Enters u

/-- A strand that leaves calls alone enters none. -/
theorem Strand.Within.approaches (h : LeavesCalls u) : Approaches u :=
  h.imp fun _ ⟨a, ha⟩ ↦ ha ▸ .ended a

/-- Returning enters no call. -/
theorem approaches_pure (a : α) : Approaches (pure a) := .here (.ended a)

/-- The result does not matter. -/
theorem approaches_discard (h : Approaches u) : Approaches (discard u) := by
  refine h.seq fun v hv ↦ ?_
  cases hv with
  | ended a => exact approaches_pure ()
  | enters call pjCallId hcall hrest =>
    exact .here (.enters call pjCallId hcall fun b ↦ (hrest b).discard)

/-- A log entry enters no call. -/
theorem approaches_log {level : LogLevel} {text : String} {f : Unit → CallStrand α}
    (h : Approaches (f ())) : Approaches (Strand.plain (logEngine level text) >>= f) :=
  Strand.within_plain_bind (sameCalls_of_tame (tame_logEngine canLog_nil _ _)) fun _ ↦ h

/-- Tracking a new call. -/
theorem approaches_trackStrand (hcall : call.state = .ringing) {rest : Unit → CallStrand α}
    (hrest : ∀ b, LeavesCalls (rest b)) : Approaches (trackStrand call pjCallId >>= rest) :=
  Strand.within_plain_bind (sameCalls_pushCallState call) fun _ ↦
    .here (.enters call pjCallId hcall hrest)

/-- A log entry and a result. -/
theorem leavesCalls_log {level : LogLevel} {text : String} (a : α) :
    LeavesCalls (Strand.plain (logEngine level text) >>= fun _ ↦ pure a) :=
  Strand.within_plain_bind (sameCalls_of_tame (tame_logEngine canLog_nil _ _)) fun _ ↦
    Strand.within_pure a

/-- Taking a call id leaves both tables alone. -/
theorem sameCalls_fetchNextCallId (e : Env) (s : Engine) :
    SameCalls s (fetchNextCallId.run e s).trace (fetchNextCallId.run e s).state := ⟨rfl, rfl⟩

/-- A call of the shim leaves both tables alone. -/
theorem sameCalls_shim (call : ShimCall) (e : Env) (s : Engine) :
    SameCalls s ((shim call).run e s).trace ((shim call).run e s).state := ⟨rfl, rfl⟩

/-- `pjsip_on_incoming_call`. -/
theorem approaches_incomingCallStrand (pjAccId pjCallId : Int) (fromUri : CPtr) :
    Approaches (incomingCallStrand pjAccId pjCallId fromUri) := by
  have lookup : Traced.Admits (Tame []) (withLock .pjsipAccMap do
      return (← Traced.get).pjsipAccMap.lookup pjAccId) :=
    tame_withLock (by decide) (tame_get.bind fun _ ↦ tame_pure _)
  apply Strand.within_plain_bind (sameCalls_of_tame lookup)
  intro found
  cases found with
  | none => exact approaches_log (approaches_pure ())
  | some accountId =>
    apply Strand.within_plain_bind sameCalls_fetchNextCallId
    intro ourCallId
    apply approaches_trackStrand rfl
    intro _
    exact leavesCalls_log ()

/-- `CallStart` where the shim has answered. -/
theorem approaches_placedStrand (callId : UInt32) (accountId uri : String) (pjCallId : Int) :
    Approaches (placedStrand callId accountId uri pjCallId) := by
  unfold placedStrand
  split
  · apply approaches_log
    exact approaches_log (approaches_pure _)
  · apply approaches_trackStrand rfl
    intro _
    exact leavesCalls_log _

/-- `CallStart` where the account is chosen. -/
theorem approaches_callFromStrand (p : Json) (accountId : String) :
    Approaches (callFromStrand p accountId) := by
  have place (callId : UInt32) (uri : String) (pjAccId : Int) :
      Approaches (placeCallStrand callId accountId uri pjAccId) := by
    apply approaches_log
    apply Strand.within_plain_bind (sameCalls_of_tame tame_audioPreflight)
    intro _
    cases cString uri with
    | none => exact approaches_log (approaches_pure _)
    | some dst =>
      apply Strand.within_plain_bind (sameCalls_shim _)
      exact approaches_placedStrand callId accountId uri
  unfold callFromStrand
  cases (p.get "uri").asStr with
  | none => exact approaches_pure _
  | some target =>
    dsimp only
    split
    · exact approaches_log (approaches_pure _)
    · apply Strand.within_plain_bind (sameCalls_of_tame (tame_callStartAccount accountId))
      rintro ⟨pjAccId, hint⟩
      cases pjAccId with
      | none => exact approaches_log (approaches_pure _)
      | some pjAccId =>
        dsimp only
        unfold startCallStrand
        dsimp only
        split
        · apply approaches_log
          apply Strand.within_plain_bind sameCalls_fetchNextCallId
          exact fun callId ↦ place callId _ pjAccId
        · apply Strand.within_plain_bind sameCalls_fetchNextCallId
          exact fun callId ↦ place callId _ pjAccId

/-- `CallStart`. -/
theorem approaches_callStartStrand (p : Json) : Approaches (callStartStrand p) := by
  apply Strand.within_plain_bind (sameCalls_of_tame (tame_callAccount p))
  intro found
  cases found with
  | none => exact approaches_pure _
  | some accountId => exact approaches_callFromStrand p accountId

/-- `engine_start_attended_xfer`. -/
theorem approaches_attendedXferStrand (callId : Int) (destUri : CPtr) :
    Approaches (attendedXferStrand callId destUri) := by
  unfold attendedXferStrand
  cases destUri.toStr with
  | none => exact approaches_pure _
  | some destUri =>
    apply Strand.within_plain_bind (sameCalls_of_tame tame_get)
    intro s
    split
    · apply Strand.within_plain_bind (sameCalls_of_tame (tame_firstCall _))
      intro call
      dsimp only
      cases call.bind (·.pjsipCallId) with
      | none => exact approaches_pure _
      | some pjId =>
        cases cString destUri with
        | none => exact approaches_pure _
        | some dest =>
          apply Strand.within_plain_bind (sameCalls_shim _)
          intro newPjId
          unfold consultedStrand
          split
          · exact approaches_pure _
          · apply Strand.within_plain_bind sameCalls_fetchNextCallId
            intro consultationCallId
            apply approaches_trackStrand rfl
            intro _
            exact leavesCalls_log _
    · exact approaches_pure _

/-- Each operation leaves calls alone until it enters a new one. -/
theorem Creation.approaches (operation : Creation) : Approaches operation.strand := by
  cases operation with
  | callStart p => exact approaches_discard (approaches_callStartStrand p)
  | attendedXfer callId destUri =>
    exact approaches_discard (approaches_attendedXferStrand callId destUri)
  | incomingCall pjAccId pjCallId fromUri =>
    exact approaches_incomingCallStrand pjAccId pjCallId fromUri

end Operation

section Worker

variable {pjCallId : Int} {id id' : UInt32} {rest : List CallState} {state : CallState}
  {c c' : CreationPool} {e : Env}

/-- The callbacks that have a state of their own, one after the other. -/
def statesStrand (pjCallId : Int) : List CallState → CallStrand Unit
  | [] => pure ()
  | state :: rest => do
    lookStateStrand pjCallId state
    statesStrand pjCallId rest

/-- Callbacks without one take no step. -/
theorem stateWorkerStrand_eq (pjCallId : Int) (invStates : List Int) :
    stateWorkerStrand pjCallId invStates =
      statesStrand pjCallId (invStates.filterMap invCallState) := by
  induction invStates with
  | nil => rfl
  | cons invState rest ih =>
    unfold stateWorkerStrand callStateStrand
    rw [ih]
    cases h : invCallState invState with
    | none =>
      rw [List.filterMap_cons_none h]
      rfl
    | some state =>
      rw [List.filterMap_cons_some h]
      rfl

/-- The worker thread leaves the call alone until its next look-up, if any. -/
abbrev Proceeds (id : UInt32) (pjCallId : Int) (rest : List CallState) : CallStrand Unit → Prop :=
  Strand.Within (Bypasses id pjCallId) (fun mark ↦ ∀ state, mark ≠ .looked state)
    (· = statesStrand pjCallId rest)

/-- Steps that leave the call alone, whatever they return. -/
abbrev Spares {α : Type} (id : UInt32) (pjCallId : Int) (u : CallStrand α) : Prop :=
  Strand.Within (Bypasses id pjCallId) (fun mark ↦ ∀ state, mark ≠ .looked state)
    (fun v ↦ ∃ a, v = .done a) u

/-- A step that leaves the call alone comes first. -/
theorem spares_tame_bind {α β : Type} {x : Eng α} {f : α → CallStrand β}
    (h : Traced.Admits (Tame []) x) (hf : ∀ a, Spares id pjCallId (f a)) :
    Spares id pjCallId (Strand.plain x >>= f) :=
  Strand.within_plain_bind (bypasses_of_tame h id pjCallId) hf

/-- The end of a recording, of whatever call. -/
theorem spares_finishStrand (callId : UInt32) (pjId : Int) (filePath : String)
    (startedAt : Option Nat) :
    Spares id pjCallId (finishStrand callId pjId filePath startedAt) := by
  apply Strand.within_plain_bind fun e s ↦ (sameCalls_shim _ e s).bypasses id pjCallId
  intro rc
  split
  · apply spares_tame_bind (tame_logEngine canLog_nil _ _)
    intro _
    apply spares_tame_bind (tame_pushRecording canLog_nil.2 (by decide) _)
    exact fun _ ↦ Strand.within_pure _
  · apply spares_tame_bind tame_nowMillis
    intro endedAt
    apply spares_tame_bind tame_ask
    intro env
    dsimp only
    apply Strand.within_plain_bind (bypasses_amendCall (by intro; rfl) callId id pjCallId)
    intro _
    apply spares_tame_bind (tame_pushRecording canLog_nil.2 (by decide) _)
    intro _
    apply spares_tame_bind (tame_ask.bind fun _ ↦ tame_pushRecording canLog_nil.2 (by decide) _)
    exact fun _ ↦ Strand.within_pure _

/-- Reading a record leaves each call alone. -/
theorem bypasses_snapshotCall (callId id : UInt32) (pjCallId : Int) (e : Env) (s : Engine) :
    Bypasses id pjCallId s ((snapshotCall callId).run e s).trace
      ((snapshotCall callId).run e s).state := ⟨rfl, rfl⟩

/-- The stop of a recording, of whatever call. -/
theorem spares_stopStrand (callId : UInt32) : Spares id pjCallId (stopStrand callId) := by
  apply Strand.within_plain_bind (bypasses_snapshotCall callId id pjCallId)
  intro found
  cases found with
  | none => exact Strand.within_pure _
  | some call =>
    dsimp only
    unfold stopFoundStrand
    cases call.pjsipCallId with
    | none => exact Strand.within_pure _
    | some pjId =>
      cases call.recordingPath with
      | none => exact Strand.within_pure _
      | some filePath =>
        apply Strand.within_marked_bind (fun e s ↦ (sameCalls_shim _ e s).bypasses id pjCallId)
        · simp
        · intro wasRecording
          split
          · exact Strand.within_pure _
          · exact spares_finishStrand callId pjId filePath _

/-- What follows a call-state callback that ended a call, whatever call it is. -/
theorem spares_stopAfterEndStrand (callId : UInt32) :
    Spares id pjCallId (stopAfterEndStrand callId) := by
  apply Strand.within_noting_bind (bypasses_snapshotCall callId id pjCallId)
  · intro call mark hmark
    cases hmark
    simp
  · intro call
    split
    · exact (spares_stopStrand callId).discard
    · exact Strand.within_pure _

/-- A callback for another call. -/
theorem spares_recordStateStrand (h : id ≠ id') (state : CallState) :
    Spares id pjCallId (recordStateStrand state id') := by
  apply Strand.within_marked_bind (bypasses_stateSection h state pjCallId)
  · simp
  · intro _
    split
    · exact spares_stopAfterEndStrand id'
    · exact Strand.within_pure _

/-- A callback that does not find the call. -/
theorem proceeds_answerStateStrand {found : Option UInt32} (h : found ≠ some id)
    (state : CallState) (rest : List CallState) :
    Proceeds id pjCallId rest (answerStateStrand pjCallId state found >>= fun _ ↦
      statesStrand pjCallId rest) := by
  apply Strand.Within.bind
  · cases found with
    | none =>
      apply Strand.within_plain
      exact bypasses_of_tame (tame_logEngine canLog_nil _ _) id pjCallId
    | some id' =>
      apply spares_recordStateStrand
      rintro rfl
      exact h rfl
  · exact fun _ ↦ .here rfl

/-- The route of a PJSIP call after a callback with the state `state` looked it up. -/
theorem lookup_unmap (T : CallTables) (pjCallId : Int) (state : CallState) :
    (T.unmap pjCallId state).callMap.lookup pjCallId =
      if state = .ended then none else T.callMap.lookup pjCallId := by
  unfold CallTables.unmap
  split
  · exact AList.lookup_erase _ _
  · rfl

/-- The step in which the worker thread records a state in the call. -/
theorem step_recordState (hworker : c.strands false =
      recordStateStrand state id >>= fun _ ↦ statesStrand pjCallId rest)
    (hs : c.step (false, e) = some c') :
    Proceeds id pjCallId rest (c'.strands false) ∧ c'.log = c.log ++ [(false, .recorded state)] ∧
      callStateOf id c'.state = (callStateOf id c.state).map (fun _ ↦ state) ∧
      c'.state.pjsipCallMap = c.state.pjsipCallMap := by
  rw [Pool.step_eq (m := (false, e)) hworker hs]
  refine ⟨?_, rfl, callStateOf_stateSection state id e c.state, route_stateSection state id e _⟩
  rw [Pool.advance_self]
  apply Strand.Within.bind
  · dsimp only
    split
    · exact spares_stopAfterEndStrand id
    · exact Strand.within_pure _
  · exact fun _ ↦ .here rfl

/-- A step of the worker thread towards its next look-up, or that look-up. -/
theorem step_proceeds (hworker : Proceeds id pjCallId rest (c.strands false))
    (hs : c.step (false, e) = some c') :
    (Proceeds id pjCallId rest (c'.strands false) ∧
      callStateOf id c'.state = callStateOf id c.state ∧
      c'.state.pjsipCallMap.lookup pjCallId = c.state.pjsipCallMap.lookup pjCallId ∧
      ∃ marks, c'.log = c.log ++ marks ∧
        ∀ x ∈ marks, x.1 = false ∧ ∀ state, x.2 ≠ .looked state) ∨
    ∃ state rest', rest = state :: rest' ∧ c'.log = c.log ++ [(false, .looked state)] ∧
      callStateOf id c'.state = callStateOf id c.state ∧ c'.state.pjsipCallMap.lookup pjCallId =
        (if state = .ended then none else c.state.pjsipCallMap.lookup pjCallId) ∧
      c'.strands false =
        answerStateStrand pjCallId state (c.state.pjsipCallMap.lookup pjCallId) >>= fun _ ↦
          statesStrand pjCallId rest' := by
  by_cases hnext : c.strands false = statesStrand pjCallId rest
  · cases rest with
    | nil =>
      have hdone : c.step (false, e) = none := Pool.step_done hnext
      rw [hdone] at hs
      cases hs
    | cons state rest' =>
      obtain ⟨hvalue, htables, -⟩ := run_routeState state pjCallId e c.state
      refine Or.inr ⟨state, rest', rfl, ?_⟩
      rw [Pool.step_eq (m := (false, e)) hnext hs]
      refine ⟨rfl, ?_, ?_, ?_⟩
      · have hcalls : (tables ((routeState state pjCallId).run e c.state).state).calls =
            c.state.calls := by
          rw [htables, CallTables.unmap_calls]
          rfl
        exact congrArg (fun calls : AList fun _ : UInt32 ↦ Call ↦ (calls.lookup id).map Call.state)
          hcalls
      · exact (congrArg (fun T : CallTables ↦ T.callMap.lookup pjCallId) htables).trans
          (lookup_unmap _ _ _)
      · rw [Pool.advance_self, hvalue]
        rfl
  · obtain ⟨hworker', ⟨t, hstate, hroute⟩, hmarks⟩ := Pool.step_within hworker hs hnext
    exact Or.inl ⟨hworker', hstate, hroute, hmarks⟩

end Worker

section Race

variable {pjCallId : Int} {id : UInt32} {states : List CallState} {c c' : CreationPool} {e : Env}

/-- How far the operation has come before it enters the PJSIP id. The state of the call `id` is
`known`. -/
inductive Opening (id : UInt32) (known : Option CallState) : CallStrand Unit → Prop
  | approaches {u : CallStrand Unit} (h : Approaches u) : Opening id known u
  | inserted {newId : UInt32} (pjCallId : Int) {rest : Unit → CallStrand Unit}
      (hknown : newId = id → known = some .ringing) (hrest : ∀ b, LeavesCalls (rest b)) :
      Opening id known (mapCallStrand pjCallId newId rest)

/-- The race of the creation of a call with its callbacks, by how far it has come. -/
inductive Creating (pjCallId : Int) (id : UInt32) (states : List CallState) (c : CreationPool) :
    Prop
  /-- No call is entered: callbacks do not find it. -/
  | unentered {rest : List CallState} (hlog : ∀ pjId newId, (true, .mapped pjId newId) ∉ c.log)
      (hroute : c.state.pjsipCallMap.lookup pjCallId ≠ some id)
      (hop : Opening id (callStateOf id c.state) (c.strands true)) (hrest : rest <:+ states)
      (hworker : Proceeds id pjCallId rest (c.strands false))
  /-- Another call is entered. -/
  | elsewhere (hlog : (true, .mapped pjCallId id) ∉ c.log) (hop : LeavesCalls (c.strands true))
  /-- The call is entered and has not ended. -/
  | tracked {heard rest : List CallState} {state : CallState}
      (hlog : (true, .mapped pjCallId id) ∈ c.log) (hop : LeavesCalls (c.strands true))
      (hlive : ¬ FoundIt pjCallId id .ended c.log)
      (hheard : (∀ state, ¬ FoundIt pjCallId id state c.log) ∧ state = .ringing ∨
        FoundIt pjCallId id state c.log ∧ heard.getLast? = some state)
      (hroute : c.state.pjsipCallMap.lookup pjCallId = some id)
      (hstate : callStateOf id c.state = some state) (hstates : states = heard ++ rest)
      (hworker : Proceeds id pjCallId rest (c.strands false))
  /-- A callback has found the call. -/
  | recording {heard rest : List CallState} {state : CallState}
      (hlog : (true, .mapped pjCallId id) ∈ c.log) (hop : LeavesCalls (c.strands true))
      (hlive : state ≠ .ended → ¬ FoundIt pjCallId id .ended c.log)
      (hheard : FoundIt pjCallId id state c.log)
      (hroute : c.state.pjsipCallMap.lookup pjCallId = if state = .ended then none else some id)
      (hstate : (callStateOf id c.state).isSome) (hstates : states = heard ++ state :: rest)
      (hworker : c.strands false =
        recordStateStrand state id >>= fun _ ↦ statesStrand pjCallId rest)
  /-- The call has ended. -/
  | ended {rest : List CallState} (hop : LeavesCalls (c.strands true))
      (hheard : FoundIt pjCallId id .ended c.log)
      (hroute : c.state.pjsipCallMap.lookup pjCallId ≠ some id)
      (hstate : callStateOf id c.state = some .ended)
      (hworker : Proceeds id pjCallId rest (c.strands false))

/-- Marks other than look-ups find no call. -/
theorem foundIt_append {marks : List (Bool × CallMark)} {log : List (Bool × CallMark)}
    (h : ∀ x ∈ marks, x.1 = false ∧ ∀ state, x.2 ≠ .looked state) (state : CallState) :
    FoundIt pjCallId id state (log ++ marks) ↔ FoundIt pjCallId id state log :=
  before_append_of_not_mem fun hmem ↦ (h _ hmem).2 state rfl

/-- A look-up once the call is entered finds it. -/
theorem foundIt_looked {log : List (Bool × CallMark)} (hlog : (true, .mapped pjCallId id) ∈ log)
    (state state' : CallState) : FoundIt pjCallId id state' (log ++ [(false, .looked state)]) ↔
      FoundIt pjCallId id state' log ∨ state' = state := by
  unfold FoundIt
  rw [before_concat]
  simp [hlog]

/-- Nothing is found before the call is entered. -/
theorem not_foundIt {log : List (Bool × CallMark)} (hlog : (true, .mapped pjCallId id) ∉ log)
    (state : CallState) : ¬ FoundIt pjCallId id state log :=
  fun h ↦ hlog (List.Sublist.mem List.mem_cons_self h)

/-- A step of the worker thread. -/
theorem creating_worker (h : Creating pjCallId id states c) (hs : c.step (false, e) = some c') :
    Creating pjCallId id states c' := by
  have hother : c'.strands true = c.strands true := Pool.step_other hs (by simp)
  cases h with
  | unentered hlog hroute hop hrest hworker =>
    rw [← hother] at hop
    rcases step_proceeds hworker hs with ⟨hworker', hstate', hroute', marks, hlog', hmarks⟩ |
      ⟨state, rest', rfl, hlog', hstate', hroute', hnext⟩
    · refine .unentered (fun pjId newId hmem ↦ ?_) (by rwa [hroute']) (by rwa [hstate']) hrest
        hworker'
      rw [hlog'] at hmem
      rcases List.mem_append.mp hmem with hmem | hmem
      · exact hlog pjId newId hmem
      · exact absurd (hmarks _ hmem).1 (by simp)
    · have hworker' : Proceeds id pjCallId rest' (c'.strands false) := by
        rw [hnext]
        exact proceeds_answerStateStrand hroute state rest'
      refine .unentered ?_ ?_ (by rwa [hstate']) ((List.suffix_cons _ _).trans hrest) hworker'
      · simpa [hlog'] using hlog
      · rw [hroute']
        split
        · simp
        · exact hroute
  | elsewhere hlog hop =>
    rw [← hother] at hop
    refine .elsewhere (fun hmem ↦ ?_) hop
    rcases Pool.step_log hs with hlog' | ⟨mark, hlog'⟩
    · rw [hlog'] at hmem
      exact hlog hmem
    · rw [hlog'] at hmem
      simp [hlog] at hmem
  | tracked hlog hop hlive hheard hroute hstate hstates hworker =>
    rw [← hother] at hop
    rcases step_proceeds hworker hs with ⟨hworker', hstate', hroute', marks, hlog', hmarks⟩ |
      ⟨state, rest', rfl, hlog', hstate', hroute', hnext⟩
    · have hfound (state : CallState) :
          FoundIt pjCallId id state c'.log ↔ FoundIt pjCallId id state c.log := by
        rw [hlog', foundIt_append hmarks]
      refine .tracked (by simp [hlog', hlog]) hop (by rwa [hfound]) ?_ (by rwa [hroute'])
        (by rwa [hstate']) hstates hworker'
      simpa only [hfound] using hheard
    · have hfound (state' : CallState) :
          FoundIt pjCallId id state' c'.log ↔
            FoundIt pjCallId id state' c.log ∨ state' = state := by
        rw [hlog', foundIt_looked hlog]
      refine .recording (by simp [hlog', hlog]) hop (fun hne ↦ ?_) ?_ ?_ (by simp [hstate', hstate])
        hstates ?_
      · rw [hfound]
        simp [hlive, Ne.symm hne]
      · simp [hfound]
      · rw [hroute', hroute]
      · rw [hnext, hroute]
        rfl
  | @recording heard rest state hlog hop hlive hheard hroute hstate hstates hworker =>
    rw [← hother] at hop
    obtain ⟨hworker', hlog', hstate', hmap⟩ := step_recordState hworker hs
    obtain ⟨old, hold⟩ := Option.isSome_iff_exists.mp hstate
    rw [hold, Option.map_some] at hstate'
    have hfound (state : CallState) :
        FoundIt pjCallId id state c'.log ↔ FoundIt pjCallId id state c.log := by
      rw [hlog', foundIt_append (by simp)]
    by_cases hended : state = .ended
    · subst hended
      refine .ended hop (by rwa [hfound]) ?_ hstate' hworker'
      rw [hmap, hroute]
      simp
    · have hlast : (heard ++ [state]).getLast? = some state := List.getLast?_concat
      refine .tracked (by simp [hlog', hlog]) hop ?_ (Or.inr ⟨?_, hlast⟩) ?_ hstate' ?_ hworker'
      · rw [hfound]
        exact hlive hended
      · rwa [hfound]
      · rw [hmap, hroute, if_neg hended]
      · rw [hstates, List.append_assoc]
        rfl
  | ended hop hheard hroute hstate hworker =>
    rw [← hother] at hop
    rcases step_proceeds hworker hs with ⟨hworker', hstate', hroute', marks, hlog', hmarks⟩ |
      ⟨state, rest', rfl, hlog', hstate', hroute', hnext⟩
    · refine .ended hop ?_ (by rwa [hroute']) (by rwa [hstate']) hworker'
      rw [hlog', foundIt_append hmarks]
      exact hheard
    · have hworker' : Proceeds id pjCallId rest' (c'.strands false) := by
        rw [hnext]
        exact proceeds_answerStateStrand hroute state rest'
      refine .ended hop ?_ ?_ (by rwa [hstate']) hworker'
      · rw [hlog']
        exact before_concat.mpr (Or.inl hheard)
      · rw [hroute']
        split
        · simp
        · exact hroute

/-- A step without a mark that leaves the tables alone. -/
theorem step_unmarked {T : CallStrand Unit → Prop}
    (hop : Strand.Within SameCalls (fun _ ↦ False) T (c.strands true))
    (hs : c.step (true, e) = some c') (hT : ¬ T (c.strands true)) :
    Strand.Within SameCalls (fun _ ↦ False) T (c'.strands true) ∧ c'.log = c.log ∧
      ∃ t, SameCalls c.state t c'.state := by
  obtain ⟨hop', hsame, marks, hlog, hmarks⟩ := Pool.step_within (m := (true, e)) hop hs hT
  have hnil : marks = [] := List.eq_nil_iff_forall_not_mem.mpr fun x hx ↦ (hmarks x hx).2
  rw [hnil, List.append_nil] at hlog
  exact ⟨hop', hlog, hsame⟩

/-- A step of the operation where it leaves calls alone. -/
theorem step_leavesCalls (hop : LeavesCalls (c.strands true)) (hs : c.step (true, e) = some c') :
    LeavesCalls (c'.strands true) ∧ c'.log = c.log ∧ ∃ t, SameCalls c.state t c'.state := by
  have hnext : ¬ ∃ a, c.strands true = .done a := by
    rintro ⟨a, ha⟩
    have hdone : c.step (true, e) = none := Pool.step_done ha
    rw [hdone] at hs
    cases hs
  exact step_unmarked hop hs hnext

/-- The step in which the operation enters the call in `CALLS`. -/
theorem step_enters {call : Call} {pjId : Int} {rest : Unit → CallStrand Unit}
    (hop : c.strands true = enterStrand call pjId rest) (hs : c.step (true, e) = some c') :
    c'.strands true = mapCallStrand pjId call.id rest ∧ c'.log = c.log ∧
      callStateOf call.id c'.state = some call.state ∧
      c'.state.pjsipCallMap = c.state.pjsipCallMap := by
  rw [Pool.step_eq (m := (true, e)) hop hs]
  refine ⟨Pool.advance_self, Pool.advance_log_none, ?_, rfl⟩
  have hinsert : (c.state.calls.insert call.id call).lookup call.id = some call :=
    AList.lookup_insert _
  exact congrArg (Option.map Call.state) hinsert

/-- The step in which the operation enters the call in `PJSIP_CALL_MAP`. -/
theorem step_maps {pjId : Int} {newId : UInt32} {rest : Unit → CallStrand Unit}
    (hop : c.strands true = mapCallStrand pjId newId rest) (hs : c.step (true, e) = some c') :
    c'.strands true = rest () ∧ c'.log = c.log ++ [(true, .mapped pjId newId)] ∧
      c'.state.calls = c.state.calls ∧ c'.state.pjsipCallMap.lookup pjId = some newId := by
  rw [Pool.step_eq (m := (true, e)) hop hs]
  exact ⟨Pool.advance_self, rfl, rfl, AList.lookup_insert _⟩

/-- A step of the operation. -/
theorem creating_operation (h : Creating pjCallId id states c) (hs : c.step (true, e) = some c') :
    Creating pjCallId id states c' := by
  have hother : c'.strands false = c.strands false := Pool.step_other hs (by simp)
  cases h with
  | unentered hlog hroute hop hrest hworker =>
    rw [← hother] at hworker
    generalize hu : c.strands true = u at hop
    cases hop with
    | approaches happroaches =>
      by_cases henters : Enters u
      · cases henters with
        | ended a =>
          have hdone : c.step (true, e) = none := Pool.step_done hu
          rw [hdone] at hs
          cases hs
        | enters call pjId hcall hleaves =>
          obtain ⟨hop', hlog', hstate', hmap⟩ := step_enters hu hs
          refine .unentered (by rwa [hlog']) (by rwa [hmap]) ?_ hrest hworker
          rw [hop']
          apply Opening.inserted pjId _ hleaves
          rintro rfl
          rw [hstate', hcall]
      · rw [← hu] at happroaches henters
        obtain ⟨hop', hlog', t, hsame⟩ := step_unmarked happroaches hs henters
        refine .unentered (by rwa [hlog']) ?_ (.approaches hop') hrest hworker
        rwa [hsame.2]
    | @inserted newId pjId rest' hknown hleaves =>
      obtain ⟨hop', hlog', hcalls, hroute'⟩ := step_maps hu hs
      have hop : LeavesCalls (c'.strands true) := by
        rw [hop']
        exact hleaves ()
      by_cases hsame : pjId = pjCallId ∧ newId = id
      · obtain ⟨rfl, rfl⟩ := hsame
        have hnone (state : CallState) : ¬ FoundIt pjId newId state c'.log := by
          rw [hlog', FoundIt, before_concat, not_or]
          exact ⟨not_foundIt (hlog pjId newId) state, by simp⟩
        obtain ⟨heard, hheard⟩ := hrest
        have hstate' : callStateOf newId c'.state = some .ringing := by
          unfold callStateOf
          rw [hcalls]
          exact hknown rfl
        exact .tracked (by simp [hlog']) hop (hnone _) (Or.inl ⟨hnone, rfl⟩) hroute' hstate'
          hheard.symm hworker
      · refine .elsewhere (fun hmem ↦ ?_) hop
        rw [hlog'] at hmem
        rcases List.mem_append.mp hmem with hmem | hmem
        · exact hlog pjCallId id hmem
        · simp only [List.mem_singleton, Prod.mk.injEq, CallMark.mapped.injEq, true_and] at hmem
          exact hsame ⟨hmem.1.symm, hmem.2.symm⟩
  | elsewhere hlog hop =>
    obtain ⟨hop', hlog', -⟩ := step_leavesCalls hop hs
    exact .elsewhere (by rwa [hlog']) hop'
  | tracked hlog hop hlive hheard hroute hstate hstates hworker =>
    rw [← hother] at hworker
    obtain ⟨hop', hlog', t, hsame⟩ := step_leavesCalls hop hs
    obtain ⟨hstate', hroute'⟩ := hsame.bypasses id pjCallId
    exact .tracked (by rwa [hlog']) hop' (by rwa [hlog']) (by rwa [hlog']) (by rwa [hroute'])
      (by rwa [hstate']) hstates hworker
  | recording hlog hop hlive hheard hroute hstate hstates hworker =>
    rw [← hother] at hworker
    obtain ⟨hop', hlog', t, hsame⟩ := step_leavesCalls hop hs
    obtain ⟨hstate', hroute'⟩ := hsame.bypasses id pjCallId
    exact .recording (by rwa [hlog']) hop' (by rwa [hlog']) (by rwa [hlog']) (by rwa [hroute'])
      (by rwa [hstate']) hstates hworker
  | ended hop hheard hroute hstate hworker =>
    rw [← hother] at hworker
    obtain ⟨hop', hlog', t, hsame⟩ := step_leavesCalls hop hs
    obtain ⟨hstate', hroute'⟩ := hsame.bypasses id pjCallId
    exact .ended hop' (by rwa [hlog']) (by rwa [hroute']) (by rwa [hstate']) hworker

/-- A worker thread with callbacks left is not done. -/
theorem Proceeds.eq_nil {rest : List CallState} {u : CallStrand Unit}
    (h : Proceeds id pjCallId rest u) (hdone : u.isDone = true) : rest = [] := by
  cases h with
  | here h =>
    cases rest with
    | nil => rfl
    | cons state rest =>
      rw [h] at hdone
      cases hdone
  | step hx hmark hk => cases hdone

/-- Once an operation that entered a call and the worker thread are done, the call has the state of
the last callback if and only if that is up to date: the callbacks looked the call up in time. -/
theorem call_update_iff {s : Engine} {operation : Creation} {invStates : List Int}
    {last : CallState} {ms : List (Bool × Env)}
    (hroute : s.pjsipCallMap.lookup pjCallId ≠ some id)
    (hlast : latest invCallState invStates = some last)
    (run : ms.foldlM Pool.step (creationRace s operation pjCallId invStates) = some c)
    (hdone : c.Finished) (hentered : (true, .mapped pjCallId id) ∈ c.log) :
    callStateOf id c.state = some last ↔ UpToDate pjCallId id last c.log := by
  have initial : Creating pjCallId id (invStates.filterMap invCallState)
      (creationRace s operation pjCallId invStates) := by
    refine .unentered (fun _ _ ↦ List.not_mem_nil) hroute (.approaches operation.approaches)
      (List.suffix_refl _) (.here ?_)
    exact stateWorkerStrand_eq pjCallId invStates
  have final : Creating pjCallId id (invStates.filterMap invCallState) c := by
    refine (Path.of_foldlM run).invariant initial fun c m c' h _ hs ↦ ?_
    obtain ⟨i, e⟩ := m
    cases i with
    | true => exact creating_operation h hs
    | false => exact creating_worker h hs
  unfold UpToDate
  cases final with
  | unentered hlog => exact absurd hentered (hlog pjCallId id)
  | elsewhere hlog => exact absurd hentered hlog
  | tracked _ _ hlive hheard _ hstate hstates hworker =>
    rw [hworker.eq_nil (hdone false), List.append_nil] at hstates
    rw [hstate, Option.some.injEq]
    rcases hheard with ⟨hnone, rfl⟩ | ⟨hfound, hheard⟩
    · simp [hnone, eq_comm]
    · have hstate : _ = last := Option.some.inj (hheard.symm.trans (hstates ▸ hlast))
      exact iff_of_true hstate (Or.inl ⟨⟨_, hfound⟩, fun h ↦ absurd h hlive⟩)
  | recording _ _ _ _ _ _ _ hworker =>
    have hnot := hdone false
    rw [hworker] at hnot
    cases hnot
  | ended _ hheard _ hstate _ =>
    rw [hstate, Option.some.injEq]
    constructor
    · rintro rfl
      exact Or.inl ⟨⟨_, hheard⟩, fun _ ↦ rfl⟩
    · rintro (⟨-, hlast⟩ | ⟨hnone, -⟩)
      · exact (hlast hheard).symm
      · exact absurd hheard (hnone _)

/-- A call from the signed-in account that PJSIP calls 0, and its `DISCONNECTED`. -/
def dialRace (s : Engine) : CreationPool :=
  creationRace s (.callStart (.obj [("account_id", .str "a"), ("uri", .str "sip:x@y")])) 0 [6]

/-- The command first, then the callback, as an instance. -/
theorem call_update_iff_inOrder :
    ∃ s c, signIn.foldlM engineStep Engine.initial = some s ∧
      ((List.replicate 10 true ++ [false, false, false]).map (·, quietEnv)).foldlM Pool.step
        (dialRace s) = some c ∧ callStateOf 1 c.state = some .ended := by
  have h : ((signIn.foldlM engineStep Engine.initial).bind fun s ↦
      (((List.replicate 10 true ++ [false, false, false]).map (·, quietEnv)).foldlM Pool.step
        (dialRace s)).map fun c ↦ (s.pjsipCallMap.lookup 0, (c.strands true).isDone,
          (c.strands false).isDone, c.log)) =
      some (none, true, true, [(true, .mapped 0 1), (false, .looked .ended),
        (false, .recorded .ended), (false, .ended false)]) := by decide
  obtain ⟨s, hs, hrun⟩ := Option.bind_eq_some_iff.mp h
  obtain ⟨c, hc, hv⟩ := Option.map_eq_some_iff.mp hrun
  simp only [Prod.mk.injEq] at hv
  obtain ⟨hroute, htrue, hfalse, hlog⟩ := hv
  have hdone : c.Finished := fun i ↦ by cases i <;> assumption
  have hentered : (true, .mapped 0 1) ∈ c.log := by
    rw [hlog]
    decide
  have hfound : FoundIt 0 1 .ended c.log := by
    rw [hlog]
    unfold FoundIt Before
    decide
  refine ⟨s, c, hs, hc, ?_⟩
  exact (call_update_iff (by simp [hroute]) rfl hc hdone hentered).mpr
    (Or.inl ⟨⟨.ended, hfound⟩, fun _ ↦ rfl⟩)

/-- A `DISCONNECTED` that comes between `pd_call_make` and the insertion into `PJSIP_CALL_MAP` is
lost: the call rings for ever. -/
theorem disconnected_lost :
    ∃ s c, signIn.foldlM engineStep Engine.initial = some s ∧
      ((List.replicate 6 true ++ [false, false] ++ List.replicate 4 true).map
        (·, quietEnv)).foldlM Pool.step (dialRace s) = some c ∧ c.Finished ∧
      s.pjsipCallMap.lookup 0 = none ∧ (true, .mapped 0 1) ∈ c.log ∧
      latest invCallState [6] = some .ended ∧ callStateOf 1 c.state = some .ringing := by
  have h : ((signIn.foldlM engineStep Engine.initial).bind fun s ↦
      (((List.replicate 6 true ++ [false, false] ++ List.replicate 4 true).map
        (·, quietEnv)).foldlM Pool.step (dialRace s)).map fun c ↦ (s.pjsipCallMap.lookup 0,
          (c.strands true).isDone && (c.strands false).isDone, c.log, callStateOf 1 c.state)) =
      some (none, true, [(false, .looked .ended), (true, .mapped 0 1)], some .ringing) := by
    decide
  obtain ⟨s, hs, hrun⟩ := Option.bind_eq_some_iff.mp h
  obtain ⟨c, hc, hv⟩ := Option.map_eq_some_iff.mp hrun
  simp only [Prod.mk.injEq] at hv
  obtain ⟨hroute, hboth, hlog, hstate⟩ := hv
  obtain ⟨htrue, hfalse⟩ := Bool.and_eq_true_iff.mp hboth
  refine ⟨s, c, hs, hc, fun i ↦ by cases i <;> assumption, hroute, ?_, rfl, hstate⟩
  rw [hlog]
  decide

end Race

end PacketDial.System
