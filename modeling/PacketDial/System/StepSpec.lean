import PacketDial.System.CallbackSpec
import PacketDial.System.TameOps

/-!
# What one step changes

The inversion of a step: every operation of the engine makes one of the changes that `Change`
lists. All invariants of runs are proved by cases on it.
-/

namespace PacketDial.System

open PacketDial.Core PacketDial.Lib

/-- The command that an entry point makes for the first call that satisfies `q`. -/
def commandOnFirst (i : Input) (s : Engine) (q : Call → Bool) (cmd : String)
    (rest : List (String × Json)) : Option (String × Json) :=
  if s.initialized then
    ((tables s).firstId i.env q).map fun id ↦ (cmd, .obj (("call_id", .ofU32 id) :: rest))
  else none

/-- The command, of those that can be on calls, that an input dispatches. -/
def commandOf (i : Input) (s : Engine) : Option (String × Json) :=
  match i.op with
  | .sendCommand cmdType payload =>
    if s.initialized then
      cmdType.toStr.bind fun cmd ↦ (payload.toStr.bind i.env.parseJson).map fun p ↦ (cmd, p)
    else none
  | .ipcLine _ line =>
    (i.env.parseJson line).map fun v ↦ ((v.get "type").asStr.getD "", v.get "payload")
  | .makeCall accountId number =>
    if s.initialized then
      accountId.toStr.bind fun accountId ↦ number.toStr.map fun number ↦
        ("CallStart", .obj [("account_id", .str accountId), ("uri", .str number)])
    else none
  | .hangup => commandOnFirst i s (·.isLive) "CallHangup" []
  | .answerCall => commandOnFirst i s (·.isRingingIncoming) "CallAnswer" []
  | .setMute muted => commandOnFirst i s (·.isLive) "CallMute" [("muted", .bool (muted ≠ 0))]
  | .setHold onHold => commandOnFirst i s (·.isLive) "CallHold" [("hold", .bool (onHold ≠ 0))]
  | .sendDtmf digits =>
    digits.toStr.bind fun digits ↦
      commandOnFirst i s (·.isLive) "CallSendDtmf" [("digits", .str digits)]
  | _ => none

/-- The PJSIP id of the record with an id. -/
def pjsipIdOf (T : CallTables) (id : UInt32) : Option Int :=
  (T.calls.lookup id).bind (·.pjsipCallId)

/-- A callback that is about a call that exists already. -/
def isCallCallback : Op → Bool
  | .onCallState _ invState => (invCallState invState).isSome
  | .onCallMedia .. => true
  | _ => false

/-- A tame operation is no such callback. -/
theorem isCallCallback_of_tameOp {op : Op} (h : tameOp op = true) :
    isCallCallback op = false := by
  cases op <;> first | rfl | cases h

/-- A tame operation dispatches no command on calls. -/
theorem commandOf_of_tameOp {i : Input} {s : Engine} (h : tameOp i.op = true) :
    commandOf i s = none := by
  unfold commandOf
  cases hop : i.op <;> first | rfl | (rw [hop] at h; cases h)

/-- What an input can do to the call tables. -/
inductive Change (i : Input) (s : Engine) : List CallAct → CallTables → Prop where
  | quiet (hop : isCallCallback i.op = false) (hcmd : commandOf i s = none) :
      Change i s [] (tables s)
  | command {cmd : String} {p : Json} {acts : List CallAct} {T : CallTables}
      (hcmd : commandOf i s = some (cmd, p))
      (h : CommandChange i.env cmd p (tables s) acts T) : Change i s acts T
  | startRecording {path : CPtr} {text : String} {id : UInt32} {T : CallTables}
      (hop : i.op = .startRecording path)
      (hid : (tables s).firstId i.env (·.isLive) = some id)
      (hT : RecordingChange id (tables s) T) :
      Change i s (((((tables s).calls.lookup id).bind fun call ↦ call.pjsipCallId.bind fun pjId ↦
        startRecordingOp i.env call pjId text).toList).map .op) T
  | stopRecording {id : UInt32} {T : CallTables} (hop : i.op = .stopRecording)
      (hid : (tables s).firstId i.env (·.isLive) = some id)
      (hT : RecordingChange id (tables s) T) :
      Change i s (((((tables s).calls.lookup id).bind fun call ↦ call.pjsipCallId.bind fun pjId ↦
        stopRecordingOp i.env call pjId).toList).map .op) T
  | transfer {callId pjId : Int} {destUri : CPtr} {text : String}
      (hop : i.op = .transferCall callId destUri)
      (hpj : pjsipIdOf (tables s) (i32AsU32 callId) = some pjId) :
      Change i s [.op (.pdCallTransfer pjId text)] (tables s)
  | consultFailed {callId pjId : Int} {destUri : CPtr} {text : String}
      (hop : i.op = .startAttendedXfer callId destUri)
      (hneg : i.env.rc (.pdCallStartAttendedXfer pjId text) < 0) :
      Change i s [.op (.pdCallStartAttendedXfer pjId text)] (tables s)
  | consult {callId pjId : Int} {destUri : CPtr} {text uri accountId : String}
      {report : CallAct}
      (hop : i.op = .startAttendedXfer callId destUri)
      (hpos : 0 ≤ i.env.rc (.pdCallStartAttendedXfer pjId text))
      (hreport : IsReport (newCall (tables s).nextCallId accountId uri .outgoing
        (i.env.rc (.pdCallStartAttendedXfer pjId text))) report) :
      Change i s [.op (.pdCallStartAttendedXfer pjId text), report]
        ((tables s).track (newCall (tables s).nextCallId accountId uri .outgoing
          (i.env.rc (.pdCallStartAttendedXfer pjId text)))
          (i.env.rc (.pdCallStartAttendedXfer pjId text)))
  | completeXfer {callA callB pjA pjB : Int} (hop : i.op = .completeXfer callA callB)
      (hA : pjsipIdOf (tables s) (i32AsU32 callA) = some pjA)
      (hB : pjsipIdOf (tables s) (i32AsU32 callB) = some pjB) :
      Change i s [.op (.pdCallCompleteXfer pjA pjB)] (tables s)
  | merge {callA callB pjA pjB : Int} (hop : i.op = .mergeConference callA callB)
      (hA : pjsipIdOf (tables s) (i32AsU32 callA) = some pjA)
      (hB : pjsipIdOf (tables s) (i32AsU32 callB) = some pjB) :
      Change i s [.op (.pdCallMergeConference pjA pjB)] (tables s)
  | shutdown (hop : i.op = .shutdown) (hinit : s.initialized = true) :
      Change i s [.op .pdShutdown] { tables s with callMap := ∅ }
  | incoming {pjAccId pjCallId : Int} {fromUri : CPtr} {accountId uri : String}
      {report : CallAct} (hop : i.op = .onIncomingCall pjAccId pjCallId fromUri)
      (hreport : IsReport (newCall (tables s).nextCallId accountId uri .incoming pjCallId)
        report) :
      Change i s [report]
        ((tables s).track (newCall (tables s).nextCallId accountId uri .incoming pjCallId)
          pjCallId)
  | state {pjCallId invState : Int} {newState : CallState} {acts : List CallAct}
      {T : CallTables} (hop : i.op = .onCallState pjCallId invState)
      (hstate : invCallState invState = some newState)
      (h : StateChange i.env pjCallId newState (tables s) acts T) : Change i s acts T
  | media {pjCallId active : Int} {acts : List CallAct} {T : CallTables}
      (hop : i.op = .onCallMedia pjCallId active)
      (h : MediaChange pjCallId active (tables s) acts T) : Change i s acts T

section Gates

variable {γ δ : Type} {v : View Engine Action γ δ} {e : Env} {s : Engine}
  {Q : Int → List δ → γ → Prop}

/-- The rule for the gate of the entry points. -/
theorem yields_whenInitialized {body : Eng Int}
    (hon : s.initialized = true → v.Yields body e s Q)
    (hoff : s.initialized = false → Q EngineErrorCode.notInitialized.code [] (v.state s)) :
    v.Yields (whenInitialized body) e s Q := by
  unfold whenInitialized
  refine View.yields_get_bind ?_
  split
  · next h => exact hon h
  · next h => exact View.yields_pure (hoff (Bool.not_eq_true _ ▸ h))

/-- The rule for a text argument. -/
theorem yields_withText {ptr : CPtr} {body : String → Eng Int}
    (hon : ∀ text, ptr.toStr = some text → v.Yields (body text) e s Q)
    (hoff : ptr.toStr = none → Q EngineErrorCode.invalidUtf8.code [] (v.state s)) :
    v.Yields (withText ptr body) e s Q := by
  unfold withText
  split
  · next text h => exact hon text h
  · next h => exact View.yields_pure (hoff h)

end Gates

section Rules

variable {e : Env} {s : Engine} {Q : Int → List CallAct → CallTables → Prop}

/-- The rule for an operation on the first live call. -/
theorem yields_onLiveCall {body : Call → Eng Int}
    (hon : ∀ call s₁, (tables s).firstId e (·.isLive) = some call.id → tables s₁ = tables s →
      callView.Yields (body call) e s₁ Q)
    (hoff : (tables s).firstId e (·.isLive) = none →
      Q EngineErrorCode.notFound.code [] (tables s)) :
    callView.Yields (onLiveCall body) e s Q := by
  unfold onLiveCall firstCall
  refine yields_seq (Q := fun found acts T ↦ found = ((tables s).values e).find? (·.isLive) ∧
    acts = [] ∧ T = tables s) (yields_withLock (yields_callValues_bind ⟨rfl, rfl, rfl⟩)) ?_
  rintro found acts s₁ ⟨hfound, rfl, hs₁⟩
  split
  · next call =>
    refine hon call s₁ ?_ hs₁
    unfold CallTables.firstId
    rw [← hfound]
    rfl
  · refine View.yields_pure ?_
    rw [show callView.state s₁ = _ from hs₁]
    apply hoff
    unfold CallTables.firstId
    rw [← hfound]
    rfl

end Rules

section Searches

variable {e : Env} {s : Engine}

/-- The record an `i32` names, as the transfers find it. -/
theorem yields_callById (hk : (tables s).Keyed) (callId : Int) :
    callView.Yields (callById callId) e s fun found acts T ↦
      found = (tables s).calls.lookup (i32AsU32 callId) ∧ acts = [] ∧ T = tables s := by
  unfold callById firstCall
  exact yields_withLock (yields_callValues_bind ⟨hk.find_id _ _, rfl, rfl⟩)

/-- The PJSIP ids of two calls, as the transfers and merges find them. -/
theorem yields_callPair (hk : (tables s).Keyed) (callA callB : Int) :
    callView.Yields (callPair callA callB) e s fun found acts T ↦
      found = ((pjsipIdOf (tables s) (i32AsU32 callA)).bind fun a ↦
        (pjsipIdOf (tables s) (i32AsU32 callB)).map fun b ↦ (a, b)) ∧
      acts = [] ∧ T = tables s := by
  unfold callPair
  refine yields_withLock (yields_callValues_bind ?_)
  simp only [hk.find_id]
  unfold pjsipIdOf
  split
  · next a b ha hb => exact View.yields_pure ⟨by simp [ha, hb], rfl, rfl⟩
  · next hnot =>
    refine View.yields_pure ⟨?_, rfl, rfl⟩
    cases ha : ((tables s).calls.lookup (i32AsU32 callA)).bind (·.pjsipCallId) with
    | none => rfl
    | some a =>
      cases hb : ((tables s).calls.lookup (i32AsU32 callB)).bind (·.pjsipCallId) with
      | none => rfl
      | some b => exact (hnot a b ha hb).elim

end Searches

section Steps

variable {i : Input} {s : Engine}

/-- A dispatched command is a change of the step that dispatches it. -/
theorem yields_dispatchCode (hk : (tables s).Keyed) {s₀ : Engine} (hs : tables s = tables s₀)
    {cmd : String} {p : Json} (hcmd : commandOf i s₀ = some (cmd, p)) :
    callView.Yields (dispatchCode cmd p) i.env s fun _ acts T ↦ Change i s₀ acts T := by
  unfold dispatchCode
  refine View.yields_map ((change_dispatchCommand hk cmd p).imp ?_)
  intro _ acts T h
  rw [hs] at h
  exact .command hcmd h

/-- The steps that make a command for the first live call. -/
theorem yields_commandOnLive (hk : (tables s).Keyed) (hop : isCallCallback i.op = false)
    (cmd : String) (rest : List (String × Json))
    (hcmd : commandOf i s = commandOnFirst i s (·.isLive) cmd rest) :
    callView.Yields (whenInitialized <| onLiveCall fun call ↦
      dispatchCode cmd (.obj (("call_id", .ofU32 call.id) :: rest))) i.env s
      fun _ acts T ↦ Change i s acts T := by
  refine yields_whenInitialized (fun hinit ↦ ?_) fun hinit ↦ .quiet hop ?_
  · refine yields_onLiveCall (fun call s₁ hid hs₁ ↦ ?_) fun hid ↦ .quiet hop ?_
    · refine yields_dispatchCode (by rwa [hs₁]) hs₁ ?_
      simp [hcmd, commandOnFirst, hinit, hid]
    · simp [hcmd, commandOnFirst, hid]
  · simp [hcmd, commandOnFirst, hinit]

/-- A quiet result of a step. -/
private theorem quiet_of {α : Type} {x : Eng α} (h : Traced.Admits Calm x)
    (hop : isCallCallback i.op = false) (hcmd : commandOf i s = none) :
    callView.Yields x i.env s fun _ acts T ↦ Change i s acts T :=
  View.yields_still h fun _ ↦ .quiet hop hcmd

/-- `engine_send_command` dispatches what it parses. -/
theorem yields_engineSendCommand (hk : (tables s).Keyed) {cmdType payload : CPtr}
    (hop : i.op = .sendCommand cmdType payload) :
    callView.Yields (engineSendCommand cmdType payload) i.env s
      fun _ acts T ↦ Change i s acts T := by
  have quiet (h : commandOf i s = none) : Change i s [] (tables s) := .quiet (by rw [hop]; rfl) h
  unfold engineSendCommand
  refine yields_withText (fun cmd hc ↦ yields_withText (fun text ht ↦ ?_) fun ht ↦ quiet ?_)
    fun hc ↦ quiet ?_
  · refine yields_whenInitialized (fun hinit ↦ View.yields_ask_bind ?_) fun hinit ↦ quiet ?_
    · split
      · next hp =>
        refine View.yields_pure (quiet ?_)
        simp [commandOf, hop, hc, ht, hp]
      · next p hp =>
        refine yields_dispatchCode hk rfl ?_
        simp [commandOf, hop, hinit, hc, ht, hp]
    · simp [commandOf, hop, hinit]
  · simp [commandOf, hop, hc, ht]
  · simp [commandOf, hop, hc]

/-- A line of an IPC client is dispatched when it parses. -/
theorem yields_ipcLine (hk : (tables s).Keyed) {client : Nat} {line : String}
    (hop : i.op = .ipcLine client line) :
    callView.Yields (Core.ipcLine client line) i.env s fun _ acts T ↦ Change i s acts T := by
  unfold Core.ipcLine
  refine View.yields_ask_bind ?_
  split
  · next hv => exact View.yields_pure (.quiet (by rw [hop]; rfl) (by simp [commandOf, hop, hv]))
  · next v hv =>
    dsimp only
    refine yields_seq (change_dispatchCommand hk _ _) fun r acts s₁ h ↦ ?_
    have change : Change i s acts (tables s₁) :=
      .command (by simp [commandOf, hop, hv]) h
    refine View.yields_still ?_ fun _ ↦ ?_
    · split
      · exact Traced.admits_emit fun _ ↦ ⟨rfl, rfl⟩
      · exact Traced.admits_pure _
    · rw [List.append_nil]
      exact change

/-- `engine_make_call` dispatches a `CallStart`. -/
theorem yields_engineMakeCall (hk : (tables s).Keyed) {accountId number : CPtr}
    (hop : i.op = .makeCall accountId number) :
    callView.Yields (engineMakeCall accountId number) i.env s
      fun _ acts T ↦ Change i s acts T := by
  have quiet (h : commandOf i s = none) : Change i s [] (tables s) := .quiet (by rw [hop]; rfl) h
  unfold engineMakeCall
  refine yields_withText (fun a ha ↦ yields_withText (fun n hn ↦ ?_) fun hn ↦ quiet ?_)
    fun ha ↦ quiet ?_
  · refine yields_whenInitialized (fun hinit ↦ ?_) fun hinit ↦ quiet ?_
    · refine yields_dispatchCode hk rfl ?_
      simp [commandOf, hop, hinit, ha, hn]
    · simp [commandOf, hop, hinit]
  · simp [commandOf, hop, ha, hn]
  · simp [commandOf, hop, ha]

/-- `engine_answer_call` answers the first call that rings. -/
theorem yields_engineAnswerCall (hk : (tables s).Keyed) (hop : i.op = .answerCall) :
    callView.Yields engineAnswerCall i.env s fun _ acts T ↦ Change i s acts T := by
  have quiet (h : commandOf i s = none) : Change i s [] (tables s) := .quiet (by rw [hop]; rfl) h
  unfold engineAnswerCall firstCall
  refine yields_whenInitialized (fun hinit ↦ ?_)
    fun hinit ↦ quiet (by simp [commandOf, hop, commandOnFirst, hinit])
  refine yields_seq (Q := fun found acts T ↦
    found = ((tables s).values i.env).find? (·.isRingingIncoming) ∧ acts = [] ∧ T = tables s)
    (yields_withLock (yields_callValues_bind ⟨rfl, rfl, rfl⟩)) ?_
  rintro found acts s₁ ⟨hfound, rfl, hs₁⟩
  split
  · refine yields_tame (?_ : Traced.Admits (Tame []) _) fun _ ↦ ?_
    · exact (tame_logEngine canLog_nil _ _).bind fun _ ↦ tame_pure _
    · rw [hs₁]
      apply quiet
      simp [commandOf, hop, commandOnFirst, CallTables.firstId, ← hfound]
  · next call =>
    dsimp only
    refine yields_tame_bind (tame_logEngine canLog_nil _ _) fun _ s₂ hs₂ ↦ ?_
    refine yields_tame_bind (tame_logEngine canLog_nil _ _) fun _ s₃ hs₃ ↦ ?_
    have hs : tables s₃ = tables s := hs₃.trans (hs₂.trans hs₁)
    have hcmd : commandOf i s = some ("CallAnswer", .obj [("call_id", .ofU32 call.id)]) := by
      simp [commandOf, hop, commandOnFirst, hinit, CallTables.firstId, ← hfound]
    refine yields_seq (change_dispatchCommand (by rwa [hs]) _ _) fun r acts s₄ h ↦ ?_
    rw [hs] at h
    have change : Change i s acts (tables s₄) := .command hcmd h
    refine yields_tame (?_ : Traced.Admits (Tame []) _) fun _ ↦ ?_
    · split
      · exact tame_pure _
      · exact (tame_logEngine canLog_nil _ _).bind fun _ ↦ tame_pure _
    · rw [List.nil_append, List.append_nil]
      exact change

/-- `engine_start_recording` starts a recording of the first live call. -/
theorem yields_engineStartRecording {filePath : CPtr} (hop : i.op = .startRecording filePath) :
    callView.Yields (engineStartRecording filePath) i.env s
      fun _ acts T ↦ Change i s acts T := by
  have quiet : Change i s [] (tables s) := .quiet (by rw [hop]; rfl) (by rw [commandOf, hop])
  unfold engineStartRecording
  split
  · exact View.yields_pure quiet
  · refine yields_whenInitialized (fun _ ↦ yields_withText (fun path _ ↦ ?_) fun _ ↦ quiet)
      fun _ ↦ quiet
    refine yields_onLiveCall (fun call s₁ hid hs₁ ↦ View.yields_map ?_) fun _ ↦ quiet
    refine (yields_startRecordingForCall call.id path).imp ?_
    rintro _ acts T ⟨rfl, hT⟩
    rw [hs₁] at hT ⊢
    exact .startRecording hop hid hT

/-- `engine_stop_recording` stops the recording of the first live call. -/
theorem yields_engineStopRecording (hop : i.op = .stopRecording) :
    callView.Yields engineStopRecording i.env s fun _ acts T ↦ Change i s acts T := by
  have quiet : Change i s [] (tables s) := .quiet (by rw [hop]; rfl) (by rw [commandOf, hop])
  unfold engineStopRecording
  refine yields_whenInitialized (fun _ ↦ ?_) fun _ ↦ quiet
  refine yields_onLiveCall (fun call s₁ hid hs₁ ↦ View.yields_map ?_) fun _ ↦ quiet
  refine (yields_stopRecordingForCall call.id).imp ?_
  rintro _ acts T ⟨rfl, hT⟩
  rw [hs₁] at hT ⊢
  exact .stopRecording hop hid hT

/-- Going on with the record an `i32` names. -/
theorem yields_callById_bind {β : Type} (hk : (tables s).Keyed) {callId : Int}
    {f : Option Call → Eng β} {R : β → List CallAct → CallTables → Prop}
    (h : ∀ s₁, tables s₁ = tables s →
      callView.Yields (f ((tables s).calls.lookup (i32AsU32 callId))) i.env s₁ R) :
    callView.Yields (callById callId >>= f) i.env s R := by
  refine yields_seq (yields_callById hk callId) ?_
  rintro found acts s₁ ⟨rfl, rfl, hs₁⟩
  exact h s₁ hs₁

/-- `engine_transfer_call` transfers the record it finds, whatever its state. -/
theorem yields_engineTransferCall (hk : (tables s).Keyed) {callId : Int} {destUri : CPtr}
    (hop : i.op = .transferCall callId destUri) :
    callView.Yields (engineTransferCall callId destUri) i.env s
      fun _ acts T ↦ Change i s acts T := by
  have quiet : Change i s [] (tables s) := .quiet (by rw [hop]; rfl) (by rw [commandOf, hop])
  unfold engineTransferCall
  refine yields_withText (fun text _ ↦ yields_whenInitialized (fun _ ↦ ?_) fun _ ↦ quiet)
    fun _ ↦ quiet
  refine yields_callById_bind hk fun s₁ hs₁ ↦ ?_
  split
  · next pjId hpj =>
    refine yields_shim rfl ?_
    rw [hs₁]
    exact .transfer hop hpj
  · refine View.yields_pure ?_
    rw [show callView.state s₁ = _ from hs₁]
    exact quiet

/-- `engine_start_attended_xfer` enters the consultation call that the shim makes. -/
theorem yields_engineStartAttendedXfer (hk : (tables s).Keyed) {callId : Int} {destUri : CPtr}
    (hop : i.op = .startAttendedXfer callId destUri) :
    callView.Yields (engineStartAttendedXfer callId destUri) i.env s
      fun _ acts T ↦ Change i s acts T := by
  have quiet : Change i s [] (tables s) := .quiet (by rw [hop]; rfl) (by rw [commandOf, hop])
  unfold engineStartAttendedXfer
  refine yields_withText (fun text _ ↦ yields_whenInitialized (fun _ ↦ ?_) fun _ ↦ quiet)
    fun _ ↦ quiet
  refine yields_callById_bind hk fun s₁ hs₁ ↦ ?_
  dsimp only
  split
  · refine View.yields_pure ?_
    rw [show callView.state s₁ = _ from hs₁]
    exact quiet
  · next pjId hpj =>
    split
    · refine View.yields_pure ?_
      rw [show callView.state s₁ = _ from hs₁]
      exact quiet
    · next dest _ =>
      refine yields_shim_bind rfl ?_
      split
      · next hneg =>
        refine View.yields_pure ?_
        rw [show callView.state s₁ = _ from hs₁]
        exact .consultFailed hop hneg
      · next hpos =>
        refine yields_fetchNextCallId_bind fun s₂ hs₂ ↦ ?_
        rw [hs₁] at hs₂ ⊢
        refine yields_trackCall_bind fun report s₃ hr hs₃ ↦ ?_
        refine yields_tame (?_ : Traced.Admits (Tame []) _) fun _ ↦ ?_
        · exact (tame_logEngine canLog_nil _ _).bind fun _ ↦ tame_pure _
        · rw [hs₃, hs₂]
          exact .consult hop (not_lt.mp hpos) hr

/-- Going on with the PJSIP ids of two calls. -/
theorem yields_callPair_bind {β : Type} (hk : (tables s).Keyed) {callA callB : Int}
    {f : Option (Int × Int) → Eng β} {R : β → List CallAct → CallTables → Prop}
    (hsome : ∀ a b s₁, pjsipIdOf (tables s) (i32AsU32 callA) = some a →
      pjsipIdOf (tables s) (i32AsU32 callB) = some b → tables s₁ = tables s →
      callView.Yields (f (some (a, b))) i.env s₁ R)
    (hnone : ∀ s₁, tables s₁ = tables s → callView.Yields (f none) i.env s₁ R) :
    callView.Yields (callPair callA callB >>= f) i.env s R := by
  refine yields_seq (yields_callPair hk callA callB) ?_
  rintro found acts s₁ ⟨rfl, rfl, hs₁⟩
  cases hA : pjsipIdOf (tables s) (i32AsU32 callA) with
  | none => exact hnone s₁ hs₁
  | some a =>
    cases hB : pjsipIdOf (tables s) (i32AsU32 callB) with
    | none => exact hnone s₁ hs₁
    | some b => exact hsome a b s₁ hA hB hs₁

/-- `engine_complete_xfer` names the two calls to the shim. -/
theorem yields_engineCompleteXfer (hk : (tables s).Keyed) {callA callB : Int}
    (hop : i.op = .completeXfer callA callB) :
    callView.Yields (engineCompleteXfer callA callB) i.env s
      fun _ acts T ↦ Change i s acts T := by
  have quiet : Change i s [] (tables s) := .quiet (by rw [hop]; rfl) (by rw [commandOf, hop])
  unfold engineCompleteXfer
  refine yields_whenInitialized (fun _ ↦ yields_callPair_bind hk ?_ ?_) fun _ ↦ quiet
  · intro a b s₁ ha hb hs₁
    refine yields_shim rfl ?_
    rw [hs₁]
    exact .completeXfer hop ha hb
  · intro s₁ hs₁
    refine View.yields_pure ?_
    rw [show callView.state s₁ = _ from hs₁]
    exact quiet

/-- `engine_merge_conference` names the two calls to the shim. -/
theorem yields_engineMergeConference (hk : (tables s).Keyed) {callA callB : Int}
    (hop : i.op = .mergeConference callA callB) :
    callView.Yields (engineMergeConference callA callB) i.env s
      fun _ acts T ↦ Change i s acts T := by
  have quiet : Change i s [] (tables s) := .quiet (by rw [hop]; rfl) (by rw [commandOf, hop])
  unfold engineMergeConference
  refine yields_whenInitialized (fun _ ↦ yields_callPair_bind hk ?_ ?_) fun _ ↦ quiet
  · intro a b s₁ ha hb hs₁
    refine yields_shim rfl ?_
    rw [hs₁]
    exact .merge hop ha hb
  · intro s₁ hs₁
    refine View.yields_pure ?_
    rw [show callView.state s₁ = _ from hs₁]
    exact quiet

/-- `engine_shutdown` empties the map of PJSIP ids. -/
theorem yields_engineShutdown (hop : i.op = .shutdown) :
    callView.Yields engineShutdown i.env s fun _ acts T ↦ Change i s acts T := by
  have quiet : Change i s [] (tables s) := .quiet (by rw [hop]; rfl) (by rw [commandOf, hop])
  unfold engineShutdown
  refine View.yields_get_bind ?_
  dsimp only
  refine View.yields_modify_bind ?_
  split
  · refine yields_tame (?_ : Traced.Admits (Tame []) _) fun _ ↦ quiet
    exact (tame_logEngine canLog_nil _ _).bind fun _ ↦ tame_pure _
  · next hinit =>
    refine yields_tame_bind (tame_logEngine canLog_nil _ _) fun _ s₁ hs₁ ↦ ?_
    refine yields_tame_bind
      (tame_withLock (by decide) (blind_modify (v := callView) (by intro; rfl)) :
      Traced.Admits (Tame []) _) fun _ s₂ hs₂ ↦ ?_
    have hs : tables s₂ = tables s := hs₂.trans hs₁
    refine yields_seq (Q := fun _ acts T ↦ acts = [] ∧ T = { tables s with callMap := ∅ })
      (yields_withLock ?_) ?_
    · unfold View.Yields
      rw [← hs]
      exact ⟨rfl, rfl⟩
    · rintro _ acts s₃ ⟨rfl, hs₃⟩
      refine yields_discard_shim_bind rfl (View.yields_pure ?_)
      rw [show callView.state s₃ = _ from hs₃]
      exact .shutdown hop (by simpa using hinit)

/-- The inversion of a step: an operation makes one of the changes that `Change` lists. -/
theorem change_op (hk : (tables s).Keyed) :
    callView.Yields i.op.run i.env s fun _ acts T ↦ Change i s acts T := by
  by_cases htame : tameOp i.op = true
  · exact quiet_of (calm_of_tame (tame_op htame)) (isCallCallback_of_tameOp htame)
      (commandOf_of_tameOp htame)
  · cases hop : i.op with
    | shutdown => exact View.yields_discard (yields_engineShutdown hop)
    | sendCommand cmdType payload =>
      exact View.yields_discard (yields_engineSendCommand hk hop)
    | register accountId user pass domain =>
      refine View.yields_discard (quiet_of (calm_engineRegister _ _ _ _) (by rw [hop]; rfl) ?_)
      rw [commandOf, hop]
    | makeCall accountId number => exact View.yields_discard (yields_engineMakeCall hk hop)
    | hangup =>
      refine View.yields_discard ?_
      exact yields_commandOnLive hk (by rw [hop]; rfl) _ [] (by simp [commandOf, hop])
    | answerCall => exact View.yields_discard (yields_engineAnswerCall hk hop)
    | setMute muted =>
      refine View.yields_discard ?_
      exact yields_commandOnLive hk (by rw [hop]; rfl) _ [_] (by simp [commandOf, hop])
    | setHold onHold =>
      refine View.yields_discard ?_
      exact yields_commandOnLive hk (by rw [hop]; rfl) _ [_] (by simp [commandOf, hop])
    | sendDtmf digits =>
      refine View.yields_discard (yields_withText (fun text ht ↦ ?_)
        fun ht ↦ .quiet (by rw [hop]; rfl) (by simp [commandOf, hop, ht]))
      exact yields_commandOnLive hk (by rw [hop]; rfl) _ [_] (by simp [commandOf, hop, ht])
    | startRecording filePath =>
      exact View.yields_discard (yields_engineStartRecording hop)
    | stopRecording => exact View.yields_discard (yields_engineStopRecording hop)
    | transferCall callId destUri =>
      exact View.yields_discard (yields_engineTransferCall hk hop)
    | startAttendedXfer callId destUri =>
      exact View.yields_discard (yields_engineStartAttendedXfer hk hop)
    | completeXfer callA callB => exact View.yields_discard (yields_engineCompleteXfer hk hop)
    | mergeConference callA callB =>
      exact View.yields_discard (yields_engineMergeConference hk hop)
    | ipcLine client line => exact yields_ipcLine hk hop
    | onIncomingCall pjAccId pjCallId fromUri =>
      refine (yields_pjsipOnIncomingCall pjAccId pjCallId fromUri).imp ?_
      rintro _ acts T (⟨rfl, rfl⟩ | ⟨accountId, uri, report, hr, rfl, rfl⟩)
      · exact .quiet (by rw [hop]; rfl) (by rw [commandOf, hop])
      · exact .incoming hop hr
    | onCallState pjCallId invState =>
      refine (yields_pjsipOnCallState pjCallId invState).imp ?_
      rintro _ acts T (⟨rfl, rfl, hnone⟩ | ⟨newState, hstate, h⟩)
      · refine .quiet ?_ (by rw [commandOf, hop])
        rw [hop, isCallCallback, hnone]
        rfl
      · exact .state hop hstate h
    | onCallMedia pjCallId active =>
      refine (yields_pjsipOnCallMedia pjCallId active).imp ?_
      intro _ acts T h
      exact .media hop h
    | _ => exact absurd (by rw [hop]; rfl) htame

end Steps

/-- A step makes one of the changes that `Change` lists. -/
theorem step_change {s s' : Engine} {i : Input} (hk : (tables s).Keyed)
    (h : engineStep s i = some s') :
    Change i s (i.acts s) (tables s') := by
  rw [engineStep_eq h]
  exact change_op hk

end PacketDial.System
