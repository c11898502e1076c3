import PacketDial.Lib.Utf8
import PacketDial.Shim.Microphone
import PacketDial.Shim.Recorders
import PacketDial.System.Edits

/-!
# The privacy of muted calls

The engine over the shim and PJSIP: the operations of the engine run the code of the shim on the
calls, the bridge and the recorders, and what the shim answers is what the engine gets. PJSIP
itself changes the streams of a call, after which it calls `on_call_media_state`. The microphone of
a muted call stays disconnected as long as no merge names the call, PJSIP grants the mutes, and no
unmute of a call that is gone hits a later one with its PJSIP id.
-/

namespace PacketDial.System

open PacketDial.Core PacketDial.Lib PacketDial.Shim

/-- What PJSIP answers: to the operations on calls, to those on recorders, and to the check before
a new call. -/
structure Answers where
  pjsua : PjsuaAnswers
  recorder : Pjsua
  mediaReady : Int

/-- What is below the engine: the calls and the bridge, and the recordings of the shim. -/
structure Board (n : Nat) where
  native : Native
  recording : Recording n

/-- The bridge after what was done for a recorder. -/
def bridgeAfter (acts : List NativeAct) (s : Native) : Native :=
  { s with edges := acts.foldl (fun edges act ↦ match act with
      | .confConnect source sink => insert (source, sink) edges
      | .confDisconnect source sink => edges.erase (source, sink)
      | .recorder _ => edges) s.edges }

/-- `pjsua_destroy` ends the calls and takes the bridge away. -/
def destroyed (s : Native) : Native :=
  { s with
    calls := fun id ↦ { s.calls id with live := false, media := [] }
    edges := ∅ }

namespace Board

variable {n : Nat}

/-- An operation on calls that answers `rc`. -/
def drive (b : Board n) (e : Answers) (rc : Int) (op : BridgeM Int) : Option (Board n) :=
  let out := op.run e.pjsua b.native
  if out.value = rc then some { b with native := out.state } else none

/-- An operation on recorders that answers `rc`. -/
def record (b : Board n) (e : Answers) (rc : Int) (op : ShimM n Int) : Option (Board n) :=
  let out := op.run e.recorder b.recording
  if out.value = rc then some ⟨bridgeAfter out.trace b.native, out.state⟩ else none

/-- A call of the shim that answers as `env` says. `pd_call_answer`, `pd_call_send_dtmf` and the end
of a hold change neither streams nor connections themselves. -/
def perform (b : Board n) (env : Env) (e : Answers) (call : ShimCall) : Option (Board n) :=
  match call with
  | .pdShutdown =>
    (b.record e (env.rc call) pdShutdown).map fun b ↦ { b with native := destroyed b.native }
  | .pdCallMake accId dstUri =>
    b.drive e (env.rc call) (pdCallMake e.mediaReady accId (utf8Bytes dstUri))
  | .pdCallHangup callId => b.drive e (env.rc call) (pjsua (.callHangup callId 0))
  | .pdCallHold callId true => b.drive e (env.rc call) (pjsua (.callSetHold callId))
  | .pdCallSetMute callId mute => b.drive e (env.rc call) (pdCallSetMute callId mute)
  | .pdCallTransfer callId destUri =>
    b.drive e (env.rc call) (pdCallTransfer callId (utf8Bytes destUri))
  | .pdCallStartAttendedXfer callId destUri =>
    b.drive e (env.rc call) (pdCallStartAttendedXfer callId (some (utf8Bytes destUri)))
  | .pdCallCompleteXfer callA callB => b.drive e (env.rc call) (pdCallCompleteXfer callA callB)
  | .pdCallMergeConference callA callB =>
    b.drive e (env.rc call) (pdCallMergeConference callA callB)
  | .pdCallStartRecording callId filePath =>
    b.record e (env.rc call) (pdCallStartRecording callId (some (utf8Bytes filePath)))
  | .pdCallStopRecording callId => b.record e (env.rc call) (pdCallStopRecording callId)
  | _ => some b

end Board

/-- The operations on calls among call actions. -/
def opsOf (acts : List CallAct) : List ShimCall :=
  acts.filterMap fun
    | .op call => some call
    | .changed _ => none

/-- The run calls `pd_init`. -/
def initsPjsip (trace : List Action) : Bool :=
  trace.any fun
    | .shim (.pdInit _) => true
    | _ => false

/-- The engine and what is below it. -/
structure Phone (n : Nat) where
  engine : Engine
  board : Board n

/-- Nothing has happened yet. -/
def Phone.initial (n : Nat) : Phone n where
  engine := Engine.initial
  board := ⟨⟨fun _ ↦ ⟨false, false, 0, [], []⟩, ∅, 0⟩, .static n⟩

/-- PJSIP changes the streams of a call; `edges` are the connections that are left. -/
def restream (callId : Int) (streams : List MediaStream) (edges : Finset (Int × Int))
    (s : Native) : Native :=
  { s.setCall callId fun call ↦ { call with media := streams } with edges := edges }

/-- What happens: an operation of the engine other than the media callback, PJSIP changes the
streams of a call and says so, or it takes them away when the call is over. -/
inductive PhoneInput where
  | operation (i : Input) (e : Answers)
  | mediaState (pjCallId : Int) (streams : List MediaStream) (edges : Finset (Int × Int))
      (env : Env) (e : Answers)
  | mediaGone (pjCallId : Int) (edges : Finset (Int × Int))

section Machine

variable {n : Nat}

/-- The recordings after an operation of the engine: only its start calls `pd_init`, and nothing
else of the shim with it that matters here. -/
def Board.afterInit (b : Board n) (e : Answers) (trace : List Action) : Board n :=
  if initsPjsip trace then
    { b with recording := ((pdInit : ShimM n Unit).run e.recorder b.recording).state }
  else b

/-- An operation of the engine, with what the shim makes of it. -/
def Phone.operate (x : Phone n) (i : Input) (e : Answers) : Option (Phone n) := do
  let engine ← engineStep x.engine i
  let board ← (opsOf (i.acts x.engine)).foldlM (fun b call ↦ b.perform i.env e call) x.board
  return ⟨engine, board.afterInit e (i.outcome x.engine).trace⟩

/-- The calls and the bridge are others. -/
def Phone.withNative (x : Phone n) (s : Native) : Phone n :=
  { x with board := { x.board with native := s } }

/-- One step. `on_call_media_state` ends in the media callback of the engine, if PJSIP lets it look
at the call. -/
def phoneStep (x : Phone n) : PhoneInput → Option (Phone n)
  | .operation i e => x.operate i e
  | .mediaState pjCallId streams edges env e =>
    let out := (onCallMediaState pjCallId).run e.pjsua
      (restream pjCallId streams edges x.board.native)
    match out.value with
    | none => some (x.withNative out.state)
    | some active => (x.withNative out.state).operate ⟨.onCallMedia pjCallId active, env⟩ e
  | .mediaGone pjCallId edges =>
    some (x.withNative (restream pjCallId [] edges x.board.native))

/-- The call with this id has that PJSIP id and is muted. -/
def MutedAt (T : CallTables) (id : UInt32) (pjCallId : Int) : Prop :=
  T.callMap.lookup pjCallId = some id ∧ ∃ call, T.calls.lookup id = some call ∧
    call.pjsipCallId = some pjCallId ∧ call.muted = true

/-- No active audio stream of a muted call is connected to the microphone. -/
def Phone.Private (x : Phone n) : Prop :=
  ∀ id pjCallId, MutedAt (tables x.engine) id pjCallId →
    ∀ slot ∈ (x.board.native.calls pjCallId).slots, (0, slot) ∉ x.board.native.edges

/-- The port of a new recorder is of no call. -/
def RecorderApart (e : Answers) (s : Native) : Prop :=
  ∀ recId ∈ e.recorder.recorderCreate, ∀ callId,
    e.recorder.recorderConfPort recId ∉ (s.calls callId).slots

/-- What PJSIP promises: it makes no connections itself, the port of an active audio stream is
positive and of no other call, and that of a new recorder is of no call. The media callback comes
from `on_call_media_state` only. -/
def Promised (x : Phone n) : PhoneInput → Prop
  | .operation i e =>
    (∀ pjCallId active, i.op ≠ .onCallMedia pjCallId active) ∧ RecorderApart e x.board.native
  | .mediaState pjCallId streams edges _ e =>
    let s := restream pjCallId streams edges x.board.native
    edges ⊆ x.board.native.edges ∧ RecorderApart e s ∧
      ∀ slot ∈ (s.calls pjCallId).slots, 0 < slot ∧
        ∀ callId ≠ pjCallId, slot ∉ (x.board.native.calls callId).slots
  | .mediaGone _ edges => edges ⊆ x.board.native.edges

/-- The input is a mute command for a call with a PJSIP id. -/
def MuteAsked (i : Input) (s : Engine) (id : UInt32) (pjCallId : Int) (mute : Bool) : Prop :=
  ∃ p call, commandOf i s = some ("CallMute", p) ∧
    commandTarget i.env (tables s) "CallMute" p = some id ∧ s.calls.lookup id = some call ∧
    call.pjsipCallId = some pjCallId ∧ (p.get "muted").asBool.getD true = mute

/-- The input is a merge of two calls with these PJSIP ids. -/
def MergeAsked (i : Input) (s : Engine) (pjA pjB : Int) : Prop :=
  ∃ callA callB, i.op = .mergeConference callA callB ∧
    pjsipIdOf (tables s) (i32AsU32 callA) = some pjA ∧
    pjsipIdOf (tables s) (i32AsU32 callB) = some pjB

/-- A mute of a call is granted for each stream that hears the microphone. -/
def MuteHeard (x : Phone n) (i : Input) (e : Answers) : Prop :=
  let s := x.board.native
  ∀ id pjCallId, MuteAsked i x.engine id pjCallId true →
    x.engine.pjsipCallMap.lookup pjCallId = some id →
      ∀ (k : Nat) slot, (s.calls pjCallId).slots[k]? = some slot → (0, slot) ∈ s.edges →
        MuteGranted e.pjsua s.answers k

/-- An unmute of a call whose PJSIP id another call has that is muted is not granted. -/
def UnmuteApart (x : Phone n) (i : Input) (e : Answers) : Prop :=
  let s := x.board.native
  ∀ id pjCallId, MuteAsked i x.engine id pjCallId false →
    ∀ id', MutedAt (tables x.engine) id' pjCallId → id' ≠ id →
      ∀ k < (s.calls pjCallId).slots.length, ¬MuteGranted e.pjsua s.answers k

/-- A merge does not come to connect the microphone with a muted call. -/
def MergeApart (x : Phone n) (i : Input) (e : Answers) : Prop :=
  let s := x.board.native
  ∀ pjA pjB, MergeAsked i x.engine pjA pjB → Merges e.pjsua s pjA pjB →
    (∀ id, MutedAt (tables x.engine) id pjA → e.pjsua.status (s.answers + 5) ≠ 0) ∧
    (∀ id, MutedAt (tables x.engine) id pjB → e.pjsua.status (s.answers + 7) ≠ 0)

/-- What keeps the microphone away from muted calls in a step: a mute, also the one that the media
callback makes again, is granted for each stream that hears the microphone, and no unmute and no
merge connects it. -/
def Careful (x : Phone n) : PhoneInput → Prop
  | .operation i e => MuteHeard x i e ∧ UnmuteApart x i e ∧ MergeApart x i e
  | .mediaState pjCallId streams edges _ e =>
    let s := restream pjCallId streams edges x.board.native
    let slots := (s.calls pjCallId).slots
    ∀ id, MutedAt (tables x.engine) id pjCallId →
      ∀ (k : Nat) slot, slots[k]? = some slot →
        (0, slot) ∈ edges ∨ e.pjsua.status s.answers = 0 ∧
          e.pjsua.status (s.answers + 2 + 2 * k) = 0 →
        e.pjsua.status s.answers = 0 ∧
          MuteGranted e.pjsua (s.answers + 1 + 2 * slots.length) k
  | .mediaGone .. => True

end Machine

section Tables

variable {T : CallTables} {id id' : UInt32} {pjCallId : Int} {old new : Call}

/-- Writing a record with the PJSIP id and the mute flag it had mutes no call. -/
theorem mutedAt_setCall (hl : T.calls.lookup id = some old)
    (hpj : new.pjsipCallId = old.pjsipCallId) (hmuted : new.muted = old.muted)
    (h : MutedAt (T.setCall id new) id' pjCallId) :
    MutedAt T id' pjCallId := by
  obtain ⟨hmap, call, hcall, hcallpj, hcallmuted⟩ := h
  refine ⟨hmap, ?_⟩
  by_cases hid : id' = id
  · subst hid
    rw [lookup_setCall] at hcall
    cases hcall
    exact ⟨old, hl, hpj.symm.trans hcallpj, hmuted.symm.trans hcallmuted⟩
  · rw [lookup_setCall_ne _ hid] at hcall
    exact ⟨call, hcall, hcallpj, hcallmuted⟩

/-- A new call is not muted, and mutes no other. -/
theorem mutedAt_track {call : Call} {pj : Int} (hcall : call.muted = false)
    (h : MutedAt (T.track call pj) id' pjCallId) : MutedAt T id' pjCallId := by
  obtain ⟨hmap, call', hl, hpj, hmuted⟩ := h
  have hid : id' ≠ call.id := by
    rintro rfl
    rw [CallTables.track, AList.lookup_insert] at hl
    cases hl
    rw [hcall] at hmuted
    cases hmuted
  have hne : pjCallId ≠ pj := by
    rintro rfl
    rw [CallTables.track, AList.lookup_insert] at hmap
    exact hid (Option.some.inj hmap).symm
  rw [CallTables.track, AList.lookup_insert_ne hne] at hmap
  rw [CallTables.track, AList.lookup_insert_ne hid] at hl
  exact ⟨hmap, call', hl, hpj, hmuted⟩

/-- Forgetting a PJSIP id mutes no call. -/
theorem mutedAt_unmap {pj : Int} {newState : CallState}
    (h : MutedAt (T.unmap pj newState) id' pjCallId) : MutedAt T id' pjCallId := by
  obtain ⟨hmap, call, hl, hpj, hmuted⟩ := h
  rw [CallTables.unmap_calls] at hl
  refine ⟨?_, call, hl, hpj, hmuted⟩
  unfold CallTables.unmap at hmap
  split at hmap
  · by_cases hne : pjCallId = pj
    · rw [hne, AList.lookup_erase] at hmap
      cases hmap
    · rwa [AList.lookup_erase_ne hne] at hmap
  · exact hmap

/-- The recording functions mute no call. -/
theorem mutedAt_recording {T' : CallTables} (hT : RecordingChange id T T')
    (h : MutedAt T' id' pjCallId) : MutedAt T id' pjCallId := by
  rcases hT with rfl | ⟨old, new, hl, hsame, rfl⟩
  · exact h
  · refine mutedAt_setCall hl hsame.pjsipCallId_eq ?_ h
    rw [hsame]

/-- A state callback keeps the mute flag. -/
theorem stateRecord_muted (newState : CallState) (now : Nat) (call : Call) :
    (stateRecord newState now call).muted = call.muted := by
  unfold stateRecord
  split
  · rfl
  · split
    · rw [settled_muted]
    · rfl

/-- A media callback keeps the mute flag. -/
theorem mediaRecord_muted (active : Int) (now : Nat) (call : Call) :
    (mediaRecord active now call).muted = call.muted := by
  unfold mediaRecord
  split
  · rfl
  · rw [settled_muted]

end Tables

/-- The operation can connect the microphone, or disconnect it. -/
def isMicOp : ShimCall → Bool
  | .pdCallSetMute .. | .pdCallMergeConference .. => true
  | _ => false

/-- What a step other than a media callback asks of the shim for the microphone, and which calls it
mutes. -/
inductive MicChange (i : Input) (s : Engine) : List ShimCall → CallTables → Prop where
  | silent {ops : List ShimCall} {T : CallTables} (hops : ∀ op ∈ ops, isMicOp op = false)
      (hT : ∀ id pj, MutedAt T id pj → MutedAt (tables s) id pj) : MicChange i s ops T
  | mute {id : UInt32} {pjCallId : Int} {mute : Bool} {T : CallTables}
      (hasked : MuteAsked i s id pjCallId mute)
      (hT : ∀ id' pj, MutedAt T id' pj → MutedAt (tables s) id' pj ∧ id' ≠ id ∨
        s.pjsipCallMap.lookup pjCallId = some id ∧ pj = pjCallId ∧ mute = true) :
      MicChange i s [.pdCallSetMute pjCallId mute] T
  | merge {pjA pjB : Int} (hasked : MergeAsked i s pjA pjB) :
      MicChange i s [.pdCallMergeConference pjA pjB] (tables s)

section Changes

variable {i : Input} {s : Engine} {acts : List CallAct} {T : CallTables}

/-- The operations among operations. -/
@[simp] theorem opsOf_ops (ops : List ShimCall) : opsOf (ops.map .op) = ops := by
  induction ops with
  | nil => rfl
  | cons op ops ih => exact congrArg (op :: ·) ih

/-- A report is no operation. -/
theorem opsOf_report {call : Call} {report : CallAct} (h : IsReport call report)
    (acts : List CallAct) : opsOf (report :: acts) = opsOf acts := by
  obtain ⟨_, _, _, rfl⟩ := h
  rfl

/-- Of the commands only a mute asks for the microphone. -/
theorem commandOp_mic {e : Env} {cmd : String} {p : Json} {call : Call} {pjId : Int}
    {op : ShimCall} (h : commandOp e cmd p call pjId = some op) (hmic : isMicOp op = true) :
    cmd = "CallMute" := by
  unfold commandOp at h
  split at h
  case h_3 => rfl
  case h_5 =>
    obtain ⟨text, -, rfl⟩ := Option.map_eq_some_iff.mp h
    cases hmic
  case h_6 =>
    obtain ⟨path, -, h⟩ := Option.bind_eq_some_iff.mp h
    unfold startRecordingOp at h
    split at h
    · obtain ⟨text, -, rfl⟩ := Option.map_eq_some_iff.mp h
      cases hmic
    · cases h
  case h_7 =>
    unfold stopRecordingOp at h
    split at h
    · cases h
      cases hmic
    · cases h
  all_goals
    cases h
    try cases hmic

/-- The operations of another command leave the microphone. -/
theorem commandOps_mic {e : Env} {cmd : String} {p : Json} (hne : cmd ≠ "CallMute") :
    ∀ op ∈ commandOps e T cmd p, isMicOp op = false := by
  intro op hop
  obtain ⟨_, _, _, -, -, -, hcmd⟩ := mem_commandOps.mp hop
  exact Bool.eq_false_iff.mpr fun hmic ↦ hne (commandOp_mic hcmd hmic)

/-- The operations of a mute command. -/
theorem commandOps_mute {e : Env} {p : Json} {id : UInt32} {call : Call}
    (hid : commandTarget e T "CallMute" p = some id) (hl : T.calls.lookup id = some call) :
    commandOps e T "CallMute" p =
      (call.pjsipCallId.map (.pdCallSetMute · ((p.get "muted").asBool.getD true))).toList := by
  unfold commandOps
  rw [hid, Option.bind_some, hl, Option.bind_some]
  cases call.pjsipCallId <;> rfl

/-- What a command asks of the shim for the microphone. -/
theorem micChange_of_command {cmd : String} {p : Json} (hcmd : commandOf i s = some (cmd, p))
    (h : CommandChange i.env cmd p (tables s) acts T) : MicChange i s (opsOf acts) T := by
  cases h with
  | idle hmissing =>
    rw [opsOf_ops]
    refine .silent ?_ fun _ _ h ↦ h
    by_cases hmute : cmd = "CallMute"
    · subst hmute
      have hnone := hmissing rfl
      have hops : commandOps i.env (tables s) "CallMute" p = [] := by
        unfold commandOps
        rw [hnone]
        rfl
      rw [hops]
      exact List.forall_mem_nil _
    · exact commandOps_mic hmute
  | burn _ hacts =>
    refine .silent ?_ fun _ _ h ↦ h
    rcases hacts with rfl | ⟨_, _, rfl, _⟩
    · exact List.forall_mem_nil _
    · exact List.forall_mem_singleton.mpr rfl
  | track _ _ hreport =>
    refine .silent ?_ fun _ _ h ↦ mutedAt_track rfl h
    obtain ⟨_, _, _, rfl⟩ := hreport
    exact List.forall_mem_singleton.mpr rfl
  | @mute id old report hmute hid hl hreport =>
    subst hmute
    have hops := commandOps_mute hid hl
    rw [opsOf_report hreport, opsOf_ops]
    have hafter (id' : UInt32) (pj : Int) (h : MutedAt ((tables s).setCall id
        { old with muted := (p.get "muted").asBool.getD true }) id' pj) :
        MutedAt (tables s) id' pj ∧ id' ≠ id ∨ (tables s).callMap.lookup pj = some id ∧
          old.pjsipCallId = some pj ∧ (p.get "muted").asBool.getD true = true := by
      obtain ⟨hmap, call, hcall, hpj, hmuted⟩ := h
      by_cases hid' : id' = id
      · subst hid'
        rw [lookup_setCall] at hcall
        cases hcall
        exact .inr ⟨hmap, hpj, hmuted⟩
      · rw [lookup_setCall_ne _ hid'] at hcall
        exact .inl ⟨⟨hmap, call, hcall, hpj, hmuted⟩, hid'⟩
    rcases Option.eq_none_or_eq_some old.pjsipCallId with hpj | ⟨pjId, hpj⟩
    · rw [hpj] at hops
      rw [hops]
      refine .silent (List.forall_mem_nil _) fun id' pj h ↦ ?_
      rcases hafter id' pj h with ⟨h, -⟩ | ⟨-, hpj', -⟩
      · exact h
      · rw [hpj] at hpj'
        cases hpj'
    · rw [hpj] at hops
      rw [hops]
      refine .mute ⟨p, old, hcmd, hid, hl, hpj, rfl⟩ fun id' pj h ↦ ?_
      rcases hafter id' pj h with h | ⟨hmap, hpj', hmuted⟩
      · exact .inl h
      · cases hpj.symm.trans hpj'
        exact .inr ⟨hmap, rfl, hmuted⟩
  | hold hhold _ hl hreport =>
    rw [opsOf_report hreport, opsOf_ops]
    refine .silent (commandOps_mic ?_) fun _ _ h ↦
      mutedAt_setCall hl (heldRecord_pjsipCallId _ _ _) (heldRecord_muted _ _ _) h
    rw [hhold]
    decide
  | record hrec _ hl hsame =>
    rw [opsOf_ops]
    refine .silent (commandOps_mic ?_) fun _ _ h ↦ mutedAt_recording (.inr ⟨_, _, hl, hsame, rfl⟩) h
    rcases hrec with rfl | rfl <;> decide

/-- The start of a recording leaves the microphone. -/
theorem startRecordingOp_mic {call : Call} {pjId : Int} {path : String} {op : ShimCall}
    (h : startRecordingOp i.env call pjId path = some op) : isMicOp op = false := by
  unfold startRecordingOp at h
  split at h
  · obtain ⟨text, -, rfl⟩ := Option.map_eq_some_iff.mp h
    rfl
  · cases h

/-- Its end leaves the microphone. -/
theorem stopRecordingOp_mic {call : Call} {pjId : Int} {op : ShimCall}
    (h : stopRecordingOp i.env call pjId = some op) : isMicOp op = false := by
  unfold stopRecordingOp at h
  split at h
  · cases h
    rfl
  · cases h

/-- What any other step asks of the shim for the microphone. -/
theorem micChange_of_change (hmedia : ∀ pjCallId active, i.op ≠ .onCallMedia pjCallId active)
    (h : Change i s acts T) : MicChange i s (opsOf acts) T := by
  have same : ∀ id pj, MutedAt (tables s) id pj → MutedAt (tables s) id pj := fun _ _ h ↦ h
  cases h with
  | quiet => exact .silent (List.forall_mem_nil _) same
  | command hcmd h => exact micChange_of_command hcmd h
  | startRecording _ _ hT =>
    rw [opsOf_ops]
    refine .silent (fun op hop ↦ ?_) fun _ _ ↦ mutedAt_recording hT
    obtain ⟨call, -, hop⟩ := Option.bind_eq_some_iff.mp (Option.mem_toList.mp hop)
    obtain ⟨pjId, -, hop⟩ := Option.bind_eq_some_iff.mp hop
    exact startRecordingOp_mic hop
  | stopRecording _ _ hT =>
    rw [opsOf_ops]
    refine .silent (fun op hop ↦ ?_) fun _ _ ↦ mutedAt_recording hT
    obtain ⟨call, -, hop⟩ := Option.bind_eq_some_iff.mp (Option.mem_toList.mp hop)
    obtain ⟨pjId, -, hop⟩ := Option.bind_eq_some_iff.mp hop
    exact stopRecordingOp_mic hop
  | transfer => exact .silent (List.forall_mem_singleton.mpr rfl) same
  | consultFailed => exact .silent (List.forall_mem_singleton.mpr rfl) same
  | consult _ _ hreport =>
    obtain ⟨_, _, _, rfl⟩ := hreport
    exact .silent (List.forall_mem_singleton.mpr rfl) fun _ _ ↦ mutedAt_track rfl
  | completeXfer => exact .silent (List.forall_mem_singleton.mpr rfl) same
  | merge hop hA hB => exact .merge ⟨_, _, hop, hA, hB⟩
  | shutdown =>
    refine .silent (List.forall_mem_singleton.mpr rfl) fun _ _ h ↦ ?_
    obtain ⟨hmap, -⟩ := h
    cases hmap
  | incoming _ hreport =>
    obtain ⟨_, _, _, rfl⟩ := hreport
    exact .silent (List.forall_mem_nil _) fun _ _ ↦ mutedAt_track rfl
  | state _ _ h =>
    cases h with
    | unrouted => exact .silent (List.forall_mem_nil _) fun _ _ ↦ mutedAt_unmap
    | routed hmap hl hreport hstop =>
      obtain ⟨⟨ops, rfl, hops⟩, hT⟩ := hstop
      rw [opsOf_report hreport, opsOf_ops]
      refine .silent (fun op hop ↦ ?_) fun _ _ h ↦ ?_
      · obtain ⟨call, pjId, -, -, hop⟩ := hops op hop
        exact stopRecordingOp_mic hop
      · rw [← CallTables.unmap_calls] at hl
        exact mutedAt_unmap (mutedAt_setCall hl (stateRecord_pjsipCallId _ _ _)
          (stateRecord_muted _ _ _) (mutedAt_recording hT h))
  | media hop _ => exact absurd hop (hmedia _ _)

/-- A media callback makes the change of a media callback. -/
theorem mediaChange_of_change {pjCallId active : Int} (hop : i.op = .onCallMedia pjCallId active)
    (h : Change i s acts T) : MediaChange pjCallId active (tables s) acts T := by
  have hcommand (c : String × Json) : commandOf i s ≠ some c := by
    rw [commandOf, hop]
    exact fun h ↦ by cases h
  cases h with
  | quiet hquiet =>
    rw [hop] at hquiet
    cases hquiet
  | command hcmd => exact absurd hcmd (hcommand _)
  | media hop' h =>
    cases hop.symm.trans hop'
    exact h
  | _ hop' => cases hop.symm.trans hop'

/-- The operations of a media callback on a call of the engine. -/
theorem opsOf_media {ops : List ShimCall} {call : Call} {report : CallAct}
    (hreport : IsReport call report) : opsOf (ops.map .op ++ [report]) = ops := by
  obtain ⟨_, _, _, rfl⟩ := hreport
  rw [opsOf, List.filterMap_append]
  exact (List.append_nil _).trans (opsOf_ops ops)

end Changes

section Recorders

variable {n : Nat} {e : Pjsua} {s : Recording n} {source sink : Int}

/-- What is done for a recorder connects nothing. -/
def ConnectsNothing (act : NativeAct) : Prop := ∀ source sink, act ≠ .confConnect source sink

/-- Destroying a recorder connects nothing. -/
theorem performs_destroyIfValid (id : Int) :
    Traced.Admits (Traced.Performs ConnectsNothing) (destroyIfValid id : ShimM n Unit) := by
  unfold destroyIfValid recorderDestroy
  refine Traced.admits_ite (Traced.admits_emit fun _ ↦ ?_) (Traced.admits_pure ())
  exact List.forall_mem_singleton.mpr fun _ _ h ↦ by cases h

/-- Disconnecting one connects nothing. -/
theorem performs_disconnect (source sink : Int) :
    Traced.Admits (Traced.Performs ConnectsNothing)
      (Traced.emit (.confDisconnect source sink) : ShimM n Unit) :=
  Traced.admits_emit fun _ ↦ List.forall_mem_singleton.mpr fun _ _ h ↦ by cases h

/-- Updating the arrays connects nothing. -/
theorem performs_modify (f : Recording n → Recording n) :
    Traced.Admits (Traced.Performs ConnectsNothing) (Traced.modify f : ShimM n Unit) :=
  Traced.admits_modify fun _ ↦ List.forall_mem_nil _

/-- The end of a recording connects nothing. -/
theorem performs_stop (callId : Int) :
    Traced.Admits (Traced.Performs ConnectsNothing) (pdCallStopRecording callId : ShimM n Int) := by
  unfold pdCallStopRecording disconnectRecorder
  split
  · exact Traced.admits_pure _
  · next i _ =>
    refine Traced.admits_get.bind fun s ↦ Traced.admits_ite (Traced.admits_pure _) ?_
    refine Traced.admits_ask.bind fun pjsua ↦ Traced.Admits.bind ?_ fun _ ↦ ?_
    · refine Traced.admits_ite ?_ (Traced.admits_pure ())
      by_cases hcall : pjsua.callConfPort callId ≠ invalidId
      · rw [if_pos hcall]
        exact (performs_disconnect _ _).bind fun _ ↦ performs_disconnect _ _
      · rw [if_neg hcall]
        exact (Traced.admits_pure ()).bind fun _ ↦ performs_disconnect _ _
    · refine (performs_destroyIfValid _).bind fun _ ↦ ?_
      exact (performs_modify _).bind fun _ ↦ Traced.admits_pure _

/-- The shutdown of the recorders connects nothing. -/
theorem performs_shutdown :
    Traced.Admits (Traced.Performs ConnectsNothing) (pdShutdown : ShimM n Int) := by
  unfold pdShutdown pdResetRecordingState
  refine Traced.admits_get.bind fun s ↦ ?_
  refine (Traced.admits_each (fun i ↦ performs_destroyIfValid _) _).bind fun _ ↦ ?_
  exact (performs_modify _).bind fun _ ↦ Traced.admits_ask.bind fun _ ↦ Traced.admits_pure _

/-- The start of a recording connects with the port of the new recorder only. -/
theorem sink_start {callId : Int} {filePath : Option (List UInt8)}
    (h : .confConnect source sink ∈ ((pdCallStartRecording callId filePath).run e s).trace) :
    ∃ recId ∈ e.recorderCreate, sink = e.recorderConfPort recId := by
  unfold pdCallStartRecording startRecorder recorderDestroy at h
  split at h
  · cases h
  · cases h
  · cases h
  · next i path _ _ =>
    by_cases hidle : s.isRecording i = 0
    swap
    · simp [hidle] at h
    by_cases hinfo : e.callGetInfo callId = true
    swap
    · simp [hidle, hinfo] at h
    by_cases hport : e.callConfPort callId = invalidId
    · simp [hidle, hinfo, hport] at h
    cases hcreate : e.recorderCreate with
    | none => simp [hidle, hinfo, hport, hcreate] at h
    | some recId =>
      refine ⟨recId, rfl, ?_⟩
      by_cases hslot : e.recorderConfPort recId = invalidId
      · simp [hidle, hinfo, hport, hcreate, hslot] at h
      by_cases hcall : e.connectCall = true
      swap
      · simp [hidle, hinfo, hport, hcreate, hslot, hcall] at h
      by_cases hmic : e.connectMic = true
      · simp [hidle, hinfo, hport, hcreate, hslot, hcall, hmic] at h
        rcases h with ⟨-, h⟩ | ⟨-, h⟩
        · exact h
        · exact h
      · simp [hidle, hinfo, hport, hcreate, hslot, hcall, hmic] at h
        exact h.2

/-- A new connection of the bridge was made for a recorder. -/
theorem edges_bridgeAfter {acts : List NativeAct} {b : Native}
    (h : (source, sink) ∈ (bridgeAfter acts b).edges) :
    (source, sink) ∈ b.edges ∨ .confConnect source sink ∈ acts := by
  induction acts using List.reverseRecOn with
  | nil => exact .inl h
  | append_singleton acts act ih =>
    unfold bridgeAfter at h ih
    dsimp only at h ih
    rw [List.foldl_concat] at h
    rw [List.mem_append, List.mem_singleton]
    cases act with
    | recorder entry => exact (ih h).imp_right .inl
    | confConnect source' sink' =>
      rcases Finset.mem_insert.mp h with heq | h
      · cases heq
        exact .inr (.inr rfl)
      · exact (ih h).imp_right .inl
    | confDisconnect source' sink' =>
      exact (ih (Finset.mem_of_mem_erase h)).imp_right .inl

end Recorders

section Boards

variable {n : Nat} {b b' : Board n} {env : Env} {e : Answers} {rc : Int}

/-- An operation on calls leaves what it leaves. -/
theorem native_drive (op : BridgeM Int) (h : b.drive e rc op = some b') :
    b'.native = (op.run e.pjsua b.native).state := by
  unfold Board.drive at h
  dsimp only at h
  split at h
  · cases h
    rfl
  · cases h

/-- An operation on calls that does not connect the microphone is quiet. -/
theorem quiet_drive {op : BridgeM Int} (hop : ShutsMic op) (h : b.drive e rc op = some b') :
    Quiet b.native b'.native := by
  rw [native_drive _ h]
  exact hop.quiet _ _

/-- An operation on recorders is quiet if it connects no call. -/
theorem quiet_record {op : ShimM n Int} (h : b.record e rc op = some b')
    (hop : ∀ sink callId, .confConnect 0 sink ∈ (op.run e.recorder b.recording).trace →
      sink ∉ (b.native.calls callId).slots) : Quiet b.native b'.native := by
  unfold Board.record at h
  dsimp only at h
  split at h
  · cases h
    refine ⟨fun _ ↦ List.Subset.refl _, fun callId slot hslot hmic ↦ ?_⟩
    rcases edges_bridgeAfter hmic with hmic | hmem
    · exact hmic
    · exact absurd hslot (hop slot callId hmem)
  · cases h

/-- An operation on recorders that connects nothing. -/
theorem quiet_record_nothing {op : ShimM n Int} (h : b.record e rc op = some b')
    (hop : Traced.Admits (Traced.Performs ConnectsNothing) op) : Quiet b.native b'.native := by
  refine quiet_record h fun sink _ hmem ↦ ?_
  exact absurd rfl (hop.run e.recorder b.recording _ hmem 0 sink)

/-- An operation of the shim that leaves the microphone is quiet, and a mute is. -/
theorem quiet_perform {call : ShimCall}
    (hmic : isMicOp call = false ∨ ∃ pjCallId, call = .pdCallSetMute pjCallId true)
    (hport : RecorderApart e b.native)
    (h : b.perform env e call = some b') : Quiet b.native b'.native := by
  unfold Board.perform at h
  split at h
  · obtain ⟨b₁, hrecord, rfl⟩ := Option.map_eq_some_iff.mp h
    refine (quiet_record_nothing hrecord performs_shutdown).trans ⟨fun _ ↦ List.nil_subset _, ?_⟩
    intro callId slot hslot
    cases hslot
  · exact quiet_drive (shutsMic_make _ _ _) h
  · exact quiet_drive (shutsMic_pjsua rfl) h
  · exact quiet_drive (shutsMic_pjsua rfl) h
  · next pjCallId mute =>
    rcases hmic with hmic | ⟨_, heq⟩
    · cases hmic
    · cases heq
      rw [native_drive _ h]
      exact quiet_mute
  · exact quiet_drive (shutsMic_transfer _ _) h
  · exact quiet_drive (shutsMic_startAttendedXfer _ _) h
  · exact quiet_drive (shutsMic_completeXfer _ _) h
  · rcases hmic with hmic | ⟨_, heq⟩
    · cases hmic
    · cases heq
  · refine quiet_record h fun sink callId hmem ↦ ?_
    obtain ⟨recId, hrec, rfl⟩ := sink_start hmem
    exact hport recId hrec callId
  · exact quiet_record_nothing h (performs_stop _)
  · cases h
    exact .refl _

/-- Such operations one after the other. -/
theorem quiet_performs {ops : List ShimCall}
    (hops : ∀ op ∈ ops, isMicOp op = false ∨ ∃ pjCallId, op = .pdCallSetMute pjCallId true)
    (hport : RecorderApart e b.native)
    (h : ops.foldlM (fun b call ↦ b.perform env e call) b = some b') :
    Quiet b.native b'.native := by
  induction ops generalizing b with
  | nil =>
    cases h
    exact .refl _
  | cons op ops ih =>
    obtain ⟨hop, hops⟩ := List.forall_mem_cons.mp hops
    rw [List.foldlM_cons] at h
    obtain ⟨b₁, hfirst, h⟩ := Option.bind_eq_some_iff.mp h
    have hquiet := quiet_perform hop hport hfirst
    refine hquiet.trans (ih hops (fun recId hrec callId hslot ↦ ?_) h)
    exact hport recId hrec callId (hquiet.slots callId hslot)

end Boards

/-- The ports of active audio streams are positive, and no two calls share one. -/
def Apart (s : Native) : Prop :=
  ∀ callId, ∀ slot ∈ (s.calls callId).slots, 0 < slot ∧
    ∀ other ≠ callId, slot ∉ (s.calls other).slots

/-- The invariant of the runs. -/
structure Sealed {n : Nat} (x : Phone n) : Prop where
  keyed : (tables x.engine).Keyed
  apart : Apart x.board.native
  hidden : x.Private

section Steps

variable {n : Nat} {x x' : Phone n} {s s' : Native} {i : Input} {e : Answers}

/-- Ports stay apart where no call gets another stream. -/
theorem Apart.of_slots (h : Apart s)
    (hslots : ∀ callId, (s'.calls callId).slots ⊆ (s.calls callId).slots) : Apart s' := by
  intro callId slot hslot
  obtain ⟨hpos, hother⟩ := h callId slot (hslots callId hslot)
  exact ⟨hpos, fun other hne hmem ↦ hother other hne (hslots other hmem)⟩

/-- Two calls with one port are one. -/
theorem Apart.eq (h : Apart s) {callId other slot : Int} (hslot : slot ∈ (s.calls callId).slots)
    (hslot' : slot ∈ (s.calls other).slots) : other = callId := by
  by_contra hne
  exact (h callId slot hslot).2 other hne hslot'

/-- The port of a call is not the microphone. -/
theorem Apart.port_ne (h : Apart s) (callId : Int) : (s.calls callId).port ≠ 0 := by
  intro hzero
  have hport : (s.calls callId).port ≠ noPort := by
    rw [hzero]
    decide
  have hpos := (h callId _ (port_mem_slots hport)).1
  omega

/-- An operation of the engine is a step of it, with what the shim makes of it. -/
theorem operate_eq (h : x.operate i e = some x') : engineStep x.engine i = some x'.engine ∧
    ∃ b : Board n, (opsOf (i.acts x.engine)).foldlM (fun b call ↦ b.perform i.env e call) x.board =
      some b ∧ x'.board.native = b.native := by
  unfold Phone.operate at h
  obtain ⟨engine, hengine, h⟩ := Option.bind_eq_some_iff.mp h
  obtain ⟨b, hboard, h⟩ := Option.bind_eq_some_iff.mp h
  cases h
  refine ⟨hengine, b, hboard, ?_⟩
  unfold Board.afterInit
  dsimp only
  split <;> rfl

/-- A quiet step that mutes no call leaves the microphone away from muted calls. -/
theorem private_of_quiet (hquiet : Quiet x.board.native x'.board.native) (hx : x.Private)
    (hT : ∀ id pj, MutedAt (tables x'.engine) id pj → MutedAt (tables x.engine) id pj) :
    x'.Private := fun id pj hmuted slot hslot hmic ↦
  hx id pj (hT id pj hmuted) slot (hquiet.slots pj hslot) (hquiet.mic pj slot hslot hmic)

/-- The one operation of a step. -/
theorem native_single {env : Env} {b b' : Board n} {call : ShimCall} (op : BridgeM Int)
    (h : [call].foldlM (fun b call ↦ b.perform env e call) b = some b')
    (hop : b.perform env e call = b.drive e (env.rc call) op) :
    b'.native = (op.run e.pjsua b.native).state := by
  rw [List.foldlM_cons] at h
  obtain ⟨b₁, hfirst, h⟩ := Option.bind_eq_some_iff.mp h
  cases h
  exact native_drive op (hop.symm.trans hfirst)

/-- A mute command keeps the microphone away from muted calls. -/
theorem private_mute (hx : Sealed x) (hheard : MuteHeard x i e) {id : UInt32} {pjCallId : Int}
    (hasked : MuteAsked i x.engine id pjCallId true)
    (hT : ∀ id' pj, MutedAt (tables x'.engine) id' pj → MutedAt (tables x.engine) id' pj ∨
      x.engine.pjsipCallMap.lookup pjCallId = some id ∧ pj = pjCallId)
    (hnative : x'.board.native = ((pdCallSetMute pjCallId true).run e.pjsua x.board.native).state) :
    x'.Private := by
  have hquiet : Quiet x.board.native x'.board.native := by
    rw [hnative]
    exact quiet_mute
  intro id' pj hmuted slot hslot hmic
  have hbefore := hquiet.mic pj slot hslot hmic
  have hslotBefore := hquiet.slots pj hslot
  rcases hT id' pj hmuted with hmuted | ⟨hmap, rfl⟩
  · exact hx.hidden id' pj hmuted slot hslotBefore hbefore
  · obtain ⟨k, hk⟩ := List.mem_iff_getElem?.mp hslotBefore
    have hgranted := hheard id pj hasked hmap k slot hk hbefore
    rw [hnative] at hmic
    exact mute_closes hk hgranted hmic

/-- An unmute command connects the microphone with no muted call. -/
theorem private_unmute (hx : Sealed x) (hapart : UnmuteApart x i e) {id : UInt32} {pjCallId : Int}
    (hasked : MuteAsked i x.engine id pjCallId false)
    (hT : ∀ id' pj, MutedAt (tables x'.engine) id' pj → MutedAt (tables x.engine) id' pj ∧ id' ≠ id)
    (hnative : x'.board.native =
      ((pdCallSetMute pjCallId false).run e.pjsua x.board.native).state) : x'.Private := by
  intro id' pj hmuted slot hslot hmic
  obtain ⟨hmuted, hne⟩ := hT id' pj hmuted
  have hslotBefore : slot ∈ (x.board.native.calls pj).slots := by
    rw [hnative, driven_setMute] at hslot
    exact slots_apply pj hslot
  rw [hnative] at hmic
  rcases mic_unmute hmic with hmic | ⟨k, hk, hgranted⟩
  · exact hx.hidden id' pj hmuted slot hslotBefore hmic
  · have heq : pj = pjCallId := hx.apart.eq (List.mem_of_getElem? hk) hslotBefore
    subst heq
    obtain ⟨hlt, -⟩ := List.getElem?_eq_some_iff.mp hk
    exact hapart id pj hasked id' hmuted hne k hlt hgranted

/-- A merge connects the microphone with no muted call. -/
theorem private_merge (hx : Sealed x) (hapart : MergeApart x i e) {pjA pjB : Int}
    (hasked : MergeAsked i x.engine pjA pjB) (hT : tables x'.engine = tables x.engine)
    (hnative : x'.board.native =
      ((pdCallMergeConference pjA pjB).run e.pjsua x.board.native).state) : x'.Private := by
  intro id pj hmuted slot hslot hmic
  rw [hT] at hmuted
  have hslotBefore : slot ∈ (x.board.native.calls pj).slots := by
    rw [hnative, driven_merge] at hslot
    exact slots_apply pj hslot
  rw [hnative] at hmic
  rcases mic_merge (hx.apart.port_ne pjA) (hx.apart.port_ne pjB) hmic with
    hmic | ⟨hmerges, ⟨rfl, hgranted⟩ | ⟨rfl, hgranted⟩⟩
  · exact hx.hidden id pj hmuted slot hslotBefore hmic
  · have heq : pj = pjA := hx.apart.eq (port_mem_slots hmerges.1) hslotBefore
    subst heq
    exact (hapart pj pjB hasked hmerges).1 id hmuted hgranted
  · have heq : pj = pjB := hx.apart.eq (port_mem_slots hmerges.2.1) hslotBefore
    subst heq
    exact (hapart pjA pj hasked hmerges).2 id hmuted hgranted

/-- The step lemma for operations of the engine. -/
theorem sealed_operation (hx : Sealed x) (hp : Promised x (.operation i e))
    (hc : Careful x (.operation i e)) (h : x.operate i e = some x') : Sealed x' := by
  obtain ⟨hs, b, hboard, hnative⟩ := operate_eq h
  obtain ⟨hmedia, hport⟩ := hp
  obtain ⟨hheard, hunmute, hmerge⟩ := hc
  have hchange := micChange_of_change hmedia (step_change hx.keyed hs)
  have hkeyed := keyed_step hx.keyed hs
  generalize opsOf (i.acts x.engine) = ops at hboard hchange
  generalize htables : tables x'.engine = T at hchange
  cases hchange with
  | silent hops hT =>
    have hquiet := quiet_performs (fun op hop ↦ .inl (hops op hop)) hport hboard
    rw [← hnative] at hquiet
    exact ⟨hkeyed, hx.apart.of_slots hquiet.slots, private_of_quiet hquiet hx.hidden (htables ▸ hT)⟩
  | @mute id pjCallId mute _ hasked hT =>
    rw [native_single (pdCallSetMute pjCallId mute) hboard rfl] at hnative
    have hslots (callId : Int) : (x'.board.native.calls callId).slots ⊆
        (x.board.native.calls callId).slots := by
      rw [hnative, driven_setMute]
      exact slots_apply callId
    refine ⟨hkeyed, hx.apart.of_slots hslots, ?_⟩
    rw [← htables] at hT
    cases mute with
    | true =>
      refine private_mute hx hheard hasked (fun id' pj hmuted ↦ ?_) hnative
      exact (hT id' pj hmuted).imp And.left fun h ↦ ⟨h.1, h.2.1⟩
    | false =>
      refine private_unmute hx hunmute hasked (fun id' pj hmuted ↦ ?_) hnative
      exact (hT id' pj hmuted).resolve_right fun h ↦ by cases h.2.2
  | @merge pjA pjB hasked =>
    rw [native_single (pdCallMergeConference pjA pjB) hboard rfl] at hnative
    have hslots (callId : Int) : (x'.board.native.calls callId).slots ⊆
        (x.board.native.calls callId).slots := by
      rw [hnative, driven_merge]
      exact slots_apply callId
    exact ⟨hkeyed, hx.apart.of_slots hslots, private_merge hx hmerge hasked htables hnative⟩

end Steps

section Streams

variable {n : Nat} {x x' : Phone n} {pjCallId : Int} {streams : List MediaStream}
  {edges : Finset (Int × Int)} {env : Env} {e : Answers}

/-- The other calls keep their streams. -/
theorem restream_of_ne {s : Native} {callId : Int} (h : callId ≠ pjCallId) :
    (restream pjCallId streams edges s).calls callId = s.calls callId := Function.update_of_ne h _ _

/-- New streams are apart if their ports are new. -/
theorem apart_restream {s : Native} (hs : Apart s)
    (hnew : ∀ slot ∈ ((restream pjCallId streams edges s).calls pjCallId).slots, 0 < slot ∧
      ∀ callId ≠ pjCallId, slot ∉ (s.calls callId).slots) :
    Apart (restream pjCallId streams edges s) := by
  intro callId slot hslot
  by_cases hid : callId = pjCallId
  · subst hid
    obtain ⟨hpos, hother⟩ := hnew slot hslot
    refine ⟨hpos, fun other hne ↦ ?_⟩
    rw [restream_of_ne hne]
    exact hother other hne
  · rw [restream_of_ne hid] at hslot
    obtain ⟨hpos, hother⟩ := hs callId slot hslot
    refine ⟨hpos, fun other hne hmem ↦ ?_⟩
    by_cases hother' : other = pjCallId
    · subst hother'
      exact (hnew slot hmem).2 callId hid hslot
    · rw [restream_of_ne hother'] at hmem
      exact hother other hne hmem

/-- Where `on_call_media_state` connects the microphone, the call is another or the connection is
granted. -/
theorem mic_streams {s : Native} (hs : Apart s) {pj slot : Int} (hslot : slot ∈ (s.calls pj).slots)
    (hmic : (0, slot) ∈ (s.apply e.pjsua (mediaCalls s pjCallId)).edges) :
    (0, slot) ∈ s.edges ∨ pj = pjCallId ∧ ∃ k : Nat, (s.calls pjCallId).slots[k]? = some slot ∧
      e.pjsua.status (s.answers + 2 + 2 * k) = 0 := by
  have hpos := (hs pj slot hslot).1
  rcases mic_mediaState (by omega) hmic with hmic | ⟨k, hk, hgranted⟩
  · exact .inl hmic
  · exact .inr ⟨hs.eq (List.mem_of_getElem? hk) hslot, k, hk, hgranted⟩

/-- The step of a media callback keeps the microphone away from muted calls if what follows is
quiet and leaves the call of the callback closed. -/
theorem private_media (hx : Sealed x) (hedges : edges ⊆ x.board.native.edges) {s : Native}
    (hstream : s = restream pjCallId streams edges x.board.native) (hs : Apart s)
    (hquiet : Quiet (s.apply e.pjsua (mediaCalls s pjCallId)) x'.board.native)
    (hT : ∀ id pj, MutedAt (tables x'.engine) id pj → MutedAt (tables x.engine) id pj)
    (hclosed : ∀ id, MutedAt (tables x.engine) id pjCallId →
      ∀ slot ∈ (x'.board.native.calls pjCallId).slots, (0, slot) ∉ x'.board.native.edges) :
    x'.Private := by
  intro id pj hmuted slot hslot hmic
  have hmutedBefore := hT id pj hmuted
  have hslotBefore := hquiet.slots pj hslot
  rw [calls_mediaState] at hslotBefore
  by_cases hpj : pj = pjCallId
  · subst hpj
    exact hclosed id hmutedBefore slot hslot hmic
  · rcases mic_streams hs hslotBefore (hquiet.mic pj slot hslot hmic) with hmic | ⟨heq, -⟩
    · rw [hstream, restream_of_ne hpj] at hslotBefore
      rw [hstream] at hmic
      exact hx.hidden id pj hmutedBefore slot hslotBefore (hedges hmic)
    · exact hpj heq

/-- The operations of a media callback are quiet. -/
theorem quiet_mediaOps (pjCallId active : Int) (old : Call) :
    ∀ op ∈ mediaOps pjCallId active old,
      isMicOp op = false ∨ ∃ pjCallId, op = .pdCallSetMute pjCallId true := by
  intro op hop
  unfold mediaOps at hop
  split at hop
  · rcases List.mem_append.mp hop with hop | hop
    · split at hop
      · rw [List.mem_singleton.mp hop]
        exact .inr ⟨pjCallId, rfl⟩
      · cases hop
    · split at hop
      · rw [List.mem_singleton.mp hop]
        exact .inl rfl
      · cases hop
  · cases hop

/-- The media callback of a muted call disconnects the microphone again. -/
theorem closed_media {s : Native} {b b' : Board n} {active : Int} {old : Call} (hs : Apart s)
    (hb : b.native = s.apply e.pjsua (mediaCalls s pjCallId)) (hport : RecorderApart e b.native)
    (hold : old.muted = true) (hactive : active ≠ 0)
    (hboard : (mediaOps pjCallId active old).foldlM (fun b call ↦ b.perform env e call) b = some b')
    (hgranted : ∀ (k : Nat) slot, (s.calls pjCallId).slots[k]? = some slot →
      (0, slot) ∈ s.edges ∨ e.pjsua.status (s.answers + 2 + 2 * k) = 0 →
        MuteGranted e.pjsua (s.answers + 1 + 2 * (s.calls pjCallId).slots.length) k) :
    ∀ slot ∈ (b'.native.calls pjCallId).slots, (0, slot) ∉ b'.native.edges := by
  intro slot hslot hmic
  have hops := quiet_mediaOps pjCallId active old
  unfold mediaOps at hboard hops
  rw [if_pos hactive, if_pos hold, List.singleton_append] at hboard hops
  obtain ⟨hmute, hrest⟩ := List.forall_mem_cons.mp hops
  rw [List.foldlM_cons] at hboard
  obtain ⟨b₁, hfirst, hboard⟩ := Option.bind_eq_some_iff.mp hboard
  have hquiet := quiet_perform hmute hport hfirst
  have hport' : RecorderApart e b₁.native := fun recId hrec callId hmem ↦
    hport recId hrec callId (hquiet.slots callId hmem)
  have hquiet' := quiet_performs hrest hport' hboard
  have hslot₁ := hquiet'.slots pjCallId hslot
  have hmic₁ := hquiet'.mic pjCallId slot hslot hmic
  have hslot₀ := hquiet.slots pjCallId hslot₁
  have hmic₀ := hquiet.mic pjCallId slot hslot₁ hmic₁
  rw [hb, calls_mediaState] at hslot₀
  rw [hb] at hmic₀
  -- the stream is one of those that the mute disconnects
  have hk : ∃ k : Nat, (s.calls pjCallId).slots[k]? = some slot ∧
      MuteGranted e.pjsua (s.answers + 1 + 2 * (s.calls pjCallId).slots.length) k := by
    rcases mic_streams hs hslot₀ hmic₀ with hmic₀ | ⟨-, k, hk, hconnect⟩
    · obtain ⟨k, hk⟩ := List.mem_iff_getElem?.mp hslot₀
      exact ⟨k, hk, hgranted k slot hk (.inl hmic₀)⟩
    · exact ⟨k, hk, hgranted k slot hk (.inr hconnect)⟩
  obtain ⟨k, hk, hmuted⟩ := hk
  rw [native_drive (pdCallSetMute pjCallId true) hfirst, hb] at hmic₁
  rw [← answers_mediaState] at hmuted
  exact mute_closes (by rwa [calls_mediaState]) hmuted hmic₁

/-- The step lemma for media callbacks. -/
theorem sealed_mediaState (hx : Sealed x)
    (hp : Promised x (.mediaState pjCallId streams edges env e))
    (hc : Careful x (.mediaState pjCallId streams edges env e))
    (h : phoneStep x (.mediaState pjCallId streams edges env e) = some x') : Sealed x' := by
  obtain ⟨hedges, hport, hnew⟩ := hp
  have hs := apart_restream hx.apart hnew
  unfold phoneStep at h
  unfold Careful at hc
  dsimp only at h hc
  generalize hstream : restream pjCallId streams edges x.board.native = s at h hc hport hs
  have hedges' : s.edges = edges := by
    rw [← hstream]
    rfl
  by_cases hinfo : e.pjsua.status s.answers = 0
  · rw [run_mediaState hinfo] at h
    dsimp only at h
    obtain ⟨hstep, b, hboard, hnative⟩ := operate_eq h
    have hport' : RecorderApart e (s.apply e.pjsua (mediaCalls s pjCallId)) := by
      intro recId hrec callId
      rw [calls_mediaState]
      exact hport recId hrec callId
    have hkeyed : (tables x'.engine).Keyed := keyed_step hx.keyed hstep
    have hchange := step_change hx.keyed hstep
    dsimp only [Phone.withNative] at hboard hchange
    generalize Input.acts _ x.engine = acts at hboard hchange
    replace hchange := mediaChange_of_change rfl hchange
    generalize htables : tables x'.engine = T at hchange
    have hquiet (hops : ∀ op ∈ opsOf acts, isMicOp op = false ∨
        ∃ pjCallId, op = .pdCallSetMute pjCallId true) :
        Quiet (s.apply e.pjsua (mediaCalls s pjCallId)) x'.board.native := by
      rw [hnative]
      exact quiet_performs hops hport' hboard
    have hslots (hquiet : Quiet (s.apply e.pjsua (mediaCalls s pjCallId)) x'.board.native)
        (callId : Int) : (x'.board.native.calls callId).slots ⊆ (s.calls callId).slots := by
      have hslots := hquiet.slots callId
      rwa [calls_mediaState] at hslots
    cases hchange with
    | unrouted hmap =>
      have hquiet := hquiet (List.forall_mem_nil _)
      refine ⟨hkeyed, hs.of_slots (hslots hquiet), ?_⟩
      refine private_media hx hedges hstream.symm hs hquiet (fun _ _ h ↦ htables ▸ h) ?_
      rintro id ⟨hid, call, hl, -⟩
      rcases hmap with hnone | ⟨id', hid', hnone⟩
      · exact absurd (hid.symm.trans hnone) (Option.some_ne_none _)
      · cases hid.symm.trans hid'
        exact absurd (hl.symm.trans hnone) (Option.some_ne_none _)
    | @routed id old now report hmap hl hreport =>
      rw [opsOf_media hreport] at hboard hquiet
      have hquiet := hquiet (quiet_mediaOps _ _ _)
      refine ⟨hkeyed, hs.of_slots (hslots hquiet), ?_⟩
      refine private_media hx hedges hstream.symm hs hquiet (fun _ _ hmuted ↦ ?_) ?_
      · rw [htables] at hmuted
        exact mutedAt_setCall hl (mediaRecord_pjsipCallId _ _ _) (mediaRecord_muted _ _ _) hmuted
      · intro id' hmuted slot hslot
        have hgranted := hc id' hmuted
        obtain ⟨hid, call, hcall, -, hcallmuted⟩ := hmuted
        cases hid.symm.trans hmap
        cases hcall.symm.trans hl
        have hsome : (s.calls pjCallId).slots ≠ [] :=
          List.ne_nil_of_mem (hslots hquiet pjCallId hslot)
        rw [if_neg hsome] at hboard
        rw [hnative] at hslot ⊢
        refine closed_media hs rfl hport' hcallmuted (by decide) hboard ?_ slot hslot
        intro k slot hk hmic
        rw [hedges'] at hmic
        exact (hgranted k slot hk (hmic.imp_right fun h ↦ ⟨hinfo, h⟩)).2
  · rw [run_mediaState_refused hinfo] at h
    cases h
    refine ⟨hx.keyed, hs, fun id pj hmuted slot hslot hmic ↦ ?_⟩
    have hmic' : (0, slot) ∈ edges := by rwa [← hedges']
    by_cases hpj : pj = pjCallId
    · subst hpj
      obtain ⟨k, hk⟩ := List.mem_iff_getElem?.mp hslot
      exact hinfo (hc id hmuted k slot hk (.inl hmic')).1
    · have hslot' : slot ∈ (s.calls pj).slots := hslot
      rw [← hstream, restream_of_ne hpj] at hslot'
      exact hx.hidden id pj hmuted slot hslot' (hedges hmic')

/-- The step lemma for streams that are taken away. -/
theorem sealed_mediaGone (hx : Sealed x) (hedges : edges ⊆ x.board.native.edges) :
    Sealed (x.withNative (restream pjCallId [] edges x.board.native)) := by
  have hnone : ((restream pjCallId [] edges x.board.native).calls pjCallId).slots = [] := by
    rw [restream, Native.setCall]
    dsimp only
    rw [Function.update_self]
    rfl
  refine ⟨hx.keyed, apart_restream hx.apart fun slot hslot ↦ ?_,
    fun id pj hmuted slot hslot hmic ↦ ?_⟩
  · rw [hnone] at hslot
    cases hslot
  · have hslot' : slot ∈ ((restream pjCallId [] edges x.board.native).calls pj).slots := hslot
    by_cases hpj : pj = pjCallId
    · rw [hpj, hnone] at hslot'
      cases hslot'
    · rw [restream_of_ne hpj] at hslot'
      exact hx.hidden id pj hmuted slot hslot' (hedges hmic)

end Streams

section Runs

variable {n : Nat}

/-- The step lemma. -/
theorem sealed_step {x x' : Phone n} {j : PhoneInput} (hx : Sealed x) (hp : Promised x j)
    (hc : Careful x j) (h : phoneStep x j = some x') : Sealed x' := by
  cases j with
  | operation i e => exact sealed_operation hx hp hc h
  | mediaState pjCallId streams edges env e => exact sealed_mediaState hx hp hc h
  | mediaGone pjCallId edges =>
    cases h
    exact sealed_mediaGone hx hp

/-- Before the first step. -/
theorem sealed_initial : Sealed (Phone.initial n) where
  keyed := keyed_initial
  apart callId slot hslot := by cases hslot
  hidden id pj hmuted slot hslot := by cases hslot

/-- In every run whose steps are all careful, the microphone is connected to no active audio stream
of a muted call, after every step. -/
theorem mute_private {js : List PhoneInput} {x : Phone n}
    (path : Path phoneStep (fun x j ↦ Promised x j ∧ Careful x j) (Phone.initial n) js x) :
    x.Private :=
  (path.invariant sealed_initial fun _ _ _ hx hC hs ↦ sealed_step hx hC.1 hC.2 hs).hidden

end Runs

/-- PJSIP grants everything and creates no recorder. -/
def granting (newCallId : Nat) : Answers :=
  ⟨⟨fun _ ↦ 0, newCallId⟩, { quietPjsua with recorderCreate := none }, 0⟩

/-- The user mutes the first call. -/
def muteFirstCall : Input :=
  commandInput "CallMute" [("call_id", .ofU32 1), ("muted", .bool true)]

/-- A second call, which PJSIP calls 1. -/
def dialAgain : Input := { dial with env := { dial.env with rc := fun _ ↦ 1 } }

section Examples

variable {n : Nat} {x : Phone n} {i : Input} {newCallId : Nat}

/-- PJSIP keeps its promise in an operation. -/
theorem promised_granting (h : ∀ pjCallId active, i.op ≠ .onCallMedia pjCallId active) :
    Promised x (.operation i (granting newCallId)) :=
  ⟨h, fun _ hrec ↦ by cases hrec⟩

/-- An operation is careful that is neither an unmute nor a merge. -/
theorem careful_granting (hunmute : ∀ s p, commandOf i s = some ("CallMute", p) →
    (p.get "muted").asBool.getD true = true)
    (hmerge : ∀ callA callB, i.op ≠ .mergeConference callA callB) :
    Careful x (.operation i (granting newCallId)) := by
  refine ⟨fun _ _ _ _ _ _ _ _ ↦ ⟨rfl, rfl⟩, ?_, ?_⟩
  · rintro id pj ⟨p, call, hcmd, -, -, -, hfalse⟩
    rw [hunmute _ p hcmd] at hfalse
    cases hfalse
  · rintro pjA pjB ⟨callA, callB, hop, -⟩
    exact absurd hop (hmerge callA callB)

/-- The command of a C caller. -/
theorem commandOf_commandInput {cmd cmd' : String} {fields : List (String × Json)} {s : Engine}
    {p : Json} {env : Env} (henv : env.parseJson = (commandInput cmd fields).env.parseJson)
    (h : commandOf { commandInput cmd fields with env := env } s = some (cmd', p)) :
    cmd = cmd' ∧ .obj fields = p := by
  unfold commandOf commandInput at h
  dsimp only at h
  split at h
  · rw [henv] at h
    simp only [commandInput, CPtr.toStr, Option.bind_some, Option.map_some, Option.some.injEq,
      Prod.mk.injEq] at h
    exact h
  · cases h

/-- A step of a run. -/
theorem step_of_run {js : List PhoneInput} {j : PhoneInput} {y z : Phone n}
    (hx : js.foldlM phoneStep x = some y) (hz : (js ++ [j]).foldlM phoneStep x = some z) :
    phoneStep y j = some z := by
  rw [List.foldlM_append, hx] at hz
  simpa using hz

/-- Signing in and dialling a call that is muted at once. -/
def mutedCall : List PhoneInput :=
  signIn.map (PhoneInput.operation · (granting 0)) ++
    [.operation dial (granting 0), .operation muteFirstCall (granting 0)]

/-- These steps are careful, and PJSIP keeps its promise. -/
theorem careful_mutedCall : ∀ j ∈ mutedCall, ∀ x : Phone n, Promised x j ∧ Careful x j := by
  have hdial (x : Phone n) : Careful x (.operation dial (granting 0)) := by
    refine careful_granting (fun s p h ↦ ?_) fun _ _ ↦ nofun
    obtain ⟨hcmd, -⟩ := commandOf_commandInput rfl h
    exact absurd hcmd (by decide)
  have hmute (x : Phone n) : Careful x (.operation muteFirstCall (granting 0)) := by
    refine careful_granting (fun s p h ↦ ?_) fun _ _ ↦ nofun
    obtain ⟨-, rfl⟩ := commandOf_commandInput rfl h
    rfl
  have hsign (i : Input) (hi : i ∈ signIn) (x : Phone n) :
      Careful x (.operation i (granting 0)) := by
    rcases List.mem_pair.mp hi with rfl | rfl
    · exact careful_granting (fun _ _ ↦ nofun) fun _ _ ↦ nofun
    · exact careful_granting (fun _ _ ↦ nofun) fun _ _ ↦ nofun
  have hpromised (i : Input) (hi : i ∈ signIn) (x : Phone n) :
      Promised x (.operation i (granting 0)) := by
    rcases List.mem_pair.mp hi with rfl | rfl
    · exact promised_granting fun _ _ ↦ nofun
    · exact promised_granting fun _ _ ↦ nofun
  rw [mutedCall, List.forall_mem_append, List.forall_mem_map, List.forall_mem_cons,
    List.forall_mem_singleton]
  exact ⟨fun i hi x ↦ ⟨hpromised i hi x, hsign i hi x⟩,
    fun x ↦ ⟨promised_granting fun _ _ ↦ nofun, hdial x⟩,
    fun x ↦ ⟨promised_granting fun _ _ ↦ nofun, hmute x⟩⟩

/-- The media of the first call is ready. -/
def firstMedia : PhoneInput := .mediaState 0 [⟨true, true, 1⟩] ∅ quietEnv (granting 0)

/-- It may be where no call has a stream. -/
theorem promised_firstMedia (h : ∀ callId, (x.board.native.calls callId).slots = []) :
    Promised x firstMedia := by
  refine ⟨Finset.empty_subset _, fun _ hrec ↦ ?_, fun slot hslot ↦ ?_⟩
  · cases hrec
  have hone : slot = 1 := List.mem_singleton.mp hslot
  refine ⟨by omega, fun callId _ ↦ ?_⟩
  rw [h]
  exact List.not_mem_nil

/-- A call that is muted before its media is ready, as an instance. -/
theorem mute_private_early : ∃ x : Phone 8,
    (mutedCall ++ [firstMedia]).foldlM phoneStep (.initial 8) = some x ∧ x.Private ∧
      (x.engine.calls.lookup 1).map (·.muted) = some true ∧
        (x.board.native.calls 0).slots = [1] := by
  have hfront : (mutedCall.foldlM phoneStep (Phone.initial 8)).map (·.board.native.calls) =
      some (Function.update (fun _ ↦ ⟨false, false, 0, [], []⟩) 0
        ⟨true, false, 0, utf8Bytes "sip:x@y", []⟩) := rfl
  have hwhole : ((mutedCall ++ [firstMedia]).foldlM phoneStep (Phone.initial 8)).map (fun x ↦
      ((x.engine.calls.lookup 1).map (·.muted), (x.board.native.calls 0).slots)) =
        some (some true, [1]) := rfl
  obtain ⟨x, hx, hcalls⟩ := Option.map_eq_some_iff.mp hfront
  obtain ⟨y, hy, hfacts⟩ := Option.map_eq_some_iff.mp hwhole
  obtain ⟨hmuted, hslots⟩ := Prod.mk.inj hfacts
  have hempty (callId : Int) : (x.board.native.calls callId).slots = [] := by
    rw [hcalls, Function.update_apply]
    split <;> rfl
  have path : Path phoneStep (fun x j ↦ Promised x j ∧ Careful x j) (Phone.initial 8) mutedCall x :=
    (Path.of_forall hx careful_mutedCall).imp fun u _ h ↦ h u
  have hcareful : Careful x firstMedia := fun _ _ _ _ _ _ ↦ ⟨rfl, rfl, rfl⟩
  exact ⟨y, hy, mute_private (path.snoc ⟨promised_firstMedia hempty, hcareful⟩ (step_of_run hx hy)),
    hmuted, hslots⟩

/-- Signing in and dialling two calls. -/
def twoDials : List PhoneInput :=
  signIn.map (PhoneInput.operation · (granting 0)) ++
    [.operation dial (granting 0), .operation dialAgain (granting 1)]

/-- PJSIP keeps its promise. -/
theorem promised_twoDials : ∀ j ∈ twoDials, ∀ x : Phone n, Promised x j := by
  have hsign (i : Input) (hi : i ∈ signIn) (x : Phone n) :
      Promised x (.operation i (granting 0)) := by
    rcases List.mem_pair.mp hi with rfl | rfl
    · exact promised_granting fun _ _ ↦ nofun
    · exact promised_granting fun _ _ ↦ nofun
  rw [twoDials, List.forall_mem_append, List.forall_mem_map, List.forall_mem_cons,
    List.forall_mem_singleton]
  exact ⟨hsign, fun x ↦ promised_granting fun _ _ ↦ nofun,
    fun x ↦ promised_granting fun _ _ ↦ nofun⟩

/-- The media of the second call is ready. -/
def secondMedia : PhoneInput :=
  .mediaState 1 [⟨true, true, 2⟩] {(1, 0), (0, 1)} quietEnv (granting 1)

/-- The two calls are merged. -/
def mergeBoth : PhoneInput := .operation ⟨.mergeConference 1 2, quietEnv⟩ (granting 1)

/-- A merge connects the microphone with a call that is muted. -/
theorem merge_unmutes : ∃ x : Phone 8, Path phoneStep Promised (.initial 8)
    (twoDials ++ [firstMedia] ++ [secondMedia] ++ [.operation muteFirstCall (granting 1)] ++
      [mergeBoth]) x ∧ ¬x.Private := by
  let dialled : NativeCall := ⟨true, false, 0, utf8Bytes "sip:x@y", []⟩
  have hdials : (twoDials.foldlM phoneStep (Phone.initial 8)).map (·.board.native.calls) =
      some (Function.update (Function.update (fun _ ↦ ⟨false, false, 0, [], []⟩) 0 dialled) 1
        dialled) := rfl
  have hfirst : ((twoDials ++ [firstMedia]).foldlM phoneStep (Phone.initial 8)).map
      (fun x ↦ (x.board.native.calls, x.board.native.edges)) =
        some (Function.update (Function.update (Function.update
          (fun _ ↦ ⟨false, false, 0, [], []⟩) 0 dialled) 1 dialled) 0
            { dialled with media := [⟨true, true, 1⟩] }, {(0, 1), (1, 0)}) := rfl
  have hlast : ((twoDials ++ [firstMedia] ++ [secondMedia, .operation muteFirstCall (granting 1),
      mergeBoth]).foldlM phoneStep (Phone.initial 8)).map (fun x ↦
        ((tables x.engine).callMap.lookup 0, ((tables x.engine).calls.lookup 1).map (fun call ↦
          (call.pjsipCallId, call.muted)), (x.board.native.calls 0).slots,
            decide ((0, 1) ∈ x.board.native.edges))) =
              some (some 1, some (some 0, true), [1], true) := rfl
  obtain ⟨x₀, h₀, hcalls₀⟩ := Option.map_eq_some_iff.mp hdials
  obtain ⟨x₁, h₁, hfacts⟩ := Option.map_eq_some_iff.mp hfirst
  obtain ⟨hcalls₁, hedges₁⟩ := Prod.mk.inj hfacts
  obtain ⟨x₄, h₄, hfacts⟩ := Option.map_eq_some_iff.mp hlast
  simp only [Prod.mk.injEq, decide_eq_true_eq] at hfacts
  obtain ⟨hmap, hcall, hslots, hmic⟩ := hfacts
  have hsecond : Promised x₁ secondMedia := by
    refine ⟨?_, fun _ hrec ↦ ?_, fun slot hslot ↦ ?_⟩
    · rw [hedges₁]
      decide
    · cases hrec
    · have htwo : slot = 2 := List.mem_singleton.mp hslot
      refine ⟨by omega, fun callId _ hmem ↦ ?_⟩
      have hone : slot = 1 := by
        rw [hcalls₁, Function.update_apply] at hmem
        split at hmem
        · exact List.mem_singleton.mp hmem
        · rw [Function.update_apply, Function.update_apply] at hmem
          split at hmem <;> cases hmem
      omega
  have hempty (callId : Int) : (x₀.board.native.calls callId).slots = [] := by
    rw [hcalls₀, Function.update_apply, Function.update_apply]
    split
    · rfl
    · split <;> rfl
  have path₀ : Path phoneStep Promised (Phone.initial 8) twoDials x₀ :=
    (Path.of_forall h₀ promised_twoDials).imp fun u _ h ↦ h u
  have path₁ := path₀.snoc (promised_firstMedia hempty) (step_of_run h₀ h₁)
  rw [List.foldlM_append, h₁, Option.bind_eq_bind, Option.bind_some, List.foldlM_cons] at h₄
  obtain ⟨x₂, h₂, h₄⟩ := Option.bind_eq_some_iff.mp h₄
  rw [List.foldlM_cons] at h₄
  obtain ⟨x₃, h₃, h₄⟩ := Option.bind_eq_some_iff.mp h₄
  rw [List.foldlM_cons] at h₄
  obtain ⟨x₅, h₅, h₄⟩ := Option.bind_eq_some_iff.mp h₄
  cases h₄
  have hmute : Promised x₂ (.operation muteFirstCall (granting 1)) :=
    promised_granting fun _ _ ↦ nofun
  have hmerge : Promised x₃ mergeBoth := promised_granting fun _ _ ↦ nofun
  have path := ((path₁.snoc hsecond h₂).snoc hmute h₃).snoc hmerge h₅
  refine ⟨_, path, fun hprivate ↦ hprivate 1 0 ⟨hmap, ?_⟩ 1 ?_ hmic⟩
  · obtain ⟨call, hl, heq⟩ := Option.map_eq_some_iff.mp hcall
    obtain ⟨hpj, hmuted⟩ := Prod.mk.inj heq
    exact ⟨call, hl, hpj, hmuted⟩
  · rw [hslots]
    exact List.mem_singleton_self 1

end Examples

end PacketDial.System
