import PacketDial.System.Lifecycle

/-!
# What a step does to one record

A record that is there after a step was entered by it or was there before; `RecordChange` lists
what the step can have made of it. The times in a changed record are those of the first clock
reading of the step.
-/

namespace PacketDial.System

open PacketDial.Core PacketDial.Lib

/-- What the `hold` field of a command asks for. -/
def holdWanted (i : Input) (s : Engine) : Bool :=
  ((commandOf i s).map fun c ↦ (c.2.get "hold").asBool.getD true).getD true

/-- The call whose media an input reports as inactive. -/
def pausedCall (i : Input) (s : Engine) : Option UInt32 :=
  match i.op with
  | .onCallMedia pjCallId active =>
    if active ≠ 0 then none else s.pjsipCallMap.lookup pjCallId
  | _ => none

/-- The step enters a call: the shim handed out a PJSIP id, or an incoming call is reported. -/
def entersCall (i : Input) (acts : List CallAct) : Bool :=
  match i.op with
  | .onIncomingCall .. => !acts.isEmpty
  | _ => !(newPjIds i.env acts).isEmpty

/-- The id of the call that a step starts. -/
def startedCall (i : Input) (s : Engine) (acts : List CallAct) : Option UInt32 :=
  if opensCall i s ∧ entersCall i acts = true then some s.nextCallId else none

/-- Only the mute flag and the recording fields of a record changed. -/
def Amended (old new : Call) : Prop :=
  new = { old with
    muted := new.muted
    recordingPath := new.recordingPath
    recordingStartedAtMs := new.recordingStartedAtMs }

/-- A record amends itself. -/
theorem Amended.refl (call : Call) : Amended call call := rfl

/-- The recording functions amend a record. -/
theorem SameCall.amended {old new : Call} (h : SameCall old new) : Amended old new := by
  rw [h]
  exact rfl

/-- What a step on `i` from `s` makes of the record `old` under `id`. -/
inductive RecordChange (i : Input) (s : Engine) (id : UInt32) (old : Call) : Call → Prop where
  | amend {new : Call} (htarget : holdTarget i s ≠ some id) (hpause : pausedCall i s ≠ some id)
      (h : Amended old new) : RecordChange i s id old new
  | hold (htarget : holdTarget i s = some id) :
      RecordChange i s id old (heldRecord (holdWanted i s) (secsAt i.env s) old)
  | state {pjCallId invState : Int} {newState : CallState} {new : Call}
      (hop : i.op = .onCallState pjCallId invState)
      (hstate : invCallState invState = some newState)
      (hmap : s.pjsipCallMap.lookup pjCallId = some id)
      (h : SameCall (stateRecord newState (secsAt i.env s) old) new) :
      RecordChange i s id old new
  | media {pjCallId active : Int} (hop : i.op = .onCallMedia pjCallId active)
      (hmap : s.pjsipCallMap.lookup pjCallId = some id) :
      RecordChange i s id old (mediaRecord active (secsAt i.env s) old)

/-- What a step does to the record under `id`: it starts the call, or finds the record. -/
inductive RecordEffect (i : Input) (s : Engine) (acts : List CallAct) (id : UInt32) :
    Call → Prop where
  | started {accountId uri : String} {direction : CallDirection} {pjCallId : Int}
      (hstart : startedCall i s acts = some id) :
      RecordEffect i s acts id (newCall id accountId uri direction pjCallId)
  | kept {old new : Call} (hstart : startedCall i s acts ≠ some id)
      (hl : s.calls.lookup id = some old) (h : RecordChange i s id old new) :
      RecordEffect i s acts id new

variable {i : Input} {s : Engine} {acts : List CallAct} {T T' : CallTables} {id : UInt32}
  {call : Call}

section Starts

/-- Nothing starts a call but what opens one. -/
theorem startedCall_of_not_opens (h : ¬ opensCall i s) : startedCall i s acts = none := by
  unfold startedCall
  rw [if_neg fun hand ↦ h hand.1]

/-- Nothing starts a call without a new PJSIP id or a report of an incoming call. -/
theorem startedCall_of_not_enters (h : entersCall i acts = false) :
    startedCall i s acts = none := by
  unfold startedCall
  rw [if_neg fun hand ↦ by rw [h] at hand; cases hand.2]

/-- What opens and enters a call starts the one with the next id. -/
theorem startedCall_of_enters (hop : opensCall i s) (h : entersCall i acts = true) :
    startedCall i s acts = some s.nextCallId := by
  unfold startedCall
  rw [if_pos ⟨hop, h⟩]

/-- The operations of a command hand out no PJSIP id. -/
theorem newPjIds_commandOps {e : Env} {cmd : String} {p : Json} :
    newPjIds e ((commandOps e T cmd p).map .op) = [] := by
  unfold newPjIds
  rw [List.filterMap_eq_nil_iff]
  intro a ha
  obtain ⟨op, hop, rfl⟩ := List.mem_map.mp ha
  obtain ⟨_, _, _, -, -, -, hcmd⟩ := mem_commandOps.mp hop
  have htarget := opTarget_of_commandOp hcmd
  cases op <;> first | rfl | cases htarget

/-- Nor does the report in front of them. -/
theorem newPjIds_reported {e : Env} {cmd : String} {p : Json} {report : CallAct}
    (hr : IsReport call report) :
    newPjIds e (report :: (commandOps e T cmd p).map .op) = [] := by
  obtain ⟨_, _, _, rfl⟩ := hr
  exact newPjIds_commandOps

/-- A command comes from an operation that opens no call by itself. -/
theorem isOpening_of_commandOf {c : String × Json} (h : commandOf i s = some c) :
    isOpening i.op = false := by
  unfold commandOf at h
  cases hop : i.op <;> first | rfl | (rw [hop] at h; cases h)

/-- A command enters a call when the shim hands out an id. -/
theorem entersCall_of_commandOf {c : String × Json} (h : commandOf i s = some c) :
    entersCall i acts = !(newPjIds i.env acts).isEmpty := by
  have hopening := isOpening_of_commandOf h
  unfold entersCall
  cases hop : i.op <;> first | rfl | (rw [hop] at hopening; cases hopening)

/-- A command that is handed out no PJSIP id starts no call. -/
theorem startedCall_of_command {c : String × Json} (h : commandOf i s = some c)
    (hnew : newPjIds i.env acts = []) : startedCall i s acts = none := by
  apply startedCall_of_not_enters
  rw [entersCall_of_commandOf h, hnew]
  rfl

/-- A command on calls is no media callback. -/
theorem pausedCall_of_commandOf {c : String × Json} (h : commandOf i s = some c) :
    pausedCall i s = none := by
  unfold commandOf at h
  unfold pausedCall
  cases hop : i.op with
  | onCallMedia pjCallId active =>
    rw [hop] at h
    cases h
  | _ => rfl

/-- Without a command there is no hold command. -/
theorem holdTarget_of_none (h : commandOf i s = none) : holdTarget i s = none := by
  rw [holdTarget, h]
  rfl

/-- Only `CallHold` has a call to hold. -/
theorem holdTarget_of_ne {cmd : String} {p : Json} (hcmd : commandOf i s = some (cmd, p))
    (hne : cmd ≠ "CallHold") : holdTarget i s = none := by
  rw [holdTarget, hcmd, Option.bind_some, if_neg hne]

/-- The call that `CallHold` holds is the one it resolves to. -/
theorem holdTarget_of_hold {p : Json} (hcmd : commandOf i s = some ("CallHold", p)) :
    holdTarget i s = commandTarget i.env (tables s) "CallHold" p := by
  rw [holdTarget, hcmd, Option.bind_some, if_pos rfl]

end Starts

section Times

/-- The command made for the first call that satisfies `q`. -/
theorem commandOnFirst_eq_some {q : Call → Bool} {cmd cmd' : String}
    {rest : List (String × Json)} {p : Json} :
    commandOnFirst i s q cmd rest = some (cmd', p) ↔
      s.initialized = true ∧ ∃ id, (tables s).firstId i.env q = some id ∧ cmd = cmd' ∧
        .obj (("call_id", .ofU32 id) :: rest) = p := by
  simp [commandOnFirst]

/-- A step that makes a hold command leaves the tables that the command leaves. -/
theorem tables_of_hold {p : Json} (hcmd : commandOf i s = some ("CallHold", p)) :
    tables (i.outcome s).state = tables ((cmdCallHold p).run i.env s).state := by
  have hdispatch (p : Json) : dispatchCommand "CallHold" p = .ok <$> cmdCallHold p := rfl
  unfold commandOf at hcmd
  unfold Input.outcome
  cases hop : i.op with
  | sendCommand cmdType payload =>
    simp only [hop, Option.ite_none_right_eq_some, Option.bind_eq_some_iff,
      Option.map_eq_some_iff, Prod.mk.injEq] at hcmd
    obtain ⟨hinit, cmd, hc, p', ⟨text, ht, hp⟩, rfl, rfl⟩ := hcmd
    simp [Op.run, engineSendCommand, withText, hc, ht, whenInitialized, hinit, hp, dispatchCode,
      hdispatch]
  | ipcLine client line =>
    simp only [hop, Option.map_eq_some_iff, Prod.mk.injEq] at hcmd
    obtain ⟨v, hv, hc, rfl⟩ := hcmd
    simp [Op.run, Core.ipcLine, hv, hc, hdispatch]
  | setHold onHold =>
    simp only [hop, commandOnFirst_eq_some] at hcmd
    obtain ⟨hinit, id, hid, -, rfl⟩ := hcmd
    unfold CallTables.firstId at hid
    obtain ⟨call, hf, rfl⟩ := Option.map_eq_some_iff.mp hid
    have hvalue : ((firstCall (·.isLive)).run i.env s).value = some call := hf
    have hstate : ((firstCall (·.isLive)).run i.env s).state = s := rfl
    simp [Op.run, engineSetHold, whenInitialized, hinit, onLiveCall, hvalue, hstate,
      dispatchCode, hdispatch]
  | makeCall => simp [hop, Option.bind_eq_some_iff] at hcmd
  | hangup => simp [hop, commandOnFirst_eq_some] at hcmd
  | answerCall => simp [hop, commandOnFirst_eq_some] at hcmd
  | setMute => simp [hop, commandOnFirst_eq_some] at hcmd
  | sendDtmf => simp [hop, commandOnFirst_eq_some, Option.bind_eq_some_iff] at hcmd
  | _ => simp [hop] at hcmd

/-- The tables after a hold command on a record. -/
theorem tables_after_hold {p : Json} (hcmd : commandOf i s = some ("CallHold", p)) {old : Call}
    (htarget : holdTarget i s = some id) (hl : s.calls.lookup id = some old) :
    tables (i.outcome s).state =
      (tables s).setCall id (heldRecord (holdWanted i s) (secsAt i.env s) old) := by
  have hwanted : holdWanted i s = (p.get "hold").asBool.getD true := by
    rw [holdWanted, hcmd]
    rfl
  rw [holdTarget_of_hold hcmd] at htarget
  rw [tables_of_hold hcmd, hwanted]
  rcases (yields_cmdCallHold : callView.Yields (cmdCallHold p) i.env s _) with
    ⟨-, -, hnone⟩ | ⟨id', old', report, hid, hold, -, -, hT⟩
  · rw [htarget] at hnone
    rw [show s.calls.lookup id = none from hnone] at hl
    cases hl
  · rw [htarget] at hid
    cases hid
    rw [show s.calls.lookup id = some old' from hold] at hl
    cases hl
    exact hT

/-- The tables after a state callback on a record. -/
theorem tables_after_state {pjCallId invState : Int} {newState : CallState} {old : Call}
    (hop : i.op = .onCallState pjCallId invState) (hstate : invCallState invState = some newState)
    (hmap : s.pjsipCallMap.lookup pjCallId = some id) (hl : s.calls.lookup id = some old) :
    RecordingChange id (((tables s).unmap pjCallId newState).setCall id
      (stateRecord newState (secsAt i.env s) old)) (tables (i.outcome s).state) := by
  unfold Input.outcome
  rw [hop]
  exact yields_routedState hstate hmap hl

/-- The tables after a media callback on a record. -/
theorem tables_after_media {pjCallId active : Int} {old : Call}
    (hop : i.op = .onCallMedia pjCallId active)
    (hmap : s.pjsipCallMap.lookup pjCallId = some id) (hl : s.calls.lookup id = some old) :
    tables (i.outcome s).state =
      (tables s).setCall id (mediaRecord active (secsAt i.env s) old) := by
  unfold Input.outcome
  rw [hop]
  exact yields_routedMedia hmap hl

end Times

section Effects

/-- The record in a table with one record written. -/
theorem lookup_of_setCall {new : Call} {id' : UInt32}
    (hl : (T.setCall id' new).calls.lookup id = some call) :
    (id = id' ∧ call = new) ∨ (id ≠ id' ∧ T.calls.lookup id = some call) := by
  by_cases heq : id = id'
  · subst heq
    rw [lookup_setCall] at hl
    exact Or.inl ⟨rfl, (Option.some.inj hl).symm⟩
  · rw [lookup_setCall_ne _ heq] at hl
    exact Or.inr ⟨heq, hl⟩

/-- The recording functions change at most the recording fields of a record. -/
theorem sameCall_of_recording {id' : UInt32} (h : RecordingChange id' T T')
    (hl : T'.calls.lookup id = some call) :
    ∃ old, T.calls.lookup id = some old ∧ SameCall old call := by
  rcases h with rfl | ⟨old, new, hold, hsame, rfl⟩
  · exact ⟨call, hl, rfl⟩
  · rcases lookup_of_setCall hl with ⟨rfl, rfl⟩ | ⟨-, hl⟩
    · exact ⟨old, hold, hsame⟩
    · exact ⟨call, hl, rfl⟩

/-- Nothing is no id. -/
private theorem none_ne_id {o : Option UInt32} (h : o = none) : o ≠ some id := by
  rw [h]
  exact (Option.some_ne_none _).symm

/-- A record that a step neither starts, holds nor pauses. -/
theorem effect_amended (hstart : startedCall i s acts ≠ some id)
    (hhold : holdTarget i s ≠ some id) (hpause : pausedCall i s ≠ some id)
    (h : ∃ old, s.calls.lookup id = some old ∧ Amended old call) :
    RecordEffect i s acts id call := by
  obtain ⟨old, hl, hamend⟩ := h
  exact .kept hstart hl (.amend hhold hpause hamend)

/-- A step without a command, a callback on a call or a new one. -/
theorem effect_quiet (hstart : startedCall i s acts = none) (hcmd : commandOf i s = none)
    (hpause : pausedCall i s = none) (h : ∃ old, s.calls.lookup id = some old ∧ Amended old call) :
    RecordEffect i s acts id call :=
  effect_amended (none_ne_id hstart) (none_ne_id (holdTarget_of_none hcmd)) (none_ne_id hpause) h

/-- A new call. -/
theorem effect_track (hstart : startedCall i s acts = some s.nextCallId)
    (hhold : holdTarget i s = none) (hpause : pausedCall i s = none) {accountId uri : String}
    {direction : CallDirection} {pjCallId : Int}
    (hl : ((tables s).track (newCall (tables s).nextCallId accountId uri direction pjCallId)
      pjCallId).calls.lookup id = some call) : RecordEffect i s acts id call := by
  rcases lookup_of_setCall (T := tables s) hl with ⟨rfl, rfl⟩ | ⟨hne, hl⟩
  · exact .started hstart
  · refine effect_amended ?_ (none_ne_id hhold) (none_ne_id hpause) ⟨call, hl, Amended.refl _⟩
    rw [hstart]
    exact fun heq ↦ hne (Option.some.inj heq).symm

/-- What a command does to a record. -/
theorem effect_of_command {cmd : String} {p : Json} (hcmd : commandOf i s = some (cmd, p))
    (h : CommandChange i.env cmd p (tables s) acts T) (hT : tables (i.outcome s).state = T)
    (hl : T.calls.lookup id = some call) : RecordEffect i s acts id call := by
  have hpause : pausedCall i s ≠ some id := none_ne_id (pausedCall_of_commandOf hcmd)
  have unstarted (hnew : newPjIds i.env acts = []) : startedCall i s acts ≠ some id :=
    none_ne_id (startedCall_of_command hcmd hnew)
  have other (hne : cmd ≠ "CallHold") (hnew : newPjIds i.env acts = [])
      (h : ∃ old, s.calls.lookup id = some old ∧ Amended old call) :
      RecordEffect i s acts id call :=
    effect_amended (unstarted hnew) (none_ne_id (holdTarget_of_ne hcmd hne)) hpause h
  cases h with
  | idle hmissing =>
    by_cases hhold : cmd = "CallHold"
    · subst hhold
      refine effect_amended (unstarted newPjIds_commandOps) ?_ hpause ⟨call, hl, Amended.refl _⟩
      intro htarget
      have hnone := hmissing rfl
      rw [← holdTarget_of_hold hcmd, htarget] at hnone
      rw [show (tables s).calls.lookup id = none from hnone] at hl
      cases hl
    · exact other hhold newPjIds_commandOps ⟨call, hl, Amended.refl _⟩
  | burn hstart hacts =>
    refine other (by rw [hstart]; decide) ?_ ⟨call, hl, Amended.refl _⟩
    rcases hacts with rfl | ⟨accId, uri, rfl, hneg⟩
    · rfl
    · simp [newPjIds, not_le.mpr hneg]
  | track hstart hpos hr =>
    refine effect_track (startedCall_of_enters (Or.inl ?_) ?_)
      (holdTarget_of_ne hcmd (by rw [hstart]; decide)) (pausedCall_of_commandOf hcmd) hl
    · rw [hcmd, hstart]
      rfl
    · rw [entersCall_of_commandOf hcmd]
      simp [newPjIds, hpos]
  | mute hmute _ hold hr =>
    refine other (by rw [hmute]; decide) (newPjIds_reported hr) ?_
    rcases lookup_of_setCall hl with ⟨rfl, rfl⟩ | ⟨-, hl⟩
    · exact ⟨_, hold, rfl⟩
    · exact ⟨call, hl, Amended.refl _⟩
  | @hold id' old now report hhold hid hold hr =>
    subst hhold
    have htarget : holdTarget i s = some id' := by
      rw [holdTarget_of_hold hcmd]
      exact hid
    have hstart := unstarted (newPjIds_reported hr)
    rw [← hT, tables_after_hold hcmd htarget hold] at hl
    rcases lookup_of_setCall hl with ⟨rfl, rfl⟩ | ⟨hne, hl⟩
    · exact .kept hstart hold (.hold htarget)
    · refine effect_amended hstart ?_ hpause ⟨call, hl, Amended.refl _⟩
      rw [htarget]
      exact fun heq ↦ hne (Option.some.inj heq).symm
  | record hrec _ hold hsame =>
    refine other ?_ newPjIds_commandOps ?_
    · rcases hrec with rfl | rfl <;> decide
    · rcases lookup_of_setCall hl with ⟨rfl, rfl⟩ | ⟨-, hl⟩
      · exact ⟨_, hold, hsame.amended⟩
      · exact ⟨call, hl, Amended.refl _⟩

/-- What a state callback does to a record. -/
theorem effect_of_state {pjCallId invState : Int} {newState : CallState}
    (hop : i.op = .onCallState pjCallId invState) (hstate : invCallState invState = some newState)
    (h : StateChange i.env pjCallId newState (tables s) acts T)
    (hT : tables (i.outcome s).state = T) (hstart : startedCall i s acts = none)
    (hl : T.calls.lookup id = some call) : RecordEffect i s acts id call := by
  have hcmd : commandOf i s = none := by rw [commandOf, hop]
  have hpause : pausedCall i s = none := by rw [pausedCall, hop]
  cases h with
  | unrouted =>
    rw [CallTables.unmap_calls] at hl
    exact effect_quiet hstart hcmd hpause ⟨call, hl, Amended.refl _⟩
  | @routed id' old _ _ _ _ hmap hold _ _ _ =>
    have hrec := tables_after_state hop hstate hmap hold
    rw [hT] at hrec
    obtain ⟨mid, hmid, hsame⟩ := sameCall_of_recording hrec hl
    rcases lookup_of_setCall hmid with ⟨rfl, rfl⟩ | ⟨-, hmid⟩
    · exact .kept (none_ne_id hstart) hold (.state hop hstate hmap hsame)
    · rw [CallTables.unmap_calls] at hmid
      exact effect_quiet hstart hcmd hpause ⟨mid, hmid, hsame.amended⟩

/-- What a media callback does to a record. -/
theorem effect_of_media {pjCallId active : Int} (hop : i.op = .onCallMedia pjCallId active)
    (h : MediaChange pjCallId active (tables s) acts T) (hT : tables (i.outcome s).state = T)
    (hstart : startedCall i s acts = none) (hl : T.calls.lookup id = some call) :
    RecordEffect i s acts id call := by
  have hhold : holdTarget i s = none := holdTarget_of_none (by rw [commandOf, hop])
  have hpause : pausedCall i s =
      if active ≠ 0 then none else (tables s).callMap.lookup pjCallId := by
    rw [pausedCall, hop]
    rfl
  cases h with
  | unrouted hmap =>
    refine effect_amended (none_ne_id hstart) (none_ne_id hhold) ?_ ⟨call, hl, Amended.refl _⟩
    rw [hpause]
    split
    · exact (Option.some_ne_none _).symm
    · rcases hmap with hnone | ⟨id', hmap, hnone⟩
      · rw [hnone]
        exact (Option.some_ne_none _).symm
      · rw [hmap]
        rintro ⟨⟩
        rw [hnone] at hl
        cases hl
  | @routed id' old now report hmap hold hr =>
    rw [← hT, tables_after_media hop hmap hold] at hl
    rcases lookup_of_setCall hl with ⟨rfl, rfl⟩ | ⟨hne, hl⟩
    · exact .kept (none_ne_id hstart) hold (.media hop hmap)
    · refine effect_amended (none_ne_id hstart) (none_ne_id hhold) ?_ ⟨call, hl, Amended.refl _⟩
      rw [hpause, hmap]
      split
      · exact (Option.some_ne_none _).symm
      · exact fun heq ↦ hne (Option.some.inj heq).symm

/-- What a change does to a record. -/
theorem effect_of_change (h : Change i s acts T) (hT : tables (i.outcome s).state = T)
    (hl : T.calls.lookup id = some call) : RecordEffect i s acts id call := by
  have unopened (hcmd : commandOf i s = none) (hopening : isOpening i.op = false) :
      startedCall i s acts = none := by
    apply startedCall_of_not_opens
    rintro (h | h)
    · rw [hcmd] at h
      cases h
    · rw [hopening] at h
      cases h
  cases h with
  | quiet hop hcmd =>
    refine effect_quiet (startedCall_of_not_enters ?_) hcmd ?_ ⟨call, hl, Amended.refl _⟩
    · unfold entersCall
      split <;> rfl
    · unfold pausedCall
      cases hi : i.op with
      | onCallMedia pjCallId active =>
        rw [hi] at hop
        cases hop
      | _ => rfl
  | command hcmd h => exact effect_of_command hcmd h hT hl
  | startRecording hop _ hrec | stopRecording hop _ hrec =>
    have hcmd : commandOf i s = none := by rw [commandOf, hop]
    obtain ⟨old, hold, hsame⟩ := sameCall_of_recording hrec hl
    exact effect_quiet (unopened hcmd (by rw [hop]; rfl)) hcmd (by rw [pausedCall, hop])
      ⟨old, hold, hsame.amended⟩
  | transfer hop | completeXfer hop | merge hop | shutdown hop =>
    have hcmd : commandOf i s = none := by rw [commandOf, hop]
    exact effect_quiet (unopened hcmd (by rw [hop]; rfl)) hcmd (by rw [pausedCall, hop])
      ⟨call, hl, Amended.refl _⟩
  | consultFailed hop hneg =>
    refine effect_quiet (startedCall_of_not_enters ?_) (by rw [commandOf, hop])
      (by rw [pausedCall, hop]) ⟨call, hl, Amended.refl _⟩
    rw [entersCall, hop]
    simp [newPjIds, not_le.mpr hneg]
  | consult hop hpos _ =>
    refine effect_track (startedCall_of_enters (Or.inr (by rw [hop]; rfl)) ?_)
      (holdTarget_of_none (by rw [commandOf, hop])) (by rw [pausedCall, hop]) hl
    rw [entersCall, hop]
    simp [newPjIds, hpos]
  | incoming hop _ =>
    refine effect_track (startedCall_of_enters (Or.inr (by rw [hop]; rfl)) ?_)
      (holdTarget_of_none (by rw [commandOf, hop])) (by rw [pausedCall, hop]) hl
    rw [entersCall, hop]
    rfl
  | state hop hstate h =>
    exact effect_of_state hop hstate h hT
      (unopened (by rw [commandOf, hop]) (by rw [hop]; rfl)) hl
  | media hop h =>
    exact effect_of_media hop h hT (unopened (by rw [commandOf, hop]) (by rw [hop]; rfl)) hl

/-- What a step does to a record that is there after it. -/
theorem effect_of_step {s' : Engine} (hk : (tables s).Keyed) (hs : engineStep s i = some s')
    (hl : s'.calls.lookup id = some call) : RecordEffect i s (i.acts s) id call := by
  have hT : tables (i.outcome s).state = tables s' := by rw [engineStep_eq hs]
  exact effect_of_change (step_change hk hs) hT hl

end Effects

end PacketDial.System
