import PacketDial.System.Changes

/-!
# What the call commands change

One theorem for each command on calls: its run is one of the changes of `CommandChange`. The
records are taken to be filed under their own ids, an invariant of every run.
-/

namespace PacketDial.System

open PacketDial.Core PacketDial.Lib

section Records

variable {e : Env} {s : Engine}

/-- The record that `settleActive` returns. -/
theorem settleActive_value (call : Call) :
    ((settleActive call).run e s).value = settled (secsAt e s) call := by
  unfold settleActive settled
  cases call.lastResumedAt with
  | none => rfl
  | some resumedAt => rfl

/-- The record that `holdRecord` returns. -/
theorem holdRecord_value (hold : Bool) (call : Call) :
    ((holdRecord hold call).run e s).value = heldRecord hold (secsAt e s) call := by
  cases hold with
  | true => exact settleActive_value _
  | false => rfl

end Records

/-- Closing the talk time keeps the PJSIP id. -/
@[simp] theorem settled_pjsipCallId (now : Nat) (call : Call) :
    (settled now call).pjsipCallId = call.pjsipCallId := by
  unfold settled
  split <;> rfl

/-- A hold command keeps the PJSIP id. -/
@[simp] theorem heldRecord_pjsipCallId (hold : Bool) (now : Nat) (call : Call) :
    (heldRecord hold now call).pjsipCallId = call.pjsipCallId := by
  unfold heldRecord
  split
  · rw [settled_pjsipCallId]
  · rfl

section Commands

variable {e : Env} {s : Engine} {p : Json}

/-- The operations of a command on a record with a PJSIP id. -/
theorem commandOps_of_record {T : CallTables} {cmd : String} {id : UInt32} {call : Call}
    (hid : commandTarget e T cmd p = some id) (hl : T.calls.lookup id = some call) :
    commandOps e T cmd p = (call.pjsipCallId.bind (commandOp e cmd p call)).toList := by
  simp [commandOps, hid, hl]

/-- A command that resolves to no record has no operation. -/
theorem commandOps_of_none {T : CallTables} {cmd : String}
    (h : (commandTarget e T cmd p).bind T.calls.lookup = none) : commandOps e T cmd p = [] := by
  simp [commandOps, h]

/-- Resolving the call of a mute or hold command. -/
theorem targetOrLive_bind {β : Type} {f : UInt32 → Eng β}
    {R : β → List CallAct → CallTables → Prop}
    (h : callView.Yields (f (((callIdField p).or ((tables s).firstId e (·.isLive))).getD 0))
      e s R) : callView.Yields (targetOrLive p >>= f) e s R := h

/-- The shape shared by the mute and hold commands: no record and nothing shown, or a record
written and reported, with the operation on its PJSIP id. -/
theorem yields_updateTarget (cmd : String) {update : Call → Eng Call} {op : Int → ShimCall}
    (new : Nat → Call → Call) (htame : ∀ call, Traced.Admits (Tame [.calls]) (update call))
    (hvalue : ∀ call e s, ((update call).run e s).value = new (secsAt e s) call)
    (hpj : ∀ now call, (new now call).pjsipCallId = call.pjsipCallId)
    (hop : ∀ pjId, isCallOp (op pjId) = true)
    (hid : commandTarget e (tables s) cmd p =
      some (((callIdField p).or ((tables s).firstId e (·.isLive))).getD 0))
    (hcmd : ∀ call pjId, commandOp e cmd p call pjId = some (op pjId)) :
    callView.Yields (updateTarget p update op) e s fun _ acts T ↦
      (acts = (commandOps e (tables s) cmd p).map .op ∧ T = tables s ∧
        (commandTarget e (tables s) cmd p).bind (tables s).calls.lookup = none) ∨
      ∃ id old report, commandTarget e (tables s) cmd p = some id ∧
        (tables s).calls.lookup id = some old ∧ IsReport (new (secsAt e s) old) report ∧
        acts = report :: (commandOps e (tables s) cmd p).map .op ∧
        T = (tables s).setCall id (new (secsAt e s) old) := by
  unfold updateTarget
  refine yields_seq (Q := fun found acts T ↦
    (found = none ∧ acts = [] ∧ T = tables s ∧
      (commandTarget e (tables s) cmd p).bind (tables s).calls.lookup = none) ∨
    ∃ id old report, commandTarget e (tables s) cmd p = some id ∧
      (tables s).calls.lookup id = some old ∧ found = some old.pjsipCallId ∧
      IsReport (new (secsAt e s) old) report ∧ acts = [report] ∧
      T = (tables s).setCall id (new (secsAt e s) old))
    (yields_withLock (targetOrLive_bind (View.yields_get_bind ?_))) ?_
  · split
    · next hl =>
      left
      refine ⟨rfl, rfl, rfl, ?_⟩
      rw [hid]
      exact hl
    · next old hl =>
      refine yields_read_bind (htame old) (P := fun call ↦ call = new (secsAt e s) old)
        (hvalue old e s) ?_
      rintro call s₁ rfl hs
      refine yields_insertCall_bind fun s₂ hs₂ ↦ ?_
      refine yields_pushCallState_bind fun report s₃ hr hs₃ ↦ View.yields_pure ?_
      refine Or.inr ⟨_, old, report, hid, hl, by rw [hpj], hr, rfl, ?_⟩
      exact hs₃.trans (hs₂.trans (by rw [hs]))
  · rintro found acts s₁ (⟨rfl, rfl, hT, hn⟩ | ⟨id, old, report, hid, hl, rfl, hr, rfl, hT⟩)
    · refine View.yields_pure (Or.inl ⟨?_, hT, hn⟩)
      rw [commandOps_of_none hn]
      rfl
    · have ops := commandOps_of_record hid hl
      cases h : old.pjsipCallId with
      | none =>
        refine View.yields_pure (Or.inr ⟨id, old, report, hid, hl, hr, ?_, hT⟩)
        rw [ops, h]
        rfl
      | some pjId =>
        refine yields_discard_shim_bind (hop pjId) (View.yields_pure ?_)
        refine Or.inr ⟨id, old, report, hid, hl, hr, ?_, hT⟩
        rw [ops, h]
        simp [hcmd]

/-- `cmd_call_mute` writes the flag into the record it resolves to. -/
theorem change_cmdCallMute :
    callView.Yields (cmdCallMute p) e s fun _ ↦ CommandChange e "CallMute" p (tables s) := by
  refine (yields_updateTarget "CallMute"
    (fun _ call ↦ { call with muted := (p.get "muted").asBool.getD true })
    (fun _ ↦ tame_pure _) (fun _ _ _ ↦ rfl) (fun _ _ ↦ rfl) (fun _ ↦ rfl) rfl
    (fun _ _ ↦ rfl)).imp ?_
  rintro _ acts T (⟨rfl, rfl, hn⟩ | ⟨id, old, report, hid, hl, hr, rfl, rfl⟩)
  · exact .idle fun _ ↦ hn
  · exact .mute rfl hid hl hr

/-- `cmd_call_hold` rewrites the record it resolves to, whatever its state, at the time of its
first clock reading. -/
theorem yields_cmdCallHold :
    callView.Yields (cmdCallHold p) e s fun _ acts T ↦
      (acts = (commandOps e (tables s) "CallHold" p).map .op ∧ T = tables s ∧
        (commandTarget e (tables s) "CallHold" p).bind (tables s).calls.lookup = none) ∨
      ∃ id old report, commandTarget e (tables s) "CallHold" p = some id ∧
        (tables s).calls.lookup id = some old ∧
        IsReport (heldRecord ((p.get "hold").asBool.getD true) (secsAt e s) old) report ∧
        acts = report :: (commandOps e (tables s) "CallHold" p).map .op ∧
        T = (tables s).setCall id
          (heldRecord ((p.get "hold").asBool.getD true) (secsAt e s) old) :=
  yields_updateTarget "CallHold" (heldRecord ((p.get "hold").asBool.getD true))
    (tame_holdRecord _) (fun _ _ _ ↦ holdRecord_value _ _) (heldRecord_pjsipCallId _)
    (fun _ ↦ rfl) rfl (fun _ _ ↦ rfl)

/-- `cmd_call_hold` makes a change of a hold command. -/
theorem change_cmdCallHold :
    callView.Yields (cmdCallHold p) e s fun _ ↦ CommandChange e "CallHold" p (tables s) := by
  apply yields_cmdCallHold.imp
  rintro _ acts T (⟨rfl, rfl, hn⟩ | ⟨id, old, report, hid, hl, hr, rfl, rfl⟩)
  · exact .idle fun _ ↦ hn
  · exact .hold rfl hid hl hr

/-- Finding the PJSIP id of the call to answer. -/
theorem yields_answerTarget (hk : (tables s).Keyed) :
    callView.Yields (answerTarget p) e s fun r acts T ↦ acts = [] ∧ T = tables s ∧
      r.toOption.join = ((commandTarget e (tables s) "CallAnswer" p).bind
        (tables s).calls.lookup).bind (·.pjsipCallId) := by
  have canLog : CanLog [.calls] := by decide
  have hid : commandTarget e (tables s) "CallAnswer" p =
      (callIdField p).or ((tables s).firstId e (·.isRingingIncoming)) := rfl
  unfold answerTarget
  refine yields_withLock (yields_tame_bind (tame_logEngine canLog _ _) fun _ s₁ hs₁ ↦ ?_)
  rw [← hs₁] at hk hid ⊢
  refine yields_callValues_bind ?_
  dsimp only
  rw [hid]
  unfold CallTables.firstId
  split
  · next h =>
    refine yields_tame_bind (tame_logEngine canLog _ _) fun _ s₂ hs₂ ↦ View.yields_pure ?_
    exact ⟨rfl, hs₂, by rw [h]; rfl⟩
  · next id h =>
    refine yields_tame_bind (tame_logEngine canLog _ _) fun _ s₂ hs₂ ↦ ?_
    rw [hk.find_id, h]
    split
    · next hl =>
      refine yields_tame_bind (tame_logEngine canLog _ _) fun _ s₃ hs₃ ↦ View.yields_pure ?_
      exact ⟨rfl, hs₃.trans hs₂, by rw [Option.bind_some, hl]; rfl⟩
    · next call hl =>
      refine yields_tame_bind (tame_logEngine canLog _ _) fun _ s₃ hs₃ ↦ View.yields_pure ?_
      exact ⟨rfl, hs₃.trans hs₂, by rw [Option.bind_some, hl]; rfl⟩

/-- A command that shows exactly its operations and leaves the tables alone. -/
theorem change_idle {cmd : String} (hcmd : isUpdate cmd = false) {T : CallTables}
    {acts : List CallAct} (h : acts = (commandOps e T cmd p).map .op) :
    CommandChange e cmd p T acts T := by
  rw [h]
  apply CommandChange.idle
  intro hupdate
  rw [hcmd] at hupdate
  cases hupdate

/-- A command that issues one operation on its target leaves the tables alone. -/
theorem change_of_target {cmd : String} (hupdate : isUpdate cmd = false) {T : CallTables}
    {target : Option Int} (op : Int → ShimCall)
    (hcmd : ∀ call pjId, commandOp e cmd p call pjId = some (op pjId))
    (htarget : target = ((commandTarget e T cmd p).bind T.calls.lookup).bind (·.pjsipCallId)) :
    CommandChange e cmd p T (target.map fun pjId ↦ .op (op pjId)).toList T := by
  apply change_idle hupdate
  rw [htarget, commandOps]
  cases (commandTarget e T cmd p).bind T.calls.lookup with
  | none => rfl
  | some call => cases h : call.pjsipCallId <;> simp [h, hcmd]

/-- `cmd_call_answer` issues its operation on the call it finds. -/
theorem change_cmdCallAnswer (hk : (tables s).Keyed) :
    callView.Yields (cmdCallAnswer p) e s fun _ ↦ CommandChange e "CallAnswer" p (tables s) := by
  unfold cmdCallAnswer
  refine yields_tame_bind (tame_logEngine canLog_nil _ _) fun _ s₁ hs₁ ↦ ?_
  rw [← hs₁] at hk ⊢
  refine yields_seq (yields_answerTarget hk) fun r acts s₂ h ↦ ?_
  obtain ⟨rfl, hs₂, htarget⟩ := h
  have change := change_of_target (by decide) .pdCallAnswer (fun _ _ ↦ rfl) htarget
  rw [← hs₂] at change ⊢
  match r with
  | .error rc => exact View.yields_pure change
  | .ok none =>
    refine yields_tame_bind (tame_logEngine canLog_nil _ _) fun _ s₃ hs₃ ↦ View.yields_pure ?_
    rw [show callView.state s₃ = _ from hs₃]
    exact change
  | .ok (some pjId) =>
    refine yields_tame_bind (tame_logEngine canLog_nil _ _) fun _ s₃ hs₃ ↦ ?_
    refine yields_shim_bind rfl (yields_tame_bind (tame_logAnswered _ _) fun _ s₄ hs₄ ↦ ?_)
    refine View.yields_pure ?_
    rw [show callView.state s₄ = _ from hs₄.trans hs₃]
    exact change

/-- Finding the PJSIP id of the call to hang up. -/
theorem yields_hangupTarget (hk : (tables s).Keyed) :
    callView.Yields (hangupTarget p) e s fun target acts T ↦ acts = [] ∧ T = tables s ∧
      target = ((commandTarget e (tables s) "CallHangup" p).bind
        (tables s).calls.lookup).bind (·.pjsipCallId) := by
  have hid : commandTarget e (tables s) "CallHangup" p =
      (callIdField p).or ((tables s).firstId e (·.isLive)) := rfl
  unfold hangupTarget
  refine yields_withLock (yields_callValues_bind ?_)
  rw [hid]
  unfold CallTables.firstId
  split
  · next id h =>
    refine View.yields_pure ⟨rfl, rfl, ?_⟩
    rw [hk.find_id, h]
    rfl
  · next h =>
    refine View.yields_pure ⟨rfl, rfl, ?_⟩
    rw [h]
    rfl

/-- `cmd_call_hangup` issues its operation on the call it finds. -/
theorem change_cmdCallHangup (hk : (tables s).Keyed) :
    callView.Yields (cmdCallHangup p) e s fun _ ↦ CommandChange e "CallHangup" p (tables s) := by
  unfold cmdCallHangup
  refine yields_seq (yields_hangupTarget hk) fun target acts s₁ h ↦ ?_
  obtain ⟨rfl, hs₁, htarget⟩ := h
  have change := change_of_target (by decide) .pdCallHangup (fun _ _ ↦ rfl) htarget
  rw [← hs₁] at change ⊢
  match target with
  | none => exact View.yields_pure change
  | some pjId =>
    refine yields_shim_bind rfl (yields_tame (?_ : Traced.Admits (Tame []) _) fun _ ↦ change)
    split
    · exact (tame_logEngine canLog_nil _ _).bind fun _ ↦ tame_pure _
    · exact tame_pure _

/-- `cmd_call_send_dtmf` issues its operation under the lock of the table. -/
theorem change_cmdCallSendDtmf :
    callView.Yields (cmdCallSendDtmf p) e s fun _ ↦
      CommandChange e "CallSendDtmf" p (tables s) := by
  have hid : commandTarget e (tables s) "CallSendDtmf" p = callIdField p := rfl
  unfold cmdCallSendDtmf
  split
  · next id digits hcall hdigits =>
    have hop (call : Call) : commandOp e "CallSendDtmf" p call =
        fun pjId ↦ (cString digits).map (.pdCallSendDtmf pjId) := by
      funext pjId
      simp [commandOp, hdigits]
    have ops : commandOps e (tables s) "CallSendDtmf" p =
        ((((tables s).calls.lookup id).bind (·.pjsipCallId)).bind fun pjId ↦
          (cString digits).map (.pdCallSendDtmf pjId)).toList := by
      simp [commandOps, hid, hcall, hop, Option.bind_assoc]
    refine yields_tame_bind (tame_logEngine canLog_nil _ _) fun _ s₁ hs₁ ↦ ?_
    rw [← hs₁] at ops ⊢
    refine yields_seq (Q := fun _ acts T ↦ acts = (commandOps e (tables s₁) "CallSendDtmf" p).map
      .op ∧ T = tables s₁) (yields_withLock (View.yields_get_bind ?_)) ?_
    · rw [ops]
      split
      · next pjId digits hpj hdigits =>
        refine yields_discard_shim rfl ⟨?_, rfl⟩
        simp [show (tables s₁).calls = s₁.calls from rfl, hpj, hdigits]
      · next hnone =>
        refine View.yields_pure ⟨?_, rfl⟩
        cases hpj : ((tables s₁).calls.lookup id).bind (·.pjsipCallId) with
        | none => rfl
        | some pjId =>
          cases hd : cString digits with
          | none => rfl
          | some text => exact absurd hd (hnone pjId text hpj)
    · rintro _ acts s₂ ⟨rfl, hs₂⟩
      refine View.yields_pure ?_
      rw [List.append_nil, show callView.state s₂ = _ from hs₂]
      exact change_idle (by decide) rfl
  · next hnone =>
    refine View.yields_pure (change_idle (by decide) ?_)
    cases hcall : callIdField p with
    | none => simp [commandOps, hid, hcall]
    | some id =>
      cases hdigits : (p.get "digits").asStr with
      | some digits => exact absurd hdigits (hnone id digits hcall)
      | none =>
        have hop (call : Call) : commandOp e "CallSendDtmf" p call = fun _ ↦ none := by
          funext pjId
          simp [commandOp, hdigits]
        simp [commandOps, hid, hcall, hop]

/-- A snapshot of a record. -/
theorem yields_snapshotCall_bind {β : Type} {id : UInt32} {f : Option Call → Eng β}
    {R : β → List CallAct → CallTables → Prop}
    (h : callView.Yields (f ((tables s).calls.lookup id)) e s R) :
    callView.Yields (snapshotCall id >>= f) e s R := h

/-- An amendment of a record. -/
theorem yields_amendCall_bind {β : Type} {id : UInt32} {g : Call → Call} {f : Unit → Eng β}
    {R : β → List CallAct → CallTables → Prop}
    (h : ∀ s₁, (tables s₁ = tables s ∨ ∃ old, (tables s).calls.lookup id = some old ∧
      tables s₁ = (tables s).setCall id (g old)) → callView.Yields (f ()) e s₁ R) :
    callView.Yields (amendCall id g >>= f) e s R := by
  refine yields_seq (Q := fun _ acts T ↦ acts = [] ∧ (T = tables s ∨
    ∃ old, (tables s).calls.lookup id = some old ∧ T = (tables s).setCall id (g old)))
    (yields_withLock (View.yields_get_bind ?_)) ?_
  · split
    · next old hl => exact ⟨rfl, Or.inr ⟨old, hl, rfl⟩⟩
    · exact ⟨rfl, Or.inl rfl⟩
  · rintro _ acts s₁ ⟨rfl, hs₁⟩
    exact h s₁ hs₁

/-- Setting the recording fields leaves the rest of a record. -/
theorem sameCall_record (call : Call) (path : Option String) (startedAt : Option Nat) :
    SameCall call { call with recordingPath := path, recordingStartedAtMs := startedAt } := rfl

/-- What the recording functions do to the tables: nothing, or an update of the recording
fields of one record. -/
def RecordingChange (id : UInt32) (T T' : CallTables) : Prop :=
  T' = T ∨ ∃ old new, T.calls.lookup id = some old ∧ SameCall old new ∧ T' = T.setCall id new

/-- The recording calls the shim, and the record is marked if that went well. -/
theorem yields_beginRecording (id : UInt32) (pjId : Int) (path : String) :
    callView.Yields (beginRecording id pjId path) e s fun _ acts T ↦
      acts = [.op (.pdCallStartRecording pjId path)] ∧ RecordingChange id (tables s) T := by
  unfold beginRecording
  refine yields_shim_bind rfl ?_
  split
  · refine yields_tame (?_ : Traced.Admits (Tame []) _) fun _ ↦ ⟨rfl, Or.inl rfl⟩
    refine (tame_logEngine canLog_nil _ _).bind fun _ ↦ ?_
    exact (tame_pushRecording canLog_nil.2 (by decide) _).bind fun _ ↦ tame_pure _
  · refine yields_tame_bind (tame_nowMillis : Traced.Admits (Tame []) _) fun now s₁ hs₁ ↦ ?_
    rw [← hs₁]
    refine yields_amendCall_bind fun s₂ hs₂ ↦ ?_
    refine yields_tame (?_ : Traced.Admits (Tame []) _) fun _ ↦ ⟨rfl, ?_⟩
    · exact (tame_pushRecording canLog_nil.2 (by decide) _).bind fun _ ↦ tame_pure _
    · rcases hs₂ with hs₂ | ⟨old, hl, hs₂⟩
      · exact Or.inl hs₂
      · exact Or.inr ⟨old, _, hl, sameCall_record old _ _, hs₂⟩

/-- The end of a recording calls the shim, and the record is marked if that went well. -/
theorem yields_finishRecording (id : UInt32) (pjId : Int) (path : String)
    (startedAt : Option Nat) :
    callView.Yields (finishRecording id pjId path startedAt) e s fun _ acts T ↦
      acts = [.op (.pdCallStopRecording pjId)] ∧ RecordingChange id (tables s) T := by
  unfold finishRecording
  refine yields_shim_bind rfl ?_
  split
  · refine yields_tame (?_ : Traced.Admits (Tame []) _) fun _ ↦ ⟨rfl, Or.inl rfl⟩
    refine (tame_logEngine canLog_nil _ _).bind fun _ ↦ ?_
    exact (tame_pushRecording canLog_nil.2 (by decide) _).bind fun _ ↦ tame_pure _
  · refine yields_tame_bind (tame_nowMillis : Traced.Admits (Tame []) _) fun now s₁ hs₁ ↦ ?_
    rw [← hs₁]
    refine View.yields_ask_bind (yields_amendCall_bind fun s₂ hs₂ ↦ ?_)
    refine yields_tame (?_ : Traced.Admits (Tame []) _) fun _ ↦ ⟨rfl, ?_⟩
    · refine (tame_pushRecording canLog_nil.2 (by decide) _).bind fun _ ↦ ?_
      refine Traced.Admits.bind (tame_ask.bind fun _ ↦ ?_) fun _ ↦ tame_pure _
      exact tame_pushRecording canLog_nil.2 (by decide) _
    · rcases hs₂ with hs₂ | ⟨old, hl, hs₂⟩
      · exact Or.inl hs₂
      · exact Or.inr ⟨old, _, hl, sameCall_record old _ _, hs₂⟩

/-- `start_recording_for_call` issues its operation when its guards pass, and then marks the
record. -/
theorem yields_startRecordingForCall (id : UInt32) (path : String) :
    callView.Yields (startRecordingForCall id path) e s fun _ acts T ↦
      acts = ((((tables s).calls.lookup id).bind fun call ↦ call.pjsipCallId.bind fun pjId ↦
        startRecordingOp e call pjId path).toList).map .op ∧
      RecordingChange id (tables s) T := by
  unfold startRecordingForCall
  refine yields_snapshotCall_bind ?_
  split
  · next hl => exact View.yields_pure ⟨by rw [hl]; rfl, Or.inl rfl⟩
  · next call hl =>
    rw [hl]
    split
    · next hended =>
      refine View.yields_pure ⟨?_, Or.inl rfl⟩
      cases h : call.pjsipCallId <;> simp [h, startRecordingOp, hended]
    · split
      · next hstate =>
        refine View.yields_pure ⟨?_, Or.inl rfl⟩
        cases h : call.pjsipCallId <;> simp [h, startRecordingOp, hstate]
      · next hstate =>
        rw [not_not] at hstate
        split
        · next hpj => exact View.yields_pure ⟨by simp [hpj], Or.inl rfl⟩
        · next pjId hpj =>
          split
          · next hpath =>
            refine View.yields_pure ⟨?_, Or.inl rfl⟩
            simp [startRecordingOp, hpath]
          · next text hpath =>
            refine yields_read_bind (tame_shim rfl : Traced.Admits (Tame []) _)
              (P := fun rc ↦ rc = e.rc (.pdCallIsRecording pjId)) rfl ?_
            rintro rc s₁ rfl hs₁
            rw [← hs₁]
            split
            · next hrc =>
              refine View.yields_pure ⟨?_, Or.inl rfl⟩
              simp [hpj, startRecordingOp, hrc]
            · next hrc =>
              rw [not_not] at hrc
              refine (yields_beginRecording id pjId text).imp ?_
              rintro _ acts T ⟨rfl, hT⟩
              refine ⟨?_, hT⟩
              simp [hpj, startRecordingOp, hrc, hstate, hpath]

/-- `stop_recording_for_call` issues its operation when the call has a path and PJSIP records. -/
theorem yields_stopRecordingForCall (id : UInt32) :
    callView.Yields (stopRecordingForCall id) e s fun _ acts T ↦
      acts = ((((tables s).calls.lookup id).bind fun call ↦ call.pjsipCallId.bind fun pjId ↦
        stopRecordingOp e call pjId).toList).map .op ∧
      RecordingChange id (tables s) T := by
  unfold stopRecordingForCall
  refine yields_snapshotCall_bind ?_
  split
  · next hl => exact View.yields_pure ⟨by rw [hl]; rfl, Or.inl rfl⟩
  · next call hl =>
    rw [hl]
    split
    · next pjId path hpj hpath =>
      refine yields_read_bind (tame_shim rfl : Traced.Admits (Tame []) _)
        (P := fun rc ↦ rc = e.rc (.pdCallIsRecording pjId)) rfl ?_
      rintro rc s₁ rfl hs₁
      rw [← hs₁]
      split
      · next hrc =>
        refine View.yields_pure ⟨?_, Or.inl rfl⟩
        simp [hpj, stopRecordingOp, hrc]
      · next hrc =>
        refine (yields_finishRecording id pjId path _).imp ?_
        rintro _ acts T ⟨rfl, hT⟩
        refine ⟨?_, hT⟩
        simp [hpj, stopRecordingOp, hrc, hpath]
    · next hnone =>
      refine View.yields_pure ⟨?_, Or.inl rfl⟩
      cases hpj : call.pjsipCallId with
      | none => simp [hpj]
      | some pjId =>
        cases hpath : call.recordingPath with
        | none => simp [hpj, stopRecordingOp, hpath]
        | some path => exact absurd hpath (hnone pjId path hpj)

/-- A recording command, given what its function shows. -/
theorem change_of_recording {cmd : String} {T T' : CallTables} {id : UInt32}
    {acts : List CallAct} (hcmd : cmd = "CallStartRecording" ∨ cmd = "CallStopRecording")
    (hid : commandTarget e T cmd p = some id) (hacts : acts = (commandOps e T cmd p).map .op)
    (hT : RecordingChange id T T') : CommandChange e cmd p T acts T' := by
  rw [hacts]
  rcases hT with rfl | ⟨old, new, hl, hsame, rfl⟩
  · refine change_idle ?_ rfl
    rcases hcmd with rfl | rfl <;> decide
  · exact .record hcmd hid hl hsame

/-- `cmd_call_start_recording` issues its operation when its guards pass. -/
theorem change_cmdCallStartRecording :
    callView.Yields (cmdCallStartRecording p) e s fun _ ↦
      CommandChange e "CallStartRecording" p (tables s) := by
  have hid : commandTarget e (tables s) "CallStartRecording" p = callIdField p := rfl
  unfold cmdCallStartRecording
  split
  · next id path hcall hpath =>
    split
    · next hblank =>
      refine View.yields_pure (change_idle (by decide) ?_)
      have hop (call : Call) : commandOp e "CallStartRecording" p call = fun _ ↦ none := by
        funext pjId
        simp [commandOp, hpath, hblank]
      simp [commandOps, hid, hcall, hop]
    · next hblank =>
      refine (yields_startRecordingForCall id (trim path)).imp ?_
      rintro _ acts T ⟨rfl, hT⟩
      refine change_of_recording (Or.inl rfl) (hid.trans hcall) ?_ hT
      have hop (call : Call) : commandOp e "CallStartRecording" p call =
          fun pjId ↦ startRecordingOp e call pjId (trim path) := by
        funext pjId
        simp [commandOp, hpath, Option.filter, hblank]
      simp [commandOps, hid, hcall, hop]
  · next hnone =>
    refine View.yields_pure (change_idle (by decide) ?_)
    cases hcall : callIdField p with
    | none => simp [commandOps, hid, hcall]
    | some id =>
      cases hpath : (p.get "file_path").asStr with
      | some path => exact absurd hpath (hnone id path hcall)
      | none =>
        have hop (call : Call) : commandOp e "CallStartRecording" p call = fun _ ↦ none := by
          funext pjId
          simp [commandOp, hpath]
        simp [commandOps, hid, hcall, hop]

/-- `cmd_call_stop_recording` issues its operation when its guards pass. -/
theorem change_cmdCallStopRecording :
    callView.Yields (cmdCallStopRecording p) e s fun _ ↦
      CommandChange e "CallStopRecording" p (tables s) := by
  have hid : commandTarget e (tables s) "CallStopRecording" p = callIdField p := rfl
  unfold cmdCallStopRecording
  split
  · next id hcall =>
    refine (yields_stopRecordingForCall id).imp ?_
    rintro _ acts T ⟨rfl, hT⟩
    refine change_of_recording (Or.inr rfl) (hid.trans hcall) ?_ hT
    simp [commandOps, hid, hcall]
    rfl
  · next hcall =>
    exact View.yields_pure (change_idle (by decide) (by simp [commandOps, hid, hcall]))

end Commands

section CallStart

variable {e : Env} {s : Engine} {p : Json}

/-- Entering a new call reports it and fills both tables. -/
theorem yields_trackCall_bind {β : Type} {call : Call} {pjId : Int} {f : Unit → Eng β}
    {R : β → List CallAct → CallTables → Prop}
    (h : ∀ report s₁, IsReport call report →
      tables s₁ = ⟨(tables s).calls.insert call.id call, (tables s).callMap.insert pjId call.id,
        (tables s).nextCallId⟩ →
      callView.Yields (f ()) e s₁ fun b acts T ↦ R b (report :: acts) T) :
    callView.Yields (trackCall call pjId >>= f) e s R := by
  refine yields_seq (Q := fun _ acts T ↦ ∃ report, IsReport call report ∧ acts = [report] ∧
    T = ⟨(tables s).calls.insert call.id call, (tables s).callMap.insert pjId call.id,
      (tables s).nextCallId⟩) ?_ ?_
  · unfold trackCall
    refine yields_pushCallState_bind fun report s₁ hr hs₁ ↦ ?_
    rw [← hs₁]
    exact ⟨report, hr, rfl, rfl⟩
  · rintro _ acts s₁ ⟨report, hr, rfl, hs₁⟩
    exact h report s₁ hr hs₁

/-- Placing a call uses up the id; if PJSIP takes the call, it is entered. -/
theorem yields_placeCall (callId : UInt32) (accountId uri : String) (pjAccId : Int) :
    callView.Yields (placeCall callId accountId uri pjAccId) e s fun _ acts T ↦
      ((acts = [] ∨ ∃ dst, acts = [.op (.pdCallMake pjAccId dst)] ∧
          e.rc (.pdCallMake pjAccId dst) < 0) ∧ T = tables s) ∨
      ∃ dst report, 0 ≤ e.rc (.pdCallMake pjAccId dst) ∧
        IsReport (newCall callId accountId uri .outgoing (e.rc (.pdCallMake pjAccId dst))) report ∧
        acts = [.op (.pdCallMake pjAccId dst), report] ∧
        T = ⟨(tables s).calls.insert callId
            (newCall callId accountId uri .outgoing (e.rc (.pdCallMake pjAccId dst))),
          (tables s).callMap.insert (e.rc (.pdCallMake pjAccId dst)) callId,
          (tables s).nextCallId⟩ := by
  unfold placeCall
  refine yields_tame_bind (tame_logEngine canLog_nil _ _) fun _ s₁ hs₁ ↦ ?_
  refine yields_tame_bind tame_audioPreflight fun _ s₂ hs₂ ↦ ?_
  rw [← hs₁, ← hs₂]
  split
  · refine yields_tame (?_ : Traced.Admits (Tame []) _) fun _ ↦ Or.inl ⟨Or.inl rfl, rfl⟩
    exact (tame_logEngine canLog_nil _ _).bind fun _ ↦ tame_pure _
  · next dst _ =>
    refine yields_shim_bind rfl ?_
    split
    · next hneg =>
      refine yields_tame (?_ : Traced.Admits (Tame []) _) fun _ ↦
        Or.inl ⟨Or.inr ⟨dst, rfl, hneg⟩, rfl⟩
      refine (tame_logEngine canLog_nil _ _).bind fun _ ↦ ?_
      exact (tame_logEngine canLog_nil _ _).bind fun _ ↦ tame_pure _
    · next hpos =>
      refine yields_trackCall_bind fun report s₃ hr hs₃ ↦ ?_
      refine yields_tame_bind (tame_logEngine canLog_nil _ _) fun _ s₄ hs₄ ↦ View.yields_pure ?_
      exact Or.inr ⟨dst, report, not_lt.mp hpos, hr, rfl, hs₄.trans hs₃⟩

/-- From the normalisation on, an id is used up, and maybe a call entered under it. -/
theorem change_startCall (accountId rawUri : String) (hint : Option String) (pjAccId : Int) :
    callView.Yields (startCall accountId rawUri hint pjAccId) e s fun _ ↦
      CommandChange e "CallStart" p (tables s) := by
  have place (uri : String) (s₁ : Engine) (hs₁ : tables s₁ = tables s) :
      callView.Yields (do placeCall (← fetchNextCallId) accountId uri pjAccId) e s₁ fun _ ↦
        CommandChange e "CallStart" p (tables s) := by
    refine yields_fetchNextCallId_bind fun s₂ hs₂ ↦ ?_
    rw [← hs₁]
    refine (yields_placeCall _ accountId uri pjAccId).imp ?_
    rw [hs₂]
    rintro _ acts T (⟨hacts | ⟨dst, hacts, hneg⟩, rfl⟩ | ⟨dst, report, hpos, hr, rfl, rfl⟩)
    · exact .burn rfl (Or.inl hacts)
    · exact .burn rfl (Or.inr ⟨pjAccId, dst, hacts, hneg⟩)
    · exact .track rfl hpos hr
  unfold startCall
  dsimp only
  split
  · exact yields_tame_bind (tame_logEngine canLog_nil _ _) fun _ s₁ hs₁ ↦ place _ s₁ hs₁
  · exact place _ s rfl

/-- `cmd_call_start` does nothing, uses up an id or enters a new call. -/
theorem change_cmdCallStart :
    callView.Yields (cmdCallStart p) e s fun _ ↦ CommandChange e "CallStart" p (tables s) := by
  have unchanged (T : CallTables) : CommandChange e "CallStart" p T [] T :=
    change_idle (by decide) rfl
  unfold cmdCallStart
  refine yields_tame_bind (tame_callAccount p) fun account s₁ hs₁ ↦ ?_
  rw [← hs₁]
  split
  · exact View.yields_pure (unchanged _)
  · split
    · exact View.yields_pure (unchanged _)
    · dsimp only
      split
      · refine yields_tame (?_ : Traced.Admits (Tame []) _) fun _ ↦ unchanged _
        exact (tame_logEngine canLog_nil _ _).bind fun _ ↦ tame_pure _
      · refine yields_tame_bind (tame_callStartAccount _) fun found s₂ hs₂ ↦ ?_
        rw [← hs₂]
        split
        · refine yields_tame (?_ : Traced.Admits (Tame []) _) fun _ ↦ unchanged _
          exact (tame_logEngine canLog_nil _ _).bind fun _ ↦ tame_pure _
        · exact change_startCall _ _ _ _

end CallStart

end PacketDial.System
