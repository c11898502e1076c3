import PacketDial.System.Records
import PacketDial.Ui.History

/-!
# What the app sees of a step

The reports of a step together with what it does to the states and routes of the calls. A step
shows nothing, a live call, a new call, the end of a call, or an ended call once more.
-/

namespace PacketDial.Ui

open PacketDial.Core PacketDial.Lib PacketDial.System

/-- The state of the record with an id. -/
def stateOf (T : CallTables) (id : UInt32) : Option Core.CallState :=
  (T.calls.lookup id).map (·.state)

/-- Writing a record. -/
theorem stateOf_setCall (T : CallTables) (id : UInt32) (call : Call) :
    stateOf (T.setCall id call) = Function.update (stateOf T) id (some call.state) := by
  funext id'
  unfold stateOf
  by_cases h : id' = id
  · subst h
    rw [lookup_setCall, Function.update_self]
    rfl
  · rw [lookup_setCall_ne T h, Function.update_of_ne h]

/-- Writing a record in the state it had. -/
theorem stateOf_setCall_same {T : CallTables} {id : UInt32} {old new : Call}
    (hl : T.calls.lookup id = some old) (h : new.state = old.state) :
    stateOf (T.setCall id new) = stateOf T := by
  rw [stateOf_setCall, h]
  apply Function.update_eq_self_iff.mpr
  rw [stateOf, hl]
  rfl

/-- A recording function leaves the states. -/
theorem stateOf_recording {T T' : CallTables} {id : UInt32} (h : RecordingChange id T T') :
    stateOf T' = stateOf T := by
  rcases h with rfl | ⟨old, new, hl, hsame, rfl⟩
  · rfl
  · exact stateOf_setCall_same hl hsame.state_eq

/-- A recording function leaves the id counter. -/
theorem nextCallId_recording {T T' : CallTables} {id : UInt32} (h : RecordingChange id T T') :
    T'.nextCallId = T.nextCallId := by
  rcases h with rfl | ⟨old, new, hl, hsame, rfl⟩ <;> rfl

/-- The id that a `CallMute` of the input resolves. -/
def muteTarget (i : Input) (s : Engine) : Option UInt32 :=
  (commandOf i s).bind fun c ↦
    if c.1 = "CallMute" then commandTarget i.env (tables s) c.1 c.2 else none

/-- The call that an input reports to be in a state. -/
def stateTarget (i : Input) (s : Engine) (newState : Core.CallState) : Option UInt32 :=
  match i.op with
  | .onCallState pjCallId invState =>
    if invCallState invState = some newState then s.pjsipCallMap.lookup pjCallId else none
  | _ => none

/-- What the app sees of a step: nothing, a live call, a new call or the end of a call. -/
inductive Sighting (i : Input) (s : Engine) : List Json → CallTables → Prop where
  | silent {T : CallTables} (hstate : stateOf T = stateOf (tables s))
      (hroute : ∀ pj id, T.route pj = some id → (tables s).route pj = some id) :
      Sighting i s [] T
  | live {call : Call} {report : CallAct} {T : CallTables} (hr : IsReport call report)
      (hlive : call.state ≠ .ended)
      (hstate : stateOf T = Function.update (stateOf (tables s)) call.id (some call.state))
      (hroute : T.route = (tables s).route) (hnext : T.nextCallId = (tables s).nextCallId) :
      Sighting i s (reports [report]) T
  | opened {accountId uri : String} {direction : Core.CallDirection} {pjCallId : Int}
      {report : CallAct} (hop : opensCall i s)
      (hr : IsReport (newCall (tables s).nextCallId accountId uri direction pjCallId) report) :
      Sighting i s (reports [report])
        ((tables s).track (newCall (tables s).nextCallId accountId uri direction pjCallId)
          pjCallId)
  | ended {call : Call} {report : CallAct} {pjCallId : Int} {T : CallTables}
      (htarget : stateTarget i s .ended = some call.id) (hr : IsReport call report)
      (hended : call.state = .ended) (hmap : (tables s).route pjCallId = some call.id)
      (hstate : stateOf T = Function.update (stateOf (tables s)) call.id (some .ended))
      (hroute : T.route = Function.update (tables s).route pjCallId none)
      (hnext : T.nextCallId = (tables s).nextCallId) :
      Sighting i s (reports [report]) T
  | again {call : Call} {report : CallAct} {T : CallTables} (hmute : muteTarget i s = some call.id)
      (hr : IsReport call report) (hended : call.state = .ended)
      (hwas : stateOf (tables s) call.id = some .ended)
      (hstate : stateOf T = stateOf (tables s)) (hroute : T.route = (tables s).route)
      (hnext : T.nextCallId = (tables s).nextCallId) :
      Sighting i s (reports [report]) T

section Sightings

variable {i : Input} {s : Engine} {acts : List CallAct} {T : CallTables}

/-- Nothing is seen of a step that leaves the states and the routes. -/
theorem silent_of_same (hacts : reports acts = []) (hstate : stateOf T = stateOf (tables s))
    (hroute : T.route = (tables s).route) : Sighting i s (reports acts) T := by
  rw [hacts]
  refine .silent hstate fun pj id h ↦ ?_
  rw [← hroute]
  exact h

/-- A live record is written and reported. -/
theorem live_of_setCall {id : UInt32} {call : Call} {report : CallAct}
    (hacts : reports acts = reports [report]) (hr : IsReport call report) (hid : call.id = id)
    (hlive : call.state ≠ .ended) : Sighting i s (reports acts) ((tables s).setCall id call) := by
  rw [hacts]
  subst hid
  exact .live hr hlive (stateOf_setCall _ _ _) rfl rfl

/-- How the app sees a command. -/
theorem sighting_of_command {cmd : String} {p : Json} (hk : (tables s).Keyed)
    (hcmd : commandOf i s = some (cmd, p))
    (h : CommandChange i.env cmd p (tables s) acts T) : Sighting i s (reports acts) T := by
  have hreports (report : CallAct) :
      reports (report :: (commandOps i.env (tables s) cmd p).map .op) = reports [report] := by
    rw [← List.singleton_append, reports_append, reports_map_op, List.append_nil]
  cases h with
  | idle _ => exact silent_of_same (reports_map_op _) rfl rfl
  | burn _ hacts =>
    refine silent_of_same ?_ rfl rfl
    rcases hacts with rfl | ⟨_, _, rfl, _⟩ <;> rfl
  | track hstart _ hr =>
    refine .opened (Or.inl ?_) hr
    rw [hcmd, hstart]
    rfl
  | @mute id old report hm hid hl hr =>
    have htarget : muteTarget i s = some id := by
      simp only [muteTarget, hcmd, Option.bind_some, hm, if_true]
      rw [← hm]
      exact hid
    have hkeyed : old.id = id := hk _ _ hl
    by_cases hended : old.state = .ended
    · have hwas : stateOf (tables s) id = some .ended := by
        rw [stateOf, hl, Option.map_some, hended]
      rw [hreports]
      rw [← hkeyed] at htarget hwas
      refine Sighting.again (?_ : muteTarget i s = some (Call.id _)) hr hended hwas
        (stateOf_setCall_same hl rfl) rfl rfl
      exact htarget
    · exact live_of_setCall (hreports _) hr hkeyed hended
  | hold _ _ hl hr =>
    refine live_of_setCall (hreports _) hr ?_ ?_
    · rw [heldRecord_id]
      exact hk _ _ hl
    · rw [heldRecord_state]
      split <;> decide
  | record _ _ hl hsame =>
    exact silent_of_same (reports_map_op _) (stateOf_setCall_same hl hsame.state_eq) rfl

/-- A state callback is seen as a live call or as the end of one. -/
theorem sighting_of_state {pjCallId invState : Int} {newState : Core.CallState}
    (hk : (tables s).Keyed) (hop : i.op = .onCallState pjCallId invState)
    (hinv : invCallState invState = some newState)
    (h : StateChange i.env pjCallId newState (tables s) acts T) :
    Sighting i s (reports acts) T := by
  cases h with
  | unrouted =>
    refine .silent ?_ fun pj id hid ↦ ?_
    · unfold stateOf
      rw [CallTables.unmap_calls]
    · unfold CallTables.unmap at hid
      split at hid
      · change (AList.lookup pj ((tables s).callMap.erase pjCallId)) = some id at hid
        by_cases heq : pj = pjCallId
        · subst heq
          rw [AList.lookup_erase] at hid
          cases hid
        · rw [AList.lookup_erase_ne heq] at hid
          exact hid
      · exact hid
  | @routed id old now report acts _ hmap hl hr hstop _ =>
    obtain ⟨⟨ops, rfl, -⟩, hT⟩ := hstop
    have hacts : reports (report :: ops.map .op) = reports [report] := by
      rw [← List.singleton_append, reports_append, reports_map_op, List.append_nil]
    have hid : (stateRecord newState now old).id = id := by
      rw [stateRecord_id]
      exact hk _ _ hl
    have hstate : stateOf T = Function.update (stateOf (tables s))
        (stateRecord newState now old).id (some newState) := by
      rw [stateOf_recording hT, stateOf_setCall, hid, stateRecord_state]
      unfold stateOf
      rw [CallTables.unmap_calls]
    have hnext : T.nextCallId = (tables s).nextCallId := by
      rw [nextCallId_recording hT]
      exact CallTables.unmap_nextCallId _ _ _
    have hroute : T.route = ((tables s).unmap pjCallId newState).route := by
      rw [route_of_recording hT]
      rfl
    rw [hacts]
    by_cases hended : newState = .ended
    · subst hended
      rw [CallTables.route_unmap] at hroute
      rw [← hid] at hmap
      refine .ended ?_ hr (stateRecord_state _ _ _) hmap hstate hroute hnext
      rw [stateTarget, hop]
      dsimp only
      rw [if_pos hinv]
      exact hmap
    · have hunmap : (tables s).unmap pjCallId newState = tables s := by
        unfold CallTables.unmap
        rw [if_neg hended]
      rw [hunmap] at hroute
      refine .live hr ?_ ?_ hroute hnext
      · rw [stateRecord_state]
        exact hended
      · rw [stateRecord_state]
        exact hstate

/-- Every step is seen in one of the five ways. -/
theorem sighting_of_change (hk : (tables s).Keyed) (h : Change i s acts T) :
    Sighting i s (reports acts) T := by
  cases h with
  | quiet | transfer | consultFailed | completeXfer | merge => exact silent_of_same rfl rfl rfl
  | command hcmd h => exact sighting_of_command hk hcmd h
  | startRecording _ _ hT =>
    exact silent_of_same (reports_map_op _) (stateOf_recording hT) (route_of_recording hT)
  | stopRecording _ _ hT =>
    exact silent_of_same (reports_map_op _) (stateOf_recording hT) (route_of_recording hT)
  | consult hop _ hr => exact .opened (Or.inr (by rw [hop]; rfl)) hr
  | shutdown => exact .silent rfl fun pj id h ↦ absurd h (by simp [CallTables.route])
  | incoming hop hr => exact .opened (Or.inr (by rw [hop]; rfl)) hr
  | state hop hinv h => exact sighting_of_state hk hop hinv h
  | @media pjCallId active _ _ _ h =>
    cases h with
    | unrouted => exact silent_of_same rfl rfl rfl
    | routed _ hl hr =>
      refine live_of_setCall ?_ hr ?_ (mediaRecord_state _ _ _)
      · rw [reports_append, reports_map_op, List.nil_append]
      · rw [mediaRecord_id]
        exact hk _ _ hl

end Sightings

/-- The call that a step creates: an id is used up, and a call is reported. -/
def createdBy (i : Input) (s s' : Engine) : Option UInt32 :=
  if s'.nextCallId ≠ s.nextCallId ∧ reports (i.acts s) ≠ [] then some s.nextCallId else none

end PacketDial.Ui
