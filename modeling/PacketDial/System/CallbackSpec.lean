import PacketDial.System.CommandSpec

/-!
# What the callbacks change

The table effects of the three PJSIP callbacks on calls: an incoming call, a call state and a
media state. A callback finds its record through `PJSIP_CALL_MAP`; the record it writes is a
function of the record it finds and of the clock.
-/

namespace PacketDial.System

open PacketDial.Core PacketDial.Lib

/-- The record that a call-state callback makes of `call` at `now`. -/
def stateRecord (newState : CallState) (now : Nat) (call : Call) : Call :=
  if newState = .inCall ∧ call.state ≠ .inCall then
    { call with state := newState, lastResumedAt := some now }
  else if newState = .ended ∧ call.state = .inCall then
    settled now { call with state := newState }
  else { call with state := newState }

/-- The record that a media callback makes of `call` at `now`. -/
def mediaRecord (active : Int) (now : Nat) (call : Call) : Call :=
  if active ≠ 0 then { call with state := if call.onHold then .onHold else .inCall }
  else settled now { call with onHold := true, state := .onHold }

/-- The operations of a media callback: mute and hold are applied again. -/
def mediaOps (pjCallId active : Int) (call : Call) : List ShimCall :=
  if active ≠ 0 then
    (if call.muted then [.pdCallSetMute pjCallId true] else []) ++
      (if call.onHold then [.pdCallHold pjCallId true] else [])
  else []

namespace CallTables

/-- The map after a state callback: a disconnected id is removed. -/
def unmap (T : CallTables) (pjCallId : Int) (newState : CallState) : CallTables :=
  if newState = .ended then { T with callMap := T.callMap.erase pjCallId } else T

@[simp] theorem unmap_calls (T : CallTables) (pjCallId : Int) (newState : CallState) :
    (T.unmap pjCallId newState).calls = T.calls := by
  unfold unmap
  split <;> rfl

@[simp] theorem unmap_nextCallId (T : CallTables) (pjCallId : Int) (newState : CallState) :
    (T.unmap pjCallId newState).nextCallId = T.nextCallId := by
  unfold unmap
  split <;> rfl

end CallTables

variable {e : Env} {s : Engine}

/-- An incoming call for a known account is entered under the next id. -/
theorem yields_pjsipOnIncomingCall (pjAccId pjCallId : Int) (fromUri : CPtr) :
    callView.Yields (pjsipOnIncomingCall pjAccId pjCallId fromUri) e s fun _ acts T ↦
      (acts = [] ∧ T = tables s) ∨
      ∃ accountId uri report,
        IsReport (newCall (tables s).nextCallId accountId uri .incoming pjCallId) report ∧
        acts = [report] ∧
        T = (tables s).track (newCall (tables s).nextCallId accountId uri .incoming pjCallId)
          pjCallId := by
  unfold pjsipOnIncomingCall
  dsimp only
  refine yields_tame_bind (?_ : Traced.Admits (Tame []) _) fun found s₁ hs₁ ↦ ?_
  · exact tame_withLock (by decide) (tame_get.bind fun _ ↦ tame_pure _)
  · rw [← hs₁]
    split
    · exact yields_tame (tame_logEngine canLog_nil _ _) fun _ ↦ Or.inl ⟨rfl, rfl⟩
    · next accountId =>
      refine yields_fetchNextCallId_bind fun s₂ hs₂ ↦ ?_
      refine yields_trackCall_bind fun report s₃ hr hs₃ ↦ ?_
      refine yields_tame (tame_logEngine canLog_nil _ _) fun _ ↦ ?_
      refine Or.inr ⟨accountId, _, report, hr, rfl, hs₃.trans ?_⟩
      rw [hs₂]
      rfl

/-- The record that `applyState` returns. -/
theorem applyState_value (newState : CallState) (old : Call) :
    ((applyState newState old).run e s).value = stateRecord newState (secsAt e s) old := by
  unfold applyState stateRecord
  split
  · rfl
  · split
    · exact settleActive_value _
    · rfl

/-- Under the `CALLS` lock a state callback rewrites and reports the record, if there is one, at
the time of the first clock reading. -/
theorem yields_stateSection (newState : CallState) (id : UInt32) :
    callView.Yields (stateSection newState id) e s fun _ acts T ↦
      (acts = [] ∧ T = tables s ∧ (tables s).calls.lookup id = none) ∨
      ∃ old report, (tables s).calls.lookup id = some old ∧
        IsReport (stateRecord newState (secsAt e s) old) report ∧ acts = [report] ∧
        T = (tables s).setCall id (stateRecord newState (secsAt e s) old) := by
  unfold stateSection
  refine yields_withLock (View.yields_get_bind ?_)
  split
  · next hl => exact View.yields_pure (Or.inl ⟨rfl, rfl, hl⟩)
  · next old hl =>
    refine yields_read_bind (tame_applyState newState old)
      (P := fun call ↦ call = stateRecord newState (secsAt e s) old) (applyState_value _ _) ?_
    rintro call s₁ rfl hs₁
    refine yields_insertCall_bind fun s₂ hs₂ ↦ ?_
    refine yields_pushCallState_bind fun report s₃ hr hs₃ ↦ ?_
    refine yields_tame (?_ : Traced.Admits (Tame [.calls]) _) fun _ ↦ ?_
    · exact Traced.admits_ite (tame_withLock (by decide) (tame_eraseMediaStats id)) (tame_pure _)
    · exact Or.inr ⟨old, report, hl, hr, rfl, hs₃.trans (hs₂.trans (by rw [hs₁]))⟩

/-- What stopping the recording of a call shows and changes. -/
def StopChange (e : Env) (id : UInt32) (T : CallTables) (acts : List CallAct)
    (T' : CallTables) : Prop :=
  (∃ ops : List ShimCall, acts = ops.map .op ∧ ∀ op ∈ ops, ∃ call pjId,
    T.calls.lookup id = some call ∧ call.pjsipCallId = some pjId ∧
      stopRecordingOp e call pjId = some op) ∧ RecordingChange id T T'

/-- Nothing shown and nothing changed is one way to stop a recording. -/
theorem stopChange_refl (e : Env) (id : UInt32) (T : CallTables) : StopChange e id T [] T :=
  ⟨⟨[], rfl, fun _ h ↦ absurd h List.not_mem_nil⟩, Or.inl rfl⟩

/-- There is no recording to stop without a record. -/
theorem StopChange.of_missing {id : UInt32} {T T' : CallTables} {acts : List CallAct}
    (h : StopChange e id T acts T') (hl : T.calls.lookup id = none) : acts = [] ∧ T' = T := by
  obtain ⟨⟨ops, rfl, hops⟩, hT⟩ := h
  constructor
  · cases ops with
    | nil => rfl
    | cons op ops =>
      obtain ⟨call, _, hcall, _⟩ := hops op List.mem_cons_self
      rw [hl] at hcall
      cases hcall
  · rcases hT with rfl | ⟨old, _, hold, _⟩
    · rfl
    · rw [hl] at hold
      cases hold

/-- The recording of a call that ended is stopped if it has a path. -/
theorem yields_stopAfterEnd (id : UInt32) :
    callView.Yields (stopAfterEnd id) e s fun _ acts T ↦ StopChange e id (tables s) acts T := by
  unfold stopAfterEnd
  refine yields_snapshotCall_bind ?_
  split
  · refine View.yields_map ((yields_stopRecordingForCall id).imp ?_)
    rintro _ acts T ⟨rfl, hT⟩
    refine ⟨⟨_, rfl, fun op hop ↦ ?_⟩, hT⟩
    rw [Option.mem_toList, Option.bind_eq_some_iff] at hop
    obtain ⟨call, hl, hop⟩ := hop
    rw [Option.bind_eq_some_iff] at hop
    obtain ⟨pjId, hpj, hop⟩ := hop
    exact ⟨call, pjId, hl, hpj, hop⟩
  · exact View.yields_pure (stopChange_refl e id _)

/-- What a state callback with a state of its own can do to the tables `T`. -/
inductive StateChange (e : Env) (pjCallId : Int) (newState : CallState) (T : CallTables) :
    List CallAct → CallTables → Prop where
  | unrouted (hmap : T.callMap.lookup pjCallId = none ∨ ∃ id,
      T.callMap.lookup pjCallId = some id ∧ T.calls.lookup id = none) :
      StateChange e pjCallId newState T [] (T.unmap pjCallId newState)
  | routed {id : UInt32} {old : Call} {now : Nat} {report : CallAct} {acts : List CallAct}
      {T' : CallTables} (hmap : T.callMap.lookup pjCallId = some id)
      (hold : T.calls.lookup id = some old)
      (hreport : IsReport (stateRecord newState now old) report)
      (hstop : StopChange e id
        ((T.unmap pjCallId newState).setCall id (stateRecord newState now old)) acts T')
      (hacts : newState ≠ .ended → acts = []) :
      StateChange e pjCallId newState T (report :: acts) T'

/-- The record in a table after writing it. -/
@[simp] theorem lookup_setCall (T : CallTables) (id : UInt32) (call : Call) :
    (T.setCall id call).calls.lookup id = some call := AList.lookup_insert _

/-- The other records after writing one. -/
theorem lookup_setCall_ne (T : CallTables) {id id' : UInt32} (h : id' ≠ id) (call : Call) :
    (T.setCall id call).calls.lookup id' = T.calls.lookup id' := AList.lookup_insert_ne h

/-- `pjsip_on_call_state` ignores unknown states and otherwise makes a `StateChange`. -/
theorem yields_pjsipOnCallState (pjCallId invState : Int) :
    callView.Yields (pjsipOnCallState pjCallId invState) e s fun _ acts T ↦
      (acts = [] ∧ T = tables s ∧ invCallState invState = none) ∨
      ∃ newState, invCallState invState = some newState ∧
        StateChange e pjCallId newState (tables s) acts T := by
  unfold pjsipOnCallState
  split
  · next h => exact View.yields_pure (Or.inl ⟨rfl, rfl, h⟩)
  · next newState h =>
    refine yields_seq (Q := fun id acts T ↦ id = (tables s).callMap.lookup pjCallId ∧ acts = [] ∧
      T = (tables s).unmap pjCallId newState) ?_ ?_
    · unfold routeState
      refine yields_withLock (View.yields_get_bind ?_)
      dsimp only
      unfold CallTables.unmap
      split
      · exact ⟨rfl, rfl, rfl⟩
      · exact ⟨rfl, rfl, rfl⟩
    · rintro _ acts s₁ ⟨rfl, rfl, hs₁⟩
      split
      · next hmap =>
        refine yields_tame (tame_logEngine canLog_nil _ _) fun _ ↦ ?_
        rw [hs₁]
        exact Or.inr ⟨newState, h, .unrouted (Or.inl hmap)⟩
      · next id hmap =>
        refine yields_seq (yields_stateSection newState id) ?_
        rintro _ acts s₂ (⟨rfl, hs₂, hnone⟩ | ⟨old, report, hl, hr, rfl, hs₂⟩)
        · rw [hs₁, CallTables.unmap_calls] at hnone
          have missing : StateChange e pjCallId newState (tables s) [] (tables s₂) := by
            rw [hs₂, hs₁]
            exact .unrouted (Or.inr ⟨id, hmap, hnone⟩)
          split
          · refine (yields_stopAfterEnd id).imp ?_
            intro _ acts T hstop
            have hl : (tables s₂).calls.lookup id = none := by
              rw [hs₂, hs₁, CallTables.unmap_calls]
              exact hnone
            obtain ⟨rfl, rfl⟩ := hstop.of_missing hl
            exact Or.inr ⟨newState, h, missing⟩
          · exact View.yields_pure (Or.inr ⟨newState, h, missing⟩)
        · rw [hs₁, CallTables.unmap_calls] at hl
          rw [hs₁] at hs₂
          split
          · next hended =>
            refine (yields_stopAfterEnd id).imp ?_
            intro _ acts T hstop
            rw [hs₂] at hstop
            exact Or.inr ⟨newState, h, .routed hmap hl hr hstop fun hne ↦ absurd hended hne⟩
          · refine View.yields_pure (Or.inr ⟨newState, h, ?_⟩)
            refine .routed hmap hl hr ?_ fun _ ↦ rfl
            rw [show callView.state s₂ = _ from hs₂]
            exact stopChange_refl e id _

/-- What a media callback can do to the tables `T`. -/
inductive MediaChange (pjCallId active : Int) (T : CallTables) :
    List CallAct → CallTables → Prop where
  | unrouted (hmap : T.callMap.lookup pjCallId = none ∨ ∃ id,
      T.callMap.lookup pjCallId = some id ∧ T.calls.lookup id = none) :
      MediaChange pjCallId active T [] T
  | routed {id : UInt32} {old : Call} {now : Nat} {report : CallAct}
      (hmap : T.callMap.lookup pjCallId = some id) (hold : T.calls.lookup id = some old)
      (hreport : IsReport (mediaRecord active now old) report) :
      MediaChange pjCallId active T ((mediaOps pjCallId active old).map .op ++ [report])
        (T.setCall id (mediaRecord active now old))

/-- Computing the record of a media callback shows the operations it issues. -/
theorem yields_applyMedia (pjCallId active : Int) (old : Call) :
    callView.Yields (applyMedia pjCallId active old) e s fun call acts T ↦
      call = mediaRecord active (secsAt e s) old ∧
        acts = (mediaOps pjCallId active old).map .op ∧ T = tables s := by
  unfold applyMedia mediaRecord mediaOps
  split
  · have hold (s₁ : Engine) : callView.Yields (holdAgain pjCallId old) e s₁ fun call acts T ↦
        call = { old with state := if old.onHold then .onHold else .inCall } ∧
          acts = (if old.onHold then [ShimCall.pdCallHold pjCallId true] else []).map .op ∧
          T = tables s₁ := by
      unfold holdAgain
      split
      · next h => exact yields_discard_shim_bind rfl (View.yields_pure ⟨by simp [h], rfl, rfl⟩)
      · next h => exact View.yields_pure ⟨by simp [h], rfl, rfl⟩
    unfold mediaActive
    dsimp only
    split
    · next h =>
      refine yields_discard_shim_bind rfl ((hold s).imp ?_)
      rintro call acts T ⟨rfl, rfl, rfl⟩
      exact ⟨rfl, by simp, rfl⟩
    · next h =>
      refine (hold s).imp ?_
      rintro call acts T ⟨rfl, rfl, rfl⟩
      exact ⟨rfl, by simp, rfl⟩
  · unfold mediaInactive
    have hs :=
      (calm_of_tame (tame_settleActive { old with onHold := true, state := .onHold })).run e s
    exact ⟨settleActive_value _, hs.2, hs.1⟩

/-- Under the `CALLS` lock a media callback rewrites and reports the record, if there is one, at
the time of the first clock reading. -/
theorem yields_mediaSection (pjCallId active : Int) (id : UInt32) :
    callView.Yields (mediaSection pjCallId active id) e s fun _ acts T ↦
      (acts = [] ∧ T = tables s ∧ (tables s).calls.lookup id = none) ∨
      ∃ old report, (tables s).calls.lookup id = some old ∧
        IsReport (mediaRecord active (secsAt e s) old) report ∧
        acts = (mediaOps pjCallId active old).map .op ++ [report] ∧
        T = (tables s).setCall id (mediaRecord active (secsAt e s) old) := by
  unfold mediaSection
  refine yields_withLock (View.yields_get_bind ?_)
  split
  · next hl => exact View.yields_pure (Or.inl ⟨rfl, rfl, hl⟩)
  · next old hl =>
    refine yields_seq (yields_applyMedia pjCallId active old) ?_
    rintro call acts s₁ ⟨rfl, rfl, hs₁⟩
    refine yields_insertCall_bind fun s₂ hs₂ ↦ ?_
    obtain ⟨report, hr, hs₃, ht⟩ := run_pushCallState (mediaRecord active (secsAt e s) old) e s₂
    unfold View.Yields
    rw [ht, show callView.state _ = _ from hs₃, hs₂, hs₁]
    exact Or.inr ⟨old, report, hl, hr, rfl, rfl⟩

/-- `pjsip_on_call_media` makes a `MediaChange`. -/
theorem yields_pjsipOnCallMedia (pjCallId active : Int) :
    callView.Yields (pjsipOnCallMedia pjCallId active) e s fun _ acts T ↦
      MediaChange pjCallId active (tables s) acts T := by
  have poll (acts : List CallAct) (s₁ : Engine)
      (h : MediaChange pjCallId active (tables s) acts (tables s₁)) :
      callView.Yields (if active ≠ 0 then pjsipPollMediaStats pjCallId else pure ()) e s₁
        fun _ acts' T ↦ MediaChange pjCallId active (tables s) (acts ++ acts') T := by
    refine yields_tame (Traced.admits_ite (tame_pjsipPollMediaStats _) (tame_pure _)) fun _ ↦ ?_
    rw [List.append_nil]
    exact h
  unfold pjsipOnCallMedia routeMedia
  refine yields_seq (Q := fun id acts T ↦ id = (tables s).callMap.lookup pjCallId ∧ acts = [] ∧
    T = tables s) (yields_withLock (View.yields_get_bind ⟨rfl, rfl, rfl⟩)) ?_
  rintro _ acts s₁ ⟨rfl, rfl, hs₁⟩
  dsimp only
  split
  · next hmap =>
    refine poll [] s₁ ?_
    rw [hs₁]
    exact .unrouted (Or.inl hmap)
  · next id hmap =>
    refine yields_seq (yields_mediaSection pjCallId active id) ?_
    rw [hs₁]
    rintro _ acts s₂ (⟨rfl, hs₂, hl⟩ | ⟨old, report, hl, hr, rfl, hs₂⟩)
    · apply poll
      rw [hs₂]
      exact .unrouted (Or.inr ⟨id, hmap, hl⟩)
    · apply poll
      rw [hs₂]
      exact .routed hmap hl hr

/-- Routing a state callback reads no clock. -/
theorem run_routeState (newState : CallState) (pjCallId : Int) (e : Env) (s : Engine) :
    ((routeState newState pjCallId).run e s).value = (tables s).callMap.lookup pjCallId ∧
      tables ((routeState newState pjCallId).run e s).state =
        (tables s).unmap pjCallId newState ∧
      secsAt e ((routeState newState pjCallId).run e s).state = secsAt e s := by
  unfold routeState CallTables.unmap
  by_cases hended : newState = .ended
  · subst hended
    exact ⟨rfl, rfl, rfl⟩
  · simp only [hended, if_false]
    exact ⟨rfl, rfl, rfl⟩

/-- The record that a state callback is routed to is rewritten at the time of the step; if it
ended its recording may be stopped. -/
theorem yields_routedState {pjCallId invState : Int} {newState : CallState} {id : UInt32}
    {old : Call} (hstate : invCallState invState = some newState)
    (hmap : (tables s).callMap.lookup pjCallId = some id)
    (hl : (tables s).calls.lookup id = some old) :
    callView.Yields (pjsipOnCallState pjCallId invState) e s fun _ _ T ↦
      RecordingChange id (((tables s).unmap pjCallId newState).setCall id
        (stateRecord newState (secsAt e s) old)) T := by
  obtain ⟨hvalue, htables, htime⟩ := run_routeState newState pjCallId e s
  rw [hmap] at hvalue
  unfold pjsipOnCallState
  rw [hstate]
  dsimp only
  refine View.yields_bind rfl hvalue rfl ?_
  dsimp only
  refine yields_seq (yields_stateSection newState id) ?_
  rw [htables, htime, CallTables.unmap_calls, hl]
  rintro _ acts s₂ (⟨-, -, hnone⟩ | ⟨old', report, hold, -, -, hs₂⟩)
  · cases hnone
  · cases hold
    rw [← hs₂]
    split
    · exact (yields_stopAfterEnd id).imp fun _ _ _ h ↦ h.2
    · exact View.yields_pure (Or.inl rfl)

/-- The record that a media callback is routed to is rewritten at the time of the step. -/
theorem yields_routedMedia {pjCallId active : Int} {id : UInt32} {old : Call}
    (hmap : (tables s).callMap.lookup pjCallId = some id)
    (hl : (tables s).calls.lookup id = some old) :
    callView.Yields (pjsipOnCallMedia pjCallId active) e s fun _ _ T ↦
      T = (tables s).setCall id (mediaRecord active (secsAt e s) old) := by
  unfold pjsipOnCallMedia
  have hroute : ((routeMedia pjCallId).run e s).state = s := rfl
  refine View.yields_bind hroute hmap rfl ?_
  dsimp only
  refine yields_seq (yields_mediaSection pjCallId active id) ?_
  rw [hl]
  rintro _ acts s₂ (⟨-, -, hnone⟩ | ⟨old', report, hold, -, -, hs₂⟩)
  · cases hnone
  · cases hold
    refine yields_tame (Traced.admits_ite (tame_pjsipPollMediaStats _) (tame_pure _)) fun _ ↦ ?_
    exact hs₂

end PacketDial.System
