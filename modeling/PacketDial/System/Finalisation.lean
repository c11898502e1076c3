import PacketDial.System.Edits
import PacketDial.System.News

/-!
# The end of a recorded call

`pjsip_on_call_state` announces the end of a call, with the path of its recording, before it
stops the recording (`core_rust/src/lib.rs:569–607`). What the app is told in what order is read
off the events of the callback.
-/

namespace PacketDial.System

open PacketDial.Core PacketDial.Lib

/-- What an event tells of the end of a call. -/
inductive EndNews where
  | ended
  | stopped
  | saved
  deriving DecidableEq, Repr

/-- What an event tells of the end of the call with an id. -/
def endNews (id : UInt32) (news : String × Json) : Option EndNews :=
  if callIdField news.2 = some id then
    if news.1 = "RecordingStopped" then some .stopped
    else if news.1 = "RecordingSaved" then some .saved
    else if news.1 = "CallStateChanged" ∧ (news.2.get "state").asStr = some "Ended" then some .ended
    else none
  else none

/-- The events that tell of the end of a call. -/
def endTypes : List String := ["CallStateChanged", "RecordingStopped", "RecordingSaved"]

/-- What a run tells of the end of a call, in order. -/
def endNewsOf (id : UInt32) (t : List Action) : List EndNews :=
  ((announceView endTypes).trace t).filterMap (endNews id)

/-- The recording is stopped and saved, each once, and then the call has ended. -/
def FinalisedFirst (told : List EndNews) : Prop :=
  told.Perm [.stopped, .saved, .ended] ∧ told.getLast? = some .ended

section Told

variable {id : UInt32}

/-- The report of a call that has ended. -/
theorem endNews_ended (accountName displayName username : String) {call : Call}
    (hid : call.id = id) (hended : call.state = .ended) :
    endNews id ("CallStateChanged", callPayload accountName displayName username call) =
      some .ended := by
  have hcall : callIdField (callPayload accountName displayName username call) = some id := by
    rw [← hid]
    exact callIdField_of_get rfl
  have hstate : ((callPayload accountName displayName username call).get "state").asStr =
      some "Ended" := by
    change (Json.str call.state.variantName).asStr = _
    rw [hended]
    rfl
  simp [endNews, hcall, hstate]

/-- The event that a recording has stopped. -/
theorem endNews_stopped (path : String) :
    endNews id ("RecordingStopped", .obj [("call_id", .ofU32 id), ("file_path", .str path),
      ("state", .str "Stopped")]) = some .stopped := by
  rw [endNews, if_pos (callIdField_of_get rfl), if_pos rfl]

/-- The event that a recording has been saved. -/
theorem endNews_saved (recordingId : Json) (rest : List (String × Json)) :
    endNews id ("RecordingSaved", .obj (("recording_id", recordingId) ::
      ("call_id", .ofU32 id) :: rest)) = some .saved := by
  rw [endNews, if_pos (callIdField_of_get rfl), if_neg (by simp), if_pos rfl]

end Told

section Run

variable {e : Env} {s : Engine} {id : UInt32} {old call : Call} {path : String}
  {pjCallId pjId : Int}

/-- A state callback leaves the path of the recording. -/
theorem stateRecord_recordingPath (newState : CallState) (now : Nat) (call : Call) :
    (stateRecord newState now call).recordingPath = call.recordingPath := by
  unfold stateRecord settled
  repeat' split
  all_goals rfl

/-- The run of the critical section of a `DISCONNECTED` callback: the call is reported as ended,
and its record keeps its recording. -/
theorem yields_endSection (hl : s.calls.lookup id = some old) :
    (announceView endTypes).Yields (stateSection .ended id) e s fun _ acts c ↦
      ∃ accountName displayName username,
        acts = [("CallStateChanged", callPayload accountName displayName username
          (stateRecord .ended (secsAt e s) old))] ∧
        c.1.calls.lookup id = some (stateRecord .ended (secsAt e s) old) := by
  unfold stateSection
  refine yields_announceLock (View.yields_get_bind ?_)
  rw [hl]
  dsimp only
  refine View.yields_read_bind (tame_applyState .ended old :
    Traced.Admits (Unannounced endTypes [.calls]) _)
    (P := fun call ↦ call = stateRecord .ended (secsAt e s) old) (applyState_value _ _) ?_
  rintro call s₁ rfl hs₁
  refine View.yields_modify_bind (yields_announceCall_bind (by decide) ?_)
  intro accountName displayName username s₂ hs₂
  have tidy : Traced.Admits (Unannounced endTypes [.calls]) (withLock .mediaStats <|
      Traced.modify fun s ↦ { s with mediaStats := s.mediaStats.erase id }) :=
    tame_withLock (by decide) (tame_eraseMediaStats id)
  refine View.yields_still tidy fun _ ↦ ⟨accountName, displayName, username, rfl, ?_⟩
  rw [show (announceView endTypes).state s₂ = _ from hs₂]
  exact AList.lookup_insert _

/-- What the end of a recording tells. -/
theorem yields_endRecording (startedAt : Option Nat) :
    (announceView endTypes).Yields (finishRecording id pjId path startedAt) e s fun _ acts _ ↦
      acts.filterMap (endNews id) =
        if e.rc (.pdCallStopRecording pjId) = 0 then [.stopped, .saved] else [] := by
  unfold finishRecording
  refine View.yields_read_bind (unannounced_shim _)
    (P := fun rc ↦ rc = e.rc (.pdCallStopRecording pjId)) rfl ?_
  rintro rc s₁ rfl hs₁
  split
  · refine View.yields_still (?_ : Traced.Admits (Unannounced endTypes []) _) fun _ ↦ rfl
    refine (tame_logEngine (by decide) _ _).bind fun _ ↦ ?_
    exact (unannounced_pushEvent (by decide) (by decide) _).bind fun _ ↦ Traced.admits_pure _
  · next hrc =>
    refine View.yields_still_bind (tame_nowMillis : Traced.Admits (Unannounced endTypes []) _)
      fun endedAt s₂ hs₂ ↦ ?_
    dsimp only
    refine View.yields_ask_bind (yields_announceAmend_bind fun s₃ ↦ ?_)
    refine yields_pushEvent_bind (by decide) (by decide) fun s₄ _ ↦ ?_
    unfold emitRecordingSaved
    rw [bind_assoc]
    refine View.yields_ask_bind (yields_pushEvent_bind (by decide) (by decide) fun s₅ _ ↦ ?_)
    refine View.yields_pure ?_
    rw [List.filterMap_cons, endNews_stopped, List.filterMap_cons, endNews_saved,
      if_pos (not_not.mp hrc)]
    rfl

/-- The `DISCONNECTED` callback of a call that is recorded tells first that the call has ended,
and then that the recording is stopped and saved, unless PJSIP cannot stop it. -/
theorem endNewsOf_disconnect (hmap : s.pjsipCallMap.lookup pjCallId = some id)
    (hl : s.calls.lookup id = some call) (hk : call.id = id)
    (hpj : call.pjsipCallId = some pjId) (hpath : call.recordingPath = some path)
    (hrec : e.rc (.pdCallIsRecording pjId) ≠ 0) :
    endNewsOf id ((pjsipOnCallState pjCallId 6).run e s).trace =
      .ended :: if e.rc (.pdCallStopRecording pjId) = 0 then [.stopped, .saved] else [] := by
  obtain ⟨hvalue, htables, htime⟩ := run_routeState .ended pjCallId e s
  have hroute :
      (announceView endTypes).trace ((routeState .ended pjCallId).run e s).trace = [] := by
    simp [routeState, run_withLock, View.trace, announceView, newsAct]
  change (announceView endTypes).Yields (pjsipOnCallState pjCallId 6) e s fun _ acts _ ↦
    acts.filterMap (endNews id) = _
  unfold pjsipOnCallState
  rw [show invCallState 6 = some .ended from rfl]
  dsimp only
  refine View.yields_bind rfl (hvalue.trans hmap) hroute ?_
  dsimp only
  have hl₁ : ((routeState .ended pjCallId).run e s).state.calls.lookup id = some call := by
    have hcalls := congrArg CallTables.calls htables
    rw [CallTables.unmap_calls] at hcalls
    rw [show ((routeState .ended pjCallId).run e s).state.calls = s.calls from hcalls]
    exact hl
  refine View.Yields.bind (yields_endSection hl₁) ?_
  rintro _ acts s₁ ⟨accountName, displayName, username, rfl, hl₂⟩
  rw [htime] at hl₂ ⊢
  rw [if_pos rfl]
  have hid : (stateRecord .ended (secsAt e s) call).id = id := by rw [stateRecord_id, hk]
  have hkept : ((stateRecord .ended (secsAt e s) call).recordingPath.isSome) = true := by
    rw [stateRecord_recordingPath, hpath]
    rfl
  have hstop : (announceView endTypes).Yields (stopAfterEnd id) e s₁ fun _ acts _ ↦
      acts.filterMap (endNews id) =
        if e.rc (.pdCallStopRecording pjId) = 0 then [.stopped, .saved] else [] := by
    unfold stopAfterEnd
    refine View.yields_bind rfl hl₂ rfl ?_
    rw [Option.map_some, hkept, Option.getD_some, if_pos rfl]
    refine View.yields_discard ?_
    unfold stopRecordingForCall
    refine View.yields_bind rfl hl₂ rfl ?_
    dsimp only
    rw [stateRecord_pjsipCallId, stateRecord_recordingPath, hpj, hpath]
    dsimp only
    refine View.yields_read_bind (unannounced_shim _)
      (P := fun rc ↦ rc = e.rc (.pdCallIsRecording pjId)) rfl ?_
    rintro rc s₂ rfl -
    rw [if_neg hrec]
    exact yields_endRecording _
  refine hstop.imp fun _ acts _ hacts ↦ ?_
  rw [List.nil_append, List.singleton_append, List.filterMap_cons,
    endNews_ended _ _ _ hid (stateRecord_state _ _ _)]
  exact congrArg (EndNews.ended :: ·) hacts

/-- In no run is the recording of a call stopped and saved before the call is reported as ended:
the end is told first. -/
theorem ended_before_finalised {is : List Input}
    (run : is.foldlM engineStep Engine.initial = some s)
    (hmap : s.pjsipCallMap.lookup pjCallId = some id) (hl : s.calls.lookup id = some call)
    (hpj : call.pjsipCallId = some pjId) (hpath : call.recordingPath = some path)
    (hrec : e.rc (.pdCallIsRecording pjId) ≠ 0) :
    let told := endNewsOf id ((⟨.onCallState pjCallId 6, e⟩ : Input).outcome s).trace
    told = .ended :: (if e.rc (.pdCallStopRecording pjId) = 0 then [.stopped, .saved] else []) ∧
      ¬FinalisedFirst told := by
  have hk : (tables s).Keyed := (Path.of_foldlM run).invariant
    (I := fun s ↦ (tables s).Keyed) keyed_initial fun _ _ _ hk _ hs ↦ keyed_step hk hs
  have htold : endNewsOf id ((⟨.onCallState pjCallId 6, e⟩ : Input).outcome s).trace = _ :=
    endNewsOf_disconnect hmap hl (hk id call hl) hpj hpath hrec
  refine ⟨htold, fun hfirst ↦ ?_⟩
  have hlast := hfirst.2
  have hlength := hfirst.1.length_eq
  rw [htold] at hlast hlength
  split at hlast
  · cases hlast
  · next hrc =>
    rw [if_neg hrc] at hlength
    cases hlength

end Run

/-- Surroundings in which PJSIP records. -/
def recordingEnv : Env :=
  { quietEnv with rc := fun call ↦ match call with
      | .pdCallIsRecording _ => 1
      | _ => 0 }

/-- The dialled call is answered and recorded. -/
def recordCall : List Input :=
  [⟨.onCallState 0 5, quietEnv⟩,
    commandInput "CallStartRecording" [("call_id", .ofU32 1), ("file_path", .str "r.wav")]]

/-- A recorded call that is hung up, as an instance. -/
theorem ended_before_finalised_hangup :
    ∃ s, (signIn ++ [dial] ++ recordCall).foldlM engineStep Engine.initial = some s ∧
      let told := endNewsOf 1 ((⟨.onCallState 0 6, recordingEnv⟩ : Input).outcome s).trace
      told = [.ended, .stopped, .saved] ∧ ¬FinalisedFirst told := by
  have h : ((signIn ++ [dial] ++ recordCall).foldlM engineStep Engine.initial).map (fun s ↦
      (s.pjsipCallMap.lookup 0, (s.calls.lookup 1).map (fun call ↦
        (call.pjsipCallId, call.recordingPath)))) =
      some (some 1, some (some 0, some "r.wav")) := by decide
  obtain ⟨s, hs, hlooks⟩ := Option.map_eq_some_iff.mp h
  rw [Prod.mk.injEq] at hlooks
  obtain ⟨hmap, hcall⟩ := hlooks
  obtain ⟨call, hl, hfields⟩ := Option.map_eq_some_iff.mp hcall
  rw [Prod.mk.injEq] at hfields
  exact ⟨s, hs,
    ended_before_finalised hs hmap hl hfields.1 hfields.2 (e := recordingEnv) (by decide)⟩

/-- The end of a recorded call is told before its recording is stopped and saved. -/
theorem hangup_told_first :
    ∃ s, (signIn ++ [dial] ++ recordCall).foldlM engineStep Engine.initial = some s ∧
      endNewsOf 1 ((⟨.onCallState 0 6, recordingEnv⟩ : Input).outcome s).trace =
        [.ended, .stopped, .saved] ∧ ¬FinalisedFirst [.ended, .stopped, .saved] := by
  have h : ((signIn ++ [dial] ++ recordCall).foldlM engineStep Engine.initial).map (fun s ↦
      endNewsOf 1 ((⟨.onCallState 0 6, recordingEnv⟩ : Input).outcome s).trace) =
      some [.ended, .stopped, .saved] := by decide
  obtain ⟨s, hs, htold⟩ := Option.map_eq_some_iff.mp h
  exact ⟨s, hs, htold, fun hfirst ↦ by cases hfirst.2⟩

end PacketDial.System
