import PacketDial.Shim.Takes
import PacketDial.System.CallStrands
import PacketDial.System.CallbackSpec

/-!
# The recorders next to the engine

The engine starts and stops recordings through the shim, which answers from its recording arrays.
`CallStartRecording` runs next to the callback that ends the call: here are their common steps and
what each step of the command does.
-/

namespace PacketDial.System

open PacketDial.Core PacketDial.Lib PacketDial.Shim

/-- The bytes of a C string. -/
def cBytes (path : String) : List UInt8 := path.toUTF8.data.toList

/-- The operation on the recorders in an action. -/
def studioAct : Action → Option StudioOp
  | .shim (.pdCallStartRecording pjCallId path) => some (.start pjCallId (some (cBytes path)))
  | .shim (.pdCallStopRecording pjCallId) => some (.stop pjCallId)
  | _ => none

/-- What the recording functions read of a call: its PJSIP id and whether it has a path. -/
def recordingOf (id : UInt32) (s : Engine) : Option (Option Int × Bool) :=
  (s.calls.lookup id).map fun call ↦ (call.pjsipCallId, call.recordingPath.isSome)

/-- The view of a run that shows the recording of a call, and where PJSIP calls are routed. -/
def studioView (id : UInt32) : View Engine Action
    (Option (Option Int × Bool) × AList fun _ : Int ↦ UInt32) StudioOp where
  state s := (recordingOf id s, s.pjsipCallMap)
  act := studioAct

/-- The recording of the call is left alone. -/
def Unheard (id : UInt32) (_ : List Mutex) : Engine → List Action → Engine → Prop :=
  (studioView id).Still

instance (id : UInt32) (held : List Mutex) : Traced.Composable (Unheard id held) :=
  inferInstanceAs (Traced.Composable (studioView id).Still)

/-- An action that the calls hide is none on the recorders. -/
theorem studioAct_of_callAct {a : Action} (h : callAct a = none) : studioAct a = none := by
  cases a with
  | shim call =>
    cases call with
    | pdCallStartRecording | pdCallStopRecording => cases h
    | _ => rfl
  | _ => rfl

/-- The view shows a part of the call tables. -/
theorem studioView_of_tables (id : UInt32) {s s' : Engine} (h : tables s' = tables s) :
    (studioView id).state s' = (studioView id).state s :=
  congrArg (fun T : CallTables ↦ ((T.calls.lookup id).map fun call : Call ↦
    (call.pjsipCallId, call.recordingPath.isSome), T.callMap)) h

/-- What the calls hide leaves the recording of each alone. -/
instance (id : UInt32) : Blind callView (Unheard id) where
  update h := ⟨studioView_of_tables id h, rfl⟩
  emit _ hv _ _ := still_action (studioAct_of_callAct hv)
  shim _ hv := still_action (studioAct_of_callAct hv)
  guard _ h := still_guard (fun _ ↦ rfl) h
  inner h := h

section Race

variable {n : Nat}

/-- What the shim answers about recordings. -/
def recorderAnswer (t : Studio n) (pjsua : Pjsua) : ShimCall → Option Int
  | .pdCallStartRecording pjCallId path =>
    some ((pdCallStartRecording pjCallId (some (cBytes path))).run pjsua t.recording).value
  | .pdCallStopRecording pjCallId =>
    some ((pdCallStopRecording pjCallId).run pjsua t.recording).value
  | .pdCallIsRecording pjCallId =>
    some ((pdCallIsRecording pjCallId).run pjsua t.recording).value
  | _ => none

/-- Surroundings in which the shim answers from its recording arrays. -/
def withRecorders (t : Studio n) (pjsua : Pjsua) (e : Env) : Env :=
  { e with rc := fun call ↦ (recorderAnswer t pjsua call).getD (e.rc call) }

/-- A command, under `true`, PJSIP's worker thread, and the recorders of the shim. -/
structure RecordingRace (n : Nat) where
  pool : Pool Bool Env Engine Action CallMark
  studio : Studio n

/-- What decides about a step: who takes it, and what the engine and the shim get from outside. -/
abbrev RecordingMove := Bool × Env × Pjsua

/-- The operations on the recorders that a trace contains, with what they get. -/
def studioInputs (pjsua : Pjsua) (t : List Action) : List StudioInput :=
  (t.filterMap studioAct).map (⟨·, pjsua⟩)

/-- A step of one of the two; the recorders follow it. -/
def RecordingRace.step (c : RecordingRace n) (m : RecordingMove) : Option (RecordingRace n) :=
  (c.pool.step (m.1, withRecorders c.studio m.2.2 m.2.1)).bind fun pool ↦
    let actions := pool.trace.drop c.pool.trace.length
    ((studioInputs m.2.2 actions).foldlM studioStep c.studio).map fun studio ↦ ⟨pool, studio⟩

/-- `CallStartRecording` of the call `id` next to the callback that its PJSIP call ended. -/
def recordingRace (s : Engine) (t : Studio n) (id : UInt32) (path : String) (pjCallId : Int) :
    RecordingRace n where
  pool :=
    { state := s
      strands := fun i ↦
        if i then discard (startRecordingStrand id path) else callStateStrand pjCallId 6
      log := []
      trace := [] }
  studio := t

section Steps

variable {c c' : RecordingRace n} {m : RecordingMove} {id : UInt32}

/-- What a step leads to: the computation runs with the answers of the shim, and the recorders
follow what it shows of them. -/
theorem RecordingRace.step_eq {β : Type} {mark : β → Option CallMark} {x : Eng β}
    {k : β → CallStrand Unit} (hstrand : c.pool.strands m.1 = .step mark x k)
    (h : c.step m = some c') :
    let out := x.run (withRecorders c.studio m.2.2 m.2.1) c.pool.state
    c'.pool = c.pool.advance m.1 (mark out.value) out.state out.trace (k out.value) ∧
      (studioInputs m.2.2 out.trace).foldlM studioStep c.studio = some c'.studio := by
  obtain ⟨pool, hpool, h⟩ := Option.bind_eq_some_iff.mp h
  obtain ⟨studio, hstudio, rfl⟩ := Option.map_eq_some_iff.mp h
  have heq := Pool.step_eq (m := (m.1, withRecorders c.studio m.2.2 m.2.1)) hstrand hpool
  refine ⟨heq, ?_⟩
  rw [heq, Pool.advance_trace, List.drop_left] at hstudio
  exact hstudio

/-- A strand that is done takes no step. -/
theorem RecordingRace.step_done (hstrand : c.pool.strands m.1 = .done ()) : c.step m = none := by
  unfold RecordingRace.step
  rw [Pool.step_done (m := (m.1, withRecorders c.studio m.2.2 m.2.1)) hstrand]
  rfl

/-- A step of one leaves the other where it is. -/
theorem RecordingRace.step_other {i : Bool} (h : c.step m = some c') (hi : i ≠ m.1) :
    c'.pool.strands i = c.pool.strands i := by
  obtain ⟨pool, hpool, h⟩ := Option.bind_eq_some_iff.mp h
  obtain ⟨studio, -, rfl⟩ := Option.map_eq_some_iff.mp h
  exact Pool.step_other hpool hi

/-- A computation that shows nothing of the recording leaves the recorders alone. -/
theorem studio_of_unheard {pjsua : Pjsua} {s s' : Engine} {t : List Action} {u u' : Studio n}
    {held : List Mutex} (h : Unheard id held s t s')
    (hu : (studioInputs pjsua t).foldlM studioStep u = some u') : u' = u := by
  have ht : t.filterMap studioAct = [] := h.2
  rw [studioInputs, ht] at hu
  exact (Option.some.inj hu).symm

/-- The step leaves the recording of the call and the recorders alone, and logs `marks`. -/
structure Aside (id : UInt32) (marks : List (Bool × CallMark)) (c c' : RecordingRace n) : Prop where
  view : (studioView id).state c'.pool.state = (studioView id).state c.pool.state
  studio : c'.studio = c.studio
  log : c'.pool.log = c.pool.log ++ marks

/-- A step whose run shows nothing of the recording. -/
theorem aside_of_run {β : Type} {mark : β → Option CallMark} {x : Eng β}
    {k : β → CallStrand Unit} (id : UInt32) (held : List Mutex)
    (hstrand : c.pool.strands m.1 = .step mark x k) (h : c.step m = some c') :
    let out := x.run (withRecorders c.studio m.2.2 m.2.1) c.pool.state
    Unheard id held c.pool.state out.trace out.state →
      Aside id ((mark out.value).map fun l ↦ (m.1, l)).toList c c' ∧
        c'.pool.strands m.1 = k out.value := by
  intro out hrun
  obtain ⟨hpool, hstudio⟩ := RecordingRace.step_eq hstrand h
  refine ⟨⟨?_, studio_of_unheard hrun hstudio, ?_⟩, ?_⟩
  · rw [hpool]
    exact hrun.1
  · rw [hpool]
    rfl
  · rw [hpool, Pool.advance_self]

/-- The strand leaves the recording alone until it comes to `T`. -/
abbrev Nears (id : UInt32) (T : CallStrand Unit → Prop) : CallStrand Unit → Prop :=
  Strand.Until (Unheard id []) T

/-- A step towards `T`. -/
theorem step_nears {T : CallStrand Unit → Prop} (hstrand : Nears id T (c.pool.strands m.1))
    (h : c.step m = some c') (hT : ¬ T (c.pool.strands m.1)) :
    Nears id T (c'.pool.strands m.1) ∧ Aside id [] c c' := by
  generalize hu : c.pool.strands m.1 = u at hstrand hT
  cases hstrand with
  | here h => exact absurd h hT
  | plain hx hP hk =>
    obtain ⟨haside, hnext⟩ := aside_of_run id [] hu h (hx.run _ _)
    rw [hnext]
    exact ⟨hk _ (hP _ _), haside⟩

/-- The recorders account for each other after a step. -/
theorem conserved_raceStep (hc : Conserved c.studio) (h : c.step m = some c') :
    Conserved c'.studio := by
  obtain ⟨pool, -, h⟩ := Option.bind_eq_some_iff.mp h
  obtain ⟨studio, hstudio, rfl⟩ := Option.map_eq_some_iff.mp h
  exact (Path.of_foldlM hstudio).invariant hc fun _ _ _ hu _ hs ↦ conserved_step hu hs

end Steps

end Race

section Records

variable {id : UInt32} {e : Env} {s : Engine}

/-- An amendment of the record of a call, seen from the recording. -/
theorem run_amendCall (id : UInt32) (f : Call → Call) (e : Env) (s : Engine) :
    ((amendCall id f).run e s).state.calls.lookup id = (s.calls.lookup id).map f ∧
      ((amendCall id f).run e s).state.pjsipCallMap = s.pjsipCallMap ∧
      ((amendCall id f).run e s).trace.filterMap studioAct = [] := by
  unfold amendCall
  rw [run_withLock, Traced.run_bind, Traced.run_get]
  dsimp only
  cases hl : s.calls.lookup id with
  | none => exact ⟨hl, rfl, rfl⟩
  | some call => exact ⟨AList.lookup_insert _, rfl, rfl⟩

/-- An amendment of other fields leaves the recording alone. -/
theorem unheard_amendCall {f : Call → Call}
    (hf : ∀ call, (f call).pjsipCallId = call.pjsipCallId ∧
      (f call).recordingPath = call.recordingPath) :
    Traced.Admits (Unheard id []) (amendCall id f) := by
  unfold amendCall
  refine blind_withLock callView (by decide) ?_
  rintro s t a s' ⟨s₁, hs₁, hbody⟩
  have hsame : Unheard id [.calls] s₁ t s' := by
    cases hl : s₁.calls.lookup id with
    | none =>
      simp only [Traced.andThen, hl] at hbody
      obtain ⟨rfl, rfl, hs'⟩ := hbody
      exact hs'
    | some call =>
      simp only [Traced.andThen, hl] at hbody
      obtain ⟨s₂, hs₂, rfl, rfl, hs'⟩ := hbody
      refine ⟨hs'.1.trans ?_, rfl⟩
      have hrecord : recordingOf id { s₂ with calls := s₂.calls.insert id (f call) } =
          recordingOf id s₁ := by
        unfold recordingOf
        rw [hl, AList.lookup_insert, Option.map_some, Option.map_some, (hf call).1, (hf call).2]
      have hmap : s₂.pjsipCallMap = s₁.pjsipCallMap := congrArg Prod.snd hs₂.1
      exact Prod.ext hrecord hmap
  exact Traced.Composable.append hs₁ hsame

/-- The operations on the recorders in a trace are among its call actions. -/
theorem studioActs_eq_nil {t : List Action} (h : ∀ op, .op op ∉ callView.trace t) :
    t.filterMap studioAct = [] := by
  rw [List.filterMap_eq_nil_iff]
  intro a ha
  cases hact : callAct a with
  | none => exact studioAct_of_callAct hact
  | some act =>
    have hmem : act ∈ callView.trace t := List.mem_filterMap.mpr ⟨a, ha, hact⟩
    cases act with
    | op op => exact absurd hmem (h op)
    | changed payload =>
      cases a with
      | shim call =>
        unfold callAct at hact
        dsimp only at hact
        split at hact <;> cases hact
      | _ => rfl

/-- A call state changes nothing about the recording of a record. -/
theorem stateRecord_recording (newState : CallState) (now : Nat) (call : Call) :
    (stateRecord newState now call).pjsipCallId = call.pjsipCallId ∧
      (stateRecord newState now call).recordingPath = call.recordingPath := by
  unfold stateRecord settled
  split
  · exact ⟨rfl, rfl⟩
  · split
    · split <;> exact ⟨rfl, rfl⟩
    · exact ⟨rfl, rfl⟩

/-- A call state changes nothing about recordings. -/
theorem unheard_stateSection (newState : CallState) (id : UInt32) (e : Env) (s : Engine) :
    let out := (stateSection newState id).run e s
    Unheard id [] s out.trace out.state := by
  have hchange : callView.Yields (stateSection newState id) e s _ := yields_stateSection _ _
  rcases hchange with ⟨hacts, htables, -⟩ | ⟨old, report, hl, hreport, hacts, htables⟩
  · refine ⟨studioView_of_tables id htables, studioActs_eq_nil fun op hop ↦ ?_⟩
    rw [hacts] at hop
    cases hop
  · refine ⟨?_, studioActs_eq_nil fun op hop ↦ ?_⟩
    · have hcalls : ((stateSection newState id).run e s).state.calls = _ :=
        congrArg CallTables.calls htables
      have hmap : ((stateSection newState id).run e s).state.pjsipCallMap = _ :=
        congrArg CallTables.callMap htables
      have hold : s.calls.lookup id = some old := hl
      have hkept := stateRecord_recording newState (secsAt e s) old
      refine Prod.ext ?_ hmap
      change recordingOf id _ = recordingOf id s
      unfold recordingOf
      rw [hcalls, lookup_setCall, hold, Option.map_some, Option.map_some, hkept.1, hkept.2]
    · obtain ⟨_, _, _, rfl⟩ := hreport
      rw [hacts, List.mem_singleton] at hop
      cases hop

end Records

section Story

/-- What the marks of a run say about the recording. -/
structure Story where
  /-- The recorder began. -/
  began : Prop
  /-- The path was stored. -/
  stored : Prop
  /-- The recorder began before the end of the call asked for it. -/
  inTime : Prop
  /-- The path was stored before the end of the call looked for it. -/
  seen : Prop

/-- The story of a log. -/
def story (log : List (Bool × CallMark)) : Story where
  began := (true, .began) ∈ log
  stored := (true, .stored) ∈ log
  inTime := Before (true, .began) (false, .asked) log
  seen := ∃ recorded, Before (true, .stored) (false, .ended recorded) log

variable {log : List (Bool × CallMark)}

/-- A mark that tells nothing about the recording. -/
theorem story_concat_of_not {x : Bool × CallMark} (hcommand : x ≠ (true, .began))
    (hstored : x ≠ (true, .stored)) (hended : ∀ recorded, x ≠ (false, .ended recorded))
    (hasked : x ≠ (false, .asked)) : story (log ++ [x]) = story log := by
  simp [story, before_concat, hcommand.symm, hstored.symm, hasked.symm, fun b ↦ (hended b).symm]

/-- The recorder began. -/
theorem story_began : story (log ++ [(true, .began)]) = { story log with began := True } := by
  simp [story, before_concat]

/-- The path was stored. -/
theorem story_stored : story (log ++ [(true, .stored)]) = { story log with stored := True } := by
  simp [story, before_concat]

/-- The end of the call looked for the path. -/
theorem story_ended (log : List (Bool × CallMark)) (recorded : Bool) :
    story (log ++ [(false, .ended recorded)]) =
    { story log with seen := (story log).seen ∨ (story log).stored } := by
  simp [story, before_concat, exists_or]

/-- The end of the call asked for the recorder. -/
theorem story_asked (log : List (Bool × CallMark)) : story (log ++ [(false, .asked)]) =
    { story log with inTime := (story log).inTime ∨ (story log).began } := by
  simp [story, before_concat]

end Story

section Command

variable {n : Nat} {id : UInt32} {pjCallId : Int} {c c' : RecordingRace n} {e : Env}
  {pjsua : Pjsua}

/-- `start_recording_for_call` after the recorder began. -/
def storeStrand (id : UInt32) (path : String) (startedAt : Nat) : CallStrand Unit := discard do
  Strand.marked .stored (amendCall id fun call ↦ { call with
    recordingPath := some path
    recordingStartedAtMs := some startedAt })
  Strand.plain (emitRecordingStarted id path startedAt)
  return EngineErrorCode.ok

/-- How far `CallStartRecording` has come. -/
inductive Starting (id : UInt32) (pjCallId : Int) (story : Story) : CallStrand Unit → Prop
  | checks {path : String} (hbegan : ¬ story.began) (hstored : ¬ story.stored) :
      Starting id pjCallId story (discard (startRecordingStrand id path))
  | begins {u : CallStrand Unit} (hbegan : ¬ story.began) (hstored : ¬ story.stored)
      (hu : Nears id (fun u ↦ u = .done () ∨ ∃ path,
        u = discard (beginRecordingStrand id pjCallId path)) u) : Starting id pjCallId story u
  | stores {u : CallStrand Unit} (hbegan : story.began) (hstored : ¬ story.stored)
      (hu : Nears id (fun u ↦ ∃ path startedAt, u = storeStrand id path startedAt) u) :
      Starting id pjCallId story u
  | ends {u : CallStrand Unit} (hboth : story.began ↔ story.stored)
      (hu : Nears id (· = .done ()) u) : Starting id pjCallId story u

/-- What a step of `CallStartRecording` does. -/
inductive StartMove (id : UInt32) (pjCallId : Int) (c c' : RecordingRace n) : Prop
  | quiet (hview : (studioView id).state c'.pool.state = (studioView id).state c.pool.state)
      (hstory : story c'.pool.log = story c.pool.log)
      (hflag : c'.studio.flag pjCallId = c.studio.flag pjCallId)
  | begins (hview : (studioView id).state c'.pool.state = (studioView id).state c.pool.state)
      (hnew : ¬ (story c.pool.log).began)
      (hstory : story c'.pool.log = { story c.pool.log with began := True })
      (hidle : c.studio.flag pjCallId = 0) (hbusy : c'.studio.flag pjCallId = 1)
  | stores (hrecording : recordingOf id c'.pool.state =
        (recordingOf id c.pool.state).map fun r ↦ (r.1, true))
      (hmap : c'.pool.state.pjsipCallMap = c.pool.state.pjsipCallMap)
      (hstory : story c'.pool.log = { story c.pool.log with stored := True })
      (hflag : c'.studio.flag pjCallId = c.studio.flag pjCallId)

/-- A step that leaves the recording alone and tells nothing about it. -/
theorem Aside.quiet {marks : List (Bool × CallMark)} (h : Aside id marks c c')
    (hmarks : story (c.pool.log ++ marks) = story c.pool.log) : StartMove id pjCallId c c' := by
  refine .quiet h.view ?_ ?_
  · rw [h.log, hmarks]
  · rw [h.studio]

/-- A strand that logs, and is done then, comes to nothing. -/
theorem nears_logged {T : CallStrand Unit → Prop} (hT : T (.done ())) (level : LogLevel)
    (text code message : String) (rc : EngineErrorCode) :
    Nears id T (discard (do
      Strand.plain (logEngine level text)
      Strand.plain (emitRecordingError id code message)
      return rc)) :=
  Strand.until_plain_bind (tame_logEngine canLog_nil _ _) fun _ ↦
    Strand.until_plain_bind (tame_pushRecording canLog_nil.2 (by decide) _) fun _ ↦ .here hT

/-- The check of the call leads to the recorder, or nowhere. -/
theorem begins_startFound {path : String} {call : Call} (hpj : call.pjsipCallId = some pjCallId) :
    Nears id (fun u ↦ u = .done () ∨ ∃ path, u = discard (beginRecordingStrand id pjCallId path))
      (discard (startFoundStrand id path call)) := by
  unfold startFoundStrand
  rw [hpj]
  split
  · exact .here (Or.inl rfl)
  · split
    · exact .here (Or.inl rfl)
    · cases cString path with
      | none => exact .here (Or.inl rfl)
      | some path =>
        refine Strand.until_plain_bind (blind_shim (v := callView) rfl) fun alreadyRecording ↦ ?_
        change Nears id _ (discard (if alreadyRecording ≠ 0 then pure .internalError else
          beginRecordingStrand id pjCallId path))
        split
        · exact .here (Or.inl rfl)
        · exact .here (Or.inr ⟨path, rfl⟩)

/-- What is left once the path is stored. -/
theorem ends_stored (path : String) (startedAt : Nat) : Nears id (· = .done ()) (discard (do
    Strand.plain (emitRecordingStarted id path startedAt)
    return EngineErrorCode.ok)) :=
  Strand.until_plain_bind (tame_pushRecording canLog_nil.2 (by decide) _) fun _ ↦ .here rfl

/-- The step in which the recorder begins, or not. -/
theorem step_begins {path : String} (hbegan : ¬ (story c.pool.log).began)
    (hstored : ¬ (story c.pool.log).stored)
    (hu : c.pool.strands true = discard (beginRecordingStrand id pjCallId path))
    (h : c.step (true, e, pjsua) = some c') :
    Starting id pjCallId (story c'.pool.log) (c'.pool.strands true) ∧
      StartMove id pjCallId c c' ∧ Apart pjCallId c.studio c'.studio := by
  obtain ⟨hpool, hstudio⟩ := RecordingRace.step_eq (m := (true, e, pjsua)) hu h
  have hinput : studioStep c.studio ⟨.start pjCallId (some (cBytes path)), pjsua⟩ =
      some c'.studio := by
    simpa [studioInputs, shim, studioAct] using hstudio
  obtain ⟨hapart, hstarted, hrefused⟩ := start_step hinput
  have hrc : ((shim (.pdCallStartRecording pjCallId path)).run (withRecorders c.studio pjsua e)
      c.pool.state).value =
        ((pdCallStartRecording pjCallId (some (cBytes path))).run pjsua c.studio.recording).value :=
    rfl
  have hview : (studioView id).state c'.pool.state = (studioView id).state c.pool.state := by
    rw [hpool]
    rfl
  rw [hrc] at hpool
  generalize ((pdCallStartRecording pjCallId _).run pjsua c.studio.recording).value = rc at *
  by_cases hzero : rc = 0
  · subst hzero
    obtain ⟨hidle, hbusy⟩ := hstarted rfl
    have hstory : story c'.pool.log = { story c.pool.log with began := True } := by
      rw [← story_began, hpool]
      rfl
    refine ⟨?_, .begins hview hbegan hstory hidle hbusy, hapart⟩
    rw [hstory, hpool, Pool.advance_self]
    refine .stores trivial hstored ?_
    exact Strand.until_plain_bind tame_nowMillis fun startedAt ↦ .here ⟨path, startedAt, rfl⟩
  · have hstory : story c'.pool.log = story c.pool.log := by
      rw [hpool, if_neg hzero]
      rw [Pool.advance_log_none]
    refine ⟨?_, .quiet hview hstory (hrefused hzero), hapart⟩
    rw [hstory, hpool, Pool.advance_self]
    refine .begins hbegan hstored ?_
    change Nears id _ (discard (if rc ≠ 0 then _ else _))
    rw [if_pos hzero]
    exact nears_logged (Or.inl rfl) _ _ _ _ _

/-- The step in which the path is stored. -/
theorem step_stores {path : String} {startedAt : Nat} (hbegan : (story c.pool.log).began)
    (hu : c.pool.strands true = storeStrand id path startedAt)
    (h : c.step (true, e, pjsua) = some c') :
    Starting id pjCallId (story c'.pool.log) (c'.pool.strands true) ∧
      StartMove id pjCallId c c' ∧ Apart pjCallId c.studio c'.studio := by
  obtain ⟨hpool, hstudio⟩ := RecordingRace.step_eq (m := (true, e, pjsua)) hu h
  obtain ⟨hcalls, hmap, hacts⟩ := run_amendCall id (fun call ↦ { call with
    recordingPath := some path
    recordingStartedAtMs := some startedAt }) (withRecorders c.studio pjsua e) c.pool.state
  unfold studioInputs at hstudio
  rw [hacts] at hstudio
  have hsame : c'.studio = c.studio := (Option.some.inj hstudio).symm
  have hstory : story c'.pool.log = { story c.pool.log with stored := True } := by
    rw [← story_stored, hpool]
    rfl
  refine ⟨?_, .stores ?_ ?_ hstory ?_, ?_⟩
  · rw [hstory, hpool, Pool.advance_self]
    exact .ends (iff_of_true hbegan trivial) (ends_stored path startedAt)
  · unfold recordingOf
    rw [hpool, Pool.advance_state, hcalls, Option.map_map, Option.map_map]
    rfl
  · rw [hpool]
    exact hmap
  · rw [hsame]
  · rw [hsame]
    exact .refl _ _

/-- A step of `CallStartRecording`. -/
theorem step_starting (hu : Starting id pjCallId (story c.pool.log) (c.pool.strands true))
    (hrecord : ∃ recorded, recordingOf id c.pool.state = some (some pjCallId, recorded))
    (h : c.step (true, e, pjsua) = some c') :
    Starting id pjCallId (story c'.pool.log) (c'.pool.strands true) ∧
      StartMove id pjCallId c c' ∧ Apart pjCallId c.studio c'.studio := by
  have aside {marks : List (Bool × CallMark)} (haside : Aside id marks c c')
      (hmarks : story (c.pool.log ++ marks) = story c.pool.log)
      (hnext : Starting id pjCallId (story c.pool.log) (c'.pool.strands true)) :
      Starting id pjCallId (story c'.pool.log) (c'.pool.strands true) ∧
        StartMove id pjCallId c c' ∧ Apart pjCallId c.studio c'.studio := by
    refine ⟨?_, haside.quiet hmarks, ?_⟩
    · rw [haside.log, hmarks]
      exact hnext
    · rw [haside.studio]
      exact .refl _ _
  have hnil : story (c.pool.log ++ []) = story c.pool.log := by rw [List.append_nil]
  generalize hstrand : c.pool.strands true = u at hu
  cases hu with
  | @checks path hbegan hstored =>
    obtain ⟨recorded, hrecorded⟩ := hrecord
    obtain ⟨call, hl, hcall⟩ := Option.map_eq_some_iff.mp hrecorded
    obtain ⟨haside, hnext⟩ := aside_of_run id [] hstrand h ⟨rfl, rfl⟩
    refine aside haside (story_concat_of_not ?_ ?_ ?_ ?_) ?_
    · simp
    · simp
    · simp
    · simp
    · rw [hnext]
      refine .begins hbegan hstored ?_
      have hvalue : ((snapshotCall id).run (withRecorders c.studio pjsua e) c.pool.state).value =
          some call := hl
      rw [hvalue]
      exact begins_startFound (congrArg Prod.fst hcall)
  | begins hbegan hstored hnears =>
    by_cases hbegin : u = .done () ∨ ∃ path, u = discard (beginRecordingStrand id pjCallId path)
    · rcases hbegin with rfl | ⟨path, rfl⟩
      · rw [RecordingRace.step_done (m := (true, e, pjsua)) hstrand] at h
        cases h
      · exact step_begins hbegan hstored hstrand h
    · rw [← hstrand] at hnears hbegin
      obtain ⟨hnext, haside⟩ := step_nears (m := (true, e, pjsua)) hnears h hbegin
      exact aside haside hnil (.begins hbegan hstored hnext)
  | stores hbegan hstored hnears =>
    by_cases hstore : ∃ path startedAt, u = storeStrand id path startedAt
    · obtain ⟨path, startedAt, rfl⟩ := hstore
      exact step_stores hbegan hstrand h
    · rw [← hstrand] at hnears hstore
      obtain ⟨hnext, haside⟩ := step_nears (m := (true, e, pjsua)) hnears h hstore
      exact aside haside hnil (.stores hbegan hstored hnext)
  | ends hboth hnears =>
    by_cases hdone : u = .done ()
    · rw [RecordingRace.step_done (m := (true, e, pjsua)) (hstrand.trans hdone)] at h
      cases h
    · rw [← hstrand] at hnears hdone
      obtain ⟨hnext, haside⟩ := step_nears (m := (true, e, pjsua)) hnears h hdone
      exact aside haside hnil (.ends hboth hnext)

/-- The path is stored only after the recorder began. -/
theorem Starting.began {story : Story} {u : CallStrand Unit} (h : Starting id pjCallId story u)
    (hstored : story.stored) : story.began := by
  cases h with
  | checks _ hnot => exact absurd hstored hnot
  | begins _ hnot _ => exact absurd hstored hnot
  | stores _ hnot _ => exact absurd hstored hnot
  | ends hboth _ => exact hboth.mpr hstored

/-- How far the command has come depends on two marks only. -/
theorem Starting.congr {before after : Story} {u : CallStrand Unit}
    (h : Starting id pjCallId before u) (hbegan : after.began ↔ before.began)
    (hstored : after.stored ↔ before.stored) : Starting id pjCallId after u := by
  cases h with
  | checks hb hs => exact .checks (mt hbegan.mp hb) (mt hstored.mp hs)
  | begins hb hs hu => exact .begins (mt hbegan.mp hb) (mt hstored.mp hs) hu
  | stores hb hs hu => exact .stores (hbegan.mpr hb) (mt hstored.mp hs) hu
  | ends hboth hu => exact .ends (hbegan.trans (hboth.trans hstored.symm)) hu

end Command

end PacketDial.System
