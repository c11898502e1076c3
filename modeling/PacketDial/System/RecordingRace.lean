import PacketDial.System.RecordingSteps

/-!
# Starting a recording while the call ends

`CallStartRecording` checks the state of the call, starts the native recorder and only then stores
the path in the record. The callback that ends the call stops a recording if the record has a
path. Where the callback comes between the two, the recording goes on without its call.
-/

namespace PacketDial.System

open PacketDial.Core PacketDial.Lib PacketDial.Shim

section Worker

variable {n : Nat} {id : UInt32} {pjCallId : Int} {c c' : RecordingRace n} {e : Env}
  {pjsua : Pjsua} {had : Prop} {flag₀ : Int}

/-- The flag as long as no one has stopped the recording: it is as it was at first, or the command
turned it on. -/
def Running (flag₀ flag : Int) (story : Story) : Prop :=
  story.began ∧ flag₀ = 0 ∧ flag = 1 ∨ ¬ story.began ∧ flag = flag₀

/-- The end of the call sees a path: an earlier one, or the one that the command stored. -/
def Sees (had : Prop) (flag₀ : Int) (story : Story) (reached : Prop) : Prop :=
  had ∨ story.seen ∧ reached ∧ flag₀ = 0

/-- How far the callback that ends the call has come. -/
inductive Ending (had : Prop) (id : UInt32) (pjCallId flag₀ flag : Int) (story : Story)
    (callMap : AList fun _ : Int ↦ UInt32) : CallStrand Unit → Prop
  | looks (hseen : ¬ story.seen) (hflag : Running flag₀ flag story)
      (hroute : callMap.lookup pjCallId = some id) :
      Ending had id pjCallId flag₀ flag story callMap (lookStateStrand pjCallId .ended)
  | records (hseen : ¬ story.seen) (hflag : Running flag₀ flag story) :
      Ending had id pjCallId flag₀ flag story callMap (recordStateStrand .ended id)
  | ends (hseen : ¬ story.seen) (hflag : Running flag₀ flag story) :
      Ending had id pjCallId flag₀ flag story callMap (stopAfterEndStrand id)
  | stops (hsees : Sees had flag₀ story story.began) (hflag : Running flag₀ flag story) :
      Ending had id pjCallId flag₀ flag story callMap (discard (stopStrand id))
  | asks {call : Call} {path : String} (hsees : Sees had flag₀ story story.began)
      (hflag : Running flag₀ flag story) (hpj : call.pjsipCallId = some pjCallId)
      (hpath : call.recordingPath = some path) :
      Ending had id pjCallId flag₀ flag story callMap (discard (stopFoundStrand id call))
  | finishes {path : String} {startedAt : Option Nat}
      (hsees : Sees had flag₀ story story.inTime) (hbusy : flag ≠ 0)
      (hintime : story.began → story.inTime) :
      Ending had id pjCallId flag₀ flag story callMap
        (discard (finishStrand id pjCallId path startedAt))
  | unseen {u : CallStrand Unit} (hhad : ¬ had) (hseen : ¬ story.seen)
      (hflag : Running flag₀ flag story) (hu : Nears id (· = .done ()) u) :
      Ending had id pjCallId flag₀ flag story callMap u
  | stopped {u : CallStrand Unit} (hsees : Sees had flag₀ story story.inTime)
      (hflag : flag = 0 ↔ (story.began → story.inTime)) (hu : Nears id (· = .done ()) u) :
      Ending had id pjCallId flag₀ flag story callMap u

/-- What began in time has begun. -/
theorem story_began_of_inTime {log : List (Bool × CallMark)} (h : (story log).inTime) :
    (story log).began :=
  List.Sublist.mem List.mem_cons_self h

/-- What was seen has been stored. -/
theorem story_stored_of_seen {log : List (Bool × CallMark)} (h : (story log).seen) :
    (story log).stored := by
  obtain ⟨_, h⟩ := h
  exact List.Sublist.mem List.mem_cons_self h

/-- The flag when the command turns it on. -/
theorem Running.begins {flag : Int} {story : Story} (h : Running flag₀ flag story)
    (hnew : ¬ story.began) (hidle : flag = 0) : Running flag₀ 1 { story with began := True } := by
  rcases h with ⟨hbegan, -, -⟩ | ⟨-, rfl⟩
  · exact absurd hbegan hnew
  · exact Or.inl ⟨trivial, hidle, rfl⟩

/-- The callback stays where it is when the command takes a step. -/
theorem Ending.start_move {u : CallStrand Unit} (h : Ending had id pjCallId flag₀
      (c.studio.flag pjCallId) (story c.pool.log) c.pool.state.pjsipCallMap u)
    (move : StartMove id pjCallId c c') : Ending had id pjCallId flag₀
      (c'.studio.flag pjCallId) (story c'.pool.log) c'.pool.state.pjsipCallMap u := by
  cases move with
  | quiet hview hstory hflag =>
    have hmap : c'.pool.state.pjsipCallMap = c.pool.state.pjsipCallMap := congrArg Prod.snd hview
    rw [hstory, hflag, hmap]
    exact h
  | stores hrecording hmap hstory hflag =>
    rw [hstory, hflag, hmap]
    cases h with
    | looks hseen hflag hroute => exact .looks hseen hflag hroute
    | records hseen hflag => exact .records hseen hflag
    | ends hseen hflag => exact .ends hseen hflag
    | stops hsees hflag => exact .stops hsees hflag
    | asks hsees hflag hpj hpath => exact .asks hsees hflag hpj hpath
    | finishes hsees hbusy hintime => exact .finishes hsees hbusy hintime
    | unseen hhad hseen hflag hu => exact .unseen hhad hseen hflag hu
    | stopped hsees hflag hu => exact .stopped hsees hflag hu
  | begins hview hnew hstory hidle hbusy =>
    have hmap : c'.pool.state.pjsipCallMap = c.pool.state.pjsipCallMap := congrArg Prod.snd hview
    have hlate : ¬ (story c.pool.log).inTime := fun h ↦ hnew (story_began_of_inTime h)
    rw [hstory, hbusy, hmap]
    cases h with
    | looks hseen hflag hroute => exact .looks hseen (hflag.begins hnew hidle) hroute
    | records hseen hflag => exact .records hseen (hflag.begins hnew hidle)
    | ends hseen hflag => exact .ends hseen (hflag.begins hnew hidle)
    | stops hsees hflag =>
      refine .stops (hsees.imp_right ?_) (hflag.begins hnew hidle)
      rintro ⟨_, hbegan, _⟩
      exact absurd hbegan hnew
    | asks hsees hflag hpj hpath =>
      refine .asks (hsees.imp_right ?_) (hflag.begins hnew hidle) hpj hpath
      rintro ⟨_, hbegan, _⟩
      exact absurd hbegan hnew
    | finishes hsees hne hintime => exact absurd hidle hne
    | unseen hhad hseen hflag hu => exact .unseen hhad hseen (hflag.begins hnew hidle) hu
    | stopped hsees hflag hu =>
      refine .stopped hsees ?_ hu
      exact iff_of_false one_ne_zero fun h ↦ hlate (h trivial)

/-- What a step of the callback leaves to the command. -/
structure Leaves (id : UInt32) (pjCallId : Int) (c c' : RecordingRace n) : Prop where
  recording : recordingOf id c'.pool.state = recordingOf id c.pool.state
  apart : Apart pjCallId c.studio c'.studio
  began : (story c'.pool.log).began ↔ (story c.pool.log).began
  stored : (story c'.pool.log).stored ↔ (story c.pool.log).stored

/-- What a step on the side leaves to the command. -/
theorem Aside.leaves {marks : List (Bool × CallMark)} (h : Aside id marks c c')
    (hbegan : (story (c.pool.log ++ marks)).began ↔ (story c.pool.log).began)
    (hstored : (story (c.pool.log ++ marks)).stored ↔ (story c.pool.log).stored) :
    Leaves id pjCallId c c' where
  recording := congrArg Prod.fst h.view
  apart := by
    rw [h.studio]
    exact .refl _ _
  began := by
    rw [h.log]
    exact hbegan
  stored := by
    rw [h.log]
    exact hstored

/-- The callback and what it leaves to the command. -/
def EndStep (had : Prop) (id : UInt32) (pjCallId flag₀ : Int) (c c' : RecordingRace n) : Prop :=
  Ending had id pjCallId flag₀ (c'.studio.flag pjCallId) (story c'.pool.log)
    c'.pool.state.pjsipCallMap (c'.pool.strands false) ∧ Leaves id pjCallId c c'

/-- The callback finds the call. -/
theorem step_looks (hseen : ¬ (story c.pool.log).seen)
    (hflag : Running flag₀ (c.studio.flag pjCallId) (story c.pool.log))
    (hroute : c.pool.state.pjsipCallMap.lookup pjCallId = some id)
    (hu : c.pool.strands false = lookStateStrand pjCallId .ended)
    (h : c.step (false, e, pjsua) = some c') : EndStep had id pjCallId flag₀ c c' := by
  obtain ⟨hpool, hstudio⟩ := RecordingRace.step_eq (m := (false, e, pjsua)) hu h
  have hsame : c'.studio = c.studio := (Option.some.inj hstudio).symm
  have hvalue : ((routeState .ended pjCallId).run (withRecorders c.studio pjsua e)
      c.pool.state).value = some id := hroute
  have hstory : story c'.pool.log = story c.pool.log := by
    rw [hpool]
    exact story_concat_of_not (by simp) (by simp) (by simp) (by simp)
  refine ⟨?_, ⟨?_, ?_, by rw [hstory], by rw [hstory]⟩⟩
  · rw [hsame, hstory]
    rw [hpool, Pool.advance_self, hvalue]
    exact .records hseen hflag
  · rw [hpool]
    rfl
  · rw [hsame]
    exact .refl _ _

/-- The callback writes the state. -/
theorem step_records_end (hseen : ¬ (story c.pool.log).seen)
    (hflag : Running flag₀ (c.studio.flag pjCallId) (story c.pool.log))
    (hu : c.pool.strands false = recordStateStrand .ended id)
    (h : c.step (false, e, pjsua) = some c') : EndStep had id pjCallId flag₀ c c' := by
  obtain ⟨(haside : Aside id [(false, .recorded .ended)] c c'), hnext⟩ :=
    aside_of_run id _ (m := (false, e, pjsua)) hu h (unheard_stateSection .ended id _ _)
  have hstory : story (c.pool.log ++ [(false, .recorded .ended)]) = story c.pool.log :=
    story_concat_of_not (by simp) (by simp) (by simp) (by simp)
  refine ⟨?_, haside.leaves (by rw [hstory]) (by rw [hstory])⟩
  rw [haside.studio, haside.log, hstory, hnext]
  exact .ends hseen hflag

/-- The callback looks for a path. -/
theorem step_ends {recorded : Bool} (hseen : ¬ (story c.pool.log).seen)
    (hflag : Running flag₀ (c.studio.flag pjCallId) (story c.pool.log))
    (hrecord : recordingOf id c.pool.state = some (some pjCallId, recorded))
    (hpath : recorded = true ↔ had ∨ (story c.pool.log).stored)
    (horder : (story c.pool.log).stored → (story c.pool.log).began)
    (hu : c.pool.strands false = stopAfterEndStrand id)
    (h : c.step (false, e, pjsua) = some c') : EndStep had id pjCallId flag₀ c c' := by
  obtain ⟨call, hl, hcall⟩ := Option.map_eq_some_iff.mp hrecord
  obtain ⟨haside, hnext⟩ := aside_of_run id [] (m := (false, e, pjsua)) hu h
    ⟨rfl, rfl⟩
  have hvalue : ((snapshotCall id).run (withRecorders c.studio pjsua e) c.pool.state).value =
      some call := hl
  obtain rfl : call.recordingPath.isSome = recorded := congrArg Prod.snd hcall
  rw [hvalue] at haside hnext
  have haside : Aside id [(false, .ended call.recordingPath.isSome)] c c' := haside
  have hstory := story_ended c.pool.log call.recordingPath.isSome
  refine ⟨?_, haside.leaves (by rw [hstory]) (by rw [hstory])⟩
  rw [haside.studio, haside.log, hstory, hnext]
  change Ending _ _ _ _ _ _ _ (if call.recordingPath.isSome then _ else _)
  by_cases hsome : call.recordingPath.isSome = true
  · rw [if_pos hsome]
    refine .stops ((hpath.mp hsome).imp_right fun hstored ↦ ?_) hflag
    have hbegan := horder hstored
    refine ⟨Or.inr hstored, hbegan, ?_⟩
    rcases hflag with ⟨-, hflag₀, -⟩ | ⟨hnot, -⟩
    · exact hflag₀
    · exact absurd hbegan hnot
  · rw [if_neg hsome]
    have hnever := mt hpath.mpr hsome
    rw [not_or] at hnever
    exact .unseen hnever.1 (not_or.mpr ⟨hseen, hnever.2⟩) hflag (.here rfl)

/-- The callback reads the record again: the path is still there. -/
theorem step_stops {recorded : Bool}
    (hsees : Sees had flag₀ (story c.pool.log) (story c.pool.log).began)
    (hflag : Running flag₀ (c.studio.flag pjCallId) (story c.pool.log))
    (hrecord : recordingOf id c.pool.state = some (some pjCallId, recorded))
    (hpath : recorded = true ↔ had ∨ (story c.pool.log).stored)
    (hu : c.pool.strands false = discard (stopStrand id))
    (h : c.step (false, e, pjsua) = some c') : EndStep had id pjCallId flag₀ c c' := by
  obtain ⟨call, hl, hcall⟩ := Option.map_eq_some_iff.mp hrecord
  obtain ⟨(haside : Aside id [] c c'), hnext⟩ :=
    aside_of_run id [] (m := (false, e, pjsua)) hu h ⟨rfl, rfl⟩
  have hvalue : ((snapshotCall id).run (withRecorders c.studio pjsua e) c.pool.state).value =
      some call := hl
  obtain rfl : call.recordingPath.isSome = recorded := congrArg Prod.snd hcall
  obtain ⟨path, hsome⟩ := Option.isSome_iff_exists.mp
    (hpath.mpr (hsees.imp_right fun hseen ↦ story_stored_of_seen hseen.1))
  rw [hvalue] at hnext
  have hnil : story (c.pool.log ++ []) = story c.pool.log := by rw [List.append_nil]
  refine ⟨?_, haside.leaves (by rw [hnil]) (by rw [hnil])⟩
  rw [haside.studio, haside.log, hnil, hnext]
  exact .asks hsees hflag (congrArg Prod.fst hcall) hsome

/-- The callback asks for the recorder. -/
theorem step_asks {call : Call} {path : String}
    (hsees : Sees had flag₀ (story c.pool.log) (story c.pool.log).began)
    (hpj : call.pjsipCallId = some pjCallId) (hpath : call.recordingPath = some path)
    (hu : c.pool.strands false = discard (stopFoundStrand id call))
    (h : c.step (false, e, pjsua) = some c') : EndStep had id pjCallId flag₀ c c' := by
  unfold stopFoundStrand at hu
  rw [hpj, hpath] at hu
  obtain ⟨(haside : Aside id [(false, .asked)] c c'), hnext⟩ :=
    aside_of_run id [] (m := (false, e, pjsua)) hu h ⟨rfl, rfl⟩
  have hvalue : ((shim (.pdCallIsRecording pjCallId)).run (withRecorders c.studio pjsua e)
      c.pool.state).value = c.studio.flag pjCallId := run_pdCallIsRecording pjCallId pjsua c.studio
  have hstory := story_asked c.pool.log
  refine ⟨?_, haside.leaves (by rw [hstory]) (by rw [hstory])⟩
  rw [haside.studio, haside.log, hstory, hnext, hvalue]
  have hsees' : Sees had flag₀ { story c.pool.log with
      inTime := (story c.pool.log).inTime ∨ (story c.pool.log).began }
      ((story c.pool.log).inTime ∨ (story c.pool.log).began) :=
    hsees.imp_right fun ⟨hseen, hbegan, hflag₀⟩ ↦ ⟨hseen, Or.inr hbegan, hflag₀⟩
  change Ending _ _ _ _ _ _ _ (discard (if c.studio.flag pjCallId = 0 then _ else _))
  by_cases hidle : c.studio.flag pjCallId = 0
  · rw [if_pos hidle]
    exact .stopped hsees' (iff_of_true hidle Or.inr) (.here rfl)
  · rw [if_neg hidle]
    exact .finishes hsees' hidle Or.inr

/-- What is left once the recorder is stopped. -/
theorem ends_finished (path : String) (recordingStartedAt : Option Nat) :
    Nears id (· = .done ()) (discard (do
      let endedAt ← Strand.plain nowMillis
      let startedAt := recordingStartedAt.getD endedAt
      let env ← Strand.plain Traced.ask
      let fileSizeBytes := env.fileSize path
      Strand.plain (amendCall id fun call ↦ { call with recordingStartedAtMs := none })
      Strand.plain (emitRecordingStopped id path)
      Strand.plain (emitRecordingSaved id path startedAt endedAt (endedAt - startedAt)
        fileSizeBytes)
      return EngineErrorCode.ok)) := by
  refine Strand.until_plain_bind tame_nowMillis fun endedAt ↦ ?_
  refine Strand.until_plain_bind tame_ask fun env ↦ ?_
  refine Strand.until_plain_bind (unheard_amendCall fun _ ↦ ⟨rfl, rfl⟩) fun _ ↦ ?_
  refine Strand.until_plain_bind (tame_pushRecording canLog_nil.2 (by decide) _) fun _ ↦ ?_
  refine Strand.until_plain_bind ?_ fun _ ↦ .here rfl
  unfold emitRecordingSaved
  exact tame_ask.bind fun _ ↦ tame_pushRecording canLog_nil.2 (by decide) _

/-- The callback stops the recorder. -/
theorem step_finishes {path : String} {startedAt : Option Nat}
    (hsees : Sees had flag₀ (story c.pool.log) (story c.pool.log).inTime)
    (hbusy : c.studio.flag pjCallId ≠ 0)
    (hintime : (story c.pool.log).began → (story c.pool.log).inTime)
    (hu : c.pool.strands false = discard (finishStrand id pjCallId path startedAt))
    (h : c.step (false, e, pjsua) = some c') : EndStep had id pjCallId flag₀ c c' := by
  obtain ⟨hpool, hstudio⟩ := RecordingRace.step_eq (m := (false, e, pjsua)) hu h
  have hinput : studioStep c.studio ⟨.stop pjCallId, pjsua⟩ = some c'.studio := by
    simpa [studioInputs, shim, studioAct] using hstudio
  obtain ⟨hapart, hrc, hidle⟩ := stop_step hbusy hinput
  have hvalue : ((shim (.pdCallStopRecording pjCallId)).run (withRecorders c.studio pjsua e)
      c.pool.state).value = 0 := hrc
  have hlog : c'.pool.log = c.pool.log := by
    rw [hpool]
    exact Pool.advance_log_none
  refine ⟨?_, ⟨?_, hapart, by rw [hlog], by rw [hlog]⟩⟩
  · rw [hlog, hidle, hpool, Pool.advance_self, hvalue]
    exact .stopped hsees (iff_of_true rfl hintime) (ends_finished path startedAt)
  · rw [hpool]
    rfl

/-- A step of the callback. -/
theorem step_ending {recorded : Bool} (hu : Ending had id pjCallId flag₀
      (c.studio.flag pjCallId) (story c.pool.log) c.pool.state.pjsipCallMap (c.pool.strands false))
    (hrecord : recordingOf id c.pool.state = some (some pjCallId, recorded))
    (hpath : recorded = true ↔ had ∨ (story c.pool.log).stored)
    (horder : (story c.pool.log).stored → (story c.pool.log).began)
    (h : c.step (false, e, pjsua) = some c') : EndStep had id pjCallId flag₀ c c' := by
  have hnil : story (c.pool.log ++ []) = story c.pool.log := by rw [List.append_nil]
  have near (hnears : Nears id (· = .done ()) (c.pool.strands false)) :
      Nears id (· = .done ()) (c'.pool.strands false) ∧ Aside id [] c c' := by
    by_cases hdone : c.pool.strands false = .done ()
    · rw [RecordingRace.step_done (m := (false, e, pjsua)) hdone] at h
      cases h
    · exact step_nears (m := (false, e, pjsua)) hnears h hdone
  generalize hstrand : c.pool.strands false = u at hu
  cases hu with
  | looks hseen hflag hroute => exact step_looks hseen hflag hroute hstrand h
  | records hseen hflag => exact step_records_end hseen hflag hstrand h
  | ends hseen hflag => exact step_ends hseen hflag hrecord hpath horder hstrand h
  | stops hsees hflag => exact step_stops hsees hflag hrecord hpath hstrand h
  | asks hsees _ hpj hsome => exact step_asks hsees hpj hsome hstrand h
  | finishes hsees hbusy hintime => exact step_finishes hsees hbusy hintime hstrand h
  | unseen hhad hseen hflag hnears =>
    rw [← hstrand] at hnears
    obtain ⟨hnext, haside⟩ := near hnears
    refine ⟨?_, haside.leaves (by rw [hnil]) (by rw [hnil])⟩
    rw [haside.studio, haside.log, hnil]
    exact .unseen hhad hseen hflag hnext
  | stopped hsees hflag hnears =>
    rw [← hstrand] at hnears
    obtain ⟨hnext, haside⟩ := near hnears
    refine ⟨?_, haside.leaves (by rw [hnil]) (by rw [hnil])⟩
    rw [haside.studio, haside.log, hnil]
    exact .stopped hsees hflag hnext

end Worker

section Runs

variable {n : Nat} {id : UInt32} {pjCallId : Int} {path : String} {s : Engine} {call : Call}
  {t : Studio n} {c c' : RecordingRace n} {m : RecordingMove} {had : Prop}

/-- The start of a recording next to the end of the call, by how far both have come. -/
structure Racing (had : Prop) (id : UInt32) (pjCallId : Int) (t : Studio n)
    (c : RecordingRace n) : Prop where
  command : Starting id pjCallId (story c.pool.log) (c.pool.strands true)
  worker : Ending had id pjCallId (t.flag pjCallId) (c.studio.flag pjCallId) (story c.pool.log)
    c.pool.state.pjsipCallMap (c.pool.strands false)
  record : ∃ recorded, recordingOf id c.pool.state = some (some pjCallId, recorded) ∧
    (recorded = true ↔ had ∨ (story c.pool.log).stored)
  conserved : Conserved c.studio
  apart : Apart pjCallId t c.studio

/-- The step lemma. -/
theorem racing_step (h : Racing had id pjCallId t c) (hs : c.step m = some c') :
    Racing had id pjCallId t c' := by
  obtain ⟨who, e, pjsua⟩ := m
  obtain ⟨recorded, hrecord, hpath⟩ := h.record
  cases who with
  | true =>
    have hother : c'.pool.strands false = c.pool.strands false :=
      RecordingRace.step_other (m := (true, e, pjsua)) hs (by simp)
    obtain ⟨hcommand, move, hapart⟩ := step_starting h.command ⟨recorded, hrecord⟩ hs
    have hworker := h.worker.start_move move
    rw [← hother] at hworker
    refine ⟨hcommand, hworker, ?_, conserved_raceStep h.conserved hs, h.apart.trans hapart⟩
    cases move with
    | quiet hview hstory =>
      rw [hstory]
      exact ⟨recorded, (congrArg Prod.fst hview).trans hrecord, hpath⟩
    | begins hview _ hstory =>
      rw [hstory]
      exact ⟨recorded, (congrArg Prod.fst hview).trans hrecord, hpath⟩
    | stores hrecording _ hstory =>
      rw [hstory, hrecording, hrecord]
      exact ⟨true, rfl, iff_of_true rfl (Or.inr trivial)⟩
  | false =>
    have hother : c'.pool.strands true = c.pool.strands true :=
      RecordingRace.step_other (m := (false, e, pjsua)) hs (by simp)
    obtain ⟨hworker, hleaves⟩ := step_ending h.worker hrecord hpath h.command.began hs
    have hcommand := h.command
    rw [← hother] at hcommand
    refine ⟨?_, hworker, ⟨recorded, ?_, ?_⟩, conserved_raceStep h.conserved hs,
      h.apart.trans hleaves.apart⟩
    · exact hcommand.congr hleaves.began hleaves.stored
    · rw [hleaves.recording, hrecord]
    · rw [hleaves.stored]
      exact hpath

/-- The run lemma. -/
theorem racing_run {ms : List RecordingMove} (hmap : s.pjsipCallMap.lookup pjCallId = some id)
    (hl : s.calls.lookup id = some call) (hpj : call.pjsipCallId = some pjCallId)
    (ht : Conserved t)
    (run : ms.foldlM RecordingRace.step (recordingRace s t id path pjCallId) = some c) :
    Racing (call.recordingPath.isSome = true) id pjCallId t c := by
  have initial : Racing (call.recordingPath.isSome = true) id pjCallId t
      (recordingRace s t id path pjCallId) := by
    refine ⟨?_, ?_, ⟨call.recordingPath.isSome, ?_, ?_⟩, ht, .refl _ _⟩
    · exact .checks List.not_mem_nil List.not_mem_nil
    · refine .looks ?_ (Or.inr ⟨List.not_mem_nil, rfl⟩) hmap
      rintro ⟨_, h⟩
      cases h
    · change recordingOf id s = _
      rw [recordingOf, hl, Option.map_some, hpj]
    · exact ⟨Or.inl, fun h ↦ h.resolve_right List.not_mem_nil⟩
  exact (Path.of_foldlM run).invariant initial fun _ _ _ h _ hs ↦ racing_step h hs

/-- Once `CallStartRecording` and the callback that ended the call are done, no recording is left
behind if and only if, where the call had a path before, the recorder began before the callback
asked for it, and where it had none, nothing was recording and the path was stored before the
callback looked for it. -/
theorem no_orphan_iff {i : StudioInput} {is : List StudioInput} {ms : List RecordingMove}
    (sessions : (i :: is).foldlM studioStep (Studio.initial n) = some t)
    (hmap : s.pjsipCallMap.lookup pjCallId = some id) (hl : s.calls.lookup id = some call)
    (hpj : call.pjsipCallId = some pjCallId)
    (run : ms.foldlM RecordingRace.step (recordingRace s t id path pjCallId) = some c)
    (hdone : c.pool.Finished) :
    NoOrphan pjCallId t c.studio ↔
      if call.recordingPath.isSome then (story c.pool.log).began → (story c.pool.log).inTime
      else t.flag pjCallId = 0 ∧ ((story c.pool.log).began → (story c.pool.log).seen) := by
  have ht := conserved_of_sessions sessions
  have final := racing_run hmap hl hpj ht run
  rw [noOrphan_iff ht final.conserved final.apart]
  have hworker := final.worker
  rw [Strand.eq_done (hdone false)] at hworker
  generalize hu : Strand.done () = u at hworker
  cases hworker with
  | looks => cases hu
  | records => cases hu
  | ends => cases hu
  | stops => cases hu
  | asks _ _ hpj hpath =>
    unfold stopFoundStrand at hu
    rw [hpj, hpath] at hu
    cases hu
  | finishes => cases hu
  | unseen hhad hseen hflag =>
    rw [if_neg hhad]
    rcases hflag with ⟨hbegan, hidle, hbusy⟩ | ⟨hbegan, hsame⟩
    · rw [hbusy]
      exact iff_of_false one_ne_zero fun h ↦ hseen (h.2 hbegan)
    · rw [hsame]
      exact ⟨fun h ↦ ⟨h, fun hbegan' ↦ absurd hbegan' hbegan⟩, And.left⟩
  | stopped hsees hflag =>
    rw [hflag]
    by_cases hhad : call.recordingPath.isSome = true
    · rw [if_pos hhad]
    · rw [if_neg hhad]
      obtain ⟨hseen, hintime, hidle⟩ := hsees.resolve_left hhad
      exact iff_of_true (fun _ ↦ hintime) ⟨hidle, fun _ ↦ hseen⟩

/-- The dialled call is answered. -/
def answeredCall : List Input := signIn ++ [dial, ⟨.onCallState 0 5, quietEnv⟩]

/-- The shim is initialised. -/
def newSession : List StudioInput := [⟨.init, quietPjsua⟩]

/-- The order of the steps, `true` for the command, with everything outside going well. -/
def calmly (order : List Bool) : List RecordingMove :=
  order.map fun command ↦
    (command, quietEnv, { quietPjsua with recorderCreate := if command then some 0 else none })

/-- The answered call has the PJSIP id 0, its route and no path. -/
theorem exists_answeredCall : ∃ s call, answeredCall.foldlM engineStep Engine.initial = some s ∧
    s.pjsipCallMap.lookup 0 = some 1 ∧ s.calls.lookup 1 = some call ∧
    call.pjsipCallId = some 0 ∧ call.recordingPath = none := by
  have h : (answeredCall.foldlM engineStep Engine.initial).map (fun s ↦
      (s.pjsipCallMap.lookup 0, (s.calls.lookup 1).map fun call ↦
        (call.pjsipCallId, call.recordingPath))) = some (some 1, some (some 0, none)) := by decide
  obtain ⟨s, hs, hlooks⟩ := Option.map_eq_some_iff.mp h
  rw [Prod.mk.injEq] at hlooks
  obtain ⟨hmap, hcall⟩ := hlooks
  obtain ⟨call, hl, hfields⟩ := Option.map_eq_some_iff.mp hcall
  rw [Prod.mk.injEq] at hfields
  exact ⟨s, call, hs, hmap, hl, hfields⟩

/-- A recording that is stored before the call ends, as an instance. -/
theorem no_orphan_iff_stored :
    ∃ s t c, answeredCall.foldlM engineStep Engine.initial = some s ∧
      newSession.foldlM studioStep (Studio.initial 1) = some t ∧
      (calmly (List.replicate 6 true ++ List.replicate 11 false)).foldlM RecordingRace.step
        (recordingRace s t 1 "r.wav" 0) = some c ∧ NoOrphan 0 t c.studio := by
  obtain ⟨s, call, hs, hmap, hl, hpj, hpath⟩ := exists_answeredCall
  have h : ((answeredCall.foldlM engineStep Engine.initial).bind fun s ↦
      (newSession.foldlM studioStep (Studio.initial 1)).bind fun t ↦
        ((calmly (List.replicate 6 true ++ List.replicate 11 false)).foldlM RecordingRace.step
          (recordingRace s t 1 "r.wav" 0)).map fun c ↦ ((c.pool.strands true).isDone,
            (c.pool.strands false).isDone, t.flag 0, c.pool.log)) =
      some (true, true, 0, [(true, .checked), (true, .began), (true, .stored),
        (false, .looked .ended), (false, .recorded .ended), (false, .ended true),
        (false, .asked)]) := by decide
  rw [hs, Option.bind_some] at h
  obtain ⟨t, ht, h⟩ := Option.bind_eq_some_iff.mp h
  obtain ⟨c, hc, hv⟩ := Option.map_eq_some_iff.mp h
  simp only [Prod.mk.injEq] at hv
  obtain ⟨hcommand, hworker, hidle, hlog⟩ := hv
  have hseen : (story c.pool.log).seen := by
    rw [hlog]
    exact ⟨true, by unfold Before; decide⟩
  refine ⟨s, t, c, hs, ht, hc, (no_orphan_iff ht hmap hl hpj hc fun i ↦ ?_).mpr ?_⟩
  · cases i <;> assumption
  · rw [hpath]
    exact ⟨hidle, fun _ ↦ hseen⟩

/-- The call ends after the recorder began and before the path is stored: it is recorded on. -/
theorem recording_outlives_call :
    ∃ s t c, answeredCall.foldlM engineStep Engine.initial = some s ∧
      newSession.foldlM studioStep (Studio.initial 1) = some t ∧
      (calmly [true, true, true, false, false, false, true, true, true]).foldlM RecordingRace.step
        (recordingRace s t 1 "r.wav" 0) = some c ∧ c.pool.Finished ∧ c.studio.flag 0 = 1 ∧
      ¬ NoOrphan 0 t c.studio := by
  obtain ⟨s, -, hs, -⟩ := exists_answeredCall
  have h : ((answeredCall.foldlM engineStep Engine.initial).bind fun s ↦
      (newSession.foldlM studioStep (Studio.initial 1)).bind fun t ↦
        ((calmly [true, true, true, false, false, false, true, true, true]).foldlM
          RecordingRace.step (recordingRace s t 1 "r.wav" 0)).map fun c ↦
            ((c.pool.strands true).isDone, (c.pool.strands false).isDone, c.studio.flag 0)) =
      some (true, true, 1) := by decide
  rw [hs, Option.bind_some] at h
  obtain ⟨t, ht, h⟩ := Option.bind_eq_some_iff.mp h
  obtain ⟨c, hc, hv⟩ := Option.map_eq_some_iff.mp h
  simp only [Prod.mk.injEq] at hv
  obtain ⟨hcommand, hworker, hbusy⟩ := hv
  refine ⟨s, t, c, hs, ht, hc, fun i ↦ ?_, hbusy, fun horphan ↦ ?_⟩
  · cases i <;> assumption
  · have hidle := horphan.idle
    rw [hbusy] at hidle
    cases hidle

end Runs

end PacketDial.System
