import PacketDial.Ui.ActiveCalls

/-!
# Starting a recording

`RecordingService` keeps a session for each call and asks the engine to start its recording
(`app_flutter/lib/core/recording_service.dart:14–197`). A start that finds the media not ready waits
and begins anew; the phase `starting` that it set itself makes it return before it asks again.
-/

namespace PacketDial.Ui

open PacketDial.Core

/-- `RecordingPhase` (`recording_service.dart:14–21`). -/
inductive RecordingPhase where
  | idle
  | starting
  | recording
  | stopping
  | stopped
  | failed
  deriving DecidableEq, Repr

/-- `RecordingSession` (`recording_service.dart:23–44`). -/
structure RecordingSession where
  callId : Int
  filePath : Option String
  phase : RecordingPhase
  startedAt : Option Int := none
  endedAt : Option Int := none
  durationMs : Option Int := none
  errorCode : Option String := none
  errorMessage : Option String := none
  autoRequested : Bool := false
  deriving DecidableEq, Repr

/-- `RecordingSession.isActive` (`recording_service.dart:46–47`). -/
def RecordingSession.isActive (session : RecordingSession) : Bool :=
  session.phase = .starting || session.phase = .recording

/-- `_kEngineMediaNotReady` (`recording_service.dart:11`). -/
def mediaNotReady : Int := 7

/-- How a call of the engine comes out: with a code, or with an exception. -/
inductive EngineReply where
  | code (result : Int)
  | exception (text : String)
  deriving DecidableEq, Repr

/-- What an invocation of `startRecordingForCall` waits for: the path of the file, with the session
it found before, or the end of the delay. -/
inductive StartAwait where
  | path (existing : Option RecordingSession)
  | delay
  deriving DecidableEq

/-- How far an invocation gets without waiting. -/
inductive StartProgress where
  | waits (await : StartAwait)
  | returns (value : Bool)
  deriving DecidableEq

/-- `startRecordingForCall` until it asks for a path (`recording_service.dart:145–148`). -/
def enterStart (existing : Option RecordingSession) : StartProgress :=
  if existing.any (·.isActive) then .returns true else .waits (.path existing)

/-- The path of the file (`recording_service.dart:150–154`). The first branch is out of reach: a
session that is starting is active. -/
def startPath (existing : Option RecordingSession) (generated : String) : String :=
  match existing with
  | some session => if session.phase = .starting then session.filePath.getD generated else generated
  | none => generated

/-- The session while the engine is asked (`recording_service.dart:155–160`). -/
def startingSession (callId : Int) (autoRequested : Bool) (existing : Option RecordingSession)
    (generated : String) : RecordingSession where
  callId := callId
  filePath := some (startPath existing generated)
  phase := .starting
  autoRequested := autoRequested || existing.any (·.autoRequested)

/-- A session that failed (`recording_service.dart:182–195`, `213–227`). -/
def RecordingSession.fail (session : RecordingSession) (errorCode errorMessage : String) :
    RecordingSession :=
  { session with
    phase := .failed
    errorCode := some errorCode
    errorMessage := some errorMessage }

/-- `startRecordingForCall` once the engine has answered (`recording_service.dart:163–196`). -/
def concludeStart (retryCount : Nat) (session : RecordingSession) :
    EngineReply → RecordingSession × StartProgress
  | .code result =>
    if result = 0 then (session, .returns true)
    else if result = mediaNotReady ∧ retryCount < 5 then (session, .waits .delay)
    else (session.fail "EngineError" s!"Failed to start recording (code {result})", .returns false)
  | .exception text => (session.fail "Exception" text, .returns false)

/-- A call is tried again at most five times. -/
theorem retryCount_lt_of_waits {retryCount : Nat} {session : RecordingSession} {reply : EngineReply}
    {await : StartAwait} (h : (concludeStart retryCount session reply).2 = .waits await) :
    retryCount < 5 := by
  cases reply with
  | exception text => cases h
  | code result =>
    by_contra hlt
    by_cases hzero : result = 0 <;> simp [concludeStart, hzero, hlt] at h

/-- What an invocation leaves behind: what it returns, unless an exception ends it, the session, and
what the engine answered. -/
structure StartRun where
  value : Option Bool
  session : Option RecordingSession
  asked : List EngineReply
  deriving DecidableEq

/-- `startRecordingForCall` with nothing else going on (`recording_service.dart:140–197`). In the
`retryCount`th attempt `generateRecordingPath` gives a path or throws, and the engine answers. -/
def startRecordingForCall (callId : Int) (autoRequested : Bool) (paths : Nat → Option String)
    (replies : Nat → EngineReply) (retryCount : Nat) (session : Option RecordingSession) :
    StartRun :=
  match enterStart session with
  | .returns value => ⟨some value, session, []⟩
  | .waits _ =>
    match paths retryCount with
    | none => ⟨none, session, []⟩
    | some path =>
      let asking := startingSession callId autoRequested session path
      match h : concludeStart retryCount asking (replies retryCount) with
      | (session', .returns value) => ⟨some value, some session', [replies retryCount]⟩
      | (session', .waits _) =>
        let again := startRecordingForCall callId autoRequested paths replies (retryCount + 1)
          (some session')
        { again with asked := replies retryCount :: again.asked }
  termination_by 5 - retryCount
  decreasing_by
    have hlt := retryCount_lt_of_waits (congrArg Prod.snd h)
    omega

/-- What there is of a call when an invocation begins: its session, the other invocations for it
that have not returned, with what they wait for, and whether the engine has accepted a start whose
event is yet to come. -/
structure CallRecording where
  session : Option RecordingSession
  waiting : List StartAwait
  accepted : Bool
  deriving DecidableEq

/-- A start of the recording is on its way. A session that is starting does not say so by itself:
the invocation that set its phase may have returned with nothing accepted. -/
def CallRecording.InFlight (recording : CallRecording) : Prop :=
  recording.waiting ≠ [] ∨ recording.accepted = true

instance (recording : CallRecording) : Decidable recording.InFlight :=
  inferInstanceAs (Decidable (_ ∨ _))

/-- An invocation tells the truth: it returns true only if the engine accepted a start, the call was
recorded already or a start was on its way; while the media is not ready it asks again, up to five
times; and it leaves the session starting only if a start was accepted or is on its way. -/
structure TellsTruth (before : CallRecording) (run : StartRun) : Prop where
  accepted : run.value = some true →
    .code 0 ∈ run.asked ∨ before.session.any (·.phase = .recording) ∨ before.InFlight
  askedAgain : ∀ k < 5, run.asked[k]? = some (.code mediaNotReady) → k + 1 < run.asked.length
  asked_le : run.asked.length ≤ 6
  pending : run.session.any (·.phase = .starting) → .code 0 ∈ run.asked ∨ before.InFlight

section Start

variable (callId : Int) (autoRequested : Bool) {paths : Nat → Option String}
  {replies : Nat → EngineReply} {session : Option RecordingSession}

/-- An active session ends an invocation at once. -/
theorem start_of_active (h : session.any (·.isActive) = true) (retryCount : Nat) :
    startRecordingForCall callId autoRequested paths replies retryCount session =
      ⟨some true, session, []⟩ := by
  rw [startRecordingForCall, enterStart, if_pos h]

/-- Without a path nothing is asked. -/
theorem start_of_no_path (h : session.any (·.isActive) = false) {retryCount : Nat}
    (hpath : paths retryCount = none) :
    startRecordingForCall callId autoRequested paths replies retryCount session =
      ⟨none, session, []⟩ := by
  rw [startRecordingForCall, enterStart, if_neg (by simp [h])]
  dsimp only
  rw [hpath]

/-- An answer other than that the media is not ready ends an invocation. -/
theorem concludeStart_answer {reply : EngineReply} (hreply : reply ≠ .code mediaNotReady)
    (retryCount : Nat) (session : RecordingSession) :
    ∃ session', concludeStart retryCount session reply =
      (session', .returns (reply = .code 0)) ∧ (reply ≠ .code 0 → session'.phase = .failed) := by
  cases reply with
  | exception text => exact ⟨session.fail "Exception" text, rfl, fun _ ↦ rfl⟩
  | code result =>
    by_cases hzero : result = 0
    · subst hzero
      exact ⟨session, by simp [concludeStart], fun hne ↦ absurd rfl hne⟩
    · have hready : result ≠ mediaNotReady := fun h ↦ hreply (congrArg EngineReply.code h)
      refine ⟨session.fail "EngineError" s!"Failed to start recording (code {result})", ?_,
        fun _ ↦ rfl⟩
      simp [concludeStart, hzero, hready]

/-- So the invocation asks once and returns whether the start was accepted. -/
theorem start_of_answer (h : session.any (·.isActive) = false) {retryCount : Nat} {path : String}
    (hpath : paths retryCount = some path) (hreply : replies retryCount ≠ .code mediaNotReady) :
    ∃ session', startRecordingForCall callId autoRequested paths replies retryCount session =
        ⟨some (replies retryCount = .code 0), some session', [replies retryCount]⟩ ∧
      (replies retryCount ≠ .code 0 → session'.phase = .failed) := by
  obtain ⟨session', hconclude, hfailed⟩ := concludeStart_answer hreply retryCount
    (startingSession callId autoRequested session path)
  refine ⟨session', ?_, hfailed⟩
  rw [startRecordingForCall, enterStart, if_neg (by simp [h])]
  dsimp only
  rw [hpath]
  dsimp only
  split
  · next heq =>
    cases hconclude.symm.trans heq
    rfl
  · next heq => cases hconclude.symm.trans heq

/-- When the media is not ready the invocation returns true after its one request, and the session
stays as it was for it. -/
theorem start_of_notReady (h : session.any (·.isActive) = false) {retryCount : Nat} {path : String}
    (hlt : retryCount < 5) (hpath : paths retryCount = some path)
    (hreply : replies retryCount = .code mediaNotReady) :
    startRecordingForCall callId autoRequested paths replies retryCount session =
      ⟨some true, some (startingSession callId autoRequested session path),
        [.code mediaNotReady]⟩ := by
  have hconclude : concludeStart retryCount (startingSession callId autoRequested session path)
      (replies retryCount) =
        (startingSession callId autoRequested session path, .waits .delay) := by
    rw [hreply]
    simp [concludeStart, mediaNotReady, hlt]
  rw [startRecordingForCall, enterStart, if_neg (by simp [h])]
  dsimp only
  rw [hpath]
  dsimp only
  split
  · next heq => cases hconclude.symm.trans heq
  · next heq =>
    cases hconclude.symm.trans heq
    -- The phase that the invocation set itself is what it finds now.
    have hactive :
        (some (startingSession callId autoRequested session path)).any (·.isActive) = true := by
      simp [startingSession, RecordingSession.isActive]
    rw [start_of_active callId autoRequested hactive, hreply]

/-- An invocation that returns true and asks nothing tells the truth just if the call is recorded or
a start is on its way. -/
theorem unasked_tells_truth_iff (before : CallRecording) :
    TellsTruth before ⟨some true, before.session, []⟩ ↔
      before.session.any (·.phase = .recording) = true ∨ before.InFlight := by
  constructor
  · intro truth
    exact (truth.accepted rfl).resolve_left List.not_mem_nil
  · intro hready
    refine ⟨fun _ ↦ .inr hready, by simp, by simp, fun hstarting ↦ .inr ?_⟩
    rcases hready with hrecording | hflight
    · cases hsession : before.session with
      | none => simp [hsession] at hrecording
      | some session => simp_all
    · exact hflight

/-- For every session of a call, every start on its way, and every sequence of paths and answers, an
invocation tells the truth just if the call is recorded already or has an active session and a start
on its way, or it has no active session and no path can be made for the file or the first answer is
not that the media is not ready. -/
theorem start_tells_truth_iff (paths : Nat → Option String) (replies : Nat → EngineReply)
    (before : CallRecording) :
    TellsTruth before
        (startRecordingForCall callId autoRequested paths replies 0 before.session) ↔
      if before.session.any (·.isActive) then
        before.session.any (·.phase = .recording) = true ∨ before.InFlight
      else paths 0 = none ∨ replies 0 ≠ .code mediaNotReady := by
  by_cases hactive : before.session.any (·.isActive) = true
  · rw [start_of_active callId autoRequested hactive, if_pos hactive]
    exact unasked_tells_truth_iff before
  · have hinactive : before.session.any (·.isActive) = false := Bool.not_eq_true _ ▸ hactive
    rw [if_neg hactive]
    cases hpath : paths 0 with
    | none =>
      rw [start_of_no_path callId autoRequested hinactive hpath]
      refine iff_of_true ⟨by simp, by simp, by simp, fun hstarting ↦ ?_⟩ (.inl rfl)
      cases hsession : before.session with
      | none => simp [hsession] at hstarting
      | some session => simp_all [RecordingSession.isActive]
    | some path =>
      by_cases hreply : replies 0 = .code mediaNotReady
      · rw [start_of_notReady callId autoRequested hinactive (by decide) hpath hreply]
        refine iff_of_false (fun truth ↦ ?_) ?_
        · exact Nat.lt_irrefl 1 (truth.askedAgain 0 (by decide) rfl)
        · simp [hreply]
      · obtain ⟨session', hrun, hfailed⟩ :=
          start_of_answer callId autoRequested hinactive hpath hreply
        rw [hrun]
        refine iff_of_true ⟨?_, ?_, by simp, ?_⟩ (.inr hreply)
        · intro hvalue
          refine .inl (List.mem_singleton.mpr (Eq.symm ?_))
          simpa using hvalue
        · intro k _ hk
          exact absurd (List.mem_singleton.mp (List.mem_of_getElem? hk)).symm hreply
        · intro hstarting
          refine .inl (List.mem_singleton.mpr (Eq.symm ?_))
          by_contra hne
          have hphase : session'.phase = .starting := by simpa using hstarting
          cases (hfailed hne).symm.trans hphase

end Start

/-- The media is not ready for the first request and is for the next. -/
def lateMedia (k : Nat) : EngineReply := .code (if k = 0 then mediaNotReady else 0)

/-- An invocation for a call without a session. -/
def firstStart : StartRun := startRecordingForCall 1 false (fun _ ↦ some "1.wav") lateMedia 0 none

/-- The engine is not asked again, the invocation says that the recording was started, and so does
the next one, which finds what this one left behind and asks nothing. -/
theorem start_not_asked_again :
    ¬TellsTruth ⟨none, [], false⟩ firstStart ∧
      ¬TellsTruth ⟨firstStart.session, [], false⟩
        (startRecordingForCall 1 false (fun _ ↦ some "1.wav") lateMedia 0 firstStart.session) := by
  have hfirst : firstStart = ⟨some true, some (startingSession 1 false none "1.wav"),
      [.code mediaNotReady]⟩ := start_of_notReady 1 false rfl (by decide) rfl rfl
  have hactive : firstStart.session.any (·.isActive) = true := by rw [hfirst]; rfl
  rw [start_of_active 1 false hactive, hfirst]
  refine ⟨fun truth ↦ ?_, fun truth ↦ ?_⟩
  · have haccepted := truth.accepted rfl
    revert haccepted
    decide
  · have haccepted := truth.accepted rfl
    revert haccepted
    decide

end PacketDial.Ui
