import PacketDial.System.Consistency
import PacketDial.System.Finalisation
import PacketDial.System.MediaStats

/-!
# News of recordings

What the engine tells about recordings, and what it has in its records then
(`core_rust/src/lib.rs:1148–1209`, `2257–2375`). Only the two recording functions push these events;
they run in two commands, two entry points and the callback that ends a call.
-/

namespace PacketDial.System

open PacketDial.Core PacketDial.Lib

/-- The view of a run that shows the events about recordings. -/
abbrev recordingView : View Engine Action (CallTables × AccountTables) (String × Json) :=
  announceView recordingTypes

/-- The action is no event about a recording. -/
def NoRecordingNews (a : Action) : Prop := isRecordingNews a = false

/-- No event about a recording is pushed. -/
def Unrecorded (_ : List Mutex) : Engine → List Action → Engine → Prop :=
  Traced.Performs NoRecordingNews

instance (held : List Mutex) : Traced.Composable (Unrecorded held) :=
  inferInstanceAs (Traced.Composable (Traced.Performs NoRecordingNews))

/-- An action that is none. -/
theorem unrecorded_action {held : List Mutex} {s : Engine} {a : Action} (h : NoRecordingNews a) :
    Unrecorded held s [a] s := List.forall_mem_singleton.mpr h

/-- Sparing families push none. -/
instance {γ δ : Type} {v : View Engine Action γ δ} : Sparing v Unrecorded where
  update _ _ := List.forall_mem_nil NoRecordingNews
  emit _ _ _ _ _ hr := unrecorded_action hr
  shim _ _ := unrecorded_action rfl
  guard _ h := by
    refine List.forall_mem_cons.mpr ⟨rfl, List.forall_mem_append.mpr ⟨h, ?_⟩⟩
    exact List.forall_mem_singleton.mpr rfl
  inner _ := List.forall_mem_nil NoRecordingNews

/-- Whether or not locks are held, the shim pushes none. -/
instance {γ δ : Type} {v : View Engine Action γ δ} : Lenient v Unrecorded where
  shim _ _ := unrecorded_action rfl

/-- Neither does a change of the statistics. -/
instance : Lossy Unrecorded where
  update _ _ := List.forall_mem_nil NoRecordingNews

/-- Nothing of such a run shows among the events about recordings. -/
theorem trace_of_unrecorded {α : Type} {held : List Mutex} {x : Eng α}
    (h : Traced.Admits (Unrecorded held) x) (e : Env) (s : Engine) :
    recordingView.trace (x.run e s).trace = [] := by
  refine List.filterMap_eq_nil_iff.mpr fun a ha ↦ ?_
  have hno : isRecordingNews a = false := h.run e s a ha
  cases a with
  | event type payload =>
    rw [announceView_event, if_neg]
    rintro ⟨hmem, -⟩
    simp [isRecordingNews, hmem] at hno
  | _ => rfl

/-- The actions on locks are none. -/
theorem unrecorded_lock (act : LockAct Mutex) :
    Traced.Admits (Unrecorded []) (Traced.emit (.lock act) : Eng Unit) :=
  Traced.admits_emit fun _ ↦ unrecorded_action rfl

/-- The operations that run neither a recording function nor any command push none. -/
theorem unrecorded_op {op : Op} (h : recordingOp op = false) :
    Traced.Admits (Unrecorded []) op.run :=
  admits_every_op unrecorded_lock (fun _ ↦ inferInstance) fun hrec ↦ by simp [h] at hrec

/-- Neither do the other commands. -/
theorem unrecorded_dispatchCommand {cmd : String} (p : Json) (h : cmd ∉ recordingCommands) :
    Traced.Admits (Unrecorded []) (dispatchCommand cmd p) :=
  admits_dispatchCommand (admits_registerFailed unrecorded_lock) cmd p (fun _ ↦ inferInstance)
    fun hrec ↦ absurd hrec h

/-! ### The recording functions -/

/-- `RecordingStarted` (`lib.rs:1148–1158`). -/
def startedNews (id : UInt32) (filePath : String) (startedAt : Nat) : String × Json :=
  ("RecordingStarted", .obj
    [("call_id", .ofU32 id), ("file_path", .str filePath), ("started_at", .ofNat startedAt),
      ("state", .str "Recording")])

/-- `RecordingStopped` (`lib.rs:1160–1169`). -/
def stoppedNews (id : UInt32) (filePath : String) : String × Json :=
  ("RecordingStopped", .obj
    [("call_id", .ofU32 id), ("file_path", .str filePath), ("state", .str "Stopped")])

/-- `RecordingSaved` (`lib.rs:1171–1198`). -/
def savedNews (id : UInt32) (filePath : String)
    (startedAt endedAt durationMs fileSizeBytes : Nat) (format : String) : String × Json :=
  ("RecordingSaved", .obj
    [("recording_id", .str s!"{id}-{startedAt}"), ("call_id", .ofU32 id),
      ("absolute_file_path", .str filePath), ("started_at", .ofNat startedAt),
      ("ended_at", .ofNat endedAt), ("duration_ms", .ofNat durationMs),
      ("file_size_bytes", .ofNat fileSizeBytes), ("format", .str format),
      ("status", .str "completed")])

/-- `RecordingError` (`lib.rs:1200–1209`). -/
def errorNews (id : UInt32) (code message : String) : String × Json :=
  ("RecordingError", .obj
    [("call_id", .ofU32 id), ("code", .str code), ("message", .str message)])

/-- What a recording function returns and tells for the call with an id, and what it makes of the
tables. -/
inductive RecordingOutcome (id : UInt32) (T : CallTables) :
    EngineErrorCode → List (String × Json) → CallTables → Prop where
  /-- A guard refuses. The media is not ready just while the call is up and not in the call. -/
  | refused {rc : EngineErrorCode} (hrc : rc ≠ .ok) (hready : rc = .mediaNotReady →
      ∃ call, T.calls.lookup id = some call ∧ call.state ≠ .ended ∧ call.state ≠ .inCall) :
      RecordingOutcome id T rc [] T
  /-- PJSIP fails. -/
  | failed {code message : String} :
      RecordingOutcome id T .internalError [errorNews id code message] T
  /-- The recording begins. -/
  | begun {call : Call} {pjId : Int} {filePath : String} {startedAt : Nat}
      (hl : T.calls.lookup id = some call) (hstate : call.state = .inCall)
      (hpj : call.pjsipCallId = some pjId) :
      RecordingOutcome id T .ok [startedNews id filePath startedAt] (T.setCall id
        { call with recordingPath := some filePath, recordingStartedAtMs := some startedAt })
  /-- The recording is finished. -/
  | finished {call : Call} {filePath : String}
      {startedAt endedAt durationMs fileSizeBytes : Nat} {format : String}
      (hl : T.calls.lookup id = some call) :
      RecordingOutcome id T .ok
        [stoppedNews id filePath,
          savedNews id filePath startedAt endedAt durationMs fileSizeBytes format]
        (T.setCall id { call with recordingStartedAtMs := none })

/-- A refusal for another reason than the media. -/
theorem RecordingOutcome.denied {id : UInt32} {T : CallTables} {rc : EngineErrorCode}
    (hrc : rc ≠ .ok) (hready : rc ≠ .mediaNotReady) : RecordingOutcome id T rc [] T :=
  .refused hrc fun h ↦ absurd h hready

/-- Nothing is told of any call. -/
theorem outcome_silent (T : CallTables) : ∃ id rc, RecordingOutcome id T rc [] T :=
  ⟨0, .notFound, .denied (by decide) (by decide)⟩

/-- Nothing is told, whatever the tables were before. -/
theorem outcome_silent_from (T : CallTables) : ∃ id T₀ rc, RecordingOutcome id T₀ rc [] T := by
  obtain ⟨id, rc, h⟩ := outcome_silent T
  exact ⟨id, T, rc, h⟩

section Functions

variable {e : Env} {s : Engine} {id : UInt32} {call : Call} {pjId : Int} {filePath : String}

/-- Amending a record that is there. -/
theorem yields_amend_bind {β : Type} {g : Call → Call} {f : Unit → Eng β}
    {R : β → List (String × Json) → CallTables × AccountTables → Prop}
    (hl : (tables s).calls.lookup id = some call)
    (h : ∀ s₁, tables s₁ = (tables s).setCall id (g call) →
      recordingView.Yields (f ()) e s₁ R) :
    recordingView.Yields (amendCall id g >>= f) e s R := by
  have amended : recordingView.Yields (amendCall id g) e s fun _ acts c ↦
      acts = [] ∧ c.1 = (tables s).setCall id (g call) := by
    refine yields_announceLock (View.yields_get_bind ?_)
    rw [show s.calls.lookup id = some call from hl]
    exact ⟨rfl, rfl⟩
  refine View.Yields.bind amended ?_
  rintro _ acts s₁ ⟨rfl, hs₁⟩
  exact h s₁ hs₁

/-- The error of a recording function, last. -/
theorem outcome_error {code message text : String} :
    recordingView.Yields (do
      logEngine .error text
      emitRecordingError id code message
      return EngineErrorCode.internalError) e s fun rc acts c ↦
      RecordingOutcome id (tables s) rc acts c.1 ∧ acts ≠ [] := by
  refine View.yields_still_bind (tame_logEngine canLog_nil _ _ : Traced.Admits
    (Unannounced recordingTypes []) _) fun _ s₁ hs₁ ↦ ?_
  refine yields_pushEvent_bind (by decide) (by decide) fun s₂ hs₂ ↦ View.yields_pure ?_
  have hT : (recordingView.state s₂).1 = tables s := congrArg Prod.fst (hs₂.trans hs₁)
  rw [hT]
  exact ⟨.failed, List.cons_ne_nil _ _⟩

/-- `start_recording_for_call` past its guards. -/
theorem outcome_beginRecording (hl : (tables s).calls.lookup id = some call)
    (hstate : call.state = .inCall) (hpj : call.pjsipCallId = some pjId) :
    recordingView.Yields (beginRecording id pjId filePath) e s fun rc acts c ↦
      RecordingOutcome id (tables s) rc acts c.1 := by
  unfold beginRecording
  refine View.yields_still_bind (unannounced_shim _) fun rc s₁ hs₁ ↦ ?_
  have hT₁ : tables s₁ = tables s := congrArg Prod.fst hs₁
  split
  · rw [← hT₁]
    exact outcome_error.imp fun _ _ _ h ↦ h.1
  · refine View.yields_still_bind (tame_nowMillis : Traced.Admits
      (Unannounced recordingTypes []) _) fun startedAt s₂ hs₂ ↦ ?_
    have hT₂ : tables s₂ = tables s := (congrArg Prod.fst hs₂).trans hT₁
    refine yields_amend_bind (by rw [hT₂]; exact hl) fun s₃ hs₃ ↦ ?_
    refine yields_pushEvent_bind (by decide) (by decide) fun s₄ hs₄ ↦ View.yields_pure ?_
    have hT₄ : (recordingView.state s₄).1 = tables s₃ := congrArg Prod.fst hs₄
    rw [hT₄, hs₃, hT₂]
    exact .begun hl hstate hpj

/-- `start_recording_for_call`. -/
theorem outcome_startRecordingForCall (id : UInt32) (filePath : String) :
    recordingView.Yields (startRecordingForCall id filePath) e s fun rc acts c ↦
      RecordingOutcome id (tables s) rc acts c.1 := by
  unfold startRecordingForCall
  cases hl : (tables s).calls.lookup id with
  | none =>
    refine View.yields_bind (show _ = s from rfl) hl rfl ?_
    exact View.yields_pure (.denied (by decide) (by decide))
  | some call =>
    refine View.yields_bind (show _ = s from rfl) hl rfl ?_
    dsimp only
    split
    · exact View.yields_pure (.denied (by decide) (by decide))
    · next hlive =>
      split
      · next hstate =>
        exact View.yields_pure (.refused (by decide) fun _ ↦ ⟨call, hl, hlive, hstate⟩)
      · next hstate =>
        rw [not_not] at hstate
        split
        · exact View.yields_pure (.denied (by decide) (by decide))
        · next pjId hpj =>
          split
          · exact View.yields_pure (.denied (by decide) (by decide))
          · refine View.yields_still_bind (unannounced_shim _) fun rc s₁ hs₁ ↦ ?_
            have hT : tables s₁ = tables s := congrArg Prod.fst hs₁
            rw [← hT] at hl ⊢
            split
            · exact View.yields_pure (.denied (by decide) (by decide))
            · exact outcome_beginRecording hl hstate hpj

/-- `stop_recording_for_call` past its guards. -/
theorem outcome_finishRecording (hl : (tables s).calls.lookup id = some call)
    (recordingStartedAt : Option Nat) :
    recordingView.Yields (finishRecording id pjId filePath recordingStartedAt) e s fun rc acts c ↦
      RecordingOutcome id (tables s) rc acts c.1 ∧ acts ≠ [] := by
  unfold finishRecording
  refine View.yields_still_bind (unannounced_shim _) fun rc s₁ hs₁ ↦ ?_
  have hT₁ : tables s₁ = tables s := congrArg Prod.fst hs₁
  split
  · rw [← hT₁]
    exact outcome_error
  · refine View.yields_still_bind (tame_nowMillis : Traced.Admits
      (Unannounced recordingTypes []) _) fun endedAt s₂ hs₂ ↦ ?_
    have hT₂ : tables s₂ = tables s := (congrArg Prod.fst hs₂).trans hT₁
    dsimp only
    refine View.yields_ask_bind (yields_amend_bind (by rw [hT₂]; exact hl) fun s₃ hs₃ ↦ ?_)
    refine yields_pushEvent_bind (by decide) (by decide) fun s₄ hs₄ ↦ ?_
    unfold emitRecordingSaved
    rw [bind_assoc]
    refine View.yields_ask_bind (yields_pushEvent_bind (by decide) (by decide) fun s₅ hs₅ ↦ ?_)
    refine View.yields_pure ⟨?_, List.cons_ne_nil _ _⟩
    have hT₅ : (recordingView.state s₅).1 = tables s₃ := congrArg Prod.fst (hs₅.trans hs₄)
    rw [hT₅, hs₃, hT₂]
    exact .finished hl

/-- `stop_recording_for_call`, which tells something of a call that is recorded. -/
theorem outcome_stopRecordingForCall (id : UInt32) :
    recordingView.Yields (stopRecordingForCall id) e s fun rc acts c ↦
      RecordingOutcome id (tables s) rc acts c.1 ∧
        ∀ call pjId, (tables s).calls.lookup id = some call → call.pjsipCallId = some pjId →
          call.recordingPath.isSome → e.rc (.pdCallIsRecording pjId) ≠ 0 → acts ≠ [] := by
  unfold stopRecordingForCall
  cases hl : (tables s).calls.lookup id with
  | none =>
    refine View.yields_bind (show _ = s from rfl) hl rfl ?_
    refine View.yields_pure ⟨.denied (by decide) (by decide), ?_⟩
    intro call pjId h
    cases h
  | some call =>
    refine View.yields_bind (show _ = s from rfl) hl rfl ?_
    dsimp only
    split
    · next pjId filePath hpj hpath =>
      refine View.yields_read_bind (unannounced_shim _)
        (P := fun rc ↦ rc = e.rc (.pdCallIsRecording pjId)) rfl ?_
      rintro rc s₁ rfl hs₁
      have hT : tables s₁ = tables s := congrArg Prod.fst hs₁
      split
      · next hrc =>
        refine View.yields_pure ?_
        rw [show (recordingView.state s₁).1 = tables s from hT]
        refine ⟨.denied (by decide) (by decide), ?_⟩
        rintro _ pjId' ⟨⟩ hpj' - hrec
        rw [hpj] at hpj'
        cases hpj'
        exact absurd hrc hrec
      · rw [← hT] at hl ⊢
        exact (outcome_finishRecording hl _).imp fun _ _ _ h ↦ ⟨h.1, fun _ _ _ _ _ _ ↦ h.2⟩
    · next hnone =>
      refine View.yields_pure ⟨.denied (by decide) (by decide), ?_⟩
      rintro _ pjId ⟨⟩ hpj hpath -
      obtain ⟨path, hpath⟩ := Option.isSome_iff_exists.mp hpath
      exact absurd hpath (hnone pjId path hpj)

/-- The two commands on recordings, about the call that they name. -/
theorem outcome_dispatchCommand {cmd : String} (p : Json) (hcmd : cmd ∈ recordingCommands) :
    recordingView.Yields (dispatchCommand cmd p) e s fun result acts c ↦
      ∃ rc, result = .ok rc ∧
        RecordingOutcome ((callIdField p).getD 0) (tables s) rc acts c.1 := by
  have refused : RecordingOutcome ((callIdField p).getD 0) (tables s) .invalidJson [] (tables s) :=
    .denied (by decide) (by decide)
  simp only [recordingCommands, List.mem_cons, List.not_mem_nil, or_false] at hcmd
  obtain rfl | rfl := hcmd
  · refine View.yields_map (?_ : recordingView.Yields (cmdCallStartRecording p) e s _)
    unfold cmdCallStartRecording
    split
    · next id path hid _ =>
      split
      · exact View.yields_pure ⟨_, rfl, refused⟩
      · refine (outcome_startRecordingForCall id (trim path)).imp fun rc acts c h ↦ ⟨rc, rfl, ?_⟩
        rw [hid]
        exact h
    · exact View.yields_pure ⟨_, rfl, refused⟩
  · refine View.yields_map (?_ : recordingView.Yields (cmdCallStopRecording p) e s _)
    unfold cmdCallStopRecording
    split
    · next id hid =>
      refine (outcome_stopRecordingForCall id).imp fun rc acts c h ↦ ⟨rc, rfl, ?_⟩
      rw [hid]
      exact h.1
    · exact View.yields_pure ⟨_, rfl, refused⟩

/-- A command on recordings, sent through the C ABI. -/
theorem outcome_engineSendCommand {cmdType payload : CPtr} {cmd text : String} {p : Json}
    (hc : cmdType.toStr = some cmd) (ht : payload.toStr = some text)
    (hp : e.parseJson text = some p) (hcmd : cmd ∈ recordingCommands) :
    recordingView.Yields (engineSendCommand cmdType payload) e s fun value acts c ↦
      ∃ rc : EngineErrorCode, value = rc.code ∧
        RecordingOutcome ((callIdField p).getD 0) (tables s) rc acts c.1 := by
  unfold engineSendCommand
  refine yields_withText (fun cmd' hc' ↦ yields_withText (fun text' ht' ↦ ?_) fun hnone ↦ ?_)
    fun hnone ↦ ?_
  · obtain rfl : cmd = cmd' := Option.some.inj (hc.symm.trans hc')
    obtain rfl : text = text' := Option.some.inj (ht.symm.trans ht')
    refine yields_whenInitialized (fun _ ↦ View.yields_ask_bind ?_) fun _ ↦ ?_
    · rw [hp]
      refine View.yields_map ((outcome_dispatchCommand p hcmd).imp ?_)
      rintro _ acts c ⟨rc, rfl, h⟩
      exact ⟨rc, rfl, h⟩
    · exact ⟨.notInitialized, rfl, .denied (by decide) (by decide)⟩
  · rw [ht] at hnone
    cases hnone
  · rw [hc] at hnone
    cases hnone

/-- Any other command tells nothing. -/
theorem silent_engineSendCommand {i : Input} {cmdType payload : CPtr}
    (hop : i.op = .sendCommand cmdType payload)
    (hcmd : ∀ c ∈ commandOf i s, c.1 ∉ recordingCommands) :
    recordingView.Yields (engineSendCommand cmdType payload) i.env s fun _ acts _ ↦ acts = [] := by
  unfold engineSendCommand
  refine yields_withText (fun cmd hc ↦ yields_withText (fun text ht ↦ ?_) fun _ ↦ rfl) fun _ ↦ rfl
  refine yields_whenInitialized (fun hinit ↦ View.yields_ask_bind ?_) fun _ ↦ rfl
  split
  · exact View.yields_pure rfl
  · next p hp =>
    refine View.yields_map (trace_of_unrecorded (unrecorded_dispatchCommand p ?_) _ _)
    exact hcmd (cmd, p) (by simp [commandOf, hop, hinit, hc, ht, hp])

/-- A line of an IPC client, about the call that it names. -/
theorem outcome_ipcLine {i : Input} {client : Nat} {line cmd : String} {p : Json}
    (hop : i.op = .ipcLine client line) (hcmdOf : commandOf i s = some (cmd, p))
    (hcmd : cmd ∈ recordingCommands) :
    recordingView.Yields (Core.ipcLine client line) i.env s fun _ acts c ↦
      ∃ rc, RecordingOutcome ((callIdField p).getD 0) (tables s) rc acts c.1 := by
  unfold Core.ipcLine
  refine View.yields_ask_bind ?_
  rw [commandOf, hop] at hcmdOf
  obtain ⟨v, hv, heq⟩ := Option.map_eq_some_iff.mp hcmdOf
  cases heq
  rw [hv]
  dsimp only
  refine (outcome_dispatchCommand _ hcmd).bind ?_
  rintro _ acts s₁ ⟨rc, rfl, h⟩
  refine View.yields_still (blind_emit (v := recordingView) rfl rfl rfl :
    Traced.Admits (Unannounced recordingTypes []) _) fun _ ↦ ?_
  rw [List.append_nil]
  exact ⟨rc, h⟩

/-- Any other line tells nothing. -/
theorem silent_ipcLine {i : Input} {client : Nat} {line : String}
    (hop : i.op = .ipcLine client line) (hcmd : ∀ c ∈ commandOf i s, c.1 ∉ recordingCommands) :
    recordingView.Yields (Core.ipcLine client line) i.env s fun _ acts _ ↦ acts = [] := by
  unfold Core.ipcLine
  refine View.yields_ask_bind ?_
  split
  · exact View.yields_pure rfl
  · next v hv =>
    have hother := hcmd _ (by simp [commandOf, hop, hv]; rfl)
    dsimp only
    have silent {x : Eng Unit} (hx : Traced.Admits (Unrecorded []) x) :
        recordingView.Yields x i.env s fun _ acts _ ↦ acts = [] := trace_of_unrecorded hx _ _
    refine silent ((unrecorded_dispatchCommand _ hother).bind fun result ↦ ?_)
    split
    · exact discreet_emit (v := accountView) rfl rfl rfl rfl rfl
    · exact tame_pure _

/-- `engine_start_recording` is about the first live call. -/
theorem outcome_engineStartRecording (path : CPtr) :
    recordingView.Yields (engineStartRecording path) e s fun _ acts c ↦
      ∃ id rc, RecordingOutcome id (tables s) rc acts c.1 := by
  unfold engineStartRecording
  split
  · exact View.yields_pure (outcome_silent _)
  · refine yields_whenInitialized (fun _ ↦ yields_withText (fun text _ ↦ ?_)
      fun _ ↦ outcome_silent _) fun _ ↦ outcome_silent _
    refine View.yields_still_bind (tame_firstCall _ : Traced.Admits
      (Unannounced recordingTypes []) _) fun found s₁ hs₁ ↦ ?_
    have hT : tables s₁ = tables s := congrArg Prod.fst hs₁
    rw [← hT]
    split
    · refine View.yields_map ((outcome_startRecordingForCall _ text).imp fun rc _ _ h ↦ ?_)
      exact ⟨_, rc, h⟩
    · exact View.yields_pure (outcome_silent _)

/-- So is `engine_stop_recording`. -/
theorem outcome_engineStopRecording :
    recordingView.Yields engineStopRecording e s fun _ acts c ↦
      ∃ id rc, RecordingOutcome id (tables s) rc acts c.1 := by
  unfold engineStopRecording
  refine yields_whenInitialized (fun _ ↦ ?_) fun _ ↦ outcome_silent _
  refine View.yields_still_bind (tame_firstCall _ : Traced.Admits
    (Unannounced recordingTypes []) _) fun found s₁ hs₁ ↦ ?_
  have hT : tables s₁ = tables s := congrArg Prod.fst hs₁
  rw [← hT]
  split
  · refine View.yields_map ((outcome_stopRecordingForCall _).imp fun rc _ _ h ↦ ?_)
    exact ⟨_, rc, h.1⟩
  · exact View.yields_pure (outcome_silent _)

/-- A run that pushes no news drops out. -/
theorem yields_unrecorded_bind {α β : Type} {x : Eng α} (hx : Traced.Admits (Unrecorded []) x)
    {f : α → Eng β} {R : β → List (String × Json) → CallTables × AccountTables → Prop}
    (h : recordingView.Yields (f (x.run e s).value) e (x.run e s).state R) :
    recordingView.Yields (x >>= f) e s R :=
  View.yields_bind rfl rfl (trace_of_unrecorded hx e s) h

/-- What the end of a call tells of its recording. -/
theorem outcome_stopAfterEnd (id : UInt32) :
    recordingView.Yields (stopAfterEnd id) e s fun _ acts c ↦
      (∃ rc, RecordingOutcome id (tables s) rc acts c.1) ∧
        ∀ call pjId, (tables s).calls.lookup id = some call → call.pjsipCallId = some pjId →
          call.recordingPath.isSome → e.rc (.pdCallIsRecording pjId) ≠ 0 → acts ≠ [] := by
  unfold stopAfterEnd
  have hfound : ((snapshotCall id).run e s).value = (tables s).calls.lookup id := rfl
  refine View.yields_bind (show _ = s from rfl) hfound rfl ?_
  split
  · refine View.yields_discard ((outcome_stopRecordingForCall id).imp fun rc _ _ h ↦ ?_)
    exact ⟨⟨rc, h.1⟩, h.2⟩
  · next hnone =>
    refine View.yields_pure ⟨⟨.notFound, .denied (by decide) (by decide)⟩, ?_⟩
    intro call pjId hl _ hpath
    rw [hl] at hnone
    exact absurd hpath hnone

/-- What a state callback tells. -/
theorem outcome_pjsipOnCallState (pjCallId invState : Int) :
    recordingView.Yields (pjsipOnCallState pjCallId invState) e s fun _ acts c ↦
      ∃ id T rc, RecordingOutcome id T rc acts c.1 := by
  unfold pjsipOnCallState
  split
  · exact View.yields_pure (outcome_silent_from _)
  · next newState _ =>
    refine yields_unrecorded_bind (mild_routeState (by decide) newState pjCallId) ?_
    split
    · exact View.yields_still (tame_logEngine canLog_nil _ _ : Traced.Admits
        (Unannounced recordingTypes []) _) fun _ ↦ outcome_silent_from _
    · next id _ =>
      refine yields_unrecorded_bind (mild_stateSection newState id) ?_
      split
      · refine (outcome_stopAfterEnd id).imp fun _ _ _ h ↦ ?_
        obtain ⟨rc, houtcome⟩ := h.1
        exact ⟨id, _, rc, houtcome⟩
      · exact View.yields_pure (outcome_silent_from _)

/-- The end of a call that PJSIP still records tells something of its recording. -/
theorem outcome_of_disconnect {pjCallId invState : Int} (hinv : invCallState invState = some .ended)
    (hmap : (tables s).callMap.lookup pjCallId = some id)
    (hl : (tables s).calls.lookup id = some call) (hpj : call.pjsipCallId = some pjId)
    (hpath : call.recordingPath.isSome) (hrec : e.rc (.pdCallIsRecording pjId) ≠ 0) :
    recordingView.Yields (pjsipOnCallState pjCallId invState) e s fun _ acts c ↦
      acts ≠ [] ∧ ∃ T rc, EndedIn T id ∧ RecordingOutcome id T rc acts c.1 := by
  obtain ⟨hvalue, htables, -⟩ := run_routeState .ended pjCallId e s
  rw [hmap] at hvalue
  unfold pjsipOnCallState
  rw [hinv]
  dsimp only
  refine yields_unrecorded_bind (mild_routeState (by decide) .ended pjCallId) ?_
  rw [hvalue]
  dsimp only
  have hl₁ : (tables ((routeState .ended pjCallId).run e s).state).calls.lookup id = some call := by
    rw [htables, CallTables.unmap_calls]
    exact hl
  have hsection : callView.Yields (stateSection .ended id) e
      ((routeState .ended pjCallId).run e s).state fun _ _ T ↦ ∃ now,
        T.calls.lookup id = some (stateRecord .ended now call) := by
    refine (yields_stateSection .ended id).imp ?_
    rintro _ _ _ (⟨-, -, hnone⟩ | ⟨old, -, hold, -, -, rfl⟩)
    · rw [hl₁] at hnone
      cases hnone
    · cases hl₁.symm.trans hold
      exact ⟨_, lookup_setCall _ _ _⟩
  obtain ⟨now, hl₂⟩ := hsection
  refine yields_unrecorded_bind (mild_stateSection .ended id) ?_
  refine (outcome_stopAfterEnd id).imp fun _ acts c h ↦ ?_
  obtain ⟨⟨rc, houtcome⟩, htold⟩ := h
  refine ⟨htold _ pjId hl₂ ?_ ?_ hrec, _, rc, ⟨_, hl₂, stateRecord_state _ _ _⟩, houtcome⟩
  · rw [stateRecord_pjsipCallId]
    exact hpj
  · rw [stateRecord_recordingPath]
    exact hpath

end Functions

/-- What a step tells of recordings one recording function tells, last of all. -/
theorem step_recording {s s' : Engine} {i : Input} (hs : engineStep s i = some s') :
    ∃ id T rc, RecordingOutcome id T rc (recordingView.trace (i.outcome s).trace) (tables s') := by
  rw [engineStep_eq hs]
  change recordingView.Yields i.op.run i.env s fun _ acts c ↦
    ∃ id T rc, RecordingOutcome id T rc acts c.1
  have silent {α : Type} {x : Eng α}
      (h : recordingView.Yields x i.env s fun _ acts _ ↦ acts = []) :
      recordingView.Yields x i.env s fun _ acts c ↦ ∃ id T rc, RecordingOutcome id T rc acts c.1 :=
    h.imp fun _ acts c hacts ↦ by
      rw [hacts]
      exact outcome_silent_from c.1
  by_cases hop : recordingOp i.op = false
  · exact silent (trace_of_unrecorded (unrecorded_op hop) _ _)
  cases hi : i.op with
  | sendCommand cmdType payload =>
    refine View.yields_discard ?_
    by_cases hcmd : ∀ c ∈ commandOf i s, c.1 ∉ recordingCommands
    · exact silent (silent_engineSendCommand hi hcmd)
    · push Not at hcmd
      obtain ⟨⟨cmd, p⟩, hof, hmem⟩ := hcmd
      simp only [commandOf, hi, Option.mem_def, Option.ite_none_right_eq_some,
        Option.bind_eq_some_iff, Option.map_eq_some_iff, Prod.mk.injEq] at hof
      obtain ⟨-, _, hc, _, ⟨text, ht, hp⟩, rfl, rfl⟩ := hof
      refine (outcome_engineSendCommand hc ht hp hmem).imp fun _ acts c h ↦ ?_
      obtain ⟨rc, -, houtcome⟩ := h
      exact ⟨_, _, rc, houtcome⟩
  | ipcLine client line =>
    by_cases hcmd : ∀ c ∈ commandOf i s, c.1 ∉ recordingCommands
    · exact silent (silent_ipcLine hi hcmd)
    · push Not at hcmd
      obtain ⟨⟨cmd, p⟩, hof, hmem⟩ := hcmd
      refine (outcome_ipcLine hi hof hmem).imp fun _ acts c h ↦ ?_
      obtain ⟨rc, houtcome⟩ := h
      exact ⟨_, _, rc, houtcome⟩
  | startRecording path =>
    refine View.yields_discard ((outcome_engineStartRecording path).imp fun _ acts c h ↦ ?_)
    obtain ⟨id, rc, houtcome⟩ := h
    exact ⟨id, _, rc, houtcome⟩
  | stopRecording =>
    refine View.yields_discard (outcome_engineStopRecording.imp fun _ acts c h ↦ ?_)
    obtain ⟨id, rc, houtcome⟩ := h
    exact ⟨id, _, rc, houtcome⟩
  | onCallState pjCallId invState => exact outcome_pjsipOnCallState pjCallId invState
  | _ => exact absurd (by rw [hi]; rfl) hop

end PacketDial.System
