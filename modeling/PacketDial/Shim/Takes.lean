import PacketDial.Shim.Recorders

/-!
# The recording of one call

What the start and the stop of a recording do to `g_is_recording` of one PJSIP call and to the
recorders of the others, and what it means that a call leaves no recording behind.
-/

namespace PacketDial.Shim

open PacketDial.Lib

variable {n : Nat} {t t' : Studio n} {callId : Int}

/-- `g_is_recording` of a call id, 0 out of bounds. -/
def Studio.flag (t : Studio n) (callId : Int) : Int :=
  match entryOf n callId with
  | none => 0
  | some i => t.recording.isRecording i

/-- The recorder is the one that the entry of the call id holds. -/
def Studio.Holds (t : Studio n) (callId id : Int) : Prop :=
  ∃ i, entryOf n callId = some i ∧ t.recording.isRecording i = 1 ∧ t.recording.recorderId i = id

/-- The entries of the other call ids are as they were. -/
def Apart (callId : Int) (t t' : Studio n) : Prop :=
  ∀ i, entryOf n callId ≠ some i → t'.recording.isRecording i = t.recording.isRecording i ∧
    t'.recording.recorderId i = t.recording.recorderId i

/-- `pjsua` lets the call be recorded. -/
structure Pjsua.Records (e : Pjsua) (callId : Int) : Prop where
  info : e.callGetInfo callId = true
  port : e.callConfPort callId ≠ invalidId
  create : ∃ id, e.recorderCreate = some id ∧ e.recorderConfPort id ≠ invalidId
  call : e.connectCall = true
  mic : e.connectMic = true

/-- Since `t₀` the call has left no recording behind: `g_is_recording` is 0, the recorders that
are alive were so in `t₀` and the call did not hold them, and the call id can be recorded again. -/
structure NoOrphan (callId : Int) (t₀ t : Studio n) : Prop where
  idle : t.flag callId = 0
  destroyed : ∀ id ∈ t.live, id ∈ t₀.live ∧ ¬ t₀.Holds callId id
  reusable : (entryOf n callId).isSome → ∀ (e : Pjsua) (path : List UInt8), e.Records callId →
    path ≠ [] → ((pdCallStartRecording callId (some path)).run e t.recording).value = 0

/-- `pd_call_is_recording` reads the flag. -/
theorem run_pdCallIsRecording (callId : Int) (e : Pjsua) (t : Studio n) :
    ((pdCallIsRecording callId).run e t.recording).value = t.flag callId := by
  unfold pdCallIsRecording Studio.flag
  cases entryOf n callId <;> rfl

namespace Apart

/-- Nothing happened. -/
theorem refl (callId : Int) (t : Studio n) : Apart callId t t := fun _ _ ↦ ⟨rfl, rfl⟩

/-- One thing after another. -/
theorem trans {t'' : Studio n} (h : Apart callId t t') (h' : Apart callId t' t'') :
    Apart callId t t'' :=
  fun i hi ↦ ⟨(h' i hi).1.trans (h i hi).1, (h' i hi).2.trans (h i hi).2⟩

/-- The arrays did not change. -/
theorem of_recording (h : t'.recording = t.recording) : Apart callId t t' := by
  intro i _
  rw [h]
  exact ⟨rfl, rfl⟩

/-- The entry of the call was set. -/
theorem of_setEntry {i : Fin n} {recording id slot : Int} {path : List UInt8}
    (hi : entryOf n callId = some i)
    (h : t'.recording = setEntry i recording path id slot t.recording) : Apart callId t t' := by
  intro j hj
  have hne : j ≠ i := by
    rintro rfl
    exact hj hi
  rw [h, setEntry_isRecording, setEntry_recorderId, if_neg hne, if_neg hne]
  exact ⟨rfl, rfl⟩

end Apart

/-- The flag after the arrays did not change. -/
theorem flag_of_recording (h : t'.recording = t.recording) : t'.flag callId = t.flag callId := by
  unfold Studio.flag
  rw [h]

/-- The flag after the entry of the call was set. -/
theorem flag_of_setEntry {i : Fin n} {recording id slot : Int} {path : List UInt8}
    (hi : entryOf n callId = some i)
    (h : t'.recording = setEntry i recording path id slot t.recording) :
    t'.flag callId = recording := by
  unfold Studio.flag
  rw [hi, h]
  dsimp only
  rw [setEntry_isRecording, if_pos rfl]

/-- The flag of a call id within bounds. -/
theorem flag_of_entry {i : Fin n} (hi : entryOf n callId = some i) :
    t.flag callId = t.recording.isRecording i := by
  unfold Studio.flag
  rw [hi]

/-- A start succeeds just if it turns the flag on, and it leaves the other calls alone. -/
theorem start_step {filePath : Option (List UInt8)} {e : Pjsua}
    (h : studioStep t ⟨.start callId filePath, e⟩ = some t') :
    let rc := ((pdCallStartRecording callId filePath).run e t.recording).value
    Apart callId t t' ∧ (rc = 0 → t.flag callId = 0 ∧ t'.flag callId = 1) ∧
      (rc ≠ 0 → t'.flag callId = t.flag callId) := by
  obtain ⟨-, -, hrecording, -, -⟩ := studioStep_eq h
  have cases := start_cases (e := e) (s := t.recording) callId filePath
  change t'.recording = ((pdCallStartRecording callId filePath).run e t.recording).state
    at hrecording
  generalize (pdCallStartRecording callId filePath).run e t.recording = out at *
  obtain ⟨value, recording, trace⟩ := out
  dsimp only at cases hrecording ⊢
  generalize ledger trace = entries at *
  cases cases with
  | refused => exact ⟨.of_recording hrecording, by simp, fun _ ↦ flag_of_recording hrecording⟩
  | tried => exact ⟨.of_recording hrecording, by simp, fun _ ↦ flag_of_recording hrecording⟩
  | started hi hidle =>
    refine ⟨.of_setEntry hi hrecording, fun _ ↦ ⟨?_, flag_of_setEntry hi hrecording⟩,
      fun hne ↦ absurd rfl hne⟩
    rw [flag_of_entry hi, hidle]

/-- A stop of a recording succeeds and turns the flag off, and it leaves the other calls alone. -/
theorem stop_step {e : Pjsua} (hbusy : t.flag callId ≠ 0)
    (h : studioStep t ⟨.stop callId, e⟩ = some t') :
    Apart callId t t' ∧ ((pdCallStopRecording callId).run e t.recording).value = 0 ∧
      t'.flag callId = 0 := by
  obtain ⟨-, -, hrecording, -, -⟩ := studioStep_eq h
  change t'.recording = ((pdCallStopRecording callId).run e t.recording).state at hrecording
  cases hi : entryOf n callId with
  | none =>
    unfold Studio.flag at hbusy
    rw [hi] at hbusy
    exact absurd rfl hbusy
  | some i =>
    have hstate := (run_disconnectRecorder (e := e) (s := t.recording) (e.callConfPort callId)
      (t.recording.recorderSlot i)).1
    rw [flag_of_entry hi] at hbusy
    have hrun : ((pdCallStopRecording callId).run e t.recording).value = 0 ∧
        ((pdCallStopRecording callId).run e t.recording).state =
          setEntry i 0 [] invalidId invalidId t.recording := by
      unfold pdCallStopRecording
      rw [hi]
      simp [hbusy, run_destroyIfValid, hstate]
    rw [hrun.2] at hrecording
    exact ⟨.of_setEntry hi hrecording, hrun.1, flag_of_setEntry hi hrecording⟩

/-- A call that is not being recorded can be. -/
theorem start_of_idle {e : Pjsua} {path : List UInt8} (hentry : (entryOf n callId).isSome)
    (hidle : t.flag callId = 0) (he : e.Records callId) (hpath : path ≠ []) :
    ((pdCallStartRecording callId (some path)).run e t.recording).value = 0 := by
  obtain ⟨i, hi⟩ := Option.isSome_iff_exists.mp hentry
  obtain ⟨id, hid, hslot⟩ := he.create
  obtain ⟨byte, rest, rfl⟩ := List.exists_cons_of_ne_nil hpath
  rw [flag_of_entry hi] at hidle
  unfold pdCallStartRecording startRecorder
  rw [hi]
  simp [hidle, he.info, he.port, hid, hslot, he.call, he.mic]

/-- A call that leaves the others alone leaves no recording behind just if its flag is off. -/
theorem noOrphan_iff {t₀ : Studio n} (h₀ : Conserved t₀) (h : Conserved t)
    (hapart : Apart callId t₀ t) : NoOrphan callId t₀ t ↔ t.flag callId = 0 := by
  refine ⟨NoOrphan.idle, fun hidle ↦ ⟨hidle, fun id hid ↦ ?_, fun hentry e path he hpath ↦
    start_of_idle hentry hidle he hpath⟩⟩
  obtain ⟨i, hbusy, rfl⟩ := (h.live id).mp hid
  have hne : entryOf n callId ≠ some i := by
    intro hi
    rw [flag_of_entry hi, hbusy] at hidle
    cases hidle
  obtain ⟨hflag, hrecorder⟩ := hapart i hne
  rw [hflag] at hbusy
  rw [hrecorder]
  refine ⟨(h₀.live _).mpr ⟨i, hbusy, rfl⟩, ?_⟩
  rintro ⟨j, hj, hjbusy, hji⟩
  rw [h₀.once j i hjbusy hbusy hji] at hj
  exact hne hj

end PacketDial.Shim
