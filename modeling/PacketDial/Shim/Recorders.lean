import Mathlib.Logic.Function.Basic
import PacketDial.Lib.Ledger
import PacketDial.Lib.Paths
import PacketDial.Lib.Traced

/-!
# The recorders of the shim

The recording state of `core_rust/src/shim/pjsip_shim.c:106–110` and the functions that touch
it: `pd_reset_recording_state` (147–156), the loop of `pd_shutdown` (934–947) and
`pd_call_start_recording`, `pd_call_stop_recording`, `pd_call_is_recording` (1992–2086). Every
native recorder that is alive belongs to exactly one entry of the four arrays.
-/

namespace PacketDial.Shim

open PacketDial.Lib

/-- `PJSUA_INVALID_ID`. -/
def invalidId : Int := -1

/-- The recording arrays, with `n` entries (`MAX_CALLS`). A path is its bytes before the NUL. -/
structure Recording (n : Nat) where
  isRecording : Fin n → Int
  recPath : Fin n → List UInt8
  recorderId : Fin n → Int
  recorderSlot : Fin n → Int

/-- Static storage starts out zero. -/
def Recording.static (n : Nat) : Recording n where
  isRecording _ := 0
  recPath _ := []
  recorderId _ := 0
  recorderSlot _ := 0

/-- What one call of the shim gets from `pjsua`: `pjsua_call_get_info` and
`pjsua_call_get_conf_port` of a call, the id of `pjsua_recorder_create` if it succeeds,
`pjsua_recorder_get_conf_port`, whether the two `pjsua_conf_connect` succeed, and the status of
`pjsua_destroy`. -/
structure Pjsua where
  callGetInfo : Int → Bool
  callConfPort : Int → Int
  recorderCreate : Option Int
  recorderConfPort : Int → Int
  connectCall : Bool
  connectMic : Bool
  destroy : Int

/-- What the shim does with the bridge and the recorders. -/
inductive NativeAct where
  | recorder (entry : Entry Int)
  | confConnect (source sink : Int)
  | confDisconnect (source sink : Int)
  deriving DecidableEq

/-- Functions of the shim. -/
abbrev ShimM (n : Nat) (α : Type) := Traced Pjsua (Recording n) NativeAct α

/-- `pjsua_recorder_destroy`. -/
def recorderDestroy {n : Nat} (id : Int) : ShimM n Unit := Traced.emit (.recorder (.closed id))

/-- The entry of a call id within `0 ≤ call_id < MAX_CALLS`. -/
def entryOf (n : Nat) (callId : Int) : Option (Fin n) :=
  if h : 0 ≤ callId ∧ callId < n then some ⟨callId.toNat, by omega⟩ else none

/-- `pd_reset_recording_state` (`pjsip_shim.c:147–156`). -/
def pdResetRecordingState {n : Nat} : ShimM n Unit :=
  Traced.modify fun _ ↦
    { isRecording := fun _ ↦ 0
      recPath := fun _ ↦ []
      recorderId := fun _ ↦ invalidId
      recorderSlot := fun _ ↦ invalidId }

/-- Entry `i` of all four arrays. -/
def setEntry {n : Nat} (i : Fin n) (recording : Int) (path : List UInt8) (id slot : Int)
    (s : Recording n) : Recording n where
  isRecording := Function.update s.isRecording i recording
  recPath := Function.update s.recPath i path
  recorderId := Function.update s.recorderId i id
  recorderSlot := Function.update s.recorderSlot i slot

/-- `pd_call_start_recording` from `pjsua_recorder_create` on (`pjsip_shim.c:2017–2049`). -/
def startRecorder {n : Nat} (i : Fin n) (path : List UInt8) (callSlot : Int) : ShimM n Int := do
  let pjsua ← Traced.ask
  match pjsua.recorderCreate with
  | none => return -1
  | some recId =>
    Traced.emit (.recorder (.opened recId))
    let recSlot := pjsua.recorderConfPort recId
    if recSlot = invalidId then
      recorderDestroy recId
      return -1
    else if !pjsua.connectCall then
      recorderDestroy recId
      return -1
    else
      Traced.emit (.confConnect callSlot recSlot)
      if !pjsua.connectMic then
        Traced.emit (.confDisconnect callSlot recSlot)
        recorderDestroy recId
        return -1
      else
        Traced.emit (.confConnect 0 recSlot)
        Traced.modify (setEntry i 1 (path.take 511) recId recSlot)
        return 0

/-- `pd_call_start_recording` (`pjsip_shim.c:1992–2050`); a null path is `none`. -/
def pdCallStartRecording {n : Nat} (callId : Int) (filePath : Option (List UInt8)) :
    ShimM n Int := do
  match entryOf n callId, filePath with
  | none, _ | _, none | _, some [] => return -1
  | some i, some path =>
    if (← Traced.get).isRecording i ≠ 0 then return -1
    else
      let pjsua ← Traced.ask
      if !pjsua.callGetInfo callId then return -1
      else
        let callSlot := pjsua.callConfPort callId
        if callSlot = invalidId then return -1
        else startRecorder i path callSlot

/-- The recorder leaves the bridge (`pjsip_shim.c:2065–2070`). -/
def disconnectRecorder {n : Nat} (callSlot recSlot : Int) : ShimM n Unit :=
  if recSlot ≠ invalidId then do
    if callSlot ≠ invalidId then
      Traced.emit (.confDisconnect callSlot recSlot)
    Traced.emit (.confDisconnect 0 recSlot)
  else pure ()

/-- A recorder that is there is destroyed (`pjsip_shim.c:939–941`, `2071–2073`). -/
def destroyIfValid {n : Nat} (id : Int) : ShimM n Unit :=
  if id ≠ invalidId then recorderDestroy id else pure ()

/-- `pd_call_stop_recording` (`pjsip_shim.c:2052–2080`). -/
def pdCallStopRecording {n : Nat} (callId : Int) : ShimM n Int := do
  match entryOf n callId with
  | none => return -1
  | some i =>
    let s ← Traced.get
    if s.isRecording i = 0 then return -1
    else
      disconnectRecorder ((← Traced.ask).callConfPort callId) (s.recorderSlot i)
      destroyIfValid (s.recorderId i)
      Traced.modify (setEntry i 0 [] invalidId invalidId)
      return 0

/-- `pd_call_is_recording` (`pjsip_shim.c:2082–2086`). -/
def pdCallIsRecording {n : Nat} (callId : Int) : ShimM n Int := do
  match entryOf n callId with
  | none => return 0
  | some i => return (← Traced.get).isRecording i

/-- The part of `pd_init` that touches the recording state (`pjsip_shim.c:711`). -/
def pdInit {n : Nat} : ShimM n Unit := pdResetRecordingState

/-- `pd_shutdown` without the tone generator (`pjsip_shim.c:934–959`). -/
def pdShutdown {n : Nat} : ShimM n Int := do
  let s ← Traced.get
  Traced.each (fun i ↦ destroyIfValid (s.recorderId i)) (List.finRange n)
  pdResetRecordingState
  return (← Traced.ask).destroy

/-- The entries that a trace makes in the ledger of recorders. -/
def ledger (acts : List NativeAct) : List (Entry Int) :=
  acts.filterMap fun
    | .recorder entry => some entry
    | _ => none

@[simp] theorem ledger_append (acts acts' : List NativeAct) :
    ledger (acts ++ acts') = ledger acts ++ ledger acts' := List.filterMap_append

@[simp] theorem ledger_nil : ledger [] = [] := rfl

@[simp] theorem ledger_recorder (entry : Entry Int) (acts : List NativeAct) :
    ledger (.recorder entry :: acts) = entry :: ledger acts := rfl

section Specs

variable {n : Nat} (e : Pjsua) (s : Recording n)

/-- What a start answers, leaves behind and enters in the ledger: nothing that lasts, or one new
recorder in an idle entry. -/
inductive StartCase (callId : Int) : Int → Recording n → List (Entry Int) → Prop where
  | refused : StartCase callId (-1) s []
  | tried {id : Int} (hcreate : e.recorderCreate = some id) :
      StartCase callId (-1) s [.opened id, .closed id]
  | started {i : Fin n} {id slot : Int} {path : List UInt8} (hi : entryOf n callId = some i)
      (hidle : s.isRecording i = 0) (hcreate : e.recorderCreate = some id)
      (hslot : slot ≠ invalidId) : StartCase callId 0 (setEntry i 1 path id slot s) [.opened id]

/-- What a stop does: nothing, or empty an entry and destroy its recorder. -/
inductive StopCase (callId : Int) : Int → Recording n → List (Entry Int) → Prop where
  | refused : StopCase callId (-1) s []
  | stopped {i : Fin n} (hi : entryOf n callId = some i) (hbusy : s.isRecording i ≠ 0) :
      StopCase callId 0 (setEntry i 0 [] invalidId invalidId s)
        (if s.recorderId i ≠ invalidId then [.closed (s.recorderId i)] else [])

variable {e s}

/-- From the creation of the recorder on, exit by exit. -/
theorem startRecorder_cases {callId : Int} {i : Fin n} (hi : entryOf n callId = some i)
    (hidle : s.isRecording i = 0) (callSlot : Int) (path : List UInt8) :
    let out := (startRecorder i path callSlot).run e s
    StartCase e s callId out.value out.state (ledger out.trace) := by
  unfold startRecorder
  cases hcreate : e.recorderCreate with
  | none => simpa [hcreate] using StartCase.refused
  | some id =>
    by_cases hslot : e.recorderConfPort id = invalidId
    · simpa [hcreate, hslot, recorderDestroy, ledger] using StartCase.tried hcreate
    · by_cases hcall : e.connectCall = true
      · by_cases hmic : e.connectMic = true
        · simpa [hcreate, hslot, hcall, hmic, ledger] using
            StartCase.started hi hidle hcreate hslot
        · simpa [hcreate, hslot, hcall, hmic, recorderDestroy, ledger] using
            StartCase.tried hcreate
      · simpa [hcreate, hslot, hcall, recorderDestroy, ledger] using StartCase.tried hcreate

/-- `pd_call_start_recording`, exit by exit. -/
theorem start_cases (callId : Int) (filePath : Option (List UInt8)) :
    let out := (pdCallStartRecording callId filePath).run e s
    StartCase e s callId out.value out.state (ledger out.trace) := by
  unfold pdCallStartRecording
  split
  · exact .refused
  · exact .refused
  · exact .refused
  · next i path _ hi =>
    by_cases hidle : s.isRecording i = 0
    · by_cases hinfo : e.callGetInfo callId = true
      · by_cases hport : e.callConfPort callId = invalidId
        · simpa [hidle, hinfo, hport] using StartCase.refused
        · simpa [hidle, hinfo, hport] using startRecorder_cases hi hidle _ path
      · simpa [hidle, hinfo] using StartCase.refused
    · simpa [hidle] using StartCase.refused

/-- Leaving the bridge changes nothing else. -/
theorem run_disconnectRecorder (callSlot recSlot : Int) :
    ((disconnectRecorder callSlot recSlot).run e s).state = s ∧
      ledger ((disconnectRecorder callSlot recSlot).run e s).trace = [] := by
  unfold disconnectRecorder
  by_cases hrec : recSlot = invalidId
  · simp [hrec]
  · by_cases hcall : callSlot = invalidId <;> simp [hrec, hcall, ledger]

/-- Only a recorder that is there is destroyed. -/
theorem run_destroyIfValid (id : Int) :
    (destroyIfValid id).run e s =
      ⟨(), s, if id ≠ invalidId then [.recorder (.closed id)] else []⟩ := by
  unfold destroyIfValid recorderDestroy
  by_cases hid : id = invalidId <;> simp [hid]

/-- `pd_call_stop_recording`, exit by exit. -/
theorem stop_cases (callId : Int) :
    let out := (pdCallStopRecording callId).run e s
    StopCase s callId out.value out.state (ledger out.trace) := by
  unfold pdCallStopRecording
  split
  · exact .refused
  · next i hi =>
    by_cases hbusy : s.isRecording i = 0
    · simpa [hbusy] using StopCase.refused
    · obtain ⟨hstate, hledger⟩ := run_disconnectRecorder (e := e) (s := s)
        (e.callConfPort callId) (s.recorderSlot i)
      have stopped := StopCase.stopped hi hbusy
      by_cases hid : s.recorderId i = invalidId
      · simpa [hbusy, run_destroyIfValid, hstate, hledger, hid] using stopped
      · simpa [hbusy, run_destroyIfValid, hstate, hledger, hid] using stopped

/-- Destroying the recorders of a list of entries. -/
theorem run_destroyAll (entries : List (Fin n)) (r : Fin n → Int) :
    (Traced.each (fun i ↦ destroyIfValid (r i)) entries).run e s =
      ⟨(), s, ((entries.map r).filter (· ≠ invalidId)).map fun id ↦ .recorder (.closed id)⟩ := by
  induction entries with
  | nil => rfl
  | cons i entries ih =>
    rw [Traced.each, Traced.run_bind, run_destroyIfValid, ih]
    by_cases hid : r i = invalidId <;> simp [hid]

/-- The ledger of destroying a list of recorders. -/
theorem ledger_closeAll (ids : List Int) :
    ledger (ids.map fun id ↦ .recorder (.closed id)) = ids.map .closed := by
  induction ids with
  | nil => rfl
  | cons id ids ih => rw [List.map_cons, ledger_recorder, ih, List.map_cons]

end Specs

/-- The recording part of the shim, with everything it did so far and whether it is between
`pd_init` and `pd_shutdown`. -/
structure Studio (n : Nat) where
  recording : Recording n
  acts : List NativeAct
  running : Bool

/-- Before the first `pd_init`. -/
def Studio.initial (n : Nat) : Studio n := ⟨.static n, [], false⟩

/-- The recorders that are alive. -/
def Studio.live {n : Nat} (t : Studio n) : Finset Int := openAfter ∅ (ledger t.acts)

/-- The calls of a session. -/
inductive StudioOp where
  | init
  | start (callId : Int) (filePath : Option (List UInt8))
  | stop (callId : Int)
  | shutdown
  deriving DecidableEq

/-- A call with what it gets from `pjsua`. -/
structure StudioInput where
  op : StudioOp
  pjsua : Pjsua

/-- The code of a call. -/
def StudioOp.run {n : Nat} : StudioOp → ShimM n Int
  | .init => do
    pdInit
    return 0
  | .start callId filePath => pdCallStartRecording callId filePath
  | .stop callId => pdCallStopRecording callId
  | .shutdown => pdShutdown

/-- The run of a call. -/
def StudioInput.outcome {n : Nat} (i : StudioInput) (t : Studio n) :
    Outcome (Recording n) NativeAct Int := i.op.run.run i.pjsua t.recording

/-- Sessions: `pd_init` comes first, the other calls after it, and `pd_shutdown` last. -/
def inSession (running : Bool) : StudioOp → Bool
  | .init => !running
  | _ => running

/-- The promise of `pjsua_recorder_create`: a valid id, of no recorder that is alive. -/
def FreshId (live : Finset Int) (created : Option Int) : Prop :=
  ∀ id ∈ created, id ≠ invalidId ∧ id ∉ live

instance (live : Finset Int) (created : Option Int) : Decidable (FreshId live created) :=
  inferInstanceAs (Decidable (∀ id ∈ created, _))

/-- One call of a session. -/
def studioStep {n : Nat} (t : Studio n) (i : StudioInput) : Option (Studio n) :=
  if inSession t.running i.op ∧ FreshId t.live i.pjsua.recorderCreate then
    some
      { recording := (i.outcome t).state
        acts := t.acts ++ (i.outcome t).trace
        running := decide (i.op ≠ .shutdown) }
  else none

/-- The arrays and the recorders that are alive account for each other. -/
structure Conserved {n : Nat} (t : Studio n) : Prop where
  flag : ∀ i, t.recording.isRecording i = 0 ∨ t.recording.isRecording i = 1
  recorded : ∀ i, t.recording.isRecording i = 1 ↔
    t.recording.recorderId i ≠ invalidId ∧ t.recording.recorderSlot i ≠ invalidId
  idle : ∀ i, t.recording.isRecording i = 0 → t.recording.recorderId i = invalidId
  live : ∀ id, id ∈ t.live ↔
    ∃ i, t.recording.isRecording i = 1 ∧ t.recording.recorderId i = id
  once : ∀ i j, t.recording.isRecording i = 1 → t.recording.isRecording j = 1 →
    t.recording.recorderId i = t.recording.recorderId j → i = j
  closes : ClosesOpen ∅ (ledger t.acts)
  stopped : t.running = false → t.live = ∅

section Entries

variable {n : Nat} {i j : Fin n} {recording id slot : Int} {path : List UInt8} {s : Recording n}

@[simp] theorem setEntry_isRecording :
    (setEntry i recording path id slot s).isRecording j =
      if j = i then recording else s.isRecording j := Function.update_apply _ _ _ _

@[simp] theorem setEntry_recorderId :
    (setEntry i recording path id slot s).recorderId j = if j = i then id else s.recorderId j :=
  Function.update_apply _ _ _ _

@[simp] theorem setEntry_recorderSlot :
    (setEntry i recording path id slot s).recorderSlot j =
      if j = i then slot else s.recorderSlot j := Function.update_apply _ _ _ _

end Entries

namespace Conserved

variable {n : Nat} {t t' : Studio n} {i : Fin n}

/-- An entry that records has a recorder. -/
theorem recorderId_ne (h : Conserved t) (hbusy : t.recording.isRecording i ≠ 0) :
    t.recording.recorderId i ≠ invalidId :=
  ((h.recorded i).mp ((h.flag i).resolve_left hbusy)).1

/-- A call that leaves the arrays and the live recorders as they are. -/
theorem quiet (h : Conserved t) (hrecording : t'.recording = t.recording)
    (hlive : t'.live = t.live) (hcloses : ClosesOpen ∅ (ledger t'.acts))
    (hrunning : t'.running = true) : Conserved t' where
  flag := by
    rw [hrecording]
    exact h.flag
  recorded := by
    rw [hrecording]
    exact h.recorded
  idle := by
    rw [hrecording]
    exact h.idle
  live := by
    rw [hrecording, hlive]
    exact h.live
  once := by
    rw [hrecording]
    exact h.once
  closes := hcloses
  stopped hstopped := by
    rw [hrunning] at hstopped
    cases hstopped

/-- A new recorder in an idle entry. -/
theorem enter (h : Conserved t) {id slot : Int} {path : List UInt8}
    (hidle : t.recording.isRecording i = 0) (hid : id ≠ invalidId) (hfresh : id ∉ t.live)
    (hslot : slot ≠ invalidId) (hrecording : t'.recording = setEntry i 1 path id slot t.recording)
    (hlive : t'.live = insert id t.live) (hcloses : ClosesOpen ∅ (ledger t'.acts))
    (hrunning : t'.running = true) : Conserved t' where
  flag j := by
    rw [hrecording, setEntry_isRecording]
    split
    · exact Or.inr rfl
    · exact h.flag j
  recorded j := by
    rw [hrecording, setEntry_isRecording, setEntry_recorderId, setEntry_recorderSlot]
    split
    · exact ⟨fun _ ↦ ⟨hid, hslot⟩, fun _ ↦ rfl⟩
    · exact h.recorded j
  idle j := by
    rw [hrecording, setEntry_isRecording, setEntry_recorderId]
    split
    · intro hzero
      cases hzero
    · exact h.idle j
  live id' := by
    rw [hlive, hrecording, Finset.mem_insert, h.live]
    simp only [setEntry_isRecording, setEntry_recorderId]
    constructor
    · rintro (rfl | ⟨j, hbusy, rfl⟩)
      · exact ⟨i, by rw [if_pos rfl], by rw [if_pos rfl]⟩
      · have hne : j ≠ i := by
          rintro rfl
          rw [hidle] at hbusy
          cases hbusy
        exact ⟨j, by rw [if_neg hne, hbusy], by rw [if_neg hne]⟩
    · rintro ⟨j, hbusy, hj⟩
      by_cases hji : j = i
      · rw [if_pos hji] at hj
        exact Or.inl hj.symm
      · rw [if_neg hji] at hbusy hj
        exact Or.inr ⟨j, hbusy, hj⟩
  once j k hj hk hjk := by
    have other {j : Fin n} (hji : j ≠ i) (hj : t.recording.isRecording j = 1) :
        t.recording.recorderId j ≠ id := by
      rintro rfl
      exact hfresh ((h.live _).mpr ⟨j, hj, rfl⟩)
    rw [hrecording, setEntry_isRecording] at hj hk
    rw [hrecording, setEntry_recorderId, setEntry_recorderId] at hjk
    by_cases hji : j = i
    · by_cases hki : k = i
      · rw [hji, hki]
      · rw [if_neg hki] at hk
        rw [if_pos hji, if_neg hki] at hjk
        exact absurd hjk.symm (other hki hk)
    · rw [if_neg hji] at hj
      by_cases hki : k = i
      · rw [if_neg hji, if_pos hki] at hjk
        exact absurd hjk (other hji hj)
      · rw [if_neg hki] at hk
        rw [if_neg hji, if_neg hki] at hjk
        exact h.once j k hj hk hjk
  closes := hcloses
  stopped hstopped := by
    rw [hrunning] at hstopped
    cases hstopped

/-- The recorder of an entry destroyed and the entry emptied. -/
theorem leave (h : Conserved t) {path : List UInt8} (hbusy : t.recording.isRecording i ≠ 0)
    (hrecording : t'.recording = setEntry i 0 path invalidId invalidId t.recording)
    (hlive : t'.live = t.live.erase (t.recording.recorderId i))
    (hcloses : ClosesOpen ∅ (ledger t'.acts)) (hrunning : t'.running = true) :
    Conserved t' where
  flag j := by
    rw [hrecording, setEntry_isRecording]
    split
    · exact Or.inl rfl
    · exact h.flag j
  recorded j := by
    rw [hrecording, setEntry_isRecording, setEntry_recorderId, setEntry_recorderSlot]
    split
    · constructor
      · intro hone
        cases hone
      · rintro ⟨hvalid, -⟩
        exact absurd rfl hvalid
    · exact h.recorded j
  idle j := by
    rw [hrecording, setEntry_isRecording, setEntry_recorderId]
    split
    · exact fun _ ↦ rfl
    · exact h.idle j
  live id := by
    have hone := (h.flag i).resolve_left hbusy
    rw [hlive, hrecording, Finset.mem_erase, h.live]
    simp only [setEntry_isRecording, setEntry_recorderId]
    constructor
    · rintro ⟨hne, j, hj, rfl⟩
      have hji : j ≠ i := by
        rintro rfl
        exact hne rfl
      exact ⟨j, by rw [if_neg hji, hj], by rw [if_neg hji]⟩
    · rintro ⟨j, hj, hid⟩
      by_cases hji : j = i
      · rw [if_pos hji] at hj
        cases hj
      · rw [if_neg hji] at hj hid
        refine ⟨?_, j, hj, hid⟩
        rintro rfl
        exact hji (h.once j i hj hone hid)
  once j k hj hk hjk := by
    rw [hrecording, setEntry_isRecording] at hj hk
    rw [hrecording, setEntry_recorderId, setEntry_recorderId] at hjk
    by_cases hji : j = i
    · rw [if_pos hji] at hj
      cases hj
    · by_cases hki : k = i
      · rw [if_pos hki] at hk
        cases hk
      · rw [if_neg hji] at hj hjk
        rw [if_neg hki] at hk hjk
        exact h.once j k hj hk hjk
  closes := hcloses
  stopped hstopped := by
    rw [hrunning] at hstopped
    cases hstopped

/-- Emptied arrays without live recorders. -/
theorem of_empty (hflag : ∀ i, t.recording.isRecording i = 0)
    (hid : ∀ i, t.recording.recorderId i = invalidId) (hlive : t.live = ∅)
    (hcloses : ClosesOpen ∅ (ledger t.acts)) : Conserved t where
  flag i := Or.inl (hflag i)
  recorded i := by simp [hflag, hid]
  idle i _ := hid i
  live id := by simp [hlive, hflag]
  once i j hi := by simp [hflag] at hi
  closes := hcloses
  stopped _ := hlive

end Conserved

section Steps

variable {n : Nat} {t t' : Studio n} {i : StudioInput}

/-- A step is the run of its call, within the session and PJSIP's promise. -/
theorem studioStep_eq (h : studioStep t i = some t') :
    inSession t.running i.op = true ∧ FreshId t.live i.pjsua.recorderCreate ∧
      t'.recording = (i.outcome t).state ∧ t'.acts = t.acts ++ (i.outcome t).trace ∧
      t'.running = decide (i.op ≠ .shutdown) := by
  unfold studioStep at h
  split at h
  · next hguard =>
    cases h
    exact ⟨hguard.1, hguard.2, rfl, rfl, rfl⟩
  · cases h

/-- The live recorders after a step. -/
theorem live_step (h : studioStep t i = some t') :
    t'.live = openAfter t.live (ledger (i.outcome t).trace) := by
  obtain ⟨-, -, -, hacts, -⟩ := studioStep_eq h
  rw [Studio.live, hacts, ledger_append, openAfter_append]
  rfl

/-- A step destroys live recorders only, if its own entries of the ledger do. -/
theorem closes_step (hcloses : ClosesOpen ∅ (ledger t.acts)) (h : studioStep t i = some t')
    (hstep : ClosesOpen t.live (ledger (i.outcome t).trace)) : ClosesOpen ∅ (ledger t'.acts) := by
  obtain ⟨-, -, -, hacts, -⟩ := studioStep_eq h
  rw [hacts, ledger_append, closesOpen_append]
  exact ⟨hcloses, hstep⟩

/-- `pd_init` starts from no live recorder. -/
theorem conserved_init (hop : i.op = .init) (hlive : t.live = ∅)
    (hcloses : ClosesOpen ∅ (ledger t.acts)) (h : studioStep t i = some t') : Conserved t' := by
  obtain ⟨-, -, hrecording, -, -⟩ := studioStep_eq h
  have hout : i.outcome t = ⟨0, ⟨fun _ ↦ 0, fun _ ↦ [], fun _ ↦ invalidId, fun _ ↦ invalidId⟩,
      []⟩ := by
    rw [StudioInput.outcome, hop]
    rfl
  rw [hout] at hrecording
  refine .of_empty (fun j ↦ ?_) (fun j ↦ ?_) ?_ (closes_step hcloses h ?_)
  · rw [hrecording]
  · rw [hrecording]
  · rw [live_step h, hout, hlive]
    rfl
  · rw [hout]
    trivial

/-- A start keeps the account. -/
theorem conserved_start (hc : Conserved t) {callId : Int} {filePath : Option (List UInt8)}
    (hop : i.op = .start callId filePath) (h : studioStep t i = some t') : Conserved t' := by
  obtain ⟨-, hfresh, hrecording, -, hrunning⟩ := studioStep_eq h
  have hlive := live_step h
  have hcloses := closes_step hc.closes h
  rw [hop] at hrunning
  have cases := start_cases (e := i.pjsua) (s := t.recording) callId filePath
  rw [show (pdCallStartRecording callId filePath).run i.pjsua t.recording = i.outcome t by
    rw [StudioInput.outcome, hop, StudioOp.run]] at cases
  generalize i.outcome t = out at *
  obtain ⟨value, recording, trace⟩ := out
  dsimp only at cases hrecording hlive hcloses
  generalize ledger trace = entries at *
  cases cases with
  | refused => exact hc.quiet hrecording hlive (hcloses trivial) hrunning
  | tried hcreate =>
    obtain ⟨-, hnew⟩ := hfresh _ hcreate
    rw [openAfter_tried hnew] at hlive
    exact hc.quiet hrecording hlive (hcloses (closesOpen_tried _ _)) hrunning
  | started hi hidle hcreate hslot =>
    obtain ⟨hvalid, hnew⟩ := hfresh _ hcreate
    exact hc.enter hidle hvalid hnew hslot hrecording hlive (hcloses trivial) hrunning

/-- A stop keeps the account. -/
theorem conserved_stop (hc : Conserved t) {callId : Int} (hop : i.op = .stop callId)
    (h : studioStep t i = some t') : Conserved t' := by
  obtain ⟨-, -, hrecording, -, hrunning⟩ := studioStep_eq h
  have hlive := live_step h
  have hcloses := closes_step hc.closes h
  rw [hop] at hrunning
  have cases := stop_cases (e := i.pjsua) (s := t.recording) callId
  rw [show (pdCallStopRecording callId).run i.pjsua t.recording = i.outcome t by
    rw [StudioInput.outcome, hop, StudioOp.run]] at cases
  generalize i.outcome t = out at *
  obtain ⟨value, recording, trace⟩ := out
  dsimp only at cases hrecording hlive hcloses
  generalize ledger trace = entries at *
  cases cases with
  | refused => exact hc.quiet hrecording hlive (hcloses trivial) hrunning
  | stopped hi hbusy =>
    rw [if_pos (hc.recorderId_ne hbusy)] at hlive hcloses
    refine hc.leave hbusy hrecording hlive (hcloses ⟨?_, trivial⟩) hrunning
    exact (hc.live _).mpr ⟨_, (hc.flag _).resolve_left hbusy, rfl⟩

/-- The recorders that `pd_shutdown` destroys are the live ones, each once. -/
theorem conserved_shutdown (hc : Conserved t) (hop : i.op = .shutdown)
    (h : studioStep t i = some t') : Conserved t' ∧ t'.live = ∅ := by
  obtain ⟨-, -, hrecording, -, -⟩ := studioStep_eq h
  have hlive := live_step h
  have hcloses := closes_step hc.closes h
  let ids := ((List.finRange n).map t.recording.recorderId).filter (· ≠ invalidId)
  have hout : i.outcome t = ⟨i.pjsua.destroy,
      ⟨fun _ ↦ 0, fun _ ↦ [], fun _ ↦ invalidId, fun _ ↦ invalidId⟩,
      ids.map fun id ↦ .recorder (.closed id)⟩ := by
    rw [StudioInput.outcome, hop, StudioOp.run, pdShutdown, Traced.run_bind, Traced.run_get,
      Traced.run_bind, run_destroyAll]
    simp [pdResetRecordingState, ids]
  have busy {j : Fin n} (hid : t.recording.recorderId j ≠ invalidId) :
      t.recording.isRecording j = 1 :=
    (hc.flag j).resolve_left fun hidle ↦ hid (hc.idle j hidle)
  have hmem {id : Int} : id ∈ ids ↔ id ∈ t.live := by
    rw [hc.live, List.mem_filter, List.mem_map]
    constructor
    · rintro ⟨⟨j, -, rfl⟩, hid⟩
      exact ⟨j, busy (of_decide_eq_true hid), rfl⟩
    · rintro ⟨j, hbusy, rfl⟩
      refine ⟨⟨j, List.mem_finRange j, rfl⟩, decide_eq_true ?_⟩
      exact ((hc.recorded j).mp hbusy).1
  have hnodup : ids.Nodup := by
    rw [show ids = ((List.finRange n).filter fun j ↦ t.recording.recorderId j ≠ invalidId).map
      t.recording.recorderId from List.filter_map]
    refine List.Nodup.map_on ?_ ((List.nodup_finRange n).filter _)
    intro j hj k hk hjk
    have hj' := (List.mem_filter.mp hj).2
    have hk' := (List.mem_filter.mp hk).2
    exact hc.once j k (busy (of_decide_eq_true hj')) (busy (of_decide_eq_true hk')) hjk
  have hempty : t'.live = ∅ := by
    rw [hlive, hout, ledger_closeAll, openAfter_closeAll, Finset.sdiff_eq_empty_iff_subset]
    intro id hid
    rw [List.mem_toFinset]
    exact hmem.mpr hid
  refine ⟨.of_empty (fun j ↦ ?_) (fun j ↦ ?_) hempty (hcloses ?_), hempty⟩
  · rw [hrecording, hout]
  · rw [hrecording, hout]
  · rw [hout, ledger_closeAll]
    exact closesOpen_closeAll hnodup fun id hid ↦ hmem.mp hid

/-- The step lemma. -/
theorem conserved_step (hc : Conserved t) (h : studioStep t i = some t') : Conserved t' := by
  cases hop : i.op with
  | init =>
    have hsession := (studioStep_eq h).1
    rw [hop] at hsession
    have hstopped : t.running = false := by simpa [inSession] using hsession
    exact conserved_init hop (hc.stopped hstopped) hc.closes h
  | start callId filePath => exact conserved_start hc hop h
  | stop callId => exact conserved_stop hc hop h
  | shutdown => exact (conserved_shutdown hc hop h).1

/-- A start that fails leaves the arrays and the live recorders as they were. -/
theorem unchanged_of_failed {callId : Int} {filePath : Option (List UInt8)}
    (hop : i.op = .start callId filePath) (h : studioStep t i = some t')
    (hfailed : (i.outcome t).value ≠ 0) : t'.recording = t.recording ∧ t'.live = t.live := by
  obtain ⟨-, hfresh, hrecording, -, -⟩ := studioStep_eq h
  have hlive := live_step h
  have cases := start_cases (e := i.pjsua) (s := t.recording) callId filePath
  rw [show (pdCallStartRecording callId filePath).run i.pjsua t.recording = i.outcome t by
    rw [StudioInput.outcome, hop, StudioOp.run]] at cases
  generalize i.outcome t = out at *
  obtain ⟨value, recording, trace⟩ := out
  dsimp only at cases hrecording hlive hfailed
  generalize ledger trace = entries at *
  cases cases with
  | refused => exact ⟨hrecording, hlive⟩
  | tried hcreate =>
    obtain ⟨-, hnew⟩ := hfresh _ hcreate
    rw [openAfter_tried hnew] at hlive
    exact ⟨hrecording, hlive⟩
  | started => exact absurd rfl hfailed

end Steps

/-- The account after every call of every sequence of sessions. -/
theorem conserved_of_sessions {n : Nat} {i : StudioInput} {is : List StudioInput} {t : Studio n}
    (run : (i :: is).foldlM studioStep (Studio.initial n) = some t) : Conserved t := by
  rw [List.foldlM_cons] at run
  obtain ⟨u, hu, run⟩ := Option.bind_eq_some_iff.mp run
  have hinit : i.op = .init := by
    have hsession := (studioStep_eq hu).1
    cases hop : i.op with
    | init => rfl
    | start | stop | shutdown =>
      rw [hop] at hsession
      cases hsession
  exact (Path.of_foldlM run).invariant
    (conserved_init (t := .initial n) hinit rfl trivial hu) fun _ _ _ hc _ h ↦ conserved_step hc h

/-- After every call of every sequence of sessions, the live recorders are those of the entries
that record, each held once, an entry records just if its recorder and slot are valid, and no
recorder was destroyed twice; a start that fails next leaves the arrays and the live recorders
as they are, and between two sessions no recorder is alive. -/
theorem recorder_conservation {n : Nat} {i : StudioInput} {is : List StudioInput} {t : Studio n}
    (run : (i :: is).foldlM studioStep (Studio.initial n) = some t) :
    Conserved t ∧ (t.running = false → t.live = ∅) ∧
      ∀ j callId filePath t', j.op = .start callId filePath → studioStep t j = some t' →
        (j.outcome t).value ≠ 0 → t'.recording = t.recording ∧ t'.live = t.live := by
  have conserved := conserved_of_sessions run
  exact ⟨conserved, conserved.stopped, fun j _ _ _ hop h hfailed ↦
    unchanged_of_failed hop h hfailed⟩

/-- Everything succeeds; the next recorder is number 0. -/
def quietPjsua : Pjsua where
  callGetInfo _ := true
  callConfPort _ := 1
  recorderCreate := some 0
  recorderConfPort _ := 2
  connectCall := true
  connectMic := true
  destroy := 0

/-- The first session, up to a recording of the call 0 that was started. -/
def firstTake : List StudioInput := [⟨.init, quietPjsua⟩, ⟨.start 0 (some [97]), quietPjsua⟩]

/-- A recording of the first of eight calls, as an instance. -/
theorem recorder_conservation_first :
    ∃ t : Studio 8, firstTake.foldlM studioStep (.initial 8) = some t ∧ Conserved t ∧
      t.recording.isRecording 0 = 1 ∧ 0 ∈ t.live := by
  have h : (firstTake.foldlM studioStep (Studio.initial 8)).map (fun t ↦
      (t.recording.isRecording 0, t.recording.recorderId 0)) = some (1, 0) := by decide
  obtain ⟨t, run, ht⟩ := Option.map_eq_some_iff.mp h
  obtain ⟨hbusy, hid⟩ := Prod.mk.inj ht
  have conserved := (recorder_conservation run).1
  exact ⟨t, run, conserved, hbusy, (conserved.live 0).mpr ⟨0, hbusy, hid⟩⟩

end PacketDial.Shim
