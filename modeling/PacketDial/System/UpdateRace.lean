import PacketDial.System.CallStrands
import PacketDial.System.Edits

/-!
# Mute and hold commands next to each other

Any number of `CallMute` and `CallHold` commands for one call: each writes the record under the
`CALLS` lock and makes its native call without it, so the native calls can come in another order
than the records were written.
-/

namespace PacketDial.System

open PacketDial.Core PacketDial.Lib

/-- What a command switches. -/
inductive Toggle where
  | mute
  | hold
  deriving DecidableEq

/-- The field of the record. -/
def Toggle.recorded : Toggle → Call → Bool
  | .mute, call => call.muted
  | .hold, call => call.onHold

/-- The native operation. -/
def Toggle.op : Toggle → Int → Bool → ShimCall
  | .mute, pjCallId, value => .pdCallSetMute pjCallId value
  | .hold, pjCallId, value => .pdCallHold pjCallId value

/-- `CallMute` or `CallHold` with its payload. -/
structure Update where
  toggle : Toggle
  payload : Json

/-- The value that a command carries, `true` without one. -/
def Update.value (u : Update) : Bool :=
  match u.toggle with
  | .mute => (u.payload.get "muted").asBool.getD true
  | .hold => (u.payload.get "hold").asBool.getD true

/-- The steps of a command. -/
def Update.strand (u : Update) : CallStrand EngineErrorCode :=
  match u.toggle with
  | .mute => callMuteStrand u.payload
  | .hold => callHoldStrand u.payload

/-- The record that a command writes. -/
def Update.record (u : Update) (call : Call) : Eng Call :=
  match u.toggle with
  | .mute => return { call with muted := u.value }
  | .hold => holdRecord u.value call

/-- The same, at the time of its first clock reading. -/
def Update.written (u : Update) (now : Nat) (call : Call) : Call :=
  match u.toggle with
  | .mute => { call with muted := u.value }
  | .hold => heldRecord u.value now call

/-- The value of a native operation on a PJSIP call. -/
def nativeValue (toggle : Toggle) (pjCallId : Int) : CallAct → Option Bool
  | .op (.pdCallSetMute pjId value) => if toggle = .mute ∧ pjId = pjCallId then some value else none
  | .op (.pdCallHold pjId value) => if toggle = .hold ∧ pjId = pjCallId then some value else none
  | _ => none

/-- The command is for the call `id`: it names it, or names none while no other call is live. -/
def Update.For (u : Update) (id : UInt32) (T : CallTables) : Prop :=
  callIdField u.payload = some id ∨
    (callIdField u.payload = none ∧
      ∀ id' call, T.calls.lookup id' = some call → (call.isLive = true ↔ id' = id))

/-- Commands, and the engine they run on. -/
abbrev UpdatePool (ι : Type) := Pool ι Env Engine Action CallMark

/-- Commands that run next to each other. -/
def updateRace {ι : Type} (s : Engine) (commands : ι → Update) : UpdatePool ι where
  state := s
  strands i := discard (commands i).strand
  log := []
  trace := []

section Race

variable {ι : Type} {commands : ι → Update} {toggle : Toggle} {id : UInt32} {pjCallId : Int}

/-- The value of the command that left a mark. -/
def markValue (commands : ι → Update) (toggle : Toggle) (mark : CallMark) (x : ι × CallMark) :
    Option Bool :=
  if x.2 = mark ∧ (commands x.1).toggle = toggle then some (commands x.1).value else none

/-- The last native operations on the call carry the values that are recorded. -/
def RecordsAgree (id : UInt32) (pjCallId : Int) (c : UpdatePool ι) : Prop :=
  ∀ toggle value, latest (nativeValue toggle pjCallId) (callTrace c.trace) = some value →
    (c.state.calls.lookup id).map toggle.recorded = some value

/-- Of the mute commands, the one that made its native call last carries the same value as the one
that wrote the record last, and so do the hold commands. -/
def LastAgree (commands : ι → Update) (log : List (ι × CallMark)) : Prop :=
  ∀ toggle, latest (markValue commands toggle .applied) log =
    latest (markValue commands toggle .updated) log

/-- No command makes its native call after that of a command of its kind that wrote the record
after it. -/
def InOrder (commands : ι → Update) (log : List (ι × CallMark)) : Prop :=
  ∀ i j, (commands i).toggle = (commands j).toggle →
    Before (i, .updated) (j, .updated) log → ¬ Before (j, .applied) (i, .applied) log

/-- How far a command has come. -/
inductive UpdateStage (u : Update) (i : ι) (pjCallId : Int) (log : List (ι × CallMark)) :
    CallStrand Unit → Prop
  /-- It has not written the record. -/
  | starts (hupdated : (i, .updated) ∉ log) (happlied : (i, .applied) ∉ log) :
      UpdateStage u i pjCallId log (discard u.strand)
  /-- It has written the record and makes its native call next. -/
  | applies (hupdated : (i, .updated) ∈ log) (happlied : (i, .applied) ∉ log) :
      UpdateStage u i pjCallId log
        (discard (applyStrand (u.toggle.op · u.value) (some (some pjCallId))))
  /-- It has made its native call. -/
  | returned (hupdated : (i, .updated) ∈ log) (happlied : (i, .applied) ∈ log) :
      UpdateStage u i pjCallId log (.done ())

/-- The commands have written the records and made the native calls that the log says. -/
structure Updating (commands : ι → Update) (id : UInt32) (pjCallId : Int) (c : UpdatePool ι) :
    Prop where
  keyed : (tables c.state).Keyed
  record : ∃ call, c.state.calls.lookup id = some call ∧ call.pjsipCallId = some pjCallId ∧
    ∀ toggle value, latest (markValue commands toggle .updated) c.log = some value →
      toggle.recorded call = value
  native : ∀ toggle, latest (nativeValue toggle pjCallId) (callTrace c.trace) =
    latest (markValue commands toggle .applied) c.log
  aimed : ∀ i, (commands i).For id (tables c.state)
  stage : ∀ i, UpdateStage (commands i) i pjCallId c.log (c.strands i)

section Logs

variable {i : ι} {mark : CallMark} {log : List (ι × CallMark)}

/-- The value of a mark of a command of that kind. -/
theorem markValue_self (h : (commands i).toggle = toggle) :
    markValue commands toggle mark (i, mark) = some (commands i).value := if_pos ⟨rfl, h⟩

/-- A mark of another kind, or of another step, has no value. -/
theorem markValue_eq_none {mark' : CallMark} (h : mark' = mark → (commands i).toggle ≠ toggle) :
    markValue commands toggle mark (i, mark') = none := if_neg fun hmark ↦ h hmark.1 hmark.2

/-- What a mark with a value says. -/
theorem markValue_eq_some {x : ι × CallMark} {value : Bool}
    (h : markValue commands toggle mark x = some value) :
    x = (x.1, mark) ∧ (commands x.1).toggle = toggle ∧ (commands x.1).value = value := by
  unfold markValue at h
  split at h
  · next hmark => exact ⟨Prod.ext rfl hmark.1, hmark.2, Option.some.inj h⟩
  · cases h

/-- A kind has a last value once a command of it left the mark. -/
theorem exists_latest_of_mem (htoggle : (commands i).toggle = toggle) (h : (i, mark) ∈ log) :
    ∃ value, latest (markValue commands toggle mark) log = some value := by
  rw [← Option.ne_none_iff_exists']
  intro hnone
  have hvalue := latest_eq_none.mp hnone _ h
  rw [markValue_self htoggle] at hvalue
  cases hvalue

/-- Native calls in the order of the records end with the value recorded last. -/
theorem InOrder.lastAgree (h : InOrder commands log)
    (hall : ∀ i, (i, CallMark.updated) ∈ log ↔ (i, CallMark.applied) ∈ log) :
    LastAgree commands log := by
  intro toggle
  cases hupdated : latest (markValue commands toggle .updated) log with
  | none =>
    rw [latest_eq_none]
    intro x hx
    by_contra hsome
    obtain ⟨value, hvalue⟩ := Option.ne_none_iff_exists'.mp hsome
    obtain ⟨hmark, htoggle, -⟩ := markValue_eq_some hvalue
    rw [hmark, ← hall] at hx
    obtain ⟨_, hlast⟩ := exists_latest_of_mem htoggle hx
    rw [hupdated] at hlast
    cases hlast
  | some value =>
    obtain ⟨l, ⟨i, _⟩, l', hl, hi, hl'⟩ := exists_of_latest hupdated
    obtain ⟨hmark, htoggle, hvalue⟩ := markValue_eq_some hi
    cases hmark
    have happlied : (i, CallMark.applied) ∈ log := (hall i).mp (by simp [hl])
    obtain ⟨last, hlast⟩ := exists_latest_of_mem htoggle happlied
    obtain ⟨r, ⟨j, _⟩, r', hr, hj, hr'⟩ := exists_of_latest hlast
    obtain ⟨hmark, htoggle', hvalue'⟩ := markValue_eq_some hj
    cases hmark
    by_cases hij : i = j
    · rw [hlast, ← hvalue, ← hvalue', hij]
    -- Otherwise `j` wrote the record before `i` and made its native call after it.
    have hij' : (j, CallMark.updated) ≠ (i, .updated) := fun h ↦ hij (Prod.mk.inj h).1.symm
    have hji' : (i, CallMark.applied) ≠ (j, .applied) := fun h ↦ hij (Prod.mk.inj h).1
    have hrecord : Before (j, CallMark.updated) (i, .updated) log := by
      have hmem : (j, CallMark.updated) ∈ log := (hall j).mpr (by simp [hr])
      rw [hl] at hmem ⊢
      refine before_of_mem hmem hij' fun hlater ↦ ?_
      have hnone := hl' _ hlater
      rw [markValue_self htoggle'] at hnone
      cases hnone
    have hcall : Before (i, CallMark.applied) (j, .applied) log := by
      rw [hr] at happlied ⊢
      refine before_of_mem happlied hji' fun hlater ↦ ?_
      have hnone := hr' _ hlater
      rw [markValue_self htoggle] at hnone
      cases hnone
    exact absurd hcall (h j i (htoggle'.trans htoggle.symm) hrecord)

end Logs

section Steps

variable {u : Update} {e : Env} {s : Engine} {old : Call} {c c' : UpdatePool ι} {m : ι × Env}

/-- Both commands have the same shape. -/
theorem Update.strand_eq (u : Update) :
    u.strand = updateStrand u.payload u.record (u.toggle.op · u.value) := by
  obtain ⟨toggle, payload⟩ := u
  cases toggle with
  | mute => rfl
  | hold => rfl

/-- Making the new record changes nothing else. -/
theorem Update.tame_record (u : Update) (call : Call) :
    Traced.Admits (Tame [.calls]) (u.record call) := by
  obtain ⟨toggle, payload⟩ := u
  cases toggle with
  | mute => exact tame_pure _
  | hold => exact tame_holdRecord _ _

/-- The new record. -/
theorem Update.record_value (u : Update) (call : Call) (e : Env) (s : Engine) :
    ((u.record call).run e s).value = u.written (secsAt e s) call := by
  obtain ⟨toggle, payload⟩ := u
  cases toggle with
  | mute => rfl
  | hold => exact holdRecord_value _ _

/-- A command writes its value. -/
theorem Update.recorded_written (u : Update) (now : Nat) (call : Call) :
    u.toggle.recorded (u.written now call) = u.value := by
  obtain ⟨toggle, payload⟩ := u
  cases toggle with
  | mute => rfl
  | hold => exact heldRecord_onHold _ _ _

/-- A command of one kind leaves the field of the other. -/
theorem Update.recorded_other {u : Update} (h : u.toggle ≠ toggle) (now : Nat) (call : Call) :
    toggle.recorded (u.written now call) = toggle.recorded call := by
  obtain ⟨_ | _, payload⟩ := u
  · cases toggle with
    | mute => exact absurd rfl h
    | hold => rfl
  · cases toggle with
    | mute => exact heldRecord_muted _ _ _
    | hold => exact absurd rfl h

/-- A command keeps both ids. -/
theorem Update.written_ids (u : Update) (now : Nat) (call : Call) :
    (u.written now call).id = call.id ∧
      (u.written now call).pjsipCallId = call.pjsipCallId := by
  obtain ⟨toggle, payload⟩ := u
  cases toggle with
  | mute => exact ⟨rfl, rfl⟩
  | hold => exact ⟨heldRecord_id _ _ _, heldRecord_pjsipCallId _ _ _⟩

/-- A command leaves a live call live. -/
theorem Update.written_isLive (u : Update) (now : Nat) {call : Call} (h : call.isLive = true) :
    (u.written now call).isLive = true := by
  obtain ⟨toggle, payload⟩ := u
  cases toggle with
  | mute => exact h
  | hold =>
    unfold Call.isLive Update.written
    rw [heldRecord_state]
    split <;> rfl

/-- The native operation of a command. -/
theorem Update.nativeValue_op (u : Update) :
    nativeValue toggle pjCallId (.op (u.toggle.op pjCallId u.value)) =
      if u.toggle = toggle then some u.value else none := by
  obtain ⟨_ | _, payload⟩ := u
  · cases toggle with
    | mute => exact if_pos ⟨rfl, rfl⟩
    | hold => rfl
  · cases toggle with
    | mute => rfl
    | hold => exact if_pos ⟨rfl, rfl⟩

/-- Both are operations on calls. -/
theorem Toggle.isCallOp_op (toggle : Toggle) (value : Bool) :
    isCallOp (toggle.op pjCallId value) = true := by
  cases toggle with
  | mute => rfl
  | hold => rfl

/-- A command for a call resolves to it. -/
theorem Update.For.target (h : u.For id (tables s)) (hk : (tables s).Keyed)
    (hl : s.calls.lookup id = some old) (e : Env) :
    ((callIdField u.payload).or ((tables s).firstId e (·.isLive))).getD 0 = id := by
  rcases h with h | ⟨h, hlive⟩
  · rw [h]
    rfl
  · have hold : old ∈ (tables s).values e := CallTables.mem_values.mpr ⟨id, hl⟩
    have hfound : ((tables s).values e).find? (·.isLive) ≠ none := by
      intro hnone
      exact List.find?_eq_none.mp hnone old hold ((hlive id old hl).mpr rfl)
    obtain ⟨first, hfirst⟩ := Option.ne_none_iff_exists'.mp hfound
    have hid : (tables s).firstId e (·.isLive) = some first.id := by
      unfold CallTables.firstId
      rw [hfirst]
      rfl
    obtain ⟨call, hcall, hcallLive⟩ := hk.firstId_eq_some hid
    rw [h, hid]
    exact (hlive first.id call hcall).mp hcallLive

/-- A command for a call stays one for it when its record is written. -/
theorem Update.For.setCall {v : Update} {T : CallTables} (h : v.For id T)
    (hl : T.calls.lookup id = some old) (now : Nat) :
    v.For id (T.setCall id (u.written now old)) := by
  rcases h with h | ⟨h, hlive⟩
  · exact Or.inl h
  · refine Or.inr ⟨h, fun id' call hcall ↦ ?_⟩
    by_cases hid : id' = id
    · subst hid
      rw [lookup_setCall] at hcall
      cases hcall
      exact iff_of_true (u.written_isLive now ((hlive id' old hl).mpr rfl)) rfl
    · rw [lookup_setCall_ne _ hid] at hcall
      exact hlive id' call hcall

/-- The critical section of a command for a call: its record is written and reported. -/
theorem yields_updateSection (hfor : u.For id (tables s)) (hk : (tables s).Keyed)
    (hl : s.calls.lookup id = some old) :
    callView.Yields (updateSection u.payload u.record) e s fun found acts T ↦
      found = some old.pjsipCallId ∧ (∃ payload, acts = [.changed payload]) ∧
        T = (tables s).setCall id (u.written (secsAt e s) old) := by
  have hid : ((callIdField u.payload).or ((tables s).firstId e (·.isLive))).getD 0 = id :=
    hfor.target hk hl e
  unfold updateSection
  refine yields_withLock (targetOrLive_bind (View.yields_get_bind ?_))
  rw [hid]
  split
  · next hnone =>
    rw [hl] at hnone
    cases hnone
  · next found hfound =>
    rw [hl] at hfound
    cases hfound
    refine yields_read_bind (u.tame_record old) (P := fun call ↦ call = u.written (secsAt e s) old)
      (u.record_value old e s) ?_
    rintro call s₁ rfl hs
    refine yields_insertCall_bind fun s₂ hs₂ ↦ ?_
    refine yields_pushCallState_bind fun report s₃ hr hs₃ ↦ View.yields_pure ?_
    obtain ⟨_, _, _, rfl⟩ := hr
    refine ⟨congrArg some (u.written_ids _ old).2, ⟨_, rfl⟩, ?_⟩
    exact hs₃.trans (hs₂.trans (by rw [hs]))

end Steps

section Runs

variable [DecidableEq ι] {e : Env} {s : Engine} {call : Call} {c c' : UpdatePool ι} {m : ι × Env}

omit [DecidableEq ι] in
/-- The mark of one command is no mark of another. -/
theorem UpdateStage.other {u : Update} {i k : ι} {log : List (ι × CallMark)} {mark : CallMark}
    {strand : CallStrand Unit} (h : UpdateStage u i pjCallId log strand) (hik : i ≠ k) :
    UpdateStage u i pjCallId (log ++ [(k, mark)]) strand := by
  have hiff (mark' : CallMark) : (i, mark') ∈ log ++ [(k, mark)] ↔ (i, mark') ∈ log := by
    simp [hik]
  cases h with
  | starts hupdated happlied =>
    exact .starts (mt (hiff _).mp hupdated) (mt (hiff _).mp happlied)
  | applies hupdated happlied =>
    exact .applies ((hiff _).mpr hupdated) (mt (hiff _).mp happlied)
  | returned hupdated happlied =>
    exact .returned ((hiff _).mpr hupdated) ((hiff _).mpr happlied)

/-- The step that writes the record. -/
theorem updating_writes (h : Updating commands id pjCallId c)
    (hstrand : c.strands m.1 = discard (commands m.1).strand)
    (hmark : (m.1, CallMark.applied) ∉ c.log) (hs : c.step m = some c') :
    Updating commands id pjCallId c' := by
  obtain ⟨old, hl, hpj, hrecorded⟩ := h.record
  obtain ⟨hvalue, ⟨payload, htrace⟩, hT⟩ :=
    yields_updateSection (e := m.2) (h.aimed m.1) h.keyed hl
  rw [Update.strand_eq] at hstrand
  have hc' := Pool.step_eq (m := m) hstrand hs
  rw [hvalue, hpj] at hc'
  have hlog : c'.log = c.log ++ [(m.1, .updated)] := by rw [hc']; rfl
  have hstate : tables c'.state = (tables c.state).setCall id
      ((commands m.1).written (secsAt m.2 c.state) old) := by rw [hc']; exact hT
  have hacts : callTrace c'.trace = callTrace c.trace ++ [.changed payload] := by
    rw [hc', Pool.advance_trace]
    exact (View.trace_append _ _ _).trans (congrArg (_ ++ ·) htrace)
  refine ⟨?_, ⟨(commands m.1).written (secsAt m.2 c.state) old, ?_, ?_, ?_⟩, ?_, ?_, ?_⟩
  · rw [hstate]
    exact h.keyed.setCall hl ((commands m.1).written_ids _ old).1
  · exact (congrArg (fun T : CallTables ↦ T.calls.lookup id) hstate).trans (lookup_setCall _ _ _)
  · rw [((commands m.1).written_ids _ old).2, hpj]
  · intro toggle value hlast
    rw [hlog, latest_concat] at hlast
    by_cases htoggle : (commands m.1).toggle = toggle
    · rw [markValue_self htoggle, Option.some_or] at hlast
      rw [← Option.some.inj hlast, ← htoggle, Update.recorded_written]
    · rw [markValue_eq_none fun _ ↦ htoggle, Option.none_or] at hlast
      rw [Update.recorded_other htoggle]
      exact hrecorded toggle value hlast
  · intro toggle
    rw [hacts, hlog, latest_concat, latest_concat, markValue_eq_none fun h ↦ by cases h]
    exact h.native toggle
  · intro i
    rw [hstate]
    exact (h.aimed i).setCall hl _
  · intro i
    by_cases hi : i = m.1
    · subst hi
      rw [hlog, hc', Pool.advance_self]
      exact .applies (by simp) (by simpa using hmark)
    · rw [hlog, Pool.step_other hs hi]
      exact (h.stage i).other hi

/-- The step that makes the native call. -/
theorem updating_applies (h : Updating commands id pjCallId c)
    (hstrand : c.strands m.1 = discard (applyStrand
      ((commands m.1).toggle.op · (commands m.1).value) (some (some pjCallId))))
    (hmark : (m.1, CallMark.updated) ∈ c.log) (hs : c.step m = some c') :
    Updating commands id pjCallId c' := by
  have hc' := Pool.step_eq (m := m) hstrand hs
  have hlog : c'.log = c.log ++ [(m.1, .applied)] := by rw [hc']; rfl
  have hstate : c'.state = c.state := by rw [hc']; rfl
  have hacts : callTrace c'.trace = callTrace c.trace ++
      [.op ((commands m.1).toggle.op pjCallId (commands m.1).value)] := by
    rw [hc', Pool.advance_trace]
    refine (View.trace_append _ _ _).trans (congrArg (_ ++ ·) ?_)
    exact yields_discard_shim (S := fun _ acts _ ↦ acts = [.op _])
      ((commands m.1).toggle.isCallOp_op _) rfl
  obtain ⟨old, hl, hpj, hrecorded⟩ := h.record
  refine ⟨?_, ⟨old, ?_, hpj, ?_⟩, ?_, ?_, ?_⟩
  · rw [hstate]
    exact h.keyed
  · rw [hstate]
    exact hl
  · intro toggle value hlast
    rw [hlog, latest_concat, markValue_eq_none (fun h ↦ by cases h), Option.none_or] at hlast
    exact hrecorded toggle value hlast
  · intro toggle
    rw [hacts, hlog, latest_concat, latest_concat, Update.nativeValue_op, h.native toggle]
    by_cases htoggle : (commands m.1).toggle = toggle
    · rw [if_pos htoggle, markValue_self htoggle]
    · rw [if_neg htoggle, markValue_eq_none fun _ ↦ htoggle]
  · intro i
    rw [hstate]
    exact h.aimed i
  · intro i
    by_cases hi : i = m.1
    · subst hi
      rw [hlog, hc', Pool.advance_self]
      exact .returned (by simpa using hmark) (by simp)
    · rw [hlog, Pool.step_other hs hi]
      exact (h.stage i).other hi

/-- The step lemma. -/
theorem updating_step (h : Updating commands id pjCallId c) (hs : c.step m = some c') :
    Updating commands id pjCallId c' := by
  have hstage := h.stage m.1
  generalize hu : c.strands m.1 = strand at hstage
  cases hstage with
  | starts _ hmark => exact updating_writes h hu hmark hs
  | applies hmark _ => exact updating_applies h hu hmark hs
  | returned =>
    have hnone : c.step m = none := Pool.step_done hu
    rw [hnone] at hs
    cases hs

/-- The run lemma. -/
theorem updating_run {ms : List (ι × Env)} (hk : (tables s).Keyed)
    (hl : s.calls.lookup id = some call) (hpj : call.pjsipCallId = some pjCallId)
    (hfor : ∀ i, (commands i).For id (tables s))
    (run : ms.foldlM Pool.step (updateRace s commands) = some c) :
    Updating commands id pjCallId c := by
  have initial : Updating commands id pjCallId (updateRace s commands) := by
    refine ⟨hk, ⟨call, hl, hpj, ?_⟩, fun _ ↦ rfl, hfor, fun i ↦ ?_⟩
    · intro _ _ hlast
      cases hlast
    · exact .starts List.not_mem_nil List.not_mem_nil
  exact (Path.of_foldlM run).invariant initial fun _ _ _ h _ hs ↦ updating_step h hs

omit [DecidableEq ι] in
/-- When all commands have returned, each has left both marks. -/
theorem Updating.all_marked (h : Updating commands id pjCallId c) (hdone : c.Finished) (i : ι) :
    (i, CallMark.updated) ∈ c.log ∧ (i, CallMark.applied) ∈ c.log := by
  have hstage := h.stage i
  rw [Strand.eq_done (hdone i)] at hstage
  generalize hu : Strand.done () = u at hstage
  cases hstage with
  | starts =>
    rw [Update.strand_eq] at hu
    cases hu
  | applies => cases hu
  | returned hupdated happlied => exact ⟨hupdated, happlied⟩

/-- Once all commands for a call have returned, the last native mute and hold operations carry the
recorded values if and only if, of each kind, the command that made its native call last carries
the same value as the one that wrote the record last. -/
theorem records_agree_iff {is : List Input} {ms : List (ι × Env)}
    (start : is.foldlM engineStep Engine.initial = some s)
    (hl : s.calls.lookup id = some call) (hpj : call.pjsipCallId = some pjCallId)
    (hfor : ∀ i, (commands i).For id (tables s))
    (run : ms.foldlM Pool.step (updateRace s commands) = some c) (hdone : c.Finished) :
    RecordsAgree id pjCallId c ↔ LastAgree commands c.log := by
  have final := updating_run (keyed_run start) hl hpj hfor run
  have hmarked := final.all_marked hdone
  obtain ⟨new, hnew, -, hrecorded⟩ := final.record
  have hfield (toggle : Toggle) : (c.state.calls.lookup id).map toggle.recorded =
      some (toggle.recorded new) := by rw [hnew, Option.map_some]
  constructor
  · intro hagree toggle
    have hvalue := hagree toggle
    rw [final.native toggle, hfield] at hvalue
    cases happlied : latest (markValue commands toggle .applied) c.log with
    | none =>
      symm
      rw [latest_eq_none]
      intro x _
      by_contra hsome
      obtain ⟨value, hx⟩ := Option.ne_none_iff_exists'.mp hsome
      obtain ⟨-, htoggle, -⟩ := markValue_eq_some hx
      obtain ⟨_, hlast⟩ := exists_latest_of_mem htoggle (hmarked x.1).2
      rw [happlied] at hlast
      cases hlast
    | some value =>
      obtain ⟨-, x, -, -, hx, -⟩ := exists_of_latest happlied
      obtain ⟨-, htoggle, -⟩ := markValue_eq_some hx
      obtain ⟨value', hlast⟩ := exists_latest_of_mem htoggle (hmarked x.1).1
      rw [hlast, ← hvalue value happlied, hrecorded toggle value' hlast]
  · intro hlast toggle value hvalue
    rw [final.native toggle, hlast toggle] at hvalue
    rw [hfield, hrecorded toggle value hvalue]

/-- The UI mutes the call 1, under `true`, and an IPC client opens its microphone again. -/
def muteAndUnmute (ui : Bool) : Update :=
  ⟨.mute, .obj [("call_id", .ofU32 1), ("muted", .bool ui)]⟩

/-- The dialled call has the id 1 and the PJSIP id 0. -/
theorem exists_dialled : ∃ s call, (signIn ++ [dial]).foldlM engineStep Engine.initial = some s ∧
    s.calls.lookup 1 = some call ∧ call.pjsipCallId = some 0 := by
  have h : ((signIn ++ [dial]).foldlM engineStep Engine.initial).map (fun s ↦
      (s.calls.lookup 1).map fun call ↦ call.pjsipCallId) = some (some (some 0)) := by decide
  obtain ⟨s, hs, hlook⟩ := Option.map_eq_some_iff.mp h
  obtain ⟨call, hl, hpj⟩ := Option.map_eq_some_iff.mp hlook
  exact ⟨s, call, hs, hl, hpj⟩

/-- Both commands name the call. -/
theorem muteAndUnmute_for (T : CallTables) (ui : Bool) : (muteAndUnmute ui).For 1 T :=
  Or.inl (callIdField_ofU32 1 _)

/-- One command after the other, as an instance. -/
theorem records_agree_iff_inOrder :
    ∃ s c, (signIn ++ [dial]).foldlM engineStep Engine.initial = some s ∧
      ([true, true, false, false].map (·, quietEnv)).foldlM Pool.step
        (updateRace s muteAndUnmute) = some c ∧ RecordsAgree 1 0 c := by
  obtain ⟨s, call, hs, hl, hpj⟩ := exists_dialled
  have h : (((signIn ++ [dial]).foldlM engineStep Engine.initial).bind fun s ↦
      ([true, true, false, false].map (·, quietEnv)).foldlM Pool.step
        (updateRace s muteAndUnmute)).map (fun c ↦ ((c.strands true).isDone,
          (c.strands false).isDone, c.log)) =
      some (true, true, [(true, .updated), (true, .applied), (false, .updated),
        (false, .applied)]) := by decide
  rw [hs] at h
  obtain ⟨c, hc, hv⟩ := Option.map_eq_some_iff.mp h
  simp only [Prod.mk.injEq] at hv
  obtain ⟨htrue, hfalse, hlog⟩ := hv
  have hdone : c.Finished := fun i ↦ by cases i <;> assumption
  have horder : InOrder muteAndUnmute c.log := by
    rw [hlog]
    unfold InOrder Before
    decide
  have hall : ∀ i, (i, CallMark.updated) ∈ c.log ↔ (i, CallMark.applied) ∈ c.log := by
    rw [hlog]
    decide
  exact ⟨s, c, hs, hc, (records_agree_iff hs hl hpj (fun _ ↦ muteAndUnmute_for _ _) hc
    hdone).mpr (horder.lastAgree hall)⟩

/-- The client writes the record and the UI overtakes it: the call is shown muted, and the last
native operation opened its microphone. -/
theorem record_and_call_disagree :
    ∃ s c, (signIn ++ [dial]).foldlM engineStep Engine.initial = some s ∧
      ([false, true, true, false].map (·, quietEnv)).foldlM Pool.step
        (updateRace s muteAndUnmute) = some c ∧ c.Finished ∧ ¬ RecordsAgree 1 0 c := by
  obtain ⟨s, -, hs, -⟩ := exists_dialled
  have h : (((signIn ++ [dial]).foldlM engineStep Engine.initial).bind fun s ↦
      ([false, true, true, false].map (·, quietEnv)).foldlM Pool.step
        (updateRace s muteAndUnmute)).map (fun c ↦ ((c.strands true).isDone,
          (c.strands false).isDone, (c.state.calls.lookup 1).map Toggle.mute.recorded,
            latest (nativeValue .mute 0) (callTrace c.trace))) =
      some (true, true, some true, some false) := by decide
  rw [hs] at h
  obtain ⟨c, hc, hv⟩ := Option.map_eq_some_iff.mp h
  simp only [Prod.mk.injEq] at hv
  obtain ⟨htrue, hfalse, hrecord, hnative⟩ := hv
  refine ⟨s, c, hs, hc, fun i ↦ by cases i <;> assumption, fun hagree ↦ ?_⟩
  have hvalue := hagree .mute false hnative
  rw [hrecord] at hvalue
  cases hvalue

end Runs

end Race

end PacketDial.System
