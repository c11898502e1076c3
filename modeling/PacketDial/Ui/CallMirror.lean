import PacketDial.System.Edits
import PacketDial.Ui.ActiveCalls

/-!
# The call mirror

The app's call list follows the engine's call table: after any run, handling the
`CallStateChanged` events in the order in which they were emitted gives a list with exactly
the calls that have not ended, each as the engine has it. The simulation relation is
`Mirrors`; a report of a record and the write of the record go together in every step.
-/

namespace PacketDial.Ui

open PacketDial.Core PacketDial.Lib PacketDial.System

/-- The app's direction for the engine's. -/
def shownDirection : Core.CallDirection → CallDirection
  | .outgoing => .outgoing
  | .incoming => .incoming

/-- The app's state for the engine's. -/
def shownState : Core.CallState → CallState
  | .ringing => .ringing
  | .inCall => .inCall
  | .onHold => .onHold
  | .ended => .ended

/-- The app shows a record as the engine has it. -/
structure Shows (shown : ActiveCall) (call : Call) : Prop where
  callId : shown.callId = call.id.toNat
  accountId : shown.accountId = call.accountId
  uri : shown.uri = call.uri
  direction : shown.direction = shownDirection call.direction
  state : shown.state = shownState call.state
  muted : shown.muted = call.muted
  onHold : shown.onHold = call.onHold
  accumulatedSeconds : shown.accumulatedSeconds = call.accumulatedActiveSecs
  lastResumedAt : shown.lastResumedAt = call.lastResumedAt.map (fun t ↦ (t : Int) * 1000)

/-- The recording fields are not shown. -/
theorem Shows.same {shown : ActiveCall} {old new : Call} (h : Shows shown old)
    (hsame : SameCall old new) : Shows shown new := by
  rw [hsame]
  exact ⟨h.callId, h.accountId, h.uri, h.direction, h.state, h.muted, h.onHold,
    h.accumulatedSeconds, h.lastResumedAt⟩

section Decode

variable (accountName displayName username : String) (call : Call)

/-- The entry that the app makes of a report, `previous` being the entry it had. -/
def shownCall (now : Int) (previous : Option ActiveCall) (call : Call) : ActiveCall where
  callId := call.id.toNat
  accountId := call.accountId
  uri := call.uri
  direction := shownDirection call.direction
  state := shownState call.state
  muted := call.muted
  onHold := call.onHold
  startedAt := (previous.bind (·.startedAt)).or
    (if shownState call.state = .inCall then some now else none)
  accumulatedSeconds := call.accumulatedActiveSecs
  lastResumedAt := call.lastResumedAt.map fun t ↦ (t : Int) * 1000

/-- That entry shows the record. -/
theorem shows_shownCall (now : Int) (previous : Option ActiveCall) :
    Shows (shownCall now previous call) call :=
  ⟨rfl, rfl, rfl, rfl, rfl, rfl, rfl, rfl, rfl⟩

/-- Handling a report of a record: the call is removed if it has ended, and otherwise entered
as the engine has it. -/
theorem handle_callPayload (now : Int) (activeCalls : ActiveCalls) :
    handleCallStateChanged now (callPayload accountName displayName username call) activeCalls =
      some (if call.state = .ended then activeCalls.erase (call.id.toNat : Int)
        else activeCalls.insert (call.id.toNat : Int)
          (shownCall now (activeCalls.lookup (call.id.toNat : Int)) call)) := by
  -- The texts of the direction, the state and the time are literals in each case.
  rcases call with ⟨_, _, _, direction, state, _, _, _, resumed, _, _, _⟩
  cases direction <;> cases state <;> cases resumed <;> rfl

end Decode

/-- An entry of the app's list against a record of the engine's table. -/
def Entry : Option ActiveCall → Option Call → Prop
  | some shown, some call => call.state ≠ .ended ∧ Shows shown call
  | none, some call => call.state = .ended
  | none, none => True
  | some _, none => False

/-- The simulation relation: the list has exactly the records that have not ended. -/
structure Mirrors (activeCalls : ActiveCalls) (T : CallTables) : Prop where
  entry : ∀ id : UInt32, Entry (activeCalls.lookup (id.toNat : Int)) (T.calls.lookup id)
  keys : ∀ key ∈ activeCalls, ∃ id : UInt32, key = id.toNat

/-- Distinct ids have distinct keys. -/
theorem key_ne {id id' : UInt32} (h : id' ≠ id) : (id'.toNat : Int) ≠ id.toNat := by
  intro heq
  exact h (UInt32.toNat_inj.mp (Int.ofNat_inj.mp heq))

/-- The reports among call actions. -/
def reports (acts : List CallAct) : List Json :=
  acts.filterMap fun
    | .changed payload => some payload
    | .op _ => none

/-- Operations are no reports. -/
@[simp] theorem reports_map_op (ops : List ShimCall) : reports (ops.map .op) = [] := by
  induction ops with
  | nil => rfl
  | cons op ops ih => exact ih

/-- Reports of a concatenation. -/
@[simp] theorem reports_append (acts acts' : List CallAct) :
    reports (acts ++ acts') = reports acts ++ reports acts' := List.filterMap_append

namespace Mirrors

variable {activeCalls : ActiveCalls} {T T' : CallTables}

/-- Nothing mirrors nothing. -/
theorem initial : Mirrors ∅ (tables Engine.initial) where
  entry _ := trivial
  keys _ h := absurd h (AList.notMem_empty _)

/-- Only the records matter. -/
theorem of_calls (h : Mirrors activeCalls T) (hT : T'.calls = T.calls) :
    Mirrors activeCalls T' where
  entry id := by
    rw [hT]
    exact h.entry id
  keys := h.keys

/-- The recording fields are not shown. -/
theorem amend (h : Mirrors activeCalls T) {id : UInt32} {old new : Call}
    (hl : T.calls.lookup id = some old) (hsame : SameCall old new) :
    Mirrors activeCalls (T.setCall id new) where
  entry id' := by
    have hentry := h.entry id'
    by_cases heq : id' = id
    · subst heq
      rw [hl] at hentry
      rw [lookup_setCall]
      cases hshown : activeCalls.lookup (id'.toNat : Int) with
      | none =>
        rw [hshown] at hentry
        exact hsame.state_eq.trans hentry
      | some shown =>
        rw [hshown] at hentry
        obtain ⟨hlive, hshows⟩ := hentry
        refine ⟨?_, hshows.same hsame⟩
        rw [hsame.state_eq]
        exact hlive
    · rw [lookup_setCall_ne _ heq]
      exact hentry
  keys := h.keys

/-- A change by a recording function is not shown. -/
theorem recording (h : Mirrors activeCalls T) {id : UInt32} (hT : RecordingChange id T T') :
    Mirrors activeCalls T' := by
  rcases hT with rfl | ⟨old, new, hl, hsame, rfl⟩
  · exact h
  · exact h.amend hl hsame

/-- Entering or removing the entry of one record, as its state says. -/
theorem setCall (h : Mirrors activeCalls T) {id : UInt32} {call : Call} {shown : ActiveCall}
    (hshows : Shows shown call) :
    Mirrors (if call.state = .ended then activeCalls.erase (id.toNat : Int)
      else activeCalls.insert (id.toNat : Int) shown) (T.setCall id call) := by
  split
  · next hended =>
    constructor
    · intro id'
      by_cases heq : id' = id
      · subst heq
        rw [AList.lookup_erase, lookup_setCall]
        exact hended
      · rw [AList.lookup_erase_ne (key_ne heq), lookup_setCall_ne _ heq]
        exact h.entry id'
    · intro key hkey
      exact h.keys key (AList.mem_erase.mp hkey).2
  · next hlive =>
    constructor
    · intro id'
      by_cases heq : id' = id
      · subst heq
        rw [AList.lookup_insert, lookup_setCall]
        exact ⟨hlive, hshows⟩
      · rw [AList.lookup_insert_ne (key_ne heq), lookup_setCall_ne _ heq]
        exact h.entry id'
    · intro key hkey
      rcases (AList.mem_insert _).mp hkey with rfl | hkey
      · exact ⟨id, rfl⟩
      · exact h.keys key hkey

/-- The step of the simulation: the app handles the report of the record that is written. -/
theorem report (h : Mirrors activeCalls T) {id : UInt32} {call : Call} {act : CallAct}
    (hid : call.id = id) (hr : IsReport call act) (now : Nat → Int) (k : Nat) :
    ∃ next, handleFrom now k (reports [act]) activeCalls = some next ∧
      Mirrors next (T.setCall id call) := by
  obtain ⟨accountName, displayName, username, rfl⟩ := hr
  subst hid
  let previous := activeCalls.lookup (call.id.toNat : Int)
  refine ⟨_, ?_, h.setCall (shows_shownCall call (now k) previous)⟩
  change (handleCallStateChanged (now k) _ activeCalls).bind _ = _
  rw [handle_callPayload]
  rfl

end Mirrors

/-- What a change of the tables owes the app: its reports keep the mirror. -/
def Reported (T : CallTables) (acts : List CallAct) (T' : CallTables) : Prop :=
  ∀ (now : Nat → Int) (k : Nat) (activeCalls : ActiveCalls), Mirrors activeCalls T →
    ∃ next, handleFrom now k (reports acts) activeCalls = some next ∧ Mirrors next T'

section Changes

variable {i : Input} {s : Engine} {acts : List CallAct} {T T' : CallTables}

/-- Operations that leave the records alone owe nothing. -/
theorem reported_of_calls (hacts : reports acts = []) (hT : T'.calls = T.calls) :
    Reported T acts T' := by
  intro now k activeCalls h
  rw [hacts]
  exact ⟨activeCalls, rfl, h.of_calls hT⟩

/-- Changes of the recording fields owe nothing. -/
theorem reported_of_recording (hacts : reports acts = []) {id : UInt32}
    (hT : RecordingChange id T T') : Reported T acts T' := by
  intro now k activeCalls h
  rw [hacts]
  exact ⟨activeCalls, rfl, h.recording hT⟩

/-- A record written and reported, and then at most changes of its recording fields. -/
theorem reported_of_report {id : UInt32} {call : Call} {act : CallAct}
    (hacts : reports acts = reports [act]) (hid : call.id = id) (hr : IsReport call act)
    (hT : RecordingChange id (T.setCall id call) T') : Reported T acts T' := by
  intro now k activeCalls h
  rw [hacts]
  obtain ⟨next, hnext, hmirrors⟩ := h.report hid hr now k
  exact ⟨next, hnext, hmirrors.recording hT⟩

/-- Commands report every record they write. -/
theorem reported_of_command {e : Env} {cmd : String} {p : Json} (hk : T.Keyed)
    (h : CommandChange e cmd p T acts T') : Reported T acts T' := by
  cases h with
  | idle _ => exact reported_of_calls (reports_map_op _) rfl
  | burn _ hacts =>
    refine reported_of_calls ?_ rfl
    rcases hacts with rfl | ⟨_, _, rfl, _⟩ <;> rfl
  | track _ _ hr =>
    intro now k activeCalls h
    obtain ⟨next, hnext, hmirrors⟩ := h.report rfl hr now k
    exact ⟨next, hnext, hmirrors.of_calls rfl⟩
  | mute _ _ hl hr =>
    refine reported_of_report ?_ ?_ hr (Or.inl rfl)
    · rw [← List.singleton_append, reports_append, reports_map_op, List.append_nil]
    · exact (hk _ _ hl :)
  | hold _ _ hl hr =>
    refine reported_of_report ?_ ?_ hr (Or.inl rfl)
    · rw [← List.singleton_append, reports_append, reports_map_op, List.append_nil]
    · rw [heldRecord_id]
      exact hk _ _ hl
  | record _ _ hl hsame =>
    exact reported_of_recording (reports_map_op _) (Or.inr ⟨_, _, hl, hsame, rfl⟩)

/-- A state callback reports the record it writes. -/
theorem reported_of_state {e : Env} {pjCallId : Int} {newState : Core.CallState} (hk : T.Keyed)
    (h : StateChange e pjCallId newState T acts T') : Reported T acts T' := by
  cases h with
  | unrouted => exact reported_of_calls rfl (CallTables.unmap_calls _ _ _)
  | @routed id old now report acts _ _ hl hr hstop _ =>
    obtain ⟨⟨ops, rfl, -⟩, hT⟩ := hstop
    have hacts : reports (report :: ops.map .op) = reports [report] := by
      rw [← List.singleton_append, reports_append, reports_map_op, List.append_nil]
    have hid : (stateRecord newState now old).id = id := by
      rw [stateRecord_id]
      exact hk _ _ hl
    have hreported := reported_of_report (T := T.unmap pjCallId newState) hacts hid hr hT
    intro m k activeCalls hmirrors
    exact hreported m k activeCalls (hmirrors.of_calls (CallTables.unmap_calls _ _ _))

/-- A media callback reports the record it writes. -/
theorem reported_of_media {pjCallId active : Int} (hk : T.Keyed)
    (h : MediaChange pjCallId active T acts T') : Reported T acts T' := by
  cases h with
  | unrouted => exact reported_of_calls rfl rfl
  | routed _ hl hr =>
    refine reported_of_report ?_ ?_ hr (Or.inl rfl)
    · rw [reports_append, reports_map_op, List.nil_append]
    · rw [mediaRecord_id]
      exact hk _ _ hl

/-- Every step reports every record it writes. -/
theorem reported_of_change (hk : (tables s).Keyed) (h : Change i s acts T) :
    Reported (tables s) acts T := by
  have entered (call : Call) (pjCallId : Int) {report : CallAct} (hr : IsReport call report)
      (hacts : reports acts = reports [report]) :
      Reported (tables s) acts ((tables s).track call pjCallId) := by
    intro now k activeCalls h
    rw [hacts]
    obtain ⟨next, hnext, hmirrors⟩ := h.report rfl hr now k
    exact ⟨next, hnext, hmirrors.of_calls rfl⟩
  cases h with
  | quiet | transfer | consultFailed | completeXfer | merge | shutdown =>
    exact reported_of_calls rfl rfl
  | command _ h => exact reported_of_command hk h
  | startRecording _ _ hT => exact reported_of_recording (reports_map_op _) hT
  | stopRecording _ _ hT => exact reported_of_recording (reports_map_op _) hT
  | consult _ _ hr => exact entered _ _ hr rfl
  | incoming _ hr => exact entered _ _ hr rfl
  | state _ _ h => exact reported_of_state hk h
  | media _ h => exact reported_of_media hk h

end Changes

/-- The engine with the `CallStateChanged` events it has emitted so far, in order. -/
structure Session where
  engine : Engine
  emitted : List Json

/-- The session before the first operation. -/
def Session.initial : Session := ⟨Engine.initial, []⟩

/-- One step of the engine, with the events it emits. -/
def sessionStep (t : Session) (i : Input) : Option Session :=
  (engineStep t.engine i).map fun s ↦ ⟨s, t.emitted ++ reports (i.acts t.engine)⟩

/-- The invariant of sessions: the app, caught up with the events, mirrors the engine. -/
def CaughtUp (now : Nat → Int) (t : Session) : Prop :=
  (tables t.engine).Keyed ∧
    ∃ activeCalls, handleAll now t.emitted = some activeCalls ∧
      Mirrors activeCalls (tables t.engine)

/-- The step lemma: the app catches up with every step. -/
theorem caughtUp_step {now : Nat → Int} {t u : Session} {i : Input} (h : CaughtUp now t)
    (hs : sessionStep t i = some u) : CaughtUp now u := by
  obtain ⟨hk, activeCalls, hall, hmirrors⟩ := h
  obtain ⟨s, hstep, rfl⟩ := Option.map_eq_some_iff.mp hs
  have reported := reported_of_change hk (step_change hk hstep)
  obtain ⟨next, hnext, hmirrors⟩ := reported now (0 + t.emitted.length) activeCalls hmirrors
  refine ⟨keyed_step hk hstep, next, ?_, hmirrors⟩
  change handleFrom now 0 (t.emitted ++ reports (i.acts t.engine)) ∅ = some next
  rw [handleFrom_append, show handleFrom now 0 t.emitted ∅ = some activeCalls from hall]
  exact hnext

/-- After every run, the app's list, with the emitted events handled in order, has exactly the
calls that have not ended, each as the engine has it. -/
theorem activeCalls_mirror {is : List Input} {t : Session}
    (run : is.foldlM sessionStep Session.initial = some t) (now : Nat → Int) :
    ∃ activeCalls, handleAll now t.emitted = some activeCalls ∧
      (∀ key : Int, key ∈ activeCalls ↔ ∃ id call, key = id.toNat ∧
        t.engine.calls.lookup id = some call ∧ call.state ≠ .ended) ∧
      ∀ id call, t.engine.calls.lookup id = some call → call.state ≠ .ended →
        ∃ shown, activeCalls.lookup (id.toNat : Int) = some shown ∧ Shows shown call := by
  have start : CaughtUp now Session.initial := ⟨keyed_initial, ∅, rfl, Mirrors.initial⟩
  obtain ⟨-, activeCalls, hall, hmirrors⟩ := (Path.of_foldlM run).invariant start
    fun _ _ _ h _ hs ↦ caughtUp_step h hs
  have shown (id : UInt32) (call : Call) (hl : t.engine.calls.lookup id = some call)
      (hlive : call.state ≠ .ended) :
      ∃ shown, activeCalls.lookup (id.toNat : Int) = some shown ∧ Shows shown call := by
    have hentry := hmirrors.entry id
    rw [show (tables t.engine).calls.lookup id = some call from hl] at hentry
    cases hshown : activeCalls.lookup (id.toNat : Int) with
    | none =>
      rw [hshown] at hentry
      exact absurd hentry hlive
    | some shown =>
      rw [hshown] at hentry
      exact ⟨shown, rfl, hentry.2⟩
  refine ⟨activeCalls, hall, fun key ↦ ⟨fun hkey ↦ ?_, ?_⟩, shown⟩
  · obtain ⟨id, rfl⟩ := hmirrors.keys key hkey
    obtain ⟨entry, hentry⟩ := Option.isSome_iff_exists.mp (AList.lookup_isSome.mpr hkey)
    have hmirror := hmirrors.entry id
    rw [hentry] at hmirror
    cases hl : (tables t.engine).calls.lookup id with
    | none =>
      rw [hl] at hmirror
      exact hmirror.elim
    | some call =>
      rw [hl] at hmirror
      exact ⟨id, call, rfl, hl, hmirror.1⟩
  · rintro ⟨id, call, rfl, hl, hlive⟩
    obtain ⟨entry, hentry, -⟩ := shown id call hl hlive
    rw [← AList.lookup_isSome, hentry]
    rfl

/-- A call that is answered while another has ended, as an instance. -/
theorem activeCalls_mirror_redial :
    ∃ t, (signIn ++ [dial, hangUp, dial, ⟨.onCallState 0 5, quietEnv⟩]).foldlM sessionStep
        Session.initial = some t ∧
      (t.engine.calls.lookup 2).map (·.state) = some .inCall ∧
      ∃ activeCalls, handleAll (fun _ ↦ 0) t.emitted = some activeCalls ∧
        ∃ shown, activeCalls.lookup 2 = some shown ∧ shown.state = .inCall := by
  have h : ((signIn ++ [dial, hangUp, dial, ⟨.onCallState 0 5, quietEnv⟩]).foldlM sessionStep
      Session.initial).map (fun t ↦ (t.engine.calls.lookup 2).map (·.state)) =
        some (some .inCall) := by decide
  obtain ⟨t, ht, hstate⟩ := Option.map_eq_some_iff.mp h
  obtain ⟨call, hl, hcall⟩ := Option.map_eq_some_iff.mp hstate
  obtain ⟨activeCalls, hall, -, hshown⟩ := activeCalls_mirror ht fun _ ↦ 0
  obtain ⟨shown, hentry, hshows⟩ := hshown 2 call hl (by rw [hcall]; decide)
  refine ⟨t, ht, hstate, activeCalls, hall, shown, hentry, ?_⟩
  rw [hshows.state, hcall]
  rfl

end PacketDial.Ui
