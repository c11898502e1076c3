import Mathlib.Logic.Relation
import PacketDial.Lib.Routes
import PacketDial.System.StepSpec

/-!
# Edits of the call tables

Every change of a step is a sequence of edits, of which there are eight kinds. An invariant of
the call tables is proved of one edit; `edits_of_change` carries it to steps.
-/

namespace PacketDial.System

open PacketDial.Core PacketDial.Lib

/-- The operation can create a call without a command. -/
def isOpening : Op → Bool
  | .startAttendedXfer .. | .onIncomingCall .. => true
  | _ => false

/-- The operation shuts the engine down. -/
def isShutdown : Op → Bool
  | .shutdown => true
  | _ => false

/-- The input can create a call. -/
def opensCall (i : Input) (s : Engine) : Prop :=
  (commandOf i s).map Prod.fst = some "CallStart" ∨ isOpening i.op = true

instance (i : Input) (s : Engine) : Decidable (opensCall i s) :=
  inferInstanceAs (Decidable (_ ∨ _))

/-- The id that a `CallHold` of the input resolves. -/
def holdTarget (i : Input) (s : Engine) : Option UInt32 :=
  (commandOf i s).bind fun c ↦
    if c.1 = "CallHold" then commandTarget i.env (tables s) c.1 c.2 else none

/-- One edit of the call tables, as a step on `i` from `s` makes it that brings in the PJSIP ids
`ids`. -/
inductive Edit (i : Input) (s : Engine) (ids : List Int) : CallTables → CallTables → Prop where
  /-- An id is used up for a call that PJSIP refused. -/
  | burn : Edit i s ids (tables s) (tables s).burn
  /-- A new call is entered in both tables. -/
  | enter {call : Call} {pjCallId : Int} (hop : opensCall i s) (hmem : pjCallId ∈ ids)
      (hid : call.id = (tables s).nextCallId) (hpj : call.pjsipCallId = some pjCallId)
      (hstate : call.state = .ringing) :
      Edit i s ids (tables s) ((tables s).track call pjCallId)
  /-- A record is written in the state it had. -/
  | amend {T : CallTables} {id : UInt32} {old new : Call} (hl : T.calls.lookup id = some old)
      (hid : new.id = old.id) (hpj : new.pjsipCallId = old.pjsipCallId)
      (hstate : new.state = old.state) : Edit i s ids T (T.setCall id new)
  /-- A hold command writes the record it resolves to. -/
  | hold {id : UInt32} {old new : Call} (htarget : holdTarget i s = some id)
      (hl : (tables s).calls.lookup id = some old) (hid : new.id = old.id)
      (hpj : new.pjsipCallId = old.pjsipCallId) (hstate : new.state ≠ .ended) :
      Edit i s ids (tables s) ((tables s).setCall id new)
  /-- A callback writes the record its PJSIP id is routed to, in a live state. -/
  | progress {T : CallTables} {pjCallId : Int} {id : UInt32} {old new : Call}
      (hmap : T.callMap.lookup pjCallId = some id) (hl : T.calls.lookup id = some old)
      (hid : new.id = old.id) (hpj : new.pjsipCallId = old.pjsipCallId)
      (hstate : new.state ≠ .ended) : Edit i s ids T (T.setCall id new)
  /-- A call ends: its PJSIP id is forgotten and its record marked. -/
  | finish {T : CallTables} {pjCallId : Int} {id : UInt32} {old new : Call}
      (hmap : T.callMap.lookup pjCallId = some id) (hl : T.calls.lookup id = some old)
      (hid : new.id = old.id) (hpj : new.pjsipCallId = old.pjsipCallId)
      (hstate : new.state = .ended) :
      Edit i s ids T ((T.unmap pjCallId .ended).setCall id new)
  /-- A PJSIP id without a record is forgotten. -/
  | forget {T : CallTables} {pjCallId : Int} (hmap : ∀ id, T.callMap.lookup pjCallId = some id →
      T.calls.lookup id = none) : Edit i s ids T (T.unmap pjCallId .ended)
  /-- The engine shuts down. -/
  | clear (hop : isShutdown i.op = true) (hinit : s.initialized = true) :
      Edit i s ids (tables s) { tables s with callMap := ∅ }

/-- A sequence of edits. -/
abbrev Edits (i : Input) (s : Engine) (ids : List Int) : CallTables → CallTables → Prop :=
  Relation.ReflTransGen (Edit i s ids)

section Records

/-- Only the recording fields differ, so the id does not. -/
theorem SameCall.id_eq {old new : Call} (h : SameCall old new) : new.id = old.id := by
  rw [h]

/-- Only the recording fields differ, so the PJSIP id does not. -/
theorem SameCall.pjsipCallId_eq {old new : Call} (h : SameCall old new) :
    new.pjsipCallId = old.pjsipCallId := by
  rw [h]

/-- Only the recording fields differ, so the state does not. -/
theorem SameCall.state_eq {old new : Call} (h : SameCall old new) : new.state = old.state := by
  rw [h]

/-- Closing the talk time keeps the id. -/
@[simp] theorem settled_id (now : Nat) (call : Call) : (settled now call).id = call.id := by
  unfold settled
  split <;> rfl

/-- Closing the talk time keeps the state. -/
@[simp] theorem settled_state (now : Nat) (call : Call) :
    (settled now call).state = call.state := by
  unfold settled
  split <;> rfl

/-- A hold command keeps the id. -/
@[simp] theorem heldRecord_id (hold : Bool) (now : Nat) (call : Call) :
    (heldRecord hold now call).id = call.id := by
  unfold heldRecord
  split
  · rw [settled_id]
  · rfl

/-- The state after a hold command. -/
@[simp] theorem heldRecord_state (hold : Bool) (now : Nat) (call : Call) :
    (heldRecord hold now call).state = if hold then .onHold else .inCall := by
  unfold heldRecord
  split
  · rw [settled_state]
  · rfl

/-- A state callback keeps the id. -/
@[simp] theorem stateRecord_id (newState : CallState) (now : Nat) (call : Call) :
    (stateRecord newState now call).id = call.id := by
  unfold stateRecord
  split
  · rfl
  · split
    · rw [settled_id]
    · rfl

/-- A state callback keeps the PJSIP id. -/
@[simp] theorem stateRecord_pjsipCallId (newState : CallState) (now : Nat) (call : Call) :
    (stateRecord newState now call).pjsipCallId = call.pjsipCallId := by
  unfold stateRecord
  split
  · rfl
  · split
    · rw [settled_pjsipCallId]
    · rfl

/-- A state callback writes the state it brings. -/
@[simp] theorem stateRecord_state (newState : CallState) (now : Nat) (call : Call) :
    (stateRecord newState now call).state = newState := by
  unfold stateRecord
  split
  · rfl
  · split
    · rw [settled_state]
    · rfl

/-- A media callback keeps the id. -/
@[simp] theorem mediaRecord_id (active : Int) (now : Nat) (call : Call) :
    (mediaRecord active now call).id = call.id := by
  unfold mediaRecord
  split
  · rfl
  · rw [settled_id]

/-- A media callback keeps the PJSIP id. -/
@[simp] theorem mediaRecord_pjsipCallId (active : Int) (now : Nat) (call : Call) :
    (mediaRecord active now call).pjsipCallId = call.pjsipCallId := by
  unfold mediaRecord
  split
  · rfl
  · rw [settled_pjsipCallId]

/-- A media callback never ends a call. -/
theorem mediaRecord_state (active : Int) (now : Nat) (call : Call) :
    (mediaRecord active now call).state ≠ .ended := by
  unfold mediaRecord
  split
  · dsimp only
    split <;> decide
  · rw [settled_state]
    exact CallState.noConfusion

end Records

variable {i : Input} {s : Engine} {ids : List Int}

/-- A change by a recording function is at most one edit. -/
theorem edits_of_recording {id : UInt32} {T T' : CallTables} (h : RecordingChange id T T') :
    Edits i s ids T T' := by
  rcases h with rfl | ⟨old, new, hl, hsame, rfl⟩
  · exact .refl
  · exact .single (.amend hl hsame.id_eq hsame.pjsipCallId_eq hsame.state_eq)

/-- A change by a command is at most one edit. -/
theorem edits_of_command {cmd : String} {p : Json} {acts : List CallAct} {T : CallTables}
    (hcmd : commandOf i s = some (cmd, p))
    (h : CommandChange i.env cmd p (tables s) acts T) :
    Edits i s (broughtIds i acts) (tables s) T := by
  cases h with
  | idle _ => exact .refl
  | burn => exact .single .burn
  | track hstart hpos _ =>
    refine .single (.enter (Or.inl ?_) ?_ rfl rfl rfl)
    · rw [hcmd, hstart]
      rfl
    · simp [broughtIds, newPjIds, hpos]
  | mute _ _ hl _ => exact .single (.amend hl rfl rfl rfl)
  | hold hh hid hl _ =>
    refine .single (.hold ?_ hl (heldRecord_id _ _ _) (heldRecord_pjsipCallId _ _ _) ?_)
    · simp only [holdTarget, hcmd, Option.bind_some, hh, if_true]
      rw [← hh]
      exact hid
    · rw [heldRecord_state]
      split <;> decide
  | record _ _ hl hsame =>
    exact .single (.amend hl hsame.id_eq hsame.pjsipCallId_eq hsame.state_eq)

/-- A change by a state callback is a progress, or an end with its recording. -/
theorem edits_of_state {pjCallId : Int} {newState : CallState} {acts : List CallAct}
    {T T' : CallTables} (h : StateChange i.env pjCallId newState T acts T') :
    Edits i s ids T T' := by
  by_cases hended : newState = .ended
  · subst hended
    cases h with
    | unrouted hmap =>
      refine .single (.forget fun id hid ↦ ?_)
      rcases hmap with hnone | ⟨id', hid', hl⟩
      · rw [hnone] at hid
        cases hid
      · rw [hid'] at hid
        cases hid
        exact hl
    | routed hmap hl _ hstop _ =>
      refine .head (.finish hmap hl (stateRecord_id _ _ _) (stateRecord_pjsipCallId _ _ _)
        (stateRecord_state _ _ _)) (edits_of_recording hstop.2)
  · have hunmap : T.unmap pjCallId newState = T := by
      unfold CallTables.unmap
      rw [if_neg hended]
    cases h with
    | unrouted => rw [hunmap]
    | routed hmap hl _ hstop _ =>
      rw [hunmap] at hstop
      refine .head (.progress hmap hl (stateRecord_id _ _ _) (stateRecord_pjsipCallId _ _ _) ?_)
        (edits_of_recording hstop.2)
      rw [stateRecord_state]
      exact hended

/-- A change by a media callback is at most one edit. -/
theorem edits_of_media {pjCallId active : Int} {acts : List CallAct} {T T' : CallTables}
    (h : MediaChange pjCallId active T acts T') : Edits i s ids T T' := by
  cases h with
  | unrouted => exact .refl
  | routed hmap hl _ =>
    exact .single (.progress hmap hl (mediaRecord_id _ _ _) (mediaRecord_pjsipCallId _ _ _)
      (mediaRecord_state _ _ _))

/-- The change of a step is a sequence of edits. -/
theorem edits_of_change {acts : List CallAct} {T : CallTables} (h : Change i s acts T) :
    Edits i s (broughtIds i acts) (tables s) T := by
  cases h with
  | quiet | transfer | consultFailed | completeXfer | merge => exact .refl
  | command hcmd h => exact edits_of_command hcmd h
  | startRecording _ _ hT => exact edits_of_recording hT
  | stopRecording _ _ hT => exact edits_of_recording hT
  | consult hop hpos _ =>
    refine .single (.enter (Or.inr (by rw [hop]; rfl)) ?_ rfl rfl rfl)
    simp [broughtIds, newPjIds, hpos]
  | shutdown hop hinit => exact .single (.clear (by rw [hop]; rfl) hinit)
  | incoming hop _ =>
    refine .single (.enter (Or.inr (by rw [hop]; rfl)) ?_ rfl rfl rfl)
    simp [broughtIds, hop]
  | state _ _ h => exact edits_of_state h
  | media _ h => exact edits_of_media h

/-- An invariant of every edit is an invariant of a sequence of them. -/
theorem edits_invariant {I : CallTables → Prop} {T T' : CallTables} (h : Edits i s ids T T')
    (hedit : ∀ U V, I U → Edit i s ids U V → I V) (hT : I T) : I T' := by
  induction h with
  | refl => exact hT
  | tail _ he ih => exact hedit _ _ ih he

namespace CallTables.Keyed

/-- Writing a record under its own id. -/
theorem setCall {T : CallTables} (h : T.Keyed) {id : UInt32} {old new : Call}
    (hl : T.calls.lookup id = some old) (hid : new.id = old.id) : (T.setCall id new).Keyed := by
  intro id' call hcall
  by_cases heq : id' = id
  · subst heq
    rw [lookup_setCall] at hcall
    cases hcall
    rw [hid]
    exact h _ _ hl
  · rw [lookup_setCall_ne _ heq] at hcall
    exact h _ _ hcall

/-- Entering a call under its own id. -/
theorem track {T : CallTables} (h : T.Keyed) (call : Call) (pjCallId : Int) :
    (T.track call pjCallId).Keyed := by
  intro id' call' hcall
  by_cases heq : id' = call.id
  · subst heq
    rw [CallTables.track, AList.lookup_insert] at hcall
    cases hcall
    rfl
  · rw [CallTables.track, AList.lookup_insert_ne heq] at hcall
    exact h _ _ hcall

/-- Every edit files records under their own ids. -/
theorem edit {T T' : CallTables} (h : T.Keyed) (he : Edit i s ids T T') : T'.Keyed := by
  cases he with
  | burn => exact h
  | enter => exact h.track _ _
  | amend hl hid _ _ => exact h.setCall hl hid
  | hold _ hl hid _ _ => exact h.setCall hl hid
  | progress _ hl hid _ _ => exact h.setCall hl hid
  | finish _ hl hid _ _ =>
    refine Keyed.setCall ?_ ?_ hid
    · intro id call hcall
      rw [unmap_calls] at hcall
      exact h id call hcall
    · rw [unmap_calls]
      exact hl
  | forget =>
    intro id call hcall
    rw [unmap_calls] at hcall
    exact h id call hcall
  | clear => exact h

end CallTables.Keyed

/-- A step files records under their own ids. -/
theorem keyed_step {s' : Engine} (hk : (tables s).Keyed) (h : engineStep s i = some s') :
    (tables s').Keyed :=
  edits_invariant (edits_of_change (step_change hk h)) (fun _ _ hU he ↦ hU.edit he) hk

/-- The initial tables are keyed. -/
theorem keyed_initial : (tables Engine.initial).Keyed := by
  intro id call h
  cases h

/-- The tables of every reachable state are keyed. -/
theorem keyed_run {is : List Input} (run : is.foldlM engineStep Engine.initial = some s) :
    (tables s).Keyed :=
  (Path.of_foldlM run).invariant keyed_initial fun _ _ _ h _ hs ↦ keyed_step h hs

end PacketDial.System
