import Mathlib.Data.Finset.Basic
import Mathlib.Logic.Function.Basic
import PacketDial.Lib.Traced

/-!
# Calls and the conference bridge

The native side of calls as the shim drives it: which calls PJSIP has, which of them are on hold,
and the connections between the ports of its conference bridge. The operations on two calls,
`pd_call_start_attended_xfer`, `pd_call_complete_xfer` and `pd_call_merge_conference`
(`core_rust/src/shim/pjsip_shim.c:1473–1641`), are sequences of PJSIP calls, any of which may
fail.
-/

namespace PacketDial.Shim

open PacketDial.Lib

/-- A media stream of a call (`pjsua_call_media_info`): whether it is audio, whether it is active,
and its port on the bridge. -/
structure MediaStream where
  audio : Bool
  active : Bool
  confSlot : Int
  deriving DecidableEq

/-- A call of PJSIP, with what `pjsua_call_get_info` says of it. -/
structure NativeCall where
  live : Bool
  held : Bool
  accId : Int
  remoteInfo : List UInt8
  media : List MediaStream

/-- The calls of PJSIP and the connections of its bridge, source first. `answers` counts the PJSIP
calls made so far. -/
structure Native where
  calls : Int → NativeCall
  edges : Finset (Int × Int)
  answers : Nat

/-- The PJSIP calls of the operations on two calls. -/
inductive PjsuaCall where
  | callGetInfo (callId : Int)
  | callSetHold (callId : Int)
  | callMakeCall (accId : Int) (dest : List UInt8)
  | callXfer (callId : Int) (dest : List UInt8)
  | callHangup (callId : Int) (code : Int)
  | confConnect (source sink : Int)
  | confDisconnect (source sink : Int)
  deriving DecidableEq

/-- What PJSIP answers: the status of its calls, in their order, and the id of a new call. -/
structure PjsuaAnswers where
  status : Nat → Int
  newCallId : Nat

/-- Operations on the native side. -/
abbrev BridgeM (α : Type) := Traced PjsuaAnswers Native PjsuaCall α

/-- `PJSUA_INVALID_ID`, where a call has no port. -/
def noPort : Int := -1

/-- A change of one call. -/
def Native.setCall (s : Native) (id : Int) (f : NativeCall → NativeCall) : Native :=
  { s with calls := Function.update s.calls id (f (s.calls id)) }

/-- What a PJSIP call does when it succeeds. A transfer only asks the other side. -/
def PjsuaCall.effect (newCallId : Nat) (s : Native) : PjsuaCall → Native
  | .callGetInfo _ | .callXfer .. => s
  | .callSetHold id => s.setCall id fun call ↦ { call with held := true }
  | .callMakeCall accId dest => s.setCall newCallId fun _ ↦ ⟨true, false, accId, dest, []⟩
  | .callHangup id _ => s.setCall id fun call ↦ { call with live := false }
  | .confConnect source sink => { s with edges := insert (source, sink) s.edges }
  | .confDisconnect source sink => { s with edges := s.edges.erase (source, sink) }

/-- A PJSIP call: it does nothing unless it succeeds. -/
def pjsua (call : PjsuaCall) : BridgeM Int := do
  Traced.emit call
  let answers ← Traced.ask
  let status := answers.status (← Traced.get).answers
  Traced.modify fun s ↦
    { (if status = 0 then call.effect answers.newCallId s else s) with answers := s.answers + 1 }
  return status

/-- `pd_call_start_attended_xfer` (`pjsip_shim.c:1473–1519`). The status of the hold is only
logged. -/
def pdCallStartAttendedXfer (callId : Int) (destUri : Option (List UInt8)) : BridgeM Int := do
  match destUri with
  | none | some [] => return -1
  | some dest =>
    discard <| pjsua (.callSetHold callId)
    if (← pjsua (.callGetInfo callId)) ≠ 0 then return -1
    else
      let accId := ((← Traced.get).calls callId).accId
      if (← pjsua (.callMakeCall accId dest)) ≠ 0 then return -1
      else return ((← Traced.ask).newCallId : Int)

/-- `pd_call_complete_xfer` (`pjsip_shim.c:1521–1558`): `call_b` is hung up whatever the transfer
answered. -/
def pdCallCompleteXfer (callA callB : Int) : BridgeM Int := do
  if (← pjsua (.callGetInfo callB)) ≠ 0 then return -1
  else
    let remoteUri := ((← Traced.get).calls callB).remoteInfo.take 255
    let status ← pjsua (.callXfer callA remoteUri)
    discard <| pjsua (.callHangup callB 0)
    return status

/-- The port of the first active audio stream (`pjsip_shim.c:1582–1596`). -/
def NativeCall.port (call : NativeCall) : Int :=
  ((call.media.find? fun m ↦ m.audio && m.active).map MediaStream.confSlot).getD noPort

/-- The connections to the speaker and the microphone, whatever they answer
(`pjsip_shim.c:1628–1632`). -/
def monitor (portA portB : Int) : BridgeM Unit := do
  discard <| pjsua (.confConnect portA 0)
  discard <| pjsua (.confConnect 0 portA)
  discard <| pjsua (.confConnect portB 0)
  discard <| pjsua (.confConnect 0 portB)

/-- `pd_call_merge_conference` from the ports on (`pjsip_shim.c:1598–1640`). -/
def mergePorts (portA portB : Int) : BridgeM Int := do
  if portA = noPort ∨ portB = noPort then return -1
  else if (← pjsua (.confConnect portA portB)) ≠ 0 then return -1
  else if (← pjsua (.confConnect portB portA)) ≠ 0 then
    discard <| pjsua (.confDisconnect portA portB)
    return -1
  else
    monitor portA portB
    return 0

/-- `pd_call_merge_conference` (`pjsip_shim.c:1560–1641`). -/
def pdCallMergeConference (callA callB : Int) : BridgeM Int := do
  if (← pjsua (.callGetInfo callA)) ≠ 0 then return -1
  else if (← pjsua (.callGetInfo callB)) ≠ 0 then return -1
  else
    let s ← Traced.get
    mergePorts (s.calls callA).port (s.calls callB).port

/-- The operations on two calls. -/
inductive PairOp where
  | startAttendedXfer (callId : Int) (destUri : Option (List UInt8))
  | completeXfer (callA callB : Int)
  | mergeConference (callA callB : Int)

/-- The code an operation runs. -/
def PairOp.run : PairOp → BridgeM Int
  | .startAttendedXfer callId destUri => pdCallStartAttendedXfer callId destUri
  | .completeXfer callA callB => pdCallCompleteXfer callA callB
  | .mergeConference callA callB => pdCallMergeConference callA callB

/-- The operation reports failure: a consultation call by a negative answer, the others by a
status that is not zero. -/
def PairOp.Failed (op : PairOp) (answer : Int) : Prop :=
  match op with
  | .startAttendedXfer .. => answer < 0
  | .completeXfer .. | .mergeConference .. => answer ≠ 0

/-- Liveness and hold status of every call and the connections of the bridge are the same. -/
structure SameCalls (s s' : Native) : Prop where
  live : ∀ id, (s'.calls id).live = (s.calls id).live
  held : ∀ id, (s'.calls id).held = (s.calls id).held
  edges : s'.edges = s.edges

/-- What has to come together for a failed operation to leave everything as it was: the hold that
a consultation call starts with changed nothing, `call_b` was not hung up, or the connection that
a merge takes back was not there before. The statuses are those of the PJSIP calls in order. -/
def PairOp.Undone (op : PairOp) (e : PjsuaAnswers) (s : Native) : Prop :=
  let status (n : Nat) : Int := e.status (s.answers + n)
  match op with
  | .startAttendedXfer callId destUri =>
    destUri.getD [] = [] ∨ status 0 ≠ 0 ∨ (s.calls callId).held = true
  | .completeXfer _ callB => status 0 ≠ 0 ∨ status 2 ≠ 0 ∨ (s.calls callB).live = false
  | .mergeConference callA callB =>
    let portA := (s.calls callA).port
    let portB := (s.calls callB).port
    status 0 = 0 → status 1 = 0 → portA ≠ noPort → portB ≠ noPort → status 2 = 0 →
      ((portA, portB) ∈ s.edges ↔ status 4 ≠ 0)

section Steps

variable {e : PjsuaAnswers} {s s' : Native} {id : Int}

/-- The run of a PJSIP call. -/
theorem run_pjsua (call : PjsuaCall) (e : PjsuaAnswers) (s : Native) :
    (pjsua call).run e s = ⟨e.status s.answers,
      { (if e.status s.answers = 0 then call.effect e.newCallId s else s) with
        answers := s.answers + 1 }, [call]⟩ := rfl

/-- A PJSIP call that fails ends the operation. -/
theorem run_refused {call : PjsuaCall} {x : BridgeM Int} (h : e.status s.answers ≠ 0) :
    (pjsua call >>= fun status ↦ if status ≠ 0 then pure (-1) else x).run e s =
      ⟨-1, { s with answers := s.answers + 1 }, [call]⟩ := by
  rw [Traced.run_bind, run_pjsua]
  dsimp only
  rw [if_pos h, if_neg h, Traced.run_pure]
  rfl

/-- After a PJSIP call that succeeds the operation goes on. -/
theorem run_granted {call : PjsuaCall} {x : BridgeM Int} (h : e.status s.answers = 0) :
    (pjsua call >>= fun status ↦ if status ≠ 0 then pure (-1) else x).run e s =
      let out := x.run e { call.effect e.newCallId s with answers := s.answers + 1 }
      ⟨out.value, out.state, call :: out.trace⟩ := by
  rw [Traced.run_bind, run_pjsua]
  dsimp only
  rw [if_neg (not_not_intro h), if_pos h]
  rfl

/-- Nothing happened. -/
theorem SameCalls.refl (s : Native) : SameCalls s s := ⟨fun _ ↦ rfl, fun _ ↦ rfl, rfl⟩

/-- The count of answers is not looked at. -/
theorem sameCalls_answers {n : Nat} : SameCalls s { s' with answers := n } ↔ SameCalls s s' :=
  ⟨fun h ↦ ⟨h.live, h.held, h.edges⟩, fun h ↦ ⟨h.live, h.held, h.edges⟩⟩

/-- The changed call. -/
theorem setCall_self (s : Native) (id : Int) (f : NativeCall → NativeCall) :
    (s.setCall id f).calls id = f (s.calls id) := Function.update_self _ _ _

/-- The other calls. -/
theorem setCall_of_ne {j : Int} (h : j ≠ id) (f : NativeCall → NativeCall) :
    (s.setCall id f).calls j = s.calls j := Function.update_of_ne h _ _

/-- It is not looked at before either. -/
theorem sameCalls_answers_left {n : Nat} :
    SameCalls { s with answers := n } s' ↔ SameCalls s s' :=
  ⟨fun h ↦ ⟨h.live, h.held, h.edges⟩, fun h ↦ ⟨h.live, h.held, h.edges⟩⟩

/-- A change of one call changes nothing just if it keeps the two flags. -/
theorem sameCalls_setCall {f : NativeCall → NativeCall} : SameCalls s (s.setCall id f) ↔
    (f (s.calls id)).live = (s.calls id).live ∧ (f (s.calls id)).held = (s.calls id).held := by
  constructor
  · intro h
    have hlive := h.live id
    have hheld := h.held id
    rw [setCall_self] at hlive hheld
    exact ⟨hlive, hheld⟩
  · rintro ⟨hlive, hheld⟩
    refine ⟨fun j ↦ ?_, fun j ↦ ?_, rfl⟩
    · by_cases hj : j = id
      · rw [hj, setCall_self, hlive]
      · rw [setCall_of_ne hj]
    · by_cases hj : j = id
      · rw [hj, setCall_self, hheld]
      · rw [setCall_of_ne hj]

/-- A hold changes nothing just if the call was on hold. -/
theorem sameCalls_hold :
    SameCalls s (s.setCall id fun call ↦ { call with held := true }) ↔
      (s.calls id).held = true := by
  rw [sameCalls_setCall]
  exact ⟨fun h ↦ h.2.symm, fun h ↦ ⟨rfl, h.symm⟩⟩

/-- A hangup changes nothing just if the call was not live. -/
theorem sameCalls_hangup :
    SameCalls s (s.setCall id fun call ↦ { call with live := false }) ↔
      (s.calls id).live = false := by
  rw [sameCalls_setCall]
  exact ⟨fun h ↦ h.1.symm, fun h ↦ ⟨h.symm, rfl⟩⟩

/-- Other connections mean a change. -/
theorem sameCalls_edges {edges : Finset (Int × Int)} :
    SameCalls s { s with edges := edges } ↔ edges = s.edges :=
  ⟨fun h ↦ h.edges, fun h ↦ ⟨fun _ ↦ rfl, fun _ ↦ rfl, h⟩⟩

end Steps

section Operations

variable {e : PjsuaAnswers} {s : Native} {callId callA callB portA portB : Int}

/-- A consultation call that failed after its hold: the hold is there if it succeeded. -/
theorem state_startAttendedXfer {dest : List UInt8} (hdest : dest ≠ [])
    (h : ((pdCallStartAttendedXfer callId (some dest)).run e s).value < 0) :
    ∃ n, ((pdCallStartAttendedXfer callId (some dest)).run e s).state =
      { (if e.status s.answers = 0 then
          s.setCall callId fun call ↦ { call with held := true } else s) with answers := n } := by
  obtain ⟨b, bs, rfl⟩ := List.exists_cons_of_ne_nil hdest
  unfold pdCallStartAttendedXfer at h ⊢
  by_cases h1 : e.status (s.answers + 1) = 0
  · by_cases h2 : e.status (s.answers + 1 + 1) = 0
    · simp [run_pjsua, h1, h2] at h
      omega
    · refine ⟨s.answers + 1 + 1 + 1, ?_⟩
      simp [run_pjsua, h1, h2, PjsuaCall.effect]
  · refine ⟨s.answers + 1 + 1, ?_⟩
    simp [run_pjsua, h1, PjsuaCall.effect]

/-- A failed consultation call leaves the hold that it started with. -/
theorem startAttendedXfer_same_iff {destUri : Option (List UInt8)}
    (h : ((pdCallStartAttendedXfer callId destUri).run e s).value < 0) :
    SameCalls s ((pdCallStartAttendedXfer callId destUri).run e s).state ↔
      (PairOp.startAttendedXfer callId destUri).Undone e s := by
  unfold PairOp.Undone
  match destUri with
  | none | some [] => exact iff_of_true (.refl s) (Or.inl rfl)
  | some (b :: bs) =>
    obtain ⟨n, hstate⟩ := state_startAttendedXfer (List.cons_ne_nil b bs) h
    rw [hstate, sameCalls_answers]
    by_cases h0 : e.status s.answers = 0
    · rw [if_pos h0, sameCalls_hold]
      simp [h0]
    · rw [if_neg h0]
      exact iff_of_true (.refl s) (Or.inr (Or.inl h0))

/-- A transfer hangs up the consultation call, whatever it answers itself. -/
theorem state_completeXfer (h0 : e.status s.answers = 0) :
    ((pdCallCompleteXfer callA callB).run e s).state =
      { (if e.status (s.answers + 2) = 0 then
          s.setCall callB fun call ↦ { call with live := false } else s) with
        answers := s.answers + 3 } := by
  unfold pdCallCompleteXfer
  by_cases h2 : e.status (s.answers + 1 + 1) = 0
  · simp [run_pjsua, h0, h2, PjsuaCall.effect]
    exact ⟨rfl, rfl⟩
  · simp [run_pjsua, h0, h2, PjsuaCall.effect]

/-- A transfer leaves everything as it was just if it hung up nothing. -/
theorem completeXfer_same_iff :
    SameCalls s ((pdCallCompleteXfer callA callB).run e s).state ↔
      (PairOp.completeXfer callA callB).Undone e s := by
  unfold PairOp.Undone
  by_cases h0 : e.status s.answers = 0
  · rw [state_completeXfer h0, sameCalls_answers]
    by_cases h2 : e.status (s.answers + 2) = 0
    · rw [if_pos h2, sameCalls_hangup]
      simp [h0, h2]
    · rw [if_neg h2]
      exact iff_of_true (.refl s) (Or.inr (Or.inl h2))
  · refine iff_of_true ?_ (Or.inl h0)
    unfold pdCallCompleteXfer
    rw [run_refused h0]
    exact sameCalls_answers.mpr (.refl s)

/-- A new connection taken back: everything is as it was just if that undid the connection. -/
theorem takeBack_same_iff (edge : Int × Int) (removed : Prop) [Decidable removed] :
    SameCalls s { s with edges :=
        if removed then (insert edge s.edges).erase edge else insert edge s.edges } ↔
      (edge ∈ s.edges ↔ ¬ removed) := by
  rw [sameCalls_edges]
  by_cases hremoved : removed
  · rw [if_pos hremoved, Finset.erase_insert_eq_erase, Finset.erase_eq_self]
    simp [hremoved]
  · rw [if_neg hremoved, Finset.insert_eq_self]
    simp [hremoved]

/-- A failed merge of two ports takes back the first connection, if it was made. -/
theorem mergePorts_same_iff (h : ((mergePorts portA portB).run e s).value ≠ 0) :
    SameCalls s ((mergePorts portA portB).run e s).state ↔
      (portA ≠ noPort → portB ≠ noPort → e.status s.answers = 0 →
        ((portA, portB) ∈ s.edges ↔ e.status (s.answers + 2) ≠ 0)) := by
  unfold mergePorts at h ⊢
  by_cases hports : portA = noPort ∨ portB = noPort
  · rw [if_pos hports]
    refine iff_of_true (.refl s) fun hA hB ↦ ?_
    exact absurd hports (not_or.mpr ⟨hA, hB⟩)
  rw [if_neg hports] at h ⊢
  rw [not_or] at hports
  by_cases h0 : e.status s.answers = 0
  swap
  · rw [run_refused h0]
    exact iff_of_true (sameCalls_answers.mpr (.refl s)) fun _ _ h ↦ absurd h h0
  rw [run_granted h0] at h ⊢
  by_cases h1 : e.status (s.answers + 1) = 0
  · simp [run_pjsua, h1] at h
  have hback := takeBack_same_iff (s := s) (portA, portB) (e.status (s.answers + 2) = 0)
  rw [← sameCalls_answers (n := s.answers + 3)] at hback
  have hresult : (portA ≠ noPort → portB ≠ noPort → e.status s.answers = 0 →
      ((portA, portB) ∈ s.edges ↔ e.status (s.answers + 2) ≠ 0)) ↔
        ((portA, portB) ∈ s.edges ↔ e.status (s.answers + 2) ≠ 0) :=
    ⟨fun h ↦ h hports.1 hports.2 h0, fun h _ _ _ ↦ h⟩
  rw [hresult, ← hback]
  by_cases h2 : e.status (s.answers + 1 + 1) = 0
  · simp [run_pjsua, h1, h2, PjsuaCall.effect]
  · simp [run_pjsua, h1, h2, PjsuaCall.effect]

/-- A failed merge takes back a connection that may have been there before. -/
theorem mergeConference_same_iff (h : ((pdCallMergeConference callA callB).run e s).value ≠ 0) :
    SameCalls s ((pdCallMergeConference callA callB).run e s).state ↔
      (PairOp.mergeConference callA callB).Undone e s := by
  unfold PairOp.Undone
  unfold pdCallMergeConference at h ⊢
  by_cases h0 : e.status s.answers = 0
  swap
  · rw [run_refused h0]
    exact iff_of_true (sameCalls_answers.mpr (.refl s)) fun h ↦ absurd h h0
  rw [run_granted h0] at h ⊢
  by_cases h1 : e.status (s.answers + 1) = 0
  swap
  · rw [run_refused h1]
    exact iff_of_true (sameCalls_answers.mpr (sameCalls_answers.mpr (.refl s)))
      fun _ h ↦ absurd h h1
  rw [run_granted h1] at h ⊢
  have hmerge := mergePorts_same_iff h
  rw [PjsuaCall.effect, PjsuaCall.effect, sameCalls_answers_left,
    sameCalls_answers_left] at hmerge
  exact hmerge.trans ⟨fun h _ _ ↦ h, fun h ↦ h h0 h1⟩

/-- For every state, every pair of calls and every failure of PJSIP, a failed operation on two calls
leaves the calls and the bridge as they were if and only if its hold, its hangup or its
disconnection came out right. -/
theorem pair_op_undone_iff (op : PairOp) (h : op.Failed (op.run.run e s).value) :
    SameCalls s (op.run.run e s).state ↔ op.Undone e s := by
  cases op with
  | startAttendedXfer callId destUri => exact startAttendedXfer_same_iff h
  | completeXfer callA callB => exact completeXfer_same_iff
  | mergeConference callA callB => exact mergeConference_same_iff h

/-- Two calls, 0 and 1, with active audio at the ports 1 and 2. -/
def twoCalls : Native where
  calls id := ⟨id = 0 ∨ id = 1, false, 0, [], [⟨true, true, id + 1⟩]⟩
  edges := ∅
  answers := 0

/-- PJSIP refuses the calls with the numbers `refused`. -/
def refusing (refused : List Nat) : PjsuaAnswers where
  status n := if n ∈ refused then 70006 else 0
  newCallId := 2

/-- A transfer to a call that is gone, as an instance. -/
theorem pair_op_undone_iff_gone :
    (PairOp.completeXfer 0 1).Failed
        ((PairOp.completeXfer 0 1).run.run (refusing [0]) twoCalls).value ∧
      SameCalls twoCalls ((PairOp.completeXfer 0 1).run.run (refusing [0]) twoCalls).state := by
  have hfailed : (PairOp.completeXfer 0 1).Failed
      ((PairOp.completeXfer 0 1).run.run (refusing [0]) twoCalls).value := by
    change ((PairOp.completeXfer 0 1).run.run (refusing [0]) twoCalls).value ≠ 0
    decide
  have hundone : (PairOp.completeXfer 0 1).Undone (refusing [0]) twoCalls :=
    Or.inl (by decide)
  exact ⟨hfailed, (pair_op_undone_iff _ hfailed).mpr hundone⟩

/-- Each of the operations fails and leaves its mark: a call on hold, a call hung up, a connection
gone. -/
theorem failed_operations_leave_marks :
    (∃ e s, (PairOp.startAttendedXfer 0 (some [0x78])).Failed
        ((pdCallStartAttendedXfer 0 (some [0x78])).run e s).value ∧
      ¬ SameCalls s ((pdCallStartAttendedXfer 0 (some [0x78])).run e s).state) ∧
    (∃ e s, (PairOp.completeXfer 0 1).Failed ((pdCallCompleteXfer 0 1).run e s).value ∧
      ¬ SameCalls s ((pdCallCompleteXfer 0 1).run e s).state) ∧
    ∃ e s, (PairOp.mergeConference 0 1).Failed ((pdCallMergeConference 0 1).run e s).value ∧
      ¬ SameCalls s ((pdCallMergeConference 0 1).run e s).state := by
  refine ⟨⟨refusing [2], twoCalls, ?_, fun h ↦ ?_⟩,
    ⟨refusing [1], twoCalls, ?_, fun h ↦ ?_⟩,
    ⟨refusing [3], { twoCalls with edges := {(1, 2)} }, ?_, fun h ↦ ?_⟩⟩
  · change ((pdCallStartAttendedXfer 0 (some [0x78])).run (refusing [2]) twoCalls).value < 0
    decide
  · have hheld := h.held 0
    revert hheld
    decide
  · change ((pdCallCompleteXfer 0 1).run (refusing [1]) twoCalls).value ≠ 0
    decide
  · have hlive := h.live 1
    revert hlive
    decide
  · change ((pdCallMergeConference 0 1).run (refusing [3])
      { twoCalls with edges := {(1, 2)} }).value ≠ 0
    decide
  · have hedges := h.edges
    revert hedges
    decide

end Operations

end PacketDial.Shim
