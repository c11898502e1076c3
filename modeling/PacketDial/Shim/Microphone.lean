import PacketDial.Shim.Bridge

/-!
# The microphone on the bridge

Port 0 of the bridge is the microphone. `on_call_media_state` and `pd_call_set_mute`
(`core_rust/src/shim/pjsip_shim.c:407–433`, `1313–1336`) connect it with the active audio streams
of a call, `pd_call_merge_conference` with those of two. What the bridge is like after an operation
follows from the PJSIP calls it made and the answers to them.
-/

namespace PacketDial.Shim

open PacketDial.Lib

/-- The ports of the active audio streams. -/
def NativeCall.slots (call : NativeCall) : List Int :=
  (call.media.filter fun m ↦ m.audio && m.active).map MediaStream.confSlot

/-- PJSIP calls one after the other, whatever they answer. -/
def pjsuaAll (calls : List PjsuaCall) : BridgeM Unit :=
  Traced.each (fun call ↦ discard <| pjsua call) calls

/-- `pd_call_set_mute` (`pjsip_shim.c:1313–1336`). -/
def pdCallSetMute (callId : Int) (mute : Bool) : BridgeM Int := do
  if (← pjsua (.callGetInfo callId)) ≠ 0 then return -1
  else
    pjsuaAll <| ((← Traced.get).calls callId).slots.map fun slot ↦
      if mute then .confDisconnect 0 slot else .confConnect 0 slot
    return 0

/-- `on_call_media_state` (`pjsip_shim.c:407–433`): what `g_on_media` is called with, if it is. -/
def onCallMediaState (callId : Int) : BridgeM (Option Int) := do
  if (← pjsua (.callGetInfo callId)) ≠ 0 then return none
  else
    let slots := ((← Traced.get).calls callId).slots
    pjsuaAll <| slots.flatMap fun slot ↦ [.confConnect slot 0, .confConnect 0 slot]
    return some (if slots = [] then 0 else 1)

/-- The statuses that `pd_call_make` takes for a missing audio device (`pjsip_shim.c:1228`). -/
def isDeviceError (status : Int) : Bool :=
  status == 450002 || status == -450002 || status == 420006 || status == -420006

/-- The call is tried once more with the default devices (`pjsip_shim.c:1226–1242`). -/
def retryCall (accId : Int) (dstUri : List UInt8) (status : Int) : BridgeM Int :=
  if isDeviceError status then pjsua (.callMakeCall accId dstUri) else return status

/-- `pd_call_make` (`pjsip_shim.c:1195–1257`), where `mediaReady` is the status of
`pd_check_media_ready`. -/
def pdCallMake (mediaReady accId : Int) (dstUri : List UInt8) : BridgeM Int := do
  if mediaReady ≠ 0 then return -mediaReady
  else
    let status ← retryCall accId dstUri (← pjsua (.callMakeCall accId dstUri))
    if status ≠ 0 then return -status
    else return ((← Traced.ask).newCallId : Int)

/-- `pd_call_transfer` (`pjsip_shim.c:1452–1471`). -/
def pdCallTransfer (callId : Int) (destUri : List UInt8) : BridgeM Int :=
  if destUri = [] then return -1 else pjsua (.callXfer callId destUri)

/-- What PJSIP calls do, each if it is granted. -/
def Native.apply (e : PjsuaAnswers) (s : Native) (calls : List PjsuaCall) : Native :=
  calls.foldl (fun s call ↦
    { (if e.status s.answers = 0 then call.effect e.newCallId s else s) with
      answers := s.answers + 1 }) s

/-- What an operation does is what its PJSIP calls do. -/
def Driven {α : Type} (x : BridgeM α) : Prop :=
  ∀ e s, (x.run e s).state = s.apply e (x.run e s).trace

/-- No call has got another stream, and the microphone is connected to no call that it was not
connected to. -/
structure Quiet (s s' : Native) : Prop where
  slots : ∀ id, (s'.calls id).slots ⊆ (s.calls id).slots
  mic : ∀ id, ∀ slot ∈ (s'.calls id).slots, (0, slot) ∈ s'.edges → (0, slot) ∈ s.edges

/-- The PJSIP call connects the microphone. -/
def opensMic : PjsuaCall → Bool
  | .confConnect source _ => source == 0
  | _ => false

/-- The PJSIP call looks at a call or acts on the bridge only. -/
def isBridgeCall : PjsuaCall → Bool
  | .callGetInfo _ | .confConnect .. | .confDisconnect .. => true
  | _ => false

/-- PJSIP grants what `pd_call_set_mute` does on the stream number `k`, where `first` is the number
of its first PJSIP call. -/
def MuteGranted (e : PjsuaAnswers) (first k : Nat) : Prop :=
  e.status first = 0 ∧ e.status (first + 1 + k) = 0

/-- A merge comes to its last four connections. -/
def Merges (e : PjsuaAnswers) (s : Native) (callA callB : Int) : Prop :=
  (s.calls callA).port ≠ noPort ∧ (s.calls callB).port ≠ noPort ∧
    ∀ k < 4, e.status (s.answers + k) = 0

section Calls

variable {e : PjsuaAnswers} {s : Native} {call : PjsuaCall} {calls : List PjsuaCall}

/-- One PJSIP call more. -/
theorem apply_snoc (s : Native) (calls : List PjsuaCall) (call : PjsuaCall) :
    s.apply e (calls ++ [call]) =
      { (if e.status (s.apply e calls).answers = 0 then call.effect e.newCallId (s.apply e calls)
          else s.apply e calls) with
        answers := (s.apply e calls).answers + 1 } := List.foldl_concat _ _ _ _

/-- Each PJSIP call is answered once. -/
@[simp] theorem answers_apply (s : Native) (calls : List PjsuaCall) :
    (s.apply e calls).answers = s.answers + calls.length := by
  induction calls using List.reverseRecOn with
  | nil => rfl
  | append_singleton calls call ih =>
    rw [apply_snoc, List.length_append, List.length_singleton]
    dsimp only
    rw [ih, Nat.add_assoc]

/-- A connection that a PJSIP call makes is the one it asks for. -/
theorem edges_effect {edge : Int × Int} {n : Nat} (h : edge ∈ (call.effect n s).edges) :
    edge ∈ s.edges ∨ call = .confConnect edge.1 edge.2 := by
  cases call with
  | confConnect source sink =>
    rcases Finset.mem_insert.mp h with rfl | h
    · exact .inr rfl
    · exact .inl h
  | confDisconnect source sink => exact .inl (Finset.mem_of_mem_erase h)
  | _ => exact .inl h

/-- No PJSIP call gives a call another stream. -/
theorem slots_effect (n : Nat) (id : Int) :
    ((call.effect n s).calls id).slots ⊆ (s.calls id).slots := by
  have same (j : Int) (f : NativeCall → NativeCall) (hf : ∀ c, (f c).slots ⊆ c.slots) :
      ((s.setCall j f).calls id).slots ⊆ (s.calls id).slots := by
    by_cases hj : id = j
    · rw [hj, setCall_self]
      exact hf _
    · rw [setCall_of_ne hj]
      exact List.Subset.refl _
  cases call with
  | callSetHold j => exact same j (fun c ↦ { c with held := true }) fun c ↦ List.Subset.refl _
  | callMakeCall accId dest =>
    exact same n (fun _ ↦ ⟨true, false, accId, dest, []⟩) fun c ↦ List.nil_subset _
  | callHangup j code =>
    exact same j (fun c ↦ { c with live := false }) fun c ↦ List.Subset.refl _
  | _ => exact List.Subset.refl _

/-- The streams after a number of PJSIP calls. -/
theorem slots_apply (id : Int) : ((s.apply e calls).calls id).slots ⊆ (s.calls id).slots := by
  induction calls using List.reverseRecOn with
  | nil => exact List.Subset.refl _
  | append_singleton calls call ih =>
    rw [apply_snoc]
    dsimp only
    split
    · exact List.Subset.trans (slots_effect _ id) ih
    · exact ih

/-- A new connection was asked for by a PJSIP call that was granted. -/
theorem edges_apply {edge : Int × Int} (h : edge ∈ (s.apply e calls).edges) :
    edge ∈ s.edges ∨ ∃ k, calls[k]? = some (.confConnect edge.1 edge.2) ∧
      e.status (s.answers + k) = 0 := by
  induction calls using List.reverseRecOn with
  | nil => exact .inl h
  | append_singleton calls call ih =>
    have earlier (h : edge ∈ (s.apply e calls).edges) : edge ∈ s.edges ∨
        ∃ k, (calls ++ [call])[k]? = some (.confConnect edge.1 edge.2) ∧
          e.status (s.answers + k) = 0 := by
      rcases ih h with h | ⟨k, hk, hgranted⟩
      · exact .inl h
      · obtain ⟨hlt, -⟩ := List.getElem?_eq_some_iff.mp hk
        exact .inr ⟨k, (List.getElem?_append_left hlt).trans hk, hgranted⟩
    rw [apply_snoc] at h
    dsimp only at h
    split at h
    · next hgranted =>
      rcases edges_effect h with h | rfl
      · exact earlier h
      · refine .inr ⟨calls.length, List.getElem?_concat_length, ?_⟩
        rwa [answers_apply] at hgranted
    · exact earlier h

/-- A connection that was taken back and not asked for is gone. -/
theorem edges_apply_gone {edge : Int × Int} {k : Nat}
    (hk : calls[k]? = some (.confDisconnect edge.1 edge.2))
    (hgranted : e.status (s.answers + k) = 0) (hnone : .confConnect edge.1 edge.2 ∉ calls) :
    edge ∉ (s.apply e calls).edges := by
  induction calls using List.reverseRecOn with
  | nil => cases hk
  | append_singleton calls call ih =>
    simp only [List.mem_append, List.mem_singleton, not_or] at hnone
    obtain ⟨hcalls, hcall⟩ := hnone
    rw [apply_snoc]
    dsimp only
    obtain ⟨hlt, -⟩ := List.getElem?_eq_some_iff.mp hk
    rw [List.length_append, List.length_singleton] at hlt
    rcases Nat.lt_succ_iff_lt_or_eq.mp hlt with hlt | rfl
    · rw [List.getElem?_append_left hlt] at hk
      have hgone := ih hk hcalls
      split
      · intro hmem
        rcases edges_effect hmem with hmem | heq
        · exact hgone hmem
        · exact hcall heq.symm
      · exact hgone
    · rw [List.getElem?_concat_length] at hk
      cases hk
      rw [answers_apply, if_pos hgranted]
      exact Finset.notMem_erase _ _

/-- The calls after PJSIP calls on the bridge. -/
theorem calls_apply (h : ∀ call ∈ calls, isBridgeCall call = true) :
    (s.apply e calls).calls = s.calls := by
  induction calls using List.reverseRecOn with
  | nil => rfl
  | append_singleton calls call ih =>
    obtain ⟨hcalls, hcall⟩ := List.forall_mem_append.mp h
    have heffect (n : Nat) (s : Native) : (call.effect n s).calls = s.calls := by
      have hcall := hcall call (List.mem_singleton_self _)
      cases call <;> first | rfl | cases hcall
    rw [apply_snoc]
    dsimp only
    split
    · rw [heffect, ih hcalls]
    · exact ih hcalls

/-- Nothing is quiet. -/
theorem Quiet.refl (s : Native) : Quiet s s := ⟨fun _ ↦ List.Subset.refl _, fun _ _ _ h ↦ h⟩

/-- Quiet steps one after the other are quiet. -/
theorem Quiet.trans {s' s'' : Native} (h : Quiet s s') (h' : Quiet s' s'') : Quiet s s'' where
  slots id := List.Subset.trans (h'.slots id) (h.slots id)
  mic id slot hslot hmic := h.mic id slot (h'.slots id hslot) (h'.mic id slot hslot hmic)

/-- PJSIP calls that do not connect the microphone are quiet. -/
theorem quiet_apply (h : ∀ call ∈ calls, opensMic call = false) : Quiet s (s.apply e calls) where
  slots _ := slots_apply _
  mic id slot _ hmic := by
    rcases edges_apply hmic with hmic | ⟨k, hk, -⟩
    · exact hmic
    · cases h _ (List.mem_of_getElem? hk)

end Calls

section Operations

variable {e : PjsuaAnswers} {s : Native} {α β : Type}

/-- Returning makes no PJSIP call. -/
theorem driven_pure (a : α) : Driven (pure a : BridgeM α) := fun _ _ ↦ rfl

/-- A PJSIP call does what it does. -/
theorem driven_pjsua (call : PjsuaCall) : Driven (pjsua call) := fun _ _ ↦ rfl

/-- Operations one after the other. -/
theorem Driven.bind {x : BridgeM α} {f : α → BridgeM β} (hx : Driven x) (hf : ∀ a, Driven (f a)) :
    Driven (x >>= f) := by
  intro e s
  rw [Traced.run_bind, hf _ e, hx e s]
  exact (List.foldl_append ..).symm

/-- Looking at the calls and the bridge does nothing. -/
theorem driven_get_bind {f : Native → BridgeM α} (hf : ∀ s, Driven (f s)) :
    Driven (Traced.get >>= f) := by
  intro e s
  rw [Traced.run_bind, Traced.run_get]
  exact hf s e s

/-- PJSIP calls one after the other are what is done. -/
theorem run_pjsuaAll (calls : List PjsuaCall) (e : PjsuaAnswers) (s : Native) :
    (pjsuaAll calls).run e s = ⟨(), s.apply e calls, calls⟩ := by
  induction calls generalizing s with
  | nil => rfl
  | cons call calls ih =>
    unfold pjsuaAll at ih ⊢
    rw [Traced.each, Traced.run_bind, Traced.run_discard, run_pjsua, ih]
    rfl

end Operations

section Mute

variable {e : PjsuaAnswers} {s : Native} {id slot : Int} {k : Nat}

/-- What `pd_call_set_mute` does is what its PJSIP calls do. -/
theorem driven_setMute (id : Int) (mute : Bool) : Driven (pdCallSetMute id mute) := by
  refine (driven_pjsua _).bind fun status ↦ ?_
  split
  · exact driven_pure _
  · refine driven_get_bind fun s ↦ Driven.bind ?_ fun _ ↦ driven_pure _
    intro e s
    rw [run_pjsuaAll]

/-- The PJSIP calls of `pd_call_set_mute`. -/
theorem trace_setMute (mute : Bool) (h : e.status s.answers = 0) :
    ((pdCallSetMute id mute).run e s).trace = .callGetInfo id :: (s.calls id).slots.map fun slot ↦
      if mute then .confDisconnect 0 slot else .confConnect 0 slot := by
  unfold pdCallSetMute
  rw [run_granted h, Traced.run_bind, Traced.run_get, Traced.run_bind, run_pjsuaAll]
  simp [PjsuaCall.effect]

/-- Without the look at the call it makes no other. -/
theorem trace_setMute_refused (mute : Bool) (h : e.status s.answers ≠ 0) :
    ((pdCallSetMute id mute).run e s).trace = [.callGetInfo id] := by
  unfold pdCallSetMute
  rw [run_refused h]

/-- A mute is quiet. -/
theorem quiet_mute : Quiet s ((pdCallSetMute id true).run e s).state := by
  rw [driven_setMute]
  apply quiet_apply
  intro call hcall
  by_cases h : e.status s.answers = 0
  · rw [trace_setMute true h] at hcall
    rcases List.mem_cons.mp hcall with rfl | hcall
    · rfl
    · obtain ⟨slot, -, rfl⟩ := List.mem_map.mp hcall
      rfl
  · rw [trace_setMute_refused true h, List.mem_singleton] at hcall
    rw [hcall]
    rfl

/-- A mute that is granted disconnects the microphone. -/
theorem mute_closes (hslot : (s.calls id).slots[k]? = some slot)
    (h : MuteGranted e s.answers k) :
    (0, slot) ∉ ((pdCallSetMute id true).run e s).state.edges := by
  obtain ⟨hinfo, hgranted⟩ := h
  rw [driven_setMute, trace_setMute true hinfo]
  apply edges_apply_gone (k := k + 1)
  · rw [List.getElem?_cons_succ, List.getElem?_map, hslot]
    rfl
  · rwa [Nat.add_comm k 1, ← Nat.add_assoc]
  · simp

/-- An unmute connects the microphone with the streams for which it is granted. -/
theorem mic_unmute (h : (0, slot) ∈ ((pdCallSetMute id false).run e s).state.edges) :
    (0, slot) ∈ s.edges ∨
      ∃ k : Nat, (s.calls id).slots[k]? = some slot ∧ MuteGranted e s.answers k := by
  rw [driven_setMute] at h
  rcases edges_apply h with h | ⟨j, hj, hgranted⟩
  · exact .inl h
  · by_cases hinfo : e.status s.answers = 0
    · rw [trace_setMute false hinfo] at hj
      cases j with
      | zero => cases hj
      | succ k =>
        rw [List.getElem?_cons_succ, List.getElem?_map, Option.map_eq_some_iff] at hj
        obtain ⟨slot', hk, heq⟩ := hj
        cases heq
        refine .inr ⟨k, hk, hinfo, ?_⟩
        rwa [Nat.add_comm k 1, ← Nat.add_assoc] at hgranted
    · rw [trace_setMute_refused false hinfo] at hj
      cases j with
      | zero => cases hj
      | succ k => cases hj

end Mute

section Media

variable {e : PjsuaAnswers} {s : Native} {id slot : Int}

/-- Without the look at the call `on_call_media_state` does nothing. -/
theorem run_mediaState_refused (h : e.status s.answers ≠ 0) :
    (onCallMediaState id).run e s =
      ⟨none, { s with answers := s.answers + 1 }, [.callGetInfo id]⟩ := by
  unfold onCallMediaState
  rw [Traced.run_bind, run_pjsua]
  dsimp only
  rw [if_pos h, if_neg h]
  rfl

/-- The PJSIP calls of `on_call_media_state`. -/
def mediaCalls (s : Native) (id : Int) : List PjsuaCall :=
  .callGetInfo id :: (s.calls id).slots.flatMap fun slot ↦
    [.confConnect slot 0, .confConnect 0 slot]

/-- With it, `on_call_media_state` connects the streams and goes on to the engine. -/
theorem run_mediaState (h : e.status s.answers = 0) :
    (onCallMediaState id).run e s =
      ⟨some (if (s.calls id).slots = [] then 0 else 1), s.apply e (mediaCalls s id),
        mediaCalls s id⟩ := by
  have happly (calls : List PjsuaCall) : s.apply e (.callGetInfo id :: calls) =
      Native.apply e { s with answers := s.answers + 1 } calls := by
    rw [Native.apply, List.foldl_cons, if_pos h]
    rfl
  unfold onCallMediaState
  rw [Traced.run_bind, run_pjsua]
  dsimp only
  rw [if_pos h, if_neg (not_not_intro h), Traced.run_bind, Traced.run_get]
  dsimp only
  rw [Traced.run_bind, run_pjsuaAll, mediaCalls, happly, Traced.run_pure, List.append_nil]
  rfl

/-- Where `on_call_media_state` connects the microphone. -/
theorem mediaCalls_mic {slots : List Int} {j : Nat} (hne : slot ≠ 0)
    (h : (slots.flatMap fun slot ↦ [PjsuaCall.confConnect slot 0, .confConnect 0 slot])[j]? =
      some (.confConnect 0 slot)) : ∃ k, slots[k]? = some slot ∧ j = 2 * k + 1 := by
  induction slots generalizing j with
  | nil => cases h
  | cons slot' slots ih =>
    rw [List.flatMap_cons] at h
    match j, h with
    | 0, h =>
      cases h
      exact absurd rfl hne
    | 1, h =>
      cases h
      exact ⟨0, rfl, rfl⟩
    | j + 2, h =>
      obtain ⟨k, hk, rfl⟩ := ih h
      exact ⟨k + 1, hk, by omega⟩

/-- `on_call_media_state` connects the microphone with the streams for which it is granted. -/
theorem mic_mediaState (hne : slot ≠ 0)
    (h : (0, slot) ∈ (s.apply e (mediaCalls s id)).edges) :
    (0, slot) ∈ s.edges ∨
      ∃ k : Nat, (s.calls id).slots[k]? = some slot ∧ e.status (s.answers + 2 + 2 * k) = 0 := by
  rcases edges_apply h with h | ⟨j, hj, hgranted⟩
  · exact .inl h
  · cases j with
    | zero => cases hj
    | succ j =>
      obtain ⟨k, hk, rfl⟩ := mediaCalls_mic hne hj
      refine .inr ⟨k, hk, ?_⟩
      rwa [show s.answers + (2 * k + 1 + 1) = s.answers + 2 + 2 * k by omega] at hgranted

/-- `on_call_media_state` leaves the calls. -/
theorem calls_mediaState : (s.apply e (mediaCalls s id)).calls = s.calls := by
  apply calls_apply
  rw [mediaCalls, List.forall_mem_cons]
  refine ⟨rfl, fun call hcall ↦ ?_⟩
  obtain ⟨slot, -, hcall⟩ := List.mem_flatMap.mp hcall
  simp only [List.mem_cons, List.not_mem_nil, or_false] at hcall
  rcases hcall with rfl | rfl <;> rfl

/-- The number of the PJSIP call that comes next. -/
theorem answers_mediaState : (s.apply e (mediaCalls s id)).answers =
    s.answers + 1 + 2 * (s.calls id).slots.length := by
  have hlength (slots : List Int) : (slots.flatMap fun slot ↦
      [PjsuaCall.confConnect slot 0, .confConnect 0 slot]).length = 2 * slots.length := by
    simp [List.length_flatMap, Nat.mul_comm]
  rw [answers_apply, mediaCalls, List.length_cons, hlength]
  omega

end Media

section Pairs

variable {e : PjsuaAnswers} {s : Native} {callA callB slot : Int}

/-- A port of a call is one of an active audio stream. -/
theorem port_mem_slots {call : NativeCall} (h : call.port ≠ noPort) : call.port ∈ call.slots := by
  unfold NativeCall.port at h ⊢
  cases hfind : call.media.find? fun m ↦ m.audio && m.active with
  | none =>
    rw [hfind] at h
    exact absurd rfl h
  | some m =>
    have hactive : (m.audio && m.active) = true :=
      List.find?_some (p := fun m : MediaStream ↦ m.audio && m.active) hfind
    exact List.mem_map_of_mem (List.mem_filter.mpr ⟨List.mem_of_find?_eq_some hfind, hactive⟩)

/-- What a merge does is what its PJSIP calls do. -/
theorem driven_merge (callA callB : Int) : Driven (pdCallMergeConference callA callB) := by
  have stop : Driven (pure (-1) : BridgeM Int) := driven_pure _
  have one (call : PjsuaCall) : Driven (discard <| pjsua call : BridgeM Unit) := by
    intro e s
    rw [Traced.run_discard]
    exact driven_pjsua call e s
  unfold pdCallMergeConference mergePorts monitor
  refine (driven_pjsua _).bind fun status ↦ ?_
  split
  · exact stop
  refine (driven_pjsua _).bind fun status ↦ ?_
  split
  · exact stop
  refine driven_get_bind fun s ↦ ?_
  split
  · exact stop
  refine (driven_pjsua _).bind fun status ↦ ?_
  split
  · exact stop
  refine (driven_pjsua _).bind fun status ↦ ?_
  split
  · exact (one _).bind fun _ ↦ stop
  · refine Driven.bind ?_ fun _ ↦ driven_pure _
    exact (one _).bind fun _ ↦ (one _).bind fun _ ↦ (one _).bind fun _ ↦ one _

/-- The PJSIP calls of a merge that comes to its last four connections. -/
theorem trace_merge (h : Merges e s callA callB) :
    let portA := (s.calls callA).port
    let portB := (s.calls callB).port
    ((pdCallMergeConference callA callB).run e s).trace =
      [.callGetInfo callA, .callGetInfo callB, .confConnect portA portB,
        .confConnect portB portA, .confConnect portA 0, .confConnect 0 portA,
        .confConnect portB 0, .confConnect 0 portB] := by
  obtain ⟨hA, hB, hgranted⟩ := h
  have h0 : e.status s.answers = 0 := hgranted 0 (by omega)
  have h1 : e.status (s.answers + 1) = 0 := hgranted 1 (by omega)
  have h2 : e.status (s.answers + 1 + 1) = 0 := hgranted 2 (by omega)
  have h3 : e.status (s.answers + 1 + 1 + 1) = 0 := hgranted 3 (by omega)
  unfold pdCallMergeConference
  rw [run_granted h0, run_granted h1]
  simp [mergePorts, monitor, PjsuaCall.effect, run_pjsua, hA, hB, h2, h3]

/-- A merge that does not come so far does not connect the microphone. -/
theorem trace_merge_short (hA : (s.calls callA).port ≠ 0) (hB : (s.calls callB).port ≠ 0)
    (h : ¬Merges e s callA callB) :
    ∀ call ∈ ((pdCallMergeConference callA callB).run e s).trace, opensMic call = false := by
  unfold pdCallMergeConference
  by_cases h0 : e.status s.answers = 0
  swap
  · rw [run_refused h0]
    simp [opensMic]
  rw [run_granted h0]
  by_cases h1 : e.status (s.answers + 1) = 0
  swap
  · rw [run_refused h1]
    simp [opensMic]
  rw [run_granted h1]
  by_cases hports : (s.calls callA).port = noPort ∨ (s.calls callB).port = noPort
  · simp [mergePorts, PjsuaCall.effect, hports, opensMic]
  have hports' := not_or.mp hports
  by_cases h2 : e.status (s.answers + 1 + 1) = 0
  · by_cases h3 : e.status (s.answers + 1 + 1 + 1) = 0
    · refine absurd ⟨hports'.1, hports'.2, fun k hk ↦ ?_⟩ h
      obtain rfl | rfl | rfl | rfl : k = 0 ∨ k = 1 ∨ k = 2 ∨ k = 3 := by omega
      · exact h0
      · exact h1
      · exact h2
      · exact h3
    · simp [mergePorts, PjsuaCall.effect, run_pjsua, hports, h2, h3, opensMic, hA, hB]
  · simp [mergePorts, PjsuaCall.effect, run_pjsua, hports, h2, opensMic, hA]

/-- A merge connects the microphone with the two ports, where that is granted. -/
theorem mic_merge (hA : (s.calls callA).port ≠ 0) (hB : (s.calls callB).port ≠ 0)
    (h : (0, slot) ∈ ((pdCallMergeConference callA callB).run e s).state.edges) :
    (0, slot) ∈ s.edges ∨ Merges e s callA callB ∧
      (slot = (s.calls callA).port ∧ e.status (s.answers + 5) = 0 ∨
        slot = (s.calls callB).port ∧ e.status (s.answers + 7) = 0) := by
  rw [driven_merge] at h
  rcases edges_apply h with h | ⟨k, hk, hgranted⟩
  · exact .inl h
  · by_cases hmerges : Merges e s callA callB
    · refine .inr ⟨hmerges, ?_⟩
      rw [trace_merge hmerges] at hk
      match k, hk with
      | 0, hk | 1, hk => cases hk
      | 2, hk => exact absurd (PjsuaCall.confConnect.inj (Option.some.inj hk)).1 hA
      | 3, hk => exact absurd (PjsuaCall.confConnect.inj (Option.some.inj hk)).1 hB
      | 4, hk => exact absurd (PjsuaCall.confConnect.inj (Option.some.inj hk)).1 hA
      | 5, hk => exact .inl ⟨(PjsuaCall.confConnect.inj (Option.some.inj hk)).2.symm, hgranted⟩
      | 6, hk => exact absurd (PjsuaCall.confConnect.inj (Option.some.inj hk)).1 hB
      | 7, hk => exact .inr ⟨(PjsuaCall.confConnect.inj (Option.some.inj hk)).2.symm, hgranted⟩
      | k + 8, hk => cases hk
    · have hopens := trace_merge_short hA hB hmerges _ (List.mem_of_getElem? hk)
      cases hopens

end Pairs

section Others

/-- The PJSIP calls of an operation do not connect the microphone. -/
abbrev ShutsMic {α : Type} (x : BridgeM α) : Prop :=
  Driven x ∧ ∀ e s, ∀ call ∈ (x.run e s).trace, opensMic call = false

variable {e : PjsuaAnswers} {s : Native} {α β : Type}

/-- Such an operation is quiet. -/
theorem ShutsMic.quiet {x : BridgeM α} (h : ShutsMic x) (e : PjsuaAnswers) (s : Native) :
    Quiet s (x.run e s).state := by
  rw [h.1 e s]
  exact quiet_apply (h.2 e s)

/-- Returning makes no PJSIP call. -/
theorem shutsMic_pure (a : α) : ShutsMic (pure a : BridgeM α) :=
  ⟨driven_pure a, fun _ _ ↦ List.forall_mem_nil _⟩

/-- A PJSIP call that does not connect the microphone. -/
theorem shutsMic_pjsua {call : PjsuaCall} (h : opensMic call = false) : ShutsMic (pjsua call) :=
  ⟨driven_pjsua call, fun _ _ ↦ List.forall_mem_singleton.mpr h⟩

/-- Operations one after the other. -/
theorem ShutsMic.bind {x : BridgeM α} {f : α → BridgeM β} (hx : ShutsMic x)
    (hf : ∀ a, ShutsMic (f a)) : ShutsMic (x >>= f) := by
  refine ⟨hx.1.bind fun a ↦ (hf a).1, fun e s ↦ ?_⟩
  rw [Traced.run_bind]
  exact List.forall_mem_append.mpr ⟨hx.2 e s, (hf _).2 e _⟩

/-- Looking at the calls and the bridge. -/
theorem shutsMic_get_bind {f : Native → BridgeM α} (hf : ∀ s, ShutsMic (f s)) :
    ShutsMic (Traced.get >>= f) :=
  ⟨driven_get_bind fun s ↦ (hf s).1, fun e s ↦ (hf s).2 e s⟩

/-- Looking at what PJSIP answers. -/
theorem shutsMic_ask_bind {f : PjsuaAnswers → BridgeM α} (hf : ∀ e, ShutsMic (f e)) :
    ShutsMic (Traced.ask >>= f) :=
  ⟨fun e s ↦ (hf e).1 e s, fun e s ↦ (hf e).2 e s⟩

/-- A PJSIP call whose answer is ignored. -/
theorem shutsMic_discard {call : PjsuaCall} (h : opensMic call = false) :
    ShutsMic (discard <| pjsua call : BridgeM Unit) :=
  (shutsMic_pjsua h).bind fun _ ↦ shutsMic_pure ()

/-- A new call. -/
theorem shutsMic_make (mediaReady accId : Int) (dstUri : List UInt8) :
    ShutsMic (pdCallMake mediaReady accId dstUri) := by
  unfold pdCallMake
  split
  · exact shutsMic_pure _
  · refine (shutsMic_pjsua rfl).bind fun first ↦ ShutsMic.bind ?_ fun status ↦ ?_
    · unfold retryCall
      split
      · exact shutsMic_pjsua rfl
      · exact shutsMic_pure first
    · split
      · exact shutsMic_pure _
      · exact shutsMic_ask_bind fun _ ↦ shutsMic_pure _

/-- A blind transfer. -/
theorem shutsMic_transfer (callId : Int) (destUri : List UInt8) :
    ShutsMic (pdCallTransfer callId destUri) := by
  unfold pdCallTransfer
  split
  · exact shutsMic_pure _
  · exact shutsMic_pjsua rfl

/-- A consultation call. -/
theorem shutsMic_startAttendedXfer (callId : Int) (destUri : Option (List UInt8)) :
    ShutsMic (pdCallStartAttendedXfer callId destUri) := by
  unfold pdCallStartAttendedXfer
  split
  · exact shutsMic_pure _
  · exact shutsMic_pure _
  · refine (shutsMic_discard rfl).bind fun _ ↦ (shutsMic_pjsua rfl).bind fun info ↦ ?_
    split
    · exact shutsMic_pure _
    · refine shutsMic_get_bind fun s ↦ (shutsMic_pjsua rfl).bind fun status ↦ ?_
      split
      · exact shutsMic_pure _
      · exact shutsMic_ask_bind fun _ ↦ shutsMic_pure _

/-- The transfer that completes it. -/
theorem shutsMic_completeXfer (callA callB : Int) : ShutsMic (pdCallCompleteXfer callA callB) := by
  unfold pdCallCompleteXfer
  refine (shutsMic_pjsua rfl).bind fun info ↦ ?_
  split
  · exact shutsMic_pure _
  · refine shutsMic_get_bind fun s ↦ (shutsMic_pjsua rfl).bind fun status ↦ ?_
    exact (shutsMic_discard rfl).bind fun _ ↦ shutsMic_pure _

end Others

end PacketDial.Shim
