import PacketDial.System.Edits

/-!
# The life of a call

What the two call tables keep through a run. The id map never points to a record that has
ended, as long as hold commands leave ended calls alone; it misses no live record, as long as
the engine is only shut down without calls. Both conditions are needed: see the runs below.
-/

namespace PacketDial.System

open PacketDial.Core PacketDial.Lib

/-- The PJSIP id that a record stands for while it is live. -/
def liveId (call : Call) : Option Int := if call.state = .ended then none else call.pjsipCallId

namespace CallTables

/-- Where a PJSIP id is routed. -/
def route (T : CallTables) (pjCallId : Int) : Option UInt32 := T.callMap.lookup pjCallId

/-- The PJSIP id that the record with an id claims. -/
def owner (T : CallTables) (id : UInt32) : Option Int := (T.calls.lookup id).bind liveId

/-- A record claims a PJSIP id when it is live and has it. -/
theorem owner_eq_some {T : CallTables} {id : UInt32} {pjCallId : Int} :
    T.owner id = some pjCallId ↔
      ∃ call, T.calls.lookup id = some call ∧ call.state ≠ .ended ∧
        call.pjsipCallId = some pjCallId := by
  unfold owner liveId
  rw [Option.bind_eq_some_iff]
  simp only [Option.ite_none_left_eq_some]

/-- Writing a record changes what it claims. -/
theorem owner_setCall (T : CallTables) (id : UInt32) (call : Call) :
    (T.setCall id call).owner = Function.update T.owner id (liveId call) := by
  funext id'
  unfold owner
  by_cases h : id' = id
  · subst h
    rw [lookup_setCall, Function.update_self]
    rfl
  · rw [lookup_setCall_ne T h, Function.update_of_ne h]

/-- Writing a record that claims what it claimed before. -/
theorem owner_setCall_of_eq {T : CallTables} {id : UInt32} {old new : Call}
    (hl : T.calls.lookup id = some old) (h : liveId new = liveId old) :
    (T.setCall id new).owner = T.owner := by
  rw [owner_setCall, h]
  apply Function.update_eq_self_iff.mpr
  unfold owner
  rw [hl]
  rfl

/-- Forgetting a PJSIP id. -/
theorem route_unmap (T : CallTables) (pjCallId : Int) :
    (T.unmap pjCallId .ended).route = Function.update T.route pjCallId none :=
  lookup_erase_eq pjCallId T.callMap

/-- Forgetting a PJSIP id leaves the records. -/
@[simp] theorem owner_unmap (T : CallTables) (pjCallId : Int) (newState : CallState) :
    (T.unmap pjCallId newState).owner = T.owner := by
  funext id
  unfold owner
  rw [unmap_calls]

/-- Entering a call routes its PJSIP id. -/
theorem route_track (T : CallTables) (call : Call) (pjCallId : Int) :
    (T.track call pjCallId).route = Function.update T.route pjCallId (some call.id) :=
  lookup_insert_eq pjCallId call.id T.callMap

/-- Entering a call makes its record claim its PJSIP id. -/
theorem owner_track (T : CallTables) (call : Call) (pjCallId : Int) :
    (T.track call pjCallId).owner = Function.update T.owner call.id (liveId call) :=
  owner_setCall T call.id call

end CallTables

/-- Records in live states with the same PJSIP id claim the same. -/
theorem liveId_eq_of_live {old new : Call} (hpj : new.pjsipCallId = old.pjsipCallId)
    (hold : old.state ≠ .ended) (hnew : new.state ≠ .ended) : liveId new = liveId old := by
  unfold liveId
  rw [if_neg hold, if_neg hnew, hpj]

/-- A `CallHold` of the input does not name an ended call. -/
def HoldsLive (s : Engine) (i : Input) : Prop :=
  ∀ id ∈ holdTarget i s, ∀ call ∈ s.calls.lookup id, call.state ≠ .ended

/-- A call that the input creates overwrites no live record: the id counter has not come round
to one. -/
def OpensOverEnded (s : Engine) (i : Input) : Prop :=
  opensCall i s → ∀ call ∈ s.calls.lookup s.nextCallId, call.state = .ended

/-- A call that the input creates overwrites no record. -/
def OpensFresh (s : Engine) (i : Input) : Prop :=
  opensCall i s → s.calls.lookup s.nextCallId = none

/-- The engine is shut down only after all calls have ended. -/
def IdleShutdown (s : Engine) (i : Input) : Prop :=
  isShutdown i.op = true → s.initialized = true →
    ∀ call ∈ s.calls.entries.map Sigma.snd, call.state = .ended

instance (s : Engine) (i : Input) : Decidable (HoldsLive s i) :=
  Option.decidableForallMem (holdTarget i s)

instance (s : Engine) (i : Input) : Decidable (OpensOverEnded s i) :=
  inferInstanceAs (Decidable (opensCall i s → ∀ call ∈ _, _))

instance (s : Engine) (i : Input) : Decidable (OpensFresh s i) :=
  inferInstanceAs (Decidable (opensCall i s → _ = none))

instance (s : Engine) (i : Input) : Decidable (IdleShutdown s i) :=
  inferInstanceAs (Decidable (_ → _ → ∀ call ∈ _, _))

section Edits

variable {i : Input} {s : Engine} {ids : List Int} {T T' : CallTables}

/-- A record that a callback finds through the id map is live. -/
theorem live_of_route (h : Sound T.route T.owner) {pjCallId : Int} {id : UInt32} {call : Call}
    (hmap : T.callMap.lookup pjCallId = some id) (hl : T.calls.lookup id = some call) :
    call.state ≠ .ended := by
  obtain ⟨call', hl', hlive, -⟩ := CallTables.owner_eq_some.mp (h _ _ hmap)
  rw [hl] at hl'
  cases hl'
  exact hlive

/-- What an edit does to the routes and the owners. -/
inductive RouteEdit (i : Input) (s : Engine) (ids : List Int) (T T' : CallTables) : Prop where
  | same (hroute : T'.route = T.route) (howner : T'.owner = T.owner)
  | connect {pjCallId : Int} {id : UInt32} (hT : T = tables s) (hmem : pjCallId ∈ ids)
      (hfree : T.owner id = none)
      (hroute : T'.route = Function.update T.route pjCallId (some id))
      (howner : T'.owner = Function.update T.owner id (some pjCallId))
  | disconnect {pjCallId : Int} {id : UInt32} (hmap : T.route pjCallId = some id)
      (hroute : T'.route = Function.update T.route pjCallId none)
      (howner : T'.owner = Function.update T.owner id none)
  | clear (hT : T = tables s) (hop : isShutdown i.op = true) (hinit : s.initialized = true)
      (hroute : T'.route = fun _ ↦ none) (howner : T'.owner = T.owner)

/-- The record that a new call overwrites claims nothing. -/
theorem owner_nextCallId (hopen : OpensOverEnded s i) (hop : opensCall i s) :
    (tables s).owner (tables s).nextCallId = none := by
  unfold CallTables.owner
  cases hl : (tables s).calls.lookup (tables s).nextCallId with
  | none => rfl
  | some old =>
    unfold liveId
    rw [Option.bind_some, if_pos (hopen hop old hl)]

/-- Where routes are sound, an edit keeps routes and owners in step. -/
theorem routeEdit (hhold : HoldsLive s i) (hopen : OpensOverEnded s i)
    (h : Sound T.route T.owner) (he : Edit i s ids T T') : RouteEdit i s ids T T' := by
  cases he with
  | burn => exact .same rfl rfl
  | @enter call pjCallId hop hmem hid hpj hstate =>
    have hlive : liveId call = some pjCallId := by
      unfold liveId
      rw [hstate, if_neg (by decide), hpj]
    refine .connect rfl hmem (?_ : (tables s).owner call.id = none)
      (CallTables.route_track _ _ _) ?_
    · rw [hid]
      exact owner_nextCallId hopen hop
    · rw [CallTables.owner_track, hlive]
  | @amend _ id old new hl _ hpj hstate =>
    have hsame : liveId new = liveId old := by
      unfold liveId
      rw [hpj, hstate]
    exact .same rfl (CallTables.owner_setCall_of_eq hl hsame)
  | hold htarget hl _ hpj hstate =>
    have hlive := hhold _ htarget _ hl
    exact .same rfl (CallTables.owner_setCall_of_eq hl (liveId_eq_of_live hpj hlive hstate))
  | progress hmap hl _ hpj hstate =>
    have hlive := live_of_route h hmap hl
    exact .same rfl (CallTables.owner_setCall_of_eq hl (liveId_eq_of_live hpj hlive hstate))
  | @finish _ pjCallId id old new hmap hl _ _ hstate =>
    have hdead : liveId new = none := by
      unfold liveId
      rw [if_pos hstate]
    refine .disconnect hmap (CallTables.route_unmap T pjCallId) ?_
    rw [CallTables.owner_setCall, CallTables.owner_unmap, hdead]
  | @forget _ pjCallId hmap =>
    have hnone : T.route pjCallId = none := by
      cases hroute : T.route pjCallId with
      | none => rfl
      | some id =>
        obtain ⟨call, hl, -⟩ := CallTables.owner_eq_some.mp (h _ _ hroute)
        rw [hmap id hroute] at hl
        cases hl
    refine .same ?_ (CallTables.owner_unmap _ _ _)
    rw [CallTables.route_unmap, ← hnone, Function.update_eq_self]
  | clear hop hinit => exact .clear rfl hop hinit rfl rfl

/-- Every edit keeps the id map off the ended records. -/
theorem sound_edit (hhold : HoldsLive s i) (hopen : OpensOverEnded s i)
    (h : Sound T.route T.owner) (he : Edit i s ids T T') : Sound T'.route T'.owner := by
  cases routeEdit hhold hopen h he with
  | same hroute howner =>
    rw [hroute, howner]
    exact h
  | connect _ _ hfree hroute howner =>
    rw [hroute, howner]
    exact h.connect hfree _
  | disconnect hmap hroute howner =>
    rw [hroute, howner]
    exact h.disconnect hmap
  | clear _ _ _ hroute howner =>
    rw [hroute]
    exact Sound.clear _

/-- After an idle shutdown nothing is claimed. -/
theorem owner_of_idle (hidle : IdleShutdown s i) (hop : isShutdown i.op = true)
    (hinit : s.initialized = true) (id : UInt32) : (tables s).owner id = none := by
  unfold CallTables.owner
  cases hl : (tables s).calls.lookup id with
  | none => rfl
  | some call =>
    have hmem : call ∈ s.calls.entries.map Sigma.snd :=
      List.mem_map_of_mem (AList.mem_lookup_iff.mp hl)
    unfold liveId
    rw [Option.bind_some, if_pos (hidle hop hinit call hmem)]

/-- Every edit keeps the live records routed, if the PJSIP ids it brings in are new. -/
theorem complete_edit (hhold : HoldsLive s i) (hopen : OpensOverEnded s i)
    (hidle : IdleShutdown s i) (hfresh : ∀ pjCallId ∈ ids, (tables s).route pjCallId = none)
    (hs : Sound T.route T.owner) (h : Complete T.route T.owner) (he : Edit i s ids T T') :
    Complete T'.route T'.owner := by
  cases routeEdit hhold hopen hs he with
  | same hroute howner =>
    rw [hroute, howner]
    exact h
  | connect hT hmem _ hroute howner =>
    rw [hroute, howner]
    apply h.connect
    rw [hT]
    exact hfresh _ hmem
  | disconnect hmap hroute howner =>
    rw [hroute, howner]
    exact h.disconnect hmap
  | clear hT hop hinit hroute howner =>
    rw [hroute, howner, hT]
    exact Complete.clear (owner_of_idle hidle hop hinit)

end Edits

/-- An operation shuts PJSIP down neither for a call nor for its recording. -/
theorem not_shutdown_of_commandOps {e : Env} {T : CallTables} {cmd : String} {p : Json} :
    .pdShutdown ∉ commandOps e T cmd p := by
  intro h
  obtain ⟨_, _, _, -, -, -, hop⟩ := mem_commandOps.mp h
  cases opTarget_of_commandOp hop

/-- Operations other than a shutdown are no shutdown. -/
theorem any_isShutdownAct_map {ops : List ShimCall} (h : .pdShutdown ∉ ops) :
    (ops.map CallAct.op).any isShutdownAct = false := by
  rw [List.any_eq_false]
  intro a ha
  obtain ⟨op, hop, rfl⟩ := List.mem_map.mp ha
  cases op <;> first | exact Bool.false_ne_true | exact absurd hop h

/-- A report is no shutdown. -/
theorem IsReport.not_shutdown {call : Call} {act : CallAct} (h : IsReport call act) :
    isShutdownAct act = false := by
  obtain ⟨_, _, _, rfl⟩ := h
  rfl

section Mapped

variable {i : Input} {s : Engine} {acts : List CallAct} {T : CallTables} {used : List Int}

/-- A state callback that the engine knows. -/
def isStateOp : Op → Bool
  | .onCallState _ invState => (invCallState invState).isSome
  | _ => false

/-- An input other than a state callback keeps the ids in use unless it shuts PJSIP down. -/
theorem keptIds_eq (hop : isStateOp i.op = false) (hacts : acts.any isShutdownAct = false) :
    keptIds i.op acts used = used := by
  unfold keptIds
  rw [hacts, if_neg Bool.false_ne_true]
  split
  · next pjCallId invState h =>
    rw [h] at hop
    split
    · next hinv =>
      subst hinv
      cases hop
    · rfl
  · rfl

/-- A command comes from no state callback. -/
theorem isStateOp_of_commandOf {c : String × Json} (h : commandOf i s = some c) :
    isStateOp i.op = false := by
  unfold commandOf at h
  cases hop : i.op with
  | onCallState pjCallId invState =>
    rw [hop] at h
    cases h
  | _ => rfl

/-- A command does not shut PJSIP down. -/
theorem CommandChange.not_shutdown {e : Env} {cmd : String} {p : Json} {T T' : CallTables}
    (h : CommandChange e cmd p T acts T') : acts.any isShutdownAct = false := by
  have ops : ((commandOps e T cmd p).map CallAct.op).any isShutdownAct = false :=
    any_isShutdownAct_map not_shutdown_of_commandOps
  cases h with
  | idle _ => exact ops
  | burn _ hacts =>
    rcases hacts with rfl | ⟨_, _, rfl, _⟩ <;> rfl
  | track _ _ hr =>
    simp only [List.any_cons, List.any_nil, hr.not_shutdown]
    rfl
  | mute _ _ _ hr => rw [List.any_cons, hr.not_shutdown, ops, Bool.or_false]
  | hold _ _ _ hr => rw [List.any_cons, hr.not_shutdown, ops, Bool.or_false]
  | record => exact ops

/-- The shim operation of a recording function is no shutdown. -/
theorem not_shutdown_of_recording {e : Env} {call : Call} {pjId : Int} (path : String) :
    startRecordingOp e call pjId path ≠ some .pdShutdown ∧
      stopRecordingOp e call pjId ≠ some .pdShutdown := by
  constructor
  · unfold startRecordingOp
    split
    · simp
    · exact (Option.some_ne_none _).symm
  · unfold stopRecordingOp
    split
    · simp
    · exact (Option.some_ne_none _).symm

/-- A recording function leaves the routes. -/
theorem route_of_recording {id : UInt32} {T T' : CallTables} (h : RecordingChange id T T') :
    T'.route = T.route := by
  rcases h with rfl | ⟨old, new, -, -, rfl⟩ <;> rfl

/-- Stopping a recording does not shut PJSIP down. -/
theorem StopChange.not_shutdown {e : Env} {id : UInt32} {T T' : CallTables}
    (h : StopChange e id T acts T') : acts.any isShutdownAct = false := by
  obtain ⟨⟨ops, rfl, hops⟩, -⟩ := h
  apply any_isShutdownAct_map
  intro hmem
  obtain ⟨call, pjId, -, -, hop⟩ := hops _ hmem
  exact (not_shutdown_of_recording "").2 hop

/-- A state callback does not shut PJSIP down. -/
theorem StateChange.not_shutdown {e : Env} {pjCallId : Int} {newState : CallState}
    {T T' : CallTables} (h : StateChange e pjCallId newState T acts T') :
    acts.any isShutdownAct = false := by
  cases h with
  | unrouted => rfl
  | routed _ _ hr hstop _ =>
    rw [List.any_cons, hr.not_shutdown, hstop.not_shutdown, Bool.or_false]

/-- The routes after a state callback. -/
theorem StateChange.route_eq {e : Env} {pjCallId : Int} {newState : CallState}
    {T T' : CallTables} (h : StateChange e pjCallId newState T acts T') :
    T'.route = (T.unmap pjCallId newState).route := by
  cases h with
  | unrouted => rfl
  | routed _ _ _ hstop _ =>
    rw [route_of_recording hstop.2]
    rfl

/-- A media callback does not shut PJSIP down and leaves the routes. -/
theorem MediaChange.frame {pjCallId active : Int} {T T' : CallTables}
    (h : MediaChange pjCallId active T acts T') :
    acts.any isShutdownAct = false ∧ T'.route = T.route := by
  cases h with
  | unrouted => exact ⟨rfl, rfl⟩
  | @routed _ old _ _ _ _ hr =>
    refine ⟨?_, rfl⟩
    have hops : ShimCall.pdShutdown ∉ mediaOps pjCallId active old := by
      unfold mediaOps
      split
      · cases old.muted <;> cases old.onHold <;> simp
      · exact List.not_mem_nil
    rw [List.any_append, any_isShutdownAct_map hops, List.any_cons, hr.not_shutdown]
    rfl

/-- A command routes at most the id that PJSIP gave its call. -/
theorem CommandChange.route_or {cmd : String} {p : Json} {T T' : CallTables}
    (h : CommandChange i.env cmd p T acts T') {pjCallId : Int} {id : UInt32}
    (hroute : T'.route pjCallId = some id) :
    pjCallId ∈ broughtIds i acts ∨ T.route pjCallId = some id := by
  cases h with
  | @track accId dst _ _ _ _ hpos _ =>
    rw [CallTables.route_track] at hroute
    by_cases heq : pjCallId = i.env.rc (.pdCallMake accId dst)
    · left
      simp [broughtIds, newPjIds, hpos, heq]
    · rw [Function.update_of_ne heq] at hroute
      exact Or.inr hroute
  | _ => exact Or.inr hroute

/-- The ids that are routed after a step are in use after it. -/
theorem mapped_of_change (h : Change i s acts T)
    (hused : ∀ pjCallId id, (tables s).route pjCallId = some id → pjCallId ∈ used)
    {pjCallId : Int} {id : UInt32} (hroute : T.route pjCallId = some id) :
    pjCallId ∈ broughtIds i acts ++ keptIds i.op acts used := by
  rw [List.mem_append]
  have keep (hop : isStateOp i.op = false) (hacts : acts.any isShutdownAct = false)
      (hold : (tables s).route pjCallId = some id) :
      pjCallId ∈ broughtIds i acts ∨ pjCallId ∈ keptIds i.op acts used := by
    right
    rw [keptIds_eq hop hacts]
    exact hused _ _ hold
  -- A call entered under an id of its own; every other id was routed before.
  have enter (call : Call) (newId : Int) (hT : T = (tables s).track call newId)
      (hop : isStateOp i.op = false) (hacts : acts.any isShutdownAct = false)
      (hnew : newId ∈ broughtIds i acts) :
      pjCallId ∈ broughtIds i acts ∨ pjCallId ∈ keptIds i.op acts used := by
    rw [hT, CallTables.route_track] at hroute
    by_cases heq : pjCallId = newId
    · rw [heq]
      exact Or.inl hnew
    · rw [Function.update_of_ne heq] at hroute
      exact keep hop hacts hroute
  cases h with
  | quiet hop _ =>
    refine keep ?_ rfl hroute
    cases hi : i.op with
    | onCallState pjCallId invState =>
      rw [hi] at hop
      exact hop
    | _ => rfl
  | command hcmd h =>
    rcases h.route_or hroute with hmem | hold
    · exact Or.inl hmem
    · exact keep (isStateOp_of_commandOf hcmd) h.not_shutdown hold
  | startRecording hop _ hT =>
    rw [route_of_recording hT] at hroute
    refine keep (by rw [hop]; rfl) (any_isShutdownAct_map fun hmem ↦ ?_) hroute
    obtain ⟨call, -, hmem⟩ := Option.bind_eq_some_iff.mp (Option.mem_toList.mp hmem)
    obtain ⟨pjId, -, hmem⟩ := Option.bind_eq_some_iff.mp hmem
    exact (not_shutdown_of_recording _).1 hmem
  | stopRecording hop _ hT =>
    rw [route_of_recording hT] at hroute
    refine keep (by rw [hop]; rfl) (any_isShutdownAct_map fun hmem ↦ ?_) hroute
    obtain ⟨call, -, hmem⟩ := Option.bind_eq_some_iff.mp (Option.mem_toList.mp hmem)
    obtain ⟨pjId, -, hmem⟩ := Option.bind_eq_some_iff.mp hmem
    exact (not_shutdown_of_recording "").2 hmem
  | transfer hop | consultFailed hop | completeXfer hop | merge hop =>
    exact keep (by rw [hop]; rfl) rfl hroute
  | consult hop hpos hr =>
    refine enter _ _ rfl (by rw [hop]; rfl) ?_ (by simp [broughtIds, newPjIds, hpos])
    rw [List.any_cons, List.any_cons, hr.not_shutdown]
    rfl
  | shutdown => cases hroute
  | incoming hop hr =>
    refine enter _ _ rfl (by rw [hop]; rfl) ?_ (by simp [broughtIds, hop])
    rw [List.any_cons, hr.not_shutdown]
    rfl
  | @state ended invState newState _ _ hop hstate h =>
    rw [h.route_eq] at hroute
    right
    unfold keptIds
    rw [h.not_shutdown, if_neg Bool.false_ne_true, hop]
    dsimp only
    by_cases hended : newState = .ended
    · subst hended
      rw [CallTables.route_unmap] at hroute
      have hne : pjCallId ≠ ended := by
        rintro rfl
        rw [Function.update_self] at hroute
        cases hroute
      rw [Function.update_of_ne hne] at hroute
      have hmem := hused _ _ hroute
      split
      · simp [hmem, hne]
      · exact hmem
    · have hinv : invState ≠ 6 := by
        rintro rfl
        exact hended (Option.some.inj hstate).symm
      rw [if_neg hinv]
      unfold CallTables.unmap at hroute
      rw [if_neg hended] at hroute
      exact hused _ _ hroute
  | media hop h =>
    rw [h.frame.2] at hroute
    exact keep (by rw [hop]; rfl) h.frame.1 hroute

end Mapped

end PacketDial.System
