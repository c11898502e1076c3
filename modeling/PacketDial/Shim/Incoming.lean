import PacketDial.System.Lifecycle

/-!
# Incoming calls that the shim rejects

`on_incoming_call` (`core_rust/src/shim/pjsip_shim.c:353–385`) rejects an `INVITE` while DND is on
or another call is going on, and does not tell the engine about it. PJSIP goes on to report the
state and the media of the call, so its id must be routed to no record.
-/

namespace PacketDial.Shim

open PacketDial.Core PacketDial.Lib PacketDial.System

/-- What PJSIP answers about its calls: the ids that `pjsua_enum_calls` gives, and the state that
`pjsua_call_get_info` gives for an id. Either may fail. -/
structure CallInfos where
  callIds : Option (List Int)
  state : Int → Option Int

/-- `PJSIP_INV_STATE_DISCONNECTED`. -/
def invStateDisconnected : Int := 6

/-- `pd_has_other_live_call` (`pjsip_shim.c:322–351`). -/
def pdHasOtherLiveCall (infos : CallInfos) (incomingCallId : Int) : Bool :=
  match infos.callIds with
  | none => false
  | some callIds => callIds.any fun otherCallId ↦
    otherCallId ≠ incomingCallId && match infos.state otherCallId with
      | none => false
      | some state => state ≠ invStateDisconnected

/-- The test of `on_incoming_call` for a rejection (`pjsip_shim.c:359–369`). -/
def rejects (dndEnabled : Bool) (infos : CallInfos) (callId : Int) : Bool :=
  dndEnabled || pdHasOtherLiveCall infos callId

/-- The callback of the engine that `on_incoming_call` makes (`pjsip_shim.c:353–385`). `fromUri` is
the remote party, if `pjsua_call_get_info` gives the information of the call. The callbacks are set
by `pd_init`, before any `INVITE`. -/
def onIncomingCall (dndEnabled : Bool) (infos : CallInfos) (accId callId : Int)
    (fromUri : Option CPtr) : Option Op :=
  if dndEnabled then
    some (.onLog 3 (.text "[PD_SHIM] on_incoming_call: DND active — rejecting with 486"))
  else if pdHasOtherLiveCall infos callId then
    some (.onLog 3 (.text "[PD_SHIM] on_incoming_call: busy — rejecting with 486"))
  else fromUri.map (.onIncomingCall accId callId)

/-- `g_dnd_enabled` after the operations of a run, which `pd_set_global_dnd` sets
(`pjsip_shim.c:1887–1890`). -/
def dndAfter (trace : List Action) (dndEnabled : Bool) : Bool :=
  trace.foldl (fun dndEnabled act ↦ match act with
    | .shim (.pdSetGlobalDnd enabled) => enabled
    | _ => dndEnabled) dndEnabled

/-- The engine under PJSIP's promise about call ids, and the flag of the shim. -/
structure Exchange where
  world : World
  dndEnabled : Bool

/-- Before the first operation. -/
def Exchange.initial : Exchange := ⟨World.initial, false⟩

/-- An operation or a callback of the engine, or an `INVITE` at the shim. -/
inductive ExchangeMove where
  | run (i : Input)
  | invite (accId callId : Int) (infos : CallInfos) (fromUri : Option CPtr) (env : Env)

/-- The shim tells the engine of incoming calls, and nobody else does. -/
def isIncoming : Op → Bool
  | .onIncomingCall .. => true
  | _ => false

/-- What runs in the engine. -/
def ExchangeMove.input (t : Exchange) : ExchangeMove → Option Input
  | .run i => some i
  | .invite accId callId infos fromUri env =>
    (onIncomingCall t.dndEnabled infos accId callId fromUri).map (⟨·, env⟩)

/-- The world with another PJSIP id in use. -/
def occupy (w : World) (pjCallId : Int) : World := { w with inUse := pjCallId :: w.inUse }

/-- One step. PJSIP gives an `INVITE` an id that is not in use; a call of which the engine is not
told has it in use all the same. -/
def exchangeStep (t : Exchange) : ExchangeMove → Option Exchange
  | .run i =>
    if isIncoming i.op then none
    else (worldStep t.world i).map fun world ↦
      ⟨world, dndAfter (i.outcome t.world.engine).trace t.dndEnabled⟩
  | .invite accId callId infos fromUri env =>
    if callId ∈ t.world.inUse then none
    else match onIncomingCall t.dndEnabled infos accId callId fromUri with
      | none => some { t with world := occupy t.world callId }
      | some op => (worldStep t.world ⟨op, env⟩).map fun world ↦
        { t with world := if isIncoming op then world else occupy world callId }

/-- Another call that PJSIP lists has a state other than disconnected. -/
def OtherLiveCall (infos : CallInfos) (callId : Int) : Prop :=
  ∃ callIds, infos.callIds = some callIds ∧ ∃ other ∈ callIds, other ≠ callId ∧
    ∃ state, infos.state other = some state ∧ state ≠ invStateDisconnected

/-- A step leaves no trace: it changes neither the records nor the id map, and reports no call. -/
structure NoTrace (t : Exchange) (move : ExchangeMove) (u : Exchange) : Prop where
  calls : u.world.engine.calls = t.world.engine.calls
  callMap : u.world.engine.pjsipCallMap = t.world.engine.pjsipCallMap
  silent : ∀ i ∈ move.input t, ∀ payload,
    .event "CallStateChanged" payload ∉ (i.outcome t.world.engine).trace

/-- A step that takes no call under a PJSIP id: none is placed or accepted under it. -/
def NotTaken (callId : Int) (t : Exchange) : ExchangeMove → Prop
  | .run i => callId ∉ broughtIds i (i.acts t.world.engine)
  | .invite _ callId' infos _ _ => callId' = callId → rejects t.dndEnabled infos callId' = true

/-- A callback about the state or the media of a PJSIP call. -/
def IsCallbackOf (callId : Int) : Op → Prop
  | .onCallState pjCallId _ => pjCallId = callId
  | .onCallMedia pjCallId _ => pjCallId = callId
  | _ => False

section Tables

variable {i : Input} {s : Engine} {acts : List CallAct} {T : CallTables} {w w' : World}
  {pjCallId : Int}

/-- Forgetting a PJSIP id that is routed nowhere. -/
theorem unmap_of_unrouted (h : T.route pjCallId = none) (newState : CallState) :
    T.unmap pjCallId newState = T := by
  unfold CallTables.unmap
  split
  · have hnot : pjCallId ∉ T.callMap := AList.lookup_eq_none.mp h
    have herase : T.callMap.erase pjCallId = T.callMap :=
      AList.ext (List.kerase_of_notMem_keys hnot)
    rw [herase]
  · rfl

/-- An operation that keeps its hands off the calls. -/
theorem quiet_of_tame (h : Change i s acts T) (htame : tameOp i.op = true) :
    acts = [] ∧ T = tables s := by
  cases h with
  | quiet => exact ⟨rfl, rfl⟩
  | command hcmd =>
    rw [commandOf_of_tameOp htame] at hcmd
    cases hcmd
  | startRecording hop | stopRecording hop | transfer hop | consultFailed hop | consult hop
  | completeXfer hop | merge hop | shutdown hop | incoming hop | state hop | media hop =>
    rw [hop] at htame
    cases htame

/-- A callback about a call that is routed nowhere. -/
theorem quiet_of_unrouted (h : Change i s acts T) (hop : IsCallbackOf pjCallId i.op)
    (hroute : (tables s).route pjCallId = none) : acts = [] ∧ T = tables s := by
  cases h with
  | quiet => exact ⟨rfl, rfl⟩
  | command hcmd =>
    cases hi : i.op with
    | onCallState | onCallMedia =>
      unfold commandOf at hcmd
      rw [hi] at hcmd
      cases hcmd
    | _ =>
      rw [hi] at hop
      cases hop
  | startRecording hop' | stopRecording hop' | transfer hop' | consultFailed hop' | consult hop'
  | completeXfer hop' | merge hop' | shutdown hop' | incoming hop' =>
    rw [hop'] at hop
    cases hop
  | state hop' _ h =>
    rw [hop'] at hop
    cases hop
    cases h with
    | unrouted => exact ⟨rfl, unmap_of_unrouted hroute _⟩
    | routed hmap => exact absurd (hroute.symm.trans hmap) (Option.some_ne_none _).symm
  | media hop' h =>
    rw [hop'] at hop
    cases hop
    cases h with
    | unrouted => exact ⟨rfl, rfl⟩
    | routed hmap => exact absurd (hroute.symm.trans hmap) (Option.some_ne_none _).symm

/-- An incoming call brings in its own id. -/
theorem broughtIds_of_incoming {pjAccId : Int} {fromUri : CPtr} (h : Change i s acts T)
    (hop : i.op = .onIncomingCall pjAccId pjCallId fromUri) : broughtIds i acts = [pjCallId] := by
  have hbrought : broughtIds i acts = pjCallId :: newPjIds i.env acts := by
    unfold broughtIds
    rw [hop]
    rfl
  rw [hbrought]
  cases h with
  | quiet => rfl
  | command hcmd =>
    unfold commandOf at hcmd
    rw [hop] at hcmd
    cases hcmd
  | startRecording hop' | stopRecording hop' | transfer hop' | consultFailed hop' | consult hop'
  | completeXfer hop' | merge hop' | shutdown hop' | state hop' | media hop' =>
    rw [hop] at hop'
    cases hop'
  | incoming _ hreport =>
    obtain ⟨_, _, _, rfl⟩ := hreport
    rfl

/-- An id that a step does not bring in is routed after it only if it was before. -/
theorem unrouted_of_change (h : Change i s acts T) (hnot : pjCallId ∉ broughtIds i acts)
    (hroute : (tables s).route pjCallId = none) : T.route pjCallId = none := by
  cases hafter : T.route pjCallId with
  | none => rfl
  | some id =>
    have hused (pj : Int) (id : UInt32) (h : (tables s).route pj = some id) :
        pj ∈ (tables s).callMap.keys := by
      rw [← AList.mem_keys, ← AList.lookup_isSome]
      exact Option.isSome_of_mem h
    have hmem := (List.mem_append.mp (mapped_of_change h hused hafter)).resolve_left hnot
    have hkept : pjCallId ∈ (tables s).callMap.keys := by
      unfold keptIds at hmem
      split at hmem
      · cases hmem
      split at hmem
      · split at hmem
        · exact (List.mem_filter.mp hmem).1
        · exact hmem
      · exact hmem
    rw [← AList.mem_keys] at hkept
    exact absurd hkept (AList.lookup_eq_none.mp hroute)

/-- What PJSIP's promise keeps: the tables are keyed, and every routed id is in use. -/
structure Mapped (w : World) : Prop where
  keyed : (tables w.engine).Keyed
  inUse : ∀ pjCallId id, (tables w.engine).route pjCallId = some id → pjCallId ∈ w.inUse

/-- A step of the world is a step of its engine. -/
theorem engine_of_worldStep (hs : worldStep w i = some w') :
    engineStep w.engine i = some w'.engine ∧
      w'.inUse = broughtIds i (i.acts w.engine) ++ keptIds i.op (i.acts w.engine) w.inUse := by
  unfold worldStep at hs
  dsimp only at hs
  split at hs
  · obtain ⟨s, hstep, rfl⟩ := Option.map_eq_some_iff.mp hs
    exact ⟨hstep, rfl⟩
  · cases hs

/-- The promise is kept by a step of the world. -/
theorem Mapped.step (h : Mapped w) (hs : worldStep w i = some w') : Mapped w' := by
  obtain ⟨hstep, hinUse⟩ := engine_of_worldStep hs
  refine ⟨keyed_step h.keyed hstep, fun pj id hroute ↦ ?_⟩
  rw [hinUse]
  exact mapped_of_change (step_change h.keyed hstep) h.inUse hroute

/-- More ids may be in use. -/
theorem Mapped.occupy (h : Mapped w) : Mapped (occupy w pjCallId) :=
  ⟨h.keyed, fun pj id hroute ↦ List.mem_cons_of_mem _ (h.inUse pj id hroute)⟩

/-- A run without call actions reports no call. -/
theorem silent_of_acts (h : i.acts s = []) (payload : Json) :
    .event "CallStateChanged" payload ∉ (i.outcome s).trace := by
  intro hmem
  have hact : CallAct.changed payload ∈ i.acts s :=
    List.mem_filterMap.mpr ⟨_, hmem, rfl⟩
  rw [h] at hact
  cases hact

end Tables

section Steps

variable {t u : Exchange} {move : ExchangeMove} {callId : Int} {infos : CallInfos}

/-- The shim rejects a call while DND is on or another call is going on. -/
theorem rejects_iff : rejects t.dndEnabled infos callId = true ↔
    t.dndEnabled = true ∨ OtherLiveCall infos callId := by
  unfold rejects pdHasOtherLiveCall OtherLiveCall
  rw [Bool.or_eq_true]
  refine or_congr Iff.rfl ?_
  cases infos.callIds with
  | none => simp
  | some callIds =>
    simp only [List.any_eq_true, Bool.and_eq_true, decide_eq_true_eq, Option.some.injEq,
      exists_eq_left']
    refine exists_congr fun other ↦ and_congr Iff.rfl (and_congr Iff.rfl ?_)
    cases infos.state other <;> simp

/-- A rejected `INVITE` makes the engine log a line, and no more. -/
theorem onIncomingCall_of_rejects {dndEnabled : Bool} (accId : Int) (fromUri : Option CPtr)
    (h : rejects dndEnabled infos callId = true) :
    ∃ text, onIncomingCall dndEnabled infos accId callId fromUri =
      some (.onLog 3 (.text text)) := by
  unfold rejects at h
  rw [Bool.or_eq_true] at h
  unfold onIncomingCall
  by_cases hdnd : dndEnabled = true
  · exact ⟨_, if_pos hdnd⟩
  · rw [if_neg hdnd, if_pos (h.resolve_left hdnd)]
    exact ⟨_, rfl⟩

/-- The engine is told of a call that is not rejected. -/
theorem onIncomingCall_of_accepts {dndEnabled : Bool} {accId : Int} {fromUri : Option CPtr}
    {op : Op} (h : ¬rejects dndEnabled infos callId = true)
    (hop : onIncomingCall dndEnabled infos accId callId fromUri = some op) :
    ∃ uri, op = .onIncomingCall accId callId uri := by
  unfold rejects at h
  rw [Bool.or_eq_true, not_or] at h
  unfold onIncomingCall at hop
  rw [if_neg h.1, if_neg h.2] at hop
  obtain ⟨uri, -, rfl⟩ := Option.map_eq_some_iff.mp hop
  exact ⟨uri, rfl⟩

/-- A step of the engine. -/
theorem world_of_run {i : Input} (hs : exchangeStep t (.run i) = some u) :
    worldStep t.world i = some u.world := by
  unfold exchangeStep at hs
  dsimp only at hs
  split at hs
  · cases hs
  · obtain ⟨world, hstep, rfl⟩ := Option.map_eq_some_iff.mp hs
    exact hstep

/-- An `INVITE` under an id that is not in use: the engine is told nothing, or runs a callback. -/
theorem world_of_invite {accId : Int} {fromUri : Option CPtr} {env : Env}
    (hs : exchangeStep t (.invite accId callId infos fromUri env) = some u) :
    callId ∉ t.world.inUse ∧
      ((onIncomingCall t.dndEnabled infos accId callId fromUri = none ∧
        u.world = occupy t.world callId) ∨
      ∃ op world, onIncomingCall t.dndEnabled infos accId callId fromUri = some op ∧
        worldStep t.world ⟨op, env⟩ = some world ∧
        u.world = if isIncoming op then world else occupy world callId) := by
  unfold exchangeStep at hs
  dsimp only at hs
  split at hs
  · cases hs
  · next hnot =>
    refine ⟨hnot, ?_⟩
    split at hs
    · next hnone =>
      cases hs
      exact Or.inl ⟨hnone, rfl⟩
    · next op hop =>
      obtain ⟨world, hstep, rfl⟩ := Option.map_eq_some_iff.mp hs
      exact Or.inr ⟨op, world, hop, hstep, rfl⟩

/-- The step lemma of the promise. -/
theorem mapped_exchangeStep (h : Mapped t.world) (hs : exchangeStep t move = some u) :
    Mapped u.world := by
  cases move with
  | run i => exact h.step (world_of_run hs)
  | invite accId callId infos fromUri env =>
    obtain ⟨-, ⟨-, hworld⟩ | ⟨op, world, -, hstep, hworld⟩⟩ := world_of_invite hs
    · rw [hworld]
      exact h.occupy
    · rw [hworld]
      split
      · exact h.step hstep
      · exact (h.step hstep).occupy

/-- An id that is not in use is routed nowhere. -/
theorem Mapped.unrouted {w : World} (h : Mapped w) (hnot : callId ∉ w.inUse) :
    (tables w.engine).route callId = none := by
  cases hroute : (tables w.engine).route callId with
  | none => rfl
  | some id => exact absurd (h.inUse callId id hroute) hnot

/-- A rejected `INVITE` leaves the tables and acts on no call. -/
theorem tables_of_rejects {accId : Int} {fromUri : Option CPtr} {env : Env} (h : Mapped t.world)
    (hs : exchangeStep t (.invite accId callId infos fromUri env) = some u)
    (hrejects : rejects t.dndEnabled infos callId = true) :
    tables u.world.engine = tables t.world.engine ∧
      ∀ i ∈ ExchangeMove.input t (.invite accId callId infos fromUri env),
        i.acts t.world.engine = [] := by
  obtain ⟨text, hop⟩ := onIncomingCall_of_rejects accId fromUri hrejects
  obtain ⟨-, ⟨hnone, -⟩ | ⟨op, world, hsome, hstep, hworld⟩⟩ := world_of_invite hs
  · rw [hop] at hnone
    cases hnone
  · rw [hop] at hsome
    cases hsome
    have hengine : u.world.engine = world.engine := by rw [hworld]; rfl
    obtain ⟨hacts, htables⟩ :=
      quiet_of_tame (step_change h.keyed (engine_of_worldStep hstep).1) rfl
    refine ⟨by rw [hengine]; exact htables, fun i hi ↦ ?_⟩
    change i ∈ (onIncomingCall t.dndEnabled infos accId callId fromUri).map (⟨·, env⟩) at hi
    rw [hop] at hi
    cases hi
    exact hacts

/-- A step that leaves the tables and acts on no call leaves no trace. -/
theorem noTrace_of_tables (htables : tables u.world.engine = tables t.world.engine)
    (hacts : ∀ i ∈ move.input t, i.acts t.world.engine = []) : NoTrace t move u where
  calls := congrArg CallTables.calls htables
  callMap := congrArg CallTables.callMap htables
  silent i hi := silent_of_acts (hacts i hi)

/-- A callback about a call that is routed nowhere leaves no trace. -/
theorem noTrace_of_unrouted {i : Input} (h : Mapped t.world)
    (hroute : (tables t.world.engine).route callId = none) (hop : IsCallbackOf callId i.op)
    (hs : exchangeStep t (.run i) = some u) : NoTrace t (.run i) u := by
  have hstep := (engine_of_worldStep (world_of_run hs)).1
  obtain ⟨hacts, htables⟩ := quiet_of_unrouted (step_change h.keyed hstep) hop hroute
  refine noTrace_of_tables htables fun j hj ↦ ?_
  cases hj
  exact hacts

/-- An id that is routed nowhere stays so while no call is taken under it. -/
theorem unrouted_exchangeStep (h : Mapped t.world)
    (hroute : (tables t.world.engine).route callId = none) (hnot : NotTaken callId t move)
    (hs : exchangeStep t move = some u) : (tables u.world.engine).route callId = none := by
  cases move with
  | run i =>
    have hstep := (engine_of_worldStep (world_of_run hs)).1
    exact unrouted_of_change (step_change h.keyed hstep) hnot hroute
  | invite accId callId' infos fromUri env =>
    by_cases hrejects : rejects t.dndEnabled infos callId' = true
    · rw [(tables_of_rejects h hs hrejects).1]
      exact hroute
    · have hne : callId' ≠ callId := fun heq ↦ hrejects (hnot heq)
      obtain ⟨-, ⟨-, hworld⟩ | ⟨op, world, hop, hstep, hworld⟩⟩ := world_of_invite hs
      · rw [hworld]
        exact hroute
      · have hengine : u.world.engine = world.engine := by
          rw [hworld]
          split <;> rfl
        rw [hengine]
        have hchange := step_change h.keyed (engine_of_worldStep hstep).1
        refine unrouted_of_change hchange ?_ hroute
        obtain ⟨uri, rfl⟩ := onIncomingCall_of_accepts hrejects hop
        rw [broughtIds_of_incoming hchange rfl]
        exact fun hmem ↦ hne (List.mem_singleton.mp hmem).symm

end Steps

/-- The run lemma of the promise. -/
theorem mapped_of_run {moves : List ExchangeMove} {t : Exchange}
    (run : moves.foldlM exchangeStep Exchange.initial = some t) : Mapped t.world :=
  (Path.of_foldlM run).invariant (I := fun t ↦ Mapped t.world)
    ⟨keyed_initial, fun _ _ h ↦ by cases h⟩ fun _ _ _ h _ hs ↦ mapped_exchangeStep h hs

/-- In every reachable state, an `INVITE` that comes while DND is on or another call is going on
leaves no trace, and neither does any later callback about it before PJSIP takes its id for a call
that is placed or accepted. -/
theorem rejected_call_leaves_no_trace {start : List ExchangeMove} {t₀ t : Exchange}
    {accId callId : Int} {infos : CallInfos} {fromUri : Option CPtr} {env : Env}
    (hstart : start.foldlM exchangeStep Exchange.initial = some t₀)
    (hbusy : t₀.dndEnabled = true ∨ OtherLiveCall infos callId)
    (hinvite : exchangeStep t₀ (.invite accId callId infos fromUri env) = some t) :
    NoTrace t₀ (.invite accId callId infos fromUri env) t ∧
      ∀ moves u, Path exchangeStep (NotTaken callId) t moves u →
        ∀ i v, IsCallbackOf callId i.op → exchangeStep u (.run i) = some v →
          NoTrace u (.run i) v := by
  have hmapped := mapped_of_run hstart
  obtain ⟨htables, hacts⟩ := tables_of_rejects hmapped hinvite (rejects_iff.mpr hbusy)
  refine ⟨noTrace_of_tables htables hacts, fun moves u path i v hop hs ↦ ?_⟩
  have hroute : (tables t.world.engine).route callId = none := by
    rw [htables]
    exact hmapped.unrouted (world_of_invite hinvite).1
  have hkept : Mapped u.world ∧ (tables u.world.engine).route callId = none :=
    path.invariant (I := fun u ↦ Mapped u.world ∧ (tables u.world.engine).route callId = none)
      ⟨mapped_exchangeStep hmapped hinvite, hroute⟩ fun _ _ _ h hnot hs ↦
        ⟨mapped_exchangeStep h.1 hs, unrouted_exchangeStep h.1 h.2 hnot hs⟩
  exact noTrace_of_unrouted hkept.1 hkept.2 hop hs

/-- PJSIP lists the calls 0 and 1, of which the first is being set up. -/
def oneCall : CallInfos := ⟨some [0, 1], fun callId ↦ some (if callId = 0 then 1 else 2)⟩

/-- An `INVITE` during a dialled call, as an instance. -/
theorem rejected_call_leaves_no_trace_dialled :
    ∃ t₀ t,
      ((signIn ++ [dial]).map ExchangeMove.run).foldlM exchangeStep Exchange.initial = some t₀ ∧
      exchangeStep t₀ (.invite 0 1 oneCall (some (.text "sip:z@y")) quietEnv) = some t ∧
      NoTrace t₀ (.invite 0 1 oneCall (some (.text "sip:z@y")) quietEnv) t ∧
      ∀ moves u, Path exchangeStep (NotTaken 1) t moves u →
        ∀ i v, IsCallbackOf 1 i.op → exchangeStep u (.run i) = some v → NoTrace u (.run i) v := by
  have h : (((signIn ++ [dial]).map ExchangeMove.run).foldlM exchangeStep Exchange.initial).bind
      (exchangeStep · (.invite 0 1 oneCall (some (.text "sip:z@y")) quietEnv)) |>.isSome := by
    decide
  obtain ⟨t, h⟩ := Option.isSome_iff_exists.mp h
  obtain ⟨t₀, hstart, hinvite⟩ := Option.bind_eq_some_iff.mp h
  have hbusy : OtherLiveCall oneCall 1 :=
    ⟨[0, 1], rfl, 0, List.mem_cons_self, by decide, 1, rfl, by decide⟩
  obtain ⟨hnow, hlater⟩ := rejected_call_leaves_no_trace hstart (Or.inr hbusy) hinvite
  exact ⟨t₀, t, hstart, hinvite, hnow, hlater⟩

end PacketDial.Shim
