import PacketDial.System.Records

/-!
# Hold intent

`on_hold` of a record means two things: the user asked for a hold, or PJSIP reported the media
as inactive. `Watched` keeps the two apart while the engine runs. An active media callback
brings the call back into the state `InCall` just when neither is outstanding, so a remote
hold without any user hold sticks.
-/

namespace PacketDial.System

open PacketDial.Core PacketDial.Lib

/-- The engine with what its inputs so far mean for each call: whether a hold of the user is
outstanding, and whether the media was reported inactive since the call started or the user
last took it off hold. -/
structure Watched where
  engine : Engine
  wanted : UInt32 → Bool
  paused : UInt32 → Bool

/-- Before the first operation nothing is on hold. -/
def Watched.initial : Watched := ⟨Engine.initial, fun _ ↦ false, fun _ ↦ false⟩

/-- The outstanding holds of the user after an input. -/
def nextWanted (i : Input) (s : Engine) (wanted : UInt32 → Bool) (id : UInt32) : Bool :=
  if startedCall i s (i.acts s) = some id then false
  else if holdTarget i s = some id then holdWanted i s
  else wanted id

/-- The pauses after an input. -/
def nextPaused (i : Input) (s : Engine) (paused : UInt32 → Bool) (id : UInt32) : Bool :=
  if startedCall i s (i.acts s) = some id then false
  else if holdTarget i s = some id ∧ holdWanted i s = false then false
  else if pausedCall i s = some id then true
  else paused id

/-- One step of the engine, watched. -/
def watchStep (t : Watched) (i : Input) : Option Watched :=
  (engineStep t.engine i).map fun s ↦
    ⟨s, nextWanted i t.engine t.wanted, nextPaused i t.engine t.paused⟩

/-- The PJSIP calls that a step puts on hold. -/
def heldIds (acts : List CallAct) : List Int :=
  acts.filterMap fun
    | .op (.pdCallHold pjCallId true) => some pjCallId
    | _ => none

section Records

variable {i : Input} {s : Engine} {acts : List CallAct} {T T' : CallTables} {id : UInt32}
  {call : Call}

/-- A new call is not on hold, an old one is as the inputs say. -/
def HoldEffect (i : Input) (s : Engine) (acts : List CallAct) (id : UInt32) (call : Call) :
    Prop :=
  (startedCall i s acts = some id ∧ call.onHold = false) ∨
  (startedCall i s acts ≠ some id ∧ ∃ old, s.calls.lookup id = some old ∧
    call.onHold = if holdTarget i s = some id then holdWanted i s
      else if pausedCall i s = some id then true else old.onHold)

/-- A state callback leaves `on_hold`. -/
@[simp] theorem stateRecord_onHold (newState : CallState) (now : Nat) (call : Call) :
    (stateRecord newState now call).onHold = call.onHold := by
  unfold stateRecord
  split
  · rfl
  · split
    · rw [settled_onHold]
    · rfl

/-- An inactive media callback sets `on_hold`, an active one leaves it. -/
theorem mediaRecord_onHold (active : Int) (now : Nat) (call : Call) :
    (mediaRecord active now call).onHold = if active ≠ 0 then call.onHold else true := by
  unfold mediaRecord
  split
  · rfl
  · exact settled_onHold _ _

/-- What a step does to the holds. -/
theorem RecordEffect.holdEffect (h : RecordEffect i s acts id call) :
    HoldEffect i s acts id call := by
  cases h with
  | started hstart => exact Or.inl ⟨hstart, rfl⟩
  | @kept old _ hstart hl hc =>
    refine Or.inr ⟨hstart, old, hl, ?_⟩
    cases hc with
    | amend htarget hpause hamend =>
      rw [if_neg htarget, if_neg hpause, hamend]
    | hold htarget => rw [if_pos htarget, heldRecord_onHold]
    | state hop _ _ hsame =>
      have hcmd : commandOf i s = none := by rw [commandOf, hop]
      have hpause : pausedCall i s = none := by rw [pausedCall, hop]
      rw [holdTarget_of_none hcmd, hpause, hsame]
      simp
    | @media pjCallId active hop hmap =>
      have hcmd : commandOf i s = none := by rw [commandOf, hop]
      have hpause : pausedCall i s = if active ≠ 0 then none else some id := by
        rw [pausedCall, hop, ← hmap]
      rw [holdTarget_of_none hcmd, hpause, mediaRecord_onHold]
      by_cases hactive : active = 0
      · simp [hactive]
      · simp [hactive]

end Records

/-- The invariant: a record is on hold when the user wants it to be or its media paused. -/
def Tracked (t : Watched) : Prop :=
  (tables t.engine).Keyed ∧ ∀ id call, t.engine.calls.lookup id = some call →
    call.onHold = (t.wanted id || t.paused id)

/-- The step lemma: every step keeps `on_hold` in line with the inputs. -/
theorem tracked_step {t u : Watched} {i : Input} (h : Tracked t) (hs : watchStep t i = some u) :
    Tracked u := by
  obtain ⟨hk, htracked⟩ := h
  obtain ⟨s, hstep, rfl⟩ := Option.map_eq_some_iff.mp hs
  refine ⟨keyed_step hk hstep, fun id call hl ↦ ?_⟩
  change call.onHold = (nextWanted i t.engine t.wanted id || nextPaused i t.engine t.paused id)
  unfold nextWanted nextPaused
  rcases (effect_of_step hk hstep hl).holdEffect with
    ⟨hstart, hfalse⟩ | ⟨hstart, old, hold, heq⟩
  · rw [if_pos hstart, if_pos hstart, hfalse]
    rfl
  · rw [if_neg hstart, if_neg hstart, heq, htracked id old hold]
    by_cases htarget : holdTarget i t.engine = some id
    · cases hwanted : holdWanted i t.engine <;> simp [htarget]
    · by_cases hpause : pausedCall i t.engine = some id <;> simp [htarget, hpause]

/-- The run lemma: `on_hold` is in line with the inputs in every watched run. -/
theorem tracked_of_run {is : List Input} {t : Watched}
    (run : is.foldlM watchStep Watched.initial = some t) : Tracked t :=
  (Path.of_foldlM run).invariant ⟨keyed_initial, fun _ _ h ↦ by cases h⟩
    fun _ _ _ h _ hs ↦ tracked_step h hs

/-- What an active media callback does to the record it is routed to. -/
theorem active_media {i : Input} {s : Engine} {pjCallId active : Int} {id : UInt32} {call : Call}
    (hop : i.op = .onCallMedia pjCallId active) (hactive : active ≠ 0)
    (hmap : s.pjsipCallMap.lookup pjCallId = some id) (hl : s.calls.lookup id = some call) :
    (i.outcome s).state.calls.lookup id =
        some { call with state := if call.onHold then .onHold else .inCall } ∧
      heldIds (i.acts s) = if call.onHold then [pjCallId] else [] := by
  have h : callView.Yields (pjsipOnCallMedia pjCallId active) i.env s fun _ acts T ↦
      MediaChange pjCallId active (tables s) acts T := yields_pjsipOnCallMedia pjCallId active
  have hrun : i.op.run = pjsipOnCallMedia pjCallId active := by rw [hop]; rfl
  have change : MediaChange pjCallId active (tables s) (i.acts s)
      (tables (i.outcome s).state) := by
    unfold Input.acts Input.outcome
    rw [hrun]
    exact h
  generalize i.acts s = acts at change ⊢
  generalize hT : tables (i.outcome s).state = T at change
  have hcalls : (i.outcome s).state.calls = T.calls := by rw [← hT]; rfl
  rw [hcalls]
  cases change with
  | unrouted hnone =>
    rcases hnone with hnone | ⟨id', hid', hnone⟩
    · rw [show (tables s).callMap.lookup pjCallId = some id from hmap] at hnone
      cases hnone
    · rw [show (tables s).callMap.lookup pjCallId = some id from hmap] at hid'
      cases hid'
      rw [show (tables s).calls.lookup id = some call from hl] at hnone
      cases hnone
  | @routed id' old now report hmap' hold hr =>
    rw [show (tables s).callMap.lookup pjCallId = some id from hmap] at hmap'
    cases hmap'
    rw [show (tables s).calls.lookup id = some call from hl] at hold
    cases hold
    obtain ⟨_, _, _, rfl⟩ := hr
    constructor
    · rw [lookup_setCall, mediaRecord, if_pos hactive]
    · unfold mediaOps
      rw [if_pos hactive]
      cases call.muted <;> cases call.onHold <;> rfl

/-- In every run: with no hold of the user outstanding, an active media callback leaves the call
in the state `InCall`, off hold and without a hold operation, just when its media was not
reported inactive since the call started or the user last took it off hold. -/
theorem hold_intent_iff {is : List Input} {t : Watched}
    (run : is.foldlM watchStep Watched.initial = some t) {i : Input} {pjCallId active : Int}
    {id : UInt32} {call : Call} (hop : i.op = .onCallMedia pjCallId active) (hactive : active ≠ 0)
    (hmap : t.engine.pjsipCallMap.lookup pjCallId = some id)
    (hl : t.engine.calls.lookup id = some call) (hwanted : t.wanted id = false) :
    ((∃ call', (i.outcome t.engine).state.calls.lookup id = some call' ∧
        call'.state = .inCall ∧ call'.onHold = false) ∧ heldIds (i.acts t.engine) = []) ↔
      t.paused id = false := by
  have tracked := tracked_of_run run
  have honHold : call.onHold = t.paused id := by
    rw [tracked.2 id call hl, hwanted, Bool.false_or]
  obtain ⟨hcall, hheld⟩ := active_media hop hactive hmap hl
  rw [hcall, hheld, ← honHold]
  constructor
  · rintro ⟨⟨call', heq, -, hfalse⟩, -⟩
    rw [← Option.some.inj heq] at hfalse
    exact hfalse
  · intro hfalse
    refine ⟨⟨_, rfl, ?_, hfalse⟩, ?_⟩
    · dsimp only
      rw [hfalse]
      rfl
    · rw [hfalse]
      rfl

/-- PJSIP confirms the call 0. -/
def confirm : Input := ⟨.onCallState 0 5, quietEnv⟩

/-- PJSIP reports the media of the call 0 as active or not. -/
def media (active : Int) : Input := ⟨.onCallMedia 0 active, quietEnv⟩

/-- The user puts the first call on hold or takes it off. -/
def holdFirst (hold : Bool) : Input :=
  commandInput "CallHold" [("call_id", .ofU32 1), ("hold", .bool hold)]

/-- A call held and resumed by the user, as an instance. -/
theorem hold_intent_iff_resumed :
    ∃ t, (signIn ++ [dial, confirm, media 0, holdFirst true, holdFirst false]).foldlM watchStep
        Watched.initial = some t ∧
      (∃ call', ((media 1).outcome t.engine).state.calls.lookup 1 = some call' ∧
        call'.state = .inCall ∧ call'.onHold = false) ∧ heldIds ((media 1).acts t.engine) = [] := by
  have h : ((signIn ++ [dial, confirm, media 0, holdFirst true, holdFirst false]).foldlM watchStep
      Watched.initial).map (fun t ↦ (t.engine.pjsipCallMap.lookup 0,
        (t.engine.calls.lookup 1).isSome, t.wanted 1, t.paused 1)) =
      some (some 1, true, false, false) := by decide
  obtain ⟨t, ht, hv⟩ := Option.map_eq_some_iff.mp h
  obtain ⟨hmap, hv⟩ := Prod.mk.inj hv
  obtain ⟨hsome, hv⟩ := Prod.mk.inj hv
  obtain ⟨hwanted, hpaused⟩ := Prod.mk.inj hv
  obtain ⟨call, hl⟩ := Option.isSome_iff_exists.mp hsome
  exact ⟨t, ht, (hold_intent_iff ht rfl one_ne_zero hmap hl hwanted).mpr hpaused⟩

/-- A remote hold that ends: with no hold command ever made, the engine puts the confirmed call
on hold again. -/
theorem remote_hold_sticks :
    ∃ t, (signIn ++ [dial, confirm, media 0]).foldlM watchStep Watched.initial = some t ∧
      t.wanted 1 = false ∧ t.engine.pjsipCallMap.lookup 0 = some 1 ∧
      (((media 1).outcome t.engine).state.calls.lookup 1).map
          (fun call ↦ (call.state, call.onHold)) =
        some (.onHold, true) ∧ heldIds ((media 1).acts t.engine) = [0] := by
  have h : ((signIn ++ [dial, confirm, media 0]).foldlM watchStep Watched.initial).map (fun t ↦
      (t.wanted 1, t.engine.pjsipCallMap.lookup 0,
        (((media 1).outcome t.engine).state.calls.lookup 1).map
          (fun call ↦ (call.state, call.onHold)), heldIds ((media 1).acts t.engine))) =
      some (false, some 1, some (.onHold, true), [0]) := by decide
  obtain ⟨t, ht, hv⟩ := Option.map_eq_some_iff.mp h
  obtain ⟨hwanted, hv⟩ := Prod.mk.inj hv
  obtain ⟨hmap, hv⟩ := Prod.mk.inj hv
  obtain ⟨hstate, hheld⟩ := Prod.mk.inj hv
  exact ⟨t, ht, hwanted, hmap, hstate, hheld⟩

end PacketDial.System
