import PacketDial.System.Isolation
import PacketDial.Ui.CallMirror

/-!
# The current call

An operation that names no call leaves the choice to the engine, which takes the first call of
a hash map that has not ended (`core_rust/src/lib.rs:3722–3925`, `1895–2003`). The app shows
the first call that is not on hold, if there is one
(`app_flutter/lib/core/engine_channel.dart:64–78`). Over all orders of the hash map the two
agree just while there is no choice.
-/

namespace PacketDial.Ui

open PacketDial.Core PacketDial.Lib PacketDial.System

/-- `EngineChannel.activeCall` (`engine_channel.dart:64–78`), of the values of `activeCalls` in
the order in which the map hands them out. -/
def activeCall (values : List ActiveCall) : Option ActiveCall :=
  if values.isEmpty then none
  else
    let foreground := values.filter fun c ↦ c.state ≠ .ended && !c.onHold
    if !foreground.isEmpty then foreground.head?
    else (values.filter fun c ↦ c.state ≠ .ended).head?

/-- The app and the engine have the same calls that have not ended, with the same hold flags. -/
structure Agrees (values : List ActiveCall) (T : CallTables) : Prop where
  shown : ∀ id call, T.calls.lookup id = some call → call.state ≠ .ended →
    ∃ c ∈ values, c.callId = id.toNat ∧ c.state ≠ .ended ∧ c.onHold = call.onHold
  known : ∀ c ∈ values, c.state ≠ .ended → ∃ id call, c.callId = id.toNat ∧
    T.calls.lookup id = some call ∧ call.state ≠ .ended ∧ c.onHold = call.onHold

section Shown

variable {values : List ActiveCall} {c : ActiveCall}

/-- The call that is shown is one of the list that has not ended. -/
theorem mem_of_activeCall (h : activeCall values = some c) : c ∈ values ∧ c.state ≠ .ended := by
  unfold activeCall at h
  split at h
  · cases h
  · dsimp only at h
    split at h
    · have hmem := List.mem_filter.mp (List.mem_of_mem_head? h)
      have hlive : c.state ≠ .ended ∧ c.onHold = false := by simpa using hmem.2
      exact ⟨hmem.1, hlive.1⟩
    · have hmem := List.mem_filter.mp (List.mem_of_mem_head? h)
      exact ⟨hmem.1, by simpa using hmem.2⟩

/-- A call that has not ended is shown, if there is one. -/
theorem activeCall_eq_none : activeCall values = none ↔ ∀ c ∈ values, c.state = .ended := by
  constructor
  · intro h c hc
    by_contra hlive
    unfold activeCall at h
    rw [if_neg (by rw [List.isEmpty_iff]; exact List.ne_nil_of_mem hc)] at h
    dsimp only at h
    split at h
    · next hne =>
      rw [List.head?_eq_none_iff.mp h] at hne
      cases hne
    · have hmem : c ∈ values.filter fun c ↦ c.state ≠ .ended :=
        List.mem_filter.mpr ⟨hc, decide_eq_true hlive⟩
      rw [List.head?_eq_none_iff.mp h] at hmem
      cases hmem
  · intro h
    cases hshown : activeCall values with
    | none => rfl
    | some c =>
      obtain ⟨hc, hlive⟩ := mem_of_activeCall hshown
      exact absurd (h c hc) hlive

/-- A call that is not on hold is shown before one that is. -/
theorem activeCall_foreground {c' : ActiveCall} (h : activeCall values = some c)
    (hc' : c' ∈ values) (hlive : c'.state ≠ .ended) (hactive : c'.onHold = false) :
    c.onHold = false := by
  unfold activeCall at h
  rw [if_neg (by rw [List.isEmpty_iff]; exact List.ne_nil_of_mem hc')] at h
  dsimp only at h
  split at h
  · have hmem := List.mem_filter.mp (List.mem_of_mem_head? h)
    have hfore : c.state ≠ .ended ∧ c.onHold = false := by simpa using hmem.2
    exact hfore.2
  · next hempty =>
    have hmem : c' ∈ values.filter fun c ↦ c.state ≠ .ended && !c.onHold :=
      List.mem_filter.mpr ⟨hc', by simp [hlive, hactive]⟩
    rw [Bool.not_eq_true', Bool.not_eq_false, List.isEmpty_iff] at hempty
    rw [hempty] at hmem
    cases hmem

end Shown

section Mirror

variable {activeCalls : ActiveCalls} {T : CallTables} {values : List ActiveCall}

/-- A list that mirrors the engine agrees with it, in whatever order it is read. -/
theorem Mirrors.agrees (h : Mirrors activeCalls T) (hk : T.Keyed)
    (hvalues : values.Perm (activeCalls.entries.map Sigma.snd)) : Agrees values T := by
  have mem {c : ActiveCall} : c ∈ values ↔ ∃ key, activeCalls.lookup key = some c := by
    rw [hvalues.mem_iff, List.mem_map]
    constructor
    · rintro ⟨⟨key, c⟩, hentry, rfl⟩
      exact ⟨key, AList.mem_lookup_iff.mpr hentry⟩
    · rintro ⟨key, hl⟩
      exact ⟨⟨key, c⟩, AList.mem_lookup_iff.mp hl, rfl⟩
  have live (state : Core.CallState) (hstate : state ≠ .ended) :
      shownState state ≠ .ended := by
    cases state <;> first | decide | exact absurd rfl hstate
  constructor
  · intro id call hl hlive
    have hentry := h.entry id
    rw [hl] at hentry
    cases hshown : activeCalls.lookup (id.toNat : Int) with
    | none =>
      rw [hshown] at hentry
      exact absurd hentry hlive
    | some c =>
      rw [hshown] at hentry
      obtain ⟨-, hshows⟩ := hentry
      have hid : c.callId = id.toNat := by rw [hshows.callId, hk id call hl]
      refine ⟨c, mem.mpr ⟨_, hshown⟩, hid, ?_, hshows.onHold⟩
      rw [hshows.state]
      exact live _ hlive
  · intro c hc _
    obtain ⟨key, hkey⟩ := mem.mp hc
    obtain ⟨id, rfl⟩ := h.keys key (AList.lookup_isSome.mp (by rw [hkey]; rfl))
    have hentry := h.entry id
    rw [hkey] at hentry
    cases hl : T.calls.lookup id with
    | none =>
      rw [hl] at hentry
      exact hentry.elim
    | some call =>
      rw [hl] at hentry
      obtain ⟨hlive, hshows⟩ := hentry
      have hid : c.callId = id.toNat := by rw [hshows.callId, hk id call hl]
      exact ⟨id, call, hid, hl, hlive, hshows.onHold⟩

/-- The app agrees with the engine whenever it has handled all events. -/
theorem agrees_of_run {is : List Input} {t : Session}
    (run : is.foldlM sessionStep Session.initial = some t) (now : Nat → Int) :
    ∃ activeCalls, handleAll now t.emitted = some activeCalls ∧
      ∀ values, values.Perm (activeCalls.entries.map Sigma.snd) →
        Agrees values (tables t.engine) := by
  have start : CaughtUp now Session.initial := ⟨keyed_initial, ∅, rfl, Mirrors.initial⟩
  obtain ⟨hk, activeCalls, hall, hmirrors⟩ := (Path.of_foldlM run).invariant start
    fun _ _ _ h _ hs ↦ caughtUp_step h hs
  exact ⟨activeCalls, hall, fun _ hvalues ↦ hmirrors.agrees hk hvalues⟩

/-- The engine of a session runs as it does on its own. -/
theorem engine_of_session {is : List Input} {t : Session}
    (run : is.foldlM sessionStep Session.initial = some t) :
    is.foldlM engineStep Engine.initial = some t.engine := by
  have path := Path.of_foldlM run
  clear run
  induction path with
  | nil => rfl
  | snoc _ _ hs ih =>
    obtain ⟨s, hstep, rfl⟩ := Option.map_eq_some_iff.mp hs
    simp [List.foldlM_append, ih, hstep]

end Mirror

/-- The operations that name no call, where they get as far as looking for one. -/
inductive Nameless (i : Input) (s : Engine) : Prop where
  | entry (hop : i.op = .hangup ∨ (∃ muted, i.op = .setMute muted) ∨
      (∃ onHold, i.op = .setHold onHold) ∨ ∃ digits, i.op = .sendDtmf (.text digits))
      (hinit : s.initialized = true)
  | command {cmd : String} {p : Json}
      (hop : (∃ cmdType payload, i.op = .sendCommand cmdType payload) ∨
        ∃ client line, i.op = .ipcLine client line)
      (hcmd : commandOf i s = some (cmd, p))
      (hname : cmd = "CallHangup" ∨ cmd = "CallMute" ∨ cmd = "CallHold")
      (hid : callIdField p = none)

/-- The call that an operation acts on: the record that its command resolves to. -/
def actedOn (i : Input) (s : Engine) : Option UInt32 :=
  ((commandOf i s).bind fun c ↦ commandTarget i.env (tables s) c.1 c.2).filter fun id ↦
    ((tables s).calls.lookup id).isSome

/-- The same operation, with the calls handed out in another order. -/
def inOrder (order : IterOrder Call) (i : Input) : Input :=
  { i with env := { i.env with callOrder := order } }

/-- The order that hands out first what satisfies `p`. -/
def firstly (p : Call → Bool) : IterOrder Call where
  shuffle l := l.filter p ++ l.filter (!p ·)
  perm l := List.filter_append_perm p l

section Target

variable {i : Input} {s : Engine} {id : UInt32}

/-- The operation acts on the first call that has not ended. -/
theorem actedOn_of_first (h : Nameless i s) (hk : (tables s).Keyed)
    (hfirst : (tables s).firstId i.env (·.isLive) = some id) : actedOn i s = some id := by
  obtain ⟨call, hl, -⟩ := hk.firstId_eq_some hfirst
  have htarget : ((commandOf i s).bind fun c ↦ commandTarget i.env (tables s) c.1 c.2) =
      some id := by
    cases h with
    | entry hop hinit =>
      rcases hop with hop | ⟨muted, hop⟩ | ⟨onHold, hop⟩ | ⟨digits, hop⟩ <;>
        simp [commandOf, hop, commandOnFirst, hinit, hfirst, commandTarget, callIdField_ofU32,
          CPtr.toStr]
    | command hop hcmd hname hid =>
      rcases hname with rfl | rfl | rfl <;> simp [hcmd, commandTarget, hid, hfirst]
  rw [actedOn, htarget, Option.filter_some, hl]
  rfl

/-- Without such a call, only a mute or hold command acts, on the record 0. -/
theorem actedOn_of_none (h : Nameless i s)
    (hfirst : (tables s).firstId i.env (·.isLive) = none) :
    actedOn i s = none ↔ ∀ c ∈ commandOf i s, isUpdate c.1 = true →
      (tables s).calls.lookup 0 = none := by
  cases h with
  | entry hop hinit =>
    have hcmd : commandOf i s = none := by
      rcases hop with hop | ⟨muted, hop⟩ | ⟨onHold, hop⟩ | ⟨digits, hop⟩ <;>
        simp [commandOf, hop, commandOnFirst, hfirst]
    simp [actedOn, hcmd]
  | command hop hcmd hname hid =>
    rcases hname with rfl | rfl | rfl <;>
      simp [actedOn, hcmd, commandTarget, hid, hfirst, isUpdate, Option.filter_some]

/-- The command of such an operation, where there is one, does not depend on the order. -/
theorem nameless_inOrder (h : Nameless i s) (order : IterOrder Call) :
    Nameless (inOrder order i) s := by
  cases h with
  | entry hop hinit => exact .entry hop hinit
  | command hop hcmd hname hid =>
    refine .command hop ?_ hname hid
    rcases hop with ⟨cmdType, payload, hop⟩ | ⟨client, line, hop⟩
    · rw [commandOf, hop] at hcmd
      rw [commandOf, show (inOrder order i).op = _ from hop]
      exact hcmd
    · rw [commandOf, hop] at hcmd
      rw [commandOf, show (inOrder order i).op = _ from hop]
      exact hcmd

/-- While no call is live, the command is the same in all orders. -/
theorem commandOf_inOrder (h : Nameless i s) (order : IterOrder Call)
    (hdead : ∀ e, (tables s).firstId e (·.isLive) = none) :
    commandOf (inOrder order i) s = commandOf i s := by
  cases h with
  | entry hop hinit =>
    rcases hop with hop | ⟨muted, hop⟩ | ⟨onHold, hop⟩ | ⟨digits, hop⟩ <;>
      simp [commandOf, hop, commandOnFirst, hdead, inOrder]
  | command hop hcmd hname hid =>
    rcases hop with ⟨cmdType, payload, hop⟩ | ⟨client, line, hop⟩ <;>
      simp [commandOf, hop, inOrder]

/-- No order finds a live call just if there is none. -/
theorem firstId_live_eq_none {e : Env} {T : CallTables} :
    T.firstId e (·.isLive) = none ↔
      ∀ id call, T.calls.lookup id = some call → call.state = .ended := by
  rw [CallTables.firstId, Option.map_eq_none_iff, List.find?_eq_none]
  constructor
  · intro h id call hl
    have hdead := h call (CallTables.mem_values.mpr ⟨id, hl⟩)
    simpa [Call.isLive] using hdead
  · intro h call hmem
    obtain ⟨id, hl⟩ := CallTables.mem_values.mp hmem
    simp [Call.isLive, h id call hl]

/-- Any live call can come first. -/
theorem firstId_firstly {T : CallTables} (hk : T.Keyed) {e : Env} {call : Call}
    (hl : T.calls.lookup id = some call) (hlive : call.state ≠ .ended) :
    T.firstId { e with callOrder := firstly (·.id == id) } (·.isLive) = some id := by
  have hmem : call ∈ (T.calls.entries.map Sigma.snd).filter (·.id == id) := by
    rw [List.mem_filter]
    have hentry : (⟨id, call⟩ : Sigma fun _ : UInt32 ↦ Call) ∈ T.calls.entries :=
      AList.mem_lookup_iff.mp hl
    exact ⟨List.mem_map.mpr ⟨_, hentry, rfl⟩, beq_iff_eq.mpr (hk id call hl)⟩
  have hfound : (((T.calls.entries.map Sigma.snd).filter (·.id == id)).find?
      (·.isLive)).isSome = true := by
    rw [List.find?_isSome]
    exact ⟨call, hmem, by simp [Call.isLive, hlive]⟩
  obtain ⟨first, hfirst⟩ := Option.isSome_iff_exists.mp hfound
  have hid : first.id = id := by
    have hfirst := (List.mem_filter.mp (List.mem_of_find?_eq_some hfirst)).2
    exact beq_iff_eq.mp hfirst
  have hvalues : (T.values { e with callOrder := firstly (·.id == id) }).find? (·.isLive) =
      some first := by
    rw [CallTables.values, firstly, List.find?_append, hfirst, Option.some_or]
  rw [CallTables.firstId, hvalues, Option.map_some, hid]

end Target

/-- At most one call has not ended. -/
def AtMostOneLive (T : CallTables) : Prop :=
  ∀ id id' call call', T.calls.lookup id = some call → call.state ≠ .ended →
    T.calls.lookup id' = some call' → call'.state ≠ .ended → id = id'

/-- The record 0 is not there for a mute or hold command to fall back to. -/
def NoFallback (i : Input) (s : Engine) : Prop :=
  (∀ id call, s.calls.lookup id = some call → call.state = .ended) →
    ∀ c ∈ commandOf i s, isUpdate c.1 = true → s.calls.lookup 0 = none

section Agreement

variable {values : List ActiveCall} {i : Input} {s : Engine}

/-- Without a choice, the two agree. -/
theorem sameCall_of_atMostOne (hk : (tables s).Keyed) (hagree : Agrees values (tables s))
    (h : Nameless i s) (hone : AtMostOneLive (tables s)) (hzero : NoFallback i s)
    (order : IterOrder Call) :
    (actedOn (inOrder order i) s).map (fun id ↦ (id.toNat : Int)) =
      (activeCall values).map (·.callId) := by
  have h' := nameless_inOrder h order
  cases hfirst : (tables s).firstId (inOrder order i).env (·.isLive) with
  | none =>
    have hdead := firstId_live_eq_none.mp hfirst
    have hshown : activeCall values = none := by
      rw [activeCall_eq_none]
      intro c hc
      by_contra hlive
      obtain ⟨id, call, -, hl, hcall, -⟩ := hagree.known c hc hlive
      exact hcall (hdead id call hl)
    have hacted : actedOn (inOrder order i) s = none := by
      rw [actedOn_of_none h' hfirst, commandOf_inOrder h order fun e ↦
        firstId_live_eq_none.mpr hdead]
      exact hzero hdead
    rw [hacted, hshown]
    rfl
  | some id =>
    obtain ⟨call, hl, hlive⟩ := hk.firstId_eq_some hfirst
    have hcall : call.state ≠ .ended := by simpa [Call.isLive] using hlive
    obtain ⟨c, hc, -, hc_live, -⟩ := hagree.shown id call hl hcall
    cases hshown : activeCall values with
    | none => exact absurd (activeCall_eq_none.mp hshown c hc) hc_live
    | some shown =>
      obtain ⟨hmem, hshown_live⟩ := mem_of_activeCall hshown
      obtain ⟨id', call', hid', hl', hcall', -⟩ := hagree.known shown hmem hshown_live
      have hid : id = id' := hone id id' call call' hl hcall hl' hcall'
      rw [actedOn_of_first h' hk hfirst, Option.map_some, Option.map_some, hid', hid]

/-- Two live calls can each come first, so only one of the two orders agrees with the app. -/
theorem atMostOne_of_sameCall (hk : (tables s).Keyed) (h : Nameless i s)
    (hsame : ∀ order, (actedOn (inOrder order i) s).map (fun id ↦ (id.toNat : Int)) =
      (activeCall values).map (·.callId)) : AtMostOneLive (tables s) := by
  intro id id' call call' hl hlive hl' hlive'
  have acted {id : UInt32} {call : Call} (hl : (tables s).calls.lookup id = some call)
      (hlive : call.state ≠ .ended) :
      actedOn (inOrder (firstly (·.id == id)) i) s = some id :=
    actedOn_of_first (nameless_inOrder h _) hk (firstId_firstly hk hl hlive)
  have hfirst := hsame (firstly (·.id == id))
  rw [acted hl hlive, ← hsame (firstly (·.id == id')), acted hl' hlive'] at hfirst
  exact UInt32.toNat_inj.mp (Int.ofNat_inj.mp (Option.some.inj hfirst))

/-- An operation that agrees with the app on a table without live calls acts on none. -/
theorem noFallback_of_sameCall (hagree : Agrees values (tables s)) (h : Nameless i s)
    (hsame : ∀ order, (actedOn (inOrder order i) s).map (fun id ↦ (id.toNat : Int)) =
      (activeCall values).map (·.callId)) : NoFallback i s := by
  intro hdead
  have hshown : activeCall values = none := by
    rw [activeCall_eq_none]
    intro c hc
    by_contra hlive
    obtain ⟨id, call, -, hl, hcall, -⟩ := hagree.known c hc hlive
    exact hcall (hdead id call hl)
  have hacted := hsame i.env.callOrder
  rw [hshown, Option.map_none, Option.map_eq_none_iff] at hacted
  exact (actedOn_of_none h (firstId_live_eq_none.mpr hdead)).mp hacted

end Agreement

/-- In every reachable state, and for every call list of the app that agrees with it, an
operation that names no call acts on the call that the app shows, in whatever order the hash map
hands the calls out, just if at most one call has not ended; a mute or hold command must also
find no record 0 when there is none. -/
theorem current_call_iff {is : List Input} {s : Engine}
    (run : is.foldlM engineStep Engine.initial = some s) {values : List ActiveCall}
    (hagree : Agrees values (tables s)) {i : Input} (h : Nameless i s) :
    (∀ order, (actedOn (inOrder order i) s).map (fun id ↦ (id.toNat : Int)) =
      (activeCall values).map (·.callId)) ↔ AtMostOneLive (tables s) ∧ NoFallback i s := by
  have hk : (tables s).Keyed := (Path.of_foldlM run).invariant keyed_initial
    fun _ _ _ h _ hs ↦ keyed_step h hs
  constructor
  · intro hsame
    exact ⟨atMostOne_of_sameCall hk h hsame, noFallback_of_sameCall hagree h hsame⟩
  · rintro ⟨hone, hzero⟩ order
    exact sameCall_of_atMostOne hk hagree h hone hzero order

/-- One call that rings, as an instance. -/
theorem current_call_iff_one :
    ∃ t, (signIn ++ [dial]).foldlM sessionStep Session.initial = some t ∧
      ∃ activeCalls, handleAll (fun _ ↦ 0) t.emitted = some activeCalls ∧
        ∀ order, (actedOn (inOrder order ⟨.hangup, quietEnv⟩) t.engine).map
            (fun id ↦ (id.toNat : Int)) =
          (activeCall (activeCalls.entries.map Sigma.snd)).map (·.callId) := by
  have h : ((signIn ++ [dial]).foldlM sessionStep Session.initial).map (fun t ↦
      (t.engine.initialized, t.engine.calls.keys)) = some (true, [1]) := by decide
  obtain ⟨t, run, ht⟩ := Option.map_eq_some_iff.mp h
  obtain ⟨hinit, hkeys⟩ := Prod.mk.inj ht
  obtain ⟨activeCalls, hall, hagree⟩ := agrees_of_run run fun _ ↦ 0
  have only {id : UInt32} {call : Call} (hl : t.engine.calls.lookup id = some call) : id = 1 := by
    have hmem : id ∈ t.engine.calls.keys := AList.mem_keys.mpr (AList.lookup_isSome.mp (by
      rw [hl]
      rfl))
    simpa [hkeys] using hmem
  refine ⟨t, run, activeCalls, hall, ?_⟩
  refine (current_call_iff (engine_of_session run) (hagree _ (List.Perm.refl _))
    (.entry (Or.inl rfl) hinit)).mpr ⟨?_, ?_⟩
  · intro id id' call call' hl _ hl' _
    rw [only hl, only hl']
  · rintro - c hc hupdate
    have hcmd : c.1 = "CallHangup" := by
      simp only [commandOf, commandOnFirst, hinit, if_true, Option.mem_def,
        Option.map_eq_some_iff] at hc
      obtain ⟨_, -, rfl⟩ := hc
      rfl
    rw [hcmd] at hupdate
    cases hupdate

/-- A second call from the account, which PJSIP calls 1. -/
def dialSecond : Input := { dial with env := { dial.env with rc := fun _ ↦ 1 } }

/-- The user holds the call 1. -/
def holdFirst : Input := commandInput "CallHold" [("call_id", .ofU32 1), ("hold", .bool true)]

/-- With the first call on hold and a second one on the line, the app shows the second, and
`engine_hangup` hangs up the first. -/
theorem hangup_hits_held_call :
    ∃ t, (signIn ++ [dial, dialSecond, holdFirst]).foldlM sessionStep Session.initial = some t ∧
      (∃ activeCalls, handleAll (fun _ ↦ 0) t.emitted = some activeCalls ∧
        ∀ values, values.Perm (activeCalls.entries.map Sigma.snd) →
          (activeCall values).map (·.callId) = some 2) ∧
      actedOn ⟨.hangup, quietEnv⟩ t.engine = some 1 ∧
      targets ((⟨.hangup, quietEnv⟩ : Input).acts t.engine) = [0] := by
  have h : ((signIn ++ [dial, dialSecond, holdFirst]).foldlM sessionStep Session.initial).map
      (fun t ↦ (actedOn ⟨.hangup, quietEnv⟩ t.engine,
        targets ((⟨.hangup, quietEnv⟩ : Input).acts t.engine), t.engine.calls.keys)) =
      some (some 1, [0], [1, 2]) := by decide
  have hlookups : ((signIn ++ [dial, dialSecond, holdFirst]).foldlM sessionStep
      Session.initial).map (fun t ↦ ((t.engine.calls.lookup 1).map (·.onHold),
        (t.engine.calls.lookup 2).map fun call ↦ (call.state, call.onHold))) =
      some (some true, some (.ringing, false)) := by decide
  obtain ⟨t, run, ht⟩ := Option.map_eq_some_iff.mp h
  simp only [Prod.mk.injEq] at ht
  obtain ⟨hacted, htargets, hkeys⟩ := ht
  rw [run, Option.map_some, Option.some.injEq, Prod.mk.injEq] at hlookups
  obtain ⟨hheld, hsecond⟩ := hlookups
  obtain ⟨activeCalls, hall, hagree⟩ := agrees_of_run run fun _ ↦ 0
  refine ⟨t, run, ⟨activeCalls, hall, fun values hvalues ↦ ?_⟩, hacted, htargets⟩
  have agree := hagree values hvalues
  obtain ⟨second, hl, hfields⟩ := Option.map_eq_some_iff.mp hsecond
  obtain ⟨hstate, hactive⟩ := Prod.mk.inj hfields
  have hlive : second.state ≠ .ended := by
    rw [hstate]
    decide
  obtain ⟨c', hc', -, hc'_live, hc'_hold⟩ := agree.shown 2 second hl hlive
  cases hshown : activeCall values with
  | none => exact absurd (activeCall_eq_none.mp hshown c' hc') hc'_live
  | some c =>
    have hfore := activeCall_foreground hshown hc' hc'_live (hc'_hold.trans hactive)
    obtain ⟨hmem, hc_live⟩ := mem_of_activeCall hshown
    obtain ⟨id, call, hid, hcall, -, hhold⟩ := agree.known c hmem hc_live
    have hkey : id ∈ t.engine.calls.keys := AList.mem_keys.mpr (AList.lookup_isSome.mp (by
      rw [show t.engine.calls.lookup id = some call from hcall]
      rfl))
    have hcases : id = 1 ∨ id = 2 := by simpa [hkeys] using hkey
    rcases hcases with rfl | rfl
    · rw [show t.engine.calls.lookup 1 = some call from hcall, Option.map_some, ← hhold,
        hfore] at hheld
      simp at hheld
    · rw [Option.map_some, hid]
      rfl

end PacketDial.Ui
