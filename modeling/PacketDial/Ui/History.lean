import PacketDial.Ui.CallMirror

/-!
# The call history of the app

What the handler of `CallStateChanged` events does with a call that ends
(`app_flutter/lib/core/engine_channel.dart:546–618`): it classifies the call from the entry the
app had of it and from the `sip_code` of the event, and saves the result
(`account_service.dart:360–367`). The engine drops the status that PJSIP gives, so no event
carries a code.
-/

namespace PacketDial.Ui

open PacketDial.Core PacketDial.Lib PacketDial.System

/-- `CallDirection.name`. -/
def CallDirection.name : CallDirection → String
  | .outgoing => "outgoing"
  | .incoming => "incoming"

/-- `CallHistorySchema` (`call_history_schema.dart:1–25`), without the random id it gets when it
is saved. -/
structure CallHistorySchema where
  accountId : String
  uri : String
  direction : String
  timestamp : Int
  durationSeconds : Int
  sipCode : Option Int
  sipReason : Option String
  result : String
  deriving DecidableEq, Repr

/-- What the app keeps of calls: the list of the live ones and `AccountService._history`. Beside
each history entry stands the id of the call whose event saved it, which the source does not
keep. -/
structure Phone where
  activeCalls : ActiveCalls
  history : List (Int × CallHistorySchema)

/-- The app at its start. -/
def Phone.initial : Phone := ⟨∅, []⟩

/-- The call that an event describes (`engine_channel.dart:496–516`). -/
def eventCall (now : Int) (payload : Json) (previousCall : Option ActiveCall) :
    Option ActiveCall := do
  let callId := (← asNumToInt (payload.get "call_id")).getD 0
  let state := CallState.fromString ((← asString (payload.get "state")).getD "")
  let accountId := (← asString (payload.get "account_id")).getD ""
  let uri := (← asString (payload.get "uri")).getD ""
  let direction := CallDirection.fromString ((← asString (payload.get "direction")).getD "")
  let muted := (← asBool (payload.get "muted")).getD false
  let onHold := (← asBool (payload.get "on_hold")).getD false
  let startedAt := (previousCall.bind (·.startedAt)).or
    (if state = .inCall then some now else none)
  let accumulatedSeconds := (← asInt (payload.get "accumulated_active_secs")).getD 0
  let lastResumedAt := (← asInt (payload.get "last_resumed_at")).map (· * 1000)
  let call : ActiveCall :=
    { callId, accountId, uri, direction, state, muted, onHold, startedAt, accumulatedSeconds,
      lastResumedAt }
  return call

/-- The call was connected, by the entry that the app had of it (`engine_channel.dart:550–553`). -/
def wasConnected : Option ActiveCall → Bool
  | some previousCall =>
    previousCall.state = .inCall || previousCall.startedAt.isSome ||
      decide (previousCall.accumulatedSeconds > 0)
  | none => false

/-- The result of a call that ended (`engine_channel.dart:565–588`). -/
def historyResult (direction : CallDirection) (wasConnected : Bool) (sipCode : Option Int) :
    String :=
  if direction = .incoming then
    if sipCode = some 487 then if wasConnected then "Answered" else "Missed"
    else if sipCode = some 603 ∨ sipCode = some 486 then "Rejected"
    else if wasConnected then "Answered"
    else "Missed"
  else if wasConnected then "Answered"
  else if sipCode = some 486 then "Busy"
  else if sipCode = some 487 then "Cancelled"
  else if sipCode.any (· ≥ 400) then "Failed"
  else "Disconnected"

/-- The entry of a call that ended (`engine_channel.dart:590–604`). -/
def historyEntry (now : Int) (historyCall : ActiveCall) (wasConnected : Bool)
    (sipCode : Option Int) (sipReason : Option String) : CallHistorySchema where
  accountId := historyCall.accountId
  uri := historyCall.uri
  direction := historyCall.direction.name
  timestamp := now
  durationSeconds := match historyCall.startedAt with
    | some startedAt => (now - startedAt).tdiv 1000
    | none => 0
  sipCode := sipCode
  sipReason := sipReason
  result := historyResult historyCall.direction wasConnected sipCode

/-- The case `CallStateChanged` of `_handleEvent` with its history
(`engine_channel.dart:495–618`), handled at the time `now`. -/
def handleCallEvent (now : Int) (payload : Json) (phone : Phone) : Option Phone := do
  let callId := (← asNumToInt (payload.get "call_id")).getD 0
  let previousCall := phone.activeCalls.lookup callId
  let call ← eventCall now payload previousCall
  if call.state = .ended then
    let sipCode ← asNumToInt (payload.get "sip_code")
    let sipReason ← asString (payload.get "sip_reason")
    let historyCall := previousCall.getD call
    let entry := historyEntry now historyCall (wasConnected previousCall) sipCode sipReason
    return ⟨phone.activeCalls.erase callId, phone.history ++ [(callId, entry)]⟩
  else return ⟨phone.activeCalls.insert callId call, phone.history⟩

/-- Events handled in order, the `k`th at the time `now k`. -/
def handleCallEvents (now : Nat → Int) : Nat → List Json → Phone → Option Phone
  | _, [], phone => some phone
  | k, payload :: payloads, phone =>
    (handleCallEvent (now k) payload phone).bind (handleCallEvents now (k + 1) payloads)

section Reports

variable (accountName displayName username : String) (call : Call) (now : Int)

/-- The entry of an ended call whose app entry was `previous`: no status has reached the app. -/
def endedEntry (previous : Option ActiveCall) : CallHistorySchema :=
  historyEntry now (previous.getD (shownCall now previous call)) (wasConnected previous) none none

/-- The list of calls that a report leaves. -/
def shownAfter (phone : Phone) : ActiveCalls :=
  if call.state = .ended then phone.activeCalls.erase (call.id.toNat : Int)
  else phone.activeCalls.insert (call.id.toNat : Int)
    (shownCall now (phone.activeCalls.lookup (call.id.toNat : Int)) call)

/-- The entries that a report saves: one, if the call has ended. -/
def savedBy (phone : Phone) : List (Int × CallHistorySchema) :=
  if call.state = .ended then
    [((call.id.toNat : Int),
      endedEntry call now (phone.activeCalls.lookup (call.id.toNat : Int)))]
  else []

variable {call} in
/-- Nothing is saved of a live call. -/
theorem savedBy_live (h : call.state ≠ .ended) (phone : Phone) : savedBy call now phone = [] :=
  if_neg h

variable {call} in
/-- One entry is saved of a call that has ended. -/
theorem savedBy_ended (h : call.state = .ended) (phone : Phone) :
    savedBy call now phone = [((call.id.toNat : Int),
      endedEntry call now (phone.activeCalls.lookup (call.id.toNat : Int)))] :=
  if_pos h

/-- Handling a report of a record never throws: it shows the record and saves the entry of a
call that has ended. -/
theorem handleCallEvent_callPayload (phone : Phone) :
    handleCallEvent now (callPayload accountName displayName username call) phone =
      some ⟨shownAfter call now phone, phone.history ++ savedBy call now phone⟩ := by
  -- The texts of the direction, the state and the time are literals in each case.
  rcases call with ⟨_, _, _, direction, state, _, _, _, resumed, _, _, _⟩
  cases direction <;> cases state <;> cases resumed <;>
    simp [savedBy, shownAfter] <;> rfl

/-- The list of calls is the one that the handler keeps without the history. -/
theorem handleCallStateChanged_eq (phone : Phone) :
    handleCallStateChanged now (callPayload accountName displayName username call)
      phone.activeCalls = some (shownAfter call now phone) :=
  handle_callPayload accountName displayName username call now phone.activeCalls

/-- The status is in no entry of an ended call. -/
theorem endedEntry_sipCode (previous : Option ActiveCall) :
    (endedEntry call now previous).sipCode = none := rfl

end Reports

/-- The engine and the app, which has handled all events so far, `handled` of them. -/
structure PhoneSession where
  engine : Engine
  phone : Phone
  handled : Nat

/-- The session before the first operation. -/
def PhoneSession.initial : PhoneSession := ⟨Engine.initial, .initial, 0⟩

/-- One step of the engine, whose events the app handles. -/
def phoneStep (now : Nat → Int) (t : PhoneSession) (i : Input) : Option PhoneSession := do
  let s ← engineStep t.engine i
  let payloads := reports (i.acts t.engine)
  let phone ← handleCallEvents now t.handled payloads t.phone
  return ⟨s, phone, t.handled + payloads.length⟩

section Steps

variable {now : Nat → Int} {t u : PhoneSession} {i : Input} {s : Engine}

/-- A step of the session is one of the engine. -/
theorem engine_of_phoneStep (h : phoneStep now t i = some u) :
    engineStep t.engine i = some u.engine := by
  unfold phoneStep at h
  obtain ⟨s, hs, h⟩ := Option.bind_eq_some_iff.mp h
  obtain ⟨phone, -, h⟩ := Option.bind_eq_some_iff.mp h
  cases h
  exact hs

/-- A step without reports is nothing to the app. -/
theorem phoneStep_silent (hs : engineStep t.engine i = some s)
    (hr : reports (i.acts t.engine) = []) :
    phoneStep now t i = some ⟨s, t.phone, t.handled⟩ := by
  unfold phoneStep
  rw [hs, hr]
  rfl

/-- What the app makes of a step that reports one record. -/
theorem phoneStep_report (now : Nat → Int) {call : Call} {report : CallAct}
    (hreport : IsReport call report) (hs : engineStep t.engine i = some s)
    (hr : reports (i.acts t.engine) = reports [report]) :
    phoneStep now t i = some ⟨s, ⟨shownAfter call (now t.handled) t.phone,
      t.phone.history ++ savedBy call (now t.handled) t.phone⟩, t.handled + 1⟩ := by
  obtain ⟨accountName, displayName, username, rfl⟩ := hreport
  have hhandle := handleCallEvent_callPayload accountName displayName username call
    (now t.handled) t.phone
  unfold phoneStep
  rw [hs, hr, reports, List.filterMap_cons, List.filterMap_nil]
  simp only [Option.bind_eq_bind, Option.bind_some, handleCallEvents, hhandle]
  rfl

/-- A step without reports leaves the app alone. -/
theorem phone_of_silent (hs : phoneStep now t i = some u) (hr : reports (i.acts t.engine) = []) :
    u.phone = t.phone := by
  rw [phoneStep_silent (engine_of_phoneStep hs) hr] at hs
  rw [← Option.some.inj hs]

/-- The app after a step that reports one record. -/
theorem phone_of_report {call : Call} {report : CallAct} (hs : phoneStep now t i = some u)
    (hreport : IsReport call report) (hr : reports (i.acts t.engine) = reports [report]) :
    u.phone = ⟨shownAfter call (now t.handled) t.phone,
      t.phone.history ++ savedBy call (now t.handled) t.phone⟩ := by
  rw [phoneStep_report now hreport (engine_of_phoneStep hs) hr] at hs
  rw [← Option.some.inj hs]

end Steps

/-- The state callback as the shim makes it (`pjsip_shim.c:387–405`): `pjsip_on_call_state`
does not read its third argument, the last status of the call (`lib.rs:541`). -/
def onCallState (pjCallId invState _statusCode : Int) : Op := .onCallState pjCallId invState

/-- The entry tells the status and how the classifier takes it for a call that never
connected. -/
def TellsStatus (statusCode : Int) (direction : CallDirection) (entry : CallHistorySchema) :
    Prop :=
  entry.sipCode = some statusCode ∧ entry.result = historyResult direction false (some statusCode)

section Status

variable {now : Nat → Int} {t u : PhoneSession}

/-- A `DISCONNECTED` callback reports the record it is routed to, as ended. -/
theorem report_of_disconnect {pjCallId invState : Int} {i : Input} {id : UInt32} {call : Call}
    {acts : List CallAct} {T : CallTables} {s : Engine}
    (hop : i.op = .onCallState pjCallId invState) (hinv : invCallState invState = some .ended)
    (h : Change i s acts T) (hmap : s.pjsipCallMap.lookup pjCallId = some id)
    (hl : s.calls.lookup id = some call) :
    ∃ time report, IsReport (stateRecord .ended time call) report ∧
      reports acts = reports [report] := by
  cases h with
  | state hop' hstate h =>
    rw [hop] at hop'
    cases hop'
    cases hinv.symm.trans hstate
    cases h with
    | unrouted hmissing =>
      rcases hmissing with hnone | ⟨id', hid', hnone⟩
      · cases hmap.symm.trans hnone
      · cases hmap.symm.trans hid'
        cases hl.symm.trans hnone
    | routed hid' hl' hr hstop _ =>
      cases hmap.symm.trans hid'
      cases hl.symm.trans hl'
      obtain ⟨⟨ops, rfl, -⟩, -⟩ := hstop
      refine ⟨_, _, hr, ?_⟩
      rw [← List.singleton_append, reports_append, reports_map_op, List.append_nil]
  | quiet hquiet _ =>
    rw [hop, isCallCallback, hinv] at hquiet
    cases hquiet
  | command hcmd _ =>
    rw [commandOf, hop] at hcmd
    cases hcmd
  | _ hop' =>
    rw [hop] at hop'
    cases hop'

/-- Every run of the session files records under their own ids. -/
theorem keyed_of_phoneRun {is : List Input}
    (run : is.foldlM (phoneStep now) PhoneSession.initial = some t) :
    (tables t.engine).Keyed :=
  (Path.of_foldlM run).invariant (I := fun t ↦ (tables t.engine).Keyed) keyed_initial
    fun _ _ _ hk _ hs ↦ keyed_step hk (engine_of_phoneStep hs)

/-- After a `DISCONNECTED` callback the app has one entry more, of the call it ends. -/
theorem history_of_disconnect {pjCallId invState : Int} {i : Input} {id : UInt32} {call : Call}
    (hk : (tables t.engine).Keyed) (step : phoneStep now t i = some u)
    (hop : i.op = .onCallState pjCallId invState) (hinv : invCallState invState = some .ended)
    (hmap : t.engine.pjsipCallMap.lookup pjCallId = some id)
    (hl : t.engine.calls.lookup id = some call) :
    ∃ ended, u.phone.history = t.phone.history ++ [((id.toNat : Int),
      endedEntry ended (now t.handled) (t.phone.activeCalls.lookup (id.toNat : Int)))] := by
  obtain ⟨time, report, hr, hreports⟩ :=
    report_of_disconnect hop hinv (step_change hk (engine_of_phoneStep step)) hmap hl
  have hid : (stateRecord .ended time call).id = id := by
    rw [stateRecord_id]
    exact hk id call hl
  refine ⟨stateRecord .ended time call, ?_⟩
  rw [phone_of_report step hr hreports, savedBy_ended _ (stateRecord_state _ _ _), hid]

/-- In no run does the entry of a call that PJSIP disconnects tell the status. -/
theorem status_untold {is : List Input} {pjCallId statusCode : Int} {env : Env} {id : UInt32}
    {call : Call} (run : is.foldlM (phoneStep now) PhoneSession.initial = some t)
    (step : phoneStep now t ⟨onCallState pjCallId 6 statusCode, env⟩ = some u)
    (hmap : t.engine.pjsipCallMap.lookup pjCallId = some id)
    (hl : t.engine.calls.lookup id = some call) :
    ∃ entry, u.phone.history = t.phone.history ++ [((id.toNat : Int), entry)] ∧
      ¬TellsStatus statusCode (shownDirection call.direction) entry := by
  obtain ⟨ended, hhistory⟩ := history_of_disconnect (keyed_of_phoneRun run) step rfl rfl hmap hl
  refine ⟨_, hhistory, fun htells ↦ ?_⟩
  have hcode := htells.1
  rw [endedEntry_sipCode] at hcode
  cases hcode

/-- A call that the other side is too busy to take, as an instance. -/
theorem status_untold_busy :
    ∃ t u, (signIn ++ [dial]).foldlM (phoneStep fun _ ↦ 0) PhoneSession.initial = some t ∧
      phoneStep (fun _ ↦ 0) t ⟨onCallState 0 6 486, quietEnv⟩ = some u ∧
      ∃ entry, u.phone.history = t.phone.history ++ [(1, entry)] ∧
        ¬TellsStatus 486 .outgoing entry := by
  have h : ((signIn ++ [dial]).foldlM (phoneStep fun _ ↦ 0) PhoneSession.initial).map
      (fun t ↦ (t.engine.pjsipCallMap.lookup 0,
        (t.engine.calls.lookup 1).map (·.direction),
        (phoneStep (fun _ ↦ 0) t ⟨onCallState 0 6 486, quietEnv⟩).isSome)) =
        some (some 1, some .outgoing, true) := by decide
  obtain ⟨t, ht, hlooks⟩ := Option.map_eq_some_iff.mp h
  rw [Prod.mk.injEq, Prod.mk.injEq] at hlooks
  obtain ⟨hmap, hdirection, hstep⟩ := hlooks
  obtain ⟨call, hl, hcall⟩ := Option.map_eq_some_iff.mp hdirection
  obtain ⟨u, hu⟩ := Option.isSome_iff_exists.mp hstep
  have huntold := status_untold ht hu hmap hl
  rw [hcall] at huntold
  exact ⟨t, u, ht, hu, huntold⟩

/-- A dialled call is refused with the status 486, and the app writes neither the status nor
that the line was busy. -/
theorem busy_not_told :
    ∃ t u entry, (signIn ++ [dial]).foldlM (phoneStep fun _ ↦ 0) PhoneSession.initial = some t ∧
      t.engine.calls.lookup 1 ≠ none ∧ wasConnected (t.phone.activeCalls.lookup 1) = false ∧
      phoneStep (fun _ ↦ 0) t ⟨onCallState 0 6 486, quietEnv⟩ = some u ∧
      u.phone.history = [(1, entry)] ∧ entry.sipCode = none ∧
      entry.result = "Disconnected" ∧ historyResult .outgoing false (some 486) = "Busy" := by
  have h : ((signIn ++ [dial]).foldlM (phoneStep fun _ ↦ 0) PhoneSession.initial).bind
      (fun t ↦ (phoneStep (fun _ ↦ 0) t ⟨onCallState 0 6 486, quietEnv⟩).map fun u ↦
        ((t.engine.calls.lookup 1).isSome, wasConnected (t.phone.activeCalls.lookup 1),
          u.phone.history)) =
        some (true, false, [(1, ⟨"a", "sip:x@y", "outgoing", 0, 0, none, none,
          "Disconnected"⟩)]) := by decide
  obtain ⟨t, ht, hstep⟩ := Option.bind_eq_some_iff.mp h
  obtain ⟨u, hu, hlooks⟩ := Option.map_eq_some_iff.mp hstep
  rw [Prod.mk.injEq, Prod.mk.injEq] at hlooks
  obtain ⟨hcall, hnever, hhistory⟩ := hlooks
  refine ⟨t, u, _, ht, ?_, hnever, hu, hhistory, rfl, rfl, by decide⟩
  exact Option.isSome_iff_ne_none.mp hcall

end Status

end PacketDial.Ui
