import Mathlib.Data.Finset.Basic
import PacketDial.Ui.Sightings

/-!
# The integration layer of the app

`IntegrationService` (`app_flutter/lib/core/integration_service.dart`) runs the hooks of a call:
on its ring, its answer and its end. `EngineChannel` (`engine_channel.dart:495–618`) hands each
`CallStateChanged` event to it over the event bus, and at the end of a call directly as well. The
bus delivers in order and later; lookups in the CRM resolve in any order.
-/

namespace PacketDial.Ui

open PacketDial.Core PacketDial.Lib PacketDial.System

/-- `CustomerData` (`customer_data.dart:2–14`). -/
structure CustomerData where
  number : String
  contactName : String
  company : String
  contactLink : String
  customFields : Json

/-- What a lookup found. Beside the data stands the URI that was looked up, which the source does
not keep. -/
structure Resolved where
  uri : String
  data : CustomerData

/-- The state of `IncomingCallNotifier`: the banner of an incoming call. -/
structure Banner where
  uri : String
  customerData : Option Resolved

/-- The hooks that look at a call. -/
inductive Hook where
  | ring
  | answered
  | ended
  | upload
  deriving DecidableEq

/-- One run of a hook, with the customer data that it used. -/
structure HookRun where
  hook : Hook
  call : ActiveCall
  data : Option Resolved

/-- The app: the calls of `EngineChannel`, the events on the bus, the fields of
`IntegrationService` with its timers, and the lookups and uploads under way. The events handled and
delivered, the lookups resolved and the runs of the hooks are kept beside. -/
structure App where
  activeCalls : ActiveCalls
  bus : List ActiveCall
  ringingCalls : Finset Int
  answeredCalls : Finset Int
  endedCalls : Finset Int
  timers : List Int
  lookups : List ActiveCall
  uploads : List ActiveCall
  lastCustomerData : Option Resolved
  banner : Option Banner
  reported : List ActiveCall
  delivered : List ActiveCall
  resolved : List (String × Option CustomerData)
  runs : List HookRun

/-- The app at its start; its shell watches the banner, so both services listen to the bus. -/
def App.initial : App where
  activeCalls := ∅
  bus := []
  ringingCalls := ∅
  answeredCalls := ∅
  endedCalls := ∅
  timers := []
  lookups := []
  uploads := []
  lastCustomerData := none
  banner := none
  reported := []
  delivered := []
  resolved := []
  runs := []

namespace App

/-- A hook runs. -/
def record (a : App) (hook : Hook) (call : ActiveCall) (data : Option Resolved) : App :=
  { a with runs := a.runs ++ [⟨hook, call, data⟩] }

/-- `onIncomingCall` up to the lookup (`integration_service.dart:112–124`). The webhook and the
screen pop after it use the data of this very lookup. -/
def onIncomingCall (a : App) (call : ActiveCall) : App :=
  { a.record .ring call none with lookups := a.lookups ++ [call] }

/-- `onCallAnswered` (`integration_service.dart:168–175`). -/
def onCallAnswered (a : App) (call : ActiveCall) : App :=
  a.record .answered call a.lastCustomerData

/-- `onCallEnd` (`integration_service.dart:178–218`). Of a call that ended in `EngineChannel` the
recording may be uploaded afterwards; a call that came over the bus has none. -/
def onCallEnd (a : App) (call : ActiveCall) (direct : Bool) : App :=
  { a.record .ended call a.lastCustomerData with
    uploads := if direct then a.uploads ++ [call] else a.uploads }

/-- `_onCallEvent` of `IntegrationService` (`integration_service.dart:39–109`). The state and the
direction of an event travel as text. -/
def onCallEvent (a : App) (call : ActiveCall) : App :=
  if call.direction = .incoming ∧ call.state = .ringing then
    if call.callId ∈ a.ringingCalls then a
    else { a with ringingCalls := insert call.callId a.ringingCalls }.onIncomingCall call
  else if call.state = .inCall then
    if call.callId ∈ a.answeredCalls then a
    else { a with
        answeredCalls := insert call.callId a.answeredCalls
        ringingCalls := a.ringingCalls.erase call.callId }.onCallAnswered call
  else if call.state = .ended then
    if call.callId ∈ a.endedCalls then a
    else { a with
        endedCalls := insert call.callId a.endedCalls
        ringingCalls := a.ringingCalls.erase call.callId
        answeredCalls := a.answeredCalls.erase call.callId
        timers := a.timers ++ [call.callId] }.onCallEnd call false
  else a

/-- `_onCallEvent` of `IncomingCallNotifier` (`incoming_call_provider.dart:34–57`); the engine puts
no customer data into an event. -/
def showCallEvent (a : App) (dndEnabled : Bool) (call : ActiveCall) : App :=
  if call.direction = .incoming ∧ call.state = .ringing ∧ dndEnabled = false then
    { a with banner := some ⟨call.uri, none⟩ }
  else if call.state = .inCall ∨ call.state = .ended then { a with banner := none }
  else a

/-- What `EngineChannel` does with the call of an event (`engine_channel.dart:519–616`): it enters
or removes the call, posts the event to the bus and runs the end hook of a call that it knew. -/
def onReport (a : App) (call : ActiveCall) : App :=
  let previousCall := a.activeCalls.lookup call.callId
  let a := { a with
    activeCalls := if call.state = .ended then a.activeCalls.erase call.callId
      else a.activeCalls.insert call.callId call
    bus := a.bus ++ [call]
    reported := a.reported ++ [call] }
  if call.state = .ended then
    match previousCall with
    | some historyCall => a.onCallEnd historyCall true
    | none => a
  else a

/-- The case `CallStateChanged` of `_handleEvent`, as far as the calls and their hooks go, handled
at the time `now`. -/
def handle (now : Int) (payload : Json) (a : App) : Option App := do
  let callId := (← asNumToInt (payload.get "call_id")).getD 0
  let call ← eventCall now payload (a.activeCalls.lookup callId)
  return a.onReport call

/-- Events handled in order, the `k`th at the time `now k`. -/
def handleEvents (now : Nat → Int) : Nat → List Json → App → Option App
  | _, [], a => some a
  | k, payload :: payloads, a => (a.handle (now k) payload).bind (handleEvents now (k + 1) payloads)

/-- The continuation of `onIncomingCall` when its lookup resolves
(`integration_service.dart:124–129`), and `_onCustomerDataResolved` of the banner
(`incoming_call_provider.dart:24–32`). -/
def resolve (a : App) (uri : String) (result : Option CustomerData) : App :=
  let data := result.map (Resolved.mk uri)
  { a with
    lastCustomerData := data
    resolved := a.resolved ++ [(uri, result)]
    banner := match data with
      | some data => a.banner.map fun banner ↦ { banner with customerData := some data }
      | none => a.banner }

end App

/-- What the app does on its own: an event is delivered, a timer of five seconds fires, a lookup
resolves, a recording is uploaded (`integration_service.dart:220–291`), the banner is cleared. -/
inductive AppAct where
  | deliver (dndEnabled : Bool)
  | expire (k : Nat)
  | resolve (k : Nat) (result : Option CustomerData)
  | upload (k : Nat)
  | clearBanner

/-- One step of the app. -/
def App.act (a : App) : AppAct → Option App
  | .deliver dndEnabled =>
    match a.bus with
    | [] => none
    | call :: bus => some ({ a with bus := bus, delivered := a.delivered ++ [call] }.showCallEvent
        dndEnabled call |>.onCallEvent call)
  | .expire k => a.timers[k]?.map fun callId ↦
    { a with timers := a.timers.eraseIdx k, endedCalls := a.endedCalls.erase callId }
  | .resolve k result => a.lookups[k]?.map fun call ↦
    { a with lookups := a.lookups.eraseIdx k }.resolve call.uri result
  | .upload k => a.uploads[k]?.map fun call ↦
    { a with uploads := a.uploads.eraseIdx k }.record .upload call a.lastCustomerData
  | .clearBanner => some { a with banner := none }

/-- The engine and the app, which has handled all events so far, `handled` of them. -/
structure Office where
  engine : Engine
  app : App
  handled : Nat

/-- Before the first operation. -/
def Office.initial : Office := ⟨Engine.initial, .initial, 0⟩

/-- A step of the engine, whose events the app handles, or one of the app. -/
inductive OfficeMove where
  | input (i : Input)
  | app (act : AppAct)

/-- One step of the whole. -/
def officeStep (now : Nat → Int) (t : Office) : OfficeMove → Option Office
  | .input i => do
    let s ← engineStep t.engine i
    let payloads := reports (i.acts t.engine)
    let app ← t.app.handleEvents now t.handled payloads
    return ⟨s, app, t.handled + payloads.length⟩
  | .app act => (t.app.act act).map fun app ↦ { t with app }

section Sessions

variable {now : Nat → Int} {t u : Office} {i : Input} {s : Engine}

/-- Handling a report never throws. -/
theorem App.handle_callPayload (accountName displayName username : String) (call : Call)
    (time : Int) (a : App) : a.handle time (callPayload accountName displayName username call) =
      some (a.onReport (shownCall time (a.activeCalls.lookup (call.id.toNat : Int)) call)) := by
  -- The texts of the direction, the state and the time are literals in each case.
  rcases call with ⟨_, _, _, direction, state, _, _, _, resumed, _, _, _⟩
  cases direction <;> cases state <;> cases resumed <;> rfl

/-- The call of a report has ended just if the record has. -/
theorem shownCall_ended {time : Int} {previous : Option ActiveCall} {call : Call} :
    (shownCall time previous call).state = .ended ↔ call.state = .ended := by
  unfold shownCall shownState
  cases call.state <;> simp

/-- A step of the engine in the session. -/
theorem engine_of_officeStep (h : officeStep now t (.input i) = some u) :
    engineStep t.engine i = some u.engine := by
  obtain ⟨s, hs, h⟩ := Option.bind_eq_some_iff.mp h
  obtain ⟨app, -, h⟩ := Option.bind_eq_some_iff.mp h
  cases h
  exact hs

/-- The app after a step of the engine without reports. -/
theorem app_of_silent (h : officeStep now t (.input i) = some u)
    (hr : reports (i.acts t.engine) = []) : u.app = t.app := by
  obtain ⟨s, hs, h⟩ := Option.bind_eq_some_iff.mp h
  rw [hr] at h
  cases h
  rfl

/-- The app after a step of the engine that reports one record. -/
theorem app_of_report {call : Call} {report : CallAct}
    (h : officeStep now t (.input i) = some u) (hreport : IsReport call report)
    (hr : reports (i.acts t.engine) = reports [report]) :
    u.app = t.app.onReport (shownCall (now t.handled)
      (t.app.activeCalls.lookup (call.id.toNat : Int)) call) := by
  obtain ⟨accountName, displayName, username, rfl⟩ := hreport
  obtain ⟨s, hs, h⟩ := Option.bind_eq_some_iff.mp h
  obtain ⟨app, happ, h⟩ := Option.bind_eq_some_iff.mp h
  rw [hr, reports, List.filterMap_cons, List.filterMap_nil] at happ
  unfold App.handleEvents App.handleEvents at happ
  rw [App.handle_callPayload] at happ
  cases happ
  cases h
  rfl

end Sessions

end PacketDial.Ui
