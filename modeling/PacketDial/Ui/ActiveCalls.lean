import Mathlib.Data.List.AList
import PacketDial.Core.Json

/-!
# The call list of the app

The handler of `CallStateChanged` events in `app_flutter/lib/core/engine_channel.dart:495–523`
and the types of `app_flutter/lib/models/call.dart`. A failed cast throws, which is `none`
here. A `DateTime` is its milliseconds since the epoch, without the range that Dart allows it.
-/

namespace PacketDial.Ui

open PacketDial.Core

/-- `CallDirection` (`call.dart:2–8`). -/
inductive CallDirection where
  | outgoing
  | incoming
  deriving DecidableEq, Repr

/-- `CallDirection.fromString`. -/
def CallDirection.fromString (s : String) : CallDirection :=
  if s = "Incoming" then .incoming else .outgoing

/-- `CallState` (`call.dart:11–30`). -/
inductive CallState where
  | ringing
  | inCall
  | onHold
  | ended
  deriving DecidableEq, Repr

/-- `CallState.fromString`. -/
def CallState.fromString : String → CallState
  | "InCall" => .inCall
  | "OnHold" => .onHold
  | "Ended" => .ended
  | _ => .ringing

/-- `ActiveCall` (`call.dart:33–44`). -/
structure ActiveCall where
  callId : Int
  accountId : String
  uri : String
  direction : CallDirection
  state : CallState
  muted : Bool
  onHold : Bool
  startedAt : Option Int
  accumulatedSeconds : Int
  lastResumedAt : Option Int
  deriving DecidableEq, Repr

/-- `EngineChannel.activeCalls` (`engine_channel.dart:62`). -/
abbrev ActiveCalls := AList fun _ : Int ↦ ActiveCall

/-- The cast `as num?` and `?.toInt()`. -/
def asNumToInt : Json → Option (Option Int)
  | .null => some none
  | .num (.posInt n) => some (some n)
  | .num (.negInt n) => some (some n)
  | .num (.float x) => if x.isFinite then some (some x.toInt64.toInt) else none
  | _ => none

/-- The cast `as int?`. -/
def asInt : Json → Option (Option Int)
  | .null => some none
  | .num (.posInt n) => some (some n)
  | .num (.negInt n) => some (some n)
  | _ => none

/-- The cast `as String?`. -/
def asString : Json → Option (Option String)
  | .null => some none
  | .str s => some (some s)
  | _ => none

/-- The cast `as bool?`. -/
def asBool : Json → Option (Option Bool)
  | .null => some none
  | .bool b => some (some b)
  | _ => none

/-- The case `CallStateChanged` of `_handleEvent` (`engine_channel.dart:495–523`), handled at
the time `now`. -/
def handleCallStateChanged (now : Int) (payload : Json) (activeCalls : ActiveCalls) :
    Option ActiveCalls := do
  let callId := (← asNumToInt (payload.get "call_id")).getD 0
  let state := CallState.fromString ((← asString (payload.get "state")).getD "")
  let previousCall := activeCalls.lookup callId
  let accountId := (← asString (payload.get "account_id")).getD ""
  let uri := (← asString (payload.get "uri")).getD ""
  let direction := CallDirection.fromString ((← asString (payload.get "direction")).getD "")
  let muted := (← asBool (payload.get "muted")).getD false
  let onHold := (← asBool (payload.get "on_hold")).getD false
  let startedAt := (previousCall.bind (·.startedAt)).or
    (if state = .inCall then some now else none)
  let accumulatedSeconds := (← asInt (payload.get "accumulated_active_secs")).getD 0
  let lastResumedAt := (← asInt (payload.get "last_resumed_at")).map (· * 1000)
  let eventCall : ActiveCall :=
    { callId, accountId, uri, direction, state, muted, onHold, startedAt, accumulatedSeconds,
      lastResumedAt }
  if state = .ended then return activeCalls.erase callId
  else return activeCalls.insert callId eventCall

/-- Events handled in order from `activeCalls` on, the `k`th at the time `now k`. -/
def handleFrom (now : Nat → Int) : Nat → List Json → ActiveCalls → Option ActiveCalls
  | _, [], activeCalls => some activeCalls
  | k, payload :: payloads, activeCalls =>
    (handleCallStateChanged (now k) payload activeCalls).bind
      (handleFrom now (k + 1) payloads)

/-- The call list after the app has handled the events in order. -/
def handleAll (now : Nat → Int) (payloads : List Json) : Option ActiveCalls :=
  handleFrom now 0 payloads ∅

/-- Handling events in two batches. -/
theorem handleFrom_append (now : Nat → Int) (k : Nat) (ps qs : List Json)
    (activeCalls : ActiveCalls) :
    handleFrom now k (ps ++ qs) activeCalls =
      (handleFrom now k ps activeCalls).bind (handleFrom now (k + ps.length) qs) := by
  induction ps generalizing k activeCalls with
  | nil => rfl
  | cons p ps ih =>
    rw [List.cons_append, handleFrom, handleFrom, Option.bind_assoc]
    congr 1
    funext next
    rw [ih, List.length_cons, Nat.add_right_comm, Nat.add_assoc]

end PacketDial.Ui
