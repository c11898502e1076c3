import PacketDial.Core.Events
import PacketDial.Core.Serde
import PacketDial.Ui.Payloads
import PacketDial.Ui.Text

/-!
# Events on their way to the app

`push_event` hands the callback the id of an event and the text of its payload
(`core_rust/src/lib.rs:1022–1027`, `3519–3548`); `_handleNativeEvent` decodes the text and finds the
type of the id again (`app_flutter/lib/core/engine_channel.dart:172–211`, `264–359`). An event
without an id does not come this way. The engine writes with `serde_json`, the app decodes with
`jsonDecode`; both are parameters.
-/

namespace PacketDial.Ui

open PacketDial.Core PacketDial.Lib

/-- `_eventIdToType` (`engine_channel.dart:264–359`), over the ids of `ffi/engine.dart:44–92`. -/
def eventIdToType : Nat → String
  | 1 => "EngineReady"
  | 2 => "RegistrationStateChanged"
  | 3 => "CallStateChanged"
  | 4 => "MediaStatsUpdated"
  | 5 => "AudioDeviceList"
  | 6 => "AudioDevicesSet"
  | 8 => "SipMessageCaptured"
  | 9 => "DiagBundleReady"
  | 10 => "AccountSecurityUpdated"
  | 11 => "CredStored"
  | 12 => "CredRetrieved"
  | 13 => "EnginePong"
  | 14 => "LogLevelSet"
  | 15 => "LogBufferResult"
  | 16 => "EngineLog"
  | 17 => "CallTransferInitiated"
  | 18 => "CallTransferStatus"
  | 19 => "CallTransferCompleted"
  | 20 => "ConferenceMerged"
  | 21 => "ForwardingUpdated"
  | 22 => "ForwardingResult"
  | 23 => "GlobalDndUpdated"
  | 24 => "BlfSubscribed"
  | 25 => "BlfUnsubscribed"
  | 26 => "BlfStatusChanged"
  | 27 => "LookupUrlUpdated"
  | 28 => "LookupUrlResult"
  | 29 => "CodecPriorityUpdated"
  | 30 => "CodecPriorityResult"
  | 31 => "CodecUpdated"
  | 32 => "AutoAnswerUpdated"
  | 33 => "AutoAnswerResult"
  | 34 => "DtmfMethodUpdated"
  | 35 => "DtmfMethodResult"
  | 38 => "AccountProfileDeleted"
  | 39 => "GlobalCodecPriorityUpdated"
  | 40 => "GlobalCodecPriorityResult"
  | 41 => "GlobalDtmfMethodUpdated"
  | 42 => "GlobalDtmfMethodResult"
  | 43 => "GlobalAutoAnswerUpdated"
  | 44 => "GlobalAutoAnswerResult"
  | 45 => "RecordingStarted"
  | 46 => "RecordingStopped"
  | 47 => "RecordingSaved"
  | 48 => "RecordingError"
  | _ => "Unknown"

mutual

/-- The integers of a value have room in an `int` of Dart. -/
def FitsInt : Json → Prop
  | .num (.posInt n) => n < 2 ^ 63
  | .arr items => FitItems items
  | .obj members => FitMembers members
  | _ => True

/-- The same of the elements of an array. -/
def FitItems : List Json → Prop
  | [] => True
  | item :: rest => FitsInt item ∧ FitItems rest

/-- The same of the values of members. -/
def FitMembers : List (String × Json) → Prop
  | [] => True
  | (_, value) :: rest => FitsInt value ∧ FitMembers rest

end

/-- `jsonDecode`, and what becomes of a floating-point number that the engine writes. -/
structure DartJson where
  decode : String → Option Json
  reread : Float → Float

/-- A value as it arrives. -/
def DartJson.settled (D : DartJson) (value : Json) : Json := rereadValue D.reread (byKey value)

/-- What is used of `jsonDecode`: it reads what `serde_json` writes, as long as the integers are
such. Larger ones become floating-point numbers. -/
structure DartJson.Sound (D : DartJson) (J : SerdeJson) : Prop where
  decode_toText : ∀ value, IsValue value → FitsInt value →
    D.decode (J.toText value) = some (D.settled value)

/-- An event as the app handles it: its type and its payload. -/
abbrev NativeEvent := String × Json

section Handling

variable (J : SerdeJson) (D : DartJson)

/-- `_handleNativeEvent` (`engine_channel.dart:172–211`): the event, or `none` where it is
dropped. -/
def handleNativeEvent (eventId : Nat) (jsonData : String) : Option NativeEvent :=
  let trimmed := dartTrim jsonData
  if trimmed.toList = [] then none
  else if ¬ (startsWith trimmed "\x7b" || startsWith trimmed "[") then none
  else match D.decode trimmed with
    | some (.obj members) => some (eventIdToType eventId, .obj members)
    | _ => none

/-- The port, and the events that the app has handled. -/
structure Delivery where
  port : Port
  handled : List NativeEvent

/-- Before the callback is set. -/
def Delivery.initial : Delivery := ⟨Port.initial, []⟩

/-- What happens to events: the callback is set or cleared, one is pushed, its text at some address
of the heap, or the app comes to the next message. -/
inductive DeliveryAct where
  | setCallback (present : Bool)
  | push (type : String) (payload : Json) (address : Nat)
  | read

/-- One step. -/
def deliveryStep (d : Delivery) : DeliveryAct → Option Delivery
  | .setCallback present =>
    (portStep d.port (.setCallback present)).map fun port ↦ { d with port := port }
  | .push type payload address =>
    match eventIdOf type with
    | some id =>
      (portStep d.port (.invoke id (J.toText payload) address)).map fun port ↦
        { d with port := port }
    | none => some d
  | .read =>
    match d.port.queue with
    | [] => none
    | m :: _ =>
      let event := (d.port.memory m.payload.address).bind (handleNativeEvent D m.eventId)
      (portStep d.port .read).map fun port ↦ ⟨port, d.handled ++ event.toList⟩

end Handling

/-- The callback, and the events with an id that are pushed while it is set. -/
def hear (h : Bool × List NativeEvent) : DeliveryAct → Bool × List NativeEvent
  | .setCallback present => (present, h.2)
  | .push type payload _ =>
    if h.1 ∧ (eventIdOf type).isSome then (h.1, h.2 ++ [(type, payload)]) else h
  | .read => h

/-- The events that are pushed while the callback is set, in order. -/
def heard (acts : List DeliveryAct) : List NativeEvent := (acts.foldl hear (false, [])).2

/-- The app is never further behind than the buffer is long. -/
def KeepsUp (d : Delivery) (a : DeliveryAct) : Prop :=
  match a with
  | .read => d.port.queue.length ≤ eventPayloadRetain
  | _ => True

/-- The payloads of the engine are objects, with integers that Dart can hold. No event has the type
`CallHistoryResult`, whose id the app does not know. -/
structure Sendable (e : NativeEvent) : Prop where
  value : IsValue e.2
  fits : FitsInt e.2
  object : ∃ members, e.2 = .obj members
  type : e.1 ≠ "CallHistoryResult"

/-- An event as it arrives. -/
def arrived (D : DartJson) (e : NativeEvent) : NativeEvent := (e.1, D.settled e.2)

section Messages

variable {J : SerdeJson} {D : DartJson} {e : NativeEvent} {id : Nat}

/-- The app finds the type of an id again. -/
theorem eventIdToType_eventIdOf {type : String} (h : eventIdOf type = some id)
    (htype : type ≠ "CallHistoryResult") : eventIdToType id = type := by
  unfold eventIdOf at h
  split at h <;> cases h
  case h_7 => exact absurd rfl htype
  all_goals rfl

/-- The text of an object is not trimmed. -/
theorem dartTrim_toText (hJ : J.Sound) (members : List (String × Json)) :
    dartTrim (J.toText (.obj members)) = J.toText (.obj members) := by
  have hclean (text : List Char) : Clean isDartWhitespace ('\x7b' :: (text ++ ['\x7d'])) := by
    refine clean_append (l := '\x7b' :: text) (List.cons_ne_nil _ _) ?_ (List.cons_ne_nil _ _) ?_
    · rintro c hc
      cases hc
      decide
    · rintro c hc
      cases hc
      decide
  obtain ⟨inner, hinner⟩ := hJ.toText_obj members
  rw [dartTrim, ← String.toList_inj, String.toList_ofList, hinner, (hclean inner).strip_eq]

/-- The app reads what was pushed. -/
theorem handleNativeEvent_toText (hJ : J.Sound) (hD : D.Sound J) (h : Sendable e)
    (hid : eventIdOf e.1 = some id) :
    handleNativeEvent D id (J.toText e.2) = some (arrived D e) := by
  obtain ⟨type, payload⟩ := e
  obtain ⟨hvalue, hfits, ⟨members, hmembers⟩, htype⟩ := h
  dsimp only at hvalue hfits hmembers htype hid
  subst hmembers
  have hread := hD.decode_toText _ hvalue hfits
  obtain ⟨inner, hinner⟩ := hJ.toText_obj members
  have hstarts : startsWith (J.toText (.obj members)) "\x7b" = true := by
    rw [startsWith, hinner]
    rfl
  unfold handleNativeEvent
  simp only [dartTrim_toText hJ, hread, hstarts, Bool.true_or, not_true_eq_false, if_false]
  rw [if_neg (by rw [hinner]; exact List.cons_ne_nil _ _)]
  simp [DartJson.settled, byKey, rereadValue, arrived, eventIdToType_eventIdOf hid htype]

/-- `CString::new` takes the text of every payload: it has no NUL. -/
theorem cString_toText (hJ : J.Sound) (payload : Json) :
    cString (J.toText payload) = some (J.toText payload) := by
  apply if_neg
  intro hnul
  exact absurd (hJ.noControls_toText _ _ hnul) (by decide)

end Messages

section Runs

variable {J : SerdeJson} {D : DartJson} {d d' : Delivery} {h : Bool × List NativeEvent}
  {a : DeliveryAct} {acts : List DeliveryAct}

/-- What is pushed can be sent. -/
def PushesSendable (a : DeliveryAct) : Prop :=
  ∀ type payload address, a = .push type payload address → Sendable (type, payload)

/-- What the app has handled and what is on the way are the events that were heard. -/
structure Carries (J : SerdeJson) (D : DartJson) (d : Delivery) (h : Bool × List NativeEvent) :
    Prop where
  callback : d.port.callback = h.1
  windowed : ∃ pushed, Windowed d.port pushed
  messages : ∃ pending : List NativeEvent,
    d.port.queue.map (fun m ↦ (some m.eventId, m.payload.text)) =
        pending.map (fun e ↦ (eventIdOf e.1, J.toText e.2)) ∧
      (∀ e ∈ pending, Sendable e) ∧
      d.handled ++ pending.map (arrived D) = h.2.map (arrived D)

/-- Nothing was pushed at first. -/
theorem carries_initial (J : SerdeJson) (D : DartJson) : Carries J D .initial (false, []) where
  callback := rfl
  windowed := ⟨[], windowed_initial⟩
  messages := ⟨[], rfl, List.forall_mem_nil _, rfl⟩

/-- An event with an id is on its way if the callback is set. -/
theorem Carries.push (hJ : J.Sound) (hd : Carries J D d h) {type : String} {payload : Json}
    {address id : Nat} (hid : eventIdOf type = some id) (hsend : Sendable (type, payload))
    (hfree : address ∉ d.port.retained.map Payload.address) :
    Carries J D { d with port := d.port.invoke id (J.toText payload) address }
      (hear h (.push type payload address)) := by
  obtain ⟨pushed, hwindowed⟩ := hd.windowed
  obtain ⟨pending, hqueue, hsendable, hevents⟩ := hd.messages
  by_cases hset : d.port.callback = true
  · have hheard : h.1 = true := hd.callback ▸ hset
    have hhear : hear h (.push type payload address) = (h.1, h.2 ++ [(type, payload)]) :=
      if_pos ⟨hheard, by rw [hid]; rfl⟩
    rw [Port.invoke, if_pos hset, cString_toText hJ, hhear]
    refine ⟨hd.callback, ⟨_, hwindowed.push hfree⟩, pending ++ [(type, payload)], ?_, ?_, ?_⟩
    · simp [hqueue, hid]
    · exact List.forall_mem_append.mpr ⟨hsendable, List.forall_mem_singleton.mpr hsend⟩
    · simp [← hevents]
  · have hnot : ¬ h.1 = true := hd.callback ▸ hset
    have hhear : hear h (.push type payload address) = h := if_neg fun hboth ↦ hnot hboth.1
    rw [Port.invoke, if_neg hset, hhear]
    exact hd

/-- The app handles the next message. -/
theorem Carries.read (hJ : J.Sound) (hD : D.Sound J) (hd : Carries J D d h)
    (hkeeps : KeepsUp d .read) (hs : deliveryStep J D d .read = some d') : Carries J D d' h := by
  obtain ⟨pushed, hwindowed⟩ := hd.windowed
  obtain ⟨pending, hqueue, hsendable, hevents⟩ := hd.messages
  unfold deliveryStep at hs
  cases hport : d.port.queue with
  | nil => simp [hport] at hs
  | cons m queue =>
    obtain ⟨-, hmemory⟩ := (hwindowed.readable_iff hport).mpr hkeeps
    cases hpending : pending with
    | nil => simp [hport, hpending] at hqueue
    | cons e rest =>
      subst hpending
      rw [hport, List.map_cons, List.map_cons, List.cons.injEq, Prod.mk.injEq] at hqueue
      obtain ⟨⟨hid, htext⟩, hrest⟩ := hqueue
      obtain ⟨hsend, hsendrest⟩ := List.forall_mem_cons.mp hsendable
      have hstep : portStep d.port .read = some { d.port with queue := queue } := by
        simp [portStep, hport]
      have hevent := handleNativeEvent_toText hJ hD hsend hid.symm
      simp only [hport, hstep, hmemory, htext, Option.bind_some, hevent, Option.map_some,
        Option.toList_some, Option.some.injEq] at hs
      subst hs
      refine ⟨hd.callback, hwindowed.step hstep, rest, hrest, hsendrest, ?_⟩
      rw [List.append_assoc]
      exact hevents

/-- One step. -/
theorem Carries.step (hJ : J.Sound) (hD : D.Sound J) (hd : Carries J D d h)
    (hkeeps : KeepsUp d a) (hsend : PushesSendable a) (hs : deliveryStep J D d a = some d') :
    Carries J D d' (hear h a) := by
  cases a with
  | setCallback present =>
    cases hs
    obtain ⟨pushed, hwindowed⟩ := hd.windowed
    exact ⟨rfl, hwindowed.step (a := .setCallback present) rfl, hd.messages⟩
  | push type payload address =>
    cases hid : eventIdOf type with
    | none =>
      simp only [deliveryStep, hid] at hs
      cases hs
      simpa [hear, hid] using hd
    | some id =>
      simp only [deliveryStep, hid, portStep] at hs
      split_ifs at hs with hfree
      · cases hs
      · cases hs
        exact hd.push hJ hid (hsend type payload address rfl) hfree
  | read => exact hd.read hJ hD hkeeps hs

/-- In every order of pushes and reads in which the app keeps up: what it has handled are the first
of the events with an id that were pushed while the callback was set, in their order and each with
its type and its payload, and the others are still on their way. -/
theorem events_handled (hJ : J.Sound) (hD : D.Sound J) (hsend : ∀ a ∈ acts, PushesSendable a)
    (path : Path (deliveryStep J D) KeepsUp Delivery.initial acts d) :
    ∃ pending : List NativeEvent, pending.length = d.port.queue.length ∧
      d.handled ++ pending = (heard acts).map (arrived D) := by
  have hcarries : Carries J D d (acts.foldl hear (false, [])) := by
    induction path with
    | nil => exact carries_initial J D
    | snoc first hkeeps hs ih =>
      obtain ⟨hbefore, ha⟩ := List.forall_mem_append.mp hsend
      rw [List.foldl_append]
      exact (ih hbefore).step hJ hD hkeeps (ha _ (List.mem_singleton_self _)) hs
  obtain ⟨pending, hqueue, -, hevents⟩ := hcarries.messages
  refine ⟨pending.map (arrived D), ?_, hevents⟩
  have hlength := congrArg List.length hqueue
  simpa using hlength.symm

/-- The engine is ready: the callback is set, the event pushed and handled. -/
def readyDelivered : List DeliveryAct :=
  [.setCallback true, .push "EngineReady" (.obj []) 0, .read]

/-- The grammar as `jsonDecode`. -/
def grammarDart (W : FloatText) : DartJson where
  decode text := (readJson text).map byKey
  reread := W.reread

/-- It decodes what it should. -/
theorem grammarDart_sound (W : FloatText) : (grammarDart W).Sound (grammarSerde W) where
  decode_toText value hvalue _ := by
    have hread := grammar_writeJson W hvalue [] rfl
    rwa [String.ofList_nil, String.append_empty] at hread

/-- The app handles the event, as an instance. -/
theorem events_handled_ready : ∃ d : Delivery,
    readyDelivered.foldlM (deliveryStep (grammarSerde halfText) (grammarDart halfText))
        Delivery.initial = some d ∧
      d.handled = (heard readyDelivered).map (arrived (grammarDart halfText)) := by
  have hsound := grammarSerde_sound halfText
  have hsend : ∀ a ∈ readyDelivered, PushesSendable a := by
    intro a ha type payload address heq
    subst heq
    simp only [readyDelivered, List.mem_cons, DeliveryAct.push.injEq, List.not_mem_nil, or_false,
      reduceCtorEq, false_or] at ha
    obtain ⟨rfl, rfl, rfl⟩ := ha
    exact ⟨⟨List.nodup_nil, trivial⟩, trivial, ⟨[], rfl⟩, by decide⟩
  let step := deliveryStep (grammarSerde halfText) (grammarDart halfText)
  let first : Delivery := ⟨⟨true, 0, [], []⟩, []⟩
  let text : String := (grammarSerde halfText).toText (.obj [])
  let second : Delivery := ⟨⟨true, 1, [⟨0, 0, text⟩], [⟨1, 0, 0, text⟩]⟩, []⟩
  have hpush : step first (.push "EngineReady" (.obj []) 0) = some second := by
    have hid : eventIdOf "EngineReady" = some 1 := rfl
    simp [step, deliveryStep, first, second, text, hid, portStep, Port.invoke,
      cString_toText hsound, trimFront, eventPayloadRetain]
  let event := (second.port.memory 0).bind (handleNativeEvent (grammarDart halfText) 1)
  let last : Delivery := ⟨{ second.port with queue := [] }, [] ++ event.toList⟩
  have path : Path step KeepsUp Delivery.initial readyDelivered last :=
    ((Path.nil.snoc trivial (rfl : step .initial (.setCallback true) =
      some first)).snoc trivial hpush).snoc (show 1 ≤ 4096 by decide) rfl
  obtain ⟨pending, hlength, hevents⟩ :=
    events_handled hsound (grammarDart_sound halfText) hsend path
  rw [List.length_eq_zero_iff.mp hlength, List.append_nil] at hevents
  exact ⟨last, path.foldlM_eq, hevents⟩

end Runs

end PacketDial.Ui
