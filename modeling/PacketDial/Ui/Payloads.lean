import Mathlib.Data.List.Sigma
import PacketDial.Core.Json
import PacketDial.Lib.Paths
import PacketDial.Lib.Windows

/-!
# The payloads of events

`invoke_event_callback` (`core_rust/src/lib.rs:3519–3548`) hands Dart a pointer and keeps the text
behind it in a rolling buffer; `_handleNativeEvent`
(`app_flutter/lib/core/engine_channel.dart:172–211`) reads the text when the isolate gets to the
message. The lock of `EVENT_CALLBACK` spans the whole of a producer's part, so producers take
turns.
-/

namespace PacketDial.Ui

open PacketDial.Core PacketDial.Lib

/-- A `CString` on the heap. The serial number tells apart what one address holds in turn. -/
structure Payload where
  serial : Nat
  address : Nat
  text : String
  deriving DecidableEq, Repr

/-- A message in the port of the `NativeCallable`. -/
structure Message where
  eventId : Nat
  payload : Payload
  deriving DecidableEq, Repr

/-- Both ends of the callback: whether it is set, how many payloads were made,
`RETAINED_PAYLOADS`, and the messages that Dart has not read yet. -/
structure Port where
  callback : Bool
  made : Nat
  retained : List Payload
  queue : List Message

/-- The port before the callback is set. -/
def Port.initial : Port := ⟨false, 0, [], []⟩

/-- What happens at the port. The allocator chooses the address of a payload. -/
inductive PortAct where
  | setCallback (present : Bool)
  | invoke (eventId : Nat) (message : String) (address : Nat)
  | read
  deriving DecidableEq, Repr

/-- `EVENT_PAYLOAD_RETAIN` (`lib.rs:3529`). -/
def eventPayloadRetain : Nat := 4096

/-- `invoke_event_callback` with its `CString` at `address` (`lib.rs:3533–3547`). -/
def Port.invoke (t : Port) (eventId : Nat) (message : String) (address : Nat) : Port :=
  if t.callback then
    match cString message with
    | none => t
    | some text =>
      let payload : Payload := ⟨t.made, address, text⟩
      { t with
        made := t.made + 1
        retained := trimFront eventPayloadRetain (t.retained ++ [payload])
        queue := t.queue ++ [⟨eventId, payload⟩] }
  else t

/-- One step at the port. The allocator hands out no address that is in use, and Dart reads the
messages in their order. -/
def portStep (t : Port) : PortAct → Option Port
  | .setCallback present => some { t with callback := present }
  | .invoke eventId message address =>
    if address ∈ t.retained.map Payload.address then none
    else some (t.invoke eventId message address)
  | .read => match t.queue with
    | [] => none
    | _ :: queue => some { t with queue := queue }

/-- The text at an address, as far as it is retained. -/
def Port.memory (t : Port) (address : Nat) : Option String :=
  (t.retained.find? (·.address = address)).map Payload.text

/-- The payload of a message is still held, and its address has the text that was pushed. -/
def Port.Readable (t : Port) (m : Message) : Prop :=
  m.payload ∈ t.retained ∧ t.memory m.payload.address = some m.payload.text

/-- Dart is not further behind than the buffer is long. -/
def InTime (t : Port) (a : PortAct) : Prop :=
  a = .read → t.queue.length ≤ eventPayloadRetain

instance (t : Port) (a : PortAct) : Decidable (InTime t a) :=
  inferInstanceAs (Decidable (a = .read → _))

/-- The buffer and the queue are the ends of what was pushed. -/
structure Windowed (t : Port) (pushed : List Payload) : Prop where
  made : t.made = pushed.length
  serials : pushed.map Payload.serial = List.range pushed.length
  retained : t.retained = pushed.rtake eventPayloadRetain
  queue : t.queue.map Message.payload <:+ pushed
  addresses : (t.retained.map Payload.address).Nodup

section Port

variable {t u : Port} {a : PortAct} {pushed : List Payload} {m : Message}

/-- Nothing was pushed at first. -/
theorem windowed_initial : Windowed Port.initial [] where
  made := rfl
  serials := rfl
  retained := (List.rtake_nil _).symm
  queue := List.suffix_rfl
  addresses := List.nodup_nil

/-- No payload was pushed twice. -/
theorem Windowed.nodup (h : Windowed t pushed) : pushed.Nodup := by
  apply List.Nodup.of_map Payload.serial
  rw [h.serials]
  exact List.nodup_range

/-- A new payload. -/
theorem Windowed.push (h : Windowed t pushed) {eventId address : Nat} {text : String}
    (ha : address ∉ t.retained.map Payload.address) :
    let payload : Payload := ⟨t.made, address, text⟩
    Windowed { t with
      made := t.made + 1
      retained := trimFront eventPayloadRetain (t.retained ++ [payload])
      queue := t.queue ++ [⟨eventId, payload⟩] } (pushed ++ [payload]) := by
  intro payload
  constructor
  · rw [List.length_append, ← h.made]
    rfl
  · rw [List.map_append, h.serials, List.length_append, List.length_singleton, List.range_succ,
      List.map_singleton, ← h.made]
  · rw [trimFront_eq_rtake, h.retained, rtake_concat]
  · rw [List.map_append, List.map_singleton]
    exact List.suffix_append_self_iff.mpr h.queue
  · refine List.Nodup.sublist ((trimFront_suffix _ _).sublist.map Payload.address) ?_
    rw [List.map_append, List.map_singleton, ← List.concat_eq_append]
    exact h.addresses.concat ha

/-- What happens at the port keeps its window. -/
theorem Windowed.step (h : Windowed t pushed) (hs : portStep t a = some u) :
    ∃ pushed, Windowed u pushed := by
  cases a with
  | setCallback present =>
    cases hs
    exact ⟨pushed, h.made, h.serials, h.retained, h.queue, h.addresses⟩
  | invoke eventId message address =>
    simp only [portStep] at hs
    split at hs
    · cases hs
    · next ha =>
      cases hs
      unfold Port.invoke
      split
      · split
        · exact ⟨pushed, h⟩
        · exact ⟨_, h.push ha⟩
      · exact ⟨pushed, h⟩
  | read =>
    simp only [portStep] at hs
    split at hs
    · cases hs
    · next m queue hqueue =>
      cases hs
      have hsuffix := h.queue
      rw [hqueue] at hsuffix
      exact ⟨pushed, h.made, h.serials, h.retained, (List.suffix_cons _ _).trans hsuffix,
        h.addresses⟩

/-- An address in use is that of one payload. -/
theorem Windowed.memory (h : Windowed t pushed) (hm : m.payload ∈ t.retained) :
    t.memory m.payload.address = some m.payload.text := by
  have hfind : t.retained.find? (·.address = m.payload.address) = some m.payload := by
    obtain ⟨p, hp⟩ := Option.isSome_iff_exists.mp
      (List.find?_isSome.mpr ⟨m.payload, hm, decide_eq_true rfl⟩ :
        (t.retained.find? (·.address = m.payload.address)).isSome)
    have haddress : p.address = m.payload.address := by simpa using List.find?_some hp
    rw [hp, List.inj_on_of_nodup_map h.addresses (List.mem_of_find?_eq_some hp) hm haddress]
  rw [Port.memory, hfind]
  rfl

/-- Dart finds the payload of the next message just if it is not too far behind. -/
theorem Windowed.readable_iff (h : Windowed t pushed) {queue : List Message}
    (hqueue : t.queue = m :: queue) :
    t.Readable m ↔ t.queue.length ≤ eventPayloadRetain := by
  have hsuffix := h.queue
  rw [hqueue, List.map_cons] at hsuffix
  have hwindow := mem_rtake_iff (n := eventPayloadRetain) hsuffix h.nodup
  rw [← h.retained, List.length_cons, List.length_map] at hwindow
  rw [hqueue, List.length_cons, ← hwindow]
  exact ⟨And.left, fun hm ↦ ⟨hm, h.memory hm⟩⟩

/-- The window lasts. -/
theorem windowed_run {as : List PortAct} (run : as.foldlM portStep Port.initial = some t) :
    ∃ pushed, Windowed t pushed :=
  (Path.of_foldlM run).invariant (I := fun t ↦ ∃ pushed, Windowed t pushed)
    ⟨[], windowed_initial⟩ fun _ _ _ ⟨_, h⟩ _ hs ↦ h.step hs

/-- In every order of pushes and reads, Dart finds every payload that it reads, if and only if no
message is read behind more than the buffer holds. -/
theorem payloads_held_iff {as : List PortAct} (run : as.foldlM portStep Port.initial = some t) :
    Path portStep InTime Port.initial as t ↔
      ∀ bs u, bs ++ [.read] <+: as → bs.foldlM portStep Port.initial = some u →
        ∀ m ∈ u.queue.head?, u.Readable m := by
  rw [Path.iff_forall run]
  constructor
  · intro h bs u hbs hrun m hm
    obtain ⟨pushed, hwindowed⟩ := windowed_run hrun
    obtain ⟨queue, hqueue⟩ := List.head?_eq_some_iff.mp hm
    exact (hwindowed.readable_iff hqueue).mpr (h bs .read u hbs hrun rfl)
  · rintro h bs a u hbs hrun rfl
    obtain ⟨pushed, hwindowed⟩ := windowed_run hrun
    cases hqueue : u.queue with
    | nil => exact Nat.zero_le _
    | cons m queue =>
      have hm : m ∈ u.queue.head? := by rw [hqueue]; rfl
      rw [← hqueue]
      exact (hwindowed.readable_iff hqueue).mp (h bs u hbs hrun m hm)

/-- The callback is set, an event pushed and read. -/
def oneEvent : List PortAct := [.setCallback true, .invoke 1 "\x7b\x7d" 0, .read]

/-- One event, as an instance. -/
theorem payloads_held_iff_one : ∃ u, oneEvent.dropLast.foldlM portStep Port.initial = some u ∧
    u.Readable ⟨1, 0, 0, "\x7b\x7d"⟩ := by
  have hpath : ((oneEvent.foldlM
      (fun t a ↦ if InTime t a then portStep t a else none) Port.initial).isSome) = true := by
    decide
  obtain ⟨t, ht⟩ := Option.isSome_iff_exists.mp hpath
  have path : Path portStep InTime Port.initial oneEvent t := Path.of_guarded ht
  refine ⟨⟨true, 1, [⟨0, 0, "\x7b\x7d"⟩], [⟨1, 0, 0, "\x7b\x7d"⟩]⟩, rfl, ?_⟩
  exact (payloads_held_iff path.foldlM_eq).mp path oneEvent.dropLast _ List.prefix_rfl rfl _ rfl

/-- A burst of `n` events. -/
def burst (n : Nat) : List PortAct :=
  (List.range n).map fun address ↦ .invoke 16 "\x7b\x7d" address

/-- What a burst leaves at the port. -/
theorem burst_run (n : Nat) : ∃ t, (.setCallback true :: burst n).foldlM portStep Port.initial =
    some t ∧ t.callback = true ∧ t.made = n ∧ t.queue.length = n ∧
      ∀ p ∈ t.retained, p.address < n := by
  induction n with
  | zero => exact ⟨_, rfl, rfl, rfl, rfl, fun p hp ↦ by cases hp⟩
  | succ n ih =>
    obtain ⟨t, hrun, hcallback, hmade, hqueue, haddress⟩ := ih
    have hfresh : n ∉ t.retained.map Payload.address := by
      intro hn
      obtain ⟨p, hp, heq⟩ := List.mem_map.mp hn
      exact absurd (haddress p hp) (by omega)
    have hstep : portStep t (.invoke 16 "\x7b\x7d" n) = some (t.invoke 16 "\x7b\x7d" n) :=
      if_neg hfresh
    have hinvoke : t.invoke 16 "\x7b\x7d" n = { t with
        made := t.made + 1
        retained := trimFront eventPayloadRetain (t.retained ++ [⟨t.made, n, "\x7b\x7d"⟩])
        queue := t.queue ++ [⟨16, t.made, n, "\x7b\x7d"⟩] } := by
      rw [Port.invoke, if_pos hcallback]
      rfl
    refine ⟨t.invoke 16 "\x7b\x7d" n, ?_, ?_⟩
    · rw [burst, List.range_succ, List.map_append, ← List.cons_append, List.foldlM_append]
      rw [burst] at hrun
      rw [hrun]
      exact congrArg (· >>= pure) hstep
    · rw [hinvoke]
      refine ⟨hcallback, congrArg (· + 1) hmade, ?_, ?_⟩
      · rw [List.length_append, hqueue]
        rfl
      · intro p hp
        rcases List.mem_append.mp ((trimFront_suffix _ _).subset hp) with hp | hp
        · exact Nat.lt_succ_of_lt (haddress p hp)
        · rw [List.mem_singleton.mp hp]
          exact Nat.lt_succ_self n

/-- After a burst of 4097 events the first payload is gone when Dart comes to read it. -/
theorem first_payload_dropped : ∃ t m,
    (.setCallback true :: burst 4097).foldlM portStep Port.initial = some t ∧
      t.queue.head? = some m ∧ ¬ t.Readable m := by
  obtain ⟨t, hrun, -, -, hlength, -⟩ := burst_run 4097
  obtain ⟨pushed, hwindowed⟩ := windowed_run hrun
  cases hqueue : t.queue with
  | nil =>
    rw [hqueue] at hlength
    cases hlength
  | cons m queue =>
    refine ⟨t, m, hrun, by rw [hqueue]; rfl, fun hreadable ↦ ?_⟩
    have hle := (hwindowed.readable_iff hqueue).mp hreadable
    rw [hlength, eventPayloadRetain] at hle
    omega

end Port

end PacketDial.Ui
