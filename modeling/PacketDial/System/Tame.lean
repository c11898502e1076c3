import PacketDial.System.Blind

/-!
# Tame programs

Logging and events touch neither calls nor accounts: they are admitted by every family of
relations that is blind to what those hide, under any locks that leave the event sinks free.
-/

namespace PacketDial.System

open PacketDial.Core PacketDial.Lib

/-- The locks an event delivery takes. -/
def eventLocks : List Mutex := [.eventCallback, .clientSenders, .retainedPayloads]

/-- The locks held leave the event sinks free. -/
def CanPush (held : List Mutex) : Prop := ∀ m ∈ eventLocks, m ∉ held

/-- The locks held leave the log buffer and the event sinks free. -/
def CanLog (held : List Mutex) : Prop := Mutex.logBuffer ∉ held ∧ CanPush held

instance (held : List Mutex) : Decidable (CanPush held) := inferInstanceAs (Decidable (∀ m ∈ _, _))

instance (held : List Mutex) : Decidable (CanLog held) := inferInstanceAs (Decidable (_ ∧ _))

/-- The event reports neither a call nor a merge. -/
abbrev IsOther (type : String) : Prop := type ≠ "CallStateChanged" ∧ type ≠ "ConferenceMerged"

/-- The event reports neither a call nor a merge nor a recording. -/
abbrev IsPlain (type : String) : Prop := IsOther type ∧ type ∉ recordingTypes

/-- No lock is held: everything may be logged. -/
theorem canLog_nil : CanLog [] := by decide

/-- Sinks that are free stay free under one more lock that is none of them. -/
theorem CanPush.cons {held : List Mutex} (h : CanPush held) {m : Mutex} (hm : m ∉ eventLocks) :
    CanPush (m :: held) := by
  intro n hn hmem
  rcases List.mem_cons.mp hmem with rfl | hmem
  · exact hm hn
  · exact h n hn hmem

/-- Locks that leave the event sinks free rank below them. -/
theorem CanPush.above {held : List Mutex} (h : CanPush held) {m : Mutex} (hm : m ∈ eventLocks) :
    Above held m := by
  intro n hn
  have hfree := fun k hk ↦ ne_of_mem_of_not_mem hn (h k hk)
  simp only [eventLocks, List.mem_cons, List.not_mem_nil, or_false] at hm hfree
  rcases hm with rfl | rfl | rfl <;> cases n <;> first | decide | simp at hfree

/-- Locks that leave the log buffer free as well rank below it. -/
theorem CanLog.above {held : List Mutex} (h : CanLog held) : Above held .logBuffer := by
  intro n hn
  have hlog := ne_of_mem_of_not_mem hn h.1
  have hfree := fun k hk ↦ ne_of_mem_of_not_mem hn (h.2 k hk)
  simp only [eventLocks, List.mem_cons, List.not_mem_nil, or_false] at hfree
  cases n <;> first | decide | simp at hlog hfree

/-- A lock ranks above those that a lower one ranks above. -/
theorem Above.trans {held : List Mutex} {m n : Mutex} (h : Above held m) (hn : rank m < rank n) :
    Above held n :=
  fun k hk ↦ (h k hk).trans hn

/-- Where `ACCOUNTS` may be locked, so may the log buffer and the event sinks. -/
theorem Above.canLog {held : List Mutex} (h : Above held .accounts) : CanLog held :=
  ⟨(h.trans (by decide)).not_mem, fun m hm ↦ by
    have hrank : rank .accounts < rank m := by
      simp only [eventLocks, List.mem_cons, List.not_mem_nil, or_false] at hm
      rcases hm with rfl | rfl | rfl <;> decide
    exact (h.trans hrank).not_mem⟩

/-- The sinks rank above a lock that leaves them free. -/
theorem Above.cons {held : List Mutex} {m n : Mutex} (h : Above held m) (hn : rank n < rank m) :
    Above (n :: held) m := by
  intro k hk
  rcases List.mem_cons.mp hk with rfl | hk
  · exact hn
  · exact h k hk

section Primitives

variable {R : Family} {held : List Mutex} {α : Type}

/-- Returning is tame. -/
theorem tame_pure (a : α) : Traced.Admits (R held) (pure a : Eng α) := Traced.admits_pure a

/-- Reading the environment is tame. -/
theorem tame_ask : Traced.Admits (R held) (Traced.ask : Eng Env) := Traced.admits_ask

variable [∀ held, Traced.Composable (R held)]

/-- An update that leaves the tables and the media statistics alone is tame. -/
theorem tame_modify [Sparing fullView R] {f : Engine → Engine}
    (h : ∀ s, fullView.state (f s) = fullView.state s)
    (hm : ∀ s, (f s).mediaStats = s.mediaStats) :
    Traced.Admits (R held) (Traced.modify f : Eng Unit) := sparing_modify h hm

/-- An action that is neither on the tables nor an event, on a lock or the shim is tame. -/
theorem tame_emit [Sparing fullView R] {a : Action} (hv : fullView.act a = none)
    (hl : lockAct a = none) (hs : isShim a = false) (hm : isMerged a = false)
    (hr : isRecordingNews a = false) : Traced.Admits (R held) (Traced.emit a : Eng Unit) :=
  discreet_emit hv hl hs hm hr

/-- The rule for critical sections. -/
theorem tame_withLock [Sparing fullView R] {m : Mutex} {x : Eng α} (hm : Above held m)
    (h : Traced.Admits (R (m :: held)) x) : Traced.Admits (R held) (withLock m x) :=
  blind_withLock fullView hm h

/-- Reading the state is tame. -/
theorem tame_get : Traced.Admits (R held) (Traced.get : Eng Engine) := Traced.admits_get

/-- Reading the calls is tame. -/
theorem tame_callValues : Traced.Admits (R held) callValues :=
  tame_ask.bind fun _ ↦ tame_get.bind fun _ ↦ tame_pure _

/-- Reading the accounts is tame. -/
theorem tame_accountValues : Traced.Admits (R held) accountValues :=
  tame_ask.bind fun _ ↦ tame_get.bind fun _ ↦ tame_pure _

/-- A shim call that acts neither on a call nor on an account is tame. -/
theorem tame_shim [Sparing tableView R] {call : ShimCall} (h : tableView.act (.shim call) = none) :
    Traced.Admits (R []) (shim call) := blind_shim h

variable [Sparing fullView R]

/-- Reading the clock is tame. -/
theorem tame_nowMillis : Traced.Admits (R held) nowMillis := by
  unfold nowMillis
  refine tame_ask.bind fun e ↦ tame_get.bind fun s ↦ ?_
  exact (tame_modify (by intro; rfl) (by intro; rfl)).bind fun _ ↦ tame_pure _

/-- Reading the clock in seconds is tame. -/
theorem tame_nowSecs : Traced.Admits (R held) nowSecs := tame_nowMillis.map _

end Primitives

section Events

variable {R : Family} {held : List Mutex} [∀ held, Traced.Composable (R held)]

section Deliveries

variable [Sparing fullView R]

/-- Delivering an event to the callback is tame. -/
theorem tame_invokeEventCallback (h : CanPush held) (id : Nat) (payload : Json) :
    Traced.Admits (R held) (invokeEventCallback id payload) := by
  unfold invokeEventCallback
  refine tame_withLock (h.above (by decide)) ?_
  refine tame_get.bind fun s ↦ ?_
  apply Traced.admits_ite
  · have hm : Above (.eventCallback :: held) .retainedPayloads :=
      (h.above (by decide)).cons (by decide)
    exact (tame_withLock hm (tame_pure ())).bind fun _ ↦ tame_emit rfl rfl rfl rfl rfl
  · exact tame_pure ()

/-- Sending an event to the IPC clients is tame. -/
theorem tame_broadcastIpc (h : CanPush held) (type : String) (payload : Json) :
    Traced.Admits (R held) (broadcastIpc type payload) := by
  unfold broadcastIpc
  refine tame_withLock (h.above (by decide)) ?_
  refine tame_ask.bind fun e ↦ tame_get.bind fun s ↦ ?_
  refine (Traced.admits_each (fun client ↦ tame_emit rfl rfl rfl rfl rfl) _).bind fun _ ↦ ?_
  exact tame_modify (by intro; rfl) (by intro; rfl)

/-- The deliveries of an event are tame. -/
theorem tame_deliverEvent (h : CanPush held) (type : String) (payload : Json) :
    Traced.Admits (R held) (deliverEvent type payload) := by
  unfold deliverEvent
  generalize eventIdOf type = id
  dsimp only
  cases id with
  | none => exact tame_broadcastIpc h type payload
  | some id =>
    exact (tame_invokeEventCallback h id payload).bind fun _ ↦ tame_broadcastIpc h type payload

/-- Logging is tame. -/
theorem tame_logEngine (h : CanLog held) (level : LogLevel) (message : String) :
    Traced.Admits (R held) (logEngine level message) := by
  unfold logEngine
  refine tame_nowSecs.bind fun ts ↦ tame_get.bind fun s ↦ ?_
  dsimp only
  refine (tame_withLock h.above (tame_modify (by intro; rfl) (by intro; rfl))).bind fun _ ↦ ?_
  exact Traced.admits_ite ((tame_emit rfl rfl rfl rfl rfl).bind fun _ ↦ tame_deliverEvent h.2 _ _)
    (tame_pure ())

end Deliveries

variable [Sparing tableView R]

/-- Pushing an event that reports neither a call nor a merge is tame where the family allows it. -/
theorem tame_pushOther (h : CanPush held) {type : String} (ht : IsOther type) (payload : Json)
    (hr : type ∈ recordingTypes → Vocal R) :
    Traced.Admits (R held) (pushEvent type payload) := by
  have hact : callAct (.event type payload) = none := by simp [callAct, ht.1]
  have hview : tableView.act (.event type payload) = none :=
    (View.both_act_eq_none _).mpr ⟨hact, rfl⟩
  have hmerged : isMerged (.event type payload) = false := by simp [isMerged, ht.2]
  refine Traced.Admits.bind ?_ fun _ ↦ tame_deliverEvent h type payload
  by_cases hnews : type ∈ recordingTypes
  · have := hr hnews
    exact Traced.admits_emit fun s ↦ Vocal.emit s payload hnews
  · exact discreet_emit hview rfl rfl hmerged (decide_eq_false hnews)

/-- One that is not about a recording either is tame. -/
theorem tame_pushEvent (h : CanPush held) {type : String} (ht : IsPlain type) (payload : Json) :
    Traced.Admits (R held) (pushEvent type payload) :=
  tame_pushOther h ht.1 payload fun hr ↦ absurd hr ht.2

/-- One about a recording is tame where the family allows these. -/
theorem tame_pushRecording [Vocal R] (h : CanPush held) {type : String} (ht : IsOther type)
    (payload : Json) : Traced.Admits (R held) (pushEvent type payload) :=
  tame_pushOther h ht payload fun _ ↦ inferInstance

/-- Pushing a registration state is tame where `ACCOUNTS` may be locked. -/
theorem tame_pushRegState (h : CanPush held) (hm : Above held .accounts) (id : String)
    (state : RegistrationState) : Traced.Admits (R held) (pushRegState id state) := by
  unfold pushRegState
  refine (tame_withLock hm (tame_get.bind fun _ ↦ tame_pure _)).bind fun account ↦ ?_
  exact tame_pushEvent h (by decide) _

/-- Pushing media statistics is tame. -/
theorem tame_pushMediaStats (h : CanPush held) (stats : MediaStats) :
    Traced.Admits (R held) (pushMediaStats stats) :=
  tame_pushEvent h (by decide) _

end Events

end PacketDial.System
