import PacketDial.Core.Recording
import PacketDial.System.Tame

/-!
# Announcements

The view of a run that shows the events of some types, in the order in which they are pushed,
next to the tables. Everything else a program does, its deliveries and log entries included, is
hidden there, so it drops out by the rules for tame programs.
-/

namespace PacketDial.System

open PacketDial.Core PacketDial.Lib

/-- The view of a run that shows the events of the given types. -/
def announceView (types : List String) :
    View Engine Action (CallTables × AccountTables) (String × Json) where
  state := tableView.state
  act a := (newsAct a).filter fun news ↦ news.1 ∈ types

/-- The tables are as they were, and no event of the types is pushed. -/
def Unannounced (types : List String) (_ : List Mutex) : Engine → List Action → Engine → Prop :=
  (announceView types).Still

instance (types : List String) (held : List Mutex) : Traced.Composable (Unannounced types held) :=
  inferInstanceAs (Traced.Composable (announceView types).Still)

/-- What is neither on the tables nor an event is not announced. -/
instance (types : List String) : Blind fullView (Unannounced types) where
  update h := ⟨congrArg Prod.fst h, rfl⟩
  emit s h _ _ := still_action (by
    change (newsAct _).filter _ = none
    rw [show newsAct _ = none from ((View.both_act_eq_none _).mp h).2]
    rfl)
  shim s _ := still_action rfl
  guard _ h := still_guard (fun _ ↦ rfl) h
  inner h := h

/-- What the view hides is not announced. -/
instance (types : List String) : Blind (announceView types) (Unannounced types) where
  update h := ⟨h, rfl⟩
  emit _ hv _ _ := still_action hv
  shim _ hv := still_action hv
  guard _ h := still_guard (fun _ ↦ rfl) h
  inner h := h

/-- How an event is announced. -/
theorem announceView_event (types : List String) (type : String) (payload : Json) :
    (announceView types).act (.event type payload) =
      if type ∈ types ∧ type ≠ "EngineLog" then some (type, payload) else none := by
  by_cases hlog : type = "EngineLog" <;> by_cases hmem : type ∈ types <;>
    simp [announceView, newsAct, hlog, hmem]

section Rules

variable {types : List String} {α β : Type} {e : Env} {s : Engine} {held : List Mutex}
  {R : β → List (String × Json) → CallTables × AccountTables → Prop}

/-- Pushing an event of another type is not announced. -/
theorem unannounced_pushEvent (hpush : CanPush held) {type : String} (h : type ∉ types)
    (payload : Json) : Traced.Admits (Unannounced types held) (pushEvent type payload) := by
  have hact : (announceView types).act (.event type payload) = none := by
    rw [announceView_event, if_neg fun hand ↦ h hand.1]
  exact (blind_emit hact rfl rfl).bind fun _ ↦ tame_deliverEvent hpush type payload

/-- The shim announces nothing. -/
theorem unannounced_shim (call : ShimCall) : Traced.Admits (Unannounced types []) (shim call) :=
  blind_shim (v := announceView types) rfl

/-- Pushing an event of the types announces it. -/
theorem yields_pushEvent_bind {type : String} (h : type ∈ types) (hne : type ≠ "EngineLog")
    {payload : Json} {f : Unit → Eng β}
    (hf : ∀ s₁, tableView.state s₁ = tableView.state s →
      (announceView types).Yields (f ()) e s₁ fun b acts c ↦ R b ((type, payload) :: acts) c) :
    (announceView types).Yields (pushEvent type payload >>= f) e s R := by
  have still : (announceView types).Still _ _ _ := (tame_deliverEvent
    (by decide : CanPush []) type payload : Traced.Admits (Unannounced types []) _).run e s
  have hshown : (announceView types).act (.event type payload) = some (type, payload) := by
    rw [announceView_event, if_pos ⟨h, hne⟩]
  have htrace : (announceView types).trace ((pushEvent type payload).run e s).trace =
      [(type, payload)] := by
    unfold pushEvent
    rw [Traced.run_bind, View.trace_append, Traced.run_emit, still.2]
    simp [View.trace, hshown]
  refine View.yields_bind rfl rfl htrace (hf _ ?_)
  unfold pushEvent
  rw [Traced.run_bind, Traced.run_emit]
  exact still.1

/-- Pushing an event of the types last. -/
theorem yields_pushEvent {type : String} (h : type ∈ types) (hne : type ≠ "EngineLog")
    {payload : Json} {Q : Unit → List (String × Json) → CallTables × AccountTables → Prop}
    (hQ : Q () [(type, payload)] (tableView.state s)) :
    (announceView types).Yields (pushEvent type payload) e s Q := by
  rw [← bind_pure (pushEvent type payload)]
  refine yields_pushEvent_bind h hne fun s₁ hs₁ ↦ View.yields_pure ?_
  rw [show (announceView types).state s₁ = _ from hs₁]
  exact hQ

/-- A critical section announces what its body announces. -/
theorem yields_announceLock {m : Mutex} {x : Eng α}
    {Q : α → List (String × Json) → CallTables × AccountTables → Prop}
    (h : (announceView types).Yields x e s Q) :
    (announceView types).Yields (withLock m x) e s Q := by
  have htrace : (announceView types).trace ((withLock m x).run e s).trace =
      (announceView types).trace (x.run e s).trace := by
    simp [run_withLock, View.trace, announceView, newsAct]
  unfold View.Yields at h ⊢
  rw [htrace, run_withLock]
  exact h

/-- Reporting a call announces it where that is looked for. -/
theorem yields_announceCall_bind (h : "CallStateChanged" ∈ types) {call : Call} {f : Unit → Eng β}
    (hf : ∀ accountName displayName username s₁, tableView.state s₁ = tableView.state s →
      (announceView types).Yields (f ()) e s₁ fun b acts c ↦
        R b (("CallStateChanged", callPayload accountName displayName username call) :: acts) c) :
    (announceView types).Yields (pushCallState call >>= f) e s R := by
  have names : Traced.Admits (Unannounced types []) (withLock .accounts do
      return (← Traced.get).accounts.lookup call.accountId) :=
    tame_withLock (by decide) (tame_get.bind fun _ ↦ tame_pure _)
  unfold pushCallState
  rw [bind_assoc]
  refine View.yields_still_bind names fun account s₁ hs₁ ↦ ?_
  dsimp only
  refine yields_pushEvent_bind h (by decide) fun s₂ hs₂ ↦ hf _ _ _ s₂ (hs₂.trans hs₁)

/-- Amending a record announces nothing. -/
theorem yields_announceAmend_bind {id : UInt32} {g : Call → Call} {f : Unit → Eng β}
    (h : ∀ s₁, (announceView types).Yields (f ()) e s₁ R) :
    (announceView types).Yields (amendCall id g >>= f) e s R := by
  have quiet : (announceView types).Yields (amendCall id g) e s fun _ acts _ ↦ acts = [] := by
    refine yields_announceLock (View.yields_get_bind ?_)
    split <;> rfl
  refine View.Yields.bind quiet ?_
  rintro _ acts s₁ rfl
  exact h s₁

end Rules

end PacketDial.System
