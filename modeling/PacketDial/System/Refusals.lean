import PacketDial.System.News
import PacketDial.System.ShimFree

/-!
# Refused operations

`CallMute`, `CallHold` and `AudioSetDevices` record and announce the new state whatever the shim
answers: `CallMute` and `CallHold` before they call it, `AudioSetDevices` after a warning. A
refusal changes neither the result nor the last word.
-/

namespace PacketDial.System

open PacketDial.Core PacketDial.Lib

/-- The commands that change the state of a call or the selected devices by one shim operation. -/
def refusableCommands : List String := ["CallMute", "CallHold", "AudioSetDevices"]

/-- The events that announce a new state. -/
def successEvents : List String := ["CallStateChanged", "AudioDevicesSet"]

/-- What is recorded of the state of a call: its flags, its state and its timers. -/
structure CallStatus where
  muted : Bool
  onHold : Bool
  state : CallState
  accumulatedActiveSecs : Nat
  lastResumedAt : Option Nat

/-- The recorded state of a call. -/
def Call.status (call : Call) : CallStatus :=
  ⟨call.muted, call.onHold, call.state, call.accumulatedActiveSecs, call.lastResumedAt⟩

/-- The announced event is that of a command that was carried out: a call with the flag that the
command asks for, or the devices. -/
def Announces (cmd : String) (p : Json) (news : String × Json) : Prop :=
  match cmd with
  | "CallMute" => news.1 = "CallStateChanged" ∧
      news.2.get "muted" = .bool ((p.get "muted").asBool.getD true)
  | "CallHold" => news.1 = "CallStateChanged" ∧
      news.2.get "on_hold" = .bool ((p.get "hold").asBool.getD true)
  | _ => news.1 = "AudioDevicesSet"

/-- The result of a dispatched command. -/
abbrev CommandOutcome := Outcome Engine Action (Except Halt EngineErrorCode)

/-- The action is a shim operation that returns a non-zero code. -/
def isRefused (e : Env) : Action → Bool
  | .shim call => e.rc call ≠ 0
  | _ => false

/-- A shim operation of the command was refused. -/
def Refused (e : Env) (o : CommandOutcome) : Prop := ∃ a ∈ o.trace, isRefused e a = true

instance (e : Env) (o : CommandOutcome) : Decidable (Refused e o) :=
  inferInstanceAs (Decidable (∃ a ∈ o.trace, isRefused e a = true))

/-- The last announced event. -/
def lastWord (t : List Action) : Option (String × Json) :=
  ((announceView successEvents).trace t).getLast?

/-- The command left no trace: the recorded state is what it was, the result is not `Ok`, and the
last word is not that the command was carried out. -/
structure Untouched (cmd : String) (p : Json) (s : Engine) (o : CommandOutcome) : Prop where
  calls : ∀ id, (o.state.calls.lookup id).map Call.status = (s.calls.lookup id).map Call.status
  input : o.state.selectedInput = s.selectedInput
  output : o.state.selectedOutput = s.selectedOutput
  value : o.value ≠ .ok .ok
  word : ∀ news ∈ lastWord o.trace, ¬ Announces cmd p news

section Runs

variable {α β : Type} {e : Env} {s : Engine} {p : Json}

/-- The run calls the shim. -/
def CallsShim (t : List Action) : Prop := ∃ call, .shim call ∈ t

/-- A program that leaves the shim alone does not call it. -/
theorem not_callsShim {x : Eng α} (h : ShimFree x) : ¬ CallsShim (x.run e s).trace := by
  rintro ⟨call, hcall⟩
  cases h.run e s _ hcall

/-- What a program that calls the shim returns, after a part that leaves the shim alone. -/
theorem value_of_callsShim_bind {x : Eng α} (hx : ShimFree x) {f : α → Eng β} {Q : β → Prop}
    (hf : ∀ a s₁, CallsShim ((f a).run e s₁).trace → Q ((f a).run e s₁).value)
    (h : CallsShim ((x >>= f).run e s).trace) : Q ((x >>= f).run e s).value := by
  obtain ⟨call, hcall⟩ := h
  rw [Traced.run_bind] at hcall ⊢
  rcases List.mem_append.mp hcall with hcall | hcall
  · exact absurd ⟨call, hcall⟩ (not_callsShim hx)
  · exact hf _ _ ⟨call, hcall⟩

/-- A command with a refused operation called the shim. -/
theorem Refused.callsShim {o : CommandOutcome} (h : Refused e o) : CallsShim o.trace := by
  obtain ⟨a, ha, hrefused⟩ := h
  cases a with
  | shim call => exact ⟨call, ha⟩
  | _ => cases hrefused

/-- Resolving the call of a command calls no shim operation. -/
theorem shimFree_targetOrLive : ShimFree (targetOrLive p) :=
  (Traced.admits_ask.bind fun _ ↦ Traced.admits_get.bind fun _ ↦ shimFree_pure _).bind
    fun _ ↦ shimFree_pure _

end Runs

section Targets

variable {e : Env} {s : Engine} {p : Json} {update : Call → Eng Call} {op : Int → ShimCall}
  {P : Call → Prop}

/-- The result of a mute or hold command and the events that it announces: none for an unknown
call, else one report. -/
def Reported (P : Call → Prop) (rc : EngineErrorCode) (acts : List (String × Json)) : Prop :=
  (rc = .notFound ∧ acts = []) ∨ rc = .ok ∧ ∃ accountName displayName username call, P call ∧
    acts = [("CallStateChanged", callPayload accountName displayName username call)]

/-- What a mute or hold command announces. -/
theorem yields_updateTarget_news
    (hupdate : ∀ call, Traced.Admits (Unannounced successEvents [.calls]) (update call))
    (hP : ∀ call e s, P ((update call).run e s).value) :
    (announceView successEvents).Yields (updateTarget p update op) e s fun rc acts _ ↦
      Reported P rc acts := by
  have target : Traced.Admits (Unannounced successEvents [.calls]) (targetOrLive p) :=
    tame_callValues.bind fun _ ↦ tame_pure _
  unfold updateTarget
  refine View.Yields.bind (Q := fun found acts _ ↦
    Reported P (if found.isNone then .notFound else .ok) acts) (yields_announceLock ?_) ?_
  · refine View.yields_still_bind target fun id s₁ _ ↦ View.yields_get_bind ?_
    split
    · exact View.yields_pure (Or.inl ⟨rfl, rfl⟩)
    · refine View.yields_read_bind (hupdate _) (hP _ e s₁) fun call s₂ hcall _ ↦ ?_
      refine View.yields_modify_bind ?_
      refine yields_announceCall_bind (by decide) fun accountName displayName username s₃ _ ↦ ?_
      exact View.yields_pure (Or.inr ⟨rfl, accountName, displayName, username, call, hcall, rfl⟩)
  · intro found acts s₁ hfound
    have happend : acts ++ [] = acts := List.append_nil acts
    split
    · rw [← happend] at hfound
      exact View.yields_pure hfound
    · rw [← happend] at hfound
      exact View.yields_pure hfound
    · refine View.yields_still_bind ((unannounced_shim _).map _) fun _ s₂ _ ↦ ?_
      rw [← happend] at hfound
      exact View.yields_pure hfound

/-- A mute or hold command that calls the shim has found its call. -/
theorem updateTarget_ok (hupdate : ∀ call, ShimFree (update call))
    (h : CallsShim ((updateTarget p update op).run e s).trace) :
    ((updateTarget p update op).run e s).value = .ok := by
  unfold updateTarget at h ⊢
  refine value_of_callsShim_bind (Q := (· = .ok)) ?_ (fun found s₁ hrest ↦ ?_) h
  · refine shimFree_withLock (shimFree_targetOrLive.bind fun id ↦ Traced.admits_get.bind fun s ↦ ?_)
    split
    · exact shimFree_pure _
    · refine (hupdate _).bind fun call ↦ (shimFree_modify _).bind fun _ ↦ ?_
      exact (shimFree_pushCallState call).bind fun _ ↦ shimFree_pure _
  · rcases found with - | - | pjId
    · exact absurd hrest (not_callsShim (shimFree_pure _))
    · rfl
    · rfl

/-- A mute or hold command that calls the shim ends with `Ok`, and the last word is a report of the
changed call. -/
theorem updateTarget_recorded (hfree : ∀ call, ShimFree (update call))
    (hupdate : ∀ call, Traced.Admits (Unannounced successEvents [.calls]) (update call))
    (hP : ∀ call e s, P ((update call).run e s).value)
    (h : CallsShim ((updateTarget p update op).run e s).trace) :
    ((updateTarget p update op).run e s).value = .ok ∧
      ∃ accountName displayName username call, P call ∧
        lastWord ((updateTarget p update op).run e s).trace =
          some ("CallStateChanged", callPayload accountName displayName username call) := by
  have hok := updateTarget_ok hfree h
  have hnews : Reported P ((updateTarget p update op).run e s).value
      ((announceView successEvents).trace ((updateTarget p update op).run e s).trace) :=
    yields_updateTarget_news hupdate hP
  rcases hnews with ⟨hvalue, -⟩ | ⟨-, accountName, displayName, username, call, hcall, hacts⟩
  · rw [hok] at hvalue
    cases hvalue
  · refine ⟨hok, accountName, displayName, username, call, hcall, ?_⟩
    rw [lastWord, hacts]
    rfl

end Targets

section Commands

variable {e : Env} {s : Engine}

/-- The result of `AudioSetDevices` and the events that it announces. -/
def DevicesReported (rc : EngineErrorCode) (acts : List (String × Json)) : Prop :=
  (rc ≠ .ok ∧ acts = []) ∨ rc = .ok ∧ ∃ payload, acts = [("AudioDevicesSet", payload)]

/-- What `AudioSetDevices` announces. -/
theorem yields_cmdAudioSetDevices_news (p : Json) :
    (announceView successEvents).Yields (cmdAudioSetDevices p) e s fun rc acts _ ↦
      DevicesReported rc acts := by
  have log (level : LogLevel) (message : String) :
      Traced.Admits (Unannounced successEvents []) (logEngine level message) :=
    tame_logEngine canLog_nil level message
  unfold cmdAudioSetDevices
  split
  · refine View.yields_still_bind ?_ fun found s₁ _ ↦ ?_
    · have hm : Above [] .audioDevices := by decide
      exact tame_withLock (R := Unannounced successEvents) hm (tame_get.bind fun _ ↦ tame_pure _)
    · dsimp only
      refine View.yields_still_bind (log _ _) fun _ s₂ _ ↦ ?_
      split
      · refine View.yields_still_bind (log _ _) fun _ s₃ _ ↦ View.yields_pure ?_
        exact Or.inl ⟨by decide, rfl⟩
      · refine View.yields_still_bind (unannounced_shim _) fun rc s₃ _ ↦ ?_
        split
        all_goals
          refine View.yields_still_bind (log _ _) fun _ s₄ _ ↦ View.yields_modify_bind ?_
          refine yields_pushEvent_bind (by decide) (by decide) fun s₅ _ ↦ View.yields_pure ?_
          exact Or.inr ⟨rfl, _, rfl⟩
  · exact View.yields_pure (Or.inl ⟨by decide, rfl⟩)

/-- Where `AudioSetDevices` calls the shim, it ends with `Ok`. -/
theorem cmdAudioSetDevices_ok {p : Json}
    (h : CallsShim ((cmdAudioSetDevices p).run e s).trace) :
    ((cmdAudioSetDevices p).run e s).value = .ok := by
  unfold cmdAudioSetDevices at h ⊢
  generalize (p.get "input_id").asU64.map truncU32 = input at h ⊢
  generalize (p.get "output_id").asU64.map truncU32 = output at h ⊢
  rcases input with - | input
  · exact absurd h (not_callsShim (shimFree_pure _))
  rcases output with - | output
  · exact absurd h (not_callsShim (shimFree_pure _))
  refine value_of_callsShim_bind (Q := (· = .ok)) ?_ (fun found s₁ h ↦ ?_) h
  · exact shimFree_withLock (Traced.admits_get.bind fun _ ↦ shimFree_pure _)
  refine value_of_callsShim_bind (Q := (· = .ok)) (shimFree_logEngine _ _) (fun _ s₂ h ↦ ?_) h
  by_cases hfound : (!found.1.isSome || !found.2.isSome) = true
  · rw [if_pos hfound] at h
    refine absurd h (not_callsShim ?_)
    exact (shimFree_logEngine _ _).bind fun _ ↦ shimFree_pure _
  · rw [if_neg hfound, Traced.run_bind]
    dsimp only
    split <;> simp only [Traced.run_bind, Traced.run_pure]

/-- A `CallMute` that calls the shim. -/
theorem cmdCallMute_recorded {p : Json} (h : CallsShim ((cmdCallMute p).run e s).trace) :
    ((cmdCallMute p).run e s).value = .ok ∧
      ∃ news ∈ lastWord ((cmdCallMute p).run e s).trace, Announces "CallMute" p news := by
  obtain ⟨hvalue, accountName, displayName, username, call, hmuted, hlast⟩ :=
    updateTarget_recorded (P := fun call ↦ call.muted = (p.get "muted").asBool.getD true)
      (fun _ ↦ shimFree_pure _) (fun _ ↦ tame_pure _) (fun _ _ _ ↦ rfl) h
  refine ⟨hvalue, _, hlast, rfl, ?_⟩
  rw [← hmuted]
  rfl

/-- A `CallHold` that calls the shim. -/
theorem cmdCallHold_recorded {p : Json} (h : CallsShim ((cmdCallHold p).run e s).trace) :
    ((cmdCallHold p).run e s).value = .ok ∧
      ∃ news ∈ lastWord ((cmdCallHold p).run e s).trace, Announces "CallHold" p news := by
  have hupdate (call : Call) : Traced.Admits (Unannounced successEvents [.calls])
      (holdRecord ((p.get "hold").asBool.getD true) call) := tame_holdRecord _ call
  obtain ⟨hvalue, accountName, displayName, username, call, hheld, hlast⟩ :=
    updateTarget_recorded (P := fun call ↦ call.onHold = (p.get "hold").asBool.getD true)
      (shimFree_holdRecord _) hupdate (fun call e s ↦ by rw [holdRecord_value, heldRecord_onHold])
      h
  refine ⟨hvalue, _, hlast, rfl, ?_⟩
  rw [← hheld]
  rfl

/-- An `AudioSetDevices` that calls the shim. -/
theorem cmdAudioSetDevices_recorded {p : Json}
    (h : CallsShim ((cmdAudioSetDevices p).run e s).trace) :
    ((cmdAudioSetDevices p).run e s).value = .ok ∧
      ∃ news ∈ lastWord ((cmdAudioSetDevices p).run e s).trace,
        Announces "AudioSetDevices" p news := by
  have hok := cmdAudioSetDevices_ok h
  have hnews : DevicesReported ((cmdAudioSetDevices p).run e s).value
      ((announceView successEvents).trace ((cmdAudioSetDevices p).run e s).trace) :=
    yields_cmdAudioSetDevices_news p
  rcases hnews with ⟨hvalue, -⟩ | ⟨-, payload, hacts⟩
  · exact absurd hok hvalue
  · refine ⟨hok, ("AudioDevicesSet", payload), ?_, rfl⟩
    rw [lastWord, hacts]
    rfl

/-- What is recorded by the function that a command runs is recorded by the command. -/
theorem recorded_dispatchCommand {cmd : String} {p : Json} {x : Eng EngineErrorCode}
    (hx : dispatchCommand cmd p = .ok <$> x)
    (h : CallsShim ((dispatchCommand cmd p).run e s).trace)
    (hrun : CallsShim (x.run e s).trace →
      (x.run e s).value = .ok ∧ ∃ news ∈ lastWord (x.run e s).trace, Announces cmd p news) :
    ((dispatchCommand cmd p).run e s).value = .ok .ok ∧
      ∃ news ∈ lastWord ((dispatchCommand cmd p).run e s).trace, Announces cmd p news := by
  rw [hx, Traced.run_map] at h ⊢
  obtain ⟨hvalue, hnews⟩ := hrun h
  exact ⟨congrArg _ hvalue, hnews⟩

/-- A command with a refused operation ends with `Ok`, and its last word is that it was carried
out. -/
theorem refused_recorded {cmd : String} {p : Json} (hcmd : cmd ∈ refusableCommands)
    (h : Refused e ((dispatchCommand cmd p).run e s)) :
    ((dispatchCommand cmd p).run e s).value = .ok .ok ∧
      ∃ news ∈ lastWord ((dispatchCommand cmd p).run e s).trace, Announces cmd p news := by
  simp only [refusableCommands, List.mem_cons, List.not_mem_nil, or_false] at hcmd
  rcases hcmd with rfl | rfl | rfl
  · exact recorded_dispatchCommand rfl h.callsShim cmdCallMute_recorded
  · exact recorded_dispatchCommand rfl h.callsShim cmdCallHold_recorded
  · exact recorded_dispatchCommand rfl h.callsShim cmdAudioSetDevices_recorded

/-- In no state does a command with a refused operation leave everything as it was. -/
theorem refused_never_untouched {cmd : String} {p : Json} (hcmd : cmd ∈ refusableCommands)
    (h : Refused e ((dispatchCommand cmd p).run e s)) :
    ¬ Untouched cmd p s ((dispatchCommand cmd p).run e s) ∧
      ((dispatchCommand cmd p).run e s).value = .ok .ok ∧
      ∃ news ∈ lastWord ((dispatchCommand cmd p).run e s).trace, Announces cmd p news := by
  have hrun := refused_recorded hcmd h
  exact ⟨fun untouched ↦ untouched.value hrun.1, hrun⟩

/-- The mute of the call with the id 1. -/
def muteFirst : Json := .obj [("call_id", .ofU32 1), ("muted", .bool true)]

/-- Surroundings in which every operation is refused. -/
def refusingEnv : Env := { quietEnv with rc := fun _ ↦ -1 }

/-- A call is placed and its mute refused. -/
theorem refused_mute_recorded : ∃ s, (signIn ++ [dial]).foldlM engineStep Engine.initial = some s ∧
    Refused refusingEnv ((dispatchCommand "CallMute" muteFirst).run refusingEnv s) ∧
    ¬ Untouched "CallMute" muteFirst s
      ((dispatchCommand "CallMute" muteFirst).run refusingEnv s) := by
  have h : ((signIn ++ [dial]).foldlM engineStep Engine.initial).map (fun s ↦
      let o := (dispatchCommand "CallMute" muteFirst).run refusingEnv s
      (decide (Refused refusingEnv o), (s.calls.lookup 1).map Call.muted,
        (o.state.calls.lookup 1).map Call.muted)) = some (true, some false, some true) := by
    decide
  obtain ⟨s, hs, hrun⟩ := Option.map_eq_some_iff.mp h
  rw [Prod.mk.injEq, Prod.mk.injEq] at hrun
  obtain ⟨hrefused, hbefore, hafter⟩ := hrun
  refine ⟨s, hs, of_decide_eq_true hrefused, fun untouched ↦ ?_⟩
  have hcalls := congrArg (Option.map CallStatus.muted) (untouched.calls 1)
  rw [Option.map_map, Option.map_map] at hcalls
  cases hbefore.symm.trans (hcalls.symm.trans hafter)

/-- The same mute, as an instance. -/
theorem refused_never_untouched_mute :
    ∃ s, (signIn ++ [dial]).foldlM engineStep Engine.initial = some s ∧
      ¬ Untouched "CallMute" muteFirst s
        ((dispatchCommand "CallMute" muteFirst).run refusingEnv s) := by
  have h : ((signIn ++ [dial]).foldlM engineStep Engine.initial).map (fun s ↦
      decide (Refused refusingEnv ((dispatchCommand "CallMute" muteFirst).run refusingEnv s))) =
        some true := by
    decide
  obtain ⟨s, hs, hrefused⟩ := Option.map_eq_some_iff.mp h
  exact ⟨s, hs, (refused_never_untouched (by decide) (of_decide_eq_true hrefused)).1⟩

end Commands

end PacketDial.System
