import Mathlib.Logic.Function.Basic
import PacketDial.Lib.Paths
import PacketDial.Ui.Text

/-!
# Ringtone and ringback

`AudioService` hears the call events on the platform thread and queues its operations on a chain
of promises, each of which awaits the players (`app_flutter/lib/core/audio_service.dart`). Its
guards read the flags when an event is delivered; the flags change when an operation runs.
-/

namespace PacketDial.Ui

open PacketDial.Core PacketDial.Lib

/-- What `AudioService` reads of a `CallEvent` (`core/call_event_service.dart:8–31`). -/
structure CallEvent where
  callId : Int
  state : String
  direction : String

/-- The sounds of `_ringtonePlayer` and `_ringbackPlayer`. -/
inductive Tone where
  | ringtone
  | ringback
  deriving DecidableEq

/-- The operations on the chain. -/
inductive AudioOp where
  | start (tone : Tone)
  | stopAll
  | playDialTone (digit : String)
  deriving DecidableEq

/-- The player operation that the running operation awaits. -/
inductive Await where
  | idle
  | opening (tone : Tone)
  | looping (tone : Tone)
  | stoppingRingtone
  | stoppingRingback
  | stoppingUi (asset : String)
  | openingUi (asset : String)
  deriving DecidableEq

/-- `AudioService`, its players and its chain. -/
structure Audio where
  /-- `_ringtonePlaying` and `_ringbackPlaying`. -/
  playing : Tone → Bool
  /-- The players that sound. -/
  sounds : Tone → Bool
  /-- What `_uiPlayer` has opened last. -/
  ui : Option String
  chain : List AudioOp
  await : Await
  /-- The events that were delivered, the newest first. -/
  heard : List CallEvent

namespace Audio

/-- Nothing has happened yet. -/
def initial : Audio := ⟨fun _ ↦ false, fun _ ↦ false, none, [], .idle, []⟩

/-- `_enqueue` (`audio_service.dart:65–70`). -/
def enqueue (s : Audio) (op : AudioOp) : Audio := { s with chain := s.chain ++ [op] }

/-- `startRingtone` (`audio_service.dart:72–86`). -/
def startRingtone (s : Audio) : Audio := s.enqueue (.start .ringtone)

/-- `startRingback` (`audio_service.dart:88–102`). -/
def startRingback (s : Audio) : Audio := s.enqueue (.start .ringback)

/-- `stopAll` (`audio_service.dart:104–115`). -/
def stopAll (s : Audio) : Audio := s.enqueue .stopAll

/-- `playDialTone` (`audio_service.dart:117–133`). -/
def playDialTone (s : Audio) (digit : String) : Audio := s.enqueue (.playDialTone digit)

/-- The asset of a digit (`audio_service.dart:121–125`). -/
def dialAsset (digit : String) : String :=
  let assetName := if digit = "*" then "star" else if digit = "#" then "hash" else digit
  s!"assets/sounds/dtmf_{assetName}.wav"

/-- An operation up to its first `await`. -/
def begin (s : Audio) : AudioOp → Audio
  | .start tone =>
    if s.playing tone then s
    else { s with playing := Function.update s.playing tone true, await := .opening tone }
  | .stopAll => { s with await := .stoppingRingtone }
  | .playDialTone digit => { s with await := .stoppingUi (dialAsset digit) }

/-- The chain goes on: an operation begins, or the player operation that is awaited succeeds. -/
def work (s : Audio) : Option Audio :=
  match s.await with
  | .idle =>
    match s.chain with
    | [] => none
    | op :: chain => some ({ s with chain := chain }.begin op)
  | .opening tone =>
    some { s with sounds := Function.update s.sounds tone true, await := .looping tone }
  | .looping _ => some { s with await := .idle }
  | .stoppingRingtone =>
    some { s with sounds := Function.update s.sounds .ringtone false, await := .stoppingRingback }
  | .stoppingRingback =>
    some { s with
      sounds := Function.update s.sounds .ringback false
      playing := fun _ ↦ false
      await := .idle }
  | .stoppingUi asset => some { s with ui := none, await := .openingUi asset }
  | .openingUi asset => some { s with ui := some asset, await := .idle }

/-- The chain has been drained. -/
def Drained (s : Audio) : Prop := s.chain = [] ∧ s.await = .idle

/-! ## What the chain will come to -/

/-- What an operation makes of the flag of `tone`, once it has run. -/
def after (tone : Tone) (flag : Bool) : AudioOp → Bool
  | .start started => flag || started == tone
  | .stopAll => false
  | .playDialTone _ => flag

/-- The flag of `tone` once the running operation has run. -/
def settled (s : Audio) (tone : Tone) : Bool :=
  match s.await with
  | .stoppingRingtone => false
  | .stoppingRingback => false
  | _ => s.playing tone

/-- The flag of `tone` once the chain is drained. -/
def promised (s : Audio) (tone : Tone) : Bool := s.chain.foldl (after tone) (s.settled tone)

/-- The players agree with the flags, as far as the running operation has come. -/
def Synced (s : Audio) : Prop :=
  match s.await with
  | .opening tone => ∀ other, s.playing other = (s.sounds other || other == tone)
  | .stoppingRingtone => True
  | .stoppingRingback => s.sounds .ringtone = false
  | _ => s.sounds = s.playing

section Work

variable {s s' : Audio} {tone : Tone}

/-- A queued operation comes last. -/
theorem promised_enqueue (op : AudioOp) :
    (s.enqueue op).promised tone = after tone (s.promised tone) op := by
  simp [promised, enqueue, settled]

/-- A player that plays is not started. -/
theorem begin_start_of_playing (h : s.playing tone = true) : s.begin (.start tone) = s := if_pos h

/-- A player that does not play is started. -/
theorem begin_start (h : ¬s.playing tone = true) : s.begin (.start tone) =
    { s with playing := Function.update s.playing tone true, await := .opening tone } := if_neg h

/-- What an operation comes to when it begins. -/
theorem settled_begin (op : AudioOp) (hidle : s.await = .idle) :
    (s.begin op).settled tone = after tone (s.playing tone) op := by
  cases op with
  | start started =>
    by_cases hflag : s.playing started = true
    · rw [begin_start_of_playing hflag]
      simp only [settled, hidle, after]
      by_cases hsame : started = tone
      · simp [← hsame, hflag]
      · simp [hsame]
    · rw [begin_start hflag]
      simp only [settled, after]
      by_cases hsame : started = tone
      · simp [hsame]
      · have hother : tone ≠ started := fun h ↦ hsame h.symm
        simp [hsame, hother]
  | stopAll => rfl
  | playDialTone digit => simp [begin, settled, after]

/-- An operation leaves the chain alone when it begins, and hears nothing. -/
theorem begin_frame (op : AudioOp) :
    (s.begin op).chain = s.chain ∧ (s.begin op).heard = s.heard := by
  cases op with
  | start started =>
    by_cases hflag : s.playing started = true
    · simp [begin_start_of_playing hflag]
    · simp [begin_start hflag]
  | stopAll => simp [begin]
  | playDialTone digit => simp [begin]

/-- An operation begins with players that agree with the flags. -/
theorem synced_begin (op : AudioOp) (hidle : s.await = .idle) (h : s.sounds = s.playing) :
    (s.begin op).Synced := by
  cases op with
  | start started =>
    by_cases hflag : s.playing started = true
    · rw [begin_start_of_playing hflag]
      simpa [Synced, hidle] using h
    · rw [begin_start hflag]
      intro other
      by_cases hsame : other = started
      · simp [hsame]
      · simp [hsame, h]
  | stopAll => exact trivial
  | playDialTone digit => exact h

/-- The chain going on keeps what it will come to. -/
theorem promised_work (hwork : s.work = some s') : s'.promised tone = s.promised tone := by
  unfold work at hwork
  split at hwork
  · next hidle =>
    split at hwork
    · cases hwork
    · next op chain hchain =>
      cases hwork
      have hsettled : ({ s with chain := chain }.begin op).settled tone =
          after tone (s.playing tone) op := settled_begin op hidle
      simp only [promised, (begin_frame op).1, hsettled, hchain, List.foldl_cons]
      simp [settled, hidle]
  all_goals
    next hawait =>
      cases hwork
      simp [promised, settled, hawait]

/-- The chain going on keeps the players in agreement with the flags. -/
theorem synced_work (h : s.Synced) (hwork : s.work = some s') : s'.Synced := by
  unfold work at hwork
  split at hwork
  · next hidle =>
    split at hwork
    · cases hwork
    · next op chain hchain =>
      cases hwork
      have hsync : s.sounds = s.playing := by simpa [Synced, hidle] using h
      exact synced_begin (s := { s with chain := chain }) op hidle hsync
  · next started hawait =>
    cases hwork
    funext other
    have hother : s.playing other = (s.sounds other || other == started) := by
      simp only [Synced, hawait] at h
      exact h other
    by_cases hsame : other = started
    · simpa [hsame] using hother
    · simp [hother, hsame]
  · next hawait =>
    cases hwork
    simpa [Synced, hawait] using h
  · next hawait =>
    cases hwork
    simp [Synced]
  · next hawait =>
    cases hwork
    have hringtone : s.sounds .ringtone = false := by simpa [Synced, hawait] using h
    funext other
    cases other with
    | ringtone => simpa using hringtone
    | ringback => simp
  · next hawait =>
    cases hwork
    simpa [Synced, hawait] using h
  · next hawait =>
    cases hwork
    simpa [Synced, hawait] using h

/-- The chain does not hear events. -/
theorem heard_work (hwork : s.work = some s') : s'.heard = s.heard := by
  unfold work at hwork
  split at hwork
  · split at hwork
    · cases hwork
    · next op chain hchain =>
      cases hwork
      exact (begin_frame op).2
  all_goals
    cases hwork
    rfl

/-- A drained chain has come to what was promised. -/
theorem sounds_of_drained (h : s.Synced) (hdrained : s.Drained) :
    s.sounds tone = s.promised tone := by
  obtain ⟨hchain, hidle⟩ := hdrained
  have hsync : s.sounds = s.playing := by simpa [Synced, hidle] using h
  simp [promised, settled, hchain, hidle, hsync]

/-! ## The chain drains -/

/-- The player operations that the running operation has left. -/
def awaits (s : Audio) : Nat :=
  match s.await with
  | .idle => 0
  | .opening _ => 2
  | .looping _ => 1
  | .stoppingRingtone => 2
  | .stoppingRingback => 1
  | .stoppingUi _ => 2
  | .openingUi _ => 1

/-- How long the chain can go on: an operation begins and awaits two player operations. -/
def left (s : Audio) : Nat := 3 * s.chain.length + s.awaits

/-- An operation awaits at most two player operations. -/
theorem awaits_begin_le (op : AudioOp) (hidle : s.await = .idle) : (s.begin op).awaits ≤ 2 := by
  cases op with
  | start started =>
    by_cases hflag : s.playing started = true
    · simp [begin_start_of_playing hflag, awaits, hidle]
    · simp [begin_start hflag, awaits]
  | stopAll => simp [begin, awaits]
  | playDialTone digit => simp [begin, awaits]

/-- The chain going on has less left. -/
theorem left_work (hwork : s.work = some s') : s'.left < s.left := by
  unfold work at hwork
  split at hwork
  · next hidle =>
    split at hwork
    · cases hwork
    · next op chain hchain =>
      cases hwork
      have hawaits : ({ s with chain := chain }.begin op).awaits ≤ 2 := awaits_begin_le op hidle
      simp only [left, (begin_frame op).1, hchain, List.length_cons]
      omega
  all_goals
    next hawait =>
      cases hwork
      simp [left, awaits, hawait]

/-- The chain goes on unless it is drained. -/
theorem work_eq_none_iff : s.work = none ↔ s.Drained := by
  unfold work Drained
  split
  · next hidle =>
    split
    · next hchain => simp [hidle, hchain]
    · next hchain => simp [hchain]
  all_goals
    next hawait => simp [hawait]

end Work

end Audio

/-- What happens: an event is delivered, the chain goes on, or a digit is pressed
(`screens/dialer_screen.dart:76`). -/
inductive AudioAct where
  | deliver (event : CallEvent)
  | work
  | press (digit : String)

section Audio

-- `String.toLowerCase` of Dart, of which nothing is used.
variable (toLowerCase : String → String)

/-- `_onCallEvent` (`audio_service.dart:34–56`). -/
def Audio.onCallEvent (s : Audio) (event : CallEvent) : Audio :=
  let state := toLowerCase event.state
  let direction := toLowerCase event.direction
  if state = "callstate.ringing" then
    if direction = "incoming" then
      if ¬s.playing .ringtone then s.startRingtone else s
    else if ¬s.playing .ringback then s.startRingback else s
  else if state = "callstate.incall" ∨ state = "callstate.ended" then s.stopAll
  else s

/-- One step of `AudioService`. -/
def audioStep (s : Audio) : AudioAct → Option Audio
  | .deliver event => some { s.onCallEvent toLowerCase event with heard := event :: s.heard }
  | .work => s.work
  | .press digit => some (s.playDialTone digit)

/-- The tone that a call whose latest event this is rings with. -/
def toneOf (event : CallEvent) : Option Tone :=
  if toLowerCase event.state = "callstate.ringing" then
    some (if toLowerCase event.direction = "incoming" then .ringtone else .ringback)
  else none

/-- The events that stop everything. -/
def Stops (event : CallEvent) : Prop :=
  toLowerCase event.state = "callstate.incall" ∨ toLowerCase event.state = "callstate.ended"

/-- The latest event of a call is ringing with `tone`. -/
def Rings (heard : List CallEvent) (callId : Int) (tone : Tone) : Prop :=
  ∃ event, heard.find? (·.callId = callId) = some event ∧ toneOf toLowerCase event = some tone

/-- The tones that sound are those of the calls that ring. -/
def RingFollows (s : Audio) : Prop :=
  ∀ tone, s.sounds tone = true ↔ ∃ callId, Rings toLowerCase s.heard callId tone

/-- A call other than `callId` rings with `tone`. -/
def RingsElse (heard : List CallEvent) (callId : Int) (tone : Tone) : Prop :=
  ∃ other, other ≠ callId ∧ Rings toLowerCase heard other tone

/-- The steps that the sounds follow: no other call rings when an event stops everything, a call
does not leave a tone that no other call rings with by another event, and the flag of a tone is
down when a first call rings with it. -/
def Followed (s : Audio) : AudioAct → Prop
  | .deliver event =>
    (Stops toLowerCase event → ∀ tone, ¬RingsElse toLowerCase s.heard event.callId tone) ∧
    (¬Stops toLowerCase event → ∀ tone, Rings toLowerCase s.heard event.callId tone →
      toneOf toLowerCase event ≠ some tone →
        RingsElse toLowerCase s.heard event.callId tone) ∧
    ∀ tone, toneOf toLowerCase event = some tone →
      s.playing tone = true → ∃ callId, Rings toLowerCase s.heard callId tone
  | .work => True
  | .press _ => True

end Audio

section Ringing

variable {toLowerCase : String → String} {s s' u v : Audio} {event : CallEvent}
  {heard : List CallEvent} {callId : Int} {tone : Tone} {acts : List AudioAct}

/-- A ringing event starts its tone unless the flag is up. -/
theorem onCallEvent_of_toneOf (h : toneOf toLowerCase event = some tone) :
    s.onCallEvent toLowerCase event = if s.playing tone then s else s.enqueue (.start tone) := by
  unfold toneOf at h
  split at h
  · next hringing =>
    cases h
    unfold Audio.onCallEvent
    simp only [hringing, ↓reduceIte, Bool.not_eq_true]
    by_cases hincoming : toLowerCase event.direction = "incoming"
    · cases hflag : s.playing .ringtone with
      | true => simp [hincoming, hflag]
      | false => simp [hincoming, hflag, Audio.startRingtone]
    · cases hflag : s.playing .ringback with
      | true => simp [hincoming, hflag]
      | false => simp [hincoming, hflag, Audio.startRingback]
  · cases h

/-- An event that stops everything does not ring. -/
theorem toneOf_of_stops (h : Stops toLowerCase event) : toneOf toLowerCase event = none := by
  unfold toneOf
  rcases h with h | h
  · simp [h]
  · simp [h]

/-- An event that stops everything does so whatever the flags are. -/
theorem onCallEvent_of_stops (h : Stops toLowerCase event) :
    s.onCallEvent toLowerCase event = s.enqueue .stopAll := by
  unfold Audio.onCallEvent
  rcases h with h | h
  · simp [h, Audio.stopAll]
  · simp [h, Audio.stopAll]

/-- Other events change nothing. -/
theorem onCallEvent_of_other (hring : toneOf toLowerCase event = none)
    (hstop : ¬Stops toLowerCase event) : s.onCallEvent toLowerCase event = s := by
  have hstate : ¬toLowerCase event.state = "callstate.ringing" := by
    intro h
    simp [toneOf, h] at hring
  unfold Audio.onCallEvent
  simp only [hstate, ↓reduceIte]
  exact if_neg hstop

/-- What the chain comes to after a ringing event. -/
theorem promised_of_toneOf (h : toneOf toLowerCase event = some tone) (other : Tone) :
    (s.onCallEvent toLowerCase event).promised other = true ↔
      s.promised other = true ∨ (other = tone ∧ s.playing tone = false) := by
  rw [onCallEvent_of_toneOf h]
  cases hflag : s.playing tone with
  | true => simp
  | false =>
    rw [if_neg Bool.false_ne_true, Audio.promised_enqueue]
    simp only [Audio.after, Bool.or_eq_true, beq_iff_eq, and_true]
    rw [eq_comm (a := tone)]

/-- A call whose latest event is new. -/
theorem rings_cons_self :
    Rings toLowerCase (event :: heard) event.callId tone ↔
      toneOf toLowerCase event = some tone := by
  simp [Rings]

/-- The other calls ring as they did. -/
theorem rings_cons_of_ne (h : callId ≠ event.callId) :
    Rings toLowerCase (event :: heard) callId tone ↔ Rings toLowerCase heard callId tone := by
  have hne : ¬event.callId = callId := fun heq ↦ h heq.symm
  simp [Rings, hne]

/-- Some call rings: a given one or another. -/
theorem exists_rings_iff (callId : Int) :
    (∃ other, Rings toLowerCase heard other tone) ↔
      Rings toLowerCase heard callId tone ∨ RingsElse toLowerCase heard callId tone := by
  constructor
  · rintro ⟨other, hrings⟩
    by_cases hother : other = callId
    · exact Or.inl (hother ▸ hrings)
    · exact Or.inr ⟨other, hother, hrings⟩
  · rintro (hrings | ⟨other, -, hrings⟩)
    · exact ⟨callId, hrings⟩
    · exact ⟨other, hrings⟩

/-- Some call rings after an event. -/
theorem exists_rings_cons :
    (∃ callId, Rings toLowerCase (event :: heard) callId tone) ↔
      toneOf toLowerCase event = some tone ∨ RingsElse toLowerCase heard event.callId tone := by
  rw [exists_rings_iff event.callId, rings_cons_self]
  apply or_congr_right
  constructor
  · rintro ⟨other, hother, hrings⟩
    exact ⟨other, hother, (rings_cons_of_ne hother).mp hrings⟩
  · rintro ⟨other, hother, hrings⟩
    exact ⟨other, hother, (rings_cons_of_ne hother).mpr hrings⟩

/-- What the chain comes to is what rings. -/
def Promises (toLowerCase : String → String) (s : Audio) : Prop :=
  ∀ tone, s.promised tone = true ↔ ∃ callId, Rings toLowerCase s.heard callId tone

/-- Nothing rings at the start. -/
theorem promises_initial : Promises toLowerCase .initial := by
  intro tone
  simp [Audio.promised, Audio.settled, Audio.initial, Rings]

/-- The step lemma: a step keeps the chain's promise just if the sounds follow it. -/
theorem promises_step_iff (h : Promises toLowerCase s) {act : AudioAct}
    (hstep : audioStep toLowerCase s act = some s') :
    Promises toLowerCase s' ↔ Followed toLowerCase s act := by
  cases act with
  | work =>
    have hkeeps : Promises toLowerCase s' := by
      intro tone
      rw [Audio.promised_work hstep, Audio.heard_work hstep]
      exact h tone
    exact iff_of_true hkeeps trivial
  | press digit =>
    cases hstep
    have hkeeps : Promises toLowerCase (s.playDialTone digit) := by
      intro tone
      rw [Audio.playDialTone, Audio.promised_enqueue]
      exact h tone
    exact iff_of_true hkeeps trivial
  | deliver event =>
    cases hstep
    have hbefore (tone : Tone) : s.promised tone = true ↔
        Rings toLowerCase s.heard event.callId tone ∨
          RingsElse toLowerCase s.heard event.callId tone := by
      rw [← exists_rings_iff]
      exact h tone
    have hafter : Promises toLowerCase
        { s.onCallEvent toLowerCase event with heard := event :: s.heard } ↔
        ∀ tone, (s.onCallEvent toLowerCase event).promised tone = true ↔
          toneOf toLowerCase event = some tone ∨
            RingsElse toLowerCase s.heard event.callId tone :=
      forall_congr' fun tone ↦ iff_congr Iff.rfl exists_rings_cons
    rw [hafter]
    unfold Followed
    by_cases hstop : Stops toLowerCase event
    · have hring := toneOf_of_stops hstop
      simp [onCallEvent_of_stops hstop, Audio.promised_enqueue, Audio.after, hring, hstop]
    · cases hring : toneOf toLowerCase event with
      | none =>
        simp [onCallEvent_of_other hring hstop, hbefore, hstop, hring]
      | some rung =>
        simp only [promised_of_toneOf hring, hbefore, hstop, exists_rings_iff event.callId, hring,
          ne_eq, Option.some.injEq, false_imp_iff, not_false_eq_true, true_imp_iff, true_and]
        constructor
        · intro hiff
          constructor
          · intro tone hrings hne
            exact ((hiff tone).mp (Or.inl (Or.inl hrings))).resolve_left hne
          · rintro tone rfl hflag
            rcases (hiff rung).mpr (Or.inl rfl) with hrings | ⟨-, hdown⟩
            · exact hrings
            · rw [hflag] at hdown
              cases hdown
        · rintro ⟨hleaves, hstarts⟩ tone
          by_cases hsame : rung = tone
          · subst hsame
            apply iff_of_true _ (Or.inl rfl)
            cases hflag : s.playing rung with
            | true => exact Or.inl (hstarts rung rfl hflag)
            | false => exact Or.inr ⟨rfl, rfl⟩
          · constructor
            · rintro ((hrings | helse) | ⟨rfl, -⟩)
              · exact Or.inr (hleaves tone hrings hsame)
              · exact Or.inr helse
              · exact absurd rfl hsame
            · rintro (rfl | helse)
              · exact absurd rfl hsame
              · exact Or.inl (Or.inr helse)

/-- Delivering an event leaves the players and the flags alone. -/
theorem synced_onCallEvent (h : s.Synced) :
    Audio.Synced { s.onCallEvent toLowerCase event with heard := event :: heard } := by
  by_cases hstop : Stops toLowerCase event
  · rw [onCallEvent_of_stops hstop]
    exact h
  · cases hring : toneOf toLowerCase event with
    | none =>
      rw [onCallEvent_of_other hring hstop]
      exact h
    | some tone =>
      rw [onCallEvent_of_toneOf hring]
      split
      · exact h
      · exact h

/-- The players agree with the flags in every run. -/
theorem synced_of_run (run : acts.foldlM (audioStep toLowerCase) .initial = some s) : s.Synced := by
  apply (Path.of_foldlM run).invariant
  · rfl
  · intro u act v h _ hstep
    cases act with
    | work => exact Audio.synced_work h hstep
    | press digit =>
      cases hstep
      exact h
    | deliver event =>
      cases hstep
      exact synced_onCallEvent h

/-- The chain going on, as often as it does, keeps what it will come to. -/
theorem promises_of_works {n : Nat} (hsync : u.Synced)
    (run : (List.replicate n AudioAct.work).foldlM (audioStep toLowerCase) u = some v) :
    v.Synced ∧ (Promises toLowerCase v ↔ Promises toLowerCase u) := by
  induction n generalizing u with
  | zero =>
    cases run
    exact ⟨hsync, Iff.rfl⟩
  | succ n ih =>
    rw [List.replicate_succ, List.foldlM_cons] at run
    cases hwork : u.work with
    | none => simp [audioStep, hwork] at run
    | some w =>
      have hrest : (List.replicate n AudioAct.work).foldlM (audioStep toLowerCase) w = some v := by
        simpa [audioStep, hwork] using run
      obtain ⟨hv, hiff⟩ := ih (Audio.synced_work hsync hwork) hrest
      have hw : Promises toLowerCase w ↔ Promises toLowerCase u := by
        unfold Promises
        simp [Audio.promised_work hwork, Audio.heard_work hwork]
      exact ⟨hv, hiff.trans hw⟩

/-- The chain can be drained. -/
theorem exists_drained (toLowerCase : String → String) (u : Audio) : ∃ n v,
    (List.replicate n AudioAct.work).foldlM (audioStep toLowerCase) u = some v ∧ v.Drained := by
  induction hleft : u.left using Nat.strong_induction_on generalizing u with
  | _ left ih =>
    cases hwork : u.work with
    | none => exact ⟨0, u, rfl, Audio.work_eq_none_iff.mp hwork⟩
    | some w =>
      obtain ⟨n, v, hrun, hdrained⟩ := ih w.left (hleft ▸ Audio.left_work hwork) w rfl
      refine ⟨n + 1, v, ?_, hdrained⟩
      rw [List.replicate_succ, List.foldlM_cons]
      simpa [audioStep, hwork] using hrun

/-- The sounds of a drained chain are those of the calls that ring just if it came to that. -/
theorem ringFollows_iff (hsync : s.Synced) (hdrained : s.Drained) :
    RingFollows toLowerCase s ↔ Promises toLowerCase s := by
  unfold RingFollows Promises
  simp [Audio.sounds_of_drained hsync hdrained]

/-- For every run, over any calls and in any order of deliveries and operations, all its steps are
followed if and only if, from every state on the way, the ringtone and the ringback sound for the
calls that ring once the chain is drained. -/
theorem ring_audio_iff (run : acts.foldlM (audioStep toLowerCase) .initial = some s) :
    Path (audioStep toLowerCase) (Followed toLowerCase) .initial acts s ↔
      ∀ js u, js <+: acts → js.foldlM (audioStep toLowerCase) .initial = some u →
        ∀ n v, (List.replicate n AudioAct.work).foldlM (audioStep toLowerCase) u = some v →
          v.Drained → RingFollows toLowerCase v := by
  have halways : Path (audioStep toLowerCase) (Followed toLowerCase) .initial acts s ↔
      ∀ js u, js <+: acts → js.foldlM (audioStep toLowerCase) .initial = some u →
        Promises toLowerCase u :=
    Path.iff_always promises_initial (fun _ _ _ h hstep ↦ promises_step_iff h hstep) run
  rw [halways]
  apply forall₄_congr
  intro js u hjs hrun
  have hsync := synced_of_run hrun
  constructor
  · intro h n v hworks hdrained
    obtain ⟨hv, hiff⟩ := promises_of_works hsync hworks
    exact (ringFollows_iff hv hdrained).mpr (hiff.mpr h)
  · intro h
    obtain ⟨n, v, hworks, hdrained⟩ := exists_drained toLowerCase u
    obtain ⟨hv, hiff⟩ := promises_of_works hsync hworks
    exact hiff.mp ((ringFollows_iff hv hdrained).mp (h n v hworks hdrained))

/-- An event of an incoming call. -/
def incoming (callId : Int) (state : String) : AudioAct :=
  .deliver ⟨callId, state, "Incoming"⟩

/-- A call comes in and rings until the chain is drained. -/
def oneCall : List AudioAct := incoming 1 "CallState.ringing" :: List.replicate 3 .work

/-- The call ends, and another rings before the chain goes on. -/
def nextCall : List AudioAct :=
  oneCall ++ [incoming 1 "CallState.ended", incoming 2 "CallState.ringing"] ++
    List.replicate 3 .work

/-- A call that comes in, as an instance. -/
theorem ring_audio_iff_oneCall : ∃ s,
    oneCall.foldlM (audioStep lowered) .initial = some s ∧ s.Drained ∧ RingFollows lowered s := by
  refine ⟨_, rfl, ⟨rfl, rfl⟩, ?_⟩
  have hfirst : Followed lowered .initial (incoming 1 "CallState.ringing") := by
    refine ⟨fun hstop ↦ ?_, fun _ tone hrings ↦ ?_, fun tone _ hflag ↦ ?_⟩
    · exact absurd (toneOf_of_stops hstop) (by decide +kernel)
    · simp [Rings, Audio.initial] at hrings
    · simp [Audio.initial] at hflag
  have ring : Path (audioStep lowered) (Followed lowered) .initial
      [incoming 1 "CallState.ringing"] _ := Path.nil.snoc hfirst rfl
  have works : Path (audioStep lowered) (fun _ act ↦ act = .work)
      { Audio.initial.startRingtone with heard := [⟨1, "CallState.ringing", "Incoming"⟩] }
      (List.replicate 3 .work) _ :=
    Path.of_forall rfl fun _ hact ↦ List.eq_of_mem_replicate hact
  have path := ring.trans (works.imp fun _ act hact ↦ hact ▸ trivial)
  exact (ring_audio_iff rfl).mp path oneCall _ List.prefix_rfl rfl 0 _ rfl ⟨rfl, rfl⟩

/-- A call that rings between the end of another and its operation is silent. -/
theorem nextCall_silent : ∃ s,
    nextCall.foldlM (audioStep lowered) .initial = some s ∧ s.Drained ∧
      Rings lowered s.heard 2 .ringtone ∧ s.sounds .ringtone = false ∧
      ¬RingFollows lowered s := by
  refine ⟨_, rfl, ⟨rfl, rfl⟩, ?_⟩
  have hrings : Rings lowered [⟨2, "CallState.ringing", "Incoming"⟩,
      ⟨1, "CallState.ended", "Incoming"⟩, ⟨1, "CallState.ringing", "Incoming"⟩] 2 .ringtone :=
    ⟨_, rfl, by decide +kernel⟩
  refine ⟨hrings, rfl, fun hfollows ↦ ?_⟩
  exact Bool.false_ne_true ((hfollows .ringtone).mpr ⟨2, hrings⟩)

end Ringing

end PacketDial.Ui
