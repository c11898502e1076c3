import PacketDial.Lib.Strands
import PacketDial.Ui.Integration

/-!
# The hooks of a call

The end of a call reaches `IntegrationService.onCallEnd` directly and once more over the bus
(`engine_channel.dart:611–616`, `integration_service.dart:83–103`). Its ring hook runs again for a
report of `Ringing` after an answer, which makes the guard forget that it rang. What the bus
delivers of a call is tallied against the guards and the runs of its hooks.
-/

namespace PacketDial.Ui

open PacketDial.Core PacketDial.Lib PacketDial.System

/-- What an event of a call is to the hooks. -/
inductive Sign where
  | ring
  | answer
  | ending
  | other
  deriving DecidableEq

/-- The sign of an event. -/
def sign (call : ActiveCall) : Sign :=
  if call.direction = .incoming ∧ call.state = .ringing then .ring
  else if call.state = .inCall then .answer
  else if call.state = .ended then .ending
  else .other

/-- The signs of the events of one call. -/
def signs (callId : Int) (events : List ActiveCall) : List Sign :=
  (events.filter fun call ↦ call.callId = callId).map sign

/-- How often a hook has run for a call. -/
def App.hookCount (a : App) (hook : Hook) (callId : Int) : Nat :=
  a.runs.countP fun run ↦ run.hook = hook ∧ run.call.callId = callId

/-- The hooks fire once: on the ring and the answer of a call at most once, and on its end exactly
once. -/
structure HooksOnce (a : App) (callId : Int) : Prop where
  ring : a.hookCount .ring callId ≤ 1
  answered : a.hookCount .answered callId ≤ 1
  ended : a.hookCount .ended callId = if .ending ∈ signs callId a.reported then 1 else 0

/-- A call rings, is answered and rings again. -/
def RingsAgain (log : List Sign) : Prop := Without .ring .answer log ∧ Before .answer .ring log

/-- What the app keeps of one call: whether the guards hold it, and how often its hooks ran. -/
@[ext] structure HookView where
  ringing : Bool
  answered : Bool
  ended : Bool
  rings : Nat
  answers : Nat
  ends : Nat

/-- What the app keeps of a call. -/
def App.hookView (a : App) (callId : Int) : HookView where
  ringing := decide (callId ∈ a.ringingCalls)
  answered := decide (callId ∈ a.answeredCalls)
  ended := decide (callId ∈ a.endedCalls)
  rings := a.hookCount .ring callId
  answers := a.hookCount .answered callId
  ends := a.hookCount .ended callId

/-- What an event of the call does. -/
def HookView.after (v : HookView) : Sign → HookView
  | .ring => if v.ringing then v else { v with ringing := true, rings := v.rings + 1 }
  | .answer =>
    if v.answered then v
    else { v with ringing := false, answered := true, answers := v.answers + 1 }
  | .ending =>
    if v.ended then v
    else { v with ringing := false, answered := false, ended := true, ends := v.ends + 1 }
  | .other => v

section Logs

/-- What comes first is there. -/
theorem mem_of_before {α : Type} {a b : α} {log : List α} (h : Before a b log) : a ∈ log :=
  h.subset List.mem_cons_self

/-- Where one entry is missing throughout. -/
theorem without_of_notMem {α : Type} {a b : α} {log : List α} (h : b ∉ log) :
    Without a b log ↔ a ∈ log := by
  constructor
  · rintro ⟨l, -, hl⟩
    exact hl.subset List.mem_concat_self
  · intro ha
    obtain ⟨l, r, rfl⟩ := List.append_of_mem ha
    rw [List.mem_append, not_or] at h
    exact ⟨l, h.1, r, by simp⟩

variable {callId : Int} {events : List ActiveCall} {call : ActiveCall}

/-- An event of the call. -/
theorem signs_concat_self (h : call.callId = callId) :
    signs callId (events ++ [call]) = signs callId events ++ [sign call] := by
  unfold signs
  rw [List.filter_append, List.map_append, List.filter_singleton, decide_eq_true h]
  rfl

/-- An event of another call. -/
theorem signs_concat_other (h : call.callId ≠ callId) :
    signs callId (events ++ [call]) = signs callId events := by
  unfold signs
  rw [List.filter_append, List.filter_singleton, decide_eq_false h, cond_false, List.append_nil]

/-- The end of a call has the sign of one. -/
theorem sign_eq_ending : sign call = .ending ↔ call.state = .ended := by
  unfold sign
  rcases call with ⟨_, _, _, direction, state, _, _, _, _, _⟩
  cases direction <;> cases state <;> simp

/-- A call has ended just if an end of it is among the events. -/
theorem ending_mem_signs :
    .ending ∈ signs callId events ↔
      ∃ call ∈ events, call.callId = callId ∧ call.state = .ended := by
  simp only [signs, List.mem_map, List.mem_filter, decide_eq_true_eq, sign_eq_ending, and_assoc]

/-- The end of a call that comes next. -/
theorem ending_mem_signs_concat : .ending ∈ signs callId (events ++ [call]) ↔
    .ending ∈ signs callId events ∨ (call.callId = callId ∧ call.state = .ended) := by
  simp only [ending_mem_signs, List.mem_append, List.mem_singleton, or_and_right, exists_or,
    exists_eq_left]

end Logs

open Classical in
/-- One if it holds, and otherwise zero. -/
noncomputable def tally (p : Prop) : Nat := if p then 1 else 0

/-- The delivered events of a call against its view. The guard of the end is taken back after a
while, so it says nothing about a call that has ended before. -/
structure Tallied (log : List Sign) (v : HookView) : Prop where
  guarded : v.ended = true → .ending ∈ log
  answered : .ending ∉ log → (v.answered = true ↔ .answer ∈ log)
  answers : .ending ∉ log → v.answers = tally (.answer ∈ log)
  ringing : .ending ∉ log →
    (v.ringing = true ↔ (.answer ∉ log ∧ .ring ∈ log) ∨ Before .answer .ring log)
  rings : .ending ∉ log →
    v.rings = tally (Without .ring .answer log) + tally (Before .answer .ring log)

section Tallied

variable {p : Prop} {log : List Sign} {v : HookView}

/-- What holds counts. -/
theorem tally_true (h : p) : tally p = 1 := if_pos h

/-- What does not hold does not count. -/
theorem tally_false (h : ¬p) : tally p = 0 := if_neg h

/-- Two counts exceed one if both hold. -/
theorem tally_add_le_one {q : Prop} : tally p + tally q ≤ 1 ↔ ¬(p ∧ q) := by
  unfold tally
  split <;> split <;> simp [*]

/-- Before anything is delivered. -/
theorem tallied_nil : Tallied [] ⟨false, false, false, 0, 0, 0⟩ where
  guarded h := by cases h
  answered _ := by simp
  answers _ := by simp [tally]
  ringing _ := by simp [Before]
  rings _ := by simp [tally, Before, not_without_nil]

/-- What a ring changes in what is asked about rings. -/
theorem rings_concat_ring (log : List Sign) :
    (Without .ring .answer (log ++ [.ring]) ↔ Without .ring .answer log ∨ .answer ∉ log) ∧
      (Before .answer .ring (log ++ [.ring]) ↔ Before .answer .ring log ∨ .answer ∈ log) := by
  rw [without_concat, before_concat]
  simp

/-- Other events change nothing of it. -/
theorem rings_concat_ne (log : List Sign) {x : Sign} (hx : .ring ≠ x) :
    (Without .ring .answer (log ++ [x]) ↔ Without .ring .answer log) ∧
      (Before .answer .ring (log ++ [x]) ↔ Before .answer .ring log) := by
  rw [without_concat, before_concat]
  simp [hx]

/-- A ring is delivered while the guard holds the call. -/
theorem Tallied.ring_guarded (h : Tallied log v) (hv : v.ringing = true) :
    Tallied (log ++ [.ring]) v := by
  have hending : Sign.ending ∉ log ++ [.ring] ↔ .ending ∉ log := by simp
  have hanswer : Sign.answer ∈ log ++ [.ring] ↔ .answer ∈ log := by simp
  obtain ⟨hwithout, hbefore⟩ := rings_concat_ring log
  constructor
  · exact fun hended ↦ List.mem_append_left _ (h.guarded hended)
  · rw [hending, hanswer]
    exact h.answered
  · rw [hending, hanswer]
    exact h.answers
  · rw [hending, hanswer, hbefore]
    intro hlog
    refine iff_of_true hv ?_
    rcases (h.ringing hlog).mp hv with ⟨ha, -⟩ | hb
    · exact Or.inl ⟨ha, List.mem_concat_self⟩
    · exact Or.inr (Or.inl hb)
  · rw [hending, hwithout, hbefore]
    intro hlog
    rw [h.rings hlog]
    rcases (h.ringing hlog).mp hv with ⟨ha, hr⟩ | hb
    · have hw : Without .ring .answer log := (without_of_notMem ha).mpr hr
      rw [or_iff_left_of_imp fun _ ↦ hw, or_iff_left ha]
    · have ha : Sign.answer ∈ log := mem_of_before hb
      rw [or_iff_left fun hn ↦ hn ha, or_iff_left_of_imp fun _ ↦ hb]

/-- A ring is delivered while the guard does not hold the call. -/
theorem Tallied.ring_unguarded (h : Tallied log v) (hv : ¬v.ringing = true) :
    Tallied (log ++ [.ring]) { v with ringing := true, rings := v.rings + 1 } := by
  have hending : Sign.ending ∉ log ++ [.ring] ↔ .ending ∉ log := by simp
  have hanswer : Sign.answer ∈ log ++ [.ring] ↔ .answer ∈ log := by simp
  obtain ⟨hwithout, hbefore⟩ := rings_concat_ring log
  constructor
  · exact fun hended ↦ List.mem_append_left _ (h.guarded hended)
  · rw [hending, hanswer]
    exact h.answered
  · rw [hending, hanswer]
    exact h.answers
  · rw [hending, hanswer, hbefore]
    intro hlog
    refine iff_of_true rfl ?_
    by_cases ha : Sign.answer ∈ log
    · exact Or.inr (Or.inr ha)
    · exact Or.inl ⟨ha, List.mem_concat_self⟩
  · rw [hending, hwithout, hbefore]
    intro hlog
    have hcase : ¬((.answer ∉ log ∧ .ring ∈ log) ∨ Before .answer .ring log) :=
      (not_congr (h.ringing hlog)).mp hv
    rw [not_or] at hcase
    have hrings : v.rings = tally (Without .ring .answer log) := by
      rw [h.rings hlog, tally_false hcase.2, Nat.add_zero]
    dsimp only
    rw [hrings]
    by_cases ha : Sign.answer ∈ log
    · rw [or_iff_left fun hn ↦ hn ha, tally_true (Or.inr ha)]
    · have hw : ¬Without .ring .answer log := fun hw ↦
        hcase.1 ⟨ha, (without_of_notMem ha).mp hw⟩
      rw [tally_false hw, tally_true (Or.inr ha), tally_false fun hb ↦ hb.elim hcase.2 ha]

/-- An answer is delivered. -/
theorem Tallied.answer (h : Tallied log v) : Tallied (log ++ [.answer]) (v.after .answer) := by
  have hending : Sign.ending ∉ log ++ [.answer] ↔ .ending ∉ log := by simp
  have hanswer : Sign.answer ∈ log ++ [.answer] := List.mem_concat_self
  obtain ⟨hwithout, hbefore⟩ := rings_concat_ne log (x := .answer) (by decide)
  unfold HookView.after
  by_cases hv : v.answered = true
  · rw [if_pos hv]
    constructor
    · exact fun hended ↦ List.mem_append_left _ (h.guarded hended)
    · exact fun _ ↦ iff_of_true hv hanswer
    · rw [hending, tally_true hanswer]
      intro hlog
      rw [h.answers hlog, tally_true ((h.answered hlog).mp hv)]
    · rw [hending, hbefore, or_iff_right fun hn ↦ hn.1 hanswer]
      intro hlog
      rw [h.ringing hlog, or_iff_right fun hn ↦ hn.1 ((h.answered hlog).mp hv)]
    · rw [hending, hwithout, hbefore]
      exact h.rings
  · rw [if_neg hv]
    constructor
    · exact fun hended ↦ List.mem_append_left _ (h.guarded hended)
    · exact fun _ ↦ iff_of_true rfl hanswer
    · rw [hending, tally_true hanswer]
      intro hlog
      dsimp only
      rw [h.answers hlog, tally_false ((not_congr (h.answered hlog)).mp hv)]
    · rw [hending, hbefore, or_iff_right fun hn ↦ hn.1 hanswer]
      intro hlog
      have hnot : Sign.answer ∉ log := (not_congr (h.answered hlog)).mp hv
      exact iff_of_false Bool.false_ne_true fun hb ↦ hnot (mem_of_before hb)
    · rw [hending, hwithout, hbefore]
      exact h.rings

/-- The tally of the next event. -/
theorem Tallied.after (h : Tallied log v) (x : Sign) : Tallied (log ++ [x]) (v.after x) := by
  cases x with
  | ring =>
    by_cases hv : v.ringing = true
    · rw [HookView.after, if_pos hv]
      exact h.ring_guarded hv
    · rw [HookView.after, if_neg hv]
      exact h.ring_unguarded hv
  | answer => exact h.answer
  | ending =>
    have hending : Sign.ending ∈ log ++ [.ending] := List.mem_concat_self
    constructor
    · exact fun _ ↦ hending
    all_goals exact fun hlog ↦ absurd hending hlog
  | other =>
    obtain ⟨hwithout, hbefore⟩ := rings_concat_ne log (x := .other) (by decide)
    have hmem {y : Sign} (hy : y ≠ .other) : y ∈ log ++ [.other] ↔ y ∈ log := by simp [hy]
    constructor
    · rw [hmem (by decide)]
      exact h.guarded
    · rw [hmem (by decide), hmem (by decide)]
      exact h.answered
    · rw [hmem (by decide), hmem (by decide)]
      exact h.answers
    · rw [hmem (by decide), hmem (by decide), hmem (by decide), hbefore]
      exact h.ringing
    · rw [hmem (by decide), hwithout, hbefore]
      exact h.rings

/-- The guard of the end is taken back. -/
theorem Tallied.forget (h : Tallied log v) : Tallied log { v with ended := false } :=
  ⟨(by intro hended; cases hended), h.answered, h.answers, h.ringing, h.rings⟩

/-- Runs of the end hook are not tallied. -/
theorem Tallied.ends (h : Tallied log v) (n : Nat) : Tallied log { v with ends := n } :=
  ⟨h.guarded, h.answered, h.answers, h.ringing, h.rings⟩

end Tallied

/-- The invariant of the app: an entry has the id of its key, a call without an entry is new or has
ended, and the end hook has run for a call that ended, once more when the bus has delivered it. -/
structure Served (a : App) : Prop where
  queue : a.reported = a.delivered ++ a.bus
  entry : ∀ callId call, a.activeCalls.lookup callId = some call → call.callId = callId
  listed : ∀ callId, a.activeCalls.lookup callId = none →
    signs callId a.reported = [] ∨ .ending ∈ signs callId a.reported
  tallied : ∀ callId, Tallied (signs callId a.delivered) (a.hookView callId)
  ended : ∀ callId, .ending ∈ signs callId a.reported →
    1 + tally (.ending ∈ signs callId a.delivered) ≤ (a.hookView callId).ends
  going : ∀ callId, .ending ∉ signs callId a.reported → (a.hookView callId).ends = 0

section Served

variable {a b : App} {call : ActiveCall} {callId : Int}

/-- A run counts for its hook and its call. -/
theorem hookCount_record {hook hook' : Hook} {data : Option Resolved} :
    (a.record hook call data).hookCount hook' callId =
      a.hookCount hook' callId + if hook = hook' ∧ call.callId = callId then 1 else 0 := by
  unfold App.hookCount App.record
  rw [List.countP_append, List.countP_singleton]
  simp

/-- The banner is none of the hooks. -/
theorem hookView_showCallEvent (dndEnabled : Bool) :
    (a.showCallEvent dndEnabled call).hookView callId = a.hookView callId := by
  unfold App.showCallEvent
  split
  · rfl
  · split <;> rfl

/-- An event of the call is delivered. -/
theorem hookView_onCallEvent_self (a : App) (call : ActiveCall) :
    (a.onCallEvent call).hookView call.callId = (a.hookView call.callId).after (sign call) := by
  unfold App.onCallEvent sign
  by_cases hring : call.direction = .incoming ∧ call.state = .ringing
  · rw [if_pos hring, if_pos hring]
    by_cases hmem : call.callId ∈ a.ringingCalls
    · simp [App.hookView, HookView.after, hmem]
    · ext <;> simp [App.hookView, HookView.after, hmem, App.onIncomingCall, App.hookCount,
        App.record]
  rw [if_neg hring, if_neg hring]
  by_cases hanswer : call.state = .inCall
  · rw [if_pos hanswer, if_pos hanswer]
    by_cases hmem : call.callId ∈ a.answeredCalls
    · simp [App.hookView, HookView.after, hmem]
    · ext <;> simp [App.hookView, HookView.after, hmem, App.onCallAnswered, App.hookCount,
        App.record]
  rw [if_neg hanswer, if_neg hanswer]
  by_cases hended : call.state = .ended
  · rw [if_pos hended, if_pos hended]
    by_cases hmem : call.callId ∈ a.endedCalls
    · simp [App.hookView, HookView.after, hmem]
    · ext <;> simp [App.hookView, HookView.after, hmem, App.onCallEnd, App.hookCount, App.record]
  · rw [if_neg hended, if_neg hended]
    rfl

/-- An event of another call is delivered. -/
theorem hookView_onCallEvent_other (a : App) (hne : call.callId ≠ callId) :
    (a.onCallEvent call).hookView callId = a.hookView callId := by
  have hne' : callId ≠ call.callId := hne.symm
  unfold App.onCallEvent
  split
  · split
    · rfl
    · ext <;> simp [App.hookView, hne, hne', App.onIncomingCall, App.hookCount, App.record] <;>
        rfl
  split
  · split
    · rfl
    · ext <;> simp [App.hookView, hne, hne', App.onCallAnswered, App.hookCount, App.record]
      rfl
  split
  · split
    · rfl
    · ext <;> simp [App.hookView, hne, hne', App.onCallEnd, App.hookCount, App.record]
  · rfl

/-- The fields of the app that the hooks do not touch. -/
def App.SameEvents (a b : App) : Prop :=
  b.activeCalls = a.activeCalls ∧ b.bus = a.bus ∧ b.reported = a.reported ∧
    b.delivered = a.delivered

/-- The hooks leave the events. -/
theorem sameEvents_deliver (dndEnabled : Bool) (a : App) (call : ActiveCall) :
    a.SameEvents ((a.showCallEvent dndEnabled call).onCallEvent call) := by
  unfold App.onCallEvent App.showCallEvent
  repeat' split
  all_goals exact ⟨rfl, rfl, rfl, rfl⟩

/-- What the app does with a report. -/
theorem onReport_events (a : App) (call : ActiveCall) : (a.onReport call).bus = a.bus ++ [call] ∧
    (a.onReport call).reported = a.reported ++ [call] ∧
    (a.onReport call).delivered = a.delivered ∧
    (a.onReport call).activeCalls = if call.state = .ended then a.activeCalls.erase call.callId
      else a.activeCalls.insert call.callId call := by
  unfold App.onReport
  dsimp only
  split
  · split <;> exact ⟨rfl, rfl, rfl, rfl⟩
  · exact ⟨rfl, rfl, rfl, rfl⟩

/-- The report of a live call runs no hook. -/
theorem hookView_onReport_live (hlive : call.state ≠ .ended) :
    (a.onReport call).hookView callId = a.hookView callId := by
  unfold App.onReport
  dsimp only
  rw [if_neg hlive]
  rfl

/-- The report of an ended call runs the end hook of the entry. -/
theorem hookView_onReport_ended (hended : call.state = .ended) :
    (a.onReport call).hookView callId = { a.hookView callId with
      ends := (a.hookView callId).ends +
        if ∃ old, a.activeCalls.lookup call.callId = some old ∧ old.callId = callId then 1
        else 0 } := by
  unfold App.onReport
  dsimp only
  rw [if_pos hended]
  cases a.activeCalls.lookup call.callId with
  | none => simp [App.hookView, App.hookCount]
  | some old => ext <;> simp [App.hookView, App.onCallEnd, App.hookCount, App.record]

/-- Nothing has happened yet. -/
theorem served_initial : Served .initial where
  queue := rfl
  entry callId call h := by cases h
  listed _ _ := Or.inl rfl
  tallied _ := tallied_nil
  ended _ h := absurd h List.not_mem_nil
  going _ _ := rfl

/-- A step that delivers no event runs at most the upload hook, and may take back a guard of the
end. -/
theorem Served.same (h : Served a) (hevents : a.SameEvents b)
    (hview : ∀ callId, b.hookView callId = a.hookView callId ∨
      b.hookView callId = { a.hookView callId with ended := false }) : Served b := by
  obtain ⟨hcalls, hbus, hreported, hdelivered⟩ := hevents
  have hends (callId : Int) : (b.hookView callId).ends = (a.hookView callId).ends := by
    rcases hview callId with hv | hv <;> rw [hv]
  constructor
  · rw [hreported, hdelivered, hbus]
    exact h.queue
  · rw [hcalls]
    exact h.entry
  · rw [hcalls, hreported]
    exact h.listed
  · intro callId
    rw [hdelivered]
    rcases hview callId with hv | hv
    · rw [hv]
      exact h.tallied callId
    · rw [hv]
      exact (h.tallied callId).forget
  · intro callId
    rw [hreported, hdelivered, hends]
    exact h.ended callId
  · intro callId
    rw [hreported, hends]
    exact h.going callId

/-- The guard of the end of one call is taken back. -/
theorem hookView_erase_ended (timers : List Int) (callId' : Int) :
    let b := { a with timers, endedCalls := a.endedCalls.erase callId' }
    b.hookView callId = a.hookView callId ∨
      b.hookView callId = { a.hookView callId with ended := false } := by
  intro b
  by_cases heq : callId = callId'
  · refine Or.inr ?_
    ext <;> simp [b, App.hookView, heq, App.hookCount]
  · refine Or.inl ?_
    ext <;> simp [b, App.hookView, heq, App.hookCount]

/-- Only an end runs the end hook. -/
theorem ends_after_ne (v : HookView) {x : Sign} (hx : x ≠ .ending) : (v.after x).ends = v.ends := by
  cases x with
  | ending => exact absurd rfl hx
  | other => rfl
  | ring =>
    change (if v.ringing then v else _).ends = _
    split <;> rfl
  | answer =>
    change (if v.answered then v else _).ends = _
    split <;> rfl

/-- An end runs the hook unless the guard holds the call. -/
theorem ends_after_ending (v : HookView) :
    (v.after .ending).ends = v.ends + if v.ended then 0 else 1 := by
  change (if v.ended then v else _).ends = _
  split <;> rfl

/-- The runs of the end hook when the next event is delivered. -/
theorem Tallied.ends_after {log : List Sign} {v : HookView} (h : Tallied log v) (x : Sign)
    (hends : 1 + tally (.ending ∈ log) ≤ v.ends) :
    1 + tally (.ending ∈ log ++ [x]) ≤ (v.after x).ends := by
  by_cases hx : x = .ending
  · subst hx
    rw [ends_after_ending, tally_true List.mem_concat_self]
    by_cases hv : v.ended = true
    · rw [tally_true (h.guarded hv)] at hends
      omega
    · rw [if_neg hv]
      omega
  · have hmem : .ending ∈ log ++ [x] ↔ .ending ∈ log := by simp [Ne.symm hx]
    rw [ends_after_ne v hx, hmem]
    exact hends

/-- The bus delivers an event. -/
theorem Served.deliver (h : Served a) {bus : List ActiveCall} (hbus : a.bus = call :: bus)
    (dndEnabled : Bool) :
    Served (({ a with bus := bus, delivered := a.delivered ++ [call] }.showCallEvent dndEnabled
      call).onCallEvent call) := by
  obtain ⟨hcalls, hbus', hreported, hdelivered⟩ := sameEvents_deliver dndEnabled
    { a with bus := bus, delivered := a.delivered ++ [call] } call
  have hself := hookView_onCallEvent_self
    ({ a with bus := bus, delivered := a.delivered ++ [call] }.showCallEvent dndEnabled call) call
  have hother (callId : Int) (hne : call.callId ≠ callId) :=
    hookView_onCallEvent_other
      ({ a with bus := bus, delivered := a.delivered ++ [call] }.showCallEvent dndEnabled call) hne
  simp only [hookView_showCallEvent] at hself hother
  have hmem : call ∈ a.reported := by
    rw [h.queue, hbus]
    exact List.mem_append_right _ List.mem_cons_self
  constructor
  · rw [hreported, hdelivered, hbus']
    change a.reported = (a.delivered ++ [call]) ++ bus
    rw [h.queue, hbus, List.append_assoc, List.singleton_append]
  · rw [hcalls]
    exact h.entry
  · rw [hcalls, hreported]
    exact h.listed
  · intro callId
    rw [hdelivered]
    by_cases heq : call.callId = callId
    · subst heq
      rw [hself, signs_concat_self rfl]
      exact (h.tallied call.callId).after (sign call)
    · rw [hother callId heq, signs_concat_other heq]
      exact h.tallied callId
  · intro callId hending
    rw [hreported] at hending
    rw [hdelivered]
    by_cases heq : call.callId = callId
    · subst heq
      rw [hself, signs_concat_self rfl]
      exact (h.tallied call.callId).ends_after (sign call) (h.ended call.callId hending)
    · rw [hother callId heq, signs_concat_other heq]
      exact h.ended callId hending
  · intro callId hending
    rw [hreported] at hending
    by_cases heq : call.callId = callId
    · subst heq
      have hx : sign call ≠ .ending := fun hx ↦
        hending (ending_mem_signs.mpr ⟨call, hmem, rfl, sign_eq_ending.mp hx⟩)
      rw [hself, ends_after_ne _ hx]
      exact h.going call.callId hending
    · rw [hother callId heq]
      exact h.going callId hending

/-- The app handles a report. The first one of a call is not of its end. -/
theorem Served.report (h : Served a)
    (hknown : call.state = .ended → signs call.callId a.reported ≠ []) :
    Served (a.onReport call) := by
  obtain ⟨hbus, hreported, hdelivered, hcalls⟩ := onReport_events a call
  have hends : call.state = .ended → .ending ∉ signs call.callId a.reported →
      ((a.onReport call).hookView call.callId).ends = 1 := by
    intro hended hnot
    obtain ⟨old, hold⟩ : ∃ old, a.activeCalls.lookup call.callId = some old := by
      rw [← Option.ne_none_iff_exists']
      intro hnone
      exact (h.listed call.callId hnone).elim (hknown hended) hnot
    rw [hookView_onReport_ended hended, if_pos ⟨old, hold, h.entry _ _ hold⟩]
    dsimp only
    rw [h.going _ hnot]
  have hsame (callId : Int) (hne : call.callId ≠ callId ∨ call.state ≠ .ended) :
      (a.onReport call).hookView callId = a.hookView callId := by
    by_cases hended : call.state = .ended
    · rw [hookView_onReport_ended hended, if_neg]
      · rfl
      · rintro ⟨old, hold, hid⟩
        rw [h.entry _ _ hold] at hid
        exact hne.elim (fun hne ↦ hne hid) fun hlive ↦ hlive hended
    · exact hookView_onReport_live hended
  have hmono (callId : Int) :
      (a.hookView callId).ends ≤ ((a.onReport call).hookView callId).ends := by
    by_cases hended : call.state = .ended
    · rw [hookView_onReport_ended hended]
      exact Nat.le_add_right _ _
    · rw [hookView_onReport_live hended]
  have hself : (a.onReport call).activeCalls.lookup call.callId =
      if call.state = .ended then none else some call := by
    rw [hcalls]
    split
    · exact AList.lookup_erase _ _
    · exact AList.lookup_insert _
  have hother (callId : Int) (hne : callId ≠ call.callId) :
      (a.onReport call).activeCalls.lookup callId = a.activeCalls.lookup callId := by
    rw [hcalls]
    split
    · exact AList.lookup_erase_ne hne
    · exact AList.lookup_insert_ne hne
  constructor
  · rw [hreported, hdelivered, hbus, h.queue, List.append_assoc]
  · intro callId old hold
    by_cases heq : callId = call.callId
    · subst heq
      rw [hself] at hold
      split at hold
      · cases hold
      · exact congrArg ActiveCall.callId (Option.some.inj hold).symm
    · rw [hother callId heq] at hold
      exact h.entry callId old hold
  · intro callId hnone
    rw [hreported, ending_mem_signs_concat]
    by_cases heq : callId = call.callId
    · subst heq
      rw [hself] at hnone
      split at hnone
      · next hended => exact Or.inr (Or.inr ⟨rfl, hended⟩)
      · cases hnone
    · rw [hother callId heq] at hnone
      rw [signs_concat_other (Ne.symm heq)]
      exact (h.listed callId hnone).imp (fun h ↦ h) Or.inl
  · intro callId
    rw [hdelivered]
    by_cases hended : call.state = .ended
    · rw [hookView_onReport_ended hended]
      exact (h.tallied callId).ends _
    · rw [hookView_onReport_live hended]
      exact h.tallied callId
  · intro callId hending
    rw [hreported, ending_mem_signs_concat] at hending
    rw [hdelivered]
    by_cases hbefore : .ending ∈ signs callId a.reported
    · exact (h.ended callId hbefore).trans (hmono callId)
    · obtain ⟨rfl, hended⟩ := hending.resolve_left hbefore
      have hnot : .ending ∉ signs call.callId a.delivered := by
        rw [ending_mem_signs] at hbefore ⊢
        rintro ⟨old, hold, hid⟩
        exact hbefore ⟨old, h.queue ▸ List.mem_append_left _ hold, hid⟩
      rw [hends hended hbefore, tally_false hnot]
  · intro callId hnot
    rw [hreported, ending_mem_signs_concat, not_or, not_and_or] at hnot
    rw [hsame callId hnot.2]
    exact h.going callId hnot.1

/-- The app acts on its own. -/
theorem Served.act (h : Served a) {act : AppAct} (hact : a.act act = some b) :
    Served b ∧ b.reported = a.reported := by
  unfold App.act at hact
  cases act with
  | deliver dndEnabled =>
    dsimp only at hact
    split at hact
    · cases hact
    · next call bus hbus =>
      cases hact
      exact ⟨h.deliver hbus dndEnabled, (sameEvents_deliver dndEnabled _ _).2.2.1⟩
  | expire k =>
    obtain ⟨callId, -, rfl⟩ := Option.map_eq_some_iff.mp hact
    exact ⟨h.same ⟨rfl, rfl, rfl, rfl⟩ fun _ ↦ hookView_erase_ended _ _, rfl⟩
  | resolve k result =>
    obtain ⟨call, -, rfl⟩ := Option.map_eq_some_iff.mp hact
    exact ⟨h.same ⟨rfl, rfl, rfl, rfl⟩ fun _ ↦ Or.inl rfl, rfl⟩
  | upload k =>
    obtain ⟨call, -, rfl⟩ := Option.map_eq_some_iff.mp hact
    refine ⟨h.same ⟨rfl, rfl, rfl, rfl⟩ fun _ ↦ Or.inl ?_, rfl⟩
    ext <;> first | rfl | exact hookCount_record
  | clearBanner =>
    cases hact
    exact ⟨h.same ⟨rfl, rfl, rfl, rfl⟩ fun _ ↦ Or.inl rfl, rfl⟩

end Served

/-- What the app has been told of the calls of the engine: of each record, and of its end. -/
structure Announced (t : Office) : Prop where
  keyed : (tables t.engine).Keyed
  known : ∀ id, stateOf (tables t.engine) id ≠ none → signs (id.toNat : Int) t.app.reported ≠ []
  routed : ∀ pj id, (tables t.engine).route pj = some id → stateOf (tables t.engine) id ≠ none
  ended : ∀ id, stateOf (tables t.engine) id = some .ended →
    .ending ∈ signs (id.toNat : Int) t.app.reported
  served : Served t.app

section Office

variable {now : Nat → Int} {t u : Office} {i : Input} {move : OfficeMove}

/-- Before the first operation. -/
theorem announced_initial : Announced .initial where
  keyed := keyed_initial
  known id h := absurd rfl h
  routed pj id h := by cases h
  ended id h := by cases h
  served := served_initial

/-- A record is written and reported. -/
theorem Announced.report (h : Announced t) {time : Int} {previous : Option ActiveCall} {call : Call}
    (hk : (tables u.engine).Keyed)
    (happ : u.app = t.app.onReport (shownCall time previous call))
    (hstate : stateOf (tables u.engine) =
      Function.update (stateOf (tables t.engine)) call.id (some call.state))
    (hroute : ∀ pj id, (tables u.engine).route pj = some id →
      id = call.id ∨ (tables t.engine).route pj = some id)
    (hknown : call.state = .ended → stateOf (tables t.engine) call.id ≠ none) : Announced u := by
  have hreported : u.app.reported = t.app.reported ++ [shownCall time previous call] := by
    rw [happ]
    exact (onReport_events _ _).2.1
  constructor
  · exact hk
  · intro id hid
    rw [hreported]
    by_cases heq : id = call.id
    · subst heq
      have hself : (shownCall time previous call).callId = (call.id.toNat : Int) := rfl
      rw [signs_concat_self hself]
      exact List.append_ne_nil_of_right_ne_nil _ (List.cons_ne_nil _ _)
    · rw [hstate, Function.update_of_ne heq] at hid
      rw [signs_concat_other (key_ne (Ne.symm heq))]
      exact h.known id hid
  · intro pj id hid
    rw [hstate]
    by_cases heq : id = call.id
    · subst heq
      rw [Function.update_self]
      exact Option.some_ne_none _
    · rw [Function.update_of_ne heq]
      exact h.routed pj id ((hroute pj id hid).resolve_left heq)
  · intro id hid
    rw [hreported, ending_mem_signs_concat, shownCall_ended]
    rw [hstate] at hid
    by_cases heq : id = call.id
    · subst heq
      rw [Function.update_self] at hid
      exact Or.inr ⟨rfl, Option.some.inj hid⟩
    · rw [Function.update_of_ne heq] at hid
      exact Or.inl (h.ended id hid)
  · rw [happ]
    exact h.served.report fun hended ↦ h.known call.id (hknown (shownCall_ended.mp hended))

/-- The step lemma of the session. -/
theorem Announced.step (h : Announced t) (hs : officeStep now t move = some u) : Announced u := by
  cases move with
  | app act =>
    obtain ⟨app, hact, rfl⟩ := Option.map_eq_some_iff.mp hs
    obtain ⟨hserved, hreported⟩ := h.served.act hact
    constructor
    · exact h.keyed
    · dsimp only
      rw [hreported]
      exact h.known
    · exact h.routed
    · dsimp only
      rw [hreported]
      exact h.ended
    · exact hserved
  | input i =>
    have hstep := engine_of_officeStep hs
    have hk := keyed_step h.keyed hstep
    have hsight := sighting_of_change h.keyed (step_change h.keyed hstep)
    generalize hr : reports (i.acts t.engine) = payloads at hsight
    generalize hT : tables u.engine = T at hsight
    cases hsight with
    | silent hstate hroute =>
      have happ := app_of_silent hs hr
      constructor
      · exact hk
      · rw [hT, hstate, happ]
        exact h.known
      · rw [hT, hstate]
        exact fun pj id hid ↦ h.routed pj id (hroute pj id hid)
      · rw [hT, hstate, happ]
        exact h.ended
      · rw [happ]
        exact h.served
    | live hreport hlive hstate hroute _ =>
      refine h.report hk (app_of_report hs hreport hr) (hT ▸ hstate) (fun pj id hid ↦ Or.inr ?_)
        fun hended ↦ absurd hended hlive
      rwa [hT, hroute] at hid
    | @opened accountId uri direction pjCallId _ hop hreport =>
      refine h.report hk (app_of_report hs hreport hr) ?_ (fun pj id hid ↦ ?_) fun hended ↦ ?_
      · rw [hT]
        exact stateOf_setCall _ _ _
      · rw [hT, CallTables.route_track] at hid
        by_cases heq : pj = pjCallId
        · rw [heq, Function.update_self] at hid
          exact Or.inl (Option.some.inj hid).symm
        · rw [Function.update_of_ne heq] at hid
          exact Or.inr hid
      · cases hended
    | @ended call _ pjCallId _ _ hreport hended hmap hstate hroute _ =>
      refine h.report hk (app_of_report hs hreport hr) ?_ (fun pj id hid ↦ Or.inr ?_) fun _ ↦
        h.routed pjCallId call.id hmap
      · rw [hT, hstate, hended]
      · rw [hT, hroute] at hid
        by_cases heq : pj = pjCallId
        · rw [heq, Function.update_self] at hid
          cases hid
        · rwa [Function.update_of_ne heq] at hid
    | @again call _ _ _ hreport hended hwas hstate hroute _ =>
      refine h.report hk (app_of_report hs hreport hr) ?_ (fun pj id hid ↦ Or.inr ?_) fun _ ↦ ?_
      · rw [hT, hstate, hended, ← hwas, Function.update_eq_self]
      · rwa [hT, hroute] at hid
      · rw [hwas]
        exact Option.some_ne_none _

/-- The run lemma of the session. -/
theorem announced_of_run {moves : List OfficeMove}
    (run : moves.foldlM (officeStep now) Office.initial = some t) : Announced t :=
  (Path.of_foldlM run).invariant announced_initial fun _ _ _ h _ hs ↦ h.step hs

/-- After every run, once the bus is empty: the hooks of a call have fired once, if and only if it
has not ended, and has not rung again after it rang and was answered. -/
theorem hooks_once_iff {moves : List OfficeMove}
    (run : moves.foldlM (officeStep now) Office.initial = some t) (hbus : t.app.bus = [])
    (id : UInt32) : HooksOnce t.app id.toNat ↔
      (∀ call ∈ t.app.reported, call.callId = id.toNat → call.state ≠ .ended) ∧
        ¬RingsAgain (signs id.toNat t.app.reported) := by
  have served := (announced_of_run run).served
  have hsame : t.app.delivered = t.app.reported := by
    rw [served.queue, hbus, List.append_nil]
  have tallied := served.tallied id.toNat
  have htwice := served.ended id.toNat
  rw [hsame] at tallied htwice
  have hgoing : (∀ call ∈ t.app.reported, call.callId = id.toNat → call.state ≠ .ended) ↔
      .ending ∉ signs id.toNat t.app.reported := by
    rw [ending_mem_signs]
    push Not
    rfl
  have hring (hlive : .ending ∉ signs id.toNat t.app.reported) :
      t.app.hookCount .ring id.toNat ≤ 1 ↔ ¬RingsAgain (signs id.toNat t.app.reported) := by
    rw [RingsAgain, ← tally_add_le_one, ← tallied.rings hlive]
    rfl
  rw [hgoing]
  constructor
  · intro once
    have hlive : .ending ∉ signs id.toNat t.app.reported := by
      intro hending
      have htwo := htwice hending
      rw [tally_true hending] at htwo
      have hone : (t.app.hookView id.toNat).ends = _ := once.ended
      rw [if_pos hending] at hone
      omega
    exact ⟨hlive, (hring hlive).mp once.ring⟩
  · rintro ⟨hlive, hagain⟩
    constructor
    · exact (hring hlive).mpr hagain
    · have hanswers : t.app.hookCount .answered id.toNat = tally _ := tallied.answers hlive
      rw [hanswers, tally]
      split <;> omega
    · rw [if_neg hlive]
      exact served.going id.toNat hlive

end Office

/-- A call is dialled, and its report delivered. -/
def dialled : List OfficeMove :=
  signIn.map OfficeMove.input ++ [OfficeMove.input dial, OfficeMove.app (.deliver false)]

/-- It ends. -/
def dialledAndEnded : List OfficeMove :=
  dialled ++ [OfficeMove.input hangUp, OfficeMove.app (.deliver false)]

/-- A dialled call, as an instance. -/
theorem hooks_once_iff_dialled :
    ∃ t, dialled.foldlM (officeStep fun _ ↦ 0) Office.initial = some t ∧ t.app.bus = [] ∧
      (HooksOnce t.app 1 ↔
        (∀ call ∈ t.app.reported, call.callId = 1 → call.state ≠ .ended) ∧
          ¬RingsAgain (signs 1 t.app.reported)) := by
  have h : (dialled.foldlM (officeStep fun _ ↦ 0) Office.initial).map (·.app.bus) = some [] := by
    decide
  obtain ⟨t, ht, hbus⟩ := Option.map_eq_some_iff.mp h
  exact ⟨t, ht, hbus, hooks_once_iff ht hbus 1⟩

/-- The end hook of a dialled call that ends runs twice. -/
theorem end_hook_twice :
    ∃ t, dialledAndEnded.foldlM (officeStep fun _ ↦ 0) Office.initial = some t ∧
      t.app.bus = [] ∧ t.app.hookCount .ended 1 = 2 ∧ ¬HooksOnce t.app 1 := by
  have hbus : (dialledAndEnded.foldlM (officeStep fun _ ↦ 0) Office.initial).map (·.app.bus) =
      some [] := by
    decide
  have hcount : (dialledAndEnded.foldlM (officeStep fun _ ↦ 0) Office.initial).map
      (·.app.hookCount .ended 1) = some 2 := by
    decide
  obtain ⟨t, ht, hbus⟩ := Option.map_eq_some_iff.mp hbus
  rw [ht] at hcount
  have htwo : t.app.hookCount .ended 1 = 2 := Option.some.inj hcount
  refine ⟨t, ht, hbus, htwo, fun once ↦ ?_⟩
  have hone := once.ended
  rw [htwo] at hone
  split at hone <;> omega

end PacketDial.Ui
