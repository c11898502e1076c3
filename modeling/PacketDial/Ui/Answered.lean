import PacketDial.Ui.Sightings

/-!
# Which calls count as answered

The app calls a call answered when it has seen it `InCall`. The engine puts a call `InCall` on
`CONFIRMED`, but also on `CONNECTING`, on media that becomes active before the call is confirmed
and on a resume (`core_rust/src/lib.rs:543–548`, `623–641`, `1979–1983`). A call is followed here
from the step that creates it to its `DISCONNECTED` callback, through any other steps.
-/

namespace PacketDial.Ui

open PacketDial.Core PacketDial.Lib PacketDial.System

/-- The call that an input reports as `CONFIRMED`. -/
def confirmedCall (i : Input) (s : Engine) : Option UInt32 :=
  match i.op with
  | .onCallState pjCallId invState => if invState = 5 then s.pjsipCallMap.lookup pjCallId else none
  | _ => none

/-- The call whose media an input reports as active. -/
def activeMediaCall (i : Input) (s : Engine) : Option UInt32 :=
  match i.op with
  | .onCallMedia pjCallId active => if active ≠ 0 then s.pjsipCallMap.lookup pjCallId else none
  | _ => none

/-- The input confirms the call. -/
def Confirms (id : UInt32) (t : PhoneSession) (i : Input) : Prop :=
  confirmedCall i t.engine = some id

/-- The input puts the call `InCall`: `CONNECTING` or `CONFIRMED`, active media while it is not
on hold, or a resume. -/
def TakesUp (id : UInt32) (t : PhoneSession) (i : Input) : Prop :=
  stateTarget i t.engine .inCall = some id ∨
    (activeMediaCall i t.engine = some id ∧
      ∃ call ∈ t.engine.calls.lookup id, call.onHold = false) ∨
    (holdTarget i t.engine = some id ∧ holdWanted i t.engine = false)

/-- The input neither ends the call nor creates another one under its id. -/
def GoesOn (id : UInt32) (t : PhoneSession) (i : Input) : Prop :=
  stateTarget i t.engine .ended ≠ some id ∧ (opensCall i t.engine → t.engine.nextCallId ≠ id)

instance (id : UInt32) (t : PhoneSession) (i : Input) : Decidable (GoesOn id t i) :=
  inferInstanceAs (Decidable (_ ∧ _))

/-- When the app saw the call answered. -/
def PhoneSession.startedAt (t : PhoneSession) (id : UInt32) : Option Int :=
  (t.phone.activeCalls.lookup (id.toNat : Int)).bind (·.startedAt)

section List

variable {call : Call} {now : Int} {phone : Phone} {id : UInt32}

/-- A report of a live call enters it. -/
theorem lookup_shownAfter (h : call.state ≠ .ended) :
    (shownAfter call now phone).lookup (call.id.toNat : Int) =
      some (shownCall now (phone.activeCalls.lookup (call.id.toNat : Int)) call) := by
  rw [shownAfter, if_neg h, AList.lookup_insert]

/-- A report leaves the entries of the other calls. -/
theorem lookup_shownAfter_ne (h : id ≠ call.id) :
    (shownAfter call now phone).lookup (id.toNat : Int) =
      phone.activeCalls.lookup (id.toNat : Int) := by
  unfold shownAfter
  split
  · exact AList.lookup_erase_ne (key_ne h)
  · exact AList.lookup_insert_ne (key_ne h)

end List

section Steps

variable {now : Nat → Int} {t u : PhoneSession} {i : Input} {s : Engine} {id : UInt32}

/-- The app's list mirrors the engine after every step. -/
theorem mirrors_phoneStep (hk : (tables t.engine).Keyed)
    (h : Mirrors t.phone.activeCalls (tables t.engine)) (hs : phoneStep now t i = some u) :
    Mirrors u.phone.activeCalls (tables u.engine) := by
  have hchange := step_change hk (engine_of_phoneStep hs)
  obtain ⟨next, hnext, hmirrors⟩ := reported_of_change hk hchange now t.handled _ h
  have hone {call : Call} {report : CallAct} (hreport : IsReport call report)
      (hr : reports (i.acts t.engine) = reports [report]) : u.phone.activeCalls = next := by
    rw [phone_of_report hs hreport hr]
    obtain ⟨accountName, displayName, username, rfl⟩ := hreport
    rw [hr] at hnext
    change (handleCallStateChanged _ _ _).bind _ = _ at hnext
    rw [handleCallStateChanged_eq] at hnext
    exact Option.some.inj hnext
  have hsight := sighting_of_change hk hchange
  have hlist : u.phone.activeCalls = next := by
    generalize hr : reports (i.acts t.engine) = payloads at hsight
    generalize tables u.engine = T at hsight
    cases hsight with
    | silent =>
      rw [phone_of_silent hs hr]
      rw [hr] at hnext
      exact Option.some.inj hnext
    | live hreport | opened _ hreport | ended _ hreport | again _ hreport =>
      exact hone hreport hr
  rw [hlist]
  exact hmirrors

/-- A step leaves a call that goes on, state and entry, or writes and reports it live. -/
theorem entry_phoneStep (hk : (tables t.engine).Keyed) (hgoes : GoesOn id t i)
    (hs : phoneStep now t i = some u) (hlive : stateOf (tables t.engine) id ≠ some .ended) :
    (stateOf (tables u.engine) id = stateOf (tables t.engine) id ∧
      u.phone.activeCalls.lookup (id.toNat : Int) =
        t.phone.activeCalls.lookup (id.toNat : Int)) ∨
    ∃ call, call.state ≠ .ended ∧ stateOf (tables u.engine) id = some call.state ∧
      u.phone.activeCalls.lookup (id.toNat : Int) = some (shownCall (now t.handled)
        (t.phone.activeCalls.lookup (id.toNat : Int)) call) := by
  have hsight := sighting_of_change hk (step_change hk (engine_of_phoneStep hs))
  generalize hr : reports (i.acts t.engine) = payloads at hsight
  generalize tables u.engine = T at hsight ⊢
  have other {call : Call} {report : CallAct} (hreport : IsReport call report)
      (hr : reports (i.acts t.engine) = reports [report]) (hid : id ≠ call.id) :
      u.phone.activeCalls.lookup (id.toNat : Int) =
        t.phone.activeCalls.lookup (id.toNat : Int) := by
    rw [phone_of_report hs hreport hr]
    exact lookup_shownAfter_ne hid
  cases hsight with
  | silent hstate _ =>
    rw [phone_of_silent hs hr]
    exact Or.inl ⟨congrFun hstate id, rfl⟩
  | @live call _ _ hreport hcall hstate _ _ =>
    rw [hstate]
    by_cases hid : id = call.id
    · subst hid
      refine Or.inr ⟨call, hcall, Function.update_self _ _ _, ?_⟩
      rw [phone_of_report hs hreport hr]
      exact lookup_shownAfter hcall
    · exact Or.inl ⟨Function.update_of_ne hid _ _, other hreport hr hid⟩
  | opened hop hreport =>
    have hid : id ≠ t.engine.nextCallId := (hgoes.2 hop).symm
    refine Or.inl ⟨?_, other hreport hr hid⟩
    exact (congrFun (stateOf_setCall _ _ _) id).trans (Function.update_of_ne hid _ _)
  | @ended call _ _ _ htarget hreport _ _ hstate _ _ =>
    have hid : id ≠ call.id := by
      rintro rfl
      exact hgoes.1 htarget
    rw [hstate]
    exact Or.inl ⟨Function.update_of_ne hid _ _, other hreport hr hid⟩
  | @again call _ _ _ hreport _ hwas hstate _ _ =>
    have hid : id ≠ call.id := by
      rintro rfl
      exact hlive hwas
    rw [hstate]
    exact Or.inl ⟨rfl, other hreport hr hid⟩

/-- The app has seen a call answered just if it had before or the step left it `InCall`. -/
theorem startedAt_phoneStep (hk : (tables t.engine).Keyed) (hgoes : GoesOn id t i)
    (hs : phoneStep now t i = some u) (hlive : stateOf (tables t.engine) id ≠ some .ended)
    (hseen : stateOf (tables t.engine) id = some .inCall → (t.startedAt id).isSome) :
    (u.startedAt id).isSome ↔
      (t.startedAt id).isSome ∨ stateOf (tables u.engine) id = some .inCall := by
  unfold PhoneSession.startedAt at hseen ⊢
  rcases entry_phoneStep hk hgoes hs hlive with ⟨hstate, hentry⟩ | ⟨call, -, hstate, hentry⟩
  · rw [hstate, hentry]
    exact ⟨Or.inl, fun h ↦ h.elim (fun h ↦ h) hseen⟩
  · rw [hstate, hentry, Option.bind_some, shownCall, Option.isSome_or]
    cases call.state <;> simp [shownState]

/-- A step that takes a call up leaves it `InCall`. -/
theorem stateOf_takesUp {old : Call} (hs : phoneStep now t i = some u)
    (hl : t.engine.calls.lookup id = some old) (h : TakesUp id t i) :
    stateOf (tables u.engine) id = some .inCall := by
  have hafter : tables (i.outcome t.engine).state = tables u.engine := by
    rw [engineStep_eq (engine_of_phoneStep hs)]
  rw [← hafter]
  rcases h with htarget | ⟨htarget, call, hcall, hactive⟩ | ⟨htarget, hwanted⟩
  · unfold stateTarget at htarget
    split at htarget
    · next pjCallId invState hop =>
      rw [Option.ite_none_right_eq_some] at htarget
      obtain ⟨hinv, hmap⟩ := htarget
      rw [stateOf_recording (tables_after_state hop hinv hmap hl), stateOf_setCall,
        Function.update_self, stateRecord_state]
    · cases htarget
  · cases (show _ = some call from hcall).symm.trans hl
    unfold activeMediaCall at htarget
    split at htarget
    · next pjCallId active hop =>
      rw [Option.ite_none_right_eq_some] at htarget
      obtain ⟨hne, hmap⟩ := htarget
      rw [tables_after_media hop hmap hl, stateOf_setCall, Function.update_self, mediaRecord,
        if_pos hne, hactive]
      rfl
    · cases htarget
  · obtain ⟨⟨cmd, p⟩, hcmd, hhold⟩ := Option.bind_eq_some_iff.mp htarget
    rw [Option.ite_none_right_eq_some] at hhold
    obtain ⟨rfl, -⟩ := hhold
    rw [tables_after_hold hcmd htarget hl, stateOf_setCall, Function.update_self, hwanted,
      heldRecord_state]
    rfl

/-- Closing the talk time of a call that is not counting changes nothing. -/
theorem settled_of_none {time : Nat} {call : Call} (h : call.lastResumedAt = none) :
    settled time call = call := by
  unfold settled
  rw [h]

/-- A step that does not take a call up makes it neither `InCall` nor count its talk time. -/
theorem record_of_not_takesUp {new : Call} (hk : (tables t.engine).Keyed) (hgoes : GoesOn id t i)
    (hs : phoneStep now t i = some u) (hl : u.engine.calls.lookup id = some new)
    (h : ¬TakesUp id t i) :
    ∃ old, t.engine.calls.lookup id = some old ∧ (new.state = .inCall → old.state = .inCall) ∧
      (old.lastResumedAt = none →
        new.lastResumedAt = none ∧ new.accumulatedActiveSecs = old.accumulatedActiveSecs) := by
  cases effect_of_step hk (engine_of_phoneStep hs) hl with
  | started hstart =>
    unfold startedCall at hstart
    rw [Option.ite_none_right_eq_some] at hstart
    exact absurd (Option.some.inj hstart.2) (hgoes.2 hstart.1.1)
  | @kept old _ _ hold hchange =>
    refine ⟨old, hold, ?_⟩
    cases hchange with
    | amend _ _ hamend =>
      rw [hamend]
      exact ⟨fun h ↦ h, fun h ↦ ⟨h, rfl⟩⟩
    | hold htarget =>
      have hwanted : holdWanted i t.engine = true := by
        by_contra hne
        exact h (Or.inr (Or.inr ⟨htarget, Bool.eq_false_of_not_eq_true hne⟩))
      rw [hwanted]
      refine ⟨fun hcall ↦ ?_, fun hnone ↦ ?_⟩
      · rw [heldRecord_state] at hcall
        cases hcall
      · rw [heldRecord, if_pos rfl, settled_of_none (by exact hnone)]
        exact ⟨hnone, rfl⟩
    | @state pjCallId invState newState new hop hinv hmap hsame =>
      have hne : newState ≠ .inCall := by
        rintro rfl
        refine h (Or.inl ?_)
        rw [stateTarget, hop]
        dsimp only
        rw [if_pos hinv]
        exact hmap
      refine ⟨fun hcall ↦ ?_, fun hnone ↦ ?_⟩
      · rw [hsame.state_eq, stateRecord_state] at hcall
        exact absurd hcall hne
      · rw [hsame]
        dsimp only
        rw [stateRecord, if_neg fun h ↦ hne h.1]
        split
        · rw [settled_of_none (by exact hnone)]
          exact ⟨hnone, rfl⟩
        · exact ⟨hnone, rfl⟩
    | @media pjCallId active hop hmap =>
      unfold mediaRecord
      split
      · next hactive =>
        have hheld : old.onHold = true := by
          by_contra hne
          refine h (Or.inr (Or.inl ⟨?_, old, hold, Bool.eq_false_of_not_eq_true hne⟩))
          rw [activeMediaCall, hop]
          dsimp only
          rw [if_pos hactive]
          exact hmap
        refine ⟨fun hcall ↦ ?_, fun hnone ↦ ⟨hnone, rfl⟩⟩
        dsimp only at hcall
        rw [if_pos hheld] at hcall
        cases hcall
      · refine ⟨fun hcall ↦ ?_, fun hnone ↦ ?_⟩
        · rw [settled_state] at hcall
          cases hcall
        · rw [settled_of_none (by exact hnone)]
          exact ⟨hnone, rfl⟩

end Steps

/-- The invariant of a call that goes on, `taken` saying that it has been taken up since it was
created: the app has seen it answered just then, and until then it counts no talk time. -/
structure Follows (id : UInt32) (taken : Prop) (t : PhoneSession) : Prop where
  keyed : (tables t.engine).Keyed
  mirrors : Mirrors t.phone.activeCalls (tables t.engine)
  live : ∃ call, t.engine.calls.lookup id = some call ∧ call.state ≠ .ended ∧
    (call.state = .inCall → taken) ∧
    (¬taken → call.lastResumedAt = none ∧ call.accumulatedActiveSecs = 0)
  seen : (t.startedAt id).isSome ↔ taken

section Runs

variable {now : Nat → Int} {t u v : PhoneSession} {i j : Input} {id : UInt32} {taken : Prop}
  {is : List Input}

/-- The state of a record that is there. -/
theorem stateOf_eq_some {T : CallTables} {state : Core.CallState} :
    stateOf T id = some state ↔ ∃ call, T.calls.lookup id = some call ∧ call.state = state :=
  Option.map_eq_some_iff

/-- The step lemma of a call that goes on. -/
theorem Follows.step (h : Follows id taken t) (hgoes : GoesOn id t i)
    (hs : phoneStep now t i = some u) : Follows id (taken ∨ TakesUp id t i) u := by
  obtain ⟨old, hl, hlive, hcall, hidle⟩ := h.live
  have hbefore : stateOf (tables t.engine) id = some old.state :=
    stateOf_eq_some.mpr ⟨old, hl, rfl⟩
  have hnot : stateOf (tables t.engine) id ≠ some .ended := by
    rw [hbefore]
    exact fun h ↦ hlive (Option.some.inj h)
  have hstarted := startedAt_phoneStep h.keyed hgoes hs hnot fun hin ↦ by
    rw [hbefore] at hin
    exact h.seen.mpr (hcall (Option.some.inj hin))
  have hafter : ∃ new, u.engine.calls.lookup id = some new ∧ new.state ≠ .ended := by
    rcases entry_phoneStep h.keyed hgoes hs hnot with ⟨hstate, -⟩ | ⟨call, hne, hstate, -⟩
    · rw [hbefore] at hstate
      obtain ⟨new, hnew, hnewstate⟩ := stateOf_eq_some.mp hstate
      exact ⟨new, hnew, hnewstate ▸ hlive⟩
    · obtain ⟨new, hnew, hnewstate⟩ := stateOf_eq_some.mp hstate
      exact ⟨new, hnew, hnewstate ▸ hne⟩
  obtain ⟨new, hnew, hnewlive⟩ := hafter
  have hchanged (hquiet : ¬TakesUp id t i) : (new.state = .inCall → old.state = .inCall) ∧
      (old.lastResumedAt = none →
        new.lastResumedAt = none ∧ new.accumulatedActiveSecs = old.accumulatedActiveSecs) := by
    obtain ⟨old', hold, hchange⟩ := record_of_not_takesUp h.keyed hgoes hs hnew hquiet
    cases hold.symm.trans hl
    exact hchange
  have hin : new.state = .inCall → taken ∨ TakesUp id t i := by
    intro hstate
    by_cases hup : TakesUp id t i
    · exact Or.inr hup
    · exact Or.inl (hcall ((hchanged hup).1 hstate))
  constructor
  · exact keyed_step h.keyed (engine_of_phoneStep hs)
  · exact mirrors_phoneStep h.keyed h.mirrors hs
  · refine ⟨new, hnew, hnewlive, hin, fun hno ↦ ?_⟩
    rw [not_or] at hno
    obtain ⟨hlast, hacc⟩ := hidle hno.1
    obtain ⟨hlast', hacc'⟩ := (hchanged hno.2).2 hlast
    exact ⟨hlast', hacc'.trans hacc⟩
  · rw [hstarted, h.seen]
    constructor
    · rintro (htaken | hstate)
      · exact Or.inl htaken
      · obtain ⟨new', hnew', hstate⟩ := stateOf_eq_some.mp hstate
        cases hnew.symm.trans hnew'
        exact hin hstate
    · rintro (htaken | hup)
      · exact Or.inl htaken
      · exact Or.inr (stateOf_takesUp hs hl hup)

/-- The run lemma of a call that goes on. -/
theorem Follows.run (h : Follows id taken t) (path : Path (phoneStep now) (GoesOn id) t is u) :
    Follows id (taken ∨ Somewhere (phoneStep now) (TakesUp id) t is) u := by
  induction path with
  | nil =>
    rw [eq_false not_somewhere_nil, or_false]
    exact h
  | snoc path hgoes hs ih =>
    rw [somewhere_snoc path, ← or_assoc]
    exact ih.step hgoes hs

/-- A call that was just created counts as answered only if the app lists an answered call under
its id. -/
theorem follows_created (hk : (tables t.engine).Keyed)
    (hm : Mirrors t.phone.activeCalls (tables t.engine)) (hs : phoneStep now t i = some u)
    (hcreated : createdBy i t.engine u.engine = some id) :
    Follows id (t.startedAt id).isSome u := by
  have hmirrors := mirrors_phoneStep hk hm hs
  have hkeyed := keyed_step hk (engine_of_phoneStep hs)
  unfold createdBy at hcreated
  rw [Option.ite_none_right_eq_some] at hcreated
  obtain ⟨⟨hnext, hsome⟩, hid⟩ := hcreated
  cases hid
  have hsight := sighting_of_change hk (step_change hk (engine_of_phoneStep hs))
  generalize hr : reports (i.acts t.engine) = payloads at hsight
  generalize hT : tables u.engine = T at hsight
  have hadvanced : T.nextCallId ≠ t.engine.nextCallId := by
    rw [← hT]
    exact hnext
  cases hsight with
  | silent => exact absurd hr hsome
  | live _ _ _ _ hsame | ended _ _ _ _ _ _ hsame | again _ _ _ _ _ _ hsame =>
    exact absurd hsame hadvanced
  | @opened accountId uri direction pjCallId _ _ hreport =>
    let call := newCall t.engine.nextCallId accountId uri direction pjCallId
    have hlive : call.state ≠ .ended := fun h ↦ by cases h
    have hl : (tables u.engine).calls.lookup t.engine.nextCallId = some call := by
      rw [hT]
      exact lookup_setCall _ _ _
    have hentry : u.phone.activeCalls.lookup (t.engine.nextCallId.toNat : Int) =
        some (shownCall (now t.handled)
          (t.phone.activeCalls.lookup (t.engine.nextCallId.toNat : Int)) call) := by
      rw [phone_of_report hs hreport hr]
      exact lookup_shownAfter hlive
    have hringing : call.state ≠ .inCall := fun h ↦ by cases h
    refine ⟨hkeyed, hmirrors, ⟨call, hl, hlive, fun h ↦ absurd h hringing, fun _ ↦ ?_⟩, ?_⟩
    · exact ⟨rfl, rfl⟩
    rw [PhoneSession.startedAt, hentry, Option.bind_some, shownCall]
    simp [call, newCall, shownState, PhoneSession.startedAt]

/-- The result that counts as answered. -/
theorem historyResult_eq_answered {direction : CallDirection} {connected : Bool} :
    historyResult direction connected none = "Answered" ↔ connected = true := by
  cases direction <;> cases connected <;> decide

/-- A call that ends has the result that the app takes from what it has seen. -/
theorem Follows.end (h : Follows id taken u) (hs : phoneStep now u j = some v)
    (hend : stateTarget j u.engine .ended = some id) :
    ∃ entry, v.phone.history = u.phone.history ++ [((id.toNat : Int), entry)] ∧
      (entry.result = "Answered" ↔ taken) := by
  obtain ⟨call, hl, hlive, hcall, hidle⟩ := h.live
  obtain ⟨shown, hshown, hshows⟩ : ∃ shown,
      u.phone.activeCalls.lookup (id.toNat : Int) = some shown ∧ Shows shown call := by
    have hentry := h.mirrors.entry id
    rw [show (tables u.engine).calls.lookup id = some call from hl] at hentry
    cases hshown : u.phone.activeCalls.lookup (id.toNat : Int) with
    | none =>
      rw [hshown] at hentry
      exact absurd hentry hlive
    | some shown =>
      rw [hshown] at hentry
      exact ⟨shown, rfl, hentry.2⟩
  have hseen : shown.startedAt.isSome ↔ taken := by
    rw [← h.seen, PhoneSession.startedAt, hshown]
    rfl
  have hconnected : wasConnected (some shown) = true ↔ taken := by
    unfold wasConnected
    rw [Bool.or_eq_true, Bool.or_eq_true, hseen, hshows.state, hshows.accumulatedSeconds]
    constructor
    · rintro ((hstate | htaken) | hsecs)
      · apply hcall
        cases hcs : call.state <;> rw [hcs] at hstate <;> first | rfl | cases hstate
      · exact htaken
      · by_contra hno
        rw [(hidle hno).2] at hsecs
        simp at hsecs
    · exact fun htaken ↦ Or.inl (Or.inr htaken)
  unfold stateTarget at hend
  split at hend
  · next pjCallId invState hop =>
    rw [Option.ite_none_right_eq_some] at hend
    obtain ⟨ended, hhistory⟩ := history_of_disconnect h.keyed hs hop hend.1 hend.2 hl
    refine ⟨_, hhistory, ?_⟩
    rw [hshown, endedEntry, Option.getD_some, historyEntry, historyResult_eq_answered]
    exact hconnected
  · cases hend

/-- What is confirmed is taken up. -/
theorem takesUp_of_confirms (h : Confirms id t i) : TakesUp id t i := by
  unfold Confirms confirmedCall at h
  split at h
  · next pjCallId invState hop =>
    rw [Option.ite_none_right_eq_some] at h
    refine Or.inl ?_
    unfold stateTarget
    rw [hop, h.1]
    exact h.2
  · cases h

/-- In every run, a call that ends has the result `Answered` just if it was confirmed, if and only
if it was confirmed or neither taken up nor listed under the id of an answered call. -/
theorem answered_iff {start : List Input} {t₀ : PhoneSession}
    (hstart : start.foldlM (phoneStep now) PhoneSession.initial = some t₀)
    (hcreate : phoneStep now t₀ i = some t)
    (hcreated : createdBy i t₀.engine t.engine = some id)
    (path : Path (phoneStep now) (GoesOn id) t is u) (hend : phoneStep now u j = some v)
    (hends : stateTarget j u.engine .ended = some id) :
    ∃ entry, v.phone.history = u.phone.history ++ [((id.toNat : Int), entry)] ∧
      ((entry.result = "Answered" ↔ Somewhere (phoneStep now) (Confirms id) t is) ↔
        (Somewhere (phoneStep now) (Confirms id) t is ∨
          ¬((t₀.startedAt id).isSome ∨ Somewhere (phoneStep now) (TakesUp id) t is))) := by
  have reached : (tables t₀.engine).Keyed ∧ Mirrors t₀.phone.activeCalls (tables t₀.engine) :=
    (Path.of_foldlM hstart).invariant
      (I := fun t ↦ (tables t.engine).Keyed ∧ Mirrors t.phone.activeCalls (tables t.engine))
      ⟨keyed_initial, Mirrors.initial⟩ fun _ _ _ h _ hs ↦
        ⟨keyed_step h.1 (engine_of_phoneStep hs), mirrors_phoneStep h.1 h.2 hs⟩
  have follows := (follows_created reached.1 reached.2 hcreate hcreated).run path
  obtain ⟨entry, hhistory, hresult⟩ := follows.end hend hends
  have hconfirmed (h : Somewhere (phoneStep now) (Confirms id) t is) :
      Somewhere (phoneStep now) (TakesUp id) t is := by
    obtain ⟨js, k, w, hpre, hrun, hk⟩ := h
    exact ⟨js, k, w, hpre, hrun, takesUp_of_confirms hk⟩
  refine ⟨entry, hhistory, ?_⟩
  rw [hresult]
  constructor
  · intro h
    by_cases hc : Somewhere (phoneStep now) (Confirms id) t is
    · exact Or.inl hc
    · exact Or.inr fun htaken ↦ hc (h.mp htaken)
  · rintro (hc | hno)
    · exact ⟨fun _ ↦ hc, fun _ ↦ Or.inr (hconfirmed hc)⟩
    · exact ⟨fun htaken ↦ absurd htaken hno, fun hc ↦ absurd (Or.inr (hconfirmed hc)) hno⟩

end Runs

/-- PJSIP reports a state of the call 0. -/
def callState (invState : Int) : Input := ⟨.onCallState 0 invState, quietEnv⟩

/-- A dialled call that rings, is confirmed and ends, as an instance. -/
theorem answered_iff_confirmed :
    ∃ t₀ t u v, signIn.foldlM (phoneStep fun _ ↦ 0) PhoneSession.initial = some t₀ ∧
      phoneStep (fun _ ↦ 0) t₀ dial = some t ∧
      [callState 3, callState 5].foldlM (phoneStep fun _ ↦ 0) t = some u ∧
      phoneStep (fun _ ↦ 0) u hangUp = some v ∧
      ∃ entry, v.phone.history = u.phone.history ++ [(1, entry)] ∧
        ((entry.result = "Answered" ↔
          Somewhere (phoneStep fun _ ↦ 0) (Confirms 1) t [callState 3, callState 5]) ↔
        (Somewhere (phoneStep fun _ ↦ 0) (Confirms 1) t [callState 3, callState 5] ∨
          ¬((t₀.startedAt 1).isSome ∨
            Somewhere (phoneStep fun _ ↦ 0) (TakesUp 1) t [callState 3, callState 5]))) := by
  have h : (signIn.foldlM (phoneStep fun _ ↦ 0) PhoneSession.initial).bind (fun t₀ ↦
      (phoneStep (fun _ ↦ 0) t₀ dial).bind fun t ↦
      ([callState 3, callState 5].foldlM (fun t i ↦
        if GoesOn 1 t i then phoneStep (fun _ ↦ 0) t i else none) t).bind fun u ↦
      (phoneStep (fun _ ↦ 0) u hangUp).map fun _ ↦
        (createdBy dial t₀.engine t.engine, stateTarget hangUp u.engine .ended)) =
      some (some 1, some 1) := by decide
  obtain ⟨t₀, ht₀, h⟩ := Option.bind_eq_some_iff.mp h
  obtain ⟨t, ht, h⟩ := Option.bind_eq_some_iff.mp h
  obtain ⟨u, hu, h⟩ := Option.bind_eq_some_iff.mp h
  obtain ⟨v, hv, h⟩ := Option.map_eq_some_iff.mp h
  rw [Prod.mk.injEq] at h
  have path := Path.of_guarded hu
  exact ⟨t₀, t, u, v, ht₀, ht, path.foldlM_eq, hv, answered_iff ht₀ ht h.1 path hv h.2⟩

/-- What is confirmed is reported as `CONFIRMED`. -/
theorem op_of_confirms {id : UInt32} {t : PhoneSession} {i : Input} (h : Confirms id t i) :
    ∃ pjCallId, i.op = .onCallState pjCallId 5 := by
  unfold Confirms confirmedCall at h
  split at h
  · next pjCallId invState hop =>
    rw [Option.ite_none_right_eq_some] at h
    exact ⟨pjCallId, by rw [hop, h.1]⟩
  · cases h

/-- A dialled call that was only connecting when it ended is saved as answered. -/
theorem connecting_counts_as_answered :
    ∃ t u v entry, (signIn ++ [dial]).foldlM (phoneStep fun _ ↦ 0) PhoneSession.initial = some t ∧
      [callState 4].foldlM (phoneStep fun _ ↦ 0) t = some u ∧
      phoneStep (fun _ ↦ 0) u hangUp = some v ∧ v.phone.history = [(1, entry)] ∧
      entry.result = "Answered" ∧
      ¬Somewhere (phoneStep fun _ ↦ 0) (Confirms 1) t [callState 4] := by
  have h : ((signIn ++ [dial]).foldlM (phoneStep fun _ ↦ 0) PhoneSession.initial).bind (fun t ↦
      ([callState 4].foldlM (phoneStep fun _ ↦ 0) t).bind fun u ↦
      (phoneStep (fun _ ↦ 0) u hangUp).map fun v ↦ v.phone.history) =
      some [(1, ⟨"a", "sip:x@y", "outgoing", 0, 0, none, none, "Answered"⟩)] := by decide
  obtain ⟨t, ht, h⟩ := Option.bind_eq_some_iff.mp h
  obtain ⟨u, hu, h⟩ := Option.bind_eq_some_iff.mp h
  obtain ⟨v, hv, h⟩ := Option.map_eq_some_iff.mp h
  refine ⟨t, u, v, _, ht, hu, hv, h, rfl, ?_⟩
  rintro ⟨js, i, w, hpre, -, hconfirms⟩
  have hmem : i ∈ [callState 4] := hpre.subset (by simp)
  obtain ⟨pjCallId, hop⟩ := op_of_confirms hconfirms
  rw [List.mem_singleton.mp hmem] at hop
  cases hop

end PacketDial.Ui
