import PacketDial.System.Lifecycle

/-!
# Consistency of the call tables

The results on whole runs: an ended record stays ended, and `PJSIP_CALL_MAP` is a partial
bijection between the PJSIP ids in use and the live records. Each holds as long as every input
meets a condition on the state it is applied to, and fails on the run given with it.
-/

namespace PacketDial.System

open PacketDial.Core PacketDial.Lib

/-- The id map holds exactly the live records, under their PJSIP ids. -/
def Matched (s : Engine) : Prop :=
  ∀ (pjCallId : Int) (id : UInt32), s.pjsipCallMap.lookup pjCallId = some id ↔
    ∃ call, s.calls.lookup id = some call ∧ call.state ≠ .ended ∧
      call.pjsipCallId = some pjCallId

/-- An input that leaves ended calls alone, shuts down only an idle engine and overwrites no
live record. -/
def Orderly (w : World) (i : Input) : Prop :=
  IdleShutdown w.engine i ∧ HoldsLive w.engine i ∧ OpensOverEnded w.engine i

instance (w : World) (i : Input) : Decidable (Orderly w i) := inferInstanceAs (Decidable (_ ∧ _))

/-- The invariant of orderly runs. -/
structure Consistent (w : World) : Prop where
  keyed : (tables w.engine).Keyed
  sound : Sound (tables w.engine).route (tables w.engine).owner
  complete : Complete (tables w.engine).route (tables w.engine).owner
  inUse : ∀ pjCallId id, (tables w.engine).route pjCallId = some id → pjCallId ∈ w.inUse

namespace Consistent

/-- Nothing is tracked at first. -/
theorem initial : Consistent World.initial where
  keyed := keyed_initial
  sound := fun _ _ h ↦ by cases h
  complete := fun _ _ h ↦ by cases h
  inUse := fun _ _ h ↦ by cases h

/-- The tables of a consistent world match. -/
theorem matched {w : World} (h : Consistent w) : Matched w.engine := by
  intro pjCallId id
  have howner : (tables w.engine).owner id = some pjCallId ↔ _ := CallTables.owner_eq_some
  exact Iff.trans ⟨h.sound pjCallId id, h.complete pjCallId id⟩ howner

/-- Two PJSIP ids are never routed to one record. -/
theorem injective {w : World} (h : Consistent w) {p q : Int} {id : UInt32}
    (hp : w.engine.pjsipCallMap.lookup p = some id)
    (hq : w.engine.pjsipCallMap.lookup q = some id) : p = q :=
  h.sound.injective hp hq

/-- The step lemma: an orderly input keeps the world consistent. -/
theorem step {w w' : World} {i : Input} (h : Consistent w) (hi : Orderly w i)
    (hs : worldStep w i = some w') : Consistent w' := by
  obtain ⟨hidle, hhold, hopen⟩ := hi
  unfold worldStep at hs
  dsimp only at hs
  split at hs
  · next hbrought =>
    obtain ⟨s', hs', rfl⟩ := Option.map_eq_some_iff.mp hs
    have change := step_change h.keyed hs'
    have edits := edits_of_change change
    have fresh : ∀ pjCallId ∈ broughtIds i (i.acts w.engine),
        (tables w.engine).route pjCallId = none := by
      intro pjCallId hmem
      have hnot := List.all_eq_true.mp hbrought pjCallId hmem
      cases hroute : (tables w.engine).route pjCallId with
      | none => rfl
      | some id => exact absurd (h.inUse _ _ hroute) (by simpa using hnot)
    have both := edits_invariant (I := fun T ↦ Sound T.route T.owner ∧ Complete T.route T.owner)
      edits (fun U V hU he ↦ ⟨sound_edit hhold hopen hU.1 he,
        complete_edit hhold hopen hidle fresh hU.1 hU.2 he⟩) ⟨h.sound, h.complete⟩
    exact
      { keyed := keyed_step h.keyed hs'
        sound := both.1
        complete := both.2
        inUse := fun _ _ hroute ↦ mapped_of_change change h.inUse hroute }
  · cases hs

/-- The run lemma: orderly runs stay consistent. -/
theorem of_path {w : World} {is : List Input} (path : Path worldStep Orderly World.initial is w) :
    Consistent w :=
  path.invariant initial fun _ _ _ h hi hs ↦ h.step hi hs

end Consistent

/-- In every orderly run the id map holds exactly the live records. -/
theorem matched_of_orderly {w : World} {is : List Input}
    (path : Path worldStep Orderly World.initial is w) (pjCallId : Int) (id : UInt32) :
    w.engine.pjsipCallMap.lookup pjCallId = some id ↔
      ∃ call, w.engine.calls.lookup id = some call ∧ call.state ≠ .ended ∧
        call.pjsipCallId = some pjCallId :=
  (Consistent.of_path path).matched pjCallId id

/-- A run with a call that ended and one under the same PJSIP id, as an instance. -/
theorem matched_of_orderly_redial :
    ∃ w, Path worldStep Orderly World.initial (signIn ++ [dial, hangUp, dial]) w ∧
      (w.engine.pjsipCallMap.lookup 0 = some 2 ↔
        ∃ call, w.engine.calls.lookup 2 = some call ∧ call.state ≠ .ended ∧
          call.pjsipCallId = some 0) := by
  have h : ((signIn ++ [dial, hangUp, dial]).foldlM
      (fun w i ↦ if Orderly w i then worldStep w i else none) World.initial).isSome := by decide
  obtain ⟨w, hw⟩ := Option.isSome_iff_exists.mp h
  have path := Path.of_guarded hw
  exact ⟨w, path, matched_of_orderly path 0 2⟩

/-- A shutdown during a call leaves its record live without an entry in the id map. -/
theorem shutdown_strands_call :
    ∃ w, (signIn ++ [dial, ⟨.shutdown, quietEnv⟩]).foldlM worldStep World.initial = some w ∧
      ¬ Matched w.engine := by
  have h : ((signIn ++ [dial, ⟨.shutdown, quietEnv⟩]).foldlM worldStep World.initial).map
      (fun w ↦ (w.engine.pjsipCallMap.lookup 0, w.engine.calls.lookup 1)) =
        some (none, some (newCall 1 "a" "sip:x@y" .outgoing 0)) := by decide
  obtain ⟨w, hw, hv⟩ := Option.map_eq_some_iff.mp h
  obtain ⟨hmap, hcall⟩ := Prod.mk.inj hv
  refine ⟨w, hw, fun matched ↦ ?_⟩
  have hroute := (matched 0 1).mpr ⟨_, hcall, by decide, rfl⟩
  rw [hmap] at hroute
  cases hroute

/-- An input that leaves ended calls alone and overwrites no record. -/
def LeavesEnded (s : Engine) (i : Input) : Prop := HoldsLive s i ∧ OpensFresh s i

instance (s : Engine) (i : Input) : Decidable (LeavesEnded s i) :=
  inferInstanceAs (Decidable (_ ∧ _))

/-- A free id is no live record's. -/
theorem OpensFresh.overEnded {s : Engine} {i : Input} (h : OpensFresh s i) :
    OpensOverEnded s i := by
  intro hop call hcall
  rw [h hop] at hcall
  cases hcall

/-- The record with an id is there and has ended. -/
def EndedIn (T : CallTables) (id : UInt32) : Prop :=
  ∃ call, T.calls.lookup id = some call ∧ call.state = .ended

/-- Writing a record keeps `id` ended if it is another one or one that has ended. -/
theorem EndedIn.setCall {T : CallTables} {id id' : UInt32} (h : EndedIn T id) {new : Call}
    (hnew : id' = id → new.state = .ended) : EndedIn (T.setCall id' new) id := by
  by_cases heq : id' = id
  · subst heq
    exact ⟨new, lookup_setCall _ _ _, hnew rfl⟩
  · unfold EndedIn
    rw [lookup_setCall_ne _ (Ne.symm heq)]
    exact h

/-- No edit revives an ended record. -/
theorem EndedIn.edit {i : Input} {s : Engine} {ids : List Int} {T T' : CallTables} {id : UInt32}
    (h : EndedIn T id) (hi : LeavesEnded s i) (hs : Sound T.route T.owner)
    (he : Edit i s ids T T') : EndedIn T' id := by
  obtain ⟨call, hcall, hended⟩ := h
  -- The record that an edit finds under `id` is the ended one.
  have found {old : Call} (hl : T.calls.lookup id = some old) : old.state = .ended := by
    rw [hcall] at hl
    cases hl
    exact hended
  cases he with
  | burn => exact ⟨call, hcall, hended⟩
  | enter hop _ hid _ _ =>
    refine EndedIn.setCall ⟨call, hcall, hended⟩ fun heq ↦ ?_
    have hnone : (tables s).calls.lookup id = none := by
      rw [← heq, hid]
      exact hi.2 hop
    rw [hnone] at hcall
    cases hcall
  | amend hl _ _ hstate =>
    refine EndedIn.setCall ⟨call, hcall, hended⟩ ?_
    rintro rfl
    rw [hstate]
    exact found hl
  | hold htarget hl _ _ _ =>
    refine EndedIn.setCall ⟨call, hcall, hended⟩ ?_
    rintro rfl
    exact absurd (found hl) (hi.1 _ htarget _ hl)
  | progress hmap hl _ _ _ =>
    refine EndedIn.setCall ⟨call, hcall, hended⟩ ?_
    rintro rfl
    exact absurd (found hl) (live_of_route hs hmap hl)
  | finish _ _ _ _ hstate =>
    refine EndedIn.setCall ⟨call, ?_, hended⟩ fun _ ↦ hstate
    rw [CallTables.unmap_calls]
    exact hcall
  | forget =>
    refine ⟨call, ?_, hended⟩
    rw [CallTables.unmap_calls]
    exact hcall
  | clear => exact ⟨call, hcall, hended⟩

/-- The tables are keyed and route to live records only. -/
def Routed (s : Engine) : Prop :=
  (tables s).Keyed ∧ Sound (tables s).route (tables s).owner

/-- Inputs that leave ended calls alone keep the routes on live records. -/
theorem routed_step {s s' : Engine} {i : Input} (h : Routed s) (hi : LeavesEnded s i)
    (hs : engineStep s i = some s') : Routed s' := by
  refine ⟨keyed_step h.1 hs, ?_⟩
  exact edits_invariant (I := fun T ↦ Sound T.route T.owner)
    (edits_of_change (step_change h.1 hs))
    (fun _ _ hU he ↦ sound_edit hi.1 hi.2.overEnded hU he) h.2

/-- The routes of a run whose inputs leave ended calls alone. -/
theorem routed_of_path {s : Engine} {is : List Input}
    (path : Path engineStep LeavesEnded Engine.initial is s) : Routed s :=
  path.invariant ⟨keyed_initial, fun _ _ h ↦ by cases h⟩ fun _ _ _ h hi hs ↦ routed_step h hi hs

/-- No step revives an ended record. -/
theorem endedIn_step {s s' : Engine} {i : Input} {id : UInt32} (h : Routed s)
    (hi : LeavesEnded s i) (hs : engineStep s i = some s') (hended : EndedIn (tables s) id) :
    EndedIn (tables s') id := by
  have both := edits_invariant (I := fun T ↦ Sound T.route T.owner ∧ EndedIn T id)
    (edits_of_change (step_change h.1 hs))
    (fun _ _ hU he ↦ ⟨sound_edit hi.1 hi.2.overEnded hU.1 he, hU.2.edit hi hU.1 he⟩)
    ⟨h.2, hended⟩
  exact both.2

/-- Once a record has ended it stays ended, in every run whose inputs leave ended calls alone. -/
theorem ended_absorbing {s s' : Engine} {is js : List Input} {id : UInt32} {call : Call}
    (before : Path engineStep LeavesEnded Engine.initial is s)
    (after : Path engineStep LeavesEnded s js s') (hcall : s.calls.lookup id = some call)
    (hended : call.state = .ended) :
    ∃ call', s'.calls.lookup id = some call' ∧ call'.state = .ended := by
  have both := after.invariant (I := fun t ↦ Routed t ∧ EndedIn (tables t) id)
    ⟨routed_of_path before, call, hcall, hended⟩
    fun _ _ _ h hi hs ↦ ⟨routed_step h.1 hi hs, endedIn_step h.1 hi hs h.2⟩
  exact both.2

/-- Muting an ended call, as an instance. -/
theorem ended_absorbing_mute :
    ∃ s s', Path engineStep LeavesEnded s
        [commandInput "CallMute" [("call_id", .ofU32 1), ("muted", .bool true)]] s' ∧
      (s'.calls.lookup 1).map (·.muted) = some true ∧
      ∃ call, s'.calls.lookup 1 = some call ∧ call.state = .ended := by
  let checked (s : Engine) (i : Input) := if LeavesEnded s i then engineStep s i else none
  let mute := commandInput "CallMute" [("call_id", .ofU32 1), ("muted", .bool true)]
  have h : ((signIn ++ [dial, hangUp]).foldlM checked Engine.initial).bind (fun s ↦
      ([mute].foldlM checked s).map fun s' ↦ ((s.calls.lookup 1).map (·.state),
        (s'.calls.lookup 1).map (·.muted))) = some (some .ended, some true) := by decide
  obtain ⟨s, hs, h⟩ := Option.bind_eq_some_iff.mp h
  obtain ⟨s', hs', hv⟩ := Option.map_eq_some_iff.mp h
  obtain ⟨hended, hmuted⟩ := Prod.mk.inj hv
  obtain ⟨call, hcall, hstate⟩ := Option.map_eq_some_iff.mp hended
  have after := Path.of_guarded hs'
  exact ⟨s, s', after, hmuted, ended_absorbing (Path.of_guarded hs) after hcall hstate⟩

/-- A `CallHold` that names an ended call puts it back into the state `InCall`. -/
theorem hold_revives_ended :
    ∃ s s', (signIn ++ [dial, hangUp]).foldlM engineStep Engine.initial = some s ∧
      engineStep s (commandInput "CallHold" [("call_id", .ofU32 1), ("hold", .bool false)]) =
        some s' ∧
      (s.calls.lookup 1).map (·.state) = some .ended ∧
      (s'.calls.lookup 1).map (·.state) = some .inCall := by
  have h : ((signIn ++ [dial, hangUp]).foldlM engineStep Engine.initial).bind (fun s ↦
      (engineStep s (commandInput "CallHold" [("call_id", .ofU32 1), ("hold", .bool false)])).map
        fun s' ↦ ((s.calls.lookup 1).map (·.state), (s'.calls.lookup 1).map (·.state))) =
      some (some .ended, some .inCall) := by decide
  obtain ⟨s, hs, h⟩ := Option.bind_eq_some_iff.mp h
  obtain ⟨s', hs', hv⟩ := Option.map_eq_some_iff.mp h
  obtain ⟨hended, hlive⟩ := Prod.mk.inj hv
  exact ⟨s, s', hs, hs', hended, hlive⟩

end PacketDial.System
