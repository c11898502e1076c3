import PacketDial.Ui.Sightings

/-!
# One history entry per call

The app saves an entry on every report of an ended call and does not look for one it has. So a
call has one entry just if the engine reports its end once. A second report comes from
`cmd_call_mute` (`core_rust/src/lib.rs:1933–1962`), which reports the record it writes in
whatever state it is, and would come from a second route to the record. The ledger keeps, for
each call id, whether the call has ended and where its entries begin.
-/

namespace PacketDial.Ui

open PacketDial.Core PacketDial.Lib PacketDial.System

/-- A `CallMute` of the input does not name an ended call. -/
def MutesLive (s : Engine) (i : Input) : Prop :=
  ∀ id ∈ muteTarget i s, ∀ call ∈ s.calls.lookup id, call.state ≠ .ended

/-- A call that the input creates gets an id that no PJSIP id is still routed to. -/
def OpensUnrouted (s : Engine) (i : Input) : Prop :=
  opensCall i s → ∀ entry ∈ s.pjsipCallMap.entries, entry.2 ≠ s.nextCallId

/-- The input has the end of no call reported a second time. -/
def SavesOnce (s : Engine) (i : Input) : Prop := MutesLive s i ∧ OpensUnrouted s i

instance (s : Engine) (i : Input) : Decidable (MutesLive s i) :=
  Option.decidableForallMem (muteTarget i s)

instance (s : Engine) (i : Input) : Decidable (OpensUnrouted s i) :=
  inferInstanceAs (Decidable (opensCall i s → ∀ entry ∈ _, _))

instance (s : Engine) (i : Input) : Decidable (SavesOnce s i) :=
  inferInstanceAs (Decidable (_ ∧ _))

/-- The session, with what has become of each call since it was created: whether it has ended,
and how long the history was. -/
structure Booked where
  session : PhoneSession
  ended : UInt32 → Bool
  since : UInt32 → Nat

/-- The book before the first operation. -/
def Booked.initial : Booked := ⟨.initial, fun _ ↦ false, fun _ ↦ 0⟩

/-- The history entry was saved on an event of the call. -/
def savedFor (id : UInt32) (saved : Int × CallHistorySchema) : Bool := saved.1 = id.toNat

/-- The number of history entries of a call. -/
def Booked.entries (t : Booked) (id : UInt32) : Nat :=
  (t.session.phone.history.drop (t.since id)).countP (savedFor id)

/-- The book after a step of the session to `u` that created the call `created`. -/
def Booked.after (t : Booked) (u : PhoneSession) (created : Option UInt32) : Booked where
  session := u
  ended id := stateOf (tables u.engine) id = some .ended || (t.ended id && created ≠ some id)
  since id := if created = some id then t.session.phone.history.length else t.since id

/-- One step of the session, entered in the book. -/
def bookStep (now : Nat → Int) (t : Booked) (i : Input) : Option Booked :=
  (phoneStep now t.session i).map fun u ↦ t.after u (createdBy i t.session.engine u.engine)

/-- The invariant of the book. The claims are a witness that no call that has ended is routed
to, and no call twice. -/
structure Balanced (t : Booked) : Prop where
  keyed : (tables t.session.engine).Keyed
  since_le : ∀ id, t.since id ≤ t.session.phone.history.length
  entries : ∀ id, t.entries id = if t.ended id then 1 else 0
  ended : ∀ id, stateOf (tables t.session.engine) id = some .ended → t.ended id = true
  claims : ∃ owner, Sound (tables t.session.engine).route owner ∧
    ∀ id, t.ended id = true → owner id = none

section Book

variable {now : Nat → Int} {t : Booked} {i : Input} {s : Engine}

/-- The empty book is balanced. -/
theorem balanced_initial : Balanced Booked.initial where
  keyed := keyed_initial
  since_le _ := Nat.le_refl 0
  entries _ := rfl
  ended _ h := by cases h
  claims := ⟨fun _ ↦ none, Sound.clear _, fun _ _ ↦ rfl⟩

/-- One entry counts for the call it was saved for. -/
theorem countP_single (id id' : UInt32) (entry : CallHistorySchema) :
    [((id'.toNat : Int), entry)].countP (savedFor id) = if id = id' then 1 else 0 := by
  by_cases h : id = id'
  · simp [savedFor, h]
  · have hne : (id'.toNat : Int) ≠ id.toNat := key_ne (Ne.symm h)
    simp only [List.countP_singleton, savedFor, decide_eq_true_eq, if_neg hne, if_neg h]

/-- The entries of a call after the history has grown by `new`. -/
theorem entries_after (h : Balanced t) {u : PhoneSession} {new : List (Int × CallHistorySchema)}
    (hu : u.phone.history = t.session.phone.history ++ new) (created : Option UInt32)
    (id : UInt32) : (t.after u created).entries id =
      (if created = some id then 0 else t.entries id) + new.countP (savedFor id) := by
  unfold Booked.entries Booked.after
  dsimp only
  rw [hu]
  split
  · rw [List.drop_append_of_le_length (Nat.le_refl _), List.drop_length, List.nil_append,
      Nat.zero_add]
  · rw [List.drop_append_of_le_length (h.since_le id), List.countP_append]

/-- The entries of a call begin within the history. -/
theorem since_after_le (h : Balanced t) {u : PhoneSession}
    {new : List (Int × CallHistorySchema)}
    (hu : u.phone.history = t.session.phone.history ++ new) (created : Option UInt32)
    (id : UInt32) : (t.after u created).since id ≤ u.phone.history.length := by
  have hle := h.since_le id
  unfold Booked.after
  rw [hu, List.length_append]
  dsimp only
  split <;> omega

/-- A step that ends no call and routes none again keeps the book balanced. -/
theorem Balanced.keep (h : Balanced t) {u : PhoneSession} (hk : (tables u.engine).Keyed)
    (hu : u.phone.history = t.session.phone.history)
    (hstate : ∀ id, stateOf (tables u.engine) id = some .ended →
      stateOf (tables t.session.engine) id = some .ended)
    (hroute : ∀ pj id, (tables u.engine).route pj = some id →
      (tables t.session.engine).route pj = some id) : Balanced (t.after u none) := by
  have hnew : u.phone.history = t.session.phone.history ++ [] := by rw [hu, List.append_nil]
  have hended (id : UInt32) : (t.after u none).ended id = t.ended id := by
    unfold Booked.after
    by_cases hnow : stateOf (tables u.engine) id = some .ended
    · simp [hnow, h.ended id (hstate id hnow)]
    · simp [hnow]
  obtain ⟨owner, hsound, hfree⟩ := h.claims
  constructor
  · exact hk
  · exact since_after_le h hnew none
  · intro id
    rw [entries_after h hnew, hended, ← h.entries id]
    rfl
  · intro id hnow
    rw [hended]
    exact h.ended id (hstate id hnow)
  · refine ⟨owner, hsound.mono hroute, fun id hid ↦ hfree id ?_⟩
    rw [← hended]
    exact hid

/-- A new call under an id that no PJSIP id is routed to has no entry yet. -/
theorem Balanced.open (h : Balanced t) {u : PhoneSession} {call : Call} {pjCallId : Int}
    (hu : u.phone.history = t.session.phone.history)
    (hT : tables u.engine = (tables t.session.engine).track call pjCallId)
    (hringing : call.state = .ringing)
    (hfree : ∀ pj, (tables t.session.engine).route pj ≠ some call.id) :
    Balanced (t.after u (some call.id)) := by
  have hnew : u.phone.history = t.session.phone.history ++ [] := by rw [hu, List.append_nil]
  have hstate : stateOf (tables u.engine) =
      Function.update (stateOf (tables t.session.engine)) call.id (some .ringing) := by
    rw [hT, ← hringing]
    exact stateOf_setCall _ _ _
  have hcall : (t.after u (some call.id)).ended call.id = false := by
    simp [Booked.after, hstate]
  have hother {id : UInt32} (hid : id ≠ call.id) :
      (t.after u (some call.id)).ended id = t.ended id := by
    unfold Booked.after
    by_cases hnow : stateOf (tables t.session.engine) id = some .ended
    · simp [hstate, Function.update_of_ne hid, hnow, h.ended id hnow]
    · simp [hstate, Function.update_of_ne hid, hnow, Ne.symm hid]
  obtain ⟨owner, hsound, hclaims⟩ := h.claims
  constructor
  · change (tables u.engine).Keyed
    rw [hT]
    exact h.keyed.track _ _
  · exact since_after_le h hnew _
  · intro id
    rw [entries_after h hnew, List.countP_nil, Nat.add_zero]
    by_cases hid : id = call.id
    · subst hid
      simp [hcall]
    · rw [hother hid, if_neg (by simpa using Ne.symm hid)]
      exact h.entries id
  · intro id hnow
    change stateOf (tables u.engine) id = some .ended at hnow
    rw [hstate] at hnow
    by_cases hid : id = call.id
    · subst hid
      simp at hnow
    · rw [Function.update_of_ne hid] at hnow
      rw [hother hid]
      exact h.ended id hnow
  · refine ⟨Function.update (Function.update owner call.id none) call.id (some pjCallId), ?_, ?_⟩
    · change Sound (tables u.engine).route _
      rw [hT, CallTables.route_track]
      exact (hsound.release hfree).connect (Function.update_self _ _ _) pjCallId
    · intro id hid
      by_cases heq : id = call.id
      · subst heq
        rw [hcall] at hid
        cases hid
      · rw [Function.update_of_ne heq, Function.update_of_ne heq]
        rw [hother heq] at hid
        exact hclaims id hid

/-- The end of a call that is routed to is its first entry. -/
theorem Balanced.close (h : Balanced t) {u : PhoneSession} {id : UInt32} {pjCallId : Int}
    {entry : CallHistorySchema} (hk : (tables u.engine).Keyed)
    (hu : u.phone.history = t.session.phone.history ++ [((id.toNat : Int), entry)])
    (hmap : (tables t.session.engine).route pjCallId = some id)
    (hstate : stateOf (tables u.engine) =
      Function.update (stateOf (tables t.session.engine)) id (some .ended))
    (hroute : (tables u.engine).route =
      Function.update (tables t.session.engine).route pjCallId none) :
    Balanced (t.after u none) := by
  have hself : (t.after u none).ended id = true := by simp [Booked.after, hstate]
  have hother {id' : UInt32} (hid : id' ≠ id) : (t.after u none).ended id' = t.ended id' := by
    unfold Booked.after
    by_cases hnow : stateOf (tables t.session.engine) id' = some .ended
    · simp [hstate, Function.update_of_ne hid, hnow, h.ended id' hnow]
    · simp [hstate, Function.update_of_ne hid, hnow]
  obtain ⟨owner, hsound, hclaims⟩ := h.claims
  have hbefore : t.ended id = false := by
    rw [← Bool.not_eq_true]
    intro hended
    exact hsound.route_ne (hclaims id hended) pjCallId hmap
  constructor
  · exact hk
  · exact since_after_le h hu none
  · intro id'
    rw [entries_after h hu, countP_single, if_neg (by simp), h.entries id']
    by_cases hid : id' = id
    · subst hid
      simp [hself, hbefore]
    · simp [hother hid, hid]
  · intro id' hnow
    change stateOf (tables u.engine) id' = some .ended at hnow
    rw [hstate] at hnow
    by_cases hid : id' = id
    · subst hid
      exact hself
    · rw [Function.update_of_ne hid] at hnow
      rw [hother hid]
      exact h.ended id' hnow
  · refine ⟨Function.update owner id none, ?_, ?_⟩
    · change Sound (tables u.engine).route _
      rw [hroute]
      exact hsound.disconnect hmap
    · intro id' hid'
      by_cases heq : id' = id
      · subst heq
        exact Function.update_self _ _ _
      · rw [Function.update_of_ne heq]
        rw [hother heq] at hid'
        exact hclaims id' hid'

/-- A step that uses up no id creates no call. -/
theorem createdBy_of_next (hnext : (tables s).nextCallId = (tables t.session.engine).nextCallId) :
    createdBy i t.session.engine s = none := by
  have hsame : ¬(s.nextCallId ≠ t.session.engine.nextCallId) := fun hne ↦ hne hnext
  rw [createdBy, if_neg fun h ↦ hsame h.1]

/-- The routes avoid the next id where the input creates a call. -/
theorem route_ne_nextCallId (hopen : OpensUnrouted s i) (hop : opensCall i s) (pj : Int) :
    (tables s).route pj ≠ some (tables s).nextCallId := fun hmap ↦
  hopen hop ⟨pj, _⟩ (AList.mem_lookup_iff.mp hmap) rfl

/-- The step lemma: the app handles every event, and the book stays balanced. -/
theorem balanced_step (now : Nat → Int) (h : Balanced t) (hcond : SavesOnce t.session.engine i)
    (hs : engineStep t.session.engine i = some s) :
    ∃ u, bookStep now t i = some u ∧ u.session.engine = s ∧ Balanced u := by
  have hk := keyed_step h.keyed hs
  have hsight := sighting_of_change h.keyed (step_change h.keyed hs)
  generalize hr : reports (i.acts t.session.engine) = payloads at hsight
  generalize hT : tables s = T at hsight
  cases hsight with
  | silent hstate hroute =>
    have hcreated : createdBy i t.session.engine s = none := by
      rw [createdBy, hr, if_neg fun h ↦ h.2 rfl]
    rw [bookStep, phoneStep_silent hs hr, Option.map_some, hcreated]
    refine ⟨_, rfl, rfl, h.keep hk rfl (fun id hnow ↦ ?_) ?_⟩
    · rw [← hstate, ← hT]
      exact hnow
    · rw [hT]
      exact hroute
  | @live call _ _ hreport hlive hstate hroute hnext =>
    rw [← hT] at hnext
    rw [bookStep, phoneStep_report now hreport hs hr, Option.map_some, createdBy_of_next hnext]
    refine ⟨_, rfl, rfl, h.keep hk ?_ (fun id hnow ↦ ?_) fun pj id hid ↦ ?_⟩
    · rw [savedBy_live _ hlive, List.append_nil]
    · rw [hT, hstate] at hnow
      by_cases hid : id = call.id
      · rw [hid, Function.update_self] at hnow
        exact absurd (Option.some.inj hnow) hlive
      · rwa [Function.update_of_ne hid] at hnow
    · rwa [← hroute, ← hT]
  | @opened accountId uri direction pjCallId _ hop hreport =>
    let call := newCall t.session.engine.nextCallId accountId uri direction pjCallId
    have hadvanced : s.nextCallId = t.session.engine.nextCallId + 1 :=
      congrArg CallTables.nextCallId hT
    have hseen : reports (i.acts t.session.engine) ≠ [] := by
      obtain ⟨_, _, _, rfl⟩ := hreport
      rw [hr]
      exact List.cons_ne_nil _ _
    have hcreated : createdBy i t.session.engine s = some t.session.engine.nextCallId := by
      rw [createdBy, if_pos ⟨by simp [hadvanced], hseen⟩]
    rw [bookStep, phoneStep_report now hreport hs hr, Option.map_some, hcreated]
    have hlive : call.state ≠ .ended := fun h ↦ by cases h
    have hbalanced (u : PhoneSession) (hu : u.phone.history = t.session.phone.history)
        (hengine : u.engine = s) : Balanced (t.after u (some call.id)) :=
      h.open hu (by rw [hengine]; exact hT) rfl (route_ne_nextCallId hcond.2 hop)
    refine ⟨_, rfl, rfl, hbalanced _ ?_ rfl⟩
    exact (congrArg (_ ++ ·) (savedBy_live _ hlive _)).trans (List.append_nil _)
  | again hmute _ hended hwas =>
    obtain ⟨call, hl, hcall⟩ := Option.map_eq_some_iff.mp hwas
    exact absurd hcall (hcond.1 _ hmute call hl)
  | @ended call _ _ _ _ hreport hended hmap hstate hroute hnext =>
    rw [← hT] at hnext hstate hroute
    rw [bookStep, phoneStep_report now hreport hs hr, Option.map_some, createdBy_of_next hnext]
    have hsaved := savedBy_ended (now t.session.handled) hended t.session.phone
    exact ⟨_, rfl, rfl, h.close hk (congrArg (_ ++ ·) hsaved) hmap hstate hroute⟩

/-- In every run that neither mutes an ended call nor creates a call under an id that is still
routed to, each call that has ended has one history entry and every other call has none. -/
theorem one_entry_per_call {is : List Input} (now : Nat → Int)
    (path : Path engineStep SavesOnce Engine.initial is s) :
    ∃ t, is.foldlM (bookStep now) Booked.initial = some t ∧ t.session.engine = s ∧
      ∀ id, t.entries id = if t.ended id then 1 else 0 := by
  have run : ∃ t, is.foldlM (bookStep now) Booked.initial = some t ∧ t.session.engine = s ∧
      Balanced t := by
    induction path with
    | nil => exact ⟨Booked.initial, rfl, rfl, balanced_initial⟩
    | snoc _ hcond hs ih =>
      obtain ⟨t, ht, rfl, h⟩ := ih
      obtain ⟨u, hu, hengine, h⟩ := balanced_step now h hcond hs
      refine ⟨u, ?_, hengine, h⟩
      rw [List.foldlM_append, ht]
      simpa using hu
  obtain ⟨t, ht, hengine, h⟩ := run
  exact ⟨t, ht, hengine, h.entries⟩

end Book

/-- A mute command for the call 1. -/
def muteFirst : Input := commandInput "CallMute" [("call_id", .ofU32 1)]

/-- A call that is muted, ends and is followed by another, as an instance. -/
theorem one_entry_per_call_redial :
    ∃ s t, (signIn ++ [dial, muteFirst, hangUp, dial]).foldlM engineStep Engine.initial = some s ∧
      (signIn ++ [dial, muteFirst, hangUp, dial]).foldlM (bookStep fun _ ↦ 0) Booked.initial =
        some t ∧ t.session.engine = s ∧ ∀ id, t.entries id = if t.ended id then 1 else 0 := by
  have h : ((signIn ++ [dial, muteFirst, hangUp, dial]).foldlM
      (fun s i ↦ if SavesOnce s i then engineStep s i else none) Engine.initial).isSome := by
    decide
  obtain ⟨s, run⟩ := Option.isSome_iff_exists.mp h
  have path := Path.of_guarded run
  obtain ⟨t, ht, hengine, hentries⟩ := one_entry_per_call (fun _ ↦ 0) path
  exact ⟨s, t, path.foldlM_eq, ht, hengine, hentries⟩

/-- Muting a call after its end saves it a second time. -/
theorem muted_after_end_saved_twice :
    ∃ t, (signIn ++ [dial, hangUp, muteFirst]).foldlM (bookStep fun _ ↦ 0) Booked.initial =
      some t ∧ t.ended 1 = true ∧ t.entries 1 = 2 := by
  have h : ((signIn ++ [dial, hangUp, muteFirst]).foldlM (bookStep fun _ ↦ 0)
      Booked.initial).map (fun t ↦ (t.ended 1, t.entries 1)) = some (true, 2) := by decide
  obtain ⟨t, ht, hlooks⟩ := Option.map_eq_some_iff.mp h
  rw [Prod.mk.injEq] at hlooks
  exact ⟨t, ht, hlooks⟩

end PacketDial.Ui
