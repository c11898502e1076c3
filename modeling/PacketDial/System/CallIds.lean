import PacketDial.System.Edits

/-!
# Call ids are keys

`NEXT_CALL_ID` hands out an id for every call that is started, also for those that PJSIP refuses,
and a record is filed in `CALLS` under the id it carries. As long as the counter has not come round,
no id is handed out twice, and searching the values of `CALLS` for an id is looking the id up.
-/

namespace PacketDial.System

open PacketDial.Core PacketDial.Lib

/-- The ids that a counter hands out from `first` on. -/
def idsFrom (first : UInt32) (n : Nat) : List UInt32 := (List.range n).map fun k ↦ first + .ofNat k

/-- The ids that were handed out while the counter went from one value to another. -/
def idsBetween (first next : UInt32) : List UInt32 := idsFrom first (next - first).toNat

/-- The engine with the ids that its counter has handed out, in their order. -/
structure Registry where
  engine : Engine
  handedOut : List UInt32

/-- No id has been handed out yet. -/
def Registry.initial : Registry := ⟨Engine.initial, []⟩

/-- A step of the engine, which hands out the ids its counter goes past. -/
def registryStep (r : Registry) (i : Input) : Option Registry :=
  (engineStep r.engine i).map fun s ↦
    ⟨s, r.handedOut ++ idsBetween r.engine.nextCallId s.nextCallId⟩

section Counting

variable {first : UInt32} {n : Nat}

@[simp] theorem idsFrom_zero : idsFrom first 0 = [] := rfl

/-- One id more. -/
theorem idsFrom_succ : idsFrom first (n + 1) = idsFrom first n ++ [first + .ofNat n] := by
  rw [idsFrom, List.range_succ, List.map_append]
  rfl

/-- A counter that stays hands out nothing. -/
@[simp] theorem idsBetween_self : idsBetween first first = [] := by
  rw [idsBetween, UInt32.sub_self]
  rfl

/-- A counter that goes on by one hands out the id it was at. -/
@[simp] theorem idsBetween_succ : idsBetween first (first + 1) = [first] := by
  have hsub : first + 1 - first = 1 := by rw [UInt32.add_comm, UInt32.add_sub_cancel]
  have hone : UInt32.toNat 1 = 0 + 1 := rfl
  rw [idsBetween, hsub, hone, idsFrom_succ, idsFrom_zero]
  exact congrArg (fun id ↦ [id]) first.add_zero

/-- Ids from counts below `2 ^ 32` differ. -/
theorem idAt_injective {k l : Nat} (hk : k < 2 ^ 32) (hl : l < 2 ^ 32)
    (h : first + .ofNat k = first + .ofNat l) : k = l := by
  have hnat : UInt32.ofNat k = UInt32.ofNat l := UInt32.add_right_inj first |>.mp h
  have hmod := congrArg UInt32.toNat hnat
  rw [UInt32.toNat_ofNat_of_lt' hk, UInt32.toNat_ofNat_of_lt' hl] at hmod
  exact hmod

/-- The counter has not come round: nothing is handed out twice. -/
theorem nodup_idsFrom (hn : n ≤ 2 ^ 32) : (idsFrom first n).Nodup := by
  apply List.Nodup.map_on _ List.nodup_range
  intro k hk l hl h
  rw [List.mem_range] at hk hl
  exact idAt_injective (hk.trans_le hn) (hl.trans_le hn) h

/-- An id of a later count has not been handed out. -/
theorem idAt_not_mem {k : Nat} (hn : n ≤ k) (hk : k < 2 ^ 32) :
    first + .ofNat k ∉ idsFrom first n := by
  intro hmem
  obtain ⟨l, hl, heq⟩ := List.mem_map.mp hmem
  rw [List.mem_range] at hl
  have hlk := idAt_injective (hl.trans_le hn |>.trans hk) hk heq
  omega

end Counting

namespace CallTables

/-- The counter stays and no record is filed under a new id, or one id is used up and a record may
be filed under it. -/
def Counts (T U : CallTables) : Prop :=
  (U.nextCallId = T.nextCallId ∧ ∀ id ∈ U.calls, id ∈ T.calls) ∨
    (U.nextCallId = T.nextCallId + 1 ∧ ∀ id ∈ U.calls, id = T.nextCallId ∨ id ∈ T.calls)

variable {T U V : CallTables}

/-- Nothing happens. -/
theorem Counts.refl : T.Counts T := Or.inl ⟨rfl, fun _ h ↦ h⟩

/-- Afterwards the counter stays and no record is filed under a new id. -/
theorem Counts.trans_same (h : T.Counts U) (hnext : V.nextCallId = U.nextCallId)
    (hcalls : ∀ id ∈ V.calls, id ∈ U.calls) : T.Counts V := by
  rcases h with ⟨hU, hkeys⟩ | ⟨hU, hkeys⟩
  · exact Or.inl ⟨hnext.trans hU, fun id hid ↦ hkeys id (hcalls id hid)⟩
  · exact Or.inr ⟨hnext.trans hU, fun id hid ↦ hkeys id (hcalls id hid)⟩

/-- A record that is there is written. -/
theorem mem_setCall {id id' : UInt32} {old new : Call} (hl : T.calls.lookup id = some old)
    (h : id' ∈ (T.setCall id new).calls) : id' ∈ T.calls := by
  rcases AList.mem_insert _ |>.mp h with rfl | h
  · rw [← AList.lookup_isSome, hl]
    rfl
  · exact h

end CallTables

section Steps

variable {i : Input} {s s' : Engine} {ids : List Int}

/-- What an edit does to the counter and to the ids in use. -/
theorem counts_edit {U V : CallTables} (h : (tables s).Counts U) (he : Edit i s ids U V) :
    (tables s).Counts V := by
  cases he with
  | burn => exact Or.inr ⟨rfl, fun _ hid ↦ Or.inr hid⟩
  | enter _ _ hid _ _ =>
    refine Or.inr ⟨rfl, fun id hmem ↦ ?_⟩
    rcases AList.mem_insert _ |>.mp hmem with rfl | hmem
    · exact Or.inl hid
    · exact Or.inr hmem
  | amend hl => exact h.trans_same rfl fun _ ↦ CallTables.mem_setCall hl
  | hold _ hl => exact h.trans_same rfl fun _ ↦ CallTables.mem_setCall hl
  | progress _ hl => exact h.trans_same rfl fun _ ↦ CallTables.mem_setCall hl
  | finish _ hl =>
    refine h.trans_same rfl fun id hid ↦ ?_
    exact CallTables.mem_setCall hl hid
  | forget => exact h.trans_same rfl fun _ hid ↦ hid
  | clear => exact h.trans_same rfl fun _ hid ↦ hid

/-- A step hands out at most one id, and files no record but under that. -/
theorem counts_step (hk : (tables s).Keyed) (h : engineStep s i = some s') :
    (tables s).Counts (tables s') :=
  edits_invariant (edits_of_change (step_change hk h)) (fun _ _ hU he ↦ counts_edit hU he) .refl

end Steps

/-- What holds of the ids in every run: they were handed out in a row from 1 on, the counter is
behind them, and each record is filed under the one it carries. -/
structure Numbered (r : Registry) : Prop where
  keyed : (tables r.engine).Keyed
  handedOut : r.handedOut = idsFrom 1 r.handedOut.length
  next : r.engine.nextCallId = 1 + .ofNat r.handedOut.length
  filed : ∀ id ∈ r.engine.calls, id ∈ r.handedOut

namespace Numbered

/-- No id is in use at first. -/
theorem initial : Numbered Registry.initial where
  keyed := keyed_initial
  handedOut := rfl
  next := rfl
  filed id h := absurd h (AList.notMem_empty id)

/-- The step lemma: ids are handed out in a row. -/
theorem step {r r' : Registry} {i : Input} (h : Numbered r) (hs : registryStep r i = some r') :
    Numbered r' := by
  obtain ⟨s', hs', rfl⟩ := Option.map_eq_some_iff.mp hs
  have hk := keyed_step h.keyed hs'
  rcases counts_step h.keyed hs' with ⟨hnext, hcalls⟩ | ⟨hnext, hcalls⟩
  · have hids : idsBetween r.engine.nextCallId s'.nextCallId = [] :=
      (congrArg _ hnext).trans idsBetween_self
    rw [hids, List.append_nil]
    exact
      { keyed := hk
        handedOut := h.handedOut
        next := Eq.trans hnext h.next
        filed := fun id hid ↦ h.filed id (hcalls id hid) }
  · have hids : idsBetween r.engine.nextCallId s'.nextCallId = [r.engine.nextCallId] :=
      (congrArg _ hnext).trans idsBetween_succ
    rw [hids]
    refine ⟨hk, ?_, ?_, fun id hid ↦ ?_⟩
    · rw [List.length_append, List.length_singleton, idsFrom_succ, ← h.handedOut, h.next]
    · rw [List.length_append, List.length_singleton, show s'.nextCallId = _ from hnext]
      change r.engine.nextCallId + 1 = _
      rw [h.next, UInt32.ofNat_add, UInt32.add_assoc]
      rfl
    · rcases hcalls id hid with rfl | hid
      · exact List.mem_append_right _ (List.mem_singleton_self _)
      · exact List.mem_append_left _ (h.filed id hid)

/-- The run lemma: ids are handed out in a row in every run. -/
theorem of_run {r : Registry} {is : List Input}
    (run : is.foldlM registryStep Registry.initial = some r) : Numbered r :=
  (Path.of_foldlM run).invariant initial fun _ _ _ h _ hs ↦ h.step hs

variable {r : Registry}

/-- No id has been handed out twice. -/
theorem nodup (h : Numbered r) (hfew : r.handedOut.length < 2 ^ 32) : r.handedOut.Nodup := by
  rw [h.handedOut]
  exact nodup_idsFrom hfew.le

/-- The next id is new. -/
theorem next_not_mem (h : Numbered r) (hfew : r.handedOut.length < 2 ^ 32) :
    r.engine.nextCallId ∉ r.handedOut := by
  rw [h.handedOut, h.next]
  exact idAt_not_mem le_rfl hfew

/-- The id 0 is that of no call. -/
theorem zero_not_mem (h : Numbered r) (hfew : r.handedOut.length < 2 ^ 32) : 0 ∉ r.handedOut := by
  rw [h.handedOut]
  have hlast : (0 : UInt32) = 1 + .ofNat (2 ^ 32 - 1) := by decide
  rw [hlast]
  exact idAt_not_mem (Nat.le_pred_of_lt hfew) (by decide)

/-- No record is filed under an id that has not been handed out. -/
theorem lookup_eq_none (h : Numbered r) {id : UInt32} (hid : id ∉ r.handedOut) :
    r.engine.calls.lookup id = none :=
  AList.lookup_eq_none.mpr fun hmem ↦ hid (h.filed id hmem)

end Numbered

/-- The searches by value select the records that look-ups by key do: any search of the values for
an id, those of `cmd_call_answer`, `cmd_call_hangup`, the transfers and the merge. A hang-up selects
the record that `cmd_call_mute` and `cmd_call_hold` resolve, a transfer and a merge the records that
the recording functions look up. -/
structure ScansByKey (s : Engine) : Prop where
  scan (e : Env) (id : UInt32) :
    (callValues.run e s).value.find? (·.id == id) = s.calls.lookup id
  answer (e : Env) (p : Json) : ((answerTarget p).run e s).value.toOption.join =
    ((commandTarget e (tables s) "CallAnswer" p).bind s.calls.lookup).bind (·.pjsipCallId)
  hangup (e : Env) (p : Json) : ((hangupTarget p).run e s).value =
    (s.calls.lookup ((targetOrLive p).run e s).value).bind (·.pjsipCallId)
  transfer (e : Env) (callId : Int) : ((callById callId).run e s).value =
    ((snapshotCall (i32AsU32 callId)).run e s).value
  pair (e : Env) (callA callB : Int) : ((callPair callA callB).run e s).value =
    ((((snapshotCall (i32AsU32 callA)).run e s).value.bind (·.pjsipCallId)).bind fun a ↦
      (((snapshotCall (i32AsU32 callB)).run e s).value.bind (·.pjsipCallId)).map fun b ↦ (a, b))

/-- Records under their own ids, and none under 0: the searches select what the look-ups do. -/
theorem scansByKey {s : Engine} (hk : (tables s).Keyed) (hzero : s.calls.lookup 0 = none) :
    ScansByKey s where
  scan e id := hk.find_id e id
  answer e p := by
    obtain ⟨-, -, hvalue⟩ := yields_answerTarget (e := e) (p := p) hk
    exact hvalue
  hangup e p := by
    obtain ⟨-, -, hvalue⟩ := yields_hangupTarget (e := e) (p := p) hk
    have htarget : ((targetOrLive p).run e s).value =
        (commandTarget e (tables s) "CallHangup" p).getD 0 := rfl
    rw [htarget]
    refine Eq.trans hvalue ?_
    cases commandTarget e (tables s) "CallHangup" p with
    | some id => rfl
    | none =>
      rw [Option.getD_none, hzero]
      rfl
  transfer e callId := by
    obtain ⟨hvalue, -, -⟩ := yields_callById (e := e) hk callId
    exact hvalue
  pair e callA callB := by
    obtain ⟨hvalue, -, -⟩ := yields_callPair (e := e) hk callA callB
    exact hvalue

/-- In every run with fewer than `2 ^ 32` ids handed out, no id was handed out twice and the next
one is new, each record of `CALLS` is filed under the id it carries, which was handed out, and the
searches by value select the calls that the look-ups by key do. -/
theorem id_is_key {r : Registry} {is : List Input}
    (run : is.foldlM registryStep Registry.initial = some r)
    (hfew : r.handedOut.length < 2 ^ 32) :
    r.handedOut.Nodup ∧ r.engine.nextCallId ∉ r.handedOut ∧
      (∀ id call, r.engine.calls.lookup id = some call → call.id = id ∧ id ∈ r.handedOut) ∧
      ScansByKey r.engine := by
  have h := Numbered.of_run run
  refine ⟨h.nodup hfew, h.next_not_mem hfew, fun id call hl ↦ ⟨h.keyed id call hl, ?_⟩, ?_⟩
  · exact h.filed id (AList.lookup_isSome.mp (hl ▸ rfl))
  · exact scansByKey h.keyed (h.lookup_eq_none (h.zero_not_mem hfew))

/-- A call that PJSIP refuses. -/
def refusedDial : Input := { dial with env := { dial.env with rc := fun _ ↦ -1 } }

/-- A refused call uses up the id 2; the calls before and after it are filed under 1 and 3. -/
theorem id_is_key_refused : ∃ r,
    (signIn ++ [dial, hangUp, refusedDial, dial]).foldlM registryStep Registry.initial = some r ∧
      r.handedOut = [1, 2, 3] ∧ r.engine.calls.keys = [3, 1] ∧
      r.handedOut.Nodup ∧ r.engine.nextCallId ∉ r.handedOut ∧
      (∀ id call, r.engine.calls.lookup id = some call → call.id = id ∧ id ∈ r.handedOut) ∧
      ScansByKey r.engine := by
  have h : ((signIn ++ [dial, hangUp, refusedDial, dial]).foldlM registryStep
      Registry.initial).map (fun r ↦ (r.handedOut, r.engine.calls.keys)) =
        some ([1, 2, 3], [3, 1]) := by decide
  obtain ⟨r, run, hr⟩ := Option.map_eq_some_iff.mp h
  obtain ⟨hids, hkeys⟩ := Prod.mk.inj hr
  exact ⟨r, run, hids, hkeys, id_is_key run (by rw [hids]; decide)⟩

end PacketDial.System
