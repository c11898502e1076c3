import PacketDial.System.Consistency

/-!
# Isolation of calls

A command that names a call by its number operates on PJSIP calls of that call only, as long
as the number fits a call id and the call has not ended. The engine checks neither: the
number is cut to 32 bits, and records of ended calls keep a PJSIP id that PJSIP may have given
to another call since.
-/

namespace PacketDial.System

open PacketDial.Core PacketDial.Lib

/-- The PJSIP call that a call action acts on. -/
def actTarget : CallAct → Option Int
  | .op call => opTarget call
  | .changed _ => none

/-- The PJSIP calls that a step operates on. -/
def targets (acts : List CallAct) : List Int := acts.filterMap actTarget

/-- The id that a transfer names. -/
def transferredId : Op → Option UInt32
  | .transferCall callId _ => some (i32AsU32 callId)
  | _ => none

/-- The number by which an input names its call. -/
def namedCall (i : Input) (s : Engine) : Option Nat :=
  ((transferredId i.op).map (·.toNat)).or
    ((commandOf i s).bind fun c ↦ (c.2.get "call_id").asU64.map (·.toNat))

/-- A transfer names no ended call; a command by number does not reach, with its own checks
passed, a record that has ended or that the number only names once it is cut to 32 bits. -/
def NamesLive (s : Engine) (i : Input) : Prop :=
  (∀ id ∈ transferredId i.op, ∀ call ∈ s.calls.lookup id,
    call.pjsipCallId.isSome = true → call.state ≠ .ended) ∧
  ∀ c ∈ commandOf i s, ∀ n ∈ (c.2.get "call_id").asU64,
    ∀ call ∈ s.calls.lookup (truncU32 n), ∀ pjId ∈ call.pjsipCallId,
      (commandOp i.env c.1 c.2 call pjId).isSome = true →
        n.toNat < 2 ^ 32 ∧ call.state ≠ .ended

instance (s : Engine) (i : Input) : Decidable (NamesLive s i) :=
  @instDecidableAnd _ _ (Option.decidableForallMem (transferredId i.op))
    (@Option.decidableForallMem _ _ (fun _ ↦ Option.decidableForallMem _) (commandOf i s))

section Targets

/-- A command that has operations and a number resolves to the number, cut to 32 bits. -/
theorem commandTarget_of_callId {e : Env} {T : CallTables} {cmd : String} {p : Json}
    {n : UInt64} {id : UInt32} (hn : (p.get "call_id").asU64 = some n)
    (hid : commandTarget e T cmd p = some id) : id = truncU32 n := by
  have hfield : callIdField p = some (truncU32 n) := by
    unfold callIdField
    rw [hn]
    rfl
  unfold commandTarget at hid
  rw [hfield] at hid
  split at hid
  case h_8 => cases hid
  all_goals exact (Option.some.inj hid).symm

/-- Reports operate on nothing. -/
@[simp] theorem targets_report {call : Call} {report : CallAct} (h : IsReport call report)
    (acts : List CallAct) : targets (report :: acts) = targets acts := by
  obtain ⟨_, _, _, rfl⟩ := h
  rfl

/-- What a command operates on. -/
theorem targets_of_command {e : Env} {cmd : String} {p : Json} {T T' : CallTables}
    {acts : List CallAct} (h : CommandChange e cmd p T acts T') {pjId : Int}
    (hmem : pjId ∈ targets acts) : ∃ id call op, commandTarget e T cmd p = some id ∧
      T.calls.lookup id = some call ∧ call.pjsipCallId = some pjId ∧
      commandOp e cmd p call pjId = some op := by
  have ops (hmem : pjId ∈ targets ((commandOps e T cmd p).map .op)) :
      ∃ id call op, commandTarget e T cmd p = some id ∧ T.calls.lookup id = some call ∧
        call.pjsipCallId = some pjId ∧ commandOp e cmd p call pjId = some op := by
    obtain ⟨act, hact, htarget⟩ := List.mem_filterMap.mp hmem
    obtain ⟨op, hop, rfl⟩ := List.mem_map.mp hact
    obtain ⟨id, call, pjId', hid, hl, hpj, hcmd⟩ := mem_commandOps.mp hop
    have heq : pjId' = pjId := by
      have := opTarget_of_commandOp hcmd
      rw [show opTarget op = some pjId from htarget] at this
      exact (Option.some.inj this).symm
    subst heq
    exact ⟨id, call, op, hid, hl, hpj, hcmd⟩
  cases h with
  | idle _ => exact ops hmem
  | burn _ hacts =>
    rcases hacts with rfl | ⟨_, _, rfl, _⟩ <;> cases hmem
  | track _ _ hr =>
    obtain ⟨_, _, _, rfl⟩ := hr
    cases hmem
  | mute _ _ _ hr =>
    rw [targets_report hr] at hmem
    exact ops hmem
  | hold _ _ _ hr =>
    rw [targets_report hr] at hmem
    exact ops hmem
  | record => exact ops hmem

end Targets

section Steps

variable {i : Input} {s : Engine} {acts : List CallAct} {T : CallTables} {n : Nat}

/-- What a step on a named call operates on: a live record under the number. -/
theorem target_of_change (h : Change i s acts T) (hi : NamesLive s i)
    (hn : namedCall i s = some n) {pjId : Int} (hmem : pjId ∈ targets acts) :
    ∃ id call, id.toNat = n ∧ s.calls.lookup id = some call ∧ call.state ≠ .ended ∧
      call.pjsipCallId = some pjId := by
  have unnamed (htransfer : transferredId i.op = none) (hcmd : commandOf i s = none) : False := by
    rw [namedCall, htransfer, hcmd] at hn
    cases hn
  cases h with
  | quiet => cases hmem
  | @command cmd p _ _ hcmd h =>
    obtain ⟨id, call, op, hid, hl, hpj, hop⟩ := targets_of_command h hmem
    have htransfer : transferredId i.op = none := by
      cases hi : i.op with
      | transferCall callId destUri =>
        unfold commandOf at hcmd
        rw [hi] at hcmd
        cases hcmd
      | _ => rfl
    rw [namedCall, htransfer, hcmd] at hn
    obtain ⟨m, hm, rfl⟩ := Option.map_eq_some_iff.mp hn
    have htrunc : id = truncU32 m := commandTarget_of_callId hm hid
    have hsome : (commandOp i.env cmd p call pjId).isSome = true := by
      rw [hop]
      rfl
    rw [htrunc] at hl
    obtain ⟨hlt, hlive⟩ := hi.2 _ hcmd m hm call hl pjId hpj hsome
    refine ⟨truncU32 m, call, ?_, hl, hlive, hpj⟩
    rw [truncU32, UInt64.toNat_toUInt32]
    exact Nat.mod_eq_of_lt hlt
  | startRecording hop | stopRecording hop | state hop | media hop =>
    exact (unnamed (by rw [hop]; rfl) (by rw [commandOf, hop])).elim
  | @transfer callId pj destUri text hop hpj =>
    rw [namedCall, hop] at hn
    cases hn
    obtain ⟨call, hl, hid⟩ := Option.bind_eq_some_iff.mp hpj
    have heq : pjId = pj := by simpa [targets, actTarget, opTarget] using hmem
    subst heq
    have hlive := hi.1 (i32AsU32 callId) (by rw [hop]; rfl) call hl (by rw [hid]; rfl)
    exact ⟨_, call, rfl, hl, hlive, hid⟩
  | consultFailed | completeXfer | merge | shutdown => cases hmem
  | consult _ _ hr =>
    obtain ⟨_, _, _, rfl⟩ := hr
    cases hmem
  | incoming _ hr =>
    obtain ⟨_, _, _, rfl⟩ := hr
    cases hmem

end Steps

/-- In every orderly run, a command on the call with number `n` operates on PJSIP calls that
belong to it; on a call that is unknown or has ended it operates on none. -/
theorem isolated_of_orderly {w : World} {is : List Input} {i : Input} {n : Nat}
    (path : Path worldStep Orderly World.initial is w) (hi : NamesLive w.engine i)
    (hn : namedCall i w.engine = some n) :
    (∀ pjId ∈ targets (i.acts w.engine), ∃ id,
      w.engine.pjsipCallMap.lookup pjId = some id ∧ id.toNat = n) ∧
    ((∀ id call, id.toNat = n → w.engine.calls.lookup id = some call → call.state = .ended) →
      targets (i.acts w.engine) = []) := by
  have consistent := Consistent.of_path path
  have change : Change i w.engine (i.acts w.engine) _ := change_op consistent.keyed
  constructor
  · intro pjId hmem
    obtain ⟨id, call, hid, hl, hlive, hpj⟩ := target_of_change change hi hn hmem
    exact ⟨id, (consistent.matched pjId id).mpr ⟨call, hl, hlive, hpj⟩, hid⟩
  · intro hunknown
    rw [List.eq_nil_iff_forall_not_mem]
    intro pjId hmem
    obtain ⟨id, call, hid, hl, hlive, -⟩ := target_of_change change hi hn hmem
    exact hlive (hunknown id call hid hl)

/-- Hanging up the second call under a PJSIP id that was used before, as an instance. -/
theorem isolated_of_orderly_redial :
    ∃ w, Path worldStep Orderly World.initial (signIn ++ [dial, hangUp, dial]) w ∧
      targets ((commandInput "CallHangup" [("call_id", .ofU32 2)]).acts w.engine) = [0] ∧
      ∃ id, w.engine.pjsipCallMap.lookup 0 = some id ∧ id.toNat = 2 := by
  let hangup2 := commandInput "CallHangup" [("call_id", .ofU32 2)]
  have h : ((signIn ++ [dial, hangUp, dial]).foldlM
      (fun w i ↦ if Orderly w i then worldStep w i else none) World.initial).map (fun w ↦
        (decide (NamesLive w.engine hangup2), namedCall hangup2 w.engine,
          targets (hangup2.acts w.engine))) = some (true, some 2, [0]) := by decide
  obtain ⟨w, hw, hv⟩ := Option.map_eq_some_iff.mp h
  obtain ⟨hlive, hv⟩ := Prod.mk.inj hv
  obtain ⟨hnamed, htargets⟩ := Prod.mk.inj hv
  have path := Path.of_guarded hw
  refine ⟨w, path, htargets, ?_⟩
  apply (isolated_of_orderly path (of_decide_eq_true hlive) hnamed).1
  rw [htargets]
  exact List.mem_singleton_self 0

/-- Hanging up a call that has ended hits the call that PJSIP gave its id to since. -/
theorem hangup_hits_other_call :
    ∃ w, (signIn ++ [dial, hangUp, dial]).foldlM worldStep World.initial = some w ∧
      targets ((commandInput "CallHangup" [("call_id", .ofU32 1)]).acts w.engine) = [0] ∧
      w.engine.pjsipCallMap.lookup 0 = some 2 ∧
      (w.engine.calls.lookup 1).map (·.state) = some .ended ∧
      (w.engine.calls.lookup 2).map (·.state) = some .ringing := by
  have h : ((signIn ++ [dial, hangUp, dial]).foldlM worldStep World.initial).map (fun w ↦
      (targets ((commandInput "CallHangup" [("call_id", .ofU32 1)]).acts w.engine),
        w.engine.pjsipCallMap.lookup 0, (w.engine.calls.lookup 1).map (·.state),
        (w.engine.calls.lookup 2).map (·.state))) =
      some ([0], some 2, some .ended, some .ringing) := by decide
  obtain ⟨w, hw, hv⟩ := Option.map_eq_some_iff.mp h
  obtain ⟨htargets, hv⟩ := Prod.mk.inj hv
  obtain ⟨hmap, hv⟩ := Prod.mk.inj hv
  obtain ⟨hended, hringing⟩ := Prod.mk.inj hv
  exact ⟨w, hw, htargets, hmap, hended, hringing⟩

end PacketDial.System
