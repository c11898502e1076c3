import PacketDial.System.CommandSpec

/-!
# What a dispatched command changes

`dispatch_command` as a whole: the commands that are not on calls are tame, except
`AccountRegister`, and every command is one of the changes of `CommandChange`.
-/

namespace PacketDial.System

open PacketDial.Core PacketDial.Lib

/-- The commands that operate on calls or create them. -/
def callCommands : List String :=
  ["CallStart", "CallAnswer", "CallHangup", "CallMute", "CallHold", "CallSendDtmf",
    "CallStartRecording", "CallStopRecording"]

/-- The commands that write the table of accounts. -/
def accountCommands : List String :=
  ["AccountUpsert", "AccountRegister", "AccountUnregister", "AccountSetSecurity",
    "AccountDeleteProfile"]

/-- The commands on recordings. -/
def recordingCommands : List String := ["CallStartRecording", "CallStopRecording"]

section Programs

variable {R : Family} [∀ held, Traced.Composable (R held)]

/-- The commands that are neither on calls nor on accounts are tame, `MediaStatsUpdate` where the
statistics are not looked at. -/
theorem quiet_dispatchCommand [Sparing tableView R] {cmd : String} (p : Json)
    (hcmd : cmd ∉ callCommands) (hacc : cmd ∉ accountCommands)
    (hstats : cmd = "MediaStatsUpdate" → Lossy R) :
    Traced.Admits (R []) (dispatchCommand cmd p) := by
  unfold dispatchCommand
  split
  case h_13 =>
    have := hstats rfl
    exact (tame_cmdMediaStatsUpdate p).map _
  case h_14 => exact (tame_cmdAccountSetForwarding p).map _
  case h_15 => exact (tame_accountGetter p (fun _ ↦ rfl) _ _ (by decide)).map _
  case h_16 => exact (tame_cmdSetGlobalDnd p).map _
  case h_17 => exact (tame_cmdAccountSetLookupUrl p).map _
  case h_18 => exact (tame_accountGetter p (fun _ ↦ rfl) _ _ (by decide)).map _
  case h_19 => exact (tame_cmdAccountSetCodecPriority p).map _
  case h_20 => exact (tame_accountGetter p (fun _ ↦ rfl) _ _ (by decide)).map _
  case h_21 => exact (tame_cmdAccountSetCodec p).map _
  case h_22 => exact (tame_cmdAccountSetAutoAnswer p).map _
  case h_23 => exact (tame_accountGetter p (fun _ ↦ rfl) _ _ (by decide)).map _
  case h_24 => exact (tame_cmdAccountSetDtmfMethod p).map _
  case h_25 => exact (tame_accountGetter p (fun _ ↦ rfl) _ _ (by decide)).map _
  case h_27 => exact (tame_cmdSetGlobalCodecPriority p).map _
  case h_28 => exact (tame_globalGetter rfl _ _ (by decide)).map _
  case h_29 => exact (tame_cmdSetGlobalDtmfMethod p).map _
  case h_30 => exact (tame_globalGetter rfl _ _ (by decide)).map _
  case h_31 => exact (tame_cmdSetGlobalAutoAnswer p).map _
  case h_32 => exact (tame_globalGetter rfl _ _ (by decide)).map _
  case h_33 => exact (tame_cmdSetEcEnabled p).map _
  case h_34 => exact (tame_cmdSetMicAmplification p).map _
  case h_35 => exact (tame_cmdBlfSubscribe p).map _
  case h_36 => exact (tame_cmdBlfUnsubscribe p).map _
  case h_37 => exact tame_cmdAudioListDevices
  case h_38 => exact (tame_cmdAudioSetDevices p).map _
  case h_39 => exact tame_cmdSipCapture p
  case h_40 => exact (tame_cmdDiagExport p).map _
  case h_41 => exact (tame_cmdCredStore p).map _
  case h_42 => exact (tame_cmdCredRetrieve p).map _
  case h_43 => exact tame_cmdEnginePing.map _
  case h_44 => exact (tame_cmdSetLogLevel p).map _
  case h_45 => exact tame_cmdGetLogBuffer.map _
  case h_46 => exact tame_pure _
  all_goals first | exact absurd (by decide) hcmd | exact absurd (by decide) hacc

/-- Every command that is not on calls is tame, except `AccountRegister`. -/
theorem tame_dispatchCommand [Sparing callView R] {cmd : String} (p : Json)
    (hcmd : cmd ∉ callCommands) (hreg : cmd ≠ "AccountRegister")
    (hstats : cmd = "MediaStatsUpdate" → Lossy R) :
    Traced.Admits (R []) (dispatchCommand cmd p) := by
  by_cases hacc : cmd ∈ accountCommands
  · simp only [accountCommands, List.mem_cons, List.not_mem_nil, or_false] at hacc
    rcases hacc with rfl | rfl | rfl | rfl | rfl
    · exact (tame_cmdAccountUpsert p).map _
    · exact absurd rfl hreg
    · exact (tame_cmdAccountUnregister p).map _
    · exact (tame_cmdAccountSetSecurity p).map _
    · exact (tame_cmdAccountDeleteProfile p).map _
  · exact quiet_dispatchCommand p hcmd hacc hstats

end Programs

/-- A command that is not on calls has no operation. -/
theorem commandOps_of_not_call {cmd : String} (hcmd : cmd ∉ callCommands) (e : Env)
    (T : CallTables) (p : Json) : commandOps e T cmd p = [] := by
  have htarget : commandTarget e T cmd p = none := by
    unfold commandTarget
    split <;> first | rfl | exact absurd (by decide) hcmd
  simp [commandOps, htarget]

/-- A command that is not on calls writes no record. -/
theorem isUpdate_of_not_call {cmd : String} (hcmd : cmd ∉ callCommands) :
    isUpdate cmd = false := by
  rw [← Bool.not_eq_true]
  intro h
  apply hcmd
  rcases Bool.or_eq_true_iff.mp h with h | h
  · rw [of_decide_eq_true h]
    decide
  · rw [of_decide_eq_true h]
    decide

/-- The PJSIP call that an operation of a command acts on. -/
def opTarget : ShimCall → Option Int
  | .pdCallAnswer callId | .pdCallHangup callId | .pdCallHold callId _
  | .pdCallSetMute callId _ | .pdCallSendDtmf callId _ | .pdCallTransfer callId _
  | .pdCallStartRecording callId _ | .pdCallStopRecording callId => some callId
  | _ => none

/-- A command operates on the PJSIP id of its record. -/
theorem opTarget_of_commandOp {e : Env} {cmd : String} {p : Json} {call : Call} {pjId : Int}
    {op : ShimCall} (h : commandOp e cmd p call pjId = some op) : opTarget op = some pjId := by
  unfold commandOp at h
  split at h
  case h_5 =>
    obtain ⟨text, -, rfl⟩ := Option.map_eq_some_iff.mp h
    rfl
  case h_6 =>
    obtain ⟨path, -, h⟩ := Option.bind_eq_some_iff.mp h
    unfold startRecordingOp at h
    split at h
    · obtain ⟨text, -, rfl⟩ := Option.map_eq_some_iff.mp h
      rfl
    · cases h
  case h_7 =>
    unfold stopRecordingOp at h
    split at h
    · cases h
      rfl
    · cases h
  all_goals
    cases h
    try rfl

/-- The operations of a command come from the record it resolves to. -/
theorem mem_commandOps {e : Env} {T : CallTables} {cmd : String} {p : Json} {op : ShimCall} :
    op ∈ commandOps e T cmd p ↔ ∃ id call pjId, commandTarget e T cmd p = some id ∧
      T.calls.lookup id = some call ∧ call.pjsipCallId = some pjId ∧
      commandOp e cmd p call pjId = some op := by
  unfold commandOps
  rw [Option.mem_toList, Option.bind_eq_some_iff]
  constructor
  · rintro ⟨call, hcall, hop⟩
    obtain ⟨id, hid, hl⟩ := Option.bind_eq_some_iff.mp hcall
    obtain ⟨pjId, hpj, hop⟩ := Option.bind_eq_some_iff.mp hop
    exact ⟨id, call, pjId, hid, hl, hpj, hop⟩
  · rintro ⟨id, call, pjId, hid, hl, hpj, hop⟩
    exact ⟨call, Option.bind_eq_some_iff.mpr ⟨id, hid, hl⟩,
      Option.bind_eq_some_iff.mpr ⟨pjId, hpj, hop⟩⟩

variable {e : Env} {s : Engine}

/-- Every dispatched command is a change of the tables that `CommandChange` lists. -/
theorem change_dispatchCommand (hk : (tables s).Keyed) (cmd : String) (p : Json) :
    callView.Yields (dispatchCommand cmd p) e s fun _ ↦ CommandChange e cmd p (tables s) := by
  by_cases hcmd : cmd ∈ callCommands
  · simp only [callCommands, List.mem_cons, List.not_mem_nil, or_false] at hcmd
    rcases hcmd with rfl | rfl | rfl | rfl | rfl | rfl | rfl | rfl
    · exact View.yields_map change_cmdCallStart
    · exact View.yields_map (change_cmdCallAnswer hk)
    · exact View.yields_map (change_cmdCallHangup hk)
    · exact View.yields_map change_cmdCallMute
    · exact View.yields_map change_cmdCallHold
    · exact View.yields_map change_cmdCallSendDtmf
    · exact View.yields_map change_cmdCallStartRecording
    · exact View.yields_map change_cmdCallStopRecording
  · have unchanged : CommandChange e cmd p (tables s) [] (tables s) :=
      change_idle (isUpdate_of_not_call hcmd) (by rw [commandOps_of_not_call hcmd]; rfl)
    by_cases hreg : cmd = "AccountRegister"
    · subst hreg
      exact View.yields_map (View.yields_still (calm_cmdAccountRegister p) fun _ ↦ unchanged)
    · exact yields_tame (tame_dispatchCommand p hcmd hreg fun _ ↦ inferInstance) fun _ ↦ unchanged

end PacketDial.System
