import PacketDial.System.Tame

/-!
# Tame commands

The commands on accounts, settings and devices, one by one. All are admitted by every family that
is blind to what the calls hide, except `AccountRegister`, whose failure path is only calm; those
that leave the accounts alone also by every family that is blind to what the accounts hide.
-/

namespace PacketDial.System

open PacketDial.Core PacketDial.Lib

private theorem canPush_nil : CanPush [] := by decide

section Lookups

variable {R : Family} {held : List Mutex} [∀ held, Traced.Composable (R held)]

/-- The lookup of `cmd_account_register` is tame. -/
theorem tame_lookupForRegister [Sparing fullView R] (id : String) :
    Traced.Admits (R []) (lookupForRegister id) := by
  unfold lookupForRegister
  refine tame_withLock (by decide) (tame_get.bind fun s ↦ ?_)
  dsimp only
  apply Traced.admits_ite
  · exact (tame_logEngine (by decide) _ _).bind fun _ ↦ tame_pure _
  · exact tame_pure _

/-- Reading a reason text is tame. -/
theorem tame_reasonText [Sparing fullView R] (h : Above held .accounts) (callback : String)
    (reason : CPtr) : Traced.Admits (R held) (reasonText callback reason) := by
  cases reason with
  | null => exact tame_pure _
  | text s => exact tame_pure _
  | invalidUtf8 => exact (tame_logEngine h.canLog _ _).bind fun _ ↦ tame_pure _

/-- Deleting the shim's profile is tame. -/
theorem tame_shimDeleteProfile [Sparing tableView R] (uuid : String) :
    Traced.Admits (R []) (shimDeleteProfile uuid) := by
  unfold shimDeleteProfile
  split
  · exact (tame_shim rfl).map _
  · exact tame_pure _

end Lookups

section Accounts

variable {R : Family} {held : List Mutex} [∀ held, Traced.Composable (R held)] [Sparing callView R]

/-- Writing an account is tame. -/
theorem tame_insertAccount (id : String) (a : Account) :
    Traced.Admits (R held) (insertAccount id a) :=
  sparing_modify (v := callView) (by intro; rfl) (by intro; rfl)

/-- Setting the registration state of an account is tame. -/
theorem tame_setRegState (id : String) (state : RegistrationState) :
    Traced.Admits (R held) (setRegState id state) := by
  unfold setRegState
  refine tame_get.bind fun s ↦ ?_
  split
  · exact tame_insertAccount _ _
  · exact tame_pure _

/-- Taking the PJSIP id of an account is tame. -/
theorem tame_takePjsipAccId (id : String) (state : RegistrationState) :
    Traced.Admits (R held) (takePjsipAccId id state) := by
  unfold takePjsipAccId
  refine tame_get.bind fun s ↦ ?_
  split
  · exact (tame_insertAccount _ _).bind fun _ ↦ tame_pure _
  · exact tame_pure _

/-- Removing a PJSIP account is tame. -/
theorem tame_removePjsipAccount (pjId : Int) :
    Traced.Admits (R []) (removePjsipAccount pjId) := by
  unfold removePjsipAccount
  refine ((blind_shim (v := callView) rfl).map _).bind fun _ ↦ ?_
  exact tame_withLock (by decide) (sparing_modify (v := callView) (by intro; rfl) (by intro; rfl))

/-- Forgetting the PJSIP account of an account is tame. -/
theorem tame_forgetPjsipAccount (pjId : Option Int) (text : Int → String) :
    Traced.Admits (R []) (forgetPjsipAccount pjId text) := by
  unfold forgetPjsipAccount
  split
  · exact (tame_removePjsipAccount _).bind fun _ ↦ tame_logEngine canLog_nil _ _
  · exact tame_pure _

/-- `cmd_account_upsert` is tame. -/
theorem tame_cmdAccountUpsert (p : Json) : Traced.Admits (R []) (cmdAccountUpsert p) := by
  unfold cmdAccountUpsert
  split
  · exact tame_pure _
  · next uuid _ =>
    refine (tame_withLock (by decide) (tame_get.bind fun s ↦ ?_)).bind fun known ↦ ?_
    · exact (tame_insertAccount _ _).bind fun _ ↦ tame_pure _
    · dsimp only
      apply Traced.admits_ite
      · exact (tame_pushRegState canPush_nil (by decide) _ _).bind fun _ ↦ tame_pure _
      · exact tame_pure _

/-- The transition to `Registering` is tame. -/
theorem tame_beginRegistration (id : String) (acct : Account) :
    Traced.Admits (R []) (beginRegistration id acct) := by
  unfold beginRegistration
  dsimp only
  split
  on_goal 1 => refine (tame_logEngine canLog_nil _ _).bind fun _ ↦ ?_
  all_goals
    refine (tame_withLock (by decide) (tame_takePjsipAccId _ _)).bind fun oldPjId ↦ ?_
    split
    · exact (tame_removePjsipAccount _).bind fun _ ↦ tame_pushEvent canPush_nil (by decide) _
    · exact tame_pushEvent canPush_nil (by decide) _

/-- The success path of `cmd_account_register` is tame. -/
theorem tame_registerStarted (id : String) (pjAccId : Int) :
    Traced.Admits (R []) (registerStarted id pjAccId) := by
  unfold registerStarted
  refine (tame_withLock (by decide) (tame_get.bind fun s ↦ ?_)).bind fun _ ↦ ?_
  · split
    · exact tame_insertAccount _ _
    · exact tame_pure _
  · refine (tame_withLock (by decide)
      (sparing_modify (v := callView) (by intro; rfl) (by intro; rfl))).bind fun _ ↦ ?_
    exact (tame_logEngine canLog_nil _ _).bind fun _ ↦ tame_pure _

/-- The failure path of `cmd_account_register` is calm. -/
theorem calm_registerFailed (id : String) : Traced.Admits Calm (registerFailed id) := by
  unfold registerFailed
  refine (calm_withLock ?_).bind fun _ ↦ Traced.admits_pure _
  have set (state : RegistrationState) : Traced.Admits (Tame []) (setRegState id state) :=
    tame_setRegState id state
  refine (calm_of_tame (set _)).bind fun _ ↦ ?_
  refine (calm_of_tame (tame_pushRegState canPush_nil (by decide) _ _)).bind fun _ ↦ ?_
  exact calm_of_tame (tame_logEngine canLog_nil _ _)

/-- `cmd_account_register` is calm. -/
theorem calm_cmdAccountRegister (p : Json) : Traced.Admits Calm (cmdAccountRegister p) := by
  unfold cmdAccountRegister
  split
  · exact Traced.admits_pure _
  · next id _ =>
    refine (calm_of_tame (tame_lookupForRegister id)).bind fun found ↦ ?_
    split
    · exact Traced.admits_pure _
    · refine (calm_of_tame (tame_beginRegistration id _)).bind fun _ ↦ ?_
      split
      · exact calm_of_tame ((tame_logEngine canLog_nil _ _).bind fun _ ↦ tame_pure _)
      · have add (args : AccAddArgs) : Traced.Admits (Tame []) (shim (.pdAccAdd args)) :=
          blind_shim (v := callView) rfl
        refine (calm_of_tame (add _)).bind fun pjAccId ↦ ?_
        split
        · exact calm_registerFailed id
        · exact calm_of_tame (tame_registerStarted id _)

/-- `cmd_account_unregister` is tame. -/
theorem tame_cmdAccountUnregister (p : Json) :
    Traced.Admits (R []) (cmdAccountUnregister p) := by
  unfold cmdAccountUnregister
  split
  · exact tame_pure _
  · next id _ =>
    refine (tame_withLock (by decide) (tame_get.bind fun s ↦ ?_)).bind fun found ↦ ?_
    · exact (tame_takePjsipAccId _ _).bind fun _ ↦ tame_pure _
    · refine Traced.admits_ite (tame_pure _) ?_
      refine (tame_forgetPjsipAccount _ _).bind fun _ ↦ ?_
      exact (tame_pushRegState canPush_nil (by decide) _ _).bind fun _ ↦ tame_pure _

/-- `cmd_account_set_security` is tame. -/
theorem tame_cmdAccountSetSecurity (p : Json) :
    Traced.Admits (R []) (cmdAccountSetSecurity p) := by
  unfold cmdAccountSetSecurity
  split
  · exact tame_pure _
  · refine (tame_withLock (by decide) (tame_get.bind fun s ↦ ?_)).bind fun found ↦ ?_
    · split
      · exact tame_pure _
      · exact (tame_insertAccount _ _).bind fun _ ↦ tame_pure _
    · split
      · exact tame_pure _
      · exact (tame_pushEvent canPush_nil (by decide) _).bind fun _ ↦ tame_pure _

/-- `cmd_account_delete_profile` is tame. -/
theorem tame_cmdAccountDeleteProfile (p : Json) :
    Traced.Admits (R []) (cmdAccountDeleteProfile p) := by
  unfold cmdAccountDeleteProfile
  split
  · exact tame_pure _
  · next uuid _ =>
    refine (tame_withLock (by decide) (tame_get.bind fun s ↦ ?_)).bind fun found ↦ ?_
    · exact (sparing_modify (v := callView) (by intro; rfl) (by intro; rfl)).bind
        fun _ ↦ tame_pure _
    · split
      · exact tame_pure _
      · refine (tame_forgetPjsipAccount _ _).bind fun _ ↦ ?_
        refine (tame_shimDeleteProfile uuid).bind fun _ ↦ ?_
        refine (tame_logEngine canLog_nil _ _).bind fun _ ↦ ?_
        refine (tame_pushRegState canPush_nil (by decide) _ _).bind fun _ ↦ ?_
        exact (tame_pushEvent canPush_nil (by decide) _).bind fun _ ↦ tame_pure _

end Accounts

section Settings

variable {R : Family} [∀ held, Traced.Composable (R held)] [Sparing tableView R]

/-- A setter is tame when its shim call is no operation on a call. -/
theorem tame_runSetter {call : ShimCall} (hc : tableView.act (.shim call) = none)
    (failLog : Option String)
    (failure : EngineErrorCode) {type : String} (ht : IsPlain type)
    (payload : List (String × Json)) :
    Traced.Admits (R []) (runSetter call failLog failure type payload) := by
  unfold runSetter
  refine (tame_shim hc).bind fun rc ↦ Traced.admits_ite ?_ ?_
  · cases failLog with
    | none => exact tame_pure _
    | some what => exact (tame_logEngine canLog_nil _ _).bind fun _ ↦ tame_pure _
  · exact (tame_pushEvent canPush_nil ht _).bind fun _ ↦ tame_pure _

/-- Looking up the PJSIP id of an account is tame. -/
theorem tame_accountPjsipId (accountId : String) :
    Traced.Admits (R []) (accountPjsipId accountId) :=
  tame_withLock (by decide) (tame_get.bind fun _ ↦ tame_pure _)

/-- A setter of one account is tame. -/
theorem tame_accountSetter (accountId : String) {call : Int → Option ShimCall}
    (hc : ∀ pjId c, call pjId = some c → tableView.act (.shim c) = none) (failLog : Option String)
    (failure : EngineErrorCode) {type : String} (ht : IsPlain type)
    (payload : List (String × Json)) :
    Traced.Admits (R []) (accountSetter accountId call failLog failure type payload) := by
  unfold accountSetter
  dsimp only
  refine (tame_accountPjsipId _).bind fun pjId ↦ ?_
  split
  · exact (tame_pushEvent canPush_nil ht _).bind fun _ ↦ tame_pure _
  · next pjId =>
    split
    · exact tame_pure _
    · next c h => exact tame_runSetter (hc pjId c h) _ _ ht _

/-- A getter is tame when its shim call is no operation on a call. -/
theorem tame_runGetter {call : ShimCall} (hc : tableView.act (.shim call) = none)
    (read fallback : Env → List (String × Json)) :
    Traced.Admits (R []) (runGetter call read fallback) := by
  unfold runGetter
  exact (tame_shim hc).bind fun _ ↦ tame_ask.bind fun _ ↦ tame_pure _

/-- Reading the fields of a getter is tame. -/
theorem tame_accountFields (accountId : String) {call : Int → ShimCall}
    (hc : ∀ pjId, tableView.act (.shim (call pjId)) = none)
    (read : ShimCall → Env → List (String × Json))
    (fallback : Env → List (String × Json)) :
    Traced.Admits (R []) (accountFields accountId call read fallback) := by
  unfold accountFields
  refine (tame_accountPjsipId _).bind fun pjId ↦ ?_
  split
  · exact tame_runGetter (hc _) _ _
  · exact tame_ask.bind fun _ ↦ tame_pure _

/-- A getter of one account is tame. -/
theorem tame_accountGetter (p : Json) {call : Int → ShimCall}
    (hc : ∀ pjId, tableView.act (.shim (call pjId)) = none)
    (read : ShimCall → Env → List (String × Json))
    (fallback : Env → List (String × Json)) {type : String} (ht : IsPlain type) :
    Traced.Admits (R []) (accountGetter p call read fallback type) := by
  unfold accountGetter
  split
  · exact tame_pure _
  · refine (tame_accountFields _ hc _ _).bind fun fields ↦ ?_
    exact (tame_pushEvent canPush_nil ht _).bind fun _ ↦ tame_pure _

/-- A getter of an engine-wide setting is tame. -/
theorem tame_globalGetter {call : ShimCall} (hc : tableView.act (.shim call) = none)
    (read fallback : Env → List (String × Json)) {type : String}
    (ht : IsPlain type) :
    Traced.Admits (R []) (globalGetter call read fallback type) := by
  unfold globalGetter
  refine (tame_runGetter hc _ _).bind fun fields ↦ ?_
  exact (tame_pushEvent canPush_nil ht _).bind fun _ ↦ tame_pure _

/-- `cmd_account_set_forwarding` is tame. -/
theorem tame_cmdAccountSetForwarding (p : Json) :
    Traced.Admits (R []) (cmdAccountSetForwarding p) := by
  unfold cmdAccountSetForwarding
  split
  · exact tame_pure _
  · refine (tame_logEngine canLog_nil _ _).bind fun _ ↦ ?_
    refine tame_accountSetter _ ?_ _ _ (by decide) _
    intro pjId c h
    obtain ⟨uri, -, rfl⟩ := Option.map_eq_some_iff.mp h
    rfl

/-- `cmd_set_global_dnd` is tame. -/
theorem tame_cmdSetGlobalDnd (p : Json) : Traced.Admits (R []) (cmdSetGlobalDnd p) := by
  unfold cmdSetGlobalDnd
  split
  · exact tame_pure _
  · exact (tame_logEngine canLog_nil _ _).bind fun _ ↦ tame_runSetter rfl _ _ (by decide) _

/-- `cmd_blf_subscribe` is tame. -/
theorem tame_cmdBlfSubscribe (p : Json) : Traced.Admits (R []) (cmdBlfSubscribe p) := by
  unfold cmdBlfSubscribe
  split
  · dsimp only
    refine Traced.admits_ite (tame_pure _) ?_
    refine (tame_logEngine canLog_nil _ _).bind fun _ ↦ ?_
    refine tame_accountSetter _ ?_ _ _ (by decide) _
    intro pjId c h
    cases h
    rfl
  · exact tame_pure _

/-- `cmd_blf_unsubscribe` is tame. -/
theorem tame_cmdBlfUnsubscribe (p : Json) : Traced.Admits (R []) (cmdBlfUnsubscribe p) := by
  unfold cmdBlfUnsubscribe
  split
  · exact tame_pure _
  · refine (tame_logEngine canLog_nil _ _).bind fun _ ↦ ?_
    refine tame_accountSetter _ ?_ _ _ (by decide) _
    intro pjId c h
    cases h
    rfl

/-- `cmd_account_set_lookup_url` is tame. -/
theorem tame_cmdAccountSetLookupUrl (p : Json) :
    Traced.Admits (R []) (cmdAccountSetLookupUrl p) := by
  unfold cmdAccountSetLookupUrl
  split
  · exact tame_pure _
  · refine (tame_logEngine canLog_nil _ _).bind fun _ ↦ ?_
    refine tame_accountSetter _ ?_ _ _ (by decide) _
    intro pjId c h
    obtain ⟨url, -, rfl⟩ := Option.map_eq_some_iff.mp h
    rfl

/-- `cmd_account_set_codec_priority` is tame. -/
theorem tame_cmdAccountSetCodecPriority (p : Json) :
    Traced.Admits (R []) (cmdAccountSetCodecPriority p) := by
  unfold cmdAccountSetCodecPriority
  split
  · refine tame_accountSetter _ ?_ _ _ (by decide) _
    intro pjId c h
    obtain ⟨priorities, -, rfl⟩ := Option.map_eq_some_iff.mp h
    rfl
  · exact tame_pure _

/-- `cmd_account_set_codec` is tame. -/
theorem tame_cmdAccountSetCodec (p : Json) :
    Traced.Admits (R []) (cmdAccountSetCodec p) := by
  unfold cmdAccountSetCodec
  split
  · refine tame_accountSetter _ ?_ _ _ (by decide) _
    intro pjId c h
    obtain ⟨codec, -, rfl⟩ := Option.map_eq_some_iff.mp h
    rfl
  · exact tame_pure _

/-- `cmd_account_set_auto_answer` is tame. -/
theorem tame_cmdAccountSetAutoAnswer (p : Json) :
    Traced.Admits (R []) (cmdAccountSetAutoAnswer p) := by
  unfold cmdAccountSetAutoAnswer
  split
  · refine tame_accountSetter _ ?_ _ _ (by decide) _
    intro pjId c h
    cases h
    rfl
  · exact tame_pure _

/-- `cmd_account_set_dtmf_method` is tame. -/
theorem tame_cmdAccountSetDtmfMethod (p : Json) :
    Traced.Admits (R []) (cmdAccountSetDtmfMethod p) := by
  unfold cmdAccountSetDtmfMethod
  split
  · refine tame_accountSetter _ ?_ _ _ (by decide) _
    intro pjId c h
    cases h
    rfl
  · exact tame_pure _

/-- `cmd_set_global_codec_priority` is tame. -/
theorem tame_cmdSetGlobalCodecPriority (p : Json) :
    Traced.Admits (R []) (cmdSetGlobalCodecPriority p) := by
  unfold cmdSetGlobalCodecPriority
  split
  · exact tame_pure _
  · split
    · exact tame_pure _
    · exact tame_runSetter rfl _ _ (by decide) _

/-- `cmd_set_global_dtmf_method` is tame. -/
theorem tame_cmdSetGlobalDtmfMethod (p : Json) :
    Traced.Admits (R []) (cmdSetGlobalDtmfMethod p) := by
  unfold cmdSetGlobalDtmfMethod
  split
  · exact tame_pure _
  · exact tame_runSetter rfl _ _ (by decide) _

/-- `cmd_set_global_auto_answer` is tame. -/
theorem tame_cmdSetGlobalAutoAnswer (p : Json) :
    Traced.Admits (R []) (cmdSetGlobalAutoAnswer p) := by
  unfold cmdSetGlobalAutoAnswer
  split
  · exact tame_pure _
  · exact tame_runSetter rfl _ _ (by decide) _

/-- `cmd_set_ec_enabled` is tame. -/
theorem tame_cmdSetEcEnabled (p : Json) : Traced.Admits (R []) (cmdSetEcEnabled p) := by
  unfold cmdSetEcEnabled
  split
  · exact tame_pure _
  · exact tame_runSetter rfl _ _ (by decide) _

/-- `cmd_set_mic_amplification` is tame. -/
theorem tame_cmdSetMicAmplification (p : Json) :
    Traced.Admits (R []) (cmdSetMicAmplification p) := by
  unfold cmdSetMicAmplification
  split
  · exact tame_pure _
  · exact tame_runSetter rfl _ _ (by decide) _

/-- `cmd_sip_capture` is tame. -/
theorem tame_cmdSipCapture (p : Json) : Traced.Admits (R []) (cmdSipCapture p) := by
  unfold cmdSipCapture
  dsimp only
  split
  · exact tame_pure _
  · exact (tame_pushEvent canPush_nil (by decide) _).bind fun _ ↦ tame_pure _

/-- `cmd_diag_export` is tame. -/
theorem tame_cmdDiagExport (p : Json) : Traced.Admits (R []) (cmdDiagExport p) := by
  unfold cmdDiagExport
  dsimp only
  refine (tame_withLock (by decide) (tame_get.bind fun _ ↦ tame_pure _)).bind fun count ↦ ?_
  exact (tame_pushEvent canPush_nil (by decide) _).bind fun _ ↦ tame_pure _

/-- `cmd_cred_store` is tame. -/
theorem tame_cmdCredStore (p : Json) : Traced.Admits (R []) (cmdCredStore p) := by
  unfold cmdCredStore
  split
  · refine (tame_withLock (by decide) (tame_modify (by intro; rfl) (by intro; rfl))).bind fun _ ↦ ?_
    exact (tame_pushEvent canPush_nil (by decide) _).bind fun _ ↦ tame_pure _
  · exact tame_pure _

/-- `cmd_cred_retrieve` is tame: its lock is none that an event delivery takes. -/
theorem tame_cmdCredRetrieve (p : Json) : Traced.Admits (R []) (cmdCredRetrieve p) := by
  unfold cmdCredRetrieve
  split
  · exact tame_pure _
  · refine tame_withLock (by decide) (tame_get.bind fun s ↦ ?_)
    split
    · exact tame_pure _
    · exact (tame_pushEvent (by decide) (by decide) _).bind fun _ ↦ tame_pure _

/-- `cmd_engine_ping` is tame. -/
theorem tame_cmdEnginePing : Traced.Admits (R []) cmdEnginePing :=
  (tame_pushEvent canPush_nil (by decide) _).bind fun _ ↦ tame_pure _

/-- `cmd_set_log_level` is tame. -/
theorem tame_cmdSetLogLevel (p : Json) : Traced.Admits (R []) (cmdSetLogLevel p) := by
  unfold cmdSetLogLevel
  split
  · exact tame_pure _
  · refine (tame_modify (by intro; rfl) (by intro; rfl)).bind fun _ ↦ ?_
    exact (tame_pushEvent canPush_nil (by decide) _).bind fun _ ↦ tame_pure _

/-- `cmd_get_log_buffer` is tame. -/
theorem tame_cmdGetLogBuffer : Traced.Admits (R []) cmdGetLogBuffer := by
  unfold cmdGetLogBuffer
  refine (tame_withLock (by decide) (tame_get.bind fun _ ↦ tame_pure _)).bind fun items ↦ ?_
  exact (tame_pushEvent canPush_nil (by decide) _).bind fun _ ↦ tame_pure _

end Settings

section Devices

variable {R : Family} [∀ held, Traced.Composable (R held)] [Sparing tableView R]

/-- The loop over the enumerated devices is tame, by induction on the list. -/
theorem tame_readDevices (entries : List DeviceEntry) :
    Traced.Admits (R []) (readDevices entries) := by
  induction entries with
  | nil => exact tame_pure _
  | cons entry rest ih =>
    unfold readDevices
    dsimp only
    exact (tame_logEngine canLog_nil _ _).bind fun _ ↦ ih.bind fun _ ↦ tame_pure _

/-- Adding a fallback device is tame. -/
theorem tame_ensureDevice (kind : AudioDeviceKind) (what name : String) :
    Traced.Admits (R [.audioDevices]) (ensureDevice kind what name) := by
  unfold ensureDevice
  refine tame_get.bind fun s ↦ ?_
  apply Traced.admits_ite
  · exact (tame_logEngine (by decide) _ _).bind fun _ ↦ tame_modify (by intro; rfl) (by intro; rfl)
  · exact tame_pure _

/-- Publishing the device list is tame. -/
theorem tame_publishDevices (realDevices : List AudioDevice) :
    Traced.Admits (R []) (publishDevices realDevices) := by
  unfold publishDevices
  refine ((tame_shim rfl).map _).bind fun _ ↦ tame_ask.bind fun env ↦ ?_
  dsimp only
  refine (tame_logEngine canLog_nil _ _).bind fun _ ↦ ?_
  refine (tame_withLock (by decide) (tame_modify (by intro; rfl) (by intro; rfl))).bind fun _ ↦ ?_
  refine (tame_modify (by intro; rfl) (by intro; rfl)).bind fun _ ↦ ?_
  refine (tame_withLock (by decide) ?_).bind fun _ ↦ ?_
  · exact (tame_ensureDevice _ _ _).bind fun _ ↦ tame_ensureDevice _ _ _
  · refine (tame_withLock (by decide) (tame_get.bind fun _ ↦ tame_pure _)).bind fun _ ↦ ?_
    refine tame_get.bind fun s ↦ ?_
    exact (tame_pushEvent canPush_nil (by decide) _).bind fun _ ↦ tame_pure _

/-- `cmd_audio_list_devices` is tame. -/
theorem tame_cmdAudioListDevices : Traced.Admits (R []) cmdAudioListDevices := by
  unfold cmdAudioListDevices
  refine (tame_shim rfl).bind fun count ↦ Traced.admits_ite ?_ ?_
  · exact (tame_logEngine canLog_nil _ _).bind fun _ ↦ (tame_publishDevices _).map _
  · refine (tame_logEngine canLog_nil _ _).bind fun _ ↦ tame_ask.bind fun env ↦ ?_
    dsimp only
    refine (tame_readDevices _).bind fun devices ↦ Traced.admits_ite (tame_pure _) ?_
    exact (tame_publishDevices _).map _

/-- `cmd_audio_set_devices` is tame. -/
theorem tame_cmdAudioSetDevices (p : Json) :
    Traced.Admits (R []) (cmdAudioSetDevices p) := by
  unfold cmdAudioSetDevices
  split
  · refine (tame_withLock (by decide) (tame_get.bind fun _ ↦ tame_pure _)).bind fun found ↦ ?_
    dsimp only
    refine (tame_logEngine canLog_nil _ _).bind fun _ ↦ Traced.admits_ite ?_ ?_
    · exact (tame_logEngine canLog_nil _ _).bind fun _ ↦ tame_pure _
    · refine (tame_shim rfl).bind fun rc ↦ ?_
      split <;>
        exact (tame_logEngine canLog_nil _ _).bind fun _ ↦
          (tame_modify (by intro; rfl) (by intro; rfl)).bind fun _ ↦
            (tame_pushEvent canPush_nil (by decide) _).bind fun _ ↦ tame_pure _
  · exact tame_pure _

end Devices

section Calls

variable {R : Family} [∀ held, Traced.Composable (R held)] [Sparing fullView R]

/-- Closing the talk time is tame. -/
theorem tame_settleActive (call : Call) :
    Traced.Admits (R [.calls]) (settleActive call) := by
  unfold settleActive
  split
  · exact tame_nowSecs.bind fun _ ↦ tame_pure _
  · exact tame_pure _

/-- Computing the record of a hold command is tame. -/
theorem tame_holdRecord (hold : Bool) (call : Call) :
    Traced.Admits (R [.calls]) (holdRecord hold call) := by
  unfold holdRecord
  split
  · exact tame_settleActive _
  · exact tame_nowSecs.bind fun _ ↦ tame_pure _

/-- Computing the record of a state callback is tame. -/
theorem tame_applyState (newState : CallState) (old : Call) :
    Traced.Admits (R [.calls]) (applyState newState old) := by
  unfold applyState
  split
  · exact tame_nowSecs.bind fun _ ↦ tame_pure _
  · split
    · exact tame_settleActive _
    · exact tame_pure _

/-- The logs of an answered call are tame. -/
theorem tame_logAnswered (pjId rc : Int) : Traced.Admits (R []) (logAnswered pjId rc) := by
  unfold logAnswered
  dsimp only
  refine (tame_logEngine canLog_nil _ _).bind fun _ ↦ ?_
  split
  · exact (tame_logEngine canLog_nil _ _).bind fun _ ↦ tame_logEngine canLog_nil _ _
  · exact tame_logEngine canLog_nil _ _

/-- Choosing the account of a call is tame. -/
theorem tame_defaultCallAccount : Traced.Admits (R []) defaultCallAccount := by
  unfold defaultCallAccount
  refine tame_withLock (by decide) (tame_accountValues.bind fun values ↦ ?_)
  split
  · exact tame_pure _
  · exact (tame_logEngine (by decide) _ _).bind fun _ ↦ tame_pure _

/-- The audio report is tame. -/
theorem tame_audioPreflight : Traced.Admits (R []) audioPreflight := by
  unfold audioPreflight
  refine tame_withLock (by decide) (tame_get.bind fun s ↦ ?_)
  exact tame_logEngine (by decide) _ _

/-- Reading the account of a call is tame. -/
theorem tame_callStartAccount (accountId : String) :
    Traced.Admits (R []) (callStartAccount accountId) := by
  unfold callStartAccount
  refine tame_withLock (by decide) (tame_get.bind fun s ↦ ?_)
  split <;> exact tame_pure _

/-- Finding the account of a call is tame. -/
theorem tame_callAccount (p : Json) : Traced.Admits (R []) (callAccount p) := by
  unfold callAccount
  split
  · exact tame_pure _
  · exact tame_defaultCallAccount

end Calls

section Statistics

variable {R : Family} {held : List Mutex} [∀ held, Traced.Composable (R held)]

/-- Entering statistics is tame where they are not looked at. -/
theorem tame_insertMediaStats [Lossy R] (id : UInt32) (stats : MediaStats) :
    Traced.Admits (R held) (insertMediaStats id stats) :=
  Traced.admits_modify fun s ↦ Lossy.update s _

/-- So is dropping them. -/
theorem tame_eraseMediaStats [Lossy R] (id : UInt32) : Traced.Admits (R held)
    (Traced.modify fun s ↦ { s with mediaStats := s.mediaStats.erase id } : Eng Unit) :=
  Traced.admits_modify fun s ↦ Lossy.update s _

variable [Sparing tableView R] [Lossy R]

/-- `cmd_media_stats_update` is tame there. -/
theorem tame_cmdMediaStatsUpdate (p : Json) :
    Traced.Admits (R []) (cmdMediaStatsUpdate p) := by
  unfold cmdMediaStatsUpdate
  split
  · exact tame_pure _
  · dsimp only
    refine (tame_pushMediaStats canLog_nil.2 _).bind fun _ ↦ ?_
    exact (tame_withLock (by decide) (tame_insertMediaStats _ _)).bind fun _ ↦ tame_pure _

/-- `pjsip_poll_media_stats` is tame there. -/
theorem tame_pjsipPollMediaStats (pjCallId : Int) :
    Traced.Admits (R []) (pjsipPollMediaStats pjCallId) := by
  unfold pjsipPollMediaStats
  refine (tame_withLock (by decide) (tame_get.bind fun _ ↦ tame_pure _)).bind fun found ↦ ?_
  split
  · exact tame_pure _
  · refine (tame_shim rfl).bind fun rc ↦ Traced.admits_ite (tame_ask.bind fun env ↦ ?_)
      (tame_pure _)
    dsimp only
    refine (tame_pushMediaStats canPush_nil _).bind fun _ ↦ ?_
    exact tame_withLock (by decide) (tame_insertMediaStats _ _)

end Statistics

section Callbacks

variable {R : Family} {held : List Mutex} [∀ held, Traced.Composable (R held)]
  [Sparing tableView R]

/-- `pjsip_on_log` is tame. -/
theorem tame_pjsipOnLog (h : Above held .accounts) (pjLevel : Int) (msg : CPtr) :
    Traced.Admits (R held) (pjsipOnLog pjLevel msg) := by
  unfold pjsipOnLog
  split
  · exact tame_pure _
  · exact tame_logEngine h.canLog _ _

/-- `pjsip_on_sip_msg` is tame. -/
theorem tame_pjsipOnSipMsg (h : Above held .accounts) (pjCallId isTx : Int) (msg : CPtr) :
    Traced.Admits (R held) (pjsipOnSipMsg pjCallId isTx msg) := by
  unfold pjsipOnSipMsg
  split
  · exact tame_pure _
  · split
    · exact tame_emit rfl rfl rfl rfl rfl
    · exact tame_pushEvent h.canLog.2 (by decide) _

/-- `pjsip_on_transfer_status` is tame. -/
theorem tame_pjsipOnTransferStatus (h : Above held .accounts) (pjCallId statusCode : Int)
    (reason : CPtr) (isFinal : Int) :
    Traced.Admits (R held) (pjsipOnTransferStatus pjCallId statusCode reason isFinal) := by
  have hmap : Above held .pjsipCallMap := h.trans (by decide)
  unfold pjsipOnTransferStatus
  refine (tame_reasonText h _ _).bind fun reason ↦ ?_
  refine (tame_withLock hmap (tame_get.bind fun _ ↦ tame_pure _)).bind fun found ↦ ?_
  dsimp only
  refine (tame_pushEvent h.canLog.2 (by decide) _).bind fun _ ↦ ?_
  exact tame_logEngine h.canLog _ _

/-- `pjsip_on_blf_status` is tame. -/
theorem tame_pjsipOnBlfStatus (h : Above held .accounts) (uri : CPtr) (state : Int)
    (activity : CPtr) : Traced.Admits (R held) (pjsipOnBlfStatus uri state activity) := by
  cases uri with
  | invalidUtf8 => exact tame_logEngine h.canLog _ _
  | null => exact tame_pushEvent h.canLog.2 (by decide) _
  | text s => exact tame_pushEvent h.canLog.2 (by decide) _

end Callbacks

section Registration

variable {R : Family} {held : List Mutex} [∀ held, Traced.Composable (R held)] [Sparing callView R]

/-- `pjsip_on_reg_state` is tame. -/
theorem tame_pjsipOnRegState (h : Above held .accounts) (pjAccId expires statusCode : Int)
    (reason : CPtr) :
    Traced.Admits (R held) (pjsipOnRegState pjAccId expires statusCode reason) := by
  have hmap : Above held .pjsipAccMap := h.trans (by decide)
  unfold pjsipOnRegState
  refine (tame_reasonText h _ _).bind fun reason ↦ ?_
  refine (tame_withLock hmap (tame_get.bind fun _ ↦ tame_pure _)).bind fun found ↦ ?_
  split
  · exact tame_logEngine h.canLog _ _
  · dsimp only
    refine (tame_withLock h (tame_get.bind fun s ↦ ?_)).bind fun _ ↦ ?_
    · split
      · exact tame_insertAccount _ _
      · exact tame_pure _
    · refine (tame_pushRegState h.canLog.2 h _ _).bind fun _ ↦ ?_
      exact tame_logEngine h.canLog _ _

end Registration

end PacketDial.System
